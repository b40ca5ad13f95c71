import DgxSpark.Deploy.Contract

/-!
# What the digest of a contract binds

The digest that `validate_contract` recomputes covers the members of `_hash_input` only. So a
contract that is changed under its recorded digest is rejected exactly when the change breaks
the shape, or touches a covered member (`DgxSpark.changed_rejected_iff`); a contract that is
moved to another container, image and command line is accepted
(`DgxSpark.moved_contract_accepted`).
-/

namespace DgxSpark

open Json (selectKeys)

/-- **The shape that is checked**, whatever the digest says. -/
structure WellShaped (contract : Json) : Prop where
  complete : ∀ key ∈ requiredKeys, contract.hasKey key = true
  schema : (contract.get "schema_version").pyEq (.int 1) = true
  role : contract.get "role" = .str "head" ∨ contract.get "role" = .str "worker"
  service_argv : isNonemptyList (contract.get "service_argv") = true
  container_argv : isNonemptyList (contract.get "container_argv") = true

/-- A contract is accepted if it has the shape and carries its digest. -/
theorem contractChecks_eq_ok_iff {contract : Json} :
    contractChecks contract = .ok () ↔
      WellShaped contract ∧ isSha256Text (contract.get digestKey) = true ∧
        contract.get digestKey = .str (serviceContractSha256 contract) := by
  simp only [contractChecks, contractFail, except_bind_eq_ok, failWith_eq_ok]
  constructor
  · rintro ⟨_, hmissing, _, hschema, _, -, _, hrole, _, hservice, _, hcontainer, _, hshape, hdigest⟩
    refine ⟨⟨fun key hkey => ?_, ?_, ?_, ?_, ?_⟩, ?_, ?_⟩
    · simp only [Bool.not_eq_false', List.isEmpty_iff, List.filter_eq_nil_iff] at hmissing
      simpa using hmissing key hkey
    · simpa using hschema
    · simp only [Bool.and_eq_false_iff, bne_eq_false_iff_eq] at hrole
      exact hrole
    · simpa using hservice
    · simpa using hcontainer
    · simpa using hshape
    · simpa using hdigest
  · rintro ⟨h, hshape, hdigest⟩
    have hnone : (requiredKeys.filter fun key => !contract.hasKey key) = [] :=
      List.filter_eq_nil_iff.2 fun key hkey => by simp [h.complete key hkey]
    refine ⟨(), by rw [hnone]; rfl, (), by simp [h.schema], (), ?_, (), ?_, (),
      by simp [h.service_argv], (), by simp [h.container_argv], (), by simp [hshape], ?_⟩
    · rcases h.role with hr | hr <;> simp [hr, Json.hashable]
    · rcases h.role with hr | hr <;> simp [hr]
    · simp [hdigest]

theorem validateContract_eq_ok_iff {contract v : Json} :
    validateContract contract = .ok v ↔ contractChecks contract = .ok () ∧ v = contract := by
  rw [validateContract, except_bind_eq_ok]
  constructor
  · rintro ⟨⟨⟩, hchecks, hv⟩
    exact ⟨hchecks, (Except.ok.inj hv).symm⟩
  · rintro ⟨hchecks, rfl⟩
    exact ⟨(), hchecks, rfl⟩

/-! ### The covered members -/

/-- The change touches a member that the digest covers. -/
def CoveredChange (a b : Json) : Prop :=
  ∃ key ∈ hashKeys, (a.find? key).map Json.sortKeys ≠ (b.find? key).map Json.sortKeys

/-- What a selection of members says, up to key order, is what it says of each key. -/
theorem sortMembers_selectKeys_congr {ks : List String} {a b : Json}
    (h : ∀ key ∈ ks, (a.find? key).map Json.sortKeys = (b.find? key).map Json.sortKeys) :
    Json.sortMembers (selectKeys ks a) = Json.sortMembers (selectKeys ks b) := by
  have hmap : ∀ j : Json, Json.sortMembers (selectKeys ks j) =
      ks.filterMap fun key => ((j.find? key).map Json.sortKeys).map fun v => (key, v) := by
    intro j
    rw [Json.sortMembers_eq_map, selectKeys, List.map_filterMap]
    refine List.filterMap_congr fun key _ => ?_
    simp [Option.map_map, Function.comp_def]
  rw [hmap a, hmap b]
  exact List.filterMap_congr fun key hkey => by rw [h key hkey]

theorem hashKeys_nodup : hashKeys.Nodup := by decide

/-- **The hashed texts differ exactly when a covered member was touched.** -/
theorem hashText_ne_iff {a b : Json} (ha : a.WF) (hb : b.WF) :
    hashText a ≠ hashText b ↔ CoveredChange a b := by
  constructor
  · intro hne
    by_contra hnot
    refine hne ?_
    have hsame := @sortMembers_selectKeys_congr hashKeys a b fun key hkey => by
      by_contra hdiff
      exact hnot ⟨key, hkey, hdiff⟩
    simp only [hashText, hashInput, Json.canonical, Json.dumps, Json.sortKeys, hsame]
  · rintro ⟨key, hkey, hdiff⟩ htext
    have hwa := Json.wf_selectKeys ha hashKeys_nodup
    have hwb := Json.wf_selectKeys hb hashKeys_nodup
    have hsorted := Json.sortKeys_eq_of_canonical_eq hwa hwb htext
    have hfind := congrArg (fun j => j.find? key) hsorted
    rw [Json.find?_sortKeys hwa, Json.find?_sortKeys hwb, Json.find?_selectKeys,
      Json.find?_selectKeys, if_pos hkey, if_pos hkey] at hfind
    exact hdiff hfind

/-! ### A changed contract -/

/-- **A contract changed under its digest is rejected** if and only if the change breaks the
checked shape or touches a covered member. The last hypothesis says that the two hashed texts
are no collision. -/
theorem changed_rejected_iff {a b : Json} (ha : a.WF) (hb : b.WF)
    (haccepted : validateContract a = .ok a) (hdigest : b.get digestKey = a.get digestKey)
    (hinjective : Sha256.hexDigest (hashText a) = Sha256.hexDigest (hashText b) →
      hashText a = hashText b) :
    (∀ v, validateContract b ≠ .ok v) ↔ ¬WellShaped b ∨ CoveredChange a b := by
  obtain ⟨-, htext, hstamp⟩ := contractChecks_eq_ok_iff.1 (validateContract_eq_ok_iff.1 haccepted).1
  rw [← hashText_ne_iff ha hb]
  constructor
  · intro hrejected
    by_contra hnot
    obtain ⟨hshape, hsame⟩ := not_or.1 hnot
    refine hrejected b (validateContract_eq_ok_iff.2 ⟨contractChecks_eq_ok_iff.2
      ⟨not_not.1 hshape, by rw [hdigest]; exact htext, ?_⟩, rfl⟩)
    rw [hdigest, hstamp, serviceContractSha256, not_not.1 hsame, serviceContractSha256]
  · intro hchange v haccept
    obtain ⟨hshape, -, hstamp'⟩ := contractChecks_eq_ok_iff.1 (validateContract_eq_ok_iff.1 haccept).1
    rcases hchange with hbroken | hdiff
    · exact hbroken hshape
    · rw [hdigest, hstamp] at hstamp'
      exact hdiff (hinjective (Json.str.inj hstamp'))

/-! ### A contract that is moved -/

/-- The head contract of a candidate deployment. -/
def candidateContract : Contract :=
  (renderContract candidateConfig .head (some candidateLock) none).toOption.get (by decide +kernel)

theorem renderContract_candidate :
    renderContract candidateConfig .head (some candidateLock) none = .ok candidateContract :=
  except_eq_ok_get _

/-- The same contract for another container, with another root and another command. -/
def Contract.moved (c : Contract) : Contract :=
  { c with
    container := "elsewhere"
    modelRoot := "/elsewhere"
    containerArgv := ["elsewhere"] }

theorem hashText_moved (c : Contract) : hashText c.moved.toJson = hashText c.toJson := by
  rw [hashText_toJson, hashText_toJson]
  refine congrArg (fun kvs => Json.canonical (.obj kvs)) (List.filterMap_congr ?_)
  simp only [hashKeys, List.forall_mem_cons]
  exact ⟨rfl, rfl, rfl, rfl, rfl, rfl, rfl, rfl, rfl, rfl, rfl, by simp⟩

theorem get_digestKey_moved (c : Contract) : c.moved.toJson.get digestKey = c.toJson.get digestKey :=
  rfl

/-- The staged contract, and the same one moved, are both accepted. -/
theorem validateContract_moved {c : Contract} (hs : c.serviceArgv ≠ []) (hc : c.containerArgv ≠ []) :
    validateContract c.restamped.toJson = .ok c.restamped.toJson ∧
      validateContract c.restamped.moved.toJson = .ok c.restamped.moved.toJson := by
  have hchecks := contractChecks_restamped hs hc
  have hstamp := (contractChecks_eq_ok_iff.1 hchecks).2.2
  refine ⟨validateContract_eq_ok_iff.2 ⟨hchecks, rfl⟩, validateContract_eq_ok_iff.2 ⟨?_, rfl⟩⟩
  refine (contractChecks_toJson (c := c.restamped.moved) hs (by simp [Contract.moved])
    (isSha256Text_hexDigest _)).2 ?_
  rw [serviceContractSha256, hashText_moved]
  exact Json.str.inj hstamp

theorem Contract.wf_moved {c : Contract} (h : (c.environment.map Prod.fst).Nodup) :
    c.restamped.toJson.WF ∧ c.restamped.moved.toJson.WF :=
  ⟨Contract.wf_toJson (c := c.restamped) h, Contract.wf_toJson (c := c.restamped.moved) h⟩

theorem candidateContract_props :
    Rendered candidateConfig .head none candidateContract :=
  rendered_of_renderContract renderContract_candidate

theorem changed_rejected_iff_moved :
    (∀ v, validateContract candidateContract.restamped.moved.toJson ≠ .ok v) ↔
      ¬WellShaped candidateContract.restamped.moved.toJson ∨
        CoveredChange candidateContract.restamped.toJson
          candidateContract.restamped.moved.toJson := by
  have h := candidateContract_props
  obtain ⟨ha, hb⟩ := Contract.wf_moved h.environment_nodup
  exact changed_rejected_iff ha hb
    (validateContract_moved h.serviceArgv_ne h.containerArgv_ne).1 (get_digestKey_moved _)
    fun _ => (hashText_moved _).symm

/-- A contract for another container, root and command passes under the recorded digest. -/
theorem moved_contract_accepted :
    let a := candidateContract.restamped.toJson
    let b := candidateContract.restamped.moved.toJson
    validateContract a = .ok a ∧ b.get digestKey = a.get digestKey ∧
      b.get "container" ≠ a.get "container" ∧ b.get "container_argv" ≠ a.get "container_argv" ∧
      validateContract b = .ok b := by
  have h := candidateContract_props
  obtain ⟨ha, hb⟩ := validateContract_moved h.serviceArgv_ne h.containerArgv_ne
  refine ⟨ha, get_digestKey_moved _, ?_, ?_, hb⟩
  · decide +kernel
  · decide +kernel

end DgxSpark
