import DgxSpark.Deploy.Contract

/-!
# The renderer against the validator

The contract that the renderer prints passes the validator only if two different texts have
one SHA-256 digest (`DgxSpark.rendererAgrees_iff`): the text with the role and the text
without it (`DgxSpark.digestText_ne_hashText`). For the candidate configuration of the tests
both digests are computed, and they differ (`DgxSpark.candidateHead_not_rendererAgrees`).
-/

namespace DgxSpark

open Json (selectKeys)

/-- The two selections of members differ, so the two texts do: one names the role. -/
theorem digestText_ne_hashText {c : Contract} (h : (c.environment.map Prod.fst).Nodup) :
    digestText c.base ≠ hashText c.toJson := by
  have hbase : c.base.WF := Contract.wf_base h
  have hjson : c.toJson.WF := Contract.wf_toJson h
  have hdigest : Json.WF (.obj (selectKeys digestKeys c.base)) :=
    Json.wf_selectKeys hbase (by decide)
  have hhash : Json.WF (.obj (selectKeys hashKeys c.toJson)) :=
    Json.wf_selectKeys hjson (by decide)
  intro heq
  have hsorted := Json.sortKeys_eq_of_canonical_eq hdigest hhash heq
  have hrole := congrArg (fun j => Json.find? j "role") hsorted
  simp only [Json.find?_sortKeys hdigest, Json.find?_sortKeys hhash, Json.find?_selectKeys] at hrole
  rw [if_pos (by decide), if_neg (by decide)] at hrole
  exact absurd hrole (by simp [Contract.base, Json.find?, Json.members, List.lookup])

/-- **Agreement of the renderer and the validator** on one role: the object decoded from
the rendered text is accepted, and the digest it shows is the digest in the contract that is
staged. -/
def RendererAgrees (config : Config) (role : Role) (lock : Option Lock) (gidIndex : Option Int) :
    Prop :=
  ∃ printed shown staged copied : _,
    renderContractJson config role lock gidIndex = .ok printed ∧
    Json.loads printed = some shown ∧
    validateContract shown = .ok shown ∧
    contractJson config role lock gidIndex = .ok staged ∧
    Json.loads staged = some copied ∧
    shown.get digestKey = copied.get digestKey

/-- The digest that a decoded contract shows. -/
theorem get_digestKey_sortKeys {c : Contract} (h : (c.environment.map Prod.fst).Nodup) :
    c.toJson.sortKeys.get digestKey = .str c.serviceContractSha256 := by
  rw [Json.get_sortKeys (Contract.wf_toJson h)]
  rfl

/-- Agreement on a rendered contract is a collision of its two texts. -/
theorem collides_of_rendererAgrees {config : Config} {role : Role} {lock : Option Lock}
    {gidIndex : Option Int} (h : RendererAgrees config role lock gidIndex) :
    ∃ c, renderContract config role lock gidIndex = .ok c ∧
      Sha256.hexDigest (digestText c.base) = Sha256.hexDigest (hashText c.toJson) := by
  obtain ⟨printed, shown, staged, copied, hp, hl, -, hs, hc, hd⟩ := h
  obtain ⟨c, hr, hp⟩ := except_bind_eq_ok.1 hp
  have hprops := rendered_of_renderContract hr
  have hnodup := hprops.environment_nodup
  refine ⟨c, hr, ?_⟩
  -- what was printed decodes to the contract with its keys sorted
  rw [← Except.ok.inj hp, Json.loads_dumps_newline Json.indented_blank
    (Contract.wf_toJson hnodup)] at hl
  obtain rfl := Option.some.inj hl
  -- what was staged decodes to the restamped contract
  rw [contractJson_eq hr] at hs
  rw [← Except.ok.inj hs, Json.loads_dumps_newline Json.indented_blank
    (Contract.wf_toJson (c := c.restamped) hnodup)] at hc
  obtain rfl := Option.some.inj hc
  rw [get_digestKey_sortKeys hnodup, get_digestKey_sortKeys (c := c.restamped) hnodup] at hd
  rw [← hprops.digest_eq]
  exact Json.str.inj hd

/-- A collision of the two texts of a rendered contract makes the two sides agree. -/
theorem rendererAgrees_of_collides {config : Config} {role : Role} {lock : Option Lock}
    {gidIndex : Option Int} {c : Contract} (hr : renderContract config role lock gidIndex = .ok c)
    (h : Sha256.hexDigest (digestText c.base) = Sha256.hexDigest (hashText c.toJson)) :
    RendererAgrees config role lock gidIndex := by
  have hprops := rendered_of_renderContract hr
  have hnodup := hprops.environment_nodup
  have hdigest : c.serviceContractSha256 = serviceContractSha256 c.toJson := by
    rw [hprops.digest_eq, h, serviceContractSha256]
  have hchecks : contractChecks c.toJson.sortKeys = .ok () := by
    rw [contractChecks_sortKeys (Contract.wf_toJson hnodup)]
    refine (contractChecks_toJson hprops.serviceArgv_ne hprops.containerArgv_ne ?_).mpr hdigest
    rw [hprops.digest_eq]
    exact isSha256Text_hexDigest _
  refine ⟨_, c.toJson.sortKeys, _, c.restamped.toJson.sortKeys, ?_,
    Json.loads_dumps_newline Json.indented_blank (Contract.wf_toJson hnodup), ?_,
    contractJson_eq hr,
    Json.loads_dumps_newline Json.indented_blank (Contract.wf_toJson (c := c.restamped) hnodup),
    ?_⟩
  · rw [renderContractJson, hr]
    rfl
  · rw [validateContract, hchecks]
    rfl
  · rw [get_digestKey_sortKeys hnodup, get_digestKey_sortKeys (c := c.restamped) hnodup]
    exact congrArg Json.str hdigest

/-- **The renderer and the validator agree on a contract only through a collision**: it is
rendered, and two different texts, the renderer's with the role and the validator's
without it, have one digest. -/
theorem rendererAgrees_iff (config : Config) (role : Role) (lock : Option Lock)
    (gidIndex : Option Int) :
    RendererAgrees config role lock gidIndex ↔
      ∃ c, renderContract config role lock gidIndex = .ok c ∧
        digestText c.base ≠ hashText c.toJson ∧
        Sha256.hexDigest (digestText c.base) = Sha256.hexDigest (hashText c.toJson) := by
  constructor
  · intro h
    obtain ⟨c, hr, heq⟩ := collides_of_rendererAgrees h
    exact ⟨c, hr, digestText_ne_hashText (rendered_of_renderContract hr).environment_nodup, heq⟩
  · rintro ⟨c, hr, -, heq⟩
    exact rendererAgrees_of_collides hr heq

/-- The digest covers neither the lock nor the container command. -/
theorem digestText_contractOf (config : Config) (role : Role) (lock : Option Lock)
    (gidIndex : Option Int) (fabric : FabricSpec) (path : String) (serviceArgv argv : List String) :
    digestText (contractOf config role lock gidIndex fabric path serviceArgv argv).base =
      digestText (contractOf config role none gidIndex fabric path serviceArgv []).base ∧
    hashText (contractOf config role lock gidIndex fabric path serviceArgv argv).base =
      hashText (contractOf config role none gidIndex fabric path serviceArgv []).base := by
  refine ⟨congrArg (fun kvs => Json.canonical (.obj kvs)) (List.filterMap_congr ?_),
    congrArg (fun kvs => Json.canonical (.obj kvs)) (List.filterMap_congr ?_)⟩
  · simp only [digestKeys, List.forall_mem_cons]
    exact ⟨rfl, rfl, rfl, rfl, rfl, rfl, rfl, rfl, rfl, rfl, rfl, rfl, by simp⟩
  · simp only [hashKeys, List.forall_mem_cons]
    exact ⟨rfl, rfl, rfl, rfl, rfl, rfl, rfl, rfl, rfl, rfl, rfl, by simp⟩

/-- The digests of a closed head contract differ, computed on the characters of its
texts. -/
theorem candidateHead_digests_ne {fabric : FabricSpec} {path : String} {argv : List String}
    (hf : fabricSpec candidateConfig .head = .ok fabric) (hp : modelPath candidateConfig = .ok path)
    (ha : renderServiceArgv candidateConfig .head = .ok argv) :
    Sha256.hexDigest
        (digestText (contractOf candidateConfig .head none none fabric path argv []).base) ≠
      Sha256.hexDigest
        (hashText (contractOf candidateConfig .head none none fabric path argv []).base) := by
  have hcomputed : ((fabricSpec candidateConfig .head).bind fun fabric =>
      (modelPath candidateConfig).bind fun path =>
        (renderServiceArgv candidateConfig .head).map fun argv =>
          let base := (contractOf candidateConfig .head none none fabric path argv []).base
          let hex := fun ks => (Sha256.hash ((Json.print Json.compact 0
            (Json.obj (selectKeys ks base)).sortKeys).flatMap Sha256.utf8)).hex
          hex digestKeys == hex hashKeys).toOption = some false := by
    decide +kernel
  rw [hf, hp, ha] at hcomputed
  have h := Option.some.inj hcomputed
  rw [digestText, hashText, hashInput, Json.canonical, Json.canonical, Json.dumps, Json.dumps,
    Sha256.hexDigest_ofList, Sha256.hexDigest_ofList]
  intro heq
  exact beq_eq_false_iff_ne.mp h (String.ofList_injective heq)

/-- What the renderer prints for the head of a candidate deployment is not what the
validator accepts. -/
theorem candidateHead_not_rendererAgrees :
    ¬RendererAgrees candidateConfig .head (some candidateLock) none := by
  intro h
  obtain ⟨c, hr, heq⟩ := collides_of_rendererAgrees h
  obtain ⟨fabric, hf, hr⟩ := except_bind_eq_ok.1 hr
  obtain ⟨path, hp, hr⟩ := except_bind_eq_ok.1 hr
  obtain ⟨argv, ha, hr⟩ := except_bind_eq_ok.1 hr
  obtain ⟨containerArgv, -, hr⟩ := except_bind_eq_ok.1 hr
  have hc := Except.ok.inj hr
  subst hc
  obtain ⟨hd, hh⟩ := digestText_contractOf candidateConfig .head (some candidateLock) none fabric
    path argv containerArgv
  rw [hashText_toJson, Contract.base_sealed, hd, hh] at heq
  exact candidateHead_digests_ne hf hp ha heq

end DgxSpark
