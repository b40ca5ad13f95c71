import DgxSpark.Lib.JsonOrder
import DgxSpark.Deploy.Render

/-!
# Validating a service contract

`contract.py` computes the digest of a contract a second time, from its JSON form, and
rejects a contract whose recorded digest differs. Its selection of members
(`DgxSpark.hashKeys`) was written separately from the renderer's
(`DgxSpark.digestKeys`), and the two are not the same: the renderer covers the role.

The path that stages a contract on a node overwrites the digest before it validates, so what
is staged always passes (`DgxSpark.contractJson_eq`).
-/

namespace DgxSpark

open Json (selectKeys)

/-- `raise ContractError` on a condition. -/
def contractFail (condition : Bool) (message : String) : Except Exn Unit :=
  failWith .contract condition message

/-- The members that the validator's digest covers. -/
def hashKeys : List String := [
  "schema_version",
  "mode",
  "node_addr",
  "fabric",
  "api_port",
  "master_addr",
  "master_port",
  "model_path",
  "model_manifest_sha256",
  "environment",
  "service_argv"]

/-- `_hash_input`: the covered members that are present. -/
def hashInput (contract : Json) : Json :=
  .obj (selectKeys hashKeys contract)

/-- The canonical text that the validator hashes. -/
def hashText (contract : Json) : String :=
  Json.canonical (hashInput contract)

/-- `service_contract_sha256`. -/
def serviceContractSha256 (contract : Json) : String :=
  Sha256.hexDigest (hashText contract)

/-- The members that a contract must have. -/
def requiredKeys : List String := [
  "schema_version",
  "deployment_id",
  "mode",
  "profile_id",
  "role",
  "container",
  "host",
  "node_addr",
  "fabric",
  "master_addr",
  "master_port",
  "model_path",
  "model_root",
  "model_manifest_sha256",
  "image",
  "environment",
  "service_argv",
  "container_argv",
  "contract_path",
  "service_contract_sha256"]

/-- The member under which a contract records its digest. -/
def digestKey : String := "service_contract_sha256"

/-- A list with something in it. -/
def isNonemptyList : Json → Bool
  | .arr (_ :: _) => true
  | _ => false

/-- A text of sixty-four lower-case hexadecimal digits. -/
def isSha256Text : Json → Bool
  | .str s => Text.fullMatch Text.isHexLower 64 s
  | _ => false

/-- The checks of `validate_contract`, in order. -/
def contractChecks (contract : Json) : Except Exn Unit := do
  let missing := requiredKeys.filter fun key => !contract.hasKey key
  contractFail (!missing.isEmpty)
    ("service contract is missing keys: " ++
      String.intercalate ", " (missing.insertionSort (· ≤ ·)))
  contractFail (!(contract.get "schema_version").pyEq (.int 1))
    "service contract schema_version must be 1"
  failWith .type (!(contract.get "role").hashable) "unhashable type"
  contractFail (contract.get "role" != .str "head" && contract.get "role" != .str "worker")
    "service contract role must be head or worker"
  contractFail (!isNonemptyList (contract.get "service_argv"))
    "service contract service_argv must be non-empty"
  contractFail (!isNonemptyList (contract.get "container_argv"))
    "service contract container_argv must be non-empty"
  contractFail (!isSha256Text (contract.get digestKey))
    "service_contract_sha256 must be lowercase sha256"
  contractFail (contract.get digestKey != .str (serviceContractSha256 contract))
    "service contract hash does not match canonical content"

/-- `validate_contract`: a contract that passes is returned. -/
def validateContract (contract : Json) : Except Exn Json := do
  contractChecks contract
  return contract

/-- The contract under the validator's digest instead of the renderer's. -/
def Contract.restamped (c : Contract) : Contract :=
  { c with serviceContractSha256 := DgxSpark.serviceContractSha256 c.toJson }

/-- `contract_json`: the renderer's contract, restamped and then validated. -/
def contractJson (config : Config) (role : Role) (lock : Option Lock) (gidIndex : Option Int) :
    Except Exn String := do
  let value ← renderContract config role lock gidIndex
  let validated ← validateContract value.restamped.toJson
  return Json.dumps Json.indented validated ++ "\n"

/-! ### What rendering produces -/

/-- Every variable that a rendered environment can have. -/
def environmentNames : List String :=
  runtimeEnv.map Prod.fst ++ ["VLLM_HOST_IP", "NCCL_SOCKET_IFNAME", "GLOO_SOCKET_IFNAME",
    "TP_SOCKET_IFNAME", "NCCL_IB_HCA", "CUDA_VISIBLE_DEVICES"] ++ ["NCCL_IB_GID_INDEX"] ++
    ["NCCL_IB_MTU"] ++ ["DGX_SPARK_FABRIC_PROFILE"] ++ ["DGX_SPARK_FABRIC_CIDR"] ++
    ["DGX_SPARK_FABRIC_PEER"]

theorem environmentNames_nodup : environmentNames.Nodup := by decide +kernel

theorem optionalVariable_names (key : String) (value : Option String) :
    ((optionalVariable key value).map Prod.fst).Sublist [key] := by
  rcases value with - | value
  · simp [optionalVariable]
  · by_cases h : value = "" <;> simp [optionalVariable, h]

/-- The assignments are among the variables, each at most once. -/
theorem environmentAssignments_names (config : Config) (role : Role) (gidIndex : Option Int) :
    ((environmentAssignments config role gidIndex).map Prod.fst).Sublist environmentNames := by
  simp only [environmentAssignments, environmentNames, List.map_append]
  refine .append (.append (.append (.append (.append (.append ?_ ?_) ?_) ?_) ?_)
    (optionalVariable_names _ _)) (optionalVariable_names _ _)
  · exact .refl _
  · exact .refl _
  · cases effectiveGid config role gidIndex <;> simp
  · exact .refl _
  · split <;> simp

/-- A rendered environment sets no variable twice. -/
theorem renderEnvironment_nodup (config : Config) (role : Role) (gidIndex : Option Int) :
    ((renderEnvironment config role gidIndex).map Prod.fst).Nodup := by
  have hsub := environmentAssignments_names config role gidIndex
  have hperm := (List.perm_insertionSort nameLe (environmentAssignments config role gidIndex)).map
    Prod.fst
  exact hperm.nodup_iff.mpr (environmentNames_nodup.sublist hsub)

/-- What a rendered contract is known to be. -/
structure Rendered (config : Config) (role : Role) (gidIndex : Option Int) (c : Contract) :
    Prop where
  role_eq : c.role = role
  environment_eq : c.environment = renderEnvironment config role gidIndex
  serviceArgv_ne : c.serviceArgv ≠ []
  containerArgv_ne : c.containerArgv ≠ []
  digest_eq : c.serviceContractSha256 = Sha256.hexDigest (digestText c.base)

theorem Rendered.environment_nodup {config : Config} {role : Role} {gidIndex : Option Int}
    {c : Contract} (h : Rendered config role gidIndex c) :
    (c.environment.map Prod.fst).Nodup := by
  rw [h.environment_eq]
  exact renderEnvironment_nodup config role gidIndex

theorem renderServiceArgv_ne_nil {config : Config} {role : Role} {argv : List String}
    (h : renderServiceArgv config role = .ok argv) : argv ≠ [] := by
  simp only [renderServiceArgv, except_bind_eq_ok] at h
  obtain ⟨_, -, _, -, _, -, _, -, h⟩ := h
  cases Except.ok.inj h
  simp

theorem renderContainerArgv_ne_nil {config : Config} {role : Role} {lock : Option Lock}
    {gidIndex : Option Int} {argv : List String}
    (h : renderContainerArgv config role lock gidIndex = .ok argv) : argv ≠ [] := by
  simp only [renderContainerArgv, except_bind_eq_ok] at h
  obtain ⟨_, -, _, -, _, -, h⟩ := h
  cases Except.ok.inj h
  simp

theorem rendered_of_renderContract {config : Config} {role : Role} {lock : Option Lock}
    {gidIndex : Option Int} {c : Contract} (h : renderContract config role lock gidIndex = .ok c) :
    Rendered config role gidIndex c := by
  simp only [renderContract, except_bind_eq_ok] at h
  obtain ⟨fabric, -, path, -, serviceArgv, hs, containerArgv, hc, h⟩ := h
  have hne := renderContainerArgv_ne_nil hc
  have heq := Except.ok.inj h
  subst heq
  exact {
    role_eq := rfl
    environment_eq := by simp only [Contract.sealed, contractOf]
    serviceArgv_ne := renderServiceArgv_ne_nil hs
    containerArgv_ne := hne
    digest_eq := Contract.digest_sealed _ }

/-! ### A rendered contract as JSON -/

theorem wf_obj {kvs : List (String × Json)} (hk : (Json.keys kvs).Nodup)
    (h : ∀ p ∈ kvs, p.2.WF) : Json.WF (.obj kvs) :=
  ⟨hk, (Json.wfMembers_iff _).mpr h⟩

@[simp] theorem wf_str (s : String) : Json.WF (.str s) := trivial

@[simp] theorem wf_ofNat (n : Nat) : Json.WF (Json.ofNat n) := trivial

@[simp] theorem wf_ofText? (s : Option String) : Json.WF (Json.ofText? s) := by
  cases s <;> trivial

@[simp] theorem wf_ofNat? (n : Option Nat) : Json.WF (Json.ofNat? n) := by
  cases n <;> trivial

@[simp] theorem wf_ofInt? (n : Option Int) : Json.WF (Json.ofInt? n) := by
  cases n <;> trivial

@[simp] theorem wf_ofStrings (xs : List String) : Json.WF (Json.ofStrings xs) := by
  induction xs with
  | nil => trivial
  | cons x xs ih => exact ⟨trivial, ih⟩

/-- A mapping of texts is well formed when no key repeats. -/
theorem wf_textMapping {kvs : List (String × String)} (h : (kvs.map Prod.fst).Nodup) :
    Json.WF (.obj (kvs.map fun p => (p.1, .str p.2))) := by
  refine wf_obj (by simpa [Json.keys, Function.comp_def] using h) fun p hp => ?_
  obtain ⟨q, -, rfl⟩ := List.mem_map.mp hp
  exact wf_str q.2

theorem FabricSpec.wf_toJson (s : FabricSpec) : s.toJson.WF := by
  refine wf_obj ?_ (by simp)
  simp only [Json.keys, List.map_cons, List.map_nil]
  decide +kernel

theorem Labels.wf_toJson (labels : Labels) : labels.toJson.WF :=
  wf_textMapping labels.nodup

/-- The image of a contract as JSON. -/
theorem ContractImage.wf_toJson (image : ContractImage) : image.toJson.WF := by
  refine wf_obj ?_ (by simp [Labels.wf_toJson])
  simp only [Json.keys, List.map_cons, List.map_nil]
  decide +kernel

/-- A contract whose environment sets no variable twice is a well-formed document. -/
theorem Contract.wf_toJson {c : Contract} (h : (c.environment.map Prod.fst).Nodup) :
    c.toJson.WF := by
  refine wf_obj ?_ ?_
  · simp only [Contract.base, Json.members, Json.keys, List.map_append, List.map_cons, List.map_nil]
    decide +kernel
  · have henv : (environmentJson c.environment).WF := wf_textMapping h
    simp [Contract.base, Json.members, FabricSpec.wf_toJson, ContractImage.wf_toJson, henv]

/-- The same without the digest. -/
theorem Contract.wf_base {c : Contract} (h : (c.environment.map Prod.fst).Nodup) : c.base.WF := by
  obtain ⟨hk, hm⟩ := Contract.wf_toJson h
  refine wf_obj ?_ fun p hp => (Json.wfMembers_iff _).mp hm p (List.mem_append_left _ hp)
  exact hk.sublist ((List.sublist_append_left _ _).map Prod.fst)

/-! ### Validation and key order -/

theorem isNonemptyList_sortKeys (j : Json) : isNonemptyList j.sortKeys = isNonemptyList j := by
  rcases j with - | - | - | - | - | (- | ⟨x, xs⟩) | - <;> rfl

theorem hashable_sortKeys (j : Json) : j.sortKeys.hashable = j.hashable := by
  cases j <;> rfl

theorem sortKeys_eq_str_iff (j : Json) (s : String) : j.sortKeys = .str s ↔ j = .str s := by
  cases j <;> simp [Json.sortKeys]

theorem isSha256Text_sortKeys (j : Json) : isSha256Text j.sortKeys = isSha256Text j := by
  cases j <;> rfl

theorem pyEq_int_sortKeys (j : Json) (n : Int) : j.sortKeys.pyEq (.int n) = j.pyEq (.int n) := by
  cases j <;> rfl

theorem ne_str_sortKeys (j : Json) (s : String) : (j.sortKeys != .str s) = (j != .str s) := by
  rw [Bool.eq_iff_iff, bne_iff_ne, bne_iff_ne, ne_eq, ne_eq, sortKeys_eq_str_iff]

/-- The digest of a contract does not see the order of its keys. -/
theorem serviceContractSha256_sortKeys {j : Json} (h : j.WF) :
    serviceContractSha256 j.sortKeys = serviceContractSha256 j := by
  rw [serviceContractSha256, serviceContractSha256, hashText, hashText, hashInput, hashInput,
    Json.canonical_selectKeys_sortKeys h]

/-- Whether a contract is accepted does not depend on the order of its keys. -/
theorem contractChecks_sortKeys {j : Json} (h : j.WF) :
    contractChecks j.sortKeys = contractChecks j := by
  have hkeys : (requiredKeys.filter fun key => !j.sortKeys.hasKey key) =
      requiredKeys.filter fun key => !j.hasKey key :=
    List.filter_congr fun key _ => by rw [Json.hasKey_sortKeys h]
  simp only [contractChecks, hkeys, Json.get_sortKeys h, pyEq_int_sortKeys, hashable_sortKeys,
    ne_str_sortKeys, isNonemptyList_sortKeys, isSha256Text_sortKeys,
    serviceContractSha256_sortKeys h]

/-! ### Validating what was rendered -/

/-- A contract has every required member. -/
theorem requiredKeys_contract (c : Contract) :
    (requiredKeys.filter fun key => !c.toJson.hasKey key) = [] := by
  have hsub : ∀ key ∈ requiredKeys, key ∈ Json.keys c.toJson.members := by
    simp only [Contract.toJson, Contract.base, Json.members, Json.keys, List.map_append,
      List.map_cons, List.map_nil]
    decide +kernel
  rw [List.filter_eq_nil_iff]
  intro key hkey
  simpa using (Json.hasKey_iff _ _).mpr (hsub key hkey)

theorem isNonemptyList_ofStrings {xs : List String} (h : xs ≠ []) :
    isNonemptyList (Json.ofStrings xs) = true := by
  cases xs with
  | nil => exact absurd rfl h
  | cons => rfl

/-- **A contract with commands is accepted exactly when it carries the validator's
digest.** -/
theorem contractChecks_toJson {c : Contract} (hs : c.serviceArgv ≠ []) (hc : c.containerArgv ≠ [])
    (hd : isSha256Text (.str c.serviceContractSha256) = true) :
    contractChecks c.toJson = .ok () ↔
      c.serviceContractSha256 = serviceContractSha256 c.toJson := by
  have hschema : c.toJson.get "schema_version" = .int 1 := rfl
  have hrole : c.toJson.get "role" = .str c.role.text := rfl
  have hservice : c.toJson.get "service_argv" = Json.ofStrings c.serviceArgv := rfl
  have hcontainer : c.toJson.get "container_argv" = Json.ofStrings c.containerArgv := rfl
  have hdigest : c.toJson.get digestKey = .str c.serviceContractSha256 := rfl
  have hroles : (Json.str c.role.text != .str "head" && Json.str c.role.text != .str "worker") =
      false := by
    cases c.role <;> decide
  rw [contractChecks, requiredKeys_contract, hschema, hrole, hservice, hcontainer, hdigest, hroles,
    isNonemptyList_ofStrings hs, isNonemptyList_ofStrings hc, hd]
  simp [contractFail, failWith, Json.pyEq, Json.hashable, bind, Except.bind]

/-! ### Staging -/

/-- The validator's text does not depend on the recorded digest. -/
theorem hashText_toJson (c : Contract) : hashText c.toJson = hashText c.base := by
  have hfind : ∀ key ∈ hashKeys, c.toJson.find? key = c.base.find? key := by
    intro key hkey
    have hne : key ≠ digestKey := by
      rintro rfl
      exact absurd hkey (by decide +kernel)
    have hlast : List.lookup key [(digestKey, Json.str c.serviceContractSha256)] = none := by
      have hb : (key == digestKey) = false := by simpa using hne
      simp [List.lookup, hb]
    change List.lookup key (c.base.members ++ [(digestKey, _)]) = _
    rw [List.lookup_append, hlast, Option.or_none]
    rfl
  have hselect : selectKeys hashKeys c.toJson = selectKeys hashKeys c.base :=
    List.filterMap_congr fun key hkey => by rw [hfind key hkey]
  rw [hashText, hashText, hashInput, hashInput, hselect]

theorem isSha256Text_hexDigest (s : String) : isSha256Text (.str (Sha256.hexDigest s)) = true :=
  Sha256.hexDigest_shape s

/-- The staged contract always passes. -/
theorem contractChecks_restamped {c : Contract} (hs : c.serviceArgv ≠ [])
    (hc : c.containerArgv ≠ []) : contractChecks c.restamped.toJson = .ok () := by
  refine (contractChecks_toJson (c := c.restamped) hs hc (isSha256Text_hexDigest _)).mpr ?_
  change serviceContractSha256 c.toJson = serviceContractSha256 c.restamped.toJson
  rw [serviceContractSha256, serviceContractSha256, hashText_toJson, hashText_toJson]
  rfl

/-- What is staged for a rendered contract. -/
theorem contractJson_eq {config : Config} {role : Role} {lock : Option Lock}
    {gidIndex : Option Int} {c : Contract} (h : renderContract config role lock gidIndex = .ok c) :
    contractJson config role lock gidIndex =
      .ok (Json.dumps Json.indented c.restamped.toJson ++ "\n") := by
  have hr := rendered_of_renderContract h
  have hv := contractChecks_restamped hr.serviceArgv_ne hr.containerArgv_ne
  rw [contractJson, h]
  change (validateContract c.restamped.toJson >>= fun v =>
    Except.ok (Json.dumps Json.indented v ++ "\n")) = _
  rw [validateContract, hv]
  rfl

end DgxSpark
