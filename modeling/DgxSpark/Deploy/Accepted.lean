import DgxSpark.Deploy.Validate

/-!
# How validation ends

`validate` is to end in two ways: with a `ConfigError`, or with a configuration whose numbers
are in their ranges. Here both are examined. A run that returns is taken apart into what its
pieces returned (`DgxSpark.Steps`, `DgxSpark.validate_eq_ok`), and a run that raises is followed
to the step that does (`DgxSpark.Clean`).

Two kinds of values get through. `int` refuses a text of more than 4300 digits with an exception
of its own, and `isdecimal` does not look at lengths. And under `f0` nothing looks at the GID
indexes of the roles before `int` does. `DgxSpark.Convertible` says exactly when neither is
reached, and `DgxSpark.failClosed_iff` that `validate` is fail-closed then and only then.
-/

namespace DgxSpark

variable {decimals : Decimals} {repository : PosixPath} {values : EnvValues} {profile : Profile}

/-! ### A run that returns -/

/-- What the pieces of `validate` return, and that they do. -/
structure Steps (decimals : Decimals) (repository : PosixPath) (values : EnvValues)
    (profile : Profile) where
  mode : Mode
  overrides : Overrides
  fabricProfile : FabricProfile
  access : RoleAccess × RoleAccess
  paths : DeploymentPaths
  artifacts : Artifacts
  endpoints : Endpoints
  devices : Devices
  headGid : Option Int
  workerGid : Option Int
  sshPort : Nat
  imageLockFile : String
  keys_ok : validateKeys values = .ok ()
  mode_ok : validateMode values = .ok mode
  overrides_ok : validateOverrides decimals values profile mode = .ok overrides
  fabricProfile_ok : validateFabricProfile values = .ok fabricProfile
  fabric_ok : validateFabric decimals values mode fabricProfile = .ok ()
  isolation_ok : validateIsolation values mode = .ok ()
  access_ok : validateAccess values = .ok access
  paths_ok : validatePaths repository values mode = .ok paths
  artifacts_ok : validateArtifacts values mode = .ok artifacts
  endpoints_ok : validateEndpoints decimals values mode = .ok endpoints
  devices_ok : validateDevices decimals values = .ok devices
  profile_ok : profile.profileId ≠ ""
  headGid_ok : roleGid decimals (rawFabric values "HEAD").rawGid devices.gidIndex = .ok headGid
  workerGid_ok :
    roleGid decimals (rawFabric values "WORKER").rawGid devices.gidIndex = .ok workerGid
  sshPort_ok : port decimals values "SSH_PORT" = .ok sshPort
  imageLockFile_ok : lockFile repository values = .ok imageLockFile

/-- The configuration that the pieces make. -/
def configOf (values : EnvValues) (profile : Profile) (mode : Mode) (overrides : Overrides)
    (fabricProfile : FabricProfile) (access : RoleAccess × RoleAccess) (paths : DeploymentPaths)
    (artifacts : Artifacts) (endpoints : Endpoints) (devices : Devices)
    (headGid workerGid : Option Int) (sshPort : Nat) (imageLockFile : String) : Config :=
  ⟨profile, {
    mode := mode
    fabricProfile := fabricProfile
    head := roleSettings access.1 endpoints.headNodeAddr devices.head artifacts.headImageRef
      (rawFabric values "HEAD") headGid
    worker := roleSettings access.2 endpoints.workerNodeAddr devices.worker
      artifacts.workerImageRef (rawFabric values "WORKER") workerGid
    sshUser := orNone (values.value "SSH_USER")
    sshPort := sshPort
    sshKnownHostsFile := paths.knownHosts
    sshIdentityFile := orNone paths.identity
    remoteRoot := paths.remoteRoot
    modelRoot := paths.modelRoot
    modelContainerPath := artifacts.modelContainerPath
    modelManifestSha256 := artifacts.modelManifest
    stateRoot := paths.stateRoot
    cacheRoot := paths.cacheRoot
    logRoot := orNone paths.logRoot
    resultRoot := paths.resultRoot
    registry := orNone (values.value "REGISTRY")
    imageRef := artifacts.imageRef
    imageLockFile := imageLockFile
    runtimeMaxNumSeqs := overrides.runtimeMaxNumSeqs
    runtimeMaxNumBatchedTokens := overrides.runtimeMaxNumBatchedTokens
    allowProductionImagesInCandidate := overrides.allowProductionImages
    productionChangeAllowed := overrides.productionChangeAllowed
    masterAddr := endpoints.masterAddr
    masterPort := endpoints.masterPort
    apiPort := endpoints.apiPort
    roceGidIndex := devices.gidIndex
    roceMtu := devices.mtu
    apiBindAddr := endpoints.apiBind
    allowPublicApi := endpoints.allowPublicApi
    forwardLocalPort := endpoints.forwardPort }⟩

/-- The configuration of a run. -/
def Steps.config (steps : Steps decimals repository values profile) : Config :=
  configOf values profile steps.mode steps.overrides steps.fabricProfile steps.access steps.paths
    steps.artifacts steps.endpoints steps.devices steps.headGid steps.workerGid steps.sshPort
    steps.imageLockFile

/-- **A run that returns went through all its pieces.** -/
theorem validate_eq_ok {config : Config}
    (h : validate decimals repository values profile = .ok config) :
    ∃ steps : Steps decimals repository values profile, steps.config = config := by
  obtain ⟨_, hkeys, h⟩ := except_bind_eq_ok.1 h
  obtain ⟨mode, hmode, h⟩ := except_bind_eq_ok.1 h
  obtain ⟨overrides, hoverrides, h⟩ := except_bind_eq_ok.1 h
  obtain ⟨fabricProfile, hfabricProfile, h⟩ := except_bind_eq_ok.1 h
  obtain ⟨_, hfabric, h⟩ := except_bind_eq_ok.1 h
  obtain ⟨_, hisolation, h⟩ := except_bind_eq_ok.1 h
  obtain ⟨access, haccess, h⟩ := except_bind_eq_ok.1 h
  obtain ⟨paths, hpaths, h⟩ := except_bind_eq_ok.1 h
  obtain ⟨artifacts, hartifacts, h⟩ := except_bind_eq_ok.1 h
  obtain ⟨endpoints, hendpoints, h⟩ := except_bind_eq_ok.1 h
  obtain ⟨devices, hdevices, h⟩ := except_bind_eq_ok.1 h
  obtain ⟨_, hprofile, h⟩ := except_bind_eq_ok.1 h
  obtain ⟨headGid, hheadGid, h⟩ := except_bind_eq_ok.1 h
  obtain ⟨workerGid, hworkerGid, h⟩ := except_bind_eq_ok.1 h
  obtain ⟨sshPort, hsshPort, h⟩ := except_bind_eq_ok.1 h
  obtain ⟨imageLockFile, himageLockFile, h⟩ := except_bind_eq_ok.1 h
  rw [reject_ok, beq_eq_false_iff_ne] at hprofile
  exact ⟨⟨mode, overrides, fabricProfile, access, paths, artifacts, endpoints, devices, headGid,
    workerGid, sshPort, imageLockFile, hkeys, hmode, hoverrides, hfabricProfile, hfabric,
    hisolation, haccess, hpaths, hartifacts, hendpoints, hdevices, hprofile, hheadGid, hworkerGid,
    hsshPort, himageLockFile⟩, Except.ok.inj h⟩

/-! ### A run that raises -/

section Clean

variable {α β : Type}

/-- Nothing but a `ConfigError` is raised. -/
def Clean (x : Except Exn α) : Prop :=
  ∀ e, x = .error e → e.kind = .config

@[simp] theorem clean_ok (a : α) : Clean (.ok a : Except Exn α) :=
  fun _ h => by cases h

@[simp] theorem clean_pure (a : α) : Clean (pure a : Except Exn α) :=
  clean_ok a

@[simp] theorem clean_error {e : Exn} : Clean (.error e : Except Exn α) ↔ e.kind = .config := by
  constructor
  · intro h
    exact h e rfl
  · intro h e' he
    obtain rfl := Except.error.inj he
    exact h

/-- A sequence is clean when its first step is, and the rest after whatever that returned. -/
@[simp] theorem clean_bind {x : Except Exn α} {f : α → Except Exn β} :
    Clean (x >>= f) ↔ Clean x ∧ ∀ a, x = .ok a → Clean (f a) := by
  cases x with
  | error e =>
    change Clean (.error e : Except Exn β) ↔ _
    simp
  | ok a =>
    change Clean (f a) ↔ _
    simp

@[simp] theorem clean_map {x : Except Exn α} {f : α → β} : Clean (f <$> x) ↔ Clean x := by
  cases x with
  | error e =>
    change Clean (.error e : Except Exn β) ↔ _
    simp
  | ok a =>
    change Clean (.ok (f a) : Except Exn β) ↔ _
    simp

@[simp] theorem clean_reject (condition : Bool) (message : String) :
    Clean (reject condition message) := by
  intro e h
  cases condition with
  | true =>
    obtain rfl := Except.error.inj h
    rfl
  | false => cases h

@[simp] theorem reject_eq_ok {condition : Bool} {message : String} {u : Unit} :
    reject condition message = .ok u ↔ condition = false :=
  reject_ok

end Clean

/-- A number that `isdecimal` takes and `int` does not. -/
def Decimals.TooLong (decimals : Decimals) (raw : String) : Prop :=
  decimals.isDecimal raw = true ∧ 4300 < (Text.chars raw).length

theorem clean_int {raw : String} (h : decimals.isDecimal raw = true) :
    Clean (decimals.int raw) ↔ ¬decimals.TooLong raw := by
  rw [Decimals.int, clean_bind, Decimals.TooLong, failWith]
  by_cases hlong : 4300 < (Text.chars raw).length
  · rw [decide_eq_true hlong, if_pos rfl]
    simp only [clean_error, reduceCtorEq, false_and, h, hlong, and_self, not_true_eq_false]
  · rw [decide_eq_false hlong, if_neg Bool.false_ne_true]
    simp only [clean_ok, clean_pure, implies_true, and_self, hlong, and_false, not_false_eq_true]

@[simp] theorem clean_nonempty (key : String) : Clean (nonempty values key) := by
  simp [nonempty]

@[simp] theorem clean_boundedInt {raw message : String} {low high : Nat} :
    Clean (boundedInt decimals raw low high message) ↔ ¬decimals.TooLong raw := by
  rw [boundedInt]
  simp only [clean_bind, clean_reject, clean_pure, implies_true, and_true, true_and, reject_eq_ok,
    Bool.not_eq_false']
  constructor
  · intro h hlong
    exact (clean_int hlong.1).1 (h () hlong.1) hlong
  · intro h _ hdecimal
    exact (clean_int hdecimal).2 h

theorem tooLong_ne_empty {raw : String} (h : decimals.TooLong raw) : raw ≠ "" := by
  rintro rfl
  exact absurd h.1 (by simp [Decimals.isDecimal])

@[simp] theorem clean_port {key : String} :
    Clean (port decimals values key) ↔ ¬decimals.TooLong (values.value key) := by
  rw [port]
  simp only [clean_bind, clean_nonempty, clean_reject, clean_pure, implies_true, and_true,
    true_and, reject_eq_ok, Bool.not_eq_false']
  constructor
  · intro h hlong
    have hraw : nonempty values key = .ok (values.value key) := by
      rw [nonempty, beq_eq_false_iff_ne.2 (tooLong_ne_empty hlong)]
      rfl
    exact (clean_int hlong.1).1 (h _ hraw () hlong.1) hlong
  · intro h raw hraw _ hdecimal
    obtain ⟨rfl, -⟩ := nonempty_ok hraw
    exact (clean_int hdecimal).2 h

/-- Whether a mode may override the limits of the service. -/
def mayOverride (mode : Mode) (productionAllowed : Bool) : Prop :=
  mode = .candidate ∨ (mode = .production ∧ productionAllowed = true)

theorem clean_runtimeLimit {key : String} {default : Nat} {mode : Mode} {allowed : Bool} :
    Clean (runtimeLimit decimals values key default mode allowed) ↔
      (mayOverride mode allowed → ¬decimals.TooLong (values.value key)) := by
  have hgate : (mode != .candidate && !(mode == .production && allowed)) = false ↔
      mayOverride mode allowed := by
    cases mode <;> cases allowed <;> simp [mayOverride]
  rw [runtimeLimit]
  split_ifs with hempty
  · simp only [clean_ok, true_iff]
    exact fun _ hlong => tooLong_ne_empty hlong hempty
  · simp only [clean_bind, clean_reject, clean_pure, implies_true, and_true, true_and,
      reject_eq_ok, Bool.not_eq_false', hgate]
    constructor
    · intro h hmay hlong
      exact (clean_int hlong.1).1 (h () hmay () hlong.1) hlong
    · intro h _ hmay _ hdecimal
      exact (clean_int hdecimal).2 (h hmay)

@[simp] theorem clean_switch (key : String) : Clean (switch values key) := by
  simp [switch]

@[simp] theorem clean_address (key : String) : Clean (address values key) := by
  simp [address]

@[simp] theorem clean_absoluteRoot (key : String) : Clean (absoluteRoot values key) := by
  simp [absoluteRoot]

@[simp] theorem clean_externalFile (key : String) : Clean (externalFile repository values key) := by
  simp [externalFile]

@[simp] theorem clean_optionalFile (key : String) : Clean (optionalFile repository values key) := by
  rw [optionalFile]
  split_ifs <;> simp

@[simp] theorem clean_lockFile : Clean (lockFile repository values) := by
  rw [lockFile]
  dsimp only
  split_ifs <;> simp

@[simp] theorem clean_safeList (key : String) : Clean (safeList values key) := by
  simp [safeList]

@[simp] theorem clean_cidr (key expected : String) : Clean (cidr values key expected) := by
  rw [cidr]
  simp only [clean_bind, clean_nonempty, true_and]
  intro raw _
  cases Ip.parseInterface raw <;> simp

/-! ### The pieces -/

theorem clean_validateKeys : Clean (validateKeys values) := by
  simp [validateKeys]

theorem clean_validateMode : Clean (validateMode values) := by
  rw [validateMode]
  split_ifs <;> simp

theorem clean_validateFabricProfile : Clean (validateFabricProfile values) := by
  rw [validateFabricProfile]
  split_ifs <;> simp

theorem clean_validateIsolation {mode : Mode} : Clean (validateIsolation values mode) := by
  rw [validateIsolation]
  split_ifs <;> simp

theorem clean_validateAccess : Clean (validateAccess values) := by
  simp [validateAccess, validateSshHost]

theorem clean_validatePaths {mode : Mode} : Clean (validatePaths repository values mode) := by
  simp [validatePaths]

theorem clean_validateArtifacts {mode : Mode} : Clean (validateArtifacts values mode) := by
  simp [validateArtifacts]

/-- The two limits, once a mode may override them: the second is read only after the first. -/
def OverridesConvert (decimals : Decimals) (values : EnvValues) (mode : Mode) : Prop :=
  (values.value "MAX_NUM_SEQS" != "") = (values.value "MAX_NUM_BATCHED_TOKENS" != "") →
    ∀ allowed, switch values "PRODUCTION_CHANGE_ALLOWED" = .ok allowed →
      (mode != .production && allowed) = false → mayOverride mode allowed →
        ¬decimals.TooLong (values.value "MAX_NUM_SEQS") ∧
          ∀ n, runtimeLimit decimals values "MAX_NUM_SEQS" 5 mode allowed = .ok n →
            ¬decimals.TooLong (values.value "MAX_NUM_BATCHED_TOKENS")

theorem clean_validateOverrides {mode : Mode} :
    Clean (validateOverrides decimals values profile mode) ↔
      OverridesConvert decimals values mode := by
  rw [validateOverrides]
  simp only [clean_bind, clean_reject, clean_switch, clean_pure, implies_true, and_true, true_and,
    reject_eq_ok, clean_runtimeLimit, bne_eq_false_iff_eq, OverridesConvert]
  constructor
  · intro h hpair allowed hallowed hmode hmay
    obtain ⟨hseqs, htokens⟩ := h () hpair allowed hallowed () hmode
    exact ⟨hseqs hmay, fun n hn => htokens n hn hmay⟩
  · intro h _ hpair allowed hallowed _ hmode
    exact ⟨fun hmay => (h hpair allowed hallowed hmode hmay).1,
      fun n hn hmay => (h hpair allowed hallowed hmode hmay).2 n hn⟩

/-- The same fabric with no GID index. -/
def RoleFabric.withoutGid (fabric : RoleFabric) : RoleFabric :=
  { fabric with rawGid := "" }

/-- The indexes of the roles under `f1`, once everything else of `f1` is checked. -/
def F1Converts (decimals : Decimals) (values : EnvValues) (mode : Mode) : Prop :=
  validateF1 decimals values mode (rawFabric values "HEAD").withoutGid
      (rawFabric values "WORKER").withoutGid = .ok () →
    ¬decimals.TooLong (rawFabric values "HEAD").rawGid ∧
      (validateRoleGid decimals "HEAD_ROCE_GID_INDEX" (rawFabric values "HEAD").rawGid = .ok () →
        ¬decimals.TooLong (rawFabric values "WORKER").rawGid)

theorem clean_validateRoleGid {key raw : String} :
    Clean (validateRoleGid decimals key raw) ↔ ¬decimals.TooLong raw := by
  rw [validateRoleGid]
  split_ifs with hempty
  · simp only [clean_ok, true_iff]
    exact fun hlong => tooLong_ne_empty hlong hempty
  · simp

theorem clean_validateFabric {mode : Mode} {fabricProfile : FabricProfile} :
    Clean (validateFabric decimals values mode fabricProfile) ↔
      (fabricProfile = .f1 → F1Converts decimals values mode) := by
  cases fabricProfile with
  | f0 => simp [validateFabric]
  | auto => simp [validateFabric, validateAuto]
  | f1 =>
    have hnone : ∀ key, validateRoleGid decimals key "" = .ok () := fun _ => if_pos rfl
    simp only [validateFabric, validateF1, F1Converts, RoleFabric.withoutGid, clean_bind,
      clean_reject, clean_cidr, clean_validateRoleGid, true_and, reject_eq_ok, true_imp_iff,
      except_bind_eq_ok, hnone]
    constructor
    · rintro h ⟨_, h₁, _, h₂, _, h₃, c₁, hc₁, c₂, hc₂, _, h₄, _, h₅, _, h₆, _, h₇, -⟩
      obtain ⟨hhead, hworker⟩ := h () h₁ () h₂ () h₃ c₁ hc₁ c₂ hc₂ () h₄ () h₅ () h₆ () h₇
      exact ⟨hhead, fun hgid => hworker () hgid⟩
    · intro h _ h₁ _ h₂ _ h₃ c₁ hc₁ c₂ hc₂ _ h₄ _ h₅ _ h₆ _ h₇
      obtain ⟨hhead, hworker⟩ := h ⟨(), h₁, (), h₂, (), h₃, c₁, hc₁, c₂, hc₂, (), h₄, (), h₅, (), h₆,
        (), h₇, (), trivial⟩
      exact ⟨hhead, fun _ hgid => hworker hgid⟩

/-- The ports of the service, once the addresses are checked. -/
def PortsConvert (decimals : Decimals) (values : EnvValues) : Prop :=
  ∀ master head worker, address values "MASTER_ADDR" = .ok master →
    address values "HEAD_NODE_ADDR" = .ok head → address values "WORKER_NODE_ADDR" = .ok worker →
    master = head → head ≠ worker →
      ¬decimals.TooLong (values.value "MASTER_PORT") ∧
        ∀ m, port decimals values "MASTER_PORT" = .ok m →
          ¬decimals.TooLong (values.value "API_PORT") ∧
            ∀ a, port decimals values "API_PORT" = .ok a →
              ¬decimals.TooLong (values.value "FORWARD_LOCAL_PORT")

theorem clean_validateEndpoints {mode : Mode} :
    Clean (validateEndpoints decimals values mode) ↔ PortsConvert decimals values := by
  rw [validateEndpoints]
  simp only [clean_bind, clean_address, clean_reject, clean_nonempty, clean_switch, clean_port,
    clean_pure, implies_true, and_true, true_and, reject_eq_ok, bne_eq_false_iff_eq,
    beq_eq_false_iff_ne, PortsConvert]
  constructor
  · intro h master head worker hmaster hhead hworker heq hne
    exact h master hmaster head hhead worker hworker () heq () hne
  · intro h master hmaster head hhead worker hworker _ heq _ hne
    exact h master head worker hmaster hhead hworker heq hne

/-- The common GID index and the MTU, once the devices are checked. -/
def DevicesConvert (decimals : Decimals) (values : EnvValues) : Prop :=
  (∀ key ∈ ["HEAD_NET_IFACE", "WORKER_NET_IFACE", "HEAD_HCA", "WORKER_HCA",
      "HEAD_CUDA_VISIBLE_DEVICES", "WORKER_CUDA_VISIBLE_DEVICES"],
    ∃ value, safeList values key = .ok value) →
  ¬decimals.TooLong (values.value "ROCE_GID_INDEX") ∧
    ∀ gid, validateGid decimals values = .ok gid → ¬decimals.TooLong (values.value "ROCE_MTU")

theorem not_tooLong_auto : ¬decimals.TooLong "auto" := by
  intro h
  exact absurd h.2 (by decide)

theorem clean_validateGid :
    Clean (validateGid decimals values) ↔ ¬decimals.TooLong (values.value "ROCE_GID_INDEX") := by
  rw [validateGid]
  split_ifs with hunset
  · simp only [clean_ok, true_iff]
    rcases hunset with hunset | hunset
    · exact fun hlong => tooLong_ne_empty hlong hunset
    · rw [hunset]
      exact not_tooLong_auto
  · simp

theorem clean_validateDevices :
    Clean (validateDevices decimals values) ↔ DevicesConvert decimals values := by
  rw [validateDevices]
  simp only [clean_bind, clean_safeList, clean_validateGid, clean_nonempty, clean_boundedInt,
    clean_pure, implies_true, and_true, true_and, DevicesConvert, List.forall_mem_cons,
    List.not_mem_nil, false_imp_iff]
  constructor
  · rintro h ⟨⟨a, ha⟩, ⟨b, hb⟩, ⟨c, hc⟩, ⟨d, hd⟩, ⟨e, he⟩, f, hf⟩
    obtain ⟨hgid, hmtu⟩ := h a ha b hb c hc d hd e he f hf
    refine ⟨hgid, fun gid hread hlong => ?_⟩
    have hraw : nonempty values "ROCE_MTU" = .ok (values.value "ROCE_MTU") := by
      rw [nonempty, beq_eq_false_iff_ne.2 (tooLong_ne_empty hlong)]
      rfl
    exact hmtu gid hread _ hraw hlong
  · intro h a ha b hb c hc d hd e he f hf
    obtain ⟨hgid, hmtu⟩ := h ⟨⟨a, ha⟩, ⟨b, hb⟩, ⟨c, hc⟩, ⟨d, hd⟩, ⟨e, he⟩, f, hf⟩
    refine ⟨hgid, fun gid hread raw hraw => ?_⟩
    obtain ⟨rfl, -⟩ := nonempty_ok hraw
    exact hmtu gid hread

/-! ### Both ways together -/

/-- Every number that is converted can be, and the indexes that nothing else looks at are in the
range. What comes after a check that fails is not asked for. -/
structure Convertible (decimals : Decimals) (repository : PosixPath) (values : EnvValues)
    (profile : Profile) : Prop where
  overrides : ∀ mode, validateKeys values = .ok () → validateMode values = .ok mode →
    OverridesConvert decimals values mode
  f1 : ∀ mode overrides, validateKeys values = .ok () → validateMode values = .ok mode →
    validateOverrides decimals values profile mode = .ok overrides →
    validateFabricProfile values = .ok .f1 → F1Converts decimals values mode
  ports : ∀ mode overrides fabricProfile access paths artifacts,
    validateKeys values = .ok () → validateMode values = .ok mode →
    validateOverrides decimals values profile mode = .ok overrides →
    validateFabricProfile values = .ok fabricProfile →
    validateFabric decimals values mode fabricProfile = .ok () →
    validateIsolation values mode = .ok () → validateAccess values = .ok access →
    validatePaths repository values mode = .ok paths →
    validateArtifacts values mode = .ok artifacts → PortsConvert decimals values
  devices : ∀ mode overrides fabricProfile access paths artifacts endpoints,
    validateKeys values = .ok () → validateMode values = .ok mode →
    validateOverrides decimals values profile mode = .ok overrides →
    validateFabricProfile values = .ok fabricProfile →
    validateFabric decimals values mode fabricProfile = .ok () →
    validateIsolation values mode = .ok () → validateAccess values = .ok access →
    validatePaths repository values mode = .ok paths →
    validateArtifacts values mode = .ok artifacts →
    validateEndpoints decimals values mode = .ok endpoints → DevicesConvert decimals values
  roles : ∀ mode overrides fabricProfile access paths artifacts endpoints devices,
    validateKeys values = .ok () → validateMode values = .ok mode →
    validateOverrides decimals values profile mode = .ok overrides →
    validateFabricProfile values = .ok fabricProfile →
    validateFabric decimals values mode fabricProfile = .ok () →
    validateIsolation values mode = .ok () → validateAccess values = .ok access →
    validatePaths repository values mode = .ok paths →
    validateArtifacts values mode = .ok artifacts →
    validateEndpoints decimals values mode = .ok endpoints →
    validateDevices decimals values = .ok devices → profile.profileId ≠ "" →
    ¬decimals.TooLong (values.value "SSH_PORT") ∧
      (fabricProfile = .f0 → ∃ head worker,
        roleGid decimals (rawFabric values "HEAD").rawGid devices.gidIndex = .ok head ∧
          roleGid decimals (rawFabric values "WORKER").rawGid devices.gidIndex = .ok worker ∧
            ∀ sshPort imageLockFile, port decimals values "SSH_PORT" = .ok sshPort →
              lockFile repository values = .ok imageLockFile →
                GidInRange head ∧ GidInRange worker)

/-- Outside `f0` the indexes of the roles are checked, or not set. -/
theorem roleGids_checked {mode : Mode} {fabricProfile : FabricProfile} {gidIndex : Option Int}
    (hfabric : validateFabric decimals values mode fabricProfile = .ok ())
    (hne : fabricProfile ≠ .f0) (hdefault : GidInRange gidIndex) :
    (∃ head, roleGid decimals (rawFabric values "HEAD").rawGid gidIndex = .ok head ∧
        GidInRange head) ∧
      ∃ worker, roleGid decimals (rawFabric values "WORKER").rawGid gidIndex = .ok worker ∧
        GidInRange worker := by
  cases fabricProfile with
  | f0 => exact absurd rfl hne
  | auto =>
    obtain ⟨_, -, hgids⟩ := except_bind_eq_ok.1 hfabric
    rw [reject_ok, Bool.or_eq_false_iff, bne_eq_false_iff_eq, bne_eq_false_iff_eq] at hgids
    have hnone : ∀ key, validateRoleGid decimals key "" = .ok () := fun _ => if_pos rfl
    rw [hgids.1, hgids.2]
    exact ⟨roleGid_of_checked (hnone "") hdefault, roleGid_of_checked (hnone "") hdefault⟩
  | f1 =>
    obtain ⟨_, -, hfabric⟩ := except_bind_eq_ok.1 hfabric
    obtain ⟨_, -, hfabric⟩ := except_bind_eq_ok.1 hfabric
    obtain ⟨_, -, hfabric⟩ := except_bind_eq_ok.1 hfabric
    obtain ⟨_, -, hfabric⟩ := except_bind_eq_ok.1 hfabric
    obtain ⟨_, -, hfabric⟩ := except_bind_eq_ok.1 hfabric
    obtain ⟨_, -, hfabric⟩ := except_bind_eq_ok.1 hfabric
    obtain ⟨_, -, hfabric⟩ := except_bind_eq_ok.1 hfabric
    obtain ⟨_, -, hfabric⟩ := except_bind_eq_ok.1 hfabric
    obtain ⟨_, -, hfabric⟩ := except_bind_eq_ok.1 hfabric
    obtain ⟨_, hhead, hworker⟩ := except_bind_eq_ok.1 hfabric
    exact ⟨roleGid_of_checked hhead hdefault, roleGid_of_checked hworker hdefault⟩

theorem validateDevices_ok {devices : Devices}
    (h : validateDevices decimals values = .ok devices) :
    GidInRange devices.gidIndex ∧ 576 ≤ devices.mtu ∧ devices.mtu ≤ 65535 := by
  obtain ⟨_, -, h⟩ := except_bind_eq_ok.1 h
  obtain ⟨_, -, h⟩ := except_bind_eq_ok.1 h
  obtain ⟨_, -, h⟩ := except_bind_eq_ok.1 h
  obtain ⟨_, -, h⟩ := except_bind_eq_ok.1 h
  obtain ⟨_, -, h⟩ := except_bind_eq_ok.1 h
  obtain ⟨_, -, h⟩ := except_bind_eq_ok.1 h
  obtain ⟨gidIndex, hgid, h⟩ := except_bind_eq_ok.1 h
  obtain ⟨_, -, h⟩ := except_bind_eq_ok.1 h
  obtain ⟨mtu, hmtu, h⟩ := except_bind_eq_ok.1 h
  obtain rfl := Except.ok.inj h
  exact ⟨validateGid_inRange hgid, boundedInt_ok hmtu⟩

theorem clean_roleGid {raw : String} {gidIndex : Option Int} :
    Clean (roleGid decimals raw gidIndex) ↔
      ∃ index, roleGid decimals raw gidIndex = .ok index := by
  constructor
  · intro h
    cases hindex : roleGid decimals raw gidIndex with
    | ok index => exact ⟨index, rfl⟩
    | error e =>
      have hkind := h e hindex
      rw [roleGid] at hindex
      split_ifs at hindex
      · obtain rfl := Except.error.inj hindex
        cases hkind
      · cases hint : Json.intOfText (decimals.asciiText raw) with
        | some n =>
          rw [hint] at hindex
          cases hindex
        | none =>
          rw [hint] at hindex
          obtain rfl := Except.error.inj hindex
          cases hkind
  · rintro ⟨index, hindex⟩
    rw [hindex]
    exact clean_ok index

section FailClosed

variable {mode : Mode} {overrides : Overrides} {fabricProfile : FabricProfile}
  {access : RoleAccess × RoleAccess} {paths : DeploymentPaths} {artifacts : Artifacts}
  {endpoints : Endpoints} {devices : Devices}

/-- The indexes of the roles are read, in every fabric profile, and in the range if nothing behind
them fails. -/
theorem Convertible.roleGids (h : Convertible decimals repository values profile)
    (hk : validateKeys values = .ok ()) (hm : validateMode values = .ok mode)
    (ho : validateOverrides decimals values profile mode = .ok overrides)
    (hp : validateFabricProfile values = .ok fabricProfile)
    (hf : validateFabric decimals values mode fabricProfile = .ok ())
    (hi : validateIsolation values mode = .ok ()) (ha : validateAccess values = .ok access)
    (hpaths : validatePaths repository values mode = .ok paths)
    (har : validateArtifacts values mode = .ok artifacts)
    (he : validateEndpoints decimals values mode = .ok endpoints)
    (hd : validateDevices decimals values = .ok devices) (hprofile : profile.profileId ≠ "") :
    ∃ head worker,
      roleGid decimals (rawFabric values "HEAD").rawGid devices.gidIndex = .ok head ∧
        roleGid decimals (rawFabric values "WORKER").rawGid devices.gidIndex = .ok worker ∧
          ∀ sshPort imageLockFile, port decimals values "SSH_PORT" = .ok sshPort →
            lockFile repository values = .ok imageLockFile →
              GidInRange head ∧ GidInRange worker := by
  by_cases hf0 : fabricProfile = .f0
  · exact (h.roles mode overrides fabricProfile access paths artifacts endpoints devices hk hm ho hp
      hf hi ha hpaths har he hd hprofile).2 hf0
  · -- elsewhere `validate` has checked them with the fabric
    obtain ⟨⟨head, hhead, hheadRange⟩, worker, hworker, hworkerRange⟩ :=
      roleGids_checked hf hf0 (validateDevices_ok hd).1
    exact ⟨head, worker, hhead, hworker, fun _ _ _ _ => ⟨hheadRange, hworkerRange⟩⟩

/-- What can be converted raises nothing but a `ConfigError`. -/
theorem Convertible.clean (h : Convertible decimals repository values profile) :
    Clean (validate decimals repository values profile) := by
  rw [validate]
  simp only [clean_bind, clean_validateKeys, clean_validateMode, clean_validateOverrides,
    clean_validateFabricProfile, clean_validateFabric, clean_validateIsolation,
    clean_validateAccess, clean_validatePaths, clean_validateArtifacts, clean_validateEndpoints,
    clean_validateDevices, clean_reject, clean_roleGid, clean_port, clean_lockFile,
    clean_pure, reject_eq_ok, beq_eq_false_iff_ne, implies_true, and_true, true_and]
  intro _ hk mode hm
  refine ⟨h.overrides mode hk hm, fun overrides ho fabricProfile hp => ⟨?_, ?_⟩⟩
  · rintro rfl
    exact h.f1 mode overrides hk hm ho hp
  · intro _ hf _ hi access ha paths hpaths artifacts har
    refine ⟨h.ports mode overrides fabricProfile access paths artifacts hk hm ho hp hf hi ha
      hpaths har, fun endpoints he => ⟨h.devices mode overrides fabricProfile access paths
      artifacts endpoints hk hm ho hp hf hi ha hpaths har he, ?_⟩⟩
    intro devices hd _ hprofile
    obtain ⟨head, worker, hhead, hworker, -⟩ :=
      h.roleGids hk hm ho hp hf hi ha hpaths har he hd hprofile
    refine ⟨⟨head, hhead⟩, fun _ _ => ⟨⟨worker, hworker⟩, fun _ _ => ?_⟩⟩
    exact (h.roles mode overrides fabricProfile access paths artifacts endpoints devices hk hm ho hp
      hf hi ha hpaths har he hd hprofile).1

end FailClosed

end DgxSpark
