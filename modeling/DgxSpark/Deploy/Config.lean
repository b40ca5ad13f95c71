import DgxSpark.Lib.JsonText
import DgxSpark.Lib.Sha256

/-!
# The validated configuration

What `config.validate` returns: the operator's settings of a two-node deployment beside
the reviewed service profile. The settings that exist once for each role are a record of
their own (`DgxSpark.RoleSettings`), so that a lookup under a computed key, such as
`deployment[f"\x7brole\x7d_net_iface"]`, is a projection and cannot miss.

Both halves have a JSON form (`DgxSpark.Deployment.toJson`, `DgxSpark.Profile.toJson`), the
one that is hashed: the digest of the whole configuration names the deployment
(`DgxSpark.Config.deploymentId`).

The exceptions of the package are here too (`DgxSpark.Exn`), since the handlers that catch
them are a large part of what there is to verify: which class an exception has decides
whether a recovery runs.
-/

namespace DgxSpark

/-! ### Exceptions -/

/-- The exception classes that the package raises or lets through. -/
inductive ExnKind where
  /-- `ConfigError` itself -/
  | config
  /-- `LockError`, a `ConfigError` -/
  | lock
  /-- `LifecycleError`, a `ConfigError` -/
  | lifecycle
  /-- `FabricError` itself -/
  | fabric
  /-- `FabricNotReady`, a `FabricError` -/
  | fabricNotReady
  | render
  | contract
  /-- `RemoteError`, a `RuntimeError` -/
  | remote
  /-- Python's own `ValueError`, the decoding errors of `json` included -/
  | value
  | type
  | key
  | attribute
  | assertion
deriving DecidableEq, Repr

/-- An exception: its class and its text. -/
structure Exn where
  kind : ExnKind
  message : String
deriving DecidableEq, Repr

namespace Exn

/-- What `except LifecycleError` catches. -/
def isLifecycle (e : Exn) : Bool :=
  e.kind = .lifecycle

/-- What `except FabricError` catches. -/
def isFabric (e : Exn) : Bool :=
  e.kind = .fabric || e.kind = .fabricNotReady

/-- What `except FabricNotReady` catches. -/
def isFabricNotReady (e : Exn) : Bool :=
  e.kind = .fabricNotReady

end Exn

/-- `_fail` and `_reject`: an exception of a class on a condition. -/
def failWith (kind : ExnKind) (condition : Bool) (message : String) : Except Exn Unit :=
  if condition then .error ⟨kind, message⟩ else .ok ()

@[simp] theorem failWith_true (kind : ExnKind) (message : String) :
    failWith kind true message = .error ⟨kind, message⟩ := rfl

@[simp] theorem failWith_false (kind : ExnKind) (message : String) :
    failWith kind false message = .ok () := rfl

theorem failWith_eq_ok {kind : ExnKind} {c : Bool} {message : String} {u : Unit} :
    failWith kind c message = .ok u ↔ c = false := by
  cases c <;> simp

/-- A sequence of fallible steps returns only through the return of each. -/
theorem except_bind_eq_ok {α β ε : Type} {x : Except ε α} {f : α → Except ε β} {b : β} :
    (x >>= f) = .ok b ↔ ∃ a, x = .ok a ∧ f a = .ok b := by
  cases x <;> simp [bind, Except.bind]

/-- A loop of fallible steps over a list returns the list of their results. -/
theorem except_mapM_eq_ok {α β ε : Type} {f : α → Except ε β} {xs : List α} {ys : List β} :
    xs.mapM f = .ok ys ↔ List.Forall₂ (fun x y => f x = .ok y) xs ys := by
  induction xs generalizing ys with
  | nil => simp [pure, Except.pure, eq_comm]
  | cons x xs ih =>
    rw [List.mapM_cons, except_bind_eq_ok]
    constructor
    · rintro ⟨y, hy, h⟩
      obtain ⟨zs, hzs, h⟩ := except_bind_eq_ok.1 h
      obtain rfl := Except.ok.inj h
      exact .cons hy (ih.1 hzs)
    · rintro (- | ⟨hy, h⟩)
      exact ⟨_, hy, except_bind_eq_ok.2 ⟨_, ih.2 h, rfl⟩⟩

/-- Every result of such a loop is the result of some item. -/
theorem exists_of_mem_mapM {α β ε : Type} {f : α → Except ε β} {xs : List α} {ys : List β}
    (h : xs.mapM f = .ok ys) {y : β} (hy : y ∈ ys) : ∃ x ∈ xs, f x = .ok y := by
  induction except_mapM_eq_ok.1 h with
  | nil => simp at hy
  | cons hx hrest ih =>
    rcases List.mem_cons.1 hy with rfl | hy
    · exact ⟨_, by simp, hx⟩
    · obtain ⟨x, hmem, hx'⟩ := ih (except_mapM_eq_ok.2 hrest) hy
      exact ⟨x, by simp [hmem], hx'⟩

/-- A result that is there. -/
theorem except_eq_ok_get {ε α : Type} {x : Except ε α} (h : x.toOption.isSome = true) :
    x = .ok (x.toOption.get h) := by
  cases x with
  | error e => exact absurd h (by simp [Except.toOption])
  | ok a => rfl

/-! ### Roles, modes, fabric profiles -/

/-- The two roles of a deployment. -/
inductive Role where
  | worker
  | head
deriving DecidableEq, Repr

/-- The name of a role in keys, labels and messages. -/
def Role.text : Role → String
  | .worker => "worker"
  | .head => "head"

/-- The order of every operation: the worker first. -/
def roleOrder : List Role := [.worker, .head]

@[simp] theorem mem_roleOrder (role : Role) : role ∈ roleOrder := by
  cases role <;> simp [roleOrder]

/-- `DEPLOYMENT_MODE`. -/
inductive Mode where
  | generic
  | production
  | candidate
deriving DecidableEq, Repr

/-- The text of a mode. -/
def Mode.text : Mode → String
  | .generic => "generic"
  | .production => "production"
  | .candidate => "candidate"

/-- `FABRIC_PROFILE`. -/
inductive FabricProfile where
  | f0
  | f1
  | auto
deriving DecidableEq, Repr

/-- The text of a fabric profile. -/
def FabricProfile.text : FabricProfile → String
  | .f0 => "f0"
  | .f1 => "f1"
  | .auto => "auto"

/-! ### The operator's settings -/

/-- The settings that exist once for each role. -/
structure RoleSettings where
  host : String
  sshHost : String
  sshUser : String
  nodeAddr : String
  netIface : String
  hca : String
  cudaVisibleDevices : String
  imageRef : String
  fabricCidr : Option String
  fabricPeer : Option String
  fabricConnection : Option String
  roceGidIndex : Option Int
deriving DecidableEq, Repr

/-- The deployment section of a validated configuration. -/
structure Deployment where
  mode : Mode
  fabricProfile : FabricProfile
  head : RoleSettings
  worker : RoleSettings
  sshUser : Option String
  sshPort : Nat
  sshKnownHostsFile : String
  sshIdentityFile : Option String
  remoteRoot : String
  modelRoot : String
  modelContainerPath : String
  modelManifestSha256 : String
  stateRoot : String
  cacheRoot : String
  logRoot : Option String
  resultRoot : String
  registry : Option String
  imageRef : String
  imageLockFile : String
  runtimeMaxNumSeqs : Nat
  runtimeMaxNumBatchedTokens : Nat
  allowProductionImagesInCandidate : Bool
  productionChangeAllowed : Bool
  masterAddr : String
  masterPort : Nat
  apiPort : Nat
  roceGidIndex : Option Int
  roceMtu : Nat
  apiBindAddr : String
  allowPublicApi : Bool
  forwardLocalPort : Nat
deriving DecidableEq, Repr

/-- The settings of one role. -/
def Deployment.settings (deployment : Deployment) : Role → RoleSettings
  | .worker => deployment.worker
  | .head => deployment.head

/-! ### The reviewed profile -/

/-- `topology` of a profile. -/
structure Topology where
  tensorParallelSize : Nat
  pipelineParallelSize : Nat
  nnodes : Nat
  headRank : Nat
  workerRank : Nat
  workerFirst : Bool
deriving DecidableEq, Repr

/-- `model` of a profile. -/
structure ModelSection where
  family : String
  servedModelName : String
  containerPath : String
  modelPath : String
deriving DecidableEq, Repr

/-- `service` of a profile. The utilization is the literal of the reviewed file. -/
structure Service where
  attentionBackend : String
  moeBackend : String
  linearBackend : String
  distributedExecutorBackend : String
  targetKvCacheDtype : String
  blockSize : Nat
  gpuMemoryUtilization : String
  enableChunkedPrefill : Bool
  longPrefillTokenThreshold : Nat
  compactLayoutAbi : String
  compactLayoutRecordBytes : Nat
  draftConfigJson : String
  reasoningConfigJson : String
  loadFormat : String
  prefixCachingEnabled : Bool
  prefixCachingHashAlgorithm : String
  asyncScheduling : Bool
  cudaGraphEnabled : Bool
  cudaGraphMode : String
  maxCudagraphCaptureSize : Nat
  compilationConfigJson : String
deriving DecidableEq, Repr

/-- `limits` of a profile. -/
structure Limits where
  maxModelLen : Nat
  maxNumSeqs : Nat
  maxNumBatchedTokens : Nat
deriving DecidableEq, Repr

/-- `parsing` of a profile. -/
structure Parsing where
  tokenizerMode : String
  toolCallParser : String
  reasoningParser : String
deriving DecidableEq, Repr

/-- A reviewed profile. The sections that nothing but the configuration digest reads
(`platform`, `image`, `security`, the release gates) are kept as they are written. -/
structure Profile where
  profileId : String
  topology : Topology
  model : ModelSection
  service : Service
  limits : Limits
  parsing : Parsing
  containerNamePrefix : String
  containerReadOnlyRoot : Bool
  containerNoNewPrivileges : Bool
  platform : Json
  image : Json
  security : Json
  releaseGatedManifestFields : Json
deriving DecidableEq

/-- A validated configuration. -/
structure Config where
  profile : Profile
  deployment : Deployment
deriving DecidableEq

/-! ### The JSON form -/

namespace Json

/-- A natural number. -/
def ofNat (n : Nat) : Json := .int n

/-- An optional text. -/
def ofText? (s : Option String) : Json := ofOption .str s

/-- An optional number. -/
def ofNat? (n : Option Nat) : Json := ofOption ofNat n

/-- An optional integer. -/
def ofInt? (n : Option Int) : Json := ofOption .int n

end Json

open Json (ofNat ofInt? ofText?)

/-- The deployment section as JSON. -/
def Deployment.toJson (d : Deployment) : Json := .obj [
  ("mode", .str d.mode.text),
  ("fabric_profile", .str d.fabricProfile.text),
  ("head_fabric_cidr", ofText? d.head.fabricCidr),
  ("worker_fabric_cidr", ofText? d.worker.fabricCidr),
  ("head_fabric_peer", ofText? d.head.fabricPeer),
  ("worker_fabric_peer", ofText? d.worker.fabricPeer),
  ("head_fabric_connection", ofText? d.head.fabricConnection),
  ("worker_fabric_connection", ofText? d.worker.fabricConnection),
  ("head_roce_gid_index", ofInt? d.head.roceGidIndex),
  ("worker_roce_gid_index", ofInt? d.worker.roceGidIndex),
  ("head_host", .str d.head.host),
  ("worker_host", .str d.worker.host),
  ("head_ssh_host", .str d.head.sshHost),
  ("worker_ssh_host", .str d.worker.sshHost),
  ("ssh_user", ofText? d.sshUser),
  ("head_ssh_user", .str d.head.sshUser),
  ("worker_ssh_user", .str d.worker.sshUser),
  ("ssh_port", ofNat d.sshPort),
  ("ssh_known_hosts_file", .str d.sshKnownHostsFile),
  ("ssh_identity_file", ofText? d.sshIdentityFile),
  ("remote_root", .str d.remoteRoot),
  ("model_root", .str d.modelRoot),
  ("model_container_path", .str d.modelContainerPath),
  ("model_manifest_sha256", .str d.modelManifestSha256),
  ("state_root", .str d.stateRoot),
  ("cache_root", .str d.cacheRoot),
  ("log_root", ofText? d.logRoot),
  ("result_root", .str d.resultRoot),
  ("registry", ofText? d.registry),
  ("image_ref", .str d.imageRef),
  ("head_image_ref", .str d.head.imageRef),
  ("worker_image_ref", .str d.worker.imageRef),
  ("image_lock_file", .str d.imageLockFile),
  ("runtime_max_num_seqs", ofNat d.runtimeMaxNumSeqs),
  ("runtime_max_num_batched_tokens", ofNat d.runtimeMaxNumBatchedTokens),
  ("allow_production_images_in_candidate", .bool d.allowProductionImagesInCandidate),
  ("production_change_allowed", .bool d.productionChangeAllowed),
  ("master_addr", .str d.masterAddr),
  ("master_port", ofNat d.masterPort),
  ("api_port", ofNat d.apiPort),
  ("head_node_addr", .str d.head.nodeAddr),
  ("worker_node_addr", .str d.worker.nodeAddr),
  ("head_net_iface", .str d.head.netIface),
  ("worker_net_iface", .str d.worker.netIface),
  ("head_hca", .str d.head.hca),
  ("worker_hca", .str d.worker.hca),
  ("head_cuda_visible_devices", .str d.head.cudaVisibleDevices),
  ("worker_cuda_visible_devices", .str d.worker.cudaVisibleDevices),
  ("roce_gid_index", ofInt? d.roceGidIndex),
  ("roce_mtu", ofNat d.roceMtu),
  ("api_bind_addr", .str d.apiBindAddr),
  ("allow_public_api", .bool d.allowPublicApi),
  ("forward_local_port", ofNat d.forwardLocalPort)]

/-- `service` as JSON. -/
def Service.toJson (s : Service) : Json := .obj [
  ("attention_backend", .str s.attentionBackend),
  ("moe_backend", .str s.moeBackend),
  ("linear_backend", .str s.linearBackend),
  ("distributed_executor_backend", .str s.distributedExecutorBackend),
  ("target_kv_cache_dtype", .str s.targetKvCacheDtype),
  ("block_size", ofNat s.blockSize),
  ("gpu_memory_utilization", .float s.gpuMemoryUtilization),
  ("enable_chunked_prefill", .bool s.enableChunkedPrefill),
  ("long_prefill_token_threshold", ofNat s.longPrefillTokenThreshold),
  ("compact_layout", .obj [
    ("abi", .str s.compactLayoutAbi),
    ("record_bytes", ofNat s.compactLayoutRecordBytes)]),
  ("draft_config_json", .str s.draftConfigJson),
  ("reasoning_config_json", .str s.reasoningConfigJson),
  ("load_format", .str s.loadFormat),
  ("prefix_caching", .obj [
    ("enabled", .bool s.prefixCachingEnabled),
    ("hash_algorithm", .str s.prefixCachingHashAlgorithm)]),
  ("async_scheduling", .bool s.asyncScheduling),
  ("cuda_graph", .obj [
    ("enabled", .bool s.cudaGraphEnabled),
    ("mode", .str s.cudaGraphMode)]),
  ("max_cudagraph_capture_size", ofNat s.maxCudagraphCaptureSize),
  ("compilation_config_json", .str s.compilationConfigJson)]

/-- A profile as JSON. -/
def Profile.toJson (p : Profile) : Json := .obj [
  ("schema_version", ofNat 1),
  ("profile_id", .str p.profileId),
  ("release_gated_manifest_fields", p.releaseGatedManifestFields),
  ("platform", p.platform),
  ("topology", .obj [
    ("tensor_parallel_size", ofNat p.topology.tensorParallelSize),
    ("pipeline_parallel_size", ofNat p.topology.pipelineParallelSize),
    ("nnodes", ofNat p.topology.nnodes),
    ("head_rank", ofNat p.topology.headRank),
    ("worker_rank", ofNat p.topology.workerRank),
    ("worker_first", .bool p.topology.workerFirst)]),
  ("model", .obj [
    ("family", .str p.model.family),
    ("served_model_name", .str p.model.servedModelName),
    ("container_path", .str p.model.containerPath),
    ("model_path", .str p.model.modelPath)]),
  ("service", p.service.toJson),
  ("limits", .obj [
    ("max_model_len", ofNat p.limits.maxModelLen),
    ("max_num_seqs", ofNat p.limits.maxNumSeqs),
    ("max_num_batched_tokens", ofNat p.limits.maxNumBatchedTokens)]),
  ("parsing", .obj [
    ("tokenizer_mode", .str p.parsing.tokenizerMode),
    ("tool_call_parser", .str p.parsing.toolCallParser),
    ("reasoning_parser", .str p.parsing.reasoningParser)]),
  ("container", .obj [
    ("name_prefix", .str p.containerNamePrefix),
    ("read_only_root", .bool p.containerReadOnlyRoot),
    ("no_new_privileges", .bool p.containerNoNewPrivileges)]),
  ("image", p.image),
  ("security", p.security)]

/-- The whole configuration as JSON. -/
def Config.toJson (config : Config) : Json :=
  .obj [("profile", config.profile.toJson), ("deployment", config.deployment.toJson)]

/-- `config_sha256`. -/
def configSha256 (config : Config) : String :=
  Sha256.hexDigest (Json.canonical config.toJson)

/-- `deployment_id`: the name under which a deployment owns its containers. -/
def deploymentId (config : Config) : String :=
  "deployment-" ++ String.ofList ((Text.chars (configSha256 config)).take 16)

/-! ### The two committed profiles -/

/-- `dsv4-native432-b12x-tp2.json`. -/
def defaultProfile : Profile where
  profileId := "dsv4-native432-b12x-tp2"
  topology := ⟨2, 1, 2, 0, 1, true⟩
  model := ⟨"DeepSeek-V4-Flash", "deepseek-v4-flash-0731-native432", "/models",
    "/models/DeepSeek-V4-Flash-0731"⟩
  service := {
    attentionBackend := "B12X_MLA_SPARSE"
    moeBackend := "b12x"
    linearBackend := "b12x"
    distributedExecutorBackend := "mp"
    targetKvCacheDtype := "nvfp4_ds_mla"
    blockSize := 256
    gpuMemoryUtilization := "0.85"
    enableChunkedPrefill := true
    longPrefillTokenThreshold := 0
    compactLayoutAbi := "dsv4-native432-compact-v1"
    compactLayoutRecordBytes := 432
    draftConfigJson := "\x7b\"method\":\"dspark\",\"num_speculative_tokens\":5," ++
      "\"draft_sample_method\":\"probabilistic\",\"attention_backend\":\"B12X_MLA_SPARSE\"," ++
      "\"kv_cache_dtype\":\"fp8\"\x7d"
    reasoningConfigJson := "\x7b\"reasoning_parser\":\"deepseek_v4\"," ++
      "\"reasoning_start_str\":\"\",\"reasoning_end_str\":\"\"\x7d"
    loadFormat := "instanttensor"
    prefixCachingEnabled := true
    prefixCachingHashAlgorithm := "sha256"
    asyncScheduling := false
    cudaGraphEnabled := true
    cudaGraphMode := "FULL_AND_PIECEWISE"
    maxCudagraphCaptureSize := 64
    compilationConfigJson :=
      "\x7b\"cudagraph_mode\":\"FULL_AND_PIECEWISE\",\"custom_ops\":[\"all\"]\x7d" }
  limits := ⟨327680, 5, 1024⟩
  parsing := ⟨"deepseek_v4", "deepseek_v4", "deepseek_v4"⟩
  containerNamePrefix := "dsv4-candidate-"
  containerReadOnlyRoot := true
  containerNoNewPrivileges := true
  platform := .obj [("architecture", .str "linux/arm64"), ("accelerator", .str "GB10"),
    ("nodes", ofNat 2)]
  image := .obj [
    ("lock_path", .str "image.lock.json"),
    ("candidate_id", .str "dsv4-0731-native432-b12x"),
    ("source_refs", .obj [
      ("vllm", .str "release/dsv4-0731-native432-b12x"),
      ("b12x", .str "release/dsv4-0731-native432")]),
    ("required_labels", Json.ofStrings [
      "org.opencontainers.image.revision",
      "com.dgx-spark.architecture",
      "com.dgx-spark.profile_sha256",
      "com.dgx-spark.service_contract_sha256",
      "com.dgx-spark.image_lock_sha256",
      "com.dgx-spark.vllm.commit",
      "com.dgx-spark.b12x.commit"])]
  security := .obj [
    ("production_change_allowed", .bool false),
    ("api_bind_default", .str "127.0.0.1"),
    ("model_mount_read_only", .bool true)]
  releaseGatedManifestFields := Json.ofStrings ["chat_template", "reasoning_config",
    "load_format", "linear_backend", "cuda_graph_capture_sizes", "compact_block_stride"]

/-- `dsv4-native432-b12x-tp2-seq10.json`: the candidate profile for ten sequences. -/
def candidateSeq10Profile : Profile :=
  { defaultProfile with
    profileId := "dsv4-native432-b12x-tp2-seq10"
    limits := ⟨327680, 10, 8192⟩
    image := .obj [
      ("lock_path", .str "image.lock.json"),
      ("candidate_id", .str "dsv4-0731-native432-b12x-seq10"),
      ("source_refs", defaultProfile.image.get "source_refs"),
      ("required_labels", defaultProfile.image.get "required_labels")] }

/-! ### A configuration -/

/-- The settings of a candidate deployment on two nodes. -/
def candidateDeployment : Deployment where
  mode := .candidate
  fabricProfile := .auto
  head := {
    host := "192.0.2.10"
    sshHost := "192.0.2.10"
    sshUser := "runner"
    nodeAddr := "192.168.100.10"
    netIface := "rdma0"
    hca := "mlx5_0"
    cudaVisibleDevices := "0"
    imageRef := "candidate/dsv4-head@sha256:" ++
      "cccccccccccccccccccccccccccccccccccccccccccccccccccccccccccccccc"
    fabricCidr := none
    fabricPeer := none
    fabricConnection := none
    roceGidIndex := none }
  worker := {
    host := "192.0.2.11"
    sshHost := "192.0.2.11"
    sshUser := "runner"
    nodeAddr := "192.168.100.11"
    netIface := "rdma0"
    hca := "mlx5_0"
    cudaVisibleDevices := "0"
    imageRef := "candidate/dsv4-worker@sha256:" ++
      "dddddddddddddddddddddddddddddddddddddddddddddddddddddddddddddddd"
    fabricCidr := none
    fabricPeer := none
    fabricConnection := none
    roceGidIndex := none }
  sshUser := some "runner"
  sshPort := 22
  sshKnownHostsFile := "/etc/ssh/known_hosts"
  sshIdentityFile := none
  remoteRoot := "/srv/dgx-spark-candidate/deploy"
  modelRoot := "/srv/models/DeepSeek-V4-Flash-0731"
  modelContainerPath := "/models/DeepSeek-V4-Flash-0731"
  modelManifestSha256 := "aaaaaaaaaaaaaaaaaaaaaaaaaaaaaaaaaaaaaaaaaaaaaaaaaaaaaaaaaaaaaaaa"
  stateRoot := "/var/lib/dgx-spark-candidate/state"
  cacheRoot := "/var/cache/dgx-spark-candidate/cache"
  logRoot := some "/var/log/dgx-spark-candidate/logs"
  resultRoot := "/var/lib/dgx-spark-candidate/results"
  registry := none
  imageRef := "registry.example.invalid/dsv4@sha256:" ++
    "bbbbbbbbbbbbbbbbbbbbbbbbbbbbbbbbbbbbbbbbbbbbbbbbbbbbbbbbbbbbbbbb"
  imageLockFile := "/srv/locks/image.lock.json"
  runtimeMaxNumSeqs := 5
  runtimeMaxNumBatchedTokens := 1024
  allowProductionImagesInCandidate := false
  productionChangeAllowed := false
  masterAddr := "192.168.100.10"
  masterPort := 29621
  apiPort := 18101
  roceGidIndex := none
  roceMtu := 9000
  apiBindAddr := "127.0.0.1"
  allowPublicApi := false
  forwardLocalPort := 18080

/-- A candidate configuration with the default profile. -/
def candidateConfig : Config :=
  ⟨defaultProfile, candidateDeployment⟩

end DgxSpark
