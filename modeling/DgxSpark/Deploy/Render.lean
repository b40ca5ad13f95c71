import DgxSpark.Lib.PosixPath
import DgxSpark.Deploy.Fabric

/-!
# Rendering a role contract

From a configuration, a role and an image lock, `render.py` derives everything a node will
execute: the environment of the service, its argv, the argv that creates its container, and
the contract that records all of it with a digest. The functions here are those, one by
one; they fail where the source fails, in the order in which it does.

A contract is a record (`DgxSpark.Contract`) with a JSON form, and its digest covers twelve
of its members (`DgxSpark.digestKeys`), the role among them.
-/

namespace DgxSpark

/-! ### The image lock -/

/-- Text labels as a Python mapping holds them: no key twice. -/
structure Labels where
  members : List (String × String)
  nodup : (members.map Prod.fst).Nodup
deriving DecidableEq

namespace Labels

/-- `labels.get(key)`. -/
def get? (labels : Labels) (key : String) : Option String :=
  labels.members.lookup key

/-- Labels as JSON. -/
def toJson (labels : Labels) : Json :=
  .obj (labels.members.map fun p => (p.1, .str p.2))

end Labels

/-- The image of one role in a deployment lock. -/
structure LockImage where
  reference : String
  imageId : String
  labels : Labels
deriving DecidableEq

/-- A loaded deployment lock: what of it the renderer and the engine read. -/
structure Lock where
  head : LockImage
  worker : LockImage
deriving DecidableEq

/-- The image of a role. -/
def Lock.image (lock : Lock) : Role → LockImage
  | .worker => lock.worker
  | .head => lock.head

/-- `REQUIRED_IMAGE_LABELS`. -/
def requiredImageLabels : List String := [
  "org.opencontainers.image.revision",
  "com.dgx-spark.architecture",
  "com.dgx-spark.vllm.commit",
  "com.dgx-spark.b12x.commit",
  "com.dgx-spark.runtime-file-sha256"]

/-- `OPTIONAL_IMAGE_LABELS`. -/
def optionalImageLabels : List String := [
  "com.dgx-spark.profile_sha256",
  "com.dgx-spark.service_contract_sha256",
  "com.dgx-spark.image_lock_sha256"]

/-- Whether some part of a reference, between separators, is `candidate`. -/
def isCandidateRef (reference : String) : Bool :=
  ((Text.chars (Text.lower reference)).splitOnP fun c => "/:._-".toList.contains c).contains
    "candidate".toList

/-- The image that a contract records; without a lock there is no image ID. -/
structure ContractImage where
  reference : String
  imageId : Option String
  labels : Labels
deriving DecidableEq

/-- The labels of an unlocked image. -/
def unlockedLabels : Labels where
  members := [
    ("org.opencontainers.image.revision", "unlocked"),
    ("com.dgx-spark.architecture", "linux/arm64"),
    ("com.dgx-spark.vllm.commit", "unlocked"),
    ("com.dgx-spark.b12x.commit", "unlocked"),
    ("com.dgx-spark.runtime-file-sha256", "unlocked")]
  nodup := by decide +kernel

/-- `_lock_image`. -/
def lockImage (lock : Option Lock) (role : Role) (config : Config) : ContractImage :=
  match lock with
  | none => ⟨(config.deployment.settings role).imageRef, none, unlockedLabels⟩
  | some lock =>
    ⟨(lock.image role).reference, some (lock.image role).imageId, (lock.image role).labels⟩

/-- The labels of a locked candidate image. -/
def candidateLabels : Labels where
  members := [
    ("org.opencontainers.image.revision", "aaaaaaaaaaaaaaaaaaaaaaaaaaaaaaaaaaaaaaaa"),
    ("com.dgx-spark.architecture", "linux/arm64"),
    ("com.dgx-spark.vllm.commit", "eeeeeeeeeeeeeeeeeeeeeeeeeeeeeeeeeeeeeeee"),
    ("com.dgx-spark.b12x.commit", "ffffffffffffffffffffffffffffffffffffffff"),
    ("com.dgx-spark.runtime-file-sha256",
      "7777777777777777777777777777777777777777777777777777777777777777"),
    ("com.dgx-spark.profile_sha256",
      "bbbbbbbbbbbbbbbbbbbbbbbbbbbbbbbbbbbbbbbbbbbbbbbbbbbbbbbbbbbbbbbb"),
    ("com.dgx-spark.service_contract_sha256",
      "cccccccccccccccccccccccccccccccccccccccccccccccccccccccccccccccc"),
    ("com.dgx-spark.image_lock_sha256",
      "dddddddddddddddddddddddddddddddddddddddddddddddddddddddddddddddd")]
  nodup := by decide +kernel

/-- A lock of the candidate configuration. -/
def candidateLock : Lock where
  head := ⟨candidateDeployment.head.imageRef,
    "sha256:1111111111111111111111111111111111111111111111111111111111111111", candidateLabels⟩
  worker := ⟨candidateDeployment.worker.imageRef,
    "sha256:2222222222222222222222222222222222222222222222222222222222222222", candidateLabels⟩

/-! ### Names and paths -/

/-- `_container_name`. -/
def containerName (config : Config) (role : Role) : String :=
  match config.deployment.mode with
  | .production => "dsv4-native432-dspark5-327k-seq5-" ++ role.text
  | .candidate => "dsv4-candidate-native432-dspark5-327k-seq" ++
      toString config.deployment.runtimeMaxNumSeqs ++ "-" ++ role.text
  | .generic => config.profile.containerNamePrefix ++ role.text

/-- `_model_path`. -/
def modelPath (config : Config) : Except Exn String :=
  if config.deployment.modelContainerPath ≠ config.profile.model.modelPath then
    .error ⟨.render, "model container path differs from reviewed profile"⟩
  else .ok config.profile.model.modelPath

/-- `_model_mount_destination`. -/
def modelMountDestination (config : Config) : Except Exn String := do
  let path ← modelPath config
  return if (PosixPath.parse config.deployment.modelRoot).name = (PosixPath.parse path).name
    then path else "/models"

/-- A file of a role below the `contracts` directory of the remote root. -/
def remoteContractsFile (config : Config) (role : Role) (suffix : String) : String :=
  (((PosixPath.parse config.deployment.remoteRoot).child "contracts").child
    (config.deployment.mode.text ++ "-" ++ role.text ++ suffix)).text

/-- `_remote_contract_path`. -/
def remoteContractPath (config : Config) (role : Role) : String :=
  remoteContractsFile config role ".json"

/-- `_remote_env_path`. -/
def remoteEnvPath (config : Config) (role : Role) : String :=
  remoteContractsFile config role ".env"

/-- `_cache_root`. -/
def cacheRoot (config : Config) (role : Role) : String :=
  ((PosixPath.parse config.deployment.cacheRoot).child
    (match role with | .head => "dgx0" | .worker => "dgx1")).text

/-! ### The environment -/

/-- `_RUNTIME_ENV`. -/
def runtimeEnv : List (String × String) := [
  ("NCCL_CROSS_NIC", "1"),
  ("NCCL_NET", "IB"),
  ("NCCL_IB_ADDR_FAMILY", "AF_INET"),
  ("NCCL_IB_DISABLE", "0"),
  ("NCCL_IB_ROCE_VERSION_NUM", "2"),
  ("VLLM_RPC_TIMEOUT", "600000"),
  ("VLLM_ENGINE_READY_TIMEOUT_S", "3600"),
  ("VLLM_ALLOW_LONG_MAX_MODEL_LEN", "1"),
  ("VLLM_MEMORY_PROFILE_INCLUDE_ATTN", "1"),
  ("VLLM_USE_B12X_MOE", "1"),
  ("VLLM_USE_B12X_SPARSE_INDEXER", "1"),
  ("VLLM_USE_B12X_FP8_GEMM", "1"),
  ("VLLM_USE_B12X_MHC", "1"),
  ("VLLM_USE_B12X_WO_PROJECTION", "1"),
  ("VLLM_USE_V2_MODEL_RUNNER", "1"),
  ("VLLM_USE_MEGA_AOT_ARTIFACT", "0"),
  ("VLLM_USE_AOT_COMPILE", "0"),
  ("VLLM_FORCE_AOT_LOAD", "0"),
  ("VLLM_NVFP4_MLA_DYNAMIC_SCALE", "0"),
  ("VLLM_MOE_SKIP_PADDING", "0"),
  ("VLLM_MOE_FORCE_A8", "1"),
  ("B12X_MOE_FORCE_A8", "1"),
  ("VLLM_MLA_SM120_UNIFIED", "1"),
  ("B12X_MLA_SM120_UNIFIED", "1"),
  ("VLLM_USE_FLASHINFER_SAMPLER", "1"),
  ("FLASHINFER_DISABLE_VERSION_CHECK", "1"),
  ("NCCL_CUMEM_ENABLE", "0"),
  ("NCCL_NVLS_ENABLE", "0"),
  ("NCCL_IGNORE_CPU_AFFINITY", "1"),
  ("VLLM_DSPARK_DYNAMIC_DRAFT_DEPTH", "0"),
  ("VLLM_DSPARK_SPS_DEBUG", "0"),
  ("VLLM_DSPARK_CAPTURE_SHARDED_MARKOV", "0"),
  ("KV_FP8_ROPE", "0"),
  ("CUDA_MODULE_LOADING", "LAZY"),
  ("TORCH_CUDA_ARCH_LIST", "12.1a"),
  ("CUTE_DSL_ARCH", "sm_121a"),
  ("DG_JIT_USE_NVRTC", "0"),
  ("USE_CUDNN", "1"),
  ("HF_HUB_OFFLINE", "1"),
  ("TRANSFORMERS_OFFLINE", "1"),
  ("PYTHONUNBUFFERED", "1")]

/-- The GID index a role runs with: an override, else its own, else the common one. -/
def effectiveGid (config : Config) (role : Role) (gidIndex : Option Int) : Option Int :=
  gidIndex.or ((config.deployment.settings role).roceGidIndex.or config.deployment.roceGidIndex)

/-- The variable of an optional text that is set when the text is not empty. -/
def optionalVariable (key : String) : Option String → List (String × String)
  | none => []
  | some value => if value = "" then [] else [(key, value)]

/-- The assignments of `render_environment`, in order. -/
def environmentAssignments (config : Config) (role : Role) (gidIndex : Option Int) :
    List (String × String) :=
  let settings := config.deployment.settings role
  runtimeEnv ++ [
    ("VLLM_HOST_IP", settings.nodeAddr),
    ("NCCL_SOCKET_IFNAME", settings.netIface),
    ("GLOO_SOCKET_IFNAME", settings.netIface),
    ("TP_SOCKET_IFNAME", settings.netIface),
    ("NCCL_IB_HCA", settings.hca),
    ("CUDA_VISIBLE_DEVICES", settings.cudaVisibleDevices)] ++
  (match effectiveGid config role gidIndex with
    | none => []
    | some gid => [("NCCL_IB_GID_INDEX", toString gid)]) ++
  [("NCCL_IB_MTU", toString config.deployment.roceMtu)] ++
  (if config.deployment.fabricProfile = .auto then []
    else [("DGX_SPARK_FABRIC_PROFILE", config.deployment.fabricProfile.text)]) ++
  optionalVariable "DGX_SPARK_FABRIC_CIDR" settings.fabricCidr ++
  optionalVariable "DGX_SPARK_FABRIC_PEER" settings.fabricPeer

/-- Comparison of variables by name. -/
def nameLe (a b : String × String) : Prop :=
  a.1 ≤ b.1

instance : DecidableRel nameLe := fun a b => Text.decidableLe a.1 b.1

/-- `render_environment`: the assignments, sorted by name. -/
def renderEnvironment (config : Config) (role : Role) (gidIndex : Option Int) :
    List (String × String) :=
  (environmentAssignments config role gidIndex).insertionSort nameLe

/-! ### The service command -/

/-- A reviewed JSON text in canonical form. -/
def recanonical (text : String) : Except Exn String :=
  match Json.loads text with
  | some j => .ok (Json.canonical j)
  | none => .error ⟨.value, "Expecting value"⟩

/-- `render_service_argv`. -/
def renderServiceArgv (config : Config) (role : Role) : Except Exn (List String) := do
  let deployment := config.deployment
  let topology := config.profile.topology
  let service := config.profile.service
  let limits := config.profile.limits
  let parsing := config.profile.parsing
  let rank := match role with | .head => topology.headRank | .worker => topology.workerRank
  let reasoningConfig ← recanonical service.reasoningConfigJson
  let draftJson ← recanonical service.draftConfigJson
  let compilation ← recanonical service.compilationConfigJson
  let path ← modelPath config
  let start := [
    "vllm", "serve", path,
    "--served-model-name", config.profile.model.servedModelName,
    "--trust-remote-code",
    "--tensor-parallel-size", toString topology.tensorParallelSize,
    "--pipeline-parallel-size", toString topology.pipelineParallelSize,
    "--distributed-executor-backend", service.distributedExecutorBackend,
    "--nnodes", toString topology.nnodes,
    "--node-rank", toString rank]
  let bind := match role with
    | .head => ["--host", deployment.apiBindAddr, "--port", toString deployment.apiPort]
    | .worker => ["--headless"]
  return start ++ bind ++ [
    "--master-addr", deployment.masterAddr,
    "--master-port", toString deployment.masterPort,
    "--kv-cache-dtype", service.targetKvCacheDtype,
    "--block-size", toString service.blockSize,
    "--max-model-len", toString limits.maxModelLen,
    "--max-num-seqs", toString deployment.runtimeMaxNumSeqs,
    "--max-num-batched-tokens", toString deployment.runtimeMaxNumBatchedTokens,
    "--gpu-memory-utilization", service.gpuMemoryUtilization,
    "--enable-prefix-caching",
    "--prefix-caching-hash-algo", service.prefixCachingHashAlgorithm,
    "--no-async-scheduling",
    "--enable-chunked-prefill",
    "--long-prefill-token-threshold", toString service.longPrefillTokenThreshold,
    "--tokenizer-mode", parsing.tokenizerMode,
    "--tool-call-parser", parsing.toolCallParser,
    "--enable-auto-tool-choice",
    "--reasoning-parser", parsing.reasoningParser,
    "--reasoning-config", reasoningConfig,
    "--default-chat-template-kwargs.thinking=true",
    "--default-chat-template-kwargs.reasoning_effort=high",
    "--load-format", service.loadFormat,
    "--moe-backend", service.moeBackend,
    "--linear-backend", service.linearBackend,
    "--attention-backend", service.attentionBackend,
    "--speculative-config", draftJson,
    "--max-cudagraph-capture-size", toString service.maxCudagraphCaptureSize,
    "--compilation-config", compilation]

/-! ### The container command -/

/-- `labels[key]`. -/
def labelValue (labels : Labels) (key : String) : Except Exn String :=
  match labels.get? key with
  | some value => .ok value
  | none => .error ⟨.key, key⟩

/-- The cache directories that a container mounts, with their destinations. -/
def cacheMounts : List (String × String) := [
  ("vllm", "/root/.cache/vllm"),
  ("b12x", "/root/.cache/b12x"),
  ("flashinfer", "/root/.cache/flashinfer"),
  ("triton", "/root/.triton"),
  ("tilelang", "/root/.tilelang")]

/-- `render_container_argv`. -/
def renderContainerArgv (config : Config) (role : Role) (lock : Option Lock)
    (gidIndex : Option Int) : Except Exn (List String) := do
  let image := lockImage lock role config
  let name := containerName config role
  let cache := cacheRoot config role
  let required ← requiredImageLabels.mapM fun key => do
    let value ← labelValue image.labels key
    return ["--label", key ++ "=" ++ value]
  let destination ← modelMountDestination config
  let serviceArgv ← renderServiceArgv config role
  let start := [
    "docker", "container", "create", "--name", name, "--hostname", name, "--network", "host",
    "--ipc", "host", "--gpus", "all", "--shm-size", "68719476736",
    "--workdir", "/workspace/vllm", "--ulimit", "memlock=-1",
    "--ulimit", "nofile=1048576:1048576",
    "--label", "com.dgx-spark.deployment_id=" ++ deploymentId config,
    "--label", "com.dgx-spark.role=" ++ role.text]
  let isolation := if config.deployment.mode = .generic
    then ["--read-only", "--security-opt", "no-new-privileges:true"]
    else ["--privileged", "--security-opt", "label=disable"]
  let environment := (renderEnvironment config role gidIndex).flatMap fun p =>
    ["--env", p.1 ++ "=" ++ p.2]
  let mounts := cacheMounts.flatMap fun p =>
    ["--mount", "type=bind,src=" ++ cache ++ "/" ++ p.1 ++ ",dst=" ++ p.2]
  return start ++ isolation ++ required.flatten ++ environment ++ [
    "--env-file", remoteEnvPath config role,
    "--mount", "type=bind,src=" ++ config.deployment.modelRoot ++ ",dst=" ++ destination ++
      ",readonly"] ++ mounts ++ [
    "--mount", "type=bind,src=" ++ remoteContractPath config role ++
      ",dst=/etc/dgx-spark/service-contract.json,readonly",
    image.reference] ++ serviceArgv

/-! ### The contract -/

/-- One complete role contract. -/
structure Contract where
  deploymentId : String
  mode : Mode
  profileId : String
  role : Role
  container : String
  host : String
  nodeAddr : String
  fabric : FabricSpec
  apiPort : Option Nat
  masterAddr : String
  masterPort : Nat
  modelPath : String
  modelRoot : String
  modelManifestSha256 : String
  image : ContractImage
  environment : List (String × String)
  serviceArgv : List String
  containerArgv : List String
  contractPath : String
  serviceContractSha256 : String
deriving DecidableEq

/-- Variables as JSON. -/
def environmentJson (environment : List (String × String)) : Json :=
  .obj (environment.map fun p => (p.1, .str p.2))

/-- An image as JSON. -/
def ContractImage.toJson (image : ContractImage) : Json := .obj [
  ("reference", .str image.reference),
  ("image_id", Json.ofText? image.imageId),
  ("labels", image.labels.toJson)]

/-- The members of a contract apart from its digest. -/
def Contract.base (c : Contract) : Json := .obj [
  ("schema_version", Json.ofNat 1),
  ("deployment_id", .str c.deploymentId),
  ("mode", .str c.mode.text),
  ("profile_id", .str c.profileId),
  ("role", .str c.role.text),
  ("container", .str c.container),
  ("host", .str c.host),
  ("node_addr", .str c.nodeAddr),
  ("fabric", c.fabric.toJson),
  ("api_port", Json.ofNat? c.apiPort),
  ("master_addr", .str c.masterAddr),
  ("master_port", Json.ofNat c.masterPort),
  ("model_path", .str c.modelPath),
  ("model_root", .str c.modelRoot),
  ("model_manifest_sha256", .str c.modelManifestSha256),
  ("image", c.image.toJson),
  ("environment", environmentJson c.environment),
  ("service_argv", Json.ofStrings c.serviceArgv),
  ("container_argv", Json.ofStrings c.containerArgv),
  ("contract_path", .str c.contractPath)]

/-- A contract as JSON. -/
def Contract.toJson (c : Contract) : Json :=
  .obj (c.base.members ++ [("service_contract_sha256", .str c.serviceContractSha256)])

/-- The members that the renderer's digest covers. -/
def digestKeys : List String := [
  "schema_version",
  "mode",
  "role",
  "node_addr",
  "fabric",
  "api_port",
  "master_addr",
  "master_port",
  "model_path",
  "model_manifest_sha256",
  "environment",
  "service_argv"]

/-- The canonical text that the renderer hashes. -/
def digestText (base : Json) : String :=
  Json.canonical (.obj (Json.selectKeys digestKeys base))

/-- The contract with the renderer's digest of its other members. -/
def Contract.sealed (c : Contract) : Contract :=
  { c with serviceContractSha256 := Sha256.hexDigest (digestText c.base) }

@[simp] theorem Contract.base_sealed (c : Contract) : c.sealed.base = c.base := rfl

theorem Contract.digest_sealed (c : Contract) :
    c.sealed.serviceContractSha256 = Sha256.hexDigest (digestText c.sealed.base) := rfl

/-- The members of a role's contract, once the parts that can fail are there. -/
def contractOf (config : Config) (role : Role) (lock : Option Lock) (gidIndex : Option Int)
    (fabric : FabricSpec) (path : String) (serviceArgv containerArgv : List String) :
    Contract where
  deploymentId := deploymentId config
  mode := config.deployment.mode
  profileId := config.profile.profileId
  role := role
  container := containerName config role
  host := (config.deployment.settings role).host
  nodeAddr := (config.deployment.settings role).nodeAddr
  fabric := { fabric with gidIndex := gidIndex.or fabric.gidIndex }
  apiPort := match role with | .head => some config.deployment.apiPort | .worker => none
  masterAddr := config.deployment.masterAddr
  masterPort := config.deployment.masterPort
  modelPath := path
  modelRoot := config.deployment.modelRoot
  modelManifestSha256 := config.deployment.modelManifestSha256
  image := lockImage lock role config
  environment := renderEnvironment config role gidIndex
  serviceArgv := serviceArgv
  containerArgv := containerArgv
  contractPath := remoteContractPath config role
  serviceContractSha256 := ""

/-- `render_contract`. -/
def renderContract (config : Config) (role : Role) (lock : Option Lock)
    (gidIndex : Option Int) : Except Exn Contract := do
  let fabric ← fabricSpec config role
  let path ← modelPath config
  let serviceArgv ← renderServiceArgv config role
  let containerArgv ← renderContainerArgv config role lock gidIndex
  return (contractOf config role lock gidIndex fabric path serviceArgv containerArgv).sealed

/-- `render_contract_json`. -/
def renderContractJson (config : Config) (role : Role) (lock : Option Lock)
    (gidIndex : Option Int) : Except Exn String := do
  let contract ← renderContract config role lock gidIndex
  return Json.dumps Json.indented contract.toJson ++ "\n"

end DgxSpark
