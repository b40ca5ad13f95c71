import DgxSpark.Lib.Ip
import DgxSpark.Deploy.Locks
import DgxSpark.Deploy.Remote

/-!
# Validating an operator's values

`config.validate` (`DgxSpark.validate`), from the values of an env file to the configuration
that everything else is computed from. It is one long sequence of checks; here it is cut where
its subject changes, and each piece returns what the later ones use of it.

Two things are from outside the function: the directory of the repository, which no root may
lie in, and the table of decimal digits (`DgxSpark.Decimals`), since `str.isdecimal` and `int`
accept the digits of every script.

A GID index of a role that only `int` looks at, under `f0`, can be negative. The configuration
has no place for it, and it is refused here as a text that is no number would be.
-/

namespace DgxSpark

/-! ### Values -/

/-- The values of an env file. -/
abbrev EnvValues := List (String × String)

/-- `values.get(key, "")`. -/
def EnvValues.value (values : EnvValues) (key : String) : String :=
  (values.lookup key).getD ""

/-- The value of a decimal digit of any script. -/
structure Decimals where
  digit : Char → Option Nat
  lt : ∀ c d, digit c = some d → d < 10
  ascii : ∀ c, Text.isDecimal c = true → digit c = some (c.toNat - '0'.toNat)

/-- `_reject`. -/
def reject (condition : Bool) (message : String) : Except Exn Unit :=
  failWith .config condition message

section Decimals

variable (decimals : Decimals)

/-- The text with ASCII digits, which is what `int` reads. -/
def Decimals.asciiText (s : String) : String :=
  String.ofList ((Text.chars s).map fun c =>
    match decimals.digit c with
    | some d => Nat.digitChar d
    | none => c)

/-- `raw.isdecimal()`. -/
def Decimals.isDecimal (raw : String) : Bool :=
  !(Text.chars raw).isEmpty && (Text.chars raw).all fun c => (decimals.digit c).isSome

/-- `int(raw)` of decimal digits: more than 4300 of them are refused. -/
def Decimals.int (raw : String) : Except Exn Nat := do
  failWith .value (decide (4300 < (Text.chars raw).length))
    "Exceeds the limit (4300 digits) for integer string conversion"
  return Text.toNat (decimals.asciiText raw)

/-- `_nonempty`. -/
def nonempty (values : EnvValues) (key : String) : Except Exn String := do
  reject (values.value key == "") ("missing required value: " ++ key)
  return values.value key

/-- A number in a range: `not raw.isdecimal() or not low <= int(raw) <= high`. -/
def boundedInt (raw : String) (low high : Nat) (message : String) : Except Exn Nat := do
  reject (!decimals.isDecimal raw) message
  let value ← decimals.int raw
  reject (!(decide (low ≤ value) && decide (value ≤ high))) message
  return value

/-- `_port`. -/
def port (values : EnvValues) (key : String) : Except Exn Nat := do
  let raw ← nonempty values key
  reject (!decimals.isDecimal raw) (key ++ " must be an integer port")
  let value ← decimals.int raw
  reject (!(decide (1 ≤ value) && decide (value ≤ 65535))) (key ++ " must be between 1 and 65535")
  return value

/-- `_runtime_limit`. -/
def runtimeLimit (values : EnvValues) (key : String) (default : Nat) (mode : Mode)
    (productionAllowed : Bool) : Except Exn Nat :=
  let raw := values.value key
  if raw = "" then .ok default
  else do
    reject (mode != .candidate && !(mode == .production && productionAllowed))
      (key ++ " overrides require candidate mode or an explicitly authorized production change")
    reject (!decimals.isDecimal raw) (key ++ " must be a positive integer")
    let value ← decimals.int raw
    reject (decide (value < 1)) (key ++ " must be a positive integer")
    return value

end Decimals

/-- `_address`. -/
def address (values : EnvValues) (key : String) : Except Exn String := do
  let value ← nonempty values key
  reject (!isSafeHost value) (key ++ " contains unsafe host characters")
  reject ((Text.chars value).contains '@' || (Text.chars value).contains '/')
    (key ++ " must not contain a user or path")
  reject (Ip.parse value).isNone (key ++ " must be an explicit IPv4 or IPv6 address")
  return value

/-- `_SAFE_VALUE`. -/
def isSafeValue (s : String) : Bool :=
  !(Text.chars s).isEmpty && (Text.chars s).all fun c => 32 ≤ c.toNat && c.toNat != 127

/-- `_absolute_root`. -/
def absoluteRoot (values : EnvValues) (key : String) : Except Exn String := do
  let value ← nonempty values key
  let path := PosixPath.parse value
  reject (path.root == "") (key ++ " must be absolute")
  reject (path == PosixPath.parse "/") (key ++ " may not be the filesystem root")
  reject (path.parts.contains "..") (key ++ " may not contain traversal")
  reject (!isSafeValue value) (key ++ " contains control characters")
  let stripped := Text.rstripChar '/' value
  return if stripped = "" then "/" else stripped

/-- `path == repo or repo in path.parents`. -/
def insideRepository (repository path : PosixPath) : Bool :=
  path.root == repository.root && repository.parts.isPrefixOf path.parts

/-- `_external_file`. -/
def externalFile (repository : PosixPath) (values : EnvValues) (key : String) :
    Except Exn String := do
  let value ← absoluteRoot values key
  reject (insideRepository repository (PosixPath.parse value))
    (key ++ " must be outside the repository")
  return value

/-- `_lock_file`. -/
def lockFile (repository : PosixPath) (values : EnvValues) : Except Exn String :=
  let raw := values.value "IMAGE_LOCK_FILE"
  if raw = "" then .ok (repository.child "image.lock.json").text
  else do
    let path := PosixPath.parse raw
    reject (path.root == "") "IMAGE_LOCK_FILE must be absolute"
    reject (path == PosixPath.parse "/" || path.parts.contains "..")
      "IMAGE_LOCK_FILE must be an absolute traversal-free file"
    reject (!isSafeValue raw) "IMAGE_LOCK_FILE contains control characters"
    return path.text

/-- A character of a list item. -/
def isListChar (c : Char) : Bool :=
  c.isAlphanum || "_.-".toList.contains c

/-- `_SAFE_LIST`. -/
def isSafeList (s : String) : Bool :=
  ((Text.chars s).splitOn ',').all fun item => !item.isEmpty && item.all isListChar

/-- `_safe_list`. -/
def safeList (values : EnvValues) (key : String) : Except Exn String := do
  let value ← nonempty values key
  reject (!isSafeList value) (key ++ " contains unsafe characters")
  return value

/-- `_cidr`. -/
def cidr (values : EnvValues) (key expectedIp : String) : Except Exn String := do
  let raw ← nonempty values key
  match Ip.parseInterface raw with
  | none => .error ⟨.config, key ++ " must be an IP address with prefix"⟩
  | some interface => do
    reject (some interface.ip != Ip.parse expectedIp) (key ++ " must address " ++ expectedIp)
    reject (interface.prefixLength != 24) (key ++ " must use the reviewed /24 prefix")
    return raw

/-- `_SAFE_ID`, the pattern of users too. -/
def isSafeId (s : String) : Bool := isSafeUser s

/-- A character of the name before a digest. -/
def isDigestNameChar (c : Char) : Bool :=
  c.isAlphanum || "._/-".toList.contains c

/-- `_IMAGE_DIGEST`. -/
def isImageDigest (s : String) : Bool :=
  match (Text.chars s).splitOn '@' with
  | [digest] => isDigestChars digest
  | [name, digest] => !name.isEmpty && name.all isDigestNameChar && isDigestChars digest
  | _ => false

/-- An optional text, absent when it is empty: `text or None`. -/
def orNone (s : String) : Option String :=
  if s = "" then none else some s

/-- `a or b`. -/
def orText (a b : String) : String :=
  if a = "" then b else a

/-! ### The pieces of `validate` -/

/-- `ALLOWED_KEYS`. -/
def allowedValueKeys : List String := [
  "DEPLOYMENT_MODE", "FABRIC_PROFILE", "HEAD_FABRIC_CIDR", "WORKER_FABRIC_CIDR",
  "HEAD_FABRIC_PEER", "WORKER_FABRIC_PEER", "HEAD_FABRIC_CONNECTION",
  "WORKER_FABRIC_CONNECTION", "HEAD_ROCE_GID_INDEX", "WORKER_ROCE_GID_INDEX", "HEAD_SSH_HOST",
  "WORKER_SSH_HOST", "IMAGE_LOCK_FILE", "HEAD_IMAGE_REF", "WORKER_IMAGE_REF",
  "MODEL_CONTAINER_PATH", "HEAD_HOST", "WORKER_HOST", "SSH_USER", "HEAD_SSH_USER",
  "WORKER_SSH_USER", "SSH_PORT", "SSH_KNOWN_HOSTS_FILE", "SSH_IDENTITY_FILE", "REMOTE_ROOT",
  "MODEL_ROOT", "MODEL_MANIFEST_SHA256", "STATE_ROOT", "CACHE_ROOT", "LOG_ROOT", "RESULT_ROOT",
  "REGISTRY", "IMAGE_REF", "MASTER_ADDR", "MASTER_PORT", "API_PORT", "HEAD_NODE_ADDR",
  "WORKER_NODE_ADDR", "HEAD_NET_IFACE", "WORKER_NET_IFACE", "HEAD_HCA", "WORKER_HCA",
  "HEAD_CUDA_VISIBLE_DEVICES", "WORKER_CUDA_VISIBLE_DEVICES", "ROCE_GID_INDEX", "ROCE_MTU",
  "API_BIND_ADDR", "ALLOW_PUBLIC_API", "FORWARD_LOCAL_PORT", "MAX_NUM_SEQS",
  "MAX_NUM_BATCHED_TOKENS", "ALLOW_PRODUCTION_IMAGES_IN_CANDIDATE", "PRODUCTION_CHANGE_ALLOWED",
  "BASE_IMAGE_REF", "BUILD_CONTEXT", "CONTAINERFILE", "IMAGE_REPOSITORY", "IMAGE_TAG",
  "IMAGE_ARCHIVE", "IMAGE_ARCHIVE_SHA256", "REMOTE_IMAGE_ARCHIVE",
  "PERF_MIN_TOKENS_PER_SECOND", "PERF_MAX_TTFT_SECONDS", "PERF_MAX_P95_ITL_MS"]

/-- `REQUIRED_KEYS`. -/
def requiredValueKeys : List String := [
  "HEAD_HOST", "WORKER_HOST", "SSH_PORT", "SSH_KNOWN_HOSTS_FILE", "REMOTE_ROOT", "MODEL_ROOT",
  "MODEL_MANIFEST_SHA256", "STATE_ROOT", "CACHE_ROOT", "RESULT_ROOT", "IMAGE_REF",
  "MASTER_ADDR", "FORWARD_LOCAL_PORT"]

/-- The keys of the values. -/
def validateKeys (values : EnvValues) : Except Exn Unit := do
  let unknown := Text.sorted ((values.map Prod.fst).filter fun key => !allowedValueKeys.contains key)
  reject (!unknown.isEmpty) ("unknown configuration keys: " ++ (Json.ofStrings unknown).pyRepr)
  let missing := Text.sorted (requiredValueKeys.filter fun key => values.value key == "")
  reject (!missing.isEmpty) ("missing required values: " ++ String.intercalate ", " missing)

/-- `DEPLOYMENT_MODE`. -/
def validateMode (values : EnvValues) : Except Exn Mode :=
  let text := Text.lower (Text.strip (values.value "DEPLOYMENT_MODE"))
  if text = "" ∨ text = "generic" then .ok .generic
  else if text = "production" then .ok .production
  else if text = "candidate" then .ok .candidate
  else .error ⟨.config, "DEPLOYMENT_MODE must be generic, production, or candidate"⟩

/-- A switch: `0` or `1`, `0` when it is not set. -/
def switch (values : EnvValues) (key : String) : Except Exn Bool := do
  let text := orText (values.value key) "0"
  reject (text != "0" && text != "1") (key ++ " must be 0 or 1")
  return text == "1"

/-- What a deployment may override. -/
structure Overrides where
  productionChangeAllowed : Bool
  runtimeMaxNumSeqs : Nat
  runtimeMaxNumBatchedTokens : Nat
  allowProductionImages : Bool

/-- The overrides, and the mode that a profile asks for. -/
def validateOverrides (decimals : Decimals) (values : EnvValues) (profile : Profile)
    (mode : Mode) : Except Exn Overrides := do
  reject ((values.value "MAX_NUM_SEQS" != "") != (values.value "MAX_NUM_BATCHED_TOKENS" != ""))
    "MAX_NUM_SEQS and MAX_NUM_BATCHED_TOKENS must be set together"
  let changeAllowed ← switch values "PRODUCTION_CHANGE_ALLOWED"
  reject (mode != .production && changeAllowed)
    "PRODUCTION_CHANGE_ALLOWED is only valid in production mode"
  let seqs ← runtimeLimit decimals values "MAX_NUM_SEQS" 5 mode changeAllowed
  let tokens ← runtimeLimit decimals values "MAX_NUM_BATCHED_TOKENS" 1024 mode changeAllowed
  let images ← switch values "ALLOW_PRODUCTION_IMAGES_IN_CANDIDATE"
  reject (mode != .candidate && images)
    "ALLOW_PRODUCTION_IMAGES_IN_CANDIDATE is only valid in candidate mode"
  reject (profile.profileId == candidateSeq10Profile.profileId && mode != .candidate)
    "seq10 profile requires candidate mode"
  return ⟨changeAllowed, seqs, tokens, images⟩

/-- The fabric of a role. -/
structure RoleFabric where
  cidr : String
  peer : String
  connection : String
  rawGid : String

/-- The fabric fields of a role as they are given. -/
def rawFabric (values : EnvValues) (side : String) : RoleFabric where
  cidr := values.value (side ++ "_FABRIC_CIDR")
  peer := values.value (side ++ "_FABRIC_PEER")
  connection := values.value (side ++ "_FABRIC_CONNECTION")
  rawGid := values.value (side ++ "_ROCE_GID_INDEX")

/-- `FABRIC_PROFILE`. -/
def validateFabricProfile (values : EnvValues) : Except Exn FabricProfile :=
  let text := Text.lower (Text.strip (values.value "FABRIC_PROFILE"))
  if text = "" ∨ text = "auto" then .ok .auto
  else if text = "f0" then .ok .f0
  else if text = "f1" then .ok .f1
  else .error ⟨.config, "FABRIC_PROFILE must be f0, f1, or auto"⟩

/-- A GID index of a role under `f1`: any, or one in the range. -/
def validateRoleGid (decimals : Decimals) (key raw : String) : Except Exn Unit :=
  if raw = "" then .ok ()
  else do
    let _ ← boundedInt decimals raw 0 255 (key ++ " must be between 0 and 255")

/-- The checks of `f1`. -/
def validateF1 (decimals : Decimals) (values : EnvValues) (mode : Mode)
    (head worker : RoleFabric) : Except Exn Unit := do
  reject (mode == .generic) "f1 requires production or candidate mode"
  reject (values.value "HEAD_NET_IFACE" != f1Iface || values.value "WORKER_NET_IFACE" != f1Iface)
    "f1 requires enp1s0f1np1 on both roles"
  reject (values.value "HEAD_HCA" != f1Hca || values.value "WORKER_HCA" != f1Hca)
    "f1 requires rocep1s0f1 on both roles"
  let _ ← cidr values "HEAD_FABRIC_CIDR" "192.168.100.10"
  let _ ← cidr values "WORKER_FABRIC_CIDR" "192.168.100.11"
  reject (head.peer != "192.168.100.11") "HEAD_FABRIC_PEER must be 192.168.100.11"
  reject (worker.peer != "192.168.100.10") "WORKER_FABRIC_PEER must be 192.168.100.10"
  reject (!isSafeId head.connection) "HEAD_FABRIC_CONNECTION contains unsafe characters"
  reject (!isSafeId worker.connection) "WORKER_FABRIC_CONNECTION contains unsafe characters"
  validateRoleGid decimals "HEAD_ROCE_GID_INDEX" head.rawGid
  validateRoleGid decimals "WORKER_ROCE_GID_INDEX" worker.rawGid

/-- The checks of `auto`. -/
def validateAuto (head worker : RoleFabric) : Except Exn Unit := do
  reject (head.cidr != "" || worker.cidr != "" || head.peer != "" || worker.peer != "")
    "auto fabric profile cannot carry static f1 fields"
  reject (head.rawGid != "" || worker.rawGid != "")
    "auto fabric profile must discover GID indexes"

/-- The checks of a fabric profile. -/
def validateFabric (decimals : Decimals) (values : EnvValues) (mode : Mode)
    (fabricProfile : FabricProfile) : Except Exn Unit :=
  let head := rawFabric values "HEAD"
  let worker := rawFabric values "WORKER"
  match fabricProfile with
  | .f1 => validateF1 decimals values mode head worker
  | .auto => validateAuto head worker
  | .f0 => .ok ()

/-- The master and API ports that a mode is fixed to. -/
def expectedPorts : Mode → Nat × Nat
  | .production => (29619, 8101)
  | _ => (29621, 18101)

/-- The fixed addresses and ports of a mode. -/
def validateIsolation (values : EnvValues) (mode : Mode) : Except Exn Unit :=
  if mode = .generic then .ok ()
  else do
    let ports := expectedPorts mode
    reject (values.value "MASTER_ADDR" != "192.168.100.10")
      (mode.text ++ " MASTER_ADDR must be 192.168.100.10")
    reject (values.value "HEAD_NODE_ADDR" != "192.168.100.10")
      (mode.text ++ " HEAD_NODE_ADDR must be 192.168.100.10")
    reject (values.value "WORKER_NODE_ADDR" != "192.168.100.11")
      (mode.text ++ " WORKER_NODE_ADDR must be 192.168.100.11")
    reject (values.value "MASTER_PORT" != toString ports.1)
      (mode.text ++ " MASTER_PORT must be " ++ toString ports.1)
    reject (values.value "API_PORT" != toString ports.2)
      (mode.text ++ " API_PORT must be " ++ toString ports.2)
    reject (values.value "HEAD_IMAGE_REF" == "" || values.value "WORKER_IMAGE_REF" == "")
      (mode.text ++ " requires distinct HEAD_IMAGE_REF and WORKER_IMAGE_REF")

/-- How a role is reached. -/
structure RoleAccess where
  host : String
  sshHost : String
  sshUser : String

/-- `HEAD_SSH_HOST` and `WORKER_SSH_HOST`. -/
def validateSshHost (key sshHost : String) : Except Exn Unit :=
  reject (!isSafeHost sshHost || (Text.chars sshHost).contains '@' ||
    (Text.chars sshHost).contains '/') (key ++ " contains unsafe characters")

/-- The hosts and users: of the users, nothing is asked. -/
def validateAccess (values : EnvValues) : Except Exn (RoleAccess × RoleAccess) := do
  let headHost ← address values "HEAD_HOST"
  let workerHost ← address values "WORKER_HOST"
  reject (headHost == workerHost) "HEAD_HOST and WORKER_HOST must differ"
  let user := values.value "SSH_USER"
  let head : RoleAccess := ⟨headHost, orText (values.value "HEAD_SSH_HOST") headHost,
    orText (values.value "HEAD_SSH_USER") user⟩
  let worker : RoleAccess := ⟨workerHost, orText (values.value "WORKER_SSH_HOST") workerHost,
    orText (values.value "WORKER_SSH_USER") user⟩
  validateSshHost "HEAD_SSH_HOST" head.sshHost
  validateSshHost "WORKER_SSH_HOST" worker.sshHost
  return (head, worker)

/-- The files and directories of a deployment. -/
structure DeploymentPaths where
  knownHosts : String
  identity : String
  remoteRoot : String
  modelRoot : String
  stateRoot : String
  cacheRoot : String
  resultRoot : String
  logRoot : String

/-- `roots` of `validate`, in its order. -/
def DeploymentPaths.roots (paths : DeploymentPaths) : List String :=
  [paths.remoteRoot, paths.cacheRoot, paths.stateRoot, paths.resultRoot, paths.logRoot]

/-- A file that may be left out. -/
def optionalFile (repository : PosixPath) (values : EnvValues) (key : String) :
    Except Exn String :=
  if values.value key = "" then .ok "" else externalFile repository values key

/-- `"candidate" in root.lower()`. -/
def isCandidateRoot (root : String) : Bool :=
  Text.contains (Text.lower root) "candidate"

/-- The files, the roots and what a mode asks of them. -/
def validatePaths (repository : PosixPath) (values : EnvValues) (mode : Mode) :
    Except Exn DeploymentPaths := do
  reject (values.value "SSH_KNOWN_HOSTS_FILE" == "") "SSH_KNOWN_HOSTS_FILE is required"
  let knownHosts ← externalFile repository values "SSH_KNOWN_HOSTS_FILE"
  let identity ← optionalFile repository values "SSH_IDENTITY_FILE"
  let remoteRoot ← externalFile repository values "REMOTE_ROOT"
  let modelRoot ← externalFile repository values "MODEL_ROOT"
  let stateRoot ← externalFile repository values "STATE_ROOT"
  let cacheRoot ← externalFile repository values "CACHE_ROOT"
  let resultRoot ← externalFile repository values "RESULT_ROOT"
  let logRoot ← optionalFile repository values "LOG_ROOT"
  let _ ← nonempty values "MODEL_MANIFEST_SHA256"
  let paths : DeploymentPaths :=
    ⟨knownHosts, identity, remoteRoot, modelRoot, stateRoot, cacheRoot, resultRoot, logRoot⟩
  reject (mode != .generic && logRoot == "") (mode.text ++ " requires LOG_ROOT")
  reject (mode != .generic && !decide paths.roots.Nodup)
    (mode.text ++ " remote/cache/state/result/log roots must be distinct")
  reject (mode == .candidate && !paths.roots.all isCandidateRoot)
    "candidate roots must be candidate-namespaced"
  return paths

/-- What is served: the digest of the model and the images. -/
structure Artifacts where
  modelManifest : String
  imageRef : String
  headImageRef : String
  workerImageRef : String
  modelContainerPath : String

/-- `DEFAULT_MODEL_CONTAINER_PATH`. -/
def defaultModelContainerPath : String := "/models/DeepSeek-V4-Flash-0731"

/-- The model and the images. -/
def validateArtifacts (values : EnvValues) (mode : Mode) : Except Exn Artifacts := do
  let manifest := values.value "MODEL_MANIFEST_SHA256"
  reject (!isSha256Digest manifest) "MODEL_MANIFEST_SHA256 must be 64 lowercase hex characters"
  let imageRef ← nonempty values "IMAGE_REF"
  reject (!isImageDigest imageRef) "IMAGE_REF must be an immutable sha256 digest"
  let head := orText (values.value "HEAD_IMAGE_REF") imageRef
  let worker := orText (values.value "WORKER_IMAGE_REF") imageRef
  reject (!isImageDigest head) "HEAD_IMAGE_REF must be an immutable sha256 digest"
  reject (!isImageDigest worker) "WORKER_IMAGE_REF must be an immutable sha256 digest"
  reject (mode != .generic && head == worker)
    (mode.text ++ " HEAD_IMAGE_REF and WORKER_IMAGE_REF must differ")
  let path := orText (values.value "MODEL_CONTAINER_PATH") defaultModelContainerPath
  reject (path != defaultModelContainerPath)
    "MODEL_CONTAINER_PATH is fixed by the reviewed model contract"
  return ⟨manifest, imageRef, head, worker, path⟩

/-- The addresses and ports of the service. -/
structure Endpoints where
  masterAddr : String
  headNodeAddr : String
  workerNodeAddr : String
  masterPort : Nat
  apiPort : Nat
  forwardPort : Nat
  apiBind : String
  allowPublicApi : Bool

/-- The addresses, the ports and where the API is bound. -/
def validateEndpoints (decimals : Decimals) (values : EnvValues) (mode : Mode) :
    Except Exn Endpoints := do
  let masterAddr ← address values "MASTER_ADDR"
  let headNodeAddr ← address values "HEAD_NODE_ADDR"
  let workerNodeAddr ← address values "WORKER_NODE_ADDR"
  reject (masterAddr != headNodeAddr) "MASTER_ADDR must equal HEAD_NODE_ADDR"
  reject (headNodeAddr == workerNodeAddr) "HEAD_NODE_ADDR and WORKER_NODE_ADDR must differ"
  let masterPort ← port decimals values "MASTER_PORT"
  let apiPort ← port decimals values "API_PORT"
  let forwardPort ← port decimals values "FORWARD_LOCAL_PORT"
  reject (masterPort == apiPort) "MASTER_PORT and API_PORT must differ"
  reject (forwardPort == apiPort) "FORWARD_LOCAL_PORT and API_PORT must differ"
  reject (mode != .generic && (forwardPort == masterPort || forwardPort == apiPort))
    (mode.text ++ " FORWARD_LOCAL_PORT must not overlap service ports")
  let apiBind ← nonempty values "API_BIND_ADDR"
  let allowPublicApi ← switch values "ALLOW_PUBLIC_API"
  let publicBind := mode == .production && apiBind == "0.0.0.0"
  reject (publicBind && !allowPublicApi)
    "production 0.0.0.0 binding requires ALLOW_PUBLIC_API=1"
  reject (!publicBind && !(apiBind == "127.0.0.1" || apiBind == "::1"))
    ("API_BIND_ADDR must remain loopback unless the reviewed production public-bind gate is " ++
      "enabled")
  return ⟨masterAddr, headNodeAddr, workerNodeAddr, masterPort, apiPort, forwardPort, apiBind,
    allowPublicApi⟩

/-- The devices of a role. -/
structure RoleDevices where
  netIface : String
  hca : String
  cudaVisibleDevices : String

/-- The devices of both roles, the common GID index and the MTU. -/
structure Devices where
  head : RoleDevices
  worker : RoleDevices
  gidIndex : Option Int
  mtu : Nat

/-- `ROCE_GID_INDEX`. -/
def validateGid (decimals : Decimals) (values : EnvValues) : Except Exn (Option Int) :=
  let gid := values.value "ROCE_GID_INDEX"
  if gid = "" ∨ gid = "auto" then .ok none
  else do
    let index ← boundedInt decimals gid 0 255 "ROCE_GID_INDEX must be between 0 and 255 or auto"
    return some index

/-- The devices, the common GID index and the MTU. -/
def validateDevices (decimals : Decimals) (values : EnvValues) : Except Exn Devices := do
  let headIface ← safeList values "HEAD_NET_IFACE"
  let workerIface ← safeList values "WORKER_NET_IFACE"
  let headHca ← safeList values "HEAD_HCA"
  let workerHca ← safeList values "WORKER_HCA"
  let headDevices ← safeList values "HEAD_CUDA_VISIBLE_DEVICES"
  let workerDevices ← safeList values "WORKER_CUDA_VISIBLE_DEVICES"
  let gidIndex ← validateGid decimals values
  let raw ← nonempty values "ROCE_MTU"
  let mtu ← boundedInt decimals raw 576 65535 "ROCE_MTU is outside the valid range"
  return ⟨⟨headIface, headHca, headDevices⟩, ⟨workerIface, workerHca, workerDevices⟩, gidIndex,
    mtu⟩

/-- `int(raw) if raw else gid_index`. -/
def roleGid (decimals : Decimals) (raw : String) (gidIndex : Option Int) :
    Except Exn (Option Int) :=
  if raw = "" then .ok gidIndex
  else if 4300 < ((Text.chars raw).filter fun c => (decimals.digit c).isSome).length then
    .error ⟨.value, "Exceeds the limit (4300 digits) for integer string conversion"⟩
  else
    match Json.intOfText (decimals.asciiText raw) with
    | some index => .ok (some index)
    | none => .error ⟨.value, "invalid literal for int() with base 10: " ++ Json.reprStr raw⟩

/-- The settings of one role. -/
def roleSettings (access : RoleAccess) (nodeAddr : String) (devices : RoleDevices)
    (imageRef : String) (fabric : RoleFabric) (gidIndex : Option Int) : RoleSettings where
  host := access.host
  sshHost := access.sshHost
  sshUser := access.sshUser
  nodeAddr := nodeAddr
  netIface := devices.netIface
  hca := devices.hca
  cudaVisibleDevices := devices.cudaVisibleDevices
  imageRef := imageRef
  fabricCidr := orNone fabric.cidr
  fabricPeer := orNone fabric.peer
  fabricConnection := orNone fabric.connection
  roceGidIndex := gidIndex

/-- **`validate`.** -/
def validate (decimals : Decimals) (repository : PosixPath) (values : EnvValues)
    (profile : Profile) : Except Exn Config := do
  validateKeys values
  let mode ← validateMode values
  let overrides ← validateOverrides decimals values profile mode
  let fabricProfile ← validateFabricProfile values
  validateFabric decimals values mode fabricProfile
  validateIsolation values mode
  let access ← validateAccess values
  let paths ← validatePaths repository values mode
  let artifacts ← validateArtifacts values mode
  let endpoints ← validateEndpoints decimals values mode
  let devices ← validateDevices decimals values
  reject (profile.profileId == "") "profile profile_id is required"
  let head := rawFabric values "HEAD"
  let worker := rawFabric values "WORKER"
  let headGid ← roleGid decimals head.rawGid devices.gidIndex
  let workerGid ← roleGid decimals worker.rawGid devices.gidIndex
  let sshPort ← port decimals values "SSH_PORT"
  let imageLockFile ← lockFile repository values
  return ⟨profile, {
    mode := mode
    fabricProfile := fabricProfile
    head := roleSettings access.1 endpoints.headNodeAddr devices.head artifacts.headImageRef head
      headGid
    worker := roleSettings access.2 endpoints.workerNodeAddr devices.worker
      artifacts.workerImageRef worker workerGid
    sshUser := orNone (values.value "SSH_USER")
    sshPort := sshPort
    sshKnownHostsFile := paths.knownHosts
    sshIdentityFile := orNone paths.identity
    remoteRoot := paths.remoteRoot
    modelRoot := paths.modelRoot
    modelContainerPath := artifacts.modelContainerPath
    modelManifestSha256 := artifacts.modelManifest
    stateRoot := paths.stateRoot
    cacheRoot := paths.cacheRoot
    logRoot := orNone paths.logRoot
    resultRoot := paths.resultRoot
    registry := orNone (values.value "REGISTRY")
    imageRef := artifacts.imageRef
    imageLockFile := imageLockFile
    runtimeMaxNumSeqs := overrides.runtimeMaxNumSeqs
    runtimeMaxNumBatchedTokens := overrides.runtimeMaxNumBatchedTokens
    allowProductionImagesInCandidate := overrides.allowProductionImages
    productionChangeAllowed := overrides.productionChangeAllowed
    masterAddr := endpoints.masterAddr
    masterPort := endpoints.masterPort
    apiPort := endpoints.apiPort
    roceGidIndex := devices.gidIndex
    roceMtu := devices.mtu
    apiBindAddr := endpoints.apiBind
    allowPublicApi := endpoints.allowPublicApi
    forwardLocalPort := endpoints.forwardPort }⟩

/-! ### What a piece that returned has checked -/

theorem reject_ok {condition : Bool} {message : String} {u : Unit} :
    reject condition message = .ok u ↔ condition = false :=
  failWith_eq_ok

theorem nonempty_ok {values : EnvValues} {key value : String}
    (h : nonempty values key = .ok value) : value = values.value key ∧ value ≠ "" := by
  obtain ⟨_, hne, h⟩ := except_bind_eq_ok.1 h
  rw [reject_ok, beq_eq_false_iff_ne] at hne
  obtain rfl := Except.ok.inj h
  exact ⟨rfl, hne⟩

theorem Decimals.int_ok {decimals : Decimals} {raw : String} {n : Nat}
    (h : decimals.int raw = .ok n) : n = Text.toNat (decimals.asciiText raw) := by
  obtain ⟨_, -, h⟩ := except_bind_eq_ok.1 h
  exact (Except.ok.inj h).symm

theorem boundedInt_ok {decimals : Decimals} {raw message : String} {low high n : Nat}
    (h : boundedInt decimals raw low high message = .ok n) : low ≤ n ∧ n ≤ high := by
  obtain ⟨_, -, h⟩ := except_bind_eq_ok.1 h
  obtain ⟨value, -, h⟩ := except_bind_eq_ok.1 h
  obtain ⟨_, hrange, h⟩ := except_bind_eq_ok.1 h
  obtain rfl := Except.ok.inj h
  simpa [reject_ok] using hrange

theorem port_ok {decimals : Decimals} {values : EnvValues} {key : String} {n : Nat}
    (h : port decimals values key = .ok n) :
    n = Text.toNat (decimals.asciiText (values.value key)) ∧ 1 ≤ n ∧ n ≤ 65535 := by
  obtain ⟨raw, hraw, h⟩ := except_bind_eq_ok.1 h
  obtain ⟨_, -, h⟩ := except_bind_eq_ok.1 h
  obtain ⟨value, hvalue, h⟩ := except_bind_eq_ok.1 h
  obtain ⟨_, hrange, h⟩ := except_bind_eq_ok.1 h
  obtain rfl := Except.ok.inj h
  obtain ⟨rfl, -⟩ := nonempty_ok hraw
  exact ⟨Decimals.int_ok hvalue, by simpa [reject_ok] using hrange⟩

/-- ASCII digits are read as they are. -/
theorem Decimals.asciiText_eq (decimals : Decimals) {s : String}
    (h : ∀ c ∈ s.toList, Text.isDecimal c = true) : decimals.asciiText s = s := by
  rw [Decimals.asciiText, Text.chars_eq]
  have hmap : s.toList.map (fun c => match decimals.digit c with
      | some d => Nat.digitChar d
      | none => c) = s.toList := by
    refine List.map_congr_left (g := id) (fun c hc => ?_) |>.trans (List.map_id _)
    have hd := h c hc
    rw [decimals.ascii c hd]
    simp only [Text.isDecimal, Bool.and_eq_true, decide_eq_true_eq, Char.le_def,
      UInt32.le_iff_toNat_le] at hd
    have hrange : 48 ≤ c.toNat ∧ c.toNat ≤ 57 := hd
    refine Char.toNat_inj.1 ?_
    change (Nat.digitChar (c.toNat - 48)).toNat = c.toNat
    rw [Nat.toNat_digitChar_of_lt_ten (by omega)]
    omega
  rw [hmap, String.ofList_toList]

/-- A port that is written as a number of ASCII digits is that number. -/
theorem port_eq {decimals : Decimals} {values : EnvValues} {key text : String} {n : Nat}
    (h : port decimals values key = .ok n) (htext : values.value key = text)
    (hdigits : ∀ c ∈ text.toList, Text.isDecimal c = true) : n = Text.toNat text := by
  rw [(port_ok h).1, htext, decimals.asciiText_eq hdigits]

theorem address_ok {values : EnvValues} {key value : String}
    (h : address values key = .ok value) : value = values.value key ∧ isSafeHost value = true := by
  obtain ⟨raw, hraw, h⟩ := except_bind_eq_ok.1 h
  obtain ⟨_, hsafe, h⟩ := except_bind_eq_ok.1 h
  obtain ⟨_, -, h⟩ := except_bind_eq_ok.1 h
  obtain ⟨_, -, h⟩ := except_bind_eq_ok.1 h
  obtain rfl := Except.ok.inj h
  exact ⟨(nonempty_ok hraw).1, by simpa [reject_ok] using hsafe⟩

theorem safeList_ok {values : EnvValues} {key value : String}
    (h : safeList values key = .ok value) : value = values.value key := by
  obtain ⟨raw, hraw, h⟩ := except_bind_eq_ok.1 h
  obtain ⟨_, -, h⟩ := except_bind_eq_ok.1 h
  obtain rfl := Except.ok.inj h
  exact (nonempty_ok hraw).1

/-- The addresses and ports of a mode that has fixed ones. -/
theorem validateIsolation_ok {values : EnvValues} {mode : Mode} {u : Unit}
    (hmode : mode ≠ .generic) (h : validateIsolation values mode = .ok u) :
    values.value "HEAD_NODE_ADDR" = "192.168.100.10" ∧
      values.value "WORKER_NODE_ADDR" = "192.168.100.11" ∧
      values.value "MASTER_PORT" = toString (expectedPorts mode).1 ∧
      values.value "API_PORT" = toString (expectedPorts mode).2 := by
  rw [validateIsolation, if_neg hmode] at h
  obtain ⟨_, -, h⟩ := except_bind_eq_ok.1 h
  obtain ⟨_, hhead, h⟩ := except_bind_eq_ok.1 h
  obtain ⟨_, hworker, h⟩ := except_bind_eq_ok.1 h
  obtain ⟨_, hmaster, h⟩ := except_bind_eq_ok.1 h
  obtain ⟨_, hapi, -⟩ := except_bind_eq_ok.1 h
  rw [reject_ok, bne_eq_false_iff_eq] at hhead hworker hmaster hapi
  exact ⟨hhead, hworker, hmaster, hapi⟩

theorem validateEndpoints_ok {decimals : Decimals} {values : EnvValues} {mode : Mode}
    {endpoints : Endpoints} (h : validateEndpoints decimals values mode = .ok endpoints) :
    endpoints.headNodeAddr = values.value "HEAD_NODE_ADDR" ∧
      endpoints.workerNodeAddr = values.value "WORKER_NODE_ADDR" ∧
      port decimals values "MASTER_PORT" = .ok endpoints.masterPort ∧
      port decimals values "API_PORT" = .ok endpoints.apiPort := by
  obtain ⟨masterAddr, -, h⟩ := except_bind_eq_ok.1 h
  obtain ⟨headAddr, hhead, h⟩ := except_bind_eq_ok.1 h
  obtain ⟨workerAddr, hworker, h⟩ := except_bind_eq_ok.1 h
  obtain ⟨_, -, h⟩ := except_bind_eq_ok.1 h
  obtain ⟨_, -, h⟩ := except_bind_eq_ok.1 h
  obtain ⟨masterPort, hmaster, h⟩ := except_bind_eq_ok.1 h
  obtain ⟨apiPort, hapi, h⟩ := except_bind_eq_ok.1 h
  obtain ⟨forwardPort, -, h⟩ := except_bind_eq_ok.1 h
  obtain ⟨_, -, h⟩ := except_bind_eq_ok.1 h
  obtain ⟨_, -, h⟩ := except_bind_eq_ok.1 h
  obtain ⟨_, -, h⟩ := except_bind_eq_ok.1 h
  obtain ⟨apiBind, -, h⟩ := except_bind_eq_ok.1 h
  obtain ⟨allow, -, h⟩ := except_bind_eq_ok.1 h
  obtain ⟨_, -, h⟩ := except_bind_eq_ok.1 h
  obtain ⟨_, -, h⟩ := except_bind_eq_ok.1 h
  obtain rfl := Except.ok.inj h
  exact ⟨(address_ok hhead).1, (address_ok hworker).1, hmaster, hapi⟩

/-- The ports of a mode are its own. -/
theorem ports_of_mode {decimals : Decimals} {values : EnvValues} {mode : Mode}
    {endpoints : Endpoints} {u : Unit} (hmode : mode ≠ .generic)
    (hfixed : validateIsolation values mode = .ok u)
    (h : validateEndpoints decimals values mode = .ok endpoints) :
    endpoints.masterPort = (expectedPorts mode).1 ∧ endpoints.apiPort = (expectedPorts mode).2 := by
  obtain ⟨-, -, hmaster, hapi⟩ := validateIsolation_ok hmode hfixed
  obtain ⟨-, -, hmaster', hapi'⟩ := validateEndpoints_ok h
  cases mode with
  | generic => exact absurd rfl hmode
  | production =>
    exact ⟨port_eq hmaster' hmaster (List.all_eq_true.1 (by decide)),
      port_eq hapi' hapi (List.all_eq_true.1 (by decide))⟩
  | candidate =>
    exact ⟨port_eq hmaster' hmaster (List.all_eq_true.1 (by decide)),
      port_eq hapi' hapi (List.all_eq_true.1 (by decide))⟩

/-! ### Paths -/

theorem rstripWhile_eq_dropRight {α : Type} (p : α → Bool) (cs : List α) :
    ∃ tail, cs = (cs.reverse.dropWhile p).reverse ++ tail ∧ ∀ c ∈ tail, p c = true := by
  refine ⟨(cs.reverse.takeWhile p).reverse, ?_, fun c hc => ?_⟩
  · rw [← List.reverse_append, List.takeWhile_append_dropWhile, List.reverse_reverse]
  · exact List.mem_takeWhile_imp (List.mem_reverse.1 hc)

/-- What is left of an absolute path without traversal when its last slashes are gone. -/
theorem absolute_rstrip {value : String} (hroot : (PosixPath.parse value).root ≠ "")
    (hparts : (PosixPath.parse value).parts.contains ".." = false)
    (hne : Text.rstripChar '/' value ≠ "") :
    isAbsoluteTraversalFree (Text.rstripChar '/' value) = true := by
  obtain ⟨tail, hvalue, htail⟩ := rstripWhile_eq_dropRight (· == '/') value.toList
  have hstripped : (Text.rstripChar '/' value).toList =
      (value.toList.reverse.dropWhile (· == '/')).reverse := by
    rw [Text.rstripChar, Text.rstripWhile, Text.chars_eq, String.toList_ofList]
  rw [← hstripped] at hvalue
  have hne' : (Text.rstripChar '/' value).toList ≠ [] := by
    intro h
    exact hne (String.toList_inj.1 h)
  obtain ⟨c, cs, hcs⟩ := List.exists_cons_of_ne_nil hne'
  rw [isAbsoluteTraversalFree, Bool.and_eq_true, Text.chars_eq, Text.splitOn, Text.chars_eq]
  constructor
  · -- the first character stays
    rw [PosixPath.parse, Text.chars_eq, hvalue, hcs, List.cons_append] at hroot
    rw [hcs, List.head?_cons, beq_iff_eq]
    by_contra hc
    refine hroot ?_
    have hc' : c ≠ '/' := fun h => hc (congrArg some h)
    simp [PosixPath.rootOf, hc']
  · -- every component was one before
    rw [Bool.not_eq_true', ← Bool.not_eq_true, List.contains_iff_mem]
    intro hmem
    refine absurd hparts ?_
    rw [Bool.not_eq_false, List.contains_iff_mem, PosixPath.parse, Text.splitOn, Text.chars_eq,
      List.mem_filter]
    refine ⟨?_, by decide⟩
    obtain ⟨part, hpart, hdots⟩ := List.mem_map.1 hmem
    refine List.mem_map.2 ⟨part, ?_, hdots⟩
    rw [hvalue]
    cases tail with
    | nil => simpa using hpart
    | cons d tail =>
      obtain rfl : d = '/' := by simpa using htail d (by simp)
      rw [List.splitOn_append_cons_self]
      exact List.mem_append_left _ hpart

/-- The result of `externalFile` is absolute and has no traversal. -/
theorem externalFile_ok {repository : PosixPath} {values : EnvValues} {key path : String}
    (h : externalFile repository values key = .ok path) :
    path ≠ "" ∧ isAbsoluteTraversalFree path = true := by
  obtain ⟨value, hvalue, h⟩ := except_bind_eq_ok.1 h
  obtain ⟨_, -, h⟩ := except_bind_eq_ok.1 h
  obtain rfl := Except.ok.inj h
  obtain ⟨raw, hraw, h⟩ := except_bind_eq_ok.1 hvalue
  obtain ⟨_, hroot, h⟩ := except_bind_eq_ok.1 h
  obtain ⟨_, -, h⟩ := except_bind_eq_ok.1 h
  obtain ⟨_, hparts, h⟩ := except_bind_eq_ok.1 h
  obtain ⟨_, -, h⟩ := except_bind_eq_ok.1 h
  obtain rfl := Except.ok.inj h
  rw [reject_ok, beq_eq_false_iff_ne] at hroot
  rw [reject_ok] at hparts
  split_ifs with hstripped
  · exact ⟨by decide, by decide⟩
  · exact ⟨hstripped, absolute_rstrip hroot hparts hstripped⟩

theorem optionalFile_ok {repository : PosixPath} {values : EnvValues} {key path : String}
    (h : optionalFile repository values key = .ok path) :
    path = "" ∨ isAbsoluteTraversalFree path = true := by
  rw [optionalFile] at h
  split_ifs at h with hempty
  · exact .inl (Except.ok.inj h).symm
  · exact .inr (externalFile_ok h).2

/-- What validation promises about the paths. -/
structure ValidPaths (paths : DeploymentPaths) (mode : Mode) : Prop where
  knownHosts : isAbsoluteTraversalFree paths.knownHosts = true
  identity : paths.identity = "" ∨ isAbsoluteTraversalFree paths.identity = true
  logRoot : mode ≠ .generic → paths.logRoot ≠ ""
  candidate : mode = .candidate → ∀ root ∈ paths.roots, isCandidateRoot root = true

theorem validatePaths_ok {repository : PosixPath} {values : EnvValues} {mode : Mode}
    {paths : DeploymentPaths} (h : validatePaths repository values mode = .ok paths) :
    ValidPaths paths mode := by
  obtain ⟨_, -, h⟩ := except_bind_eq_ok.1 h
  obtain ⟨knownHosts, hknown, h⟩ := except_bind_eq_ok.1 h
  obtain ⟨identity, hidentity, h⟩ := except_bind_eq_ok.1 h
  obtain ⟨remoteRoot, -, h⟩ := except_bind_eq_ok.1 h
  obtain ⟨modelRoot, -, h⟩ := except_bind_eq_ok.1 h
  obtain ⟨stateRoot, -, h⟩ := except_bind_eq_ok.1 h
  obtain ⟨cacheRoot, -, h⟩ := except_bind_eq_ok.1 h
  obtain ⟨resultRoot, -, h⟩ := except_bind_eq_ok.1 h
  obtain ⟨logRoot, -, h⟩ := except_bind_eq_ok.1 h
  obtain ⟨_, -, h⟩ := except_bind_eq_ok.1 h
  obtain ⟨_, hlog, h⟩ := except_bind_eq_ok.1 h
  obtain ⟨_, -, h⟩ := except_bind_eq_ok.1 h
  obtain ⟨_, hcandidate, h⟩ := except_bind_eq_ok.1 h
  obtain rfl := Except.ok.inj h
  refine ⟨(externalFile_ok hknown).2, optionalFile_ok hidentity, fun hmode hempty => ?_,
    fun hmode => ?_⟩
  · simp [reject_ok, hmode, show logRoot = "" from hempty] at hlog
  · rw [reject_ok, hmode] at hcandidate
    simpa [List.all_eq_true] using hcandidate

/-! ### What a validated configuration promises -/

/-- The roots of a deployment that has them all. -/
def Deployment.roots (d : Deployment) : List String :=
  [d.remoteRoot, d.cacheRoot, d.stateRoot, d.resultRoot] ++ d.logRoot.toList

/-- **What a validated configuration promises**, in a mode with fixed ports. -/
structure ValidDeployment (d : Deployment) : Prop where
  masterPort : d.masterPort = (expectedPorts d.mode).1
  apiPort : d.apiPort = (expectedPorts d.mode).2
  candidateRoots : d.mode = .candidate → ∀ root ∈ d.roots, isCandidateRoot root = true
  sshPort : 1 ≤ d.sshPort ∧ d.sshPort ≤ 65535
  knownHosts : isAbsoluteTraversalFree d.sshKnownHostsFile = true
  identity : ∀ path, d.sshIdentityFile = some path → isAbsoluteTraversalFree path = true
  sshHost : ∀ role, (d.settings role).sshHost ≠ "" ∧ isSafeHost (d.settings role).sshHost = true
  modelContainerPath : d.modelContainerPath = defaultModelContainerPath

theorem validateAccess_ok {values : EnvValues} {access : RoleAccess × RoleAccess}
    (h : validateAccess values = .ok access) :
    isSafeHost access.1.sshHost = true ∧ isSafeHost access.2.sshHost = true := by
  obtain ⟨headHost, -, h⟩ := except_bind_eq_ok.1 h
  obtain ⟨workerHost, -, h⟩ := except_bind_eq_ok.1 h
  obtain ⟨_, -, h⟩ := except_bind_eq_ok.1 h
  obtain ⟨_, hhead, h⟩ := except_bind_eq_ok.1 h
  obtain ⟨_, hworker, h⟩ := except_bind_eq_ok.1 h
  obtain rfl := Except.ok.inj h
  rw [validateSshHost, reject_ok, Bool.or_eq_false_iff, Bool.or_eq_false_iff] at hhead hworker
  exact ⟨by simpa using hhead.1.1, by simpa using hworker.1.1⟩

theorem validateArtifacts_ok {values : EnvValues} {mode : Mode} {artifacts : Artifacts}
    (h : validateArtifacts values mode = .ok artifacts) :
    artifacts.modelContainerPath = defaultModelContainerPath := by
  obtain ⟨_, -, h⟩ := except_bind_eq_ok.1 h
  obtain ⟨imageRef, -, h⟩ := except_bind_eq_ok.1 h
  obtain ⟨_, -, h⟩ := except_bind_eq_ok.1 h
  obtain ⟨_, -, h⟩ := except_bind_eq_ok.1 h
  obtain ⟨_, -, h⟩ := except_bind_eq_ok.1 h
  obtain ⟨_, -, h⟩ := except_bind_eq_ok.1 h
  obtain ⟨_, hpath, h⟩ := except_bind_eq_ok.1 h
  obtain rfl := Except.ok.inj h
  rw [reject_ok, bne_eq_false_iff_eq] at hpath
  exact hpath

theorem isSafeHost_ne_empty {s : String} (h : isSafeHost s = true) : s ≠ "" := by
  rintro rfl
  exact absurd h (by decide)

/-- **Validation keeps its promises.** -/
theorem validate_ok {decimals : Decimals} {repository : PosixPath} {values : EnvValues}
    {profile : Profile} {config : Config}
    (h : validate decimals repository values profile = .ok config)
    (hmode : config.deployment.mode ≠ .generic) : ValidDeployment config.deployment := by
  obtain ⟨_, -, h⟩ := except_bind_eq_ok.1 h
  obtain ⟨mode, -, h⟩ := except_bind_eq_ok.1 h
  obtain ⟨overrides, -, h⟩ := except_bind_eq_ok.1 h
  obtain ⟨fabricProfile, -, h⟩ := except_bind_eq_ok.1 h
  obtain ⟨_, hfabric, h⟩ := except_bind_eq_ok.1 h
  obtain ⟨_, hisolation, h⟩ := except_bind_eq_ok.1 h
  obtain ⟨access, haccess, h⟩ := except_bind_eq_ok.1 h
  obtain ⟨paths, hpaths, h⟩ := except_bind_eq_ok.1 h
  obtain ⟨artifacts, hartifacts, h⟩ := except_bind_eq_ok.1 h
  obtain ⟨endpoints, hendpoints, h⟩ := except_bind_eq_ok.1 h
  obtain ⟨devices, hdevices, h⟩ := except_bind_eq_ok.1 h
  obtain ⟨_, -, h⟩ := except_bind_eq_ok.1 h
  obtain ⟨headGid, -, h⟩ := except_bind_eq_ok.1 h
  obtain ⟨workerGid, -, h⟩ := except_bind_eq_ok.1 h
  obtain ⟨sshPort, hsshPort, h⟩ := except_bind_eq_ok.1 h
  obtain ⟨imageLockFile, -, h⟩ := except_bind_eq_ok.1 h
  obtain rfl := Except.ok.inj h
  have hports := ports_of_mode hmode hisolation hendpoints
  have hvalid := validatePaths_ok hpaths
  have hhosts := validateAccess_ok haccess
  refine ⟨hports.1, hports.2, fun hcandidate root hroot => ?_, (port_ok hsshPort).2,
    hvalid.knownHosts, fun path hpath => ?_, fun role => ?_, validateArtifacts_ok hartifacts⟩
  · refine hvalid.candidate hcandidate root ?_
    simpa [Deployment.roots, DeploymentPaths.roots, orNone, hvalid.logRoot hmode] using hroot
  · rcases hvalid.identity with hidentity | hidentity
    · simp [orNone, hidentity] at hpath
    · simp only [orNone] at hpath
      split_ifs at hpath
      rwa [← Option.some.inj hpath]
  · cases role with
    | worker => exact ⟨isSafeHost_ne_empty hhosts.2, hhosts.2⟩
    | head => exact ⟨isSafeHost_ne_empty hhosts.1, hhosts.1⟩

/-! ### The fabric of a validated configuration -/

theorem digitsOf_eq_some {cs : List Char} (hne : cs ≠ [])
    (h : ∀ c ∈ cs, Text.isDecimal c = true) : Json.digitsOf cs = some cs := by
  induction cs with
  | nil => exact absurd rfl hne
  | cons c cs ih =>
    obtain ⟨hc, hcs⟩ := List.forall_mem_cons.1 h
    cases cs with
    | nil => simp [Json.digitsOf, hc]
    | cons d ds =>
      have hd : d ≠ '_' := by
        rintro rfl
        exact absurd (hcs '_' (by simp)) (by decide)
      rw [Json.digitsOf]
      · rw [if_pos hc, ih (by simp) hcs]
        rfl
      · simp
      · simp [hd]

/-- A decimal digit is no white space and no sign. -/
theorem isDecimal_class {c : Char} (h : Text.isDecimal c = true) :
    Text.isSpace c = false ∧ c ≠ '-' ∧ c ≠ '+' := by
  simp only [Text.isDecimal, Bool.and_eq_true, decide_eq_true_eq, Char.le_def,
    UInt32.le_iff_toNat_le] at h
  have hrange : 48 ≤ c.toNat ∧ c.toNat ≤ 57 := h
  refine ⟨?_, ?_, ?_⟩
  · simp only [Text.isSpace]
    generalize c.toNat = n at hrange
    obtain ⟨h₁, h₂⟩ := hrange
    interval_cases n <;> decide
  · rintro rfl
    exact absurd hrange (by decide)
  · rintro rfl
    exact absurd hrange (by decide)

/-- `int` of decimal digits is their number. -/
theorem intOfText_digits {s : String} (hne : s.toList ≠ [])
    (h : ∀ c ∈ s.toList, Text.isDecimal c = true) :
    Json.intOfText s = some (Text.toNat s : Int) := by
  have hdigit : ∀ c ∈ s.toList, Json.isIntSpace c = false := fun c hc => by
    rw [Json.isIntSpace, (isDecimal_class (h c hc)).1, Bool.false_and]
  have hstrip : Text.rstripWhile Json.isIntSpace (s.toList.dropWhile Json.isIntSpace) =
      s.toList := by
    have hfront : s.toList.dropWhile Json.isIntSpace = s.toList := by
      rw [List.dropWhile_eq_self_iff]
      intro hlen
      simpa using hdigit _ (List.getElem_mem hlen)
    have hback : s.toList.reverse.dropWhile Json.isIntSpace = s.toList.reverse := by
      rw [List.dropWhile_eq_self_iff]
      intro hlen
      simpa using hdigit _ (List.mem_reverse.1 (List.getElem_mem hlen))
    rw [hfront, Text.rstripWhile, hback, List.reverse_reverse]
  obtain ⟨c, cs, hcs⟩ := List.exists_cons_of_ne_nil hne
  obtain ⟨-, hminus, hplus⟩ := isDecimal_class (h c (by simp [hcs]))
  rw [Json.intOfText, Text.chars_eq, hstrip, hcs]
  rw [hcs] at h
  rw [Text.toNat, Text.chars_eq, hcs]
  dsimp only
  split
  case h_1 heq => exact absurd (List.cons.inj heq).1 hminus
  case h_2 heq => exact absurd (List.cons.inj heq).1 hplus
  case h_3 =>
    rw [digitsOf_eq_some (by simp) h]
    rfl

theorem Decimals.isDecimal_asciiText {decimals : Decimals} {raw : String}
    (h : decimals.isDecimal raw = true) : (decimals.asciiText raw).toList ≠ [] ∧
      ∀ c ∈ (decimals.asciiText raw).toList, Text.isDecimal c = true := by
  rw [Decimals.isDecimal, Bool.and_eq_true, Text.chars_eq, List.all_eq_true] at h
  rw [Decimals.asciiText, String.toList_ofList, Text.chars_eq]
  refine ⟨by simpa using h.1, fun c hc => ?_⟩
  obtain ⟨d, hd, rfl⟩ := List.mem_map.1 hc
  obtain ⟨n, hn⟩ := Option.isSome_iff_exists.1 (h.2 d hd)
  rw [hn]
  have hlt := decimals.lt d n hn
  change Text.isDecimal (Nat.digitChar n) = true
  interval_cases n <;> decide

/-- An index that is not there or in the range. -/
def GidInRange (index : Option Int) : Prop :=
  ∀ n, index = some n → 0 ≤ n ∧ n ≤ 255

/-- A GID index of a role that is checked can be read, and is in the range. -/
theorem roleGid_of_checked {decimals : Decimals} {key raw : String} {gidIndex : Option Int}
    (hraw : validateRoleGid decimals key raw = .ok ()) (hdefault : GidInRange gidIndex) :
    ∃ index, roleGid decimals raw gidIndex = .ok index ∧ GidInRange index := by
  rw [roleGid]
  rw [validateRoleGid] at hraw
  split_ifs at hraw ⊢ with hempty hlong
  · exact ⟨gidIndex, rfl, hdefault⟩
  · obtain ⟨value, hvalue, -⟩ := except_bind_eq_ok.1 hraw
    obtain ⟨_, -, hvalue⟩ := except_bind_eq_ok.1 hvalue
    obtain ⟨_, hint, -⟩ := except_bind_eq_ok.1 hvalue
    obtain ⟨_, hshort, -⟩ := except_bind_eq_ok.1 hint
    rw [failWith_eq_ok, decide_eq_false_iff_not] at hshort
    exact absurd (Nat.lt_of_lt_of_le hlong (List.length_filter_le _ _)) hshort
  · obtain ⟨value, hvalue, -⟩ := except_bind_eq_ok.1 hraw
    have hle := (boundedInt_ok hvalue).2
    obtain ⟨_, hdecimal, hvalue⟩ := except_bind_eq_ok.1 hvalue
    obtain ⟨value', hint, hvalue⟩ := except_bind_eq_ok.1 hvalue
    obtain ⟨_, -, hvalue⟩ := except_bind_eq_ok.1 hvalue
    obtain rfl := Except.ok.inj hvalue
    rw [reject_ok, Bool.not_eq_false'] at hdecimal
    obtain ⟨hne, hdigits⟩ := Decimals.isDecimal_asciiText hdecimal
    rw [intOfText_digits hne hdigits, ← Decimals.int_ok hint]
    refine ⟨_, rfl, fun n hn => ?_⟩
    obtain rfl := Option.some.inj hn
    omega

theorem validateGid_inRange {decimals : Decimals} {values : EnvValues} {index : Option Int}
    (h : validateGid decimals values = .ok index) : GidInRange index := by
  rw [validateGid] at h
  intro n hn
  split_ifs at h with hunset
  · obtain rfl := Except.ok.inj h
    exact absurd hn (by simp)
  · obtain ⟨value, hvalue, h⟩ := except_bind_eq_ok.1 h
    obtain rfl := Except.ok.inj h
    obtain rfl := Option.some.inj hn
    have hle := (boundedInt_ok hvalue).2
    omega

theorem cidr_ok {values : EnvValues} {key expectedIp raw : String}
    (h : cidr values key expectedIp = .ok raw) : raw = values.value key ∧ raw ≠ "" ∧
      ∃ interface, Ip.parseInterface raw = some interface ∧
        some interface.ip = Ip.parse expectedIp ∧ interface.prefixLength = 24 := by
  obtain ⟨text, htext, h⟩ := except_bind_eq_ok.1 h
  obtain ⟨hkey, hne⟩ := nonempty_ok htext
  cases hparse : Ip.parseInterface text with
  | none =>
    rw [hparse] at h
    exact absurd h (by simp)
  | some interface =>
    rw [hparse] at h
    obtain ⟨_, hip, h⟩ := except_bind_eq_ok.1 h
    obtain ⟨_, hlength, h⟩ := except_bind_eq_ok.1 h
    obtain rfl := Except.ok.inj h
    rw [reject_ok, bne_eq_false_iff_eq] at hip hlength
    exact ⟨hkey, hne, interface, hparse, hip, hlength⟩

/-- The addresses that `f1` is fixed to: a role's own and its peer's. -/
def f1Addresses : Role → String × String
  | .head => ("192.168.100.10", "192.168.100.11")
  | .worker => ("192.168.100.11", "192.168.100.10")

/-- What validation promises about the fabric of a role under `f1`. -/
structure ValidF1 (deployment : Deployment) (role : Role) : Prop where
  netIface : (deployment.settings role).netIface = f1Iface
  hca : (deployment.settings role).hca = f1Hca
  network : ∃ raw interface, (deployment.settings role).fabricCidr = some raw ∧
    Ip.parseInterface raw = some interface ∧
    some interface.ip = Ip.parse (f1Addresses role).1 ∧ interface.prefixLength = 24
  peer : (deployment.settings role).fabricPeer = some (f1Addresses role).2
  connection : ∃ connection, (deployment.settings role).fabricConnection = some connection ∧
    isSafeId connection = true
  gid : GidInRange ((deployment.settings role).roceGidIndex.or deployment.roceGidIndex)

theorem orNone_of_ne {s : String} (h : s ≠ "") : orNone s = some s :=
  if_neg h

theorem isSafeId_ne_empty {s : String} (h : isSafeId s = true) : s ≠ "" := by
  rintro rfl
  exact absurd h (by decide)

theorem GidInRange.or {a b : Option Int} (ha : GidInRange a) (hb : GidInRange b) :
    GidInRange (a.or b) := by
  cases a with
  | none => simpa using hb
  | some m => simpa using ha

/-- **Validation keeps its promises about the fabric.** -/
theorem validate_f1 {decimals : Decimals} {repository : PosixPath} {values : EnvValues}
    {profile : Profile} {config : Config}
    (h : validate decimals repository values profile = .ok config)
    (hf1 : config.deployment.fabricProfile = .f1) (role : Role) :
    ValidF1 config.deployment role := by
  obtain ⟨_, -, h⟩ := except_bind_eq_ok.1 h
  obtain ⟨mode, -, h⟩ := except_bind_eq_ok.1 h
  obtain ⟨overrides, -, h⟩ := except_bind_eq_ok.1 h
  obtain ⟨fabricProfile, -, h⟩ := except_bind_eq_ok.1 h
  obtain ⟨_, hfabric, h⟩ := except_bind_eq_ok.1 h
  obtain ⟨_, -, h⟩ := except_bind_eq_ok.1 h
  obtain ⟨access, -, h⟩ := except_bind_eq_ok.1 h
  obtain ⟨paths, -, h⟩ := except_bind_eq_ok.1 h
  obtain ⟨artifacts, -, h⟩ := except_bind_eq_ok.1 h
  obtain ⟨endpoints, -, h⟩ := except_bind_eq_ok.1 h
  obtain ⟨devices, hdevices, h⟩ := except_bind_eq_ok.1 h
  obtain ⟨_, -, h⟩ := except_bind_eq_ok.1 h
  obtain ⟨headGid, hheadGid, h⟩ := except_bind_eq_ok.1 h
  obtain ⟨workerGid, hworkerGid, h⟩ := except_bind_eq_ok.1 h
  obtain ⟨sshPort, -, h⟩ := except_bind_eq_ok.1 h
  obtain ⟨imageLockFile, -, h⟩ := except_bind_eq_ok.1 h
  obtain rfl := Except.ok.inj h
  obtain rfl : fabricProfile = .f1 := hf1
  -- the devices are the values that `f1` is fixed to
  obtain ⟨headIface, hheadIface, hdevices⟩ := except_bind_eq_ok.1 hdevices
  obtain ⟨workerIface, hworkerIface, hdevices⟩ := except_bind_eq_ok.1 hdevices
  obtain ⟨headHca, hheadHca, hdevices⟩ := except_bind_eq_ok.1 hdevices
  obtain ⟨workerHca, hworkerHca, hdevices⟩ := except_bind_eq_ok.1 hdevices
  obtain ⟨headDevices, -, hdevices⟩ := except_bind_eq_ok.1 hdevices
  obtain ⟨workerDevices, -, hdevices⟩ := except_bind_eq_ok.1 hdevices
  obtain ⟨gidIndex, hgid, hdevices⟩ := except_bind_eq_ok.1 hdevices
  obtain ⟨rawMtu, -, hdevices⟩ := except_bind_eq_ok.1 hdevices
  obtain ⟨mtu, -, hdevices⟩ := except_bind_eq_ok.1 hdevices
  obtain rfl := Except.ok.inj hdevices
  -- the checks of `f1`
  obtain ⟨_, -, hfabric⟩ := except_bind_eq_ok.1 hfabric
  obtain ⟨_, hifaces, hfabric⟩ := except_bind_eq_ok.1 hfabric
  obtain ⟨_, hhcas, hfabric⟩ := except_bind_eq_ok.1 hfabric
  obtain ⟨_, hheadCidr, hfabric⟩ := except_bind_eq_ok.1 hfabric
  obtain ⟨_, hworkerCidr, hfabric⟩ := except_bind_eq_ok.1 hfabric
  obtain ⟨_, hheadPeer, hfabric⟩ := except_bind_eq_ok.1 hfabric
  obtain ⟨_, hworkerPeer, hfabric⟩ := except_bind_eq_ok.1 hfabric
  obtain ⟨_, hheadConn, hfabric⟩ := except_bind_eq_ok.1 hfabric
  obtain ⟨_, hworkerConn, hfabric⟩ := except_bind_eq_ok.1 hfabric
  obtain ⟨_, hheadRaw, hworkerRaw⟩ := except_bind_eq_ok.1 hfabric
  rw [reject_ok, Bool.or_eq_false_iff, bne_eq_false_iff_eq, bne_eq_false_iff_eq] at hifaces hhcas
  rw [reject_ok, bne_eq_false_iff_eq] at hheadPeer hworkerPeer
  rw [reject_ok, Bool.not_eq_false'] at hheadConn hworkerConn
  have hglobal := validateGid_inRange hgid
  cases role with
  | head =>
    obtain ⟨hraw, hne, interface, hparse, hip, hlength⟩ := cidr_ok hheadCidr
    obtain ⟨_, hheadGid', hheadRange⟩ := roleGid_of_checked hheadRaw hglobal
    obtain rfl := Except.ok.inj (hheadGid.symm.trans hheadGid')
    refine ⟨(safeList_ok hheadIface).trans hifaces.1, (safeList_ok hheadHca).trans hhcas.1,
      ⟨_, interface, (orNone_of_ne ?_).trans (congrArg some hraw.symm), hparse, hip, hlength⟩,
      ?_, ⟨_, orNone_of_ne (isSafeId_ne_empty hheadConn), hheadConn⟩,
      hheadRange.or hglobal⟩
    · rw [hraw] at hne
      exact hne
    · change orNone (rawFabric values "HEAD").peer = _
      rw [hheadPeer]
      rfl
  | worker =>
    obtain ⟨hraw, hne, interface, hparse, hip, hlength⟩ := cidr_ok hworkerCidr
    obtain ⟨_, hworkerGid', hworkerRange⟩ := roleGid_of_checked hworkerRaw hglobal
    obtain rfl := Except.ok.inj (hworkerGid.symm.trans hworkerGid')
    refine ⟨(safeList_ok hworkerIface).trans hifaces.2, (safeList_ok hworkerHca).trans hhcas.2,
      ⟨_, interface, (orNone_of_ne ?_).trans (congrArg some hraw.symm), hparse, hip, hlength⟩,
      ?_, ⟨_, orNone_of_ne (isSafeId_ne_empty hworkerConn), hworkerConn⟩,
      hworkerRange.or hglobal⟩
    · rw [hraw] at hne
      exact hne
    · change orNone (rawFabric values "WORKER").peer = _
      rw [hworkerPeer]
      rfl

/-! ### An accepted configuration -/

/-- The decimal digits of ASCII. -/
def asciiDecimals : Decimals where
  digit c := if Text.isDecimal c then some (c.toNat - '0'.toNat) else none
  lt c d h := by
    split_ifs at h with hc
    obtain rfl := Option.some.inj h
    simp only [Text.isDecimal, Bool.and_eq_true, decide_eq_true_eq, Char.le_def,
      UInt32.le_iff_toNat_le] at hc
    have hrange : 48 ≤ c.toNat ∧ c.toNat ≤ 57 := hc
    change c.toNat - 48 < 10
    omega
  ascii c hc := if_pos hc

/-- The values of a deployment on the roots of the candidate configuration. -/
def sharedRootValues (mode : Mode) : EnvValues := [
  ("DEPLOYMENT_MODE", mode.text),
  ("HEAD_HOST", "192.0.2.10"),
  ("WORKER_HOST", "192.0.2.11"),
  ("SSH_USER", "runner"),
  ("SSH_PORT", "22"),
  ("SSH_KNOWN_HOSTS_FILE", "/etc/ssh/known_hosts"),
  ("REMOTE_ROOT", candidateDeployment.remoteRoot),
  ("MODEL_ROOT", candidateDeployment.modelRoot),
  ("MODEL_MANIFEST_SHA256", candidateDeployment.modelManifestSha256),
  ("STATE_ROOT", candidateDeployment.stateRoot),
  ("CACHE_ROOT", candidateDeployment.cacheRoot),
  ("LOG_ROOT", "/var/log/dgx-spark-candidate/logs"),
  ("RESULT_ROOT", candidateDeployment.resultRoot),
  ("IMAGE_REF", candidateDeployment.imageRef),
  ("HEAD_IMAGE_REF", candidateDeployment.head.imageRef),
  ("WORKER_IMAGE_REF", candidateDeployment.worker.imageRef),
  ("IMAGE_LOCK_FILE", candidateDeployment.imageLockFile),
  ("MASTER_ADDR", "192.168.100.10"),
  ("HEAD_NODE_ADDR", "192.168.100.10"),
  ("WORKER_NODE_ADDR", "192.168.100.11"),
  ("MASTER_PORT", toString (expectedPorts mode).1),
  ("API_PORT", toString (expectedPorts mode).2),
  ("FORWARD_LOCAL_PORT", "18080"),
  ("HEAD_NET_IFACE", "rdma0"),
  ("WORKER_NET_IFACE", "rdma0"),
  ("HEAD_HCA", "mlx5_0"),
  ("WORKER_HCA", "mlx5_0"),
  ("HEAD_CUDA_VISIBLE_DEVICES", "0"),
  ("WORKER_CUDA_VISIBLE_DEVICES", "0"),
  ("ROCE_MTU", "9000"),
  ("API_BIND_ADDR", "127.0.0.1")]

/-- The directory of a checkout. -/
def checkout : PosixPath := ⟨"/", ["opt", "deploy"]⟩

theorem validate_candidate :
    validate asciiDecimals checkout (sharedRootValues .candidate) defaultProfile =
      .ok candidateConfig := by
  decide

end DgxSpark
