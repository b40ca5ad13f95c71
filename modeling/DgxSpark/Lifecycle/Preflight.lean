import DgxSpark.Lifecycle.Engine

/-!
# Preflight, fabric application and verification

The methods of the engine that look at the nodes without touching a container: the fabric
checks with their retries, the preflight of both roles, the application of the fabric
profile, which is the one that changes a node's network, and the verification of the running
pair. All of them are sequences of remote commands with parsers in between; what they can
raise is decided by the parsers.
-/

namespace DgxSpark

section Preflight

variable {engine : Engine} {σ : Type} (env : Env σ)

/-! ### Reading the GID -/

/-- `_FABRIC_GID_ATTEMPTS`. -/
def fabricGidAttempts : Nat := 12

/-- What one attempt makes of the GID read-back. -/
def parseGid (spec : FabricSpec) (discovery : Bool) (stdout : String) :
    Except Exn (Int × String) :=
  if discovery then parseGidDiscoveryOutput stdout
  else do
    parseGidOutput stdout spec
    return (spec.gidIndex.getD 0, Text.lower (Text.strip stdout))

/-- The attempts that are left of `_read_gid_with_retry`: only a GID that is not ready is
worth another one. -/
def readGidAttempts (role : Role) (command : List String) (spec : FabricSpec) (discovery : Bool) :
    Nat → Eng engine σ (Int × String)
  | 0 => throw ⟨.lifecycle, role.text ++ " GID did not become ready after " ++
      toString fabricGidAttempts ++ " attempts"⟩
  | attempts + 1 => do
    let result ← remote env role command
    match parseGid spec discovery result.stdout with
    | .ok gid => return gid
    | .error e =>
      if e.isFabricNotReady then readGidAttempts role command spec discovery attempts
      else throw e

/-- `_read_gid_with_retry`. -/
def readGidWithRetry (role : Role) (command : List String) (spec : FabricSpec)
    (discovery : Bool) : Eng engine σ (Int × String) :=
  readGidAttempts env role command spec discovery fabricGidAttempts

/-- The attempts that are left of `_read_gid_attributes_with_retry`. -/
def readGidAttributesAttempts (role : Role) (ndevs types : List String) (spec : FabricSpec) :
    Nat → Eng engine σ PUnit
  | 0 => throw ⟨.lifecycle, role.text ++ " GID attributes did not become ready after " ++
      toString fabricGidAttempts ++ " attempts"⟩
  | attempts + 1 => do
    let ndev ← remote env role ndevs
    let type ← remote env role types
    match parseGidAttributes ndev.stdout type.stdout spec with
    | .ok _ => return ⟨⟩
    | .error e =>
      if e.isFabricNotReady then readGidAttributesAttempts role ndevs types spec attempts
      else throw e

/-- `_read_gid_attributes_with_retry`. -/
def readGidAttributesWithRetry (role : Role) (ndevs types : List String) (spec : FabricSpec) :
    Eng engine σ PUnit :=
  readGidAttributesAttempts env role ndevs types spec fabricGidAttempts

/-! ### The fabric checks of a role -/

/-- `self._gid_overrides[role] = index`. -/
def setGidOverride (role : Role) (index : Int) : Eng engine σ PUnit :=
  Prog.modify fun s => { s with
    gidOverrides := fun r => if r = role then some index else s.gidOverrides r }

/-- The reaction to one discovery command: the GID index known after it. -/
def checkDiscovery (role : Role) (requireAddress : Bool) (spec : FabricSpec)
    (command : List String) (stdout : String) (known : Option Int) :
    Eng engine σ (Option Int) :=
  if spec.profile = .auto then return known
  else if command.take 4 = ["ip", "-json", "address", "show"] then do
    Prog.when requireAddress (Prog.lift (parseAddressOutput stdout spec))
    return known
  else if command.take 4 = ["ip", "-json", "link", "show"] then do
    Prog.when requireAddress (Prog.lift (parseLinkOutput stdout spec))
    return known
  else if command.take 3 = ["rdma", "-j", "link"] then do
    Prog.when requireAddress (Prog.lift (verifyRdmaOutput stdout spec))
    return known
  else if command.head? = some "docker" ∧ command.contains "/bin/cat" then
    if requireAddress then do
      let gid ← readGidWithRetry env role command spec false
      return some gid.1
    else return known
  else if command.head? = some "docker" ∧ command.contains "/bin/sh" then
    if requireAddress then do
      let gid ← readGidWithRetry env role command spec true
      Prog.lift (lifecycleFail
        ((engine.config.deployment.settings role).roceGidIndex.any (· != gid.1))
        (role.text ++ " discovered GID index differs from lock"))
      setGidOverride role gid.1
      return some gid.1
    else return known
  else return known

/-- The loop over the discovery commands. -/
def runDiscovery (role : Role) (requireAddress : Bool) (spec : FabricSpec) :
    List (List String) → Option Int → Eng engine σ (Option Int)
  | [], known => return known
  | command :: commands, known => do
    let result ← remote env role command
    let known ← checkDiscovery env role requireAddress spec command result.stdout known
    runDiscovery role requireAddress spec commands known

/-- The discovery commands that a preflight runs. -/
def selectDiscovery (spec : FabricSpec) (requireAddress : Bool) (commands : List (List String)) :
    List (List String) :=
  if requireAddress then commands
  else if spec.profile = .f1 then []
  else commands.filter fun command => command.head? != some "ping" &&
    !(command.head? == some "docker" && command.contains "/bin/")

/-- The body of `_fabric_preflight`, inside its handler. -/
def fabricPreflightBody (role : Role) (requireAddress : Bool) : Eng engine σ PUnit := do
  let spec ← Prog.lift (fabricSpec engine.config role)
  let contract ← contractFor role
  let imageRef := contract.image.reference
  let commands ← Prog.lift (discoveryCommands engine.config role imageRef)
  let discovered ← runDiscovery env role requireAddress spec
    (selectDiscovery spec requireAddress commands) none
  Prog.when (requireAddress && spec.profile == .f1) do
    match discovered.or (engine.config.deployment.settings role).roceGidIndex with
    | none => throw ⟨.lifecycle, role.text ++ " has no discovered GID index"⟩
    | some index => do
      let attributes ← Prog.lift (gidAttributeCommands engine.config role imageRef index)
      readGidAttributesWithRetry env role attributes.1 attributes.2 spec

/-- `_fabric_preflight`. -/
def fabricPreflight (role : Role) (requireAddress : Bool) : Eng engine σ PUnit :=
  if engine.config.deployment.fabricProfile = .f0 then return ⟨⟩
  else fabricAsLifecycle (fabricPreflightBody env role requireAddress)

/-! ### Applying the fabric -/

/-- `_refresh_contracts`. -/
def refreshContracts : Eng engine σ PUnit := do
  let s ← Prog.get
  let worker ← Prog.lift (renderFor engine.config engine.lock .worker (s.gidOverrides .worker))
  let head ← Prog.lift (renderFor engine.config engine.lock .head (s.gidOverrides .head))
  Prog.modify fun s => { s with
    contracts := fun role => match role with | .worker => worker | .head => head }

/-- `_validate_contracts` on the contracts of the state. -/
def validateCurrent : Eng engine σ PUnit := do
  let s ← Prog.get
  Prog.lift (validateContracts engine.config fun role => (s.contracts role).contract)

/-- The commands of `_apply_fabric` on one role. -/
def applyFabricRole (role : Role) : Eng engine σ PUnit := do
  let contract ← contractFor role
  let commands ← Prog.lift (applyCommands engine.config role contract.image.reference)
  Prog.each commands fun command => do
    let _ ← remote env role command
    return ⟨⟩

/-- `_apply_fabric`. -/
def applyFabric : Eng engine σ PUnit :=
  if engine.config.deployment.fabricProfile ≠ .f1 then return ⟨⟩
  else do
    Prog.each roleOrder fun role => fabricAsLifecycle (applyFabricRole env role)
    Prog.each roleOrder fun role => fabricPreflight env role true
    refreshContracts
    validateCurrent

/-! ### Preflight -/

/-- The first of several comma-separated names. -/
def firstName (names : String) : String :=
  (Text.splitOn ',' names).head?.getD ""

/-- The directory of the model on a node. -/
def modelDirectory (config : Config) (contract : Contract) : PosixPath :=
  let root := PosixPath.parse config.deployment.modelRoot
  let name := (PosixPath.parse contract.modelPath).name
  if root.name = name then root else root.child name

/-- The model files that must be readable. -/
def modelFiles : List String :=
  ["config.json", "model.safetensors.index.json", "tokenizer.json", "tokenizer_config.json"]

/-- A command whose output nothing reads. -/
def run (role : Role) (argv : List String) : Eng engine σ PUnit := do
  let _ ← remote env role argv
  return ⟨⟩

/-- The model checks of a role's preflight. -/
def preflightModel (role : Role) (contract : Contract) (requireModelMarker : Bool) :
    Eng engine σ PUnit := do
  let directory := modelDirectory engine.config contract
  let marker ← catchLifecycle
    (do
      let result ← remote env role ["cat", (directory.child ".model-lock.sha256").text]
      return some result)
    fun e => if requireModelMarker then throw e else pure none
  Prog.lift (lifecycleFail
    (marker.any fun result =>
      Text.strip result.stdout != engine.config.deployment.modelManifestSha256)
    (role.text ++ " model manifest marker does not match model lock"))
  Prog.each modelFiles fun file => run env role ["test", "-r", (directory.child file).text]
  run env role ["test", "-r", directory.text]

/-- The image checks of a role's preflight. -/
def preflightImage (role : Role) (contract : Contract) : Eng engine σ PUnit := do
  let result ← remote env role ["docker", "image", "inspect", "--format",
    "\x7b\x7bjson .\x7d\x7d", contract.image.reference]
  Prog.lift (lifecycleFail (Text.strip result.stdout == "")
    (role.text ++ " image inspect returned no data"))
  let value ← Prog.lift (jsonStdout result (role.text ++ " image inspect"))
  let object ← Prog.lift (inspectObject value (role.text ++ " image inspect"))
  Prog.lift (verifyImageInspect object contract.image role)

/-- The preflight of one role. -/
def preflightRole (requireModelMarker requireFabric : Bool) (role : Role) :
    Eng engine σ PUnit := do
  let settings := engine.config.deployment.settings role
  run env role ["docker", "version", "--format", "\x7b\x7b.Server.Arch\x7d\x7d"]
  run env role ["nvidia-smi", "--query-gpu=name,memory.total", "--format=csv,noheader"]
  run env role ["rdma", "link"]
  run env role ["ip", "link", "show", firstName settings.netIface]
  run env role ["ibdev2netdev", "-v"]
  fabricPreflight env role requireFabric
  let contract ← contractFor role
  preflightImage env role contract
  preflightModel env role contract requireModelMarker
  run env role ["test", "-n", firstName settings.hca]

/-- `preflight`. -/
def preflight (requireModelMarker requireFabric : Bool) : Eng engine σ PUnit :=
  Prog.each roleOrder (preflightRole env requireModelMarker requireFabric)

/-! ### Verification -/

/-- The command that asks the head's API for a path. -/
def readinessArgv (apiPort : Nat) (path : String) : List String :=
  ["curl", "--fail", "--silent", "--show-error", "--max-time", "10",
    "http://127.0.0.1:" ++ toString apiPort ++ path]

/-- The readiness attempts that are left. -/
def awaitReady (apiPort : Nat) : Nat → Eng engine σ PUnit
  | 0 => throw ⟨.lifecycle, "service readiness failed after 36 attempts"⟩
  | attempts + 1 =>
    catchLifecycle
      (do
        run env .head (readinessArgv apiPort "/health")
        run env .head (readinessArgv apiPort "/v1/models"))
      fun _ => awaitReady apiPort attempts

/-- `verify`, with the default number of attempts. -/
def verify (withPreflight : Bool) : Eng engine σ PUnit := do
  Prog.when withPreflight (preflight env true true)
  Prog.each roleOrder fun role => do
    let inspect ← inspectRequired env role
    let contract ← contractFor role
    Prog.lift (verifyContainerInspect inspect contract)
  let head ← contractFor .head
  awaitReady env (head.apiPort.getD 0) 36

end Preflight

end DgxSpark
