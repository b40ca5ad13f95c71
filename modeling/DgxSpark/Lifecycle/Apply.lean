import DgxSpark.Lifecycle.Rollback

/-!
# Applying, starting and stopping

The entry points of the engine that act on containers, and the steps they are made of:
staging the contract files, stopping and removing what is owned, creating, starting.
`DgxSpark.apply` puts them in order and is the one with a handler: a `LifecycleError` after
the capture runs a recovery (`DgxSpark.recover`), which is a rollback when an update had
captured both containers, and otherwise the removal of what the run may have left.

| entry point | |
|---|---|
| `apply`, `update` | `DgxSpark.apply`, `DgxSpark.update` |
| `start`, `stop` | `DgxSpark.start`, `DgxSpark.stop` |
| `apply_fabric` | `DgxSpark.applyFabricOnly` |
| `rollback` | `DgxSpark.rollback` |
-/

namespace DgxSpark

section Apply

variable {engine : Engine} {σ : Type} (env : Env σ)

/-! ### Staging -/

/-- A file that is staged: its local name, its text, its place on the node. -/
structure StagedFile where
  name : String
  text : String
  destination : String

/-- The caches of a node, made before the first start. -/
def cacheNames : List String :=
  ["vllm", "b12x", "flashinfer", "triton", "tilelang"]

/-- The directories that staging makes on a node. -/
def stagedDirectories (config : Config) (role : Role) (contract : Contract) : List String :=
  (PosixPath.parse contract.contractPath).parent.text ::
    cacheNames.map fun name => ((PosixPath.parse (cacheRoot config role)).child name).text

/-- The lines of an environment file. -/
def environmentText (environment : List (String × String)) : String :=
  String.join (environment.map fun p => p.1 ++ "=" ++ p.2 ++ "\n")

/-- The files of a role, in the order in which they are copied. -/
def stagedFiles (config : Config) (lock : Lock) (role : Role) (gidIndex : Option Int)
    (contract head : Contract) : Except Exn (List StagedFile) := do
  let text ← contractJson config role (some lock) gidIndex
  return [
    ⟨role.text ++ ".json", text, contract.contractPath⟩,
    ⟨role.text ++ ".env", environmentText (renderEnvironment config role gidIndex),
      remoteEnvPath config role⟩,
    ⟨"model.lock.sha256", config.deployment.modelManifestSha256 ++ "\n",
      ((modelDirectory config head).child ".model-lock.sha256").text⟩]

/-- Writing a local file. -/
def writeLocal (path text : String) : Eng engine σ PUnit :=
  Prog.modify fun s => { s with world := env.writeFile path text s.world }

/-- The local path of a staged file. -/
def stagingPath (file : StagedFile) : String :=
  ((PosixPath.parse env.temporaryDirectory).child file.name).text

/-- Copying one staged file. -/
def copyStaged (role : Role) (file : StagedFile) : Eng engine σ PUnit := do
  let deployment := engine.config.deployment
  let argv ← Prog.lift (scpArgv (stagingPath env file) (sshHost deployment role)
    (deployment.settings role).sshUser deployment.sshPort deployment.sshKnownHostsFile
    file.destination (identityFile deployment))
  let _ ← scp env argv
  return ⟨⟩

/-- Staging the files of one role. -/
def stageRole (role : Role) : Eng engine σ PUnit := do
  let contract ← contractFor role
  let head ← contractFor .head
  run env role (["mkdir", "-p"] ++ stagedDirectories engine.config role contract)
  let s ← Prog.get
  let files ← Prog.lift
    (stagedFiles engine.config engine.lock role (s.gidOverrides role) contract head)
  Prog.each files fun file => writeLocal env (stagingPath env file) file.text
  Prog.each files (copyStaged env role)

/-- `_stage`. -/
def stage : Eng engine σ PUnit :=
  Prog.each roleOrder (stageRole env)

/-! ### Containers -/

/-- `_stop_owned`, for one role. -/
def stopOwnedRole (role : Role) : Eng engine σ PUnit := do
  let inspect ← inspectOrMissing env role
  match inspect with
  | none => return ⟨⟩
  | some inspect => do
    let contract ← contractFor role
    Prog.lift (assertOwned engine.config.deployment.mode contract role inspect)
    Prog.when (inspectRunning inspect) (run env role (stopArgv contract.container))

/-- `_stop_owned`. -/
def stopOwned : Eng engine σ PUnit :=
  Prog.each roleOrder (stopOwnedRole env)

/-- `_remove_owned`, for one role. -/
def removeOwnedRole (role : Role) : Eng engine σ PUnit := do
  let inspect ← inspectOrMissing env role
  match inspect with
  | none => return ⟨⟩
  | some inspect => do
    let contract ← contractFor role
    Prog.lift (assertOwned engine.config.deployment.mode contract role inspect)
    run env role (rmArgv contract.container)

/-- `_remove_owned`. -/
def removeOwned : Eng engine σ PUnit :=
  Prog.each roleOrder (removeOwnedRole env)

/-- `_create`, for one role. -/
def createRole (role : Role) : Eng engine σ PUnit := do
  let s ← Prog.get
  let argv ← Prog.lift
    (renderContainerArgv engine.config role (some engine.lock) (s.gidOverrides role))
  run env role argv

/-- `_create`. -/
def create : Eng engine σ PUnit :=
  Prog.each roleOrder (createRole env)

/-- `_start`, for one role: a container that runs is left alone. -/
def startRole (role : Role) : Eng engine σ PUnit := do
  let inspect ← inspectOrMissing env role
  let contract ← contractFor role
  match inspect with
  | none => run env role (startArgv contract.container)
  | some inspect => do
    Prog.lift (assertOwned engine.config.deployment.mode contract role inspect)
    Prog.when (!inspectRunning inspect) (run env role (startArgv contract.container))

/-- `_start`. -/
def startAll : Eng engine σ PUnit :=
  Prog.each roleOrder (startRole env)

/-- `_cleanup_partial`, for one role. -/
def cleanupRole (role : Role) : Eng engine σ PUnit := do
  let inspect ← inspectOrMissing env role
  match inspect with
  | none => return ⟨⟩
  | some inspect => do
    let contract ← contractFor role
    Prog.lift (assertOwned engine.config.deployment.mode contract role inspect)
    stopAndRemove env role inspect contract.container

/-- `_cleanup_partial`. -/
def cleanupPartial : Eng engine σ PUnit :=
  Prog.each roleOrder (cleanupRole env)

/-! ### Entry points -/

/-- The body of `apply`, inside its handler. -/
def applyBody (isUpdate : Bool) : Eng engine σ PUnit := do
  applyFabric env
  preflight env false true
  Prog.when isUpdate do
    stopOwned env
    removeOwned env
  stage env
  preflight env true true
  create env
  startAll env
  verify env false

/-- Whether a capture holds a record for both roles. -/
def capturedPair (captured : Json) : Bool :=
  let roles := captured.getD "roles" (.obj [])
  roles.isMapping && roleOrder.all fun role => (roles.get role.text).isMapping

/-- What `apply` does after a `LifecycleError`. -/
def recover (isUpdate : Bool) (captured : Json) : Eng engine σ PUnit :=
  if isUpdate && capturedPair captured then rollback env
  else do
    cleanupPartial env
    restoreFabricState env (captured.get "fabric")

/-- The handler of `apply`: the recovery, and then the original exception again, with the
recovery's own error in its text if that failed too. -/
def recoverAndRaise (isUpdate : Bool) (captured : Json) (original : Exn) :
    Eng engine σ PUnit := do
  catchLifecycle (recover env isUpdate captured) fun recovery =>
    throw ⟨.lifecycle, original.message ++ "; recovery failed: " ++ recovery.message⟩
  throw original

/-- `apply`. -/
def apply (isUpdate : Bool) : Eng engine σ PUnit := do
  preflight env false false
  let captured ← captureRollback env
  catchLifecycle (applyBody env isUpdate) (recoverAndRaise env isUpdate captured)

/-- `update`. -/
def update : Eng engine σ PUnit :=
  apply env true

/-- `start`. -/
def start : Eng engine σ PUnit := do
  preflight env true true
  startAll env
  verify env false

/-- `stop`. -/
def stop : Eng engine σ PUnit :=
  stopOwned env

/-- `apply_fabric`. -/
def applyFabricOnly : Eng engine σ PUnit := do
  Prog.lift (lifecycleFail (engine.config.deployment.fabricProfile != .f1)
    "fabric-only apply requires FABRIC_PROFILE=f1")
  let captured ← captureFabricState env
  catchLifecycle (applyFabric env) fun primary => do
    catchLifecycle (restoreFabricState env captured) fun recovery =>
      throw ⟨.lifecycle, primary.message ++ "; fabric recovery failed: " ++ recovery.message⟩
    throw primary

end Apply

end DgxSpark
