import DgxSpark.Lifecycle.Preflight

/-!
# Capturing and restoring the previous state

Before anything is changed, an update writes down what is there: the container of each role,
as Docker's inspect reports it, and on a deployment with the `f1` fabric the NetworkManager
profiles. A rollback reads that file back, checks it, puts the network back, removes what it
finds under the captured names, and creates the captured containers again from their records.

| | |
|---|---|
| writing the file | `DgxSpark.captureRollback` |
| putting the network back | `DgxSpark.restoreFabricState` |
| removing containers | `DgxSpark.removeRollbackTargets`, `DgxSpark.removeEmptyRollbackTargets` |
| creating them again | `DgxSpark.rollbackCreateArgv`, `DgxSpark.recreateRole` |
| comparing | `DgxSpark.verifyRollback` |
| all of it | `DgxSpark.rollback` |

The file is JSON, and everything read from it is a JSON value (`DgxSpark.Json`): a check that
the source makes with `isinstance` is a check here, and where the source relies on a value
having a shape without checking it, Python's own exception is what comes out.
-/

namespace DgxSpark

/-! ### The state file -/

/-- `_state_digest`: the digest of the state without its recorded digest. -/
def stateDigest (state : Json) : String :=
  Sha256.hexDigest (Json.canonical (.obj (Json.eraseKey "state_sha256" state.members)))

/-- The items of a list, and of anything else none. -/
def listOrEmpty (value : Json) : Json :=
  match value with
  | .arr items => .arr items
  | _ => .arr []

/-- A member of a mapping, and of anything else the default. -/
def memberOr (value : Json) (key : String) (default : Json) : Json :=
  if value.isMapping then value.getD key default else default

/-- The host settings that a capture records. -/
def captureHostConfig (host : Json) : Except Exn Json := do
  let shm ← pyInt (orElse (host.getD "ShmSize" (.int 0)) (.int 0))
  return .obj [
    ("network_mode", .str (host.getD "NetworkMode" (.str "")).pyStr),
    ("ipc_mode", .str (host.getD "IpcMode" (.str "")).pyStr),
    ("privileged", .bool (host.getD "Privileged" (.bool false)).truthy),
    ("shm_size", .int shm),
    ("security_opt", listOrEmpty (host.get "SecurityOpt")),
    ("device_requests", listOrEmpty (host.get "DeviceRequests")),
    ("ulimits", listOrEmpty (host.get "Ulimits")),
    ("readonly_rootfs", .bool (host.getD "ReadonlyRootfs" (.bool false)).truthy)]

/-- The record of one container. -/
def captureRecord (role : Role) (inspect : Json) : Except Exn Json := do
  let context := role.text ++ " container"
  let config := inspect.get "Config"
  let command ← inspectCommand inspect context
  let labels ← inspectLabels inspect context
  let host := inspect.get "HostConfig"
  let hostConfig ← captureHostConfig (if host.isMapping then host else .obj [])
  return .obj [
    ("name", .str (inspectName inspect)),
    ("image", .str (inspectImage inspect)),
    ("image_id", .str (inspectImage inspect)),
    ("command", Json.ofStrings command),
    ("labels", .obj (labels.map fun p => (p.1, .str p.2))),
    ("environment", listOrEmpty (memberOr config "Env" .null)),
    ("mounts", listOrEmpty (inspect.get "Mounts")),
    ("working_dir", .str (memberOr config "WorkingDir" (.str "")).pyStr),
    ("host_config", hostConfig),
    ("running", .bool (inspectRunning inspect))]

/-- The state without its digest. -/
def rollbackState (config : Config) (fabric roles : Json) : List (String × Json) := [
  ("schema_version", .int 1),
  ("deployment_id", .str (deploymentId config)),
  ("mode", .str config.deployment.mode.text),
  ("config_sha256", .str (configSha256 config)),
  ("fabric", fabric),
  ("roles", roles)]

/-- The state with its digest. -/
def sealState (state : List (String × Json)) : Json :=
  .obj (state ++ [("state_sha256", .str (stateDigest (.obj state)))])

/-- The text of the state file. -/
def stateText (state : Json) : String :=
  Json.dumps Json.indented state ++ "\n"

section Capture

variable {engine : Engine} {σ : Type} (env : Env σ)

/-- Reading the NetworkManager profiles of a role. -/
def readNmState (role : Role) (spec : FabricSpec) : Eng engine σ NmState := do
  let command ← Prog.lift (nmConnectionStateCommand engine.config role)
  let result ← remote env role command
  Prog.lift (parseNmConnectionState result.stdout spec)

/-- The fabric record of one role. -/
def captureFabricRole (role : Role) : Eng engine σ Json := do
  let spec ← Prog.lift (fabricSpec engine.config role)
  let state ← readNmState env role spec
  return .obj (state.members ++ [("spec", spec.toJson)])

/-- `_capture_fabric_state`. -/
def captureFabricState : Eng engine σ Json :=
  if engine.config.deployment.fabricProfile ≠ .f1 then return .obj []
  else do
    let worker ← captureFabricRole env .worker
    let head ← captureFabricRole env .head
    return .obj [("worker", worker), ("head", head)]

/-- The record of one role, `null` when it has no container. -/
def captureRole (role : Role) : Eng engine σ Json := do
  let inspect ← inspectOrMissing env role
  match inspect with
  | none => return .null
  | some inspect => do
    let contract ← contractFor role
    Prog.lift (assertOwned engine.config.deployment.mode contract role inspect)
    Prog.lift (captureRecord role inspect)

/-- `os.replace` of the state file by a new one. -/
def writeStateFile (text : String) : Eng engine σ PUnit :=
  Prog.modify fun s => { s with stateFile := some text }

/-- `capture_rollback`. -/
def captureRollback : Eng engine σ Json := do
  let worker ← captureRole env .worker
  let head ← captureRole env .head
  let fabric ← captureFabricState env
  let state := sealState
    (rollbackState engine.config fabric (.obj [("worker", worker), ("head", head)]))
  writeStateFile (stateText state)
  return state

end Capture

/-! ### Restoring the fabric -/

/-- The members of a specification that must not have changed since the capture. -/
def specKeys : List String :=
  ["profile", "role", "interface", "hca", "address", "peer", "cidr", "connection", "mtu"]

/-- `isinstance(value, bool)`. -/
def isBool : Json → Bool
  | .bool _ => true
  | _ => false

/-- A text with something in it. -/
def isNonemptyText : Json → Bool
  | .str s => s != ""
  | _ => false

/-- The checks on the captured record of a role, before the current state is read. -/
def checkCapturedFabric (role : Role) (spec : FabricSpec) (state : Json) : Except Exn Unit := do
  let context := "rollback fabric " ++ role.text
  let captured := state.get "spec"
  lifecycleFail (!captured.isMapping) (context ++ " spec is missing")
  specKeys.forM fun key =>
    lifecycleFail (!(captured.get key).pyEq (spec.toJson.get key))
      (context ++ " " ++ key ++ " differs from captured state")
  lifecycleFail ((state.getD "target_connection" (.str "")).pyStr != strOption spec.connection)
    (context ++ " target connection differs from config")
  lifecycleFail (!isBool (state.get "target_existed"))
    (context ++ " target existence is malformed")
  let expectsActive := state.get "active_connection" != .null
  lifecycleFail (expectsActive && !isNonemptyText (state.get "active_connection"))
    (context ++ " active connection is malformed")
  lifecycleFail (expectsActive && !isNonemptyText (state.get "active_uuid"))
    (context ++ " active UUID is malformed")

/-- The checks on the current state of a role against the captured one. -/
def checkCurrentFabric (role : Role) (spec : FabricSpec) (state : Json) (current : NmState) :
    Except Exn Unit := do
  let context := "rollback fabric " ++ role.text
  let target := strOption spec.connection
  let existed := state.get "target_existed" == .bool true
  let expectedActive := state.get "active_connection"
  lifecycleFail (existed && !current.targetExisted)
    (context ++ " pre-existing target profile disappeared")
  lifecycleFail (existed && !(Json.ofText? current.targetUuid).pyEq (state.get "target_uuid"))
    (context ++ " target UUID differs")
  lifecycleFail (!existed && current.targetExisted &&
      !([spec.interface, "--", ""].contains (current.targetDevice.getD "")))
    (context ++ " target device differs")
  lifecycleFail (current.activeConnection.any fun name =>
      name != target && !(Json.str name).pyEq expectedActive)
    (context ++ " has an unexpected active profile")
  lifecycleFail ((current.activeConnection.any fun name => (Json.str name).pyEq expectedActive) &&
      !(Json.ofText? current.activeUuid).pyEq (state.get "active_uuid"))
    (context ++ " active UUID differs")

/-- The mutations that lead a role back from its current state. -/
def fabricMutations (spec : FabricSpec) (state : Json) (current : NmState) : List (List String) :=
  let target := strOption spec.connection
  let existed := state.get "target_existed" == .bool true
  let expectedActive := state.get "active_connection"
  let activeName := Json.ofText? current.activeConnection
  (if current.targetActive && current.activeConnection == some target &&
      !(Json.str target).pyEq expectedActive then [["connection", "down", target]] else []) ++
  (if current.targetExisted && !existed then [["connection", "delete", target]] else []) ++
  (if expectedActive != .null && !activeName.pyEq expectedActive
    then [["connection", "up", expectedActive.pyStr]] else [])

/-- `_nmcli_mutation`. -/
def nmcliMutation (contract : Contract) (args : List String) : Except Exn (List String) :=
  helperArgv contract.image.reference ("/usr/bin/nmcli" :: args) true

/-- The checks of a role after the mutations. -/
def checkRestoredFabric (role : Role) (state : Json) (restored : NmState) : Except Exn Unit := do
  let context := "rollback fabric " ++ role.text
  let existed := (state.get "target_existed").truthy
  lifecycleFail (restored.targetExisted != existed)
    (context ++ " target profile restoration differs")
  lifecycleFail (existed && !(Json.ofText? restored.targetUuid).pyEq (state.get "target_uuid"))
    (context ++ " target UUID restoration differs")
  let expectedActive := state.get "active_connection"
  lifecycleFail (expectedActive == .null && restored.activeConnection.isSome)
    (context ++ " unexpectedly has an active profile")
  lifecycleFail (expectedActive != .null &&
      !(Json.ofText? restored.activeConnection).pyEq expectedActive)
    (context ++ " active profile restoration differs")
  lifecycleFail (expectedActive != .null &&
      !(Json.ofText? restored.activeUuid).pyEq (state.get "active_uuid"))
    (context ++ " active UUID restoration differs")

/-- Whether a failed mutation only says that there was nothing to bring down. -/
def alreadyInactive (command : List String) (message : String) : Bool :=
  let detail := Text.lower message
  match command.reverse with
  | target :: "down" :: "connection" :: _ =>
    let target := Text.lower target
    target != "" && (Text.contains detail ("'" ++ target ++ "' is not an active connection") ||
      Text.contains detail ("\"" ++ target ++ "\" is not an active connection") ||
      Text.contains detail "no active connection provided")
  | _ => false

section Restore

variable {engine : Engine} {σ : Type} (env : Env σ)

/-- The planned mutations of a role: every check first. -/
def planFabricRole (fabricState : Json) (role : Role) :
    Eng engine σ (List (Role × List String)) := do
  let state := fabricState.get role.text
  Prog.lift (lifecycleFail (!state.isMapping)
    ("rollback fabric state has no " ++ role.text ++ " record"))
  let spec ← Prog.lift (fabricSpec engine.config role)
  Prog.lift (checkCapturedFabric role spec state)
  let current ← readNmState env role spec
  Prog.lift (checkCurrentFabric role spec state current)
  let contract ← contractFor role
  let commands ← Prog.lift ((fabricMutations spec state current).mapM (nmcliMutation contract))
  return commands.map fun command => (role, command)

/-- One planned mutation; bringing down what is down already is no failure. -/
def mutateFabric (action : Role × List String) : Eng engine σ PUnit :=
  catchLifecycle (run env action.1 action.2) fun e =>
    if alreadyInactive action.2 e.message then return ⟨⟩ else throw e

/-- The read-back of a role after the mutations. -/
def confirmFabricRole (fabricState : Json) (role : Role) : Eng engine σ PUnit := do
  let spec ← Prog.lift (fabricSpec engine.config role)
  let restored ← readNmState env role spec
  Prog.lift (checkRestoredFabric role (fabricState.get role.text) restored)

/-- `_restore_fabric_state`: the plan of both roles, then the mutations, then the
read-back. -/
def restoreFabricState (fabricState : Json) : Eng engine σ PUnit :=
  if engine.config.deployment.fabricProfile ≠ .f1 then return ⟨⟩
  else do
    Prog.lift (lifecycleFail (!fabricState.isMapping) "rollback fabric state is missing")
    let worker ← planFabricRole env fabricState .worker
    let head ← planFabricRole env fabricState .head
    Prog.each (worker ++ head) (mutateFabric env)
    Prog.each roleOrder (confirmFabricRole env fabricState)

end Restore

/-! ### Profiles of a legacy candidate state -/

/-- The checks on one role of a legacy fabric record. -/
def checkLegacyFabric (role : Role) (spec : FabricSpec) (captured : Json) : Except Exn Unit := do
  specKeys.forM fun key =>
    lifecycleFail (!(captured.get key).pyEq (spec.toJson.get key))
      ("legacy fabric " ++ role.text ++ " " ++ key ++ " differs from config")
  lifecycleFail (!Text.contains (Text.lower (strOption spec.connection)) "candidate")
    ("legacy fabric " ++ role.text ++ " target is not candidate-owned")

section Legacy

variable {engine : Engine} {σ : Type} (env : Env σ)

/-- The checks of a role before any legacy profile is removed. -/
def planLegacyRole (fabricState : Json) (role : Role) : Eng engine σ (FabricSpec × NmState) := do
  let captured := fabricState.get role.text
  Prog.lift (lifecycleFail (!captured.isMapping)
    ("legacy fabric state has no " ++ role.text ++ " record"))
  let spec ← Prog.lift (fabricSpec engine.config role)
  Prog.lift (checkLegacyFabric role spec captured)
  let current ← readNmState env role spec
  Prog.lift (lifecycleFail (current.targetExisted &&
      !([spec.interface, "--", ""].contains (current.targetDevice.getD "")))
    ("legacy fabric " ++ role.text ++ " target device differs"))
  return (spec, current)

/-- Removing the candidate profile of a role. -/
def removeLegacyRole (role : Role) (spec : FabricSpec) (current : NmState) : Eng engine σ PUnit :=
  Prog.when current.targetExisted do
    Prog.when current.targetActive
      (run env role ["nmcli", "connection", "down", strOption spec.connection])
    run env role ["nmcli", "connection", "delete", strOption spec.connection]

/-- The read-back of a role after the removal. -/
def confirmLegacyRole (role : Role) (spec : FabricSpec) : Eng engine σ PUnit := do
  let final ← readNmState env role spec
  Prog.lift (lifecycleFail final.targetExisted
    ("legacy fabric " ++ role.text ++ " candidate profile remains"))
  Prog.lift (lifecycleFail (final.activeConnection == some (strOption spec.connection))
    ("legacy fabric " ++ role.text ++ " candidate profile remains active"))

/-- `_remove_legacy_candidate_profiles`. -/
def removeLegacyCandidateProfiles (fabricState : Json) : Eng engine σ PUnit := do
  Prog.lift (lifecycleFail (engine.config.deployment.mode != .candidate)
    "legacy fabric cleanup is allowed only in candidate mode")
  let worker ← planLegacyRole env fabricState .worker
  let head ← planLegacyRole env fabricState .head
  removeLegacyRole env .worker worker.1 worker.2
  removeLegacyRole env .head head.1 head.2
  confirmLegacyRole env .worker worker.1
  confirmLegacyRole env .head head.1

end Legacy

/-! ### Removing containers -/

/-- `docker container stop` with its grace period. -/
def stopArgv (name : String) : List String :=
  ["docker", "container", "stop", "--time", "30", name]

/-- `docker container rm`. -/
def rmArgv (name : String) : List String :=
  ["docker", "container", "rm", name]

/-- `docker container start`. -/
def startArgv (name : String) : List String :=
  ["docker", "container", "start", name]

/-- The check of `_remove_rollback_targets` on one role: the captured name, the captured or
the locked image, and the labels of the current deployment or the captured ones. -/
def checkRollbackTarget (contract : Contract) (role : Role) (old inspect : Json) :
    Except Exn Unit := do
  lifecycleFail (inspectName inspect != (old.get "name").pyStr)
    ("rollback found an unexpected " ++ role.text ++ " name")
  lifecycleFail (!([(old.get "image").pyStr, strOption contract.image.imageId].contains
      (inspectImage inspect)))
    ("rollback found an unexpected " ++ role.text ++ " image")
  let labels ← inspectLabels inspect ("rollback " ++ role.text)
  lifecycleFail (!(old.get "labels").isMapping)
    ("rollback " ++ role.text ++ " captured labels are malformed")
  lifecycleFail (!(currentOwner contract role labels ||
      (environmentJson labels).pyEq (environmentJson (textMembers (old.get "labels")))))
    ("rollback refusing to remove unowned " ++ role.text ++ " target")

section Remove

variable {engine : Engine} {σ : Type} (env : Env σ)

/-- Stopping a container that runs, and removing it. -/
def stopAndRemove (role : Role) (inspect : Json) (name : String) : Eng engine σ PUnit := do
  Prog.when (inspectRunning inspect) (run env role (stopArgv name))
  run env role (rmArgv name)

/-- One role of `_remove_rollback_targets`. -/
def removeRollbackTarget (roles : Json) (role : Role) : Eng engine σ PUnit := do
  let inspect ← inspectOrMissing env role
  match inspect with
  | none => return ⟨⟩
  | some inspect => do
    let old := roles.get role.text
    let contract ← contractFor role
    Prog.lift (checkRollbackTarget contract role old inspect)
    stopAndRemove env role inspect (old.get "name").pyStr

/-- `_remove_rollback_targets`. -/
def removeRollbackTargets (roles : Json) : Eng engine σ PUnit :=
  Prog.each roleOrder (removeRollbackTarget env roles)

/-- The inspection of a role before an empty rollback removes anything. -/
def inspectEmptyTarget (role : Role) : Eng engine σ (Option Json) := do
  let inspect ← inspectOrMissing env role
  match inspect with
  | none => return none
  | some inspect => do
    let contract ← contractFor role
    Prog.lift (assertOwned engine.config.deployment.mode contract role inspect)
    return some inspect

/-- The removal of a role that was inspected. -/
def removeEmptyTarget (role : Role) (inspect : Option Json) : Eng engine σ PUnit :=
  match inspect with
  | none => return ⟨⟩
  | some inspect => do
    let contract ← contractFor role
    stopAndRemove env role inspect contract.container

/-- The read-back of a role after the removal. -/
def confirmEmptyTarget (role : Role) : Eng engine σ PUnit := do
  let remaining ← inspectOrMissing env role
  Prog.lift (lifecycleFail remaining.isSome
    ("rollback empty " ++ role.text ++ " container remains"))

/-- `_remove_empty_rollback_targets`: both roles are checked before either is touched. -/
def removeEmptyRollbackTargets : Eng engine σ PUnit := do
  let worker ← inspectEmptyTarget env .worker
  let head ← inspectEmptyTarget env .head
  removeEmptyTarget env .worker worker
  removeEmptyTarget env .head head
  Prog.each roleOrder (confirmEmptyTarget env)

end Remove

/-! ### Creating the captured containers -/

/-- An option with its value, when the value is not empty. -/
def optionUnlessEmpty (option value : String) : List String :=
  if value = "" then [] else [option, value]

/-- The security options. -/
def securityArgs (role : Role) (hostConfig : Json) : Except Exn (List String) := do
  let options ← iterate (hostConfig.getD "security_opt" (.arr []))
  let args ← options.mapM fun option => do
    lifecycleFail (!isNonemptyText option)
      ("rollback " ++ role.text ++ " security option is malformed")
    return ["--security-opt", option.pyStr]
  return args.flatten

/-- `--gpus all` for the first request of every device. -/
def gpuArgs : List Json → Except Exn (List String)
  | [] => .ok []
  | request :: requests =>
    if request.isMapping then do
      let count ← pyInt (orElse (request.getD "Count" (.int 0)) (.int 0))
      if count = -1 then .ok ["--gpus", "all"] else gpuArgs requests
    else gpuArgs requests

/-- One resource limit. -/
def ulimitArgs (role : Role) (limit : Json) : Except Exn (List String) := do
  lifecycleFail (!limit.isMapping) ("rollback " ++ role.text ++ " ulimit is malformed")
  let hard := limit.get "Hard"
  let soft := limit.getD "Soft" hard
  lifecycleFail (!isNonemptyText (limit.get "Name") || hard == .null || soft == .null)
    ("rollback " ++ role.text ++ " ulimit is incomplete")
  return ["--ulimit", (limit.get "Name").pyStr ++ "=" ++ soft.pyStr ++ ":" ++ hard.pyStr]

/-- The options of the host settings. -/
def hostArgs (role : Role) (hostConfig : Json) : Except Exn (List String) := do
  lifecycleFail (!hostConfig.isMapping)
    ("rollback " ++ role.text ++ " host configuration is malformed")
  let shm ← pyInt (orElse (hostConfig.getD "shm_size" (.int 0)) (.int 0))
  let security ← securityArgs role hostConfig
  let requests ← iterate (hostConfig.getD "device_requests" (.arr []))
  let gpus ← gpuArgs requests
  let limits ← iterate (hostConfig.getD "ulimits" (.arr []))
  let ulimits ← limits.mapM (ulimitArgs role)
  return optionUnlessEmpty "--network" (hostConfig.getD "network_mode" (.str "")).pyStr ++
    optionUnlessEmpty "--ipc" (hostConfig.getD "ipc_mode" (.str "")).pyStr ++
    (if (hostConfig.get "privileged").truthy then ["--privileged"] else []) ++
    (if shm = 0 then [] else ["--shm-size", toString shm]) ++ security ++ gpus ++
    ulimits.flatten ++
    (if (hostConfig.get "readonly_rootfs").truthy then ["--read-only"] else [])

/-- The label options, in key order. -/
def labelArgs (role : Role) (labels : Json) : Except Exn (List String) := do
  lifecycleFail (!labels.isMapping) ("rollback " ++ role.text ++ " labels are malformed")
  let args ← (labels.members.insertionSort Json.keyLe).mapM fun p => do
    lifecycleFail (p.1 == "" || !isNonemptyText p.2)
      ("rollback " ++ role.text ++ " label is malformed")
    return ["--label", p.1 ++ "=" ++ p.2.pyStr]
  return args.flatten

/-- The environment options. -/
def environmentArgs (role : Role) (environment : Json) : Except Exn (List String) := do
  let items ← match environment with
    | .arr items => .ok items
    | _ => .error ⟨.lifecycle, "rollback " ++ role.text ++ " environment is malformed"⟩
  let args ← items.mapM fun value => do
    lifecycleFail (!isNonemptyText value || (Text.chars value.pyStr).contains '\x00')
      ("rollback " ++ role.text ++ " environment contains an invalid value")
    return ["--env", value.pyStr]
  return args.flatten

/-- One mount option. -/
def mountArgs (role : Role) (mount : Json) : Except Exn (List String) := do
  lifecycleFail (!mount.isMapping) ("rollback " ++ role.text ++ " mount is malformed")
  lifecycleFail (!isNonemptyText (mount.get "Source") || !isNonemptyText (mount.get "Destination"))
    ("rollback " ++ role.text ++ " mount is incomplete")
  return ["--mount", "type=" ++ (mount.getD "Type" (.str "bind")).pyStr ++
    ",src=" ++ (mount.get "Source").pyStr ++ ",dst=" ++ (mount.get "Destination").pyStr ++
    (if mount.get "RW" == .bool false then ",readonly" else "")]

/-- The mount options. -/
def mountsArgs (role : Role) (mounts : Json) : Except Exn (List String) := do
  let items ← match mounts with
    | .arr items => .ok items
    | _ => .error ⟨.lifecycle, "rollback " ++ role.text ++ " mounts are malformed"⟩
  let args ← items.mapM (mountArgs role)
  return args.flatten

/-- The `docker container create` command for a captured record. -/
def rollbackCreateArgv (role : Role) (old : Json) : Except Exn (List String) := do
  let host ← hostArgs role (old.get "host_config")
  let labels ← labelArgs role (old.get "labels")
  let environment ← environmentArgs role (old.get "environment")
  let mounts ← mountsArgs role (old.get "mounts")
  let command ← iterate (old.get "command")
  return ["docker", "container", "create", "--name", (old.get "name").pyStr] ++ host ++ labels ++
    environment ++ mounts ++ optionUnlessEmpty "--workdir" (old.get "working_dir").pyStr ++
    [(old.get "image").pyStr] ++ command.map Json.pyStr

/-! ### Comparing with the captured record -/

/-- What is compared of a mount. -/
structure MountKey where
  type : String
  source : String
  destination : String
  rw : Bool
deriving DecidableEq, Repr

/-- The compared part of a mount. -/
def mountKey (mount : Json) : MountKey where
  type := (mount.getD "Type" (.str "")).pyStr
  source := (mount.getD "Source" (.str "")).pyStr
  destination := (mount.getD "Destination" (.str "")).pyStr
  rw := (mount.getD "RW" (.bool false)).truthy

/-- The compared parts of a list of mounts, those that are no mappings left out. -/
def mountKeys (mounts : List Json) : List MountKey :=
  (mounts.filter Json.isMapping).map mountKey

/-- The host settings that are compared as they are, with their names in a record. -/
def hostKeys : List (String × String) := [
  ("NetworkMode", "network_mode"),
  ("IpcMode", "ipc_mode"),
  ("Privileged", "privileged"),
  ("ShmSize", "shm_size"),
  ("ReadonlyRootfs", "readonly_rootfs")]

/-- `list(value or [])`. -/
def listOr (value : Json) : Except Exn (List Json) :=
  iterate (orElse value (.arr []))

/-- Equality of lists of values in the sense of Python. -/
def sameItems (a b : List Json) : Bool :=
  (Json.arr a).pyEq (.arr b)

/-- The comparison of host settings. -/
def checkRestoredHost (role : Role) (actual expected : Json) : Except Exn Unit := do
  let context := "rollback " ++ role.text
  lifecycleFail (!actual.isMapping || !expected.isMapping) (context ++ " host settings are missing")
  hostKeys.forM fun keys =>
    lifecycleFail (!(actual.get keys.1).pyEq (expected.get keys.2))
      (context ++ " host setting " ++ keys.1 ++ " differs from captured state")
  let security ← listOr (actual.get "SecurityOpt")
  let oldSecurity ← listOr (expected.get "security_opt")
  lifecycleFail (!sameItems security oldSecurity)
    (context ++ " security settings differ from captured state")
  let ulimits ← listOr (actual.get "Ulimits")
  let oldUlimits ← listOr (expected.get "ulimits")
  lifecycleFail (!sameItems ulimits oldUlimits) (context ++ " ulimits differ from captured state")
  let requests ← listOr (actual.get "DeviceRequests")
  let oldRequests ← listOr (expected.get "device_requests")
  lifecycleFail (!sameItems requests oldRequests)
    (context ++ " GPU requests differ from captured state")

/-- The comparison of one container with its captured record. -/
def checkRestored (role : Role) (old inspect : Json) : Except Exn Unit := do
  let context := "rollback " ++ role.text
  lifecycleFail (inspectName inspect != (old.get "name").pyStr)
    (context ++ " name differs from captured state")
  lifecycleFail (inspectImage inspect != (old.get "image").pyStr)
    (context ++ " image differs from captured state")
  let command ← inspectCommand inspect context
  let oldCommand ← iterate (old.get "command")
  lifecycleFail (command != oldCommand.map Json.pyStr)
    (context ++ " command differs from captured state")
  let labels ← inspectLabels inspect context
  lifecycleFail (!(environmentJson labels).pyEq (environmentJson (textMembers (old.get "labels"))))
    (context ++ " labels differ from captured state")
  let config := inspect.get "Config"
  lifecycleFail (!config.isMapping) (context ++ " Docker config is missing")
  let environment ← iterate (config.getD "Env" (.arr []))
  let oldEnvironment ← iterate (old.get "environment")
  lifecycleFail (!sameItems environment oldEnvironment)
    (context ++ " environment differs from captured state")
  lifecycleFail ((config.getD "WorkingDir" (.str "")).pyStr != (old.get "working_dir").pyStr)
    (context ++ " working directory differs from captured state")
  let mounts ← match inspect.get "Mounts" with
    | .arr mounts => .ok mounts
    | _ => .error ⟨.lifecycle, context ++ " mounts are missing"⟩
  let oldMounts ← iterate (old.get "mounts")
  lifecycleFail (!(mountKeys mounts).isPerm (mountKeys oldMounts))
    (context ++ " mounts differ from captured state")
  checkRestoredHost role (inspect.get "HostConfig") (old.get "host_config")
  lifecycleFail (inspectRunning inspect != (old.get "running").truthy)
    (context ++ " running state differs from captured state")

/-! ### Rollback -/

/-- The state of a rollback file, read and decoded. -/
def readState (stateFile : Option String) : Except Exn Json :=
  match stateFile.bind Json.loads with
  | some state => .ok state
  | none => .error ⟨.lifecycle, "cannot read rollback state"⟩

/-- The checks on the whole state: its hash, its version, its deployment. -/
def checkState (config : Config) (state : Json) : Except Exn Unit := do
  failWith .attribute (!state.isMapping) "object has no attribute 'get'"
  lifecycleFail (!isSha256Text (state.get "state_sha256"))
    "rollback state hash is missing or malformed"
  lifecycleFail (state.get "state_sha256" != .str (stateDigest state))
    "rollback state integrity hash does not match"
  lifecycleFail (!(state.get "schema_version").pyEq (.int 1))
    "rollback state schema_version is unsupported"
  lifecycleFail (!(state.get "deployment_id").pyEq (.str (deploymentId config)))
    "rollback state deployment ID does not match"

/-- The role records of a state. -/
def checkRoles (state : Json) : Except Exn Json := do
  let roles := state.get "roles"
  lifecycleFail (!roles.isMapping) "rollback state roles are missing"
  lifecycleFail (roleOrder.any fun role => !roles.hasKey role.text)
    "rollback state roles are missing a deployment role"
  return roles

/-- The members that a role's record must have. -/
def recordKeys : List String :=
  ["name", "image", "command", "labels", "environment", "mounts", "working_dir", "host_config",
    "running"]

/-- The shape of one role's record. -/
def checkRecord (roles : Json) (role : Role) : Except Exn Unit := do
  let old := roles.get role.text
  lifecycleFail (!old.isMapping)
    ("rollback state has no previous " ++ role.text ++ " contract")
  recordKeys.forM fun key =>
    lifecycleFail (!old.hasKey key)
      ("rollback state " ++ role.text ++ " is missing " ++ key)

/-- The shape of the records of a state with at least one container. -/
def checkRecords (roles : Json) : Except Exn Unit := do
  lifecycleFail (roleOrder.any fun role => roles.get role.text == .null)
    "rollback state must contain both previous roles or neither"
  roleOrder.forM (checkRecord roles)

/-- Whether a fabric record dates from before transactions: no specification in it. -/
def isLegacyFabric (fabricState : Json) : Bool :=
  fabricState.isMapping && roleOrder.all fun role =>
    (fabricState.get role.text).isMapping && !(fabricState.get role.text).hasKey "spec"

section Rollback

variable {engine : Engine} {σ : Type} (env : Env σ)

/-- Creating the container of a record, and starting it if it ran. -/
def recreateRole (roles : Json) (role : Role) : Eng engine σ PUnit := do
  let old := roles.get role.text
  let create ← Prog.lift (rollbackCreateArgv role old)
  run env role create
  Prog.when (old.get "running").truthy (run env role (startArgv (old.get "name").pyStr))

/-- `_verify_rollback`. -/
def verifyRollback (roles : Json) : Eng engine σ PUnit :=
  Prog.each roleOrder fun role => do
    let inspect ← inspectRequired env role
    Prog.lift (checkRestored role (roles.get role.text) inspect)

/-- The rollback to a state in which no container was there. -/
def rollbackEmpty (state : Json) : Eng engine σ PUnit := do
  Prog.lift (lifecycleFail (engine.config.deployment.mode != .candidate)
    "empty rollback state is allowed only in candidate mode")
  removeEmptyRollbackTargets env
  if isLegacyFabric (state.get "fabric") then
    removeLegacyCandidateProfiles env (state.get "fabric")
  else restoreFabricState env (state.get "fabric")

/-- The rollback to a state with a container for each role. -/
def rollbackPair (state roles : Json) : Eng engine σ PUnit := do
  Prog.lift (checkRecords roles)
  Prog.each roleOrder fun role =>
    run env role ["docker", "image", "inspect", ((roles.get role.text).get "image").pyStr]
  restoreFabricState env (state.get "fabric")
  removeRollbackTargets env roles
  Prog.each roleOrder (recreateRole env roles)
  verifyRollback env roles

/-- The checks on the file that come before any command: the state and its roles. -/
def loadRollback (config : Config) (stateFile : Option String) : Except Exn (Json × Json) := do
  let state ← readState stateFile
  checkState config state
  let roles ← checkRoles state
  return (state, roles)

/-- `rollback`. -/
def rollback : Eng engine σ PUnit := do
  let s ← Prog.get
  let loaded ← Prog.lift (loadRollback engine.config s.stateFile)
  if roleOrder.all fun role => loaded.2.get role.text == .null then
    rollbackEmpty env loaded.1
  else rollbackPair env loaded.1 loaded.2

end Rollback

/-! ### What a capture records -/

theorem wf_getD {j default : Json} (hj : j.WF) (hd : default.WF) (key : String) :
    (j.getD key default).WF := by
  rw [Json.getD]
  cases hfind : j.find? key with
  | none => exact hd
  | some value => exact Json.wf_of_find? hj hfind

theorem wf_get {j : Json} (hj : j.WF) (key : String) : (j.get key).WF :=
  @wf_getD j .null hj trivial key

theorem wf_listOrEmpty {value : Json} (h : value.WF) : (listOrEmpty value).WF := by
  cases value <;> first | exact h | trivial

theorem wf_memberOr {value default : Json} (h : value.WF) (hd : default.WF) (key : String) :
    (memberOr value key default).WF := by
  rw [memberOr]
  split
  · exact wf_getD h hd key
  · exact hd

theorem nodup_textMembers {labels : Json} (h : labels.WF) :
    ((textMembers labels).map Prod.fst).Nodup := by
  cases labels with
  | obj members =>
    have hkeys : (textMembers (.obj members)).map Prod.fst = Json.keys members := by
      simp [textMembers, Json.members, Json.keys, Function.comp_def]
    rw [hkeys]
    exact h.1
  | _ => exact List.nodup_nil

theorem wf_configMember {inspect : Json} (h : inspect.WF) (key : String) :
    (configMember inspect key).WF := by
  rw [configMember]
  split
  · exact wf_get (wf_get h _) _
  · exact wf_get h _

theorem wf_captureHostConfig {host record : Json} (h : host.WF)
    (hrecord : captureHostConfig host = .ok record) : record.WF := by
  obtain ⟨shm, -, hrecord⟩ := except_bind_eq_ok.1 hrecord
  obtain rfl := Except.ok.inj hrecord
  refine wf_obj (by simp [Json.keys]) ?_
  simp [wf_listOrEmpty, wf_get h, Json.WF]

/-- **A captured record** is a document, and has the name of the container. -/
theorem captureRecord_ok {role : Role} {inspect record : Json} (h : inspect.WF)
    (hrecord : captureRecord role inspect = .ok record) :
    record.WF ∧ record.get "name" = .str (inspectName inspect) := by
  obtain ⟨command, -, hrecord⟩ := except_bind_eq_ok.1 hrecord
  obtain ⟨labels, hlabels, hrecord⟩ := except_bind_eq_ok.1 hrecord
  obtain ⟨hostConfig, hhost, hrecord⟩ := except_bind_eq_ok.1 hrecord
  obtain rfl := Except.ok.inj hrecord
  have hlabelsWF : Json.WF (.obj (labels.map fun p => (p.1, .str p.2))) := by
    rw [inspectLabels] at hlabels
    split at hlabels
    · obtain rfl := Except.ok.inj hlabels
      exact wf_textMapping (nodup_textMembers (wf_configMember h _))
    · cases hlabels
  have hhostWF : hostConfig.WF := by
    refine wf_captureHostConfig ?_ hhost
    split
    · exact wf_get h _
    · simp [Json.WF, Json.WFMembers, Json.keys]
  have hnull : Json.WF .null := trivial
  have hrunning : Json.WF (.bool (inspectRunning inspect)) := trivial
  refine ⟨wf_obj (by simp [Json.keys]) ?_, rfl⟩
  simp [hlabelsWF, hhostWF, wf_listOrEmpty, wf_memberOr (wf_get h _) hnull, wf_get h,
    hrunning]

theorem parseInspect_wf {role : Role} {result : CommandResult} {object : Json}
    (h : parseInspect role result = .ok object) : object.WF := by
  obtain ⟨value, hvalue, hobject⟩ := except_bind_eq_ok.1 h
  have hwf : value.WF := by
    rw [jsonStdout] at hvalue
    cases hloads : Json.loads result.stdout with
    | none =>
      rw [hloads] at hvalue
      cases hvalue
    | some loaded =>
      rw [hloads] at hvalue
      obtain rfl := Except.ok.inj hvalue
      exact Json.wf_loads hloads
  unfold inspectObject at hobject
  split at hobject
  · obtain rfl := Except.ok.inj hobject
    exact hwf
  · obtain rfl := Except.ok.inj hobject
    exact hwf.1
  · cases hobject
  · cases hobject
  · cases hobject

/-! ### What a capture writes is read back -/

section ReadBack

variable (config : Config) (fabric roles : Json)

/-- The members of a state in the order of the file. -/
theorem sortKeys_sealState : (sealState (rollbackState config fabric roles)).sortKeys = .obj [
    ("config_sha256", .str (configSha256 config)),
    ("deployment_id", .str (deploymentId config)),
    ("fabric", fabric.sortKeys),
    ("mode", .str config.deployment.mode.text),
    ("roles", roles.sortKeys),
    ("schema_version", .int 1),
    ("state_sha256", .str (stateDigest (.obj (rollbackState config fabric roles))))] := by
  rfl

/-- The digest is that of the state in any order. -/
theorem stateDigest_sealState :
    stateDigest (sealState (rollbackState config fabric roles)).sortKeys =
      stateDigest (.obj (rollbackState config fabric roles)) := by
  have herase : Json.obj (Json.eraseKey "state_sha256"
      (sealState (rollbackState config fabric roles)).sortKeys.members) =
        (Json.obj (rollbackState config fabric roles)).sortKeys := by
    rw [sortKeys_sealState]
    rfl
  rw [stateDigest, herase, Json.canonical_sortKeys]
  rfl

variable {config fabric roles}

/-- **A captured state passes the checks on the file.** -/
theorem loadRollback_stateText (hfabric : fabric.WF) (hroles : roles.WF)
    (hmapping : roles.isMapping = true) (hkeys : ∀ role : Role, roles.hasKey role.text = true) :
    loadRollback config (some (stateText (sealState (rollbackState config fabric roles)))) =
      .ok ((sealState (rollbackState config fabric roles)).sortKeys, roles.sortKeys) := by
  have hwf : Json.WF (sealState (rollbackState config fabric roles)) := by
    simp [sealState, rollbackState, Json.WF, Json.WFMembers, Json.keys, hfabric, hroles]
  have hread : readState (some (stateText (sealState (rollbackState config fabric roles)))) =
      .ok (sealState (rollbackState config fabric roles)).sortKeys := by
    rw [readState, Option.bind_some, stateText, Json.loads_dumps_newline Json.indented_blank hwf]
  have hstate : checkState config (sealState (rollbackState config fabric roles)).sortKeys =
      .ok () := by
    have hhash : (sealState (rollbackState config fabric roles)).sortKeys.get "state_sha256" =
        .str (stateDigest (.obj (rollbackState config fabric roles))) := by
      rw [sortKeys_sealState]
      rfl
    have hid : (sealState (rollbackState config fabric roles)).sortKeys.get "deployment_id" =
        .str (deploymentId config) := by
      rw [sortKeys_sealState]
      rfl
    rw [checkState, hhash, stateDigest_sealState, hid, stateDigest, isSha256Text_hexDigest,
      bne_self_eq_false, Json.isMapping_sortKeys]
    simp [Json.pyEq]
    rfl
  have hget : (sealState (rollbackState config fabric roles)).sortKeys.get "roles" =
      roles.sortKeys := by
    rw [sortKeys_sealState]
    rfl
  have hmissing : (roleOrder.any fun role => !roles.sortKeys.hasKey role.text) = false := by
    rw [List.any_eq_false]
    intro role _
    simp [Json.hasKey_sortKeys hroles, hkeys role]
  rw [loadRollback, hread]
  refine except_bind_eq_ok.2 ⟨_, rfl, except_bind_eq_ok.2 ⟨(), hstate, ?_⟩⟩
  rw [checkRoles, hget, Json.isMapping_sortKeys, hmapping, hmissing]
  rfl

end ReadBack

end DgxSpark
