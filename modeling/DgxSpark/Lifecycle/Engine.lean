import DgxSpark.Lib.Effect
import DgxSpark.Deploy.Contract
import DgxSpark.Deploy.Remote

/-!
# The deployment engine

`DeploymentEngine` of `lifecycle.py`: an object over a validated configuration and its lock,
whose methods issue remote commands one after the other. A method is a computation over the
engine's state (`DgxSpark.Eng`): the world behind the runners, the contracts of the two
roles, the GID indexes discovered so far, the rollback state file, and the record of every
command issued. The record is the source's own, `self.records`; here an entry also keeps what
the command returned, so that a statement about a run can speak of what the engine saw.

An engine exists only when its constructor accepted the configuration
(`DgxSpark.Engine`): the mode is not `generic`, both contracts render, and the isolation
checks of `_validate_contracts` pass. Contracts are only ever replaced by contracts rendered
from the same configuration and lock, which is why a contract in the state carries its
origin (`DgxSpark.RenderedContract`).

This file has the engine, its primitive steps, and the functions that read one inspect
object: ownership (`DgxSpark.assertOwned`) and the two verifications.
-/

namespace DgxSpark

/-! ### Contracts of an engine -/

/-- A contract together with the rendering it comes from. -/
structure RenderedContract (config : Config) (lock : Lock) (role : Role) where
  contract : Contract
  gidIndex : Option Int
  rendered : renderContract config role (some lock) gidIndex = .ok contract

/-- Rendering fixes what a container is known by: its name, its labels, its image. -/
theorem RenderedContract.identity {config : Config} {lock : Lock} {role : Role}
    (rc : RenderedContract config lock role) :
    rc.contract.container = containerName config role ∧
      rc.contract.deploymentId = deploymentId config ∧
      rc.contract.image = lockImage (some lock) role config := by
  have h := rc.rendered
  simp only [renderContract, except_bind_eq_ok] at h
  obtain ⟨_, -, _, -, _, -, _, -, h⟩ := h
  rw [← Except.ok.inj h]
  exact ⟨rfl, rfl, rfl⟩

/-- `_fail` of the lifecycle module. -/
def lifecycleFail (condition : Bool) (message : String) : Except Exn Unit :=
  failWith .lifecycle condition message

/-- The master and API ports of a mode. -/
def modePorts : Mode → Nat × Nat
  | .production => (29619, 8101)
  | _ => (29621, 18101)

/-- The image checks of `_validate_contracts`, for one role. -/
def validateImage (deployment : Deployment) (role : Role) (image : ContractImage) :
    Except Exn Unit := do
  let reference := image.reference
  let isCandidate := isCandidateRef reference
  let isolated := deployment.mode = .candidate && !isCandidate
  lifecycleFail (isolated && !deployment.allowProductionImagesInCandidate)
    "candidate production image reuse requires explicit authorization"
  lifecycleFail (isolated && reference != strOption image.imageId)
    ("candidate " ++ role.text ++
      " production image reference must equal its locked image ID")
  lifecycleFail (deployment.mode = .production && isCandidate)
    ("production " ++ role.text ++ " image reference must not be candidate-namespaced")
  requiredImageLabels.forM fun key =>
    lifecycleFail ((image.labels.get? key).all (· == ""))
      (role.text ++ " image label " ++ key ++ " is empty")

/-- `_validate_contracts`. -/
def validateContracts (config : Config) (contract : Role → Contract) : Except Exn Unit := do
  let deployment := config.deployment
  let ports := modePorts deployment.mode
  lifecycleFail (deployment.masterPort != ports.1) "master port does not match mode isolation"
  lifecycleFail (deployment.apiPort != ports.2) "API port does not match mode isolation"
  lifecycleFail ((contract .worker).container == (contract .head).container)
    "head and worker container names collide"
  lifecycleFail ((contract .head).apiPort != some deployment.apiPort)
    "head contract API port drifted"
  lifecycleFail (contract .worker).apiPort.isSome "worker contract must not expose an API port"
  roleOrder.forM fun role => validateImage deployment role (contract role).image

/-- **An engine**: a configuration and a lock that the constructor accepted. -/
structure Engine where
  config : Config
  lock : Lock
  mode_ne : config.deployment.mode ≠ .generic
  contracts : ∀ role, RenderedContract config lock role
  valid : validateContracts config (fun role => (contracts role).contract) = .ok ()

/-- A contract rendered from a configuration and a lock, under a GID override. -/
def renderFor (config : Config) (lock : Lock) (role : Role) (gidIndex : Option Int) :
    Except Exn (RenderedContract config lock role) :=
  match h : renderContract config role (some lock) gidIndex with
  | .ok contract => .ok ⟨contract, gidIndex, h⟩
  | .error e => .error e

/-- `DeploymentEngine.__init__`. -/
def Engine.build (config : Config) (lock : Lock) : Except Exn Engine :=
  if hmode : config.deployment.mode = .generic then
    .error ⟨.lifecycle, "lifecycle requires production or candidate mode"⟩
  else
    match renderFor config lock .worker none with
    | .error e => .error e
    | .ok worker =>
      match renderFor config lock .head none with
      | .error e => .error e
      | .ok head =>
        let contracts := fun role => match role with | .worker => worker | .head => head
        match hvalid : validateContracts config fun role => (contracts role).contract with
        | .error e => .error e
        | .ok () => .ok ⟨config, lock, hmode, contracts, hvalid⟩

/-- An engine over the candidate deployment. -/
def candidateEngine : Engine :=
  (Engine.build candidateConfig candidateLock).toOption.get (by decide +kernel)

/-! ### State and steps -/

/-- One issued command, with what `_remote` gave back for it. -/
structure OperationRecord where
  role : Role
  argv : List String
  outcome : Except Exn CommandResult

/-- The state of an engine in a world. -/
structure EngineState (engine : Engine) (σ : Type) where
  world : σ
  records : List OperationRecord
  gidOverrides : Role → Option Int
  contracts : ∀ role, RenderedContract engine.config engine.lock role
  /-- the content of the rollback state file, if it exists -/
  stateFile : Option String

/-- A method of the engine. -/
abbrev Eng (engine : Engine) (σ : Type) (α : Type) : Type :=
  Prog (EngineState engine σ) Exn α

/-- The state in which an engine starts. -/
def Engine.start (engine : Engine) {σ : Type} (world : σ) (stateFile : Option String) :
    EngineState engine σ where
  world := world
  records := []
  gidOverrides := fun _ => none
  contracts := engine.contracts
  stateFile := stateFile

section Steps

variable {engine : Engine} {σ : Type} (env : Env σ)

/-- `_remote`: one command on a node, recorded. -/
def remote (role : Role) (argv : List String) : Eng engine σ CommandResult :=
  Prog.ofFn fun s =>
    let step := execRemote env engine.config.deployment role argv s.world
    (step.1, { s with world := step.2, records := s.records ++ [⟨role, argv, step.1⟩] })

/-- `_scp`: one copy. It is not recorded. -/
def scp (argv : List String) : Eng engine σ CommandResult :=
  Prog.ofFn fun s =>
    let step := execScp env argv s.world
    (step.1, { s with world := step.2 })

/-- `self.contracts[role]`. -/
def contractFor (role : Role) : Eng engine σ Contract :=
  Prog.ofFn fun s => (.ok (s.contracts role).contract, s)

/-- A result that `except FabricError` turns into a `LifecycleError`. -/
def fabricAsLifecycle {α : Type} (x : Eng engine σ α) : Eng engine σ α :=
  tryCatch x fun e => throw (if e.isFabric then ⟨.lifecycle, e.message⟩ else e)

/-- `try … except LifecycleError`. -/
def catchLifecycle {α : Type} (x : Eng engine σ α) (h : Exn → Eng engine σ α) : Eng engine σ α :=
  tryCatch x fun e => if e.isLifecycle then h e else throw e

end Steps

/-! ### Reading inspect objects -/

/-- `_inspect_object`. -/
def inspectObject (value : Json) (context : String) : Except Exn Json :=
  match value with
  | .obj kvs => .ok (.obj kvs)
  | .arr [.obj kvs] => .ok (.obj kvs)
  | .arr [_] => .error ⟨.lifecycle, context ++ " must be an object"⟩
  | .arr _ => .error ⟨.lifecycle, context ++ " must identify exactly one object"⟩
  | _ => .error ⟨.lifecycle, context ++ " must be an object"⟩

/-- `_json_stdout`. -/
def jsonStdout (result : CommandResult) (context : String) : Except Exn Json :=
  match Json.loads result.stdout with
  | some value => .ok value
  | none => .error ⟨.lifecycle, context ++ " returned non-JSON output"⟩

/-- A member of `Config`, or of the object itself when it has no `Config` mapping. -/
def configMember (inspect : Json) (key : String) : Json :=
  let config := inspect.get "Config"
  if config.isMapping then config.get key else inspect.get key

/-- Text labels of a mapping: `{str(key): str(value)}`. -/
def textMembers (labels : Json) : List (String × String) :=
  labels.members.map fun p => (p.1, p.2.pyStr)

/-- `_labels`. -/
def inspectLabels (inspect : Json) (context : String) : Except Exn (List (String × String)) :=
  let labels := configMember inspect "Labels"
  if labels.isMapping then .ok (textMembers labels)
  else .error ⟨.lifecycle, context ++ " is missing Docker labels"⟩

/-- The nonempty texts of a list of nothing else. -/
def nonemptyTexts : List Json → Option (List String)
  | [] => some []
  | .str s :: items => if s = "" then none else (nonemptyTexts items).map (s :: ·)
  | _ :: _ => none

/-- `_command`. -/
def inspectCommand (inspect : Json) (context : String) : Except Exn (List String) :=
  match configMember inspect "Cmd" with
  | .arr items =>
    match nonemptyTexts items with
    | some command => .ok command
    | none => .error ⟨.lifecycle, context ++ " is missing an exact command"⟩
  | _ => .error ⟨.lifecycle, context ++ " is missing an exact command"⟩

/-- `str(inspect.get("Name", "")).lstrip("/")`. -/
def inspectName (inspect : Json) : String :=
  Text.lstripChar '/' (inspect.getD "Name" (.str "")).pyStr

/-- `str(inspect.get("Image", ""))`. -/
def inspectImage (inspect : Json) : String :=
  (inspect.getD "Image" (.str "")).pyStr

/-- Whether the `State` of an inspect object says that it is running. -/
def inspectRunning (inspect : Json) : Bool :=
  let state := inspect.get "State"
  state.isMapping && (state.get "Running").truthy

def deploymentIdLabel : String := "com.dgx-spark.deployment_id"

def roleLabel : String := "com.dgx-spark.role"

def ownerLabel : String := "com.dgx-spark.owner"

/-- The image of a role before deployments had identifiers. -/
def legacyImage : Role → String
  | .head => "sha256:53c78475720e2561cf3245a9244f574e9db0fb0637c57e84a390a2c096122aa3"
  | .worker => "sha256:828171dd2c4970777993837b7d5234adf905a9ddc20503cd392a95c74b42ada8"

/-- Labels of the current deployment and role. -/
def currentOwner (contract : Contract) (role : Role) (labels : List (String × String)) : Bool :=
  labels.lookup deploymentIdLabel == some contract.deploymentId &&
    labels.lookup roleLabel == some role.text

/-- Labels of a production deployment from before identifiers. -/
def legacyOwner (mode : Mode) (role : Role) (labels : List (String × String)) (image : String) :
    Bool :=
  mode = .production && labels.lookup ownerLabel == some "deepseek-v4-flash-dgx-spark" &&
    labels.lookup roleLabel == some role.text && image == legacyImage role

/-- A production container of the locked image with all the locked labels. -/
def lockOwner (mode : Mode) (contract : Contract) (role : Role) (labels : List (String × String))
    (image : String) : Bool :=
  mode = .production && labels.lookup roleLabel == some role.text &&
    image == strOption contract.image.imageId &&
    contract.image.labels.members.all fun p => labels.lookup p.1 == some p.2

/-- `_assert_owned`: the name of the contract, and one of the three kinds of ownership. -/
def assertOwned (mode : Mode) (contract : Contract) (role : Role) (inspect : Json) :
    Except Exn Unit := do
  let labels ← inspectLabels inspect (role.text ++ " container")
  lifecycleFail (inspectName inspect != contract.container)
    ("refusing to mutate unexpected " ++ role.text ++ " container")
  lifecycleFail (!(currentOwner contract role labels ||
      legacyOwner mode role labels (inspectImage inspect) ||
      lockOwner mode contract role labels (inspectImage inspect)))
    ("refusing to mutate unowned " ++ role.text ++ " container")

/-- `value in {…}` for a set of texts: a list or a mapping cannot be looked up. -/
def inTexts (value : Json) (texts : List String) : Except Exn Bool :=
  if !value.hashable then .error ⟨.type, "unhashable type"⟩
  else .ok (texts.any fun t => value == .str t)

/-- `a or b`. -/
def orElse (a b : Json) : Json :=
  if a.truthy then a else b

/-- `verify_image_inspect`. -/
def verifyImageInspect (inspect : Json) (expected : ContractImage) (role : Role) :
    Except Exn Unit := do
  let imageId := orElse (orElse (inspect.get "Id") (inspect.get "ID")) (inspect.get "Image")
  lifecycleFail (!imageId.pyEq (Json.ofText? expected.imageId))
    (role.text ++ " image ID does not match deployment lock")
  let architecture := orElse (inspect.get "Architecture") (inspect.get "Os")
  let known ← if architecture == .null then .ok true
    else inTexts architecture ["linux/arm64", "arm64"]
  lifecycleFail (!known) (role.text ++ " image architecture is not linux/arm64")
  let actual ← inspectLabels inspect (role.text ++ " image")
  requiredImageLabels.forM fun key =>
    lifecycleFail (actual.lookup key != expected.labels.get? key)
      (role.text ++ " image label " ++ key ++ " does not match deployment lock")

/-- The variables of an `Env` list: of several settings of one name the last counts. -/
def environmentMap (items : List Json) : List (String × String) :=
  (items.filterMap fun item =>
    match item with
    | .str s => Text.cut '=' s
    | _ => none).reverse

/-- `f"\x7bSource\x7d:\x7bDestination\x7d"` of the mounts that are mappings. -/
def mountStrings (mounts : List Json) : List String :=
  (mounts.filter Json.isMapping).map fun mount =>
    (mount.get "Source").pyStr ++ ":" ++ (mount.get "Destination").pyStr

/-- The destination at which a contract's model is mounted. -/
def modelDestination (contract : Contract) : String :=
  if (PosixPath.parse contract.modelRoot).name = (PosixPath.parse contract.modelPath).name
  then contract.modelPath else "/models"

/-- `verify_container_inspect`. -/
def verifyContainerInspect (inspect : Json) (contract : Contract) : Except Exn Unit := do
  let role := contract.role.text
  let context := role ++ " container"
  lifecycleFail (inspectName inspect != contract.container)
    (context ++ " name is not owned by this contract")
  let known ← inTexts (inspect.get "Image")
    [strOption contract.image.imageId, contract.image.reference]
  lifecycleFail (!known) (context ++ " image does not match deployment lock")
  let actualLabels ← inspectLabels inspect context
  requiredImageLabels.forM fun key =>
    lifecycleFail (actualLabels.lookup key != contract.image.labels.get? key)
      (context ++ " label " ++ key ++ " does not match lock")
  lifecycleFail (actualLabels.lookup deploymentIdLabel != some contract.deploymentId)
    (context ++ " deployment ownership label is wrong")
  lifecycleFail (actualLabels.lookup roleLabel != some role)
    (context ++ " role ownership label is wrong")
  let actualCommand ← inspectCommand inspect context
  lifecycleFail (actualCommand != contract.serviceArgv)
    (context ++ " command differs from rendered command lock")
  let items ← match configMember inspect "Env" with
    | .arr items => .ok items
    | _ => .error ⟨.lifecycle, context ++ " environment is unavailable"⟩
  contract.environment.forM fun p =>
    lifecycleFail ((environmentMap items).lookup p.1 != some p.2)
      (role ++ " environment " ++ p.1 ++ " differs from contract")
  lifecycleFail (!inspectRunning inspect) (context ++ " is not running")
  let mounts ← match inspect.get "Mounts" with
    | .arr mounts => .ok mounts
    | _ => .error ⟨.lifecycle, context ++ " mounts are unavailable"⟩
  lifecycleFail (contract.modelRoot != "" && contract.modelPath != "" &&
      !(mountStrings mounts).contains (contract.modelRoot ++ ":" ++ modelDestination contract))
    (role ++ " model mount is missing or points at the wrong root")

/-! ### Inspecting -/

section Inspect

variable {engine : Engine} {σ : Type} (env : Env σ)

/-- The command that inspects a container. -/
def inspectArgv (name : String) : List String :=
  ["docker", "container", "inspect", "--format", "\x7b\x7bjson .\x7d\x7d", name]

/-- Whether the text of a failed inspect says that there is no such container. -/
def saysMissing (message : String) : Bool :=
  Text.contains message "No such object" ||
    Text.contains (Text.lower message) "no such container" ||
    Text.contains (Text.lower message) "not found"

/-- The object that an inspect command printed. -/
def parseInspect (role : Role) (result : CommandResult) : Except Exn Json := do
  let value ← jsonStdout result (role.text ++ " container inspect")
  inspectObject value (role.text ++ " container inspect")

/-- `_inspect(role, allow_missing=True)`. -/
def inspectOrMissing (role : Role) : Eng engine σ (Option Json) := do
  let contract ← contractFor role
  let result ← catchLifecycle
    (do
      let result ← remote env role (inspectArgv contract.container)
      return some result)
    fun e => if saysMissing e.message then pure none else throw e
  match result with
  | none => return none
  | some result => do
    let object ← Prog.lift (parseInspect role result)
    return some object

/-- `_inspect(role)`. -/
def inspectRequired (role : Role) : Eng engine σ Json := do
  let contract ← contractFor role
  let result ← remote env role (inspectArgv contract.container)
  Prog.lift (parseInspect role result)

end Inspect

end DgxSpark
