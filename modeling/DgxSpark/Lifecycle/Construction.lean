import DgxSpark.Deploy.Plan
import DgxSpark.Deploy.Validate
import DgxSpark.Lifecycle.Engine

/-!
# From accepted inputs to an engine

What `validate` and `load_deployment_lock` have accepted is checked again wherever it is used:
by `fabric_spec`, by the renderer, by `_validate_contracts`, by `ssh_argv`. This file says which
of the later checks can still fail (`DgxSpark.Ready`), and that nothing else can
(`DgxSpark.executable_iff_ready`): the names of the SSH users, which validation never looks at;
the MTU under `f1`; and a profile whose JSON texts or model path are not the reviewed ones.
-/

namespace DgxSpark

/-! ### The lock of a loaded document -/

/-- A lock is the images of a loaded document. -/
def LockOf (value : Json) (lock : Lock) : Prop :=
  ∀ role, roleImage value role = .obj [
    ("reference", .str (lock.image role).reference),
    ("image_id", .str (lock.image role).imageId),
    ("labels", (lock.image role).labels.toJson)]

/-- **What loading promises about the image of a role.** -/
structure ValidImage (deployment : Deployment) (role : Role) (image : LockImage) : Prop where
  isRef : isImageRef image.reference = true
  namespaces : namespaceRule deployment role image.reference image.imageId = .ok ()
  labels : ∀ key ∈ requiredImageLabels, ∃ value, image.labels.get? key = some value ∧ value ≠ ""

/-- Labels that pass are non-empty texts. -/
theorem validateLabels_filled {isAlnum : Char → Bool} {labels : Json} {role : Role}
    {normalized : List (String × String)}
    (h : validateLabels isAlnum labels role = .ok normalized) :
    ∀ key ∈ requiredImageLabels, ∃ value, normalized.lookup key = some value ∧ value ≠ "" := by
  obtain ⟨_, hexact, h⟩ := except_bind_eq_ok.1 h
  obtain ⟨hall, -⟩ := exactKeys_ok_iff.1 hexact
  obtain ⟨normalized', hkeys, h⟩ := except_bind_eq_ok.1 h
  obtain ⟨hfilled, rfl⟩ := (validateLabelKeys_ok_iff hall).1 hkeys
  obtain ⟨_, -, h⟩ := except_bind_eq_ok.1 h
  obtain ⟨_, -, h⟩ := except_bind_eq_ok.1 h
  obtain ⟨_, -, h⟩ := except_bind_eq_ok.1 h
  obtain rfl := Except.ok.inj h
  intro key hkey
  have hmem : key ∈ allowedImageLabels := List.mem_append_left _ hkey
  obtain ⟨text, htext, hne, -⟩ := hfilled key hmem
  exact ⟨_, lookup_labelText labels hmem, by simpa [labelText, htext, Json.asStr?] using hne⟩

theorem str_map_injective : Function.Injective
    (List.map fun p : String × String => (p.1, Json.str p.2)) :=
  List.map_injective_iff.2 fun p q h => by
    obtain ⟨h₁, h₂⟩ := Prod.mk.inj h
    exact Prod.ext h₁ (Json.str.inj h₂)

/-- What loading an image leaves in a lock. -/
theorem validImage_of_loadImage {isAlnum : Char → Bool} {deployment : Deployment} {images : Json}
    {role : Role} {image : LockImage}
    (h : loadImage isAlnum deployment images role = .ok (.obj [
      ("reference", .str image.reference),
      ("image_id", .str image.imageId),
      ("labels", image.labels.toJson)])) : ValidImage deployment role image := by
  obtain ⟨_, -, h⟩ := except_bind_eq_ok.1 h
  obtain ⟨_, -, h⟩ := except_bind_eq_ok.1 h
  obtain ⟨_, href, h⟩ := except_bind_eq_ok.1 h
  obtain ⟨_, -, h⟩ := except_bind_eq_ok.1 h
  obtain ⟨_, -, h⟩ := except_bind_eq_ok.1 h
  obtain ⟨_, hrule, h⟩ := except_bind_eq_ok.1 h
  obtain ⟨_, -, h⟩ := except_bind_eq_ok.1 h
  obtain ⟨normalized, hnormalized, h⟩ := except_bind_eq_ok.1 h
  have hobj := Json.obj.inj (Except.ok.inj h)
  simp only [List.cons.injEq, Prod.mk.injEq, Json.str.injEq, true_and, and_true] at hobj
  obtain ⟨hreference, himageId, hlabels⟩ := hobj
  have hmembers : normalized = image.labels.members := str_map_injective (Json.obj.inj hlabels)
  refine ⟨?_, ?_, fun key hkey => ?_⟩
  · rw [← hreference]
    exact Eq.mp (Bool.not_eq_false' _) (lockFail_ok.1 href)
  · rw [← hreference, ← himageId]
    exact hrule
  · rw [Labels.get?, ← hmembers]
    exact validateLabels_filled hnormalized key hkey

/-- What a loaded document has under its images. -/
theorem images_of_load {isAlnum : Char → Bool} {content : String} {config : Config}
    {value : Json} (hload : loadDeploymentLock isAlnum content config = .ok value) :
    ∃ images worker head,
      loadImage isAlnum config.deployment images .worker = .ok worker ∧
      loadImage isAlnum config.deployment images .head = .ok head ∧
      value.get "images" = .obj [("head", head), ("worker", worker)] := by
  rw [loadDeploymentLock] at hload
  split at hload
  case h_1 members _ =>
    have h := hload
    obtain ⟨_, -, h⟩ := except_bind_eq_ok.1 h
    obtain ⟨_, -, h⟩ := except_bind_eq_ok.1 h
    obtain ⟨_, -, h⟩ := except_bind_eq_ok.1 h
    obtain ⟨_, -, h⟩ := except_bind_eq_ok.1 h
    obtain ⟨_, -, h⟩ := except_bind_eq_ok.1 h
    obtain ⟨_, -, h⟩ := except_bind_eq_ok.1 h
    obtain ⟨_, -, h⟩ := except_bind_eq_ok.1 h
    obtain ⟨_, -, h⟩ := except_bind_eq_ok.1 h
    obtain ⟨_, -, h⟩ := except_bind_eq_ok.1 h
    obtain ⟨images, -, h⟩ := except_bind_eq_ok.1 h
    obtain ⟨head, hhead, h⟩ := except_bind_eq_ok.1 h
    obtain ⟨worker, hworker, h⟩ := except_bind_eq_ok.1 h
    obtain rfl := Except.ok.inj h
    refine ⟨images, worker, head, hworker, hhead, ?_⟩
    rw [Json.get, Json.find?, Json.members, Json.lookup_setKey, if_neg (by decide),
      Json.lookup_setKey, if_neg (by decide), Json.lookup_setKey, if_pos rfl]
    rfl
  case h_2 => exact absurd hload (by simp)
  case h_3 => exact absurd hload (by simp)

/-- The images of a loaded lock. -/
theorem validImage_of_load {isAlnum : Char → Bool} {content : String} {config : Config}
    {value : Json} {lock : Lock} (hload : loadDeploymentLock isAlnum content config = .ok value)
    (hlock : LockOf value lock) (role : Role) :
    ValidImage config.deployment role (lock.image role) := by
  obtain ⟨images, worker, head, hworker, hhead, himages⟩ := images_of_load hload
  have hrole := hlock role
  rw [roleImage, himages] at hrole
  cases role with
  | worker =>
    refine validImage_of_loadImage (hworker.trans (congrArg Except.ok ?_))
    simpa [Role.text] using hrole
  | head =>
    refine validImage_of_loadImage (hhead.trans (congrArg Except.ok ?_))
    simpa [Role.text] using hrole

/-! ### What can still fail -/

/-- **What the later checks need beyond validation.** -/
structure Ready (config : Config) : Prop where
  users : ∀ role, isSafeUser (config.deployment.settings role).sshUser = true
  mtu : config.deployment.fabricProfile = .f1 → config.deployment.roceMtu = f1Mtu
  modelPath : config.profile.model.modelPath = defaultModelContainerPath
  reasoning : (Json.loads config.profile.service.reasoningConfigJson).isSome = true
  draft : (Json.loads config.profile.service.draftConfigJson).isSome = true
  compilation : (Json.loads config.profile.service.compilationConfigJson).isSome = true

/-- **Everything that executing a deployment begins with succeeds.** -/
structure Executable (config : Config) (lock : Lock) : Prop where
  specs : ∀ role, ∃ spec, fabricSpec config role = .ok spec
  contracts : ∀ role, ∃ contract, renderContract config role (some lock) none = .ok contract
  engine : ∃ engine, Engine.build config lock = .ok engine
  plan : ∃ plan, renderPlan config (some lock) = .ok plan
  ssh : ∀ role (command : List String), command ≠ [] → "" ∉ command →
    ∃ argv, sshArgv (sshHost config.deployment role) (config.deployment.settings role).sshUser
      config.deployment.sshPort config.deployment.sshKnownHostsFile command
      (identityFile config.deployment) = .ok argv
  scp : ∀ role source destination, source ≠ "" → destination ≠ "" →
    '\x00' ∉ source.toList → '\x00' ∉ destination.toList →
    ∃ argv, scpArgv source (sshHost config.deployment role)
      (config.deployment.settings role).sshUser config.deployment.sshPort
      config.deployment.sshKnownHostsFile destination (identityFile config.deployment) = .ok argv

theorem valueFail_ok {condition : Bool} {message : String} {u : Unit} :
    valueFail condition message = .ok u ↔ condition = false :=
  failWith_eq_ok

theorem sshHost_eq {deployment : Deployment} (h : ValidDeployment deployment) (role : Role) :
    sshHost deployment role = (deployment.settings role).sshHost :=
  if_neg (h.sshHost role).1

/-- With validated settings, only the user can be wrong. -/
theorem sshArgv_ok_iff {deployment : Deployment} (h : ValidDeployment deployment) (role : Role)
    {command : List String} (hne : command ≠ []) (hempty : "" ∉ command) :
    (∃ argv, sshArgv (sshHost deployment role) (deployment.settings role).sshUser
      deployment.sshPort deployment.sshKnownHostsFile command (identityFile deployment) =
        .ok argv) ↔ isSafeUser (deployment.settings role).sshUser = true := by
  constructor
  · rintro ⟨_, hargv⟩
    obtain ⟨_, -, hargv⟩ := except_bind_eq_ok.1 hargv
    obtain ⟨_, huser, -⟩ := except_bind_eq_ok.1 hargv
    exact Eq.mp (Bool.not_eq_false' _) (valueFail_ok.1 huser)
  · intro huser
    have hport := h.sshPort
    refine ⟨_, except_bind_eq_ok.2 ⟨(), valueFail_ok.2 ?_, except_bind_eq_ok.2 ⟨(),
      valueFail_ok.2 ?_, except_bind_eq_ok.2 ⟨(), valueFail_ok.2 ?_, except_bind_eq_ok.2 ⟨(),
      valueFail_ok.2 ?_, except_bind_eq_ok.2 ⟨(), valueFail_ok.2 ?_, except_bind_eq_ok.2 ⟨(),
      valueFail_ok.2 ?_, rfl⟩⟩⟩⟩⟩⟩⟩
    · rw [sshHost_eq h, Bool.not_eq_false']
      exact (h.sshHost role).2
    · rw [Bool.not_eq_false']
      exact huser
    · simp only [gt_iff_lt, Bool.or_eq_false_iff, decide_eq_false_iff_not]
      omega
    · rw [Bool.not_eq_false']
      exact h.knownHosts
    · rw [← Bool.not_eq_true, Option.any_eq_true]
      rintro ⟨path, hpath, hbad⟩
      have := h.identity path (Option.filter_eq_some_iff.1 hpath).1
      simp [this] at hbad
    · simp [hne, hempty]

theorem scpArgv_ok_iff {deployment : Deployment} (h : ValidDeployment deployment) (role : Role)
    {source destination : String} (hs : source ≠ "") (hd : destination ≠ "")
    (hs' : '\x00' ∉ source.toList) (hd' : '\x00' ∉ destination.toList) :
    (∃ argv, scpArgv source (sshHost deployment role) (deployment.settings role).sshUser
      deployment.sshPort deployment.sshKnownHostsFile destination (identityFile deployment) =
        .ok argv) ↔ isSafeUser (deployment.settings role).sshUser = true := by
  rw [← @sshArgv_ok_iff _ h role ["true"] (by simp) (by simp)]
  constructor
  · rintro ⟨_, hargv⟩
    obtain ⟨_, -, hargv⟩ := except_bind_eq_ok.1 hargv
    obtain ⟨ssh, hssh, -⟩ := except_bind_eq_ok.1 hargv
    exact ⟨ssh, hssh⟩
  · rintro ⟨ssh, hssh⟩
    refine ⟨_, except_bind_eq_ok.2 ⟨(), valueFail_ok.2 ?_, except_bind_eq_ok.2 ⟨ssh, hssh, rfl⟩⟩⟩
    simp [hs, hd, hs', hd']

/-! ### The fabric -/

theorem fabricFail_ok {condition : Bool} {message : String} {u : Unit} :
    fabricFail condition message = .ok u ↔ condition = false :=
  failWith_eq_ok

/-- The peer that `f1` is fixed to lies in the network of its cidr. -/
theorem contains_peer {interface : Ip.Interface} {role : Role}
    (hip : some interface.ip = Ip.parse (f1Addresses role).1) (hlength : interface.prefixLength = 24) :
    ∃ peer, Ip.parse (f1Addresses role).2 = some peer ∧ interface.contains peer = true := by
  obtain ⟨ip, prefixLength⟩ := interface
  obtain rfl : prefixLength = 24 := hlength
  cases role with
  | head =>
    obtain rfl : ip = ⟨false, 3232261130⟩ :=
      Option.some.inj (hip.trans (by decide : Ip.parse "192.168.100.10" = some _))
    exact ⟨⟨false, 3232261131⟩, by decide, by decide⟩
  | worker =>
    obtain rfl : ip = ⟨false, 3232261131⟩ :=
      Option.some.inj (hip.trans (by decide : Ip.parse "192.168.100.11" = some _))
    exact ⟨⟨false, 3232261130⟩, by decide, by decide⟩

/-- With a validated fabric, only the MTU can be wrong. -/
theorem checkF1_ok_iff {deployment : Deployment} {role : Role} (h : ValidF1 deployment role) :
    checkF1 (specValues deployment role) = .ok () ↔ deployment.roceMtu = f1Mtu := by
  constructor
  · intro hcheck
    obtain ⟨_, -, hcheck⟩ := except_bind_eq_ok.1 hcheck
    obtain ⟨_, -, hcheck⟩ := except_bind_eq_ok.1 hcheck
    obtain ⟨_, -, hcheck⟩ := except_bind_eq_ok.1 hcheck
    obtain ⟨_, -, hcheck⟩ := except_bind_eq_ok.1 hcheck
    obtain ⟨_, hmtu, -⟩ := except_bind_eq_ok.1 hcheck
    rw [fabricFail_ok, bne_eq_false_iff_eq] at hmtu
    exact hmtu
  · intro hmtu
    obtain ⟨raw, interface, hraw, hparse, hip, hlength⟩ := h.network
    obtain ⟨peer, hpeer, hcontains⟩ := contains_peer hip hlength
    obtain ⟨connection, hconnection, -⟩ := h.connection
    have hcidr : strOption (specValues deployment role).cidr = raw := by
      rw [specValues, hraw]
      rfl
    have hpeerText : strOption (specValues deployment role).peer = (f1Addresses role).2 := by
      rw [specValues, h.peer]
      rfl
    have hgid : (specValues deployment role).gidIndex.any
        (fun index => !(decide (0 ≤ index) && decide (index ≤ 255))) = false := by
      rw [← Bool.not_eq_true, Option.any_eq_true]
      rintro ⟨n, hn, hlarge⟩
      have hrange := h.gid n hn
      simp [hrange.1, hrange.2] at hlarge
    rw [checkF1, hcidr, hpeerText, hparse, hpeer]
    refine except_bind_eq_ok.2 ⟨(), fabricFail_ok.2 ?_, except_bind_eq_ok.2 ⟨(),
      fabricFail_ok.2 ?_, except_bind_eq_ok.2 ⟨(), fabricFail_ok.2 ?_, except_bind_eq_ok.2 ⟨(),
      fabricFail_ok.2 ?_, except_bind_eq_ok.2 ⟨(), fabricFail_ok.2 ?_, ?_⟩⟩⟩⟩⟩
    · rw [bne_eq_false_iff_eq]
      exact h.netIface
    · rw [bne_eq_false_iff_eq]
      exact h.hca
    · rw [specValues, hraw, h.peer]
      rfl
    · rw [specValues, hconnection]
      rfl
    · rw [bne_eq_false_iff_eq]
      exact hmtu
    · dsimp only
      rw [hlength, hcontains, hgid]
      rfl

/-- The specification of a role. -/
theorem fabricSpec_ok_iff {decimals : Decimals} {repository : PosixPath} {values : EnvValues}
    {profile : Profile} {config : Config}
    (hconfig : validate decimals repository values profile = .ok config) (role : Role) :
    (∃ spec, fabricSpec config role = .ok spec) ↔
      (config.deployment.fabricProfile = .f1 → config.deployment.roceMtu = f1Mtu) := by
  have hcheck : (∃ spec, fabricSpec config role = .ok spec) ↔
      checkSpec (specValues config.deployment role) = .ok () := by
    constructor
    · rintro ⟨_, h⟩
      obtain ⟨_, h, -⟩ := except_bind_eq_ok.1 h
      exact h
    · exact fun h => ⟨_, except_bind_eq_ok.2 ⟨(), h, rfl⟩⟩
  rw [hcheck, checkSpec]
  by_cases hf1 : config.deployment.fabricProfile = .f1
  · have hprofile : (specValues config.deployment role).profile = .f1 := hf1
    rw [if_pos hprofile, checkF1_ok_iff (validate_f1 hconfig hf1 role)]
    exact ⟨fun h _ => h, fun h => h hf1⟩
  · have hprofile : (specValues config.deployment role).profile ≠ .f1 := hf1
    rw [if_neg hprofile]
    exact ⟨fun _ h => absurd h hf1, fun _ => rfl⟩

/-! ### Rendering -/

theorem recanonical_ok_iff (text : String) :
    (∃ s, recanonical text = .ok s) ↔ (Json.loads text).isSome = true := by
  rw [recanonical]
  cases Json.loads text <;> simp

theorem modelPath_ok_iff {config : Config}
    (h : config.deployment.modelContainerPath = defaultModelContainerPath) :
    (∃ path, modelPath config = .ok path) ↔
      config.profile.model.modelPath = defaultModelContainerPath := by
  rw [modelPath, h]
  split_ifs with hne
  · exact ⟨fun ⟨_, h⟩ => absurd h (by simp), fun h => absurd h.symm hne⟩
  · exact ⟨fun _ => (not_not.1 hne).symm, fun _ => ⟨_, rfl⟩⟩

theorem renderServiceArgv_ok_iff {config : Config} {role : Role}
    (h : config.deployment.modelContainerPath = defaultModelContainerPath) :
    (∃ argv, renderServiceArgv config role = .ok argv) ↔
      config.profile.model.modelPath = defaultModelContainerPath ∧
      (Json.loads config.profile.service.reasoningConfigJson).isSome = true ∧
      (Json.loads config.profile.service.draftConfigJson).isSome = true ∧
      (Json.loads config.profile.service.compilationConfigJson).isSome = true := by
  rw [← modelPath_ok_iff h, ← recanonical_ok_iff, ← recanonical_ok_iff, ← recanonical_ok_iff]
  constructor
  · rintro ⟨_, hargv⟩
    obtain ⟨reasoning, hreasoning, hargv⟩ := except_bind_eq_ok.1 hargv
    obtain ⟨draft, hdraft, hargv⟩ := except_bind_eq_ok.1 hargv
    obtain ⟨compilation, hcompilation, hargv⟩ := except_bind_eq_ok.1 hargv
    obtain ⟨path, hpath, -⟩ := except_bind_eq_ok.1 hargv
    exact ⟨⟨path, hpath⟩, ⟨reasoning, hreasoning⟩, ⟨draft, hdraft⟩, ⟨compilation, hcompilation⟩⟩
  · rintro ⟨⟨path, hpath⟩, ⟨reasoning, hreasoning⟩, ⟨draft, hdraft⟩, ⟨compilation, hcompilation⟩⟩
    exact ⟨_, except_bind_eq_ok.2 ⟨_, hreasoning, except_bind_eq_ok.2 ⟨_, hdraft,
      except_bind_eq_ok.2 ⟨_, hcompilation, except_bind_eq_ok.2 ⟨_, hpath, rfl⟩⟩⟩⟩⟩

theorem mapM_ok {α β ε : Type} {f : α → Except ε β} {xs : List α}
    (h : ∀ x ∈ xs, ∃ y, f x = .ok y) : ∃ ys, xs.mapM f = .ok ys := by
  induction xs with
  | nil => exact ⟨[], rfl⟩
  | cons x xs ih =>
    obtain ⟨⟨y, hy⟩, hxs⟩ := List.forall_mem_cons.1 h
    obtain ⟨ys, hys⟩ := ih hxs
    refine ⟨y :: ys, ?_⟩
    rw [List.mapM_cons, hy, hys]
    rfl

/-- With the labels of a loaded lock, a container command is rendered when its service is. -/
theorem renderContainerArgv_ok {config : Config} {role : Role} {lock : Lock}
    {gidIndex : Option Int} {serviceArgv : List String} {path : String}
    (hlabels : ∀ key ∈ requiredImageLabels,
      ∃ value, (lock.image role).labels.get? key = some value ∧ value ≠ "")
    (hpath : modelPath config = .ok path)
    (hservice : renderServiceArgv config role = .ok serviceArgv) :
    ∃ argv, renderContainerArgv config role (some lock) gidIndex = .ok argv := by
  obtain ⟨required, hrequired⟩ := @mapM_ok _ _ _ (fun key => do
    let value ← labelValue (lockImage (some lock) role config).labels key
    return ["--label", key ++ "=" ++ value]) requiredImageLabels fun key hkey => by
      obtain ⟨value, hvalue, -⟩ := hlabels key hkey
      refine ⟨_, except_bind_eq_ok.2 ⟨value, ?_, rfl⟩⟩
      rw [labelValue, lockImage, hvalue]
  exact ⟨_, except_bind_eq_ok.2 ⟨required, hrequired, except_bind_eq_ok.2 ⟨_,
    except_bind_eq_ok.2 ⟨path, hpath, rfl⟩, except_bind_eq_ok.2 ⟨_, hservice, rfl⟩⟩⟩⟩

theorem renderContract_ok {config : Config} {role : Role} {lock : Lock} {gidIndex : Option Int}
    {spec : FabricSpec} {serviceArgv : List String} {path : String}
    (hspec : fabricSpec config role = .ok spec)
    (hlabels : ∀ key ∈ requiredImageLabels,
      ∃ value, (lock.image role).labels.get? key = some value ∧ value ≠ "")
    (hpath : modelPath config = .ok path)
    (hservice : renderServiceArgv config role = .ok serviceArgv) :
    ∃ contract, renderContract config role (some lock) gidIndex = .ok contract := by
  obtain ⟨containerArgv, hcontainer⟩ :=
    @renderContainerArgv_ok _ _ _ gidIndex _ _ hlabels hpath hservice
  exact ⟨_, except_bind_eq_ok.2 ⟨_, hspec, except_bind_eq_ok.2 ⟨_, hpath,
    except_bind_eq_ok.2 ⟨_, hservice, except_bind_eq_ok.2 ⟨_, hcontainer, rfl⟩⟩⟩⟩⟩

/-- A contract is rendered only with its parts. -/
theorem renderContract_parts {config : Config} {role : Role} {lock : Option Lock}
    {gidIndex : Option Int} {contract : Contract}
    (h : renderContract config role lock gidIndex = .ok contract) :
    (∃ spec, fabricSpec config role = .ok spec) ∧ (∃ path, modelPath config = .ok path) ∧
      ∃ argv, renderServiceArgv config role = .ok argv := by
  obtain ⟨spec, hspec, h⟩ := except_bind_eq_ok.1 h
  obtain ⟨path, hpath, h⟩ := except_bind_eq_ok.1 h
  obtain ⟨argv, hargv, -⟩ := except_bind_eq_ok.1 h
  exact ⟨⟨spec, hspec⟩, ⟨path, hpath⟩, ⟨argv, hargv⟩⟩

/-! ### The engine -/

theorem lifecycleFail_ok {condition : Bool} {message : String} {u : Unit} :
    lifecycleFail condition message = .ok u ↔ condition = false :=
  failWith_eq_ok

theorem RenderedContract.apiPort {config : Config} {lock : Lock} {role : Role}
    (rc : RenderedContract config lock role) :
    rc.contract.apiPort = if role = .head then some config.deployment.apiPort else none := by
  have h := rc.rendered
  simp only [renderContract, except_bind_eq_ok] at h
  obtain ⟨_, -, _, -, _, -, _, -, h⟩ := h
  rw [← Except.ok.inj h]
  cases role <;> rfl

theorem containerName_roles_ne {config : Config} (hmode : config.deployment.mode ≠ .generic) :
    containerName config .worker ≠ containerName config .head := by
  intro h
  have hlist := congrArg String.toList h
  rw [containerName, containerName] at hlist
  cases hm : config.deployment.mode with
  | generic => exact hmode hm
  | production =>
    rw [hm] at hlist
    simp only [String.toList_append] at hlist
    exact absurd (List.append_cancel_left hlist) (by decide)
  | candidate =>
    rw [hm] at hlist
    simp only [String.toList_append] at hlist
    exact absurd (List.append_cancel_left hlist) (by decide)

/-- The rule of the loader is the rule of `_validate_contracts`. -/
theorem validateImage_ok {deployment : Deployment} {role : Role} {image : LockImage}
    (h : ValidImage deployment role image) :
    validateImage deployment role ⟨image.reference, some image.imageId, image.labels⟩ = .ok () := by
  have hrule := h.namespaces
  have hlabels : requiredImageLabels.forM (fun key =>
      lifecycleFail ((image.labels.get? key).all (· == ""))
        (role.text ++ " image label " ++ key ++ " is empty")) = .ok () := by
    refine forM_ok_iff.2 fun key hkey => lifecycleFail_ok.2 ?_
    obtain ⟨value, hvalue, hne⟩ := h.labels key hkey
    simp [hvalue, hne]
  rw [namespaceRule] at hrule
  split_ifs at hrule with hmode
  · obtain ⟨_, hreuse, hequal⟩ := except_bind_eq_ok.1 hrule
    rw [lockFail_ok] at hreuse hequal
    refine except_bind_eq_ok.2 ⟨(), lifecycleFail_ok.2 ?_, except_bind_eq_ok.2 ⟨(),
      lifecycleFail_ok.2 ?_, except_bind_eq_ok.2 ⟨(), lifecycleFail_ok.2 ?_, hlabels⟩⟩⟩
    · simpa [hmode] using hreuse
    · simpa [hmode, strOption] using hequal
    · simp [hmode]
  · rw [lockFail_ok] at hrule
    refine except_bind_eq_ok.2 ⟨(), lifecycleFail_ok.2 ?_, except_bind_eq_ok.2 ⟨(),
      lifecycleFail_ok.2 ?_, except_bind_eq_ok.2 ⟨(), lifecycleFail_ok.2 ?_, hlabels⟩⟩⟩
    · simp [hmode]
    · simp [hmode]
    · simp [hrule]

/-- With validated settings and a loaded lock, the isolation checks pass. -/
theorem validateContracts_ok {config : Config} {lock : Lock}
    (hmode : config.deployment.mode ≠ .generic) (hvalid : ValidDeployment config.deployment)
    (himage : ∀ role, ValidImage config.deployment role (lock.image role))
    (contracts : ∀ role, RenderedContract config lock role) :
    validateContracts config (fun role => (contracts role).contract) = .ok () := by
  have hports : modePorts config.deployment.mode = expectedPorts config.deployment.mode := by
    cases config.deployment.mode <;> rfl
  have hroles : ∀ role ∈ roleOrder,
      validateImage config.deployment role (contracts role).contract.image = .ok () := by
    intro role _
    rw [(contracts role).identity.2.2]
    exact validateImage_ok (himage role)
  refine except_bind_eq_ok.2 ⟨(), lifecycleFail_ok.2 ?_, except_bind_eq_ok.2 ⟨(),
    lifecycleFail_ok.2 ?_, except_bind_eq_ok.2 ⟨(), lifecycleFail_ok.2 ?_,
    except_bind_eq_ok.2 ⟨(), lifecycleFail_ok.2 ?_, except_bind_eq_ok.2 ⟨(),
    lifecycleFail_ok.2 ?_, forM_ok_iff.2 hroles⟩⟩⟩⟩⟩
  · rw [bne_eq_false_iff_eq, hports]
    exact hvalid.masterPort
  · rw [bne_eq_false_iff_eq, hports]
    exact hvalid.apiPort
  · rw [beq_eq_false_iff_ne, (contracts .worker).identity.1, (contracts .head).identity.1]
    exact containerName_roles_ne hmode
  · rw [bne_eq_false_iff_eq, (contracts .head).apiPort, if_pos rfl]
  · rw [(contracts .worker).apiPort, if_neg (by decide)]
    rfl

theorem renderFor_ok {config : Config} {lock : Lock} {role : Role} {gidIndex : Option Int}
    {contract : Contract} (h : renderContract config role (some lock) gidIndex = .ok contract) :
    ∃ rc, renderFor config lock role gidIndex = .ok rc := by
  unfold renderFor
  split
  · exact ⟨_, rfl⟩
  · next e he =>
    rw [h] at he
    exact absurd he (by simp)

theorem build_ok {config : Config} {lock : Lock} (hmode : config.deployment.mode ≠ .generic)
    (hvalid : ValidDeployment config.deployment)
    (himage : ∀ role, ValidImage config.deployment role (lock.image role))
    (hcontracts : ∀ role, ∃ contract, renderContract config role (some lock) none = .ok contract) :
    ∃ engine, Engine.build config lock = .ok engine := by
  obtain ⟨_, hworker⟩ := hcontracts .worker
  obtain ⟨_, hhead⟩ := hcontracts .head
  obtain ⟨worker, hworker⟩ := renderFor_ok hworker
  obtain ⟨head, hhead⟩ := renderFor_ok hhead
  rw [Engine.build, dif_neg hmode, hworker, hhead]
  dsimp only
  split
  · next e he =>
    rw [validateContracts_ok hmode hvalid himage] at he
    exact absurd he (by simp)
  · exact ⟨_, rfl⟩

/-! ### The plan -/

theorem option_mapM_some {α β : Type} {f : α → Option β} {xs : List α} {ys : List β}
    (h : xs.mapM f = some ys) : ∀ x ∈ xs, ∃ y, f x = some y := by
  induction xs generalizing ys with
  | nil => simp
  | cons x xs ih =>
    rw [List.mapM_cons] at h
    obtain ⟨y, hy, h⟩ := Option.bind_eq_some_iff.1 h
    obtain ⟨zs, hzs, -⟩ := Option.bind_eq_some_iff.1 h
    exact List.forall_mem_cons.2 ⟨⟨y, hy⟩, ih hzs⟩

/-- The text of a version 4 address has only digits and dots. -/
theorem chars_of_parse4 {cs : List Char} {n : Nat} (h : Ip.parse4 cs = some n) :
    ∀ c ∈ cs, c = '.' ∨ Text.isDecimal c = true := by
  have hfields : ∀ f ∈ cs.splitOn '.', ∀ c ∈ f, Text.isDecimal c = true := by
    rw [Ip.parse4] at h
    split at h
    case h_2 => exact absurd h (by simp)
    case h_1 hoctets =>
      intro f hf c hc
      obtain ⟨m, hm⟩ := option_mapM_some hoctets f hf
      rw [Ip.parseOctet] at hm
      split_ifs at hm with hcond
      simp only [Bool.and_eq_true, List.all_eq_true] at hcond
      exact hcond.1.1.1.2 c hc
  intro c hc
  rw [← @List.intercalate_splitOn _ cs _ _ '.'] at hc
  by_cases hdot : c = '.'
  · exact .inl hdot
  · have hinfix : [c] <:+: ['.'].intercalate (cs.splitOn '.') :=
      (List.singleton_infix_iff c _).2 hc
    obtain ⟨f, hf, hin⟩ := Text.infix_intercalate (by simp) (by simpa using Ne.symm hdot) hinfix
    exact .inr (hfields f hf c ((List.singleton_infix_iff c _).1 hin))

theorem chars_of_parseMask4 {cs : List Char} {n : Nat} (h : Ip.parseMask4 cs = some n) :
    ∀ c ∈ cs, c = '.' ∨ Text.isDecimal c = true := by
  rw [Ip.parseMask4] at h
  cases hlen : Ip.parsePrefixLength false cs with
  | some p =>
    rw [Ip.parsePrefixLength] at hlen
    split_ifs at hlen with hcond
    simp only [Bool.and_eq_true, List.all_eq_true] at hcond
    exact fun c hc => .inr (hcond.1.2 c hc)
  | none =>
    rw [hlen] at h
    cases hmask : Ip.parse4 cs with
    | none => simp [hmask] at h
    | some v => exact chars_of_parse4 hmask

/-- The text of a version 4 interface has no zero character. -/
theorem no_nul_of_parseInterface {raw : String} {interface : Ip.Interface}
    (h : Ip.parseInterface raw = some interface) (hv4 : interface.ip.v6 = false) :
    '\x00' ∉ raw.toList := by
  have hno : ∀ {cs : List Char}, (∀ c ∈ cs, c = '.' ∨ Text.isDecimal c = true) → '\x00' ∉ cs := by
    intro cs hcs hmem
    rcases hcs _ hmem with h | h
    · exact absurd h (by decide)
    · exact absurd h (by decide)
  rw [Ip.parseInterface, Text.chars_eq] at h
  intro hmem
  rw [← @List.intercalate_splitOn _ raw.toList _ _ '/'] at hmem
  split at h
  case h_1 a ha =>
    rw [ha, List.intercalate_singleton] at hmem
    cases h4 : Ip.parse4 a with
    | some v => exact hno (chars_of_parse4 h4) hmem
    | none =>
      rw [h4] at h
      obtain ⟨v, -, rfl⟩ := Option.map_eq_some_iff.1 h
      exact absurd hv4 (by simp)
  case h_2 a m ha =>
    rw [ha, List.intercalate_cons_cons, List.intercalate_singleton] at hmem
    split at h
    case h_1 v p hv hp =>
      simp only [List.append_assoc, List.mem_append, List.mem_singleton] at hmem
      rcases hmem with hmem | hmem | hmem
      · exact hno (chars_of_parse4 hv) hmem
      · exact absurd hmem (by decide)
      · exact hno (chars_of_parseMask4 hp) hmem
    case h_2 =>
      split at h
      · obtain rfl := Option.some.inj h
        exact absurd hv4 (by simp)
      · exact absurd h (by simp)
  case h_3 => exact absurd h (by simp)

theorem no_nul_of_isSafeId {s : String} (h : isSafeId s = true) : '\x00' ∉ s.toList := by
  rw [isSafeId, isSafeUser, matchesHeadTail, Text.chars_eq] at h
  intro hmem
  cases hs : s.toList with
  | nil => simp [hs] at hmem
  | cons c cs =>
    rw [hs] at h hmem
    simp only [Bool.and_eq_true, List.all_eq_true] at h
    rcases List.mem_cons.1 hmem with rfl | hmem
    · exact absurd h.1 (by decide)
    · exact absurd (h.2 _ hmem) (by decide)

theorem helperArgv_ok {imageRef : String} {command : List String} {writable : Bool}
    (himage : imageRef ≠ "") (h : ∀ token ∈ command, '\x00' ∉ token.toList) :
    ∃ argv, helperArgv imageRef command writable = .ok argv := by
  refine ⟨_, except_bind_eq_ok.2 ⟨(), fabricFail_ok.2 ?_, rfl⟩⟩
  simpa [himage] using h

theorem no_nul_toString (n : Nat) : '\x00' ∉ (toString n).toList := by
  intro hmem
  have hdigit : Char.isDigit '\x00' = true := by
    rw [Nat.toString_eq_repr, Nat.toList_repr] at hmem
    exact Nat.isDigit_of_mem_toDigits (by decide) (by decide) hmem
  exact absurd hdigit (by decide)

theorem no_nul_toString_int (n : Int) : '\x00' ∉ (toString n).toList := by
  cases n with
  | ofNat n => exact no_nul_toString n
  | negSucc n =>
    change '\x00' ∉ ("-" ++ toString n.succ).toList
    rw [String.toList_append, List.mem_append]
    exact fun h => h.elim (by decide) (no_nul_toString n.succ)

theorem no_nul_append {a b : String} (ha : '\x00' ∉ a.toList) (hb : '\x00' ∉ b.toList) :
    '\x00' ∉ (a ++ b).toList := by
  rw [String.toList_append, List.mem_append]
  exact fun h => h.elim ha hb

section FabricCommands

variable {config : Config} {role : Role} {imageRef : String}

/-- The discovery commands of a validated `f1` configuration. -/
theorem discoveryCommands_ok (h : ValidF1 config.deployment role)
    (hspec : ∃ spec, fabricSpec config role = .ok spec) (himage : imageRef ≠ "") :
    ∃ commands, discoveryCommands config role imageRef = .ok commands := by
  obtain ⟨spec, hspec⟩ := hspec
  have hvalues := fabricSpec_eq_ok hspec
  have hhca : spec.hca = f1Hca := by rw [hvalues, specValues, h.hca]
  have hiface : spec.interface = f1Iface := by rw [hvalues, specValues, h.netIface]
  rw [discoveryCommands, hspec]
  cases hgid : spec.gidIndex with
  | some index =>
    obtain ⟨argv, hargv⟩ := @helperArgv_ok _
      ["/bin/cat", "/sys/class/infiniband/" ++ spec.hca ++ "/ports/1/gids/" ++ toString index]
      false himage (by
        rw [hhca]
        refine List.forall_mem_cons.2 ⟨by decide, List.forall_mem_cons.2 ⟨?_, by simp⟩⟩
        exact no_nul_append (by decide) (no_nul_toString_int index))
    exact ⟨_, except_bind_eq_ok.2 ⟨spec, rfl, by
      dsimp only
      rw [hgid]
      exact except_bind_eq_ok.2 ⟨argv, hargv, rfl⟩⟩⟩
  | none =>
    obtain ⟨argv, hargv⟩ : ∃ argv, gidDiscoveryCommand config role imageRef = .ok argv := by
      rw [gidDiscoveryCommand, hspec]
      change ∃ argv, helperArgv imageRef ["/bin/sh", "-c", _] false = .ok argv
      refine helperArgv_ok himage ?_
      rw [hhca, hiface]
      simp only [← Text.chars_eq]
      decide +kernel
    exact ⟨_, except_bind_eq_ok.2 ⟨spec, rfl, by
      dsimp only
      rw [hgid]
      exact except_bind_eq_ok.2 ⟨argv, hargv, rfl⟩⟩⟩

/-- The commands that apply a validated `f1` configuration. -/
theorem applyCommands_ok (h : ValidF1 config.deployment role)
    (hf1 : config.deployment.fabricProfile = .f1)
    (hspec : ∃ spec, fabricSpec config role = .ok spec) (himage : imageRef ≠ "") :
    ∃ commands, applyCommands config role imageRef = .ok commands := by
  obtain ⟨spec, hspec⟩ := hspec
  have hvalues := fabricSpec_eq_ok hspec
  obtain ⟨raw, interface, hraw, hparse, hip, -⟩ := h.network
  obtain ⟨connection, hconnection, hsafe⟩ := h.connection
  have hv4 : interface.ip.v6 = false := by
    have hclosed : Ip.parse (f1Addresses role).1 = some ⟨false, (interface.ip).value⟩ := by
      rw [← hip]
      cases role with
      | head =>
        rw [show interface.ip = _ from Option.some.inj (hip.trans
          (by decide : Ip.parse "192.168.100.10" = some ⟨false, 3232261130⟩))]
      | worker =>
        rw [show interface.ip = _ from Option.some.inj (hip.trans
          (by decide : Ip.parse "192.168.100.11" = some ⟨false, 3232261131⟩))]
    rw [← hip] at hclosed
    exact congrArg Ip.v6 (Option.some.inj hclosed)
  have hcidr : '\x00' ∉ (strOption spec.cidr).toList := by
    rw [hvalues, specValues, hraw]
    exact no_nul_of_parseInterface hparse hv4
  have hconn : '\x00' ∉ (strOption spec.connection).toList := by
    rw [hvalues, specValues, hconnection]
    exact no_nul_of_isSafeId hsafe
  have hiface : '\x00' ∉ spec.interface.toList := by
    rw [hvalues]
    change '\x00' ∉ (config.deployment.settings role).netIface.toList
    rw [h.netIface]
    decide
  have htokens : ∀ command ∈ applyHostCommands spec, ∀ token ∈ command, '\x00' ∉ token.toList := by
    simp only [applyHostCommands, List.forall_mem_cons, List.not_mem_nil, false_imp_iff,
      implies_true, and_true, hcidr, hconn, hiface, no_nul_toString, not_false_eq_true, true_and]
    and_intros <;> decide +kernel
  obtain ⟨commands, hcommands⟩ := mapM_ok (f := fun command => helperArgv imageRef command true)
    fun command hcommand => helperArgv_ok himage (htokens command hcommand)
  refine ⟨commands, except_bind_eq_ok.2 ⟨spec, hspec, except_bind_eq_ok.2 ⟨(),
    fabricFail_ok.2 ?_, hcommands⟩⟩⟩
  rw [hvalues, specValues, hf1]
  rfl

end FabricCommands

theorem isImageRef_ne_empty {s : String} (h : isImageRef s = true) : s ≠ "" := by
  rintro rfl
  exact absurd h (by decide)

/-- The role and the image of a rendered contract. -/
theorem renderContract_image {config : Config} {role : Role} {lock : Option Lock}
    {gidIndex : Option Int} {contract : Contract}
    (h : renderContract config role lock gidIndex = .ok contract) :
    contract.role = role ∧ contract.image = lockImage lock role config := by
  simp only [renderContract, except_bind_eq_ok] at h
  obtain ⟨_, -, _, -, _, -, _, -, h⟩ := h
  rw [← Except.ok.inj h]
  exact ⟨rfl, rfl⟩

theorem fabricCommandsOf_ok {config : Config} {role : Role} {lock : Lock} {contract : Contract}
    (hf1 : config.deployment.fabricProfile = .f1) (h : ValidF1 config.deployment role)
    (hspec : ∃ spec, fabricSpec config role = .ok spec)
    (himage : ValidImage config.deployment role (lock.image role))
    (hcontract : renderContract config role (some lock) none = .ok contract) :
    ∃ commands, fabricCommandsOf config contract = .ok commands := by
  obtain ⟨hrole, hcimage⟩ := renderContract_image hcontract
  have hne := isImageRef_ne_empty himage.isRef
  obtain ⟨discovery, hdiscovery⟩ := discoveryCommands_ok h hspec hne
  obtain ⟨commands, hcommands⟩ := applyCommands_ok h hf1 hspec hne
  rw [fabricCommandsOf, hrole, hcimage]
  exact ⟨_, except_bind_eq_ok.2 ⟨_, hdiscovery, except_bind_eq_ok.2 ⟨_, hcommands, rfl⟩⟩⟩

section Accepted

variable {decimals : Decimals} {repository : PosixPath} {values : EnvValues} {profile : Profile}
  {config : Config} {isAlnum : Char → Bool} {content : String} {value : Json} {lock : Lock}

/-- The plan of a validated configuration whose contracts render. -/
theorem renderPlan_ok (hconfig : validate decimals repository values profile = .ok config)
    (himage : ∀ role, ValidImage config.deployment role (lock.image role))
    (hcontracts : ∀ role, ∃ contract, renderContract config role (some lock) none = .ok contract) :
    ∃ plan, renderPlan config (some lock) = .ok plan := by
  obtain ⟨worker, hworker⟩ := hcontracts .worker
  obtain ⟨head, hhead⟩ := hcontracts .head
  have hfabric : ∃ fabric, planFabric config worker head = .ok fabric := by
    rw [planFabric]
    split_ifs with hf1
    · obtain ⟨workerCommands, hworkerCommands⟩ := fabricCommandsOf_ok hf1
        (validate_f1 hconfig hf1 .worker) (renderContract_parts hworker).1 (himage .worker) hworker
      obtain ⟨headCommands, hheadCommands⟩ := fabricCommandsOf_ok hf1
        (validate_f1 hconfig hf1 .head) (renderContract_parts hhead).1 (himage .head) hhead
      exact ⟨_, except_bind_eq_ok.2 ⟨_, hworkerCommands,
        except_bind_eq_ok.2 ⟨_, hheadCommands, rfl⟩⟩⟩
    · exact ⟨_, rfl⟩
  obtain ⟨fabric, hfabric⟩ := hfabric
  exact ⟨_, except_bind_eq_ok.2 ⟨worker, hworker, except_bind_eq_ok.2 ⟨head, hhead,
    except_bind_eq_ok.2 ⟨fabric, hfabric, rfl⟩⟩⟩⟩

/-- **Accepted inputs are executable** if and only if the SSH users are safe names, the MTU is
the one of `f1` where `f1` is used, and the profile renders. -/
theorem executable_iff_ready
    (hconfig : validate decimals repository values profile = .ok config)
    (hmode : config.deployment.mode = .production ∨ config.deployment.mode = .candidate)
    (hload : loadDeploymentLock isAlnum content config = .ok value) (hlock : LockOf value lock) :
    Executable config lock ↔ Ready config := by
  have hgeneric : config.deployment.mode ≠ .generic := by
    rcases hmode with h | h <;> simp [h]
  have hvalid := validate_ok hconfig hgeneric
  have himage := validImage_of_load hload hlock
  constructor
  · intro h
    obtain ⟨contract, hcontract⟩ := h.contracts .head
    obtain ⟨hspec, -, hservice⟩ := renderContract_parts hcontract
    obtain ⟨hpath, hreasoning, hdraft, hcompilation⟩ :=
      (renderServiceArgv_ok_iff hvalid.modelContainerPath).1 hservice
    exact ⟨fun role => (sshArgv_ok_iff hvalid role (by simp) (by simp)).1
      (h.ssh role ["true"] (by simp) (by simp)), (fabricSpec_ok_iff hconfig .head).1 hspec, hpath,
      hreasoning, hdraft, hcompilation⟩
  · intro h
    obtain ⟨path, hpath⟩ := (modelPath_ok_iff hvalid.modelContainerPath).2 h.modelPath
    have hspecs : ∀ role, ∃ spec, fabricSpec config role = .ok spec :=
      fun role => (fabricSpec_ok_iff hconfig role).2 h.mtu
    have hcontracts : ∀ role, ∃ contract,
        renderContract config role (some lock) none = .ok contract := by
      intro role
      obtain ⟨spec, hspec⟩ := hspecs role
      obtain ⟨argv, hargv⟩ := (@renderServiceArgv_ok_iff _ role
        hvalid.modelContainerPath).2 ⟨h.modelPath, h.reasoning, h.draft, h.compilation⟩
      exact renderContract_ok hspec (himage role).labels hpath hargv
    exact ⟨hspecs, hcontracts, build_ok hgeneric hvalid himage hcontracts,
      renderPlan_ok hconfig himage hcontracts,
      fun role command hne hempty => (sshArgv_ok_iff hvalid role hne hempty).2 (h.users role),
      fun role source destination hs hd hs' hd' =>
        (scpArgv_ok_iff hvalid role hs hd hs' hd').2 (h.users role)⟩

end Accepted

/-! ### Every loaded document is a lock -/

theorem allowedImageLabels_nodup : allowedImageLabels.Nodup := by decide

theorem exists_of_loadImage {isAlnum : Char → Bool} {deployment : Deployment} {images : Json}
    {role : Role} {image : Json} (h : loadImage isAlnum deployment images role = .ok image) :
    ∃ lockImage : LockImage, image = .obj [
      ("reference", .str lockImage.reference),
      ("image_id", .str lockImage.imageId),
      ("labels", lockImage.labels.toJson)] := by
  obtain ⟨_, -, h⟩ := except_bind_eq_ok.1 h
  obtain ⟨_, -, h⟩ := except_bind_eq_ok.1 h
  obtain ⟨_, -, h⟩ := except_bind_eq_ok.1 h
  obtain ⟨_, -, h⟩ := except_bind_eq_ok.1 h
  obtain ⟨_, -, h⟩ := except_bind_eq_ok.1 h
  obtain ⟨_, -, h⟩ := except_bind_eq_ok.1 h
  obtain ⟨labels, -, h⟩ := except_bind_eq_ok.1 h
  obtain ⟨normalized, hnormalized, h⟩ := except_bind_eq_ok.1 h
  obtain ⟨_, hexact, hrest⟩ := except_bind_eq_ok.1 hnormalized
  obtain ⟨hall, -⟩ := exactKeys_ok_iff.1 hexact
  obtain ⟨normalized', hkeys, hrest⟩ := except_bind_eq_ok.1 hrest
  obtain ⟨-, hmap⟩ := (validateLabelKeys_ok_iff hall).1 hkeys
  obtain ⟨_, -, hrest⟩ := except_bind_eq_ok.1 hrest
  obtain ⟨_, -, hrest⟩ := except_bind_eq_ok.1 hrest
  obtain ⟨_, -, hrest⟩ := except_bind_eq_ok.1 hrest
  obtain rfl := Except.ok.inj hrest
  have hnodup : (normalized'.map Prod.fst).Nodup := by
    rw [hmap, List.map_map]
    simpa [Function.comp_def] using allowedImageLabels_nodup
  exact ⟨⟨_, _, ⟨normalized', hnodup⟩⟩, (Except.ok.inj h).symm⟩

/-- A document that the loader returned is a lock. -/
theorem exists_lockOf {isAlnum : Char → Bool} {content : String} {config : Config} {value : Json}
    (hload : loadDeploymentLock isAlnum content config = .ok value) :
    ∃ lock, LockOf value lock := by
  obtain ⟨_, worker, head, hworker, hhead, himages⟩ := images_of_load hload
  obtain ⟨workerImage, rfl⟩ := exists_of_loadImage hworker
  obtain ⟨headImage, rfl⟩ := exists_of_loadImage hhead
  refine ⟨⟨headImage, workerImage⟩, fun role => ?_⟩
  rw [roleImage, himages]
  cases role <;> rfl

/-! ### A configuration without a user -/

/-- The values of the candidate configuration without a user. -/
def namelessValues : EnvValues :=
  (sharedRootValues .candidate).filter fun p => p.1 != "SSH_USER"

/-- The configuration that they give. -/
def namelessConfig : Config :=
  ⟨defaultProfile, { candidateDeployment with
    head := { candidateDeployment.head with sshUser := "" }
    worker := { candidateDeployment.worker with sshUser := "" }
    sshUser := none }⟩

theorem validate_nameless :
    validate asciiDecimals checkout namelessValues defaultProfile = .ok namelessConfig := by
  decide

theorem imageRef_nameless (role : Role) :
    (namelessConfig.deployment.settings role).imageRef =
      (candidateConfig.deployment.settings role).imageRef := by
  cases role <;> rfl

theorem namespaceRule_nameless (role : Role) (reference imageId : String) :
    namespaceRule namelessConfig.deployment role reference imageId =
      namespaceRule candidateConfig.deployment role reference imageId := rfl

theorem bound_nameless : Bound (candidateLockValue []) namelessConfig := by
  have h := bound_candidateLock []
  refine ⟨h.mapping, h.stamp, h.mode, h.profile, h.model, h.modelDigest, fun role => ?_,
    fun role => ?_⟩
  · rw [imageRef_nameless]
    exact h.reference role
  · rw [imageRef_nameless, namespaceRule_nameless]
    exact h.namespaces role

/-- The candidate lock is loaded for the configurations that it is bound to. -/
theorem load_candidateLock {config : Config} (hbound : Bound (candidateLockValue []) config) :
    ∃ value lock, loadDeploymentLock Char.isAlphanum (candidateLockContent []) config = .ok value ∧
      LockOf value lock := by
  have hloads := @loads_candidateLock [] (by simp)
  obtain ⟨value, hvalue⟩ := (@checkDeploymentLock_ok_iff Char.isAlphanum _ _
    (Sha256.hexDigest (candidateLockContent [])) hbound).2
      ⟨sharedLock_candidate (by simp), loaderOnly_candidate⟩
  rw [← loadDeploymentLock_eq hloads rfl] at hvalue
  obtain ⟨lock, hlock⟩ := exists_lockOf hvalue
  exact ⟨value, lock, hvalue, hlock⟩

theorem ready_candidate : Ready candidateConfig where
  users role := by cases role <;> decide
  mtu := by decide
  modelPath := rfl
  reasoning := by decide +kernel
  draft := by decide +kernel
  compilation := by decide +kernel

/-- The candidate is executable, and without a user it is not ready. -/
theorem executable_iff_ready_nameless :
    (∃ value lock,
      loadDeploymentLock Char.isAlphanum (candidateLockContent []) candidateConfig = .ok value ∧
        LockOf value lock ∧ Executable candidateConfig lock) ∧
    ∃ value lock,
      loadDeploymentLock Char.isAlphanum (candidateLockContent []) namelessConfig = .ok value ∧
        LockOf value lock ∧ (Executable namelessConfig lock ↔ Ready namelessConfig) := by
  obtain ⟨value, lock, hload, hlock⟩ := load_candidateLock (bound_candidateLock [])
  obtain ⟨value', lock', hload', hlock'⟩ := load_candidateLock bound_nameless
  exact ⟨⟨value, lock, hload, hlock,
      (executable_iff_ready validate_candidate (.inr rfl) hload hlock).2 ready_candidate⟩,
    value', lock', hload', hlock',
    executable_iff_ready validate_nameless (.inr rfl) hload' hlock'⟩

/-- **A candidate without an SSH user** is accepted, and so is a lock for it, and no command line
for its nodes can be built. -/
theorem nameless_not_executable : ∃ value lock,
    validate asciiDecimals checkout namelessValues defaultProfile = .ok namelessConfig ∧
      namelessConfig.deployment.mode = .candidate ∧
      loadDeploymentLock Char.isAlphanum (candidateLockContent []) namelessConfig = .ok value ∧
      LockOf value lock ∧ ¬Executable namelessConfig lock := by
  obtain ⟨value, lock, hload, hlock⟩ := load_candidateLock bound_nameless
  refine ⟨value, lock, validate_nameless, rfl, hload, hlock, fun h => ?_⟩
  obtain ⟨argv, hargv⟩ := h.ssh .head ["true"] (by simp) (by simp)
  obtain ⟨_, -, hargv⟩ := except_bind_eq_ok.1 hargv
  obtain ⟨_, huser, -⟩ := except_bind_eq_ok.1 hargv
  exact absurd (valueFail_ok.1 huser) (by decide)

end DgxSpark
