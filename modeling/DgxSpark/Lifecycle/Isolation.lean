import DgxSpark.Deploy.Validate
import DgxSpark.Lifecycle.Ownership

/-!
# Production beside a candidate

Two engines on the same pair of nodes, one in production and one in candidate mode. Their
ports, containers and role files are apart by construction, and so is whatever an engine does
to a container or stages (`DgxSpark.SparesOther`): a rollback takes the names of its containers
from a file, but what a capture has written there are names of its own engine
(`DgxSpark.ownRecords_of_capture`). Their roots are apart only as far as the
operator keeps them so: `validate` asks of a candidate that its roots be candidate-namespaced,
and nothing of production.

Two texts are one path when they have the same parts (`DgxSpark.PosixPath.Same`).
`DgxSpark.modes_isolated_iff` says exactly which production roots keep the two apart.
-/

namespace DgxSpark

/-! ### What an engine owns -/

/-- The contract and the env file of each role. -/
def Config.roleFiles (config : Config) : List String :=
  roleOrder.flatMap fun role => [remoteContractPath config role, remoteEnvPath config role]

/-- The role files and the roots. -/
def Config.paths (config : Config) : List String :=
  config.roleFiles ++ config.deployment.roots

theorem mem_roleFiles {config : Config} {path : String} :
    path ∈ config.roleFiles ↔ ∃ role, path = remoteContractPath config role ∨
      path = remoteEnvPath config role := by
  simp [Config.roleFiles]

/-- The name of a role file. -/
theorem roleFile_eq {config : Config} {path : String} (h : path ∈ config.roleFiles) :
    ∃ role, ∃ suffix ∈ [".json", ".env"], path = remoteContractsFile config role suffix := by
  obtain ⟨role, rfl | rfl⟩ := mem_roleFiles.1 h
  · exact ⟨role, ".json", by simp, rfl⟩
  · exact ⟨role, ".env", by simp, rfl⟩

/-- The container that a command creates, starts, stops or removes. -/
def Command.container? : Command → Option String
  | .create name _ | .start name | .stop name | .rm name => some name
  | _ => none

/-- What staging writes on a node: its directories and its files. -/
def stagedPaths (engine : Engine) (role : Role) (contract head : Contract) : List String :=
  stagedDirectories engine.config role contract ++
    [contract.contractPath, remoteEnvPath engine.config role,
      ((modelDirectory engine.config head).child ".model-lock.sha256").text]

/-! ### Names apart -/

theorem containerName_ne {p c : Config} (hp : p.deployment.mode = .production)
    (hc : c.deployment.mode = .candidate) (role role' : Role) :
    containerName p role ≠ containerName c role' := by
  have hprod : (containerName p role).toList[5]? = some 'n' := by
    rw [containerName, hp, String.toList_append, List.getElem?_append_left (by decide)]
    rfl
  have hcand : (containerName c role').toList[5]? = some 'c' := by
    rw [containerName, hc]
    simp only [String.append_assoc]
    rw [String.toList_append, List.getElem?_append_left (by decide)]
    rfl
  intro h
  rw [h, hcand] at hprod
  exact absurd hprod (by decide)

/-- The name of a role file. -/
def roleFileName (mode : Mode) (role : Role) (suffix : String) : String :=
  mode.text ++ "-" ++ role.text ++ suffix

theorem cleanPart_roleFileName (mode : Mode) (role : Role) :
    ∀ s ∈ [".json", ".env"], PosixPath.CleanPart (roleFileName mode role s) := by
  unfold PosixPath.CleanPart
  cases mode <;> cases role <;> decide

/-- A role file is read back from its text. -/
theorem parse_roleFile (config : Config) (role : Role) {s : String} (hs : s ∈ [".json", ".env"]) :
    PosixPath.parse (remoteContractsFile config role s) =
      ((PosixPath.parse config.deployment.remoteRoot).child "contracts").child
        (roleFileName config.deployment.mode role s) := by
  refine PosixPath.parse_text (PosixPath.root_parse _) (by simp [PosixPath.child]) ?_
  intro part hpart
  simp only [PosixPath.child, List.append_assoc, List.mem_append, List.mem_singleton] at hpart
  rcases hpart with hpart | rfl | rfl
  · exact PosixPath.cleanPart_of_mem_parse hpart
  · exact ⟨by decide, by decide, by decide⟩
  · exact cleanPart_roleFileName _ role s hs

/-- The parts of a role file: those of the root, and two more. -/
theorem parts_roleFile (config : Config) (role : Role) {s : String} (hs : s ∈ [".json", ".env"]) :
    (PosixPath.parse (remoteContractsFile config role s)).parts =
      (PosixPath.parse config.deployment.remoteRoot).parts ++
        ["contracts", roleFileName config.deployment.mode role s] := by
  rw [parse_roleFile config role hs]
  simp [PosixPath.child]

/-- The names of the role files of the two modes differ. -/
theorem roleFileName_ne (role role' : Role) :
    ∀ s ∈ [".json", ".env"], ∀ s' ∈ [".json", ".env"],
      roleFileName .production role s ≠ roleFileName .candidate role' s' := by
  cases role <;> cases role' <;> decide

/-- The role files of the two modes are apart, whatever the roots. -/
theorem roleFiles_apart {p c : Config} (hp : p.deployment.mode = .production)
    (hc : c.deployment.mode = .candidate) :
    ∀ file ∈ p.roleFiles, ∀ file' ∈ c.roleFiles, ¬PosixPath.Same file file' := by
  intro file hfile file' hfile' hsame
  obtain ⟨role, s, hs, rfl⟩ := roleFile_eq hfile
  obtain ⟨role', s', hs', rfl⟩ := roleFile_eq hfile'
  rw [PosixPath.Same, parts_roleFile p role hs, parts_roleFile c role' hs', hp, hc] at hsame
  have hlast := congrArg List.getLast? hsame
  simp only [List.getLast?_append, List.getLast?_cons_cons, List.getLast?_singleton,
    Option.some_or, Option.some.injEq] at hlast
  exact roleFileName_ne role role' s hs s' hs' hlast

/-! ### Candidate names -/

/-- A part that is candidate-namespaced. -/
def IsCandidatePart (part : String) : Prop :=
  "candidate".toList <:+: part.toList.map Char.toLower

instance (part : String) : Decidable (IsCandidatePart part) :=
  decidable_of_iff _ (Text.isInfix_iff _ _)

/-- **A root is candidate-namespaced** if and only if one of its parts is. -/
theorem isCandidateRoot_iff (s : String) :
    isCandidateRoot s = true ↔ ∃ part ∈ (PosixPath.parse s).parts, IsCandidatePart part := by
  rw [isCandidateRoot, Text.contains_iff, Text.toList_lower]
  constructor
  · intro h
    rw [← @List.intercalate_splitOn _ s.toList _ _ '/', Text.map_intercalate] at h
    obtain ⟨field, hfield, hinfix⟩ := Text.infix_intercalate (w := "candidate".toList) (by decide)
      (show '/' ∉ "candidate".toList by decide) h
    obtain ⟨component, hcomponent, rfl⟩ := List.mem_map.1 hfield
    have hpart : IsCandidatePart (String.ofList component) := by
      rw [IsCandidatePart, String.toList_ofList (l := component)]
      exact hinfix
    refine ⟨String.ofList component, List.mem_filter.2 ⟨List.mem_map.2 ⟨component, ?_, rfl⟩, ?_⟩,
      hpart⟩
    · rw [Text.chars_eq]
      exact hcomponent
    · -- it is neither empty nor a dot
      rw [Bool.and_eq_true, bne_iff_ne, bne_iff_ne]
      constructor <;> intro heq <;> rw [heq] at hpart <;> revert hpart <;> decide
  · rintro ⟨part, hpart, hinfix⟩
    obtain ⟨hsplit, -⟩ := List.mem_filter.1 hpart
    obtain ⟨component, hcomponent, rfl⟩ := List.mem_map.1 hsplit
    rw [Text.chars_eq] at hcomponent
    have hin : component <:+: s.toList := by
      have := @Text.infix_of_mem_fields _ ['/'] _ _ hcomponent
      rwa [List.intercalate_splitOn] at this
    rw [IsCandidatePart, String.toList_ofList (l := component)] at hinfix
    exact hinfix.trans (hin.map Char.toLower)

theorem isCandidateRoot_congr {a b : String} (h : PosixPath.Same a b) :
    isCandidateRoot a = true ↔ isCandidateRoot b = true := by
  rw [isCandidateRoot_iff, isCandidateRoot_iff, h]

theorem isCandidatePart_roleFileName (role : Role) :
    ∀ s ∈ [".json", ".env"], IsCandidatePart (roleFileName .candidate role s) ∧
      ¬IsCandidatePart (roleFileName .production role s) := by
  cases role <;> decide

/-- A role file of a candidate is candidate-namespaced. -/
theorem isCandidateRoot_roleFile {c : Config} (hc : c.deployment.mode = .candidate) :
    ∀ file ∈ c.roleFiles, isCandidateRoot file = true := by
  intro file hfile
  obtain ⟨role, s, hs, rfl⟩ := roleFile_eq hfile
  rw [isCandidateRoot_iff, parts_roleFile c role hs, hc]
  exact ⟨_, by simp, (isCandidatePart_roleFileName role s hs).1⟩

/-- Where a role file of production is candidate-namespaced, its root is. -/
theorem isCandidateRoot_of_roleFile {p : Config} (hp : p.deployment.mode = .production)
    {file : String} (hfile : file ∈ p.roleFiles) (h : isCandidateRoot file = true) :
    isCandidateRoot p.deployment.remoteRoot = true := by
  obtain ⟨role, s, hs, rfl⟩ := roleFile_eq hfile
  rw [isCandidateRoot_iff, parts_roleFile p role hs, hp] at h
  rw [isCandidateRoot_iff]
  obtain ⟨part, hpart, hcandidate⟩ := h
  rw [List.mem_append, List.mem_cons, List.mem_singleton] at hpart
  rcases hpart with hpart | rfl | rfl
  · exact ⟨part, hpart, hcandidate⟩
  · exact absurd hcandidate (by decide)
  · exact absurd hcandidate (isCandidatePart_roleFileName role s hs).2

/-! ### Commands -/

/-- A command of an apply on a container is on the engine's own. -/
theorem Applies.container {engine : Engine} {role : Role} {command : Command} {name : String}
    (h : Applies engine role command) (hname : command.container? = some name) :
    name = containerName engine.config role := by
  have hengine : engine.container role = containerName engine.config role := rfl
  cases h with
  | read hread => cases command <;> simp [Command.container?, Command.isRead] at hname hread
  | fabric hfabric =>
    rcases hfabric with hread | ⟨spec, -, rfl | rfl⟩
    · cases command <;> simp [Command.container?, Command.isRead] at hname hread
    · simp [Command.container?] at hname
    · simp [Command.container?] at hname
  | stop => exact (Option.some.inj hname).symm.trans hengine
  | rm => exact (Option.some.inj hname).symm.trans hengine
  | start => exact (Option.some.inj hname).symm.trans hengine
  | create hargv =>
    obtain ⟨words, hcreate⟩ := interpret_renderContainerArgv hargv
    rw [hcreate] at hname
    exact (Option.some.inj hname).symm

/-- The path of a rendered contract. -/
theorem RenderedContract.contractPath {config : Config} {lock : Lock} {role : Role}
    (rc : RenderedContract config lock role) :
    rc.contract.contractPath = remoteContractPath config role := by
  have h := rc.rendered
  simp only [renderContract, except_bind_eq_ok] at h
  obtain ⟨_, -, _, -, _, -, _, -, h⟩ := h
  rw [← Except.ok.inj h]
  rfl

theorem stagedName_ne (mode : Mode) (role : Role) :
    ∀ name ∈ "contracts" :: ".model-lock.sha256" :: cacheNames, ∀ s ∈ [".json", ".env"],
      name ≠ roleFileName mode role s := by
  cases mode <;> cases role <;> decide

theorem cleanPart_stagedName :
    ∀ name ∈ "contracts" :: ".model-lock.sha256" :: cacheNames, PosixPath.CleanPart name := by
  unfold PosixPath.CleanPart
  decide

/-- A staged directory, or the marker of the model, is no role file. -/
theorem not_same_roleFile {config : Config} {file name : String} (hfile : file ∈ config.roleFiles)
    {q : PosixPath} (hq : q.root = "" ∨ q.root = "/" ∨ q.root = "//")
    (hname : name ∈ "contracts" :: ".model-lock.sha256" :: cacheNames) :
    ¬PosixPath.Same (q.child name).text file := by
  obtain ⟨role, s, hs, rfl⟩ := roleFile_eq hfile
  intro hsame
  have hlast := congrArg List.getLast? hsame
  rw [PosixPath.getLast?_parse_child hq (cleanPart_stagedName name hname),
    parts_roleFile config role hs, List.getLast?_append] at hlast
  exact stagedName_ne _ role name hname s hs (Option.some.inj hlast)

/-- Staging names no role file of the other mode. -/
theorem stagedPaths_apart {engine : Engine} {other : Config}
    (hfiles : ∀ file ∈ engine.config.roleFiles, ∀ file' ∈ other.roleFiles,
      ¬PosixPath.Same file file') (role : Role)
    (contract : RenderedContract engine.config engine.lock role)
    (head : RenderedContract engine.config engine.lock .head) :
    ∀ path ∈ stagedPaths engine role contract.contract head.contract, ∀ file ∈ other.roleFiles,
      ¬PosixPath.Same path file := by
  intro path hpath file hfile
  rw [stagedPaths, contract.contractPath, List.mem_append] at hpath
  rcases hpath with hpath | hpath
  · rw [stagedDirectories, List.mem_cons] at hpath
    rcases hpath with rfl | hpath
    · have hparent : (PosixPath.parse (remoteContractPath engine.config role)).parent =
          (PosixPath.parse engine.config.deployment.remoteRoot).child "contracts" := by
        rw [remoteContractPath, parse_roleFile _ _ (by simp)]
        simp [PosixPath.parent, PosixPath.child]
      rw [contract.contractPath, hparent]
      exact not_same_roleFile hfile (PosixPath.root_parse _) (by simp)
    · obtain ⟨cache, hcache, rfl⟩ := List.mem_map.1 hpath
      exact not_same_roleFile hfile (PosixPath.root_parse _) (by simp [hcache])
  · simp only [List.mem_cons, List.not_mem_nil, or_false] at hpath
    rcases hpath with rfl | rfl | rfl
    · exact hfiles _ (mem_roleFiles.2 ⟨role, .inl rfl⟩) file hfile
    · exact hfiles _ (mem_roleFiles.2 ⟨role, .inr rfl⟩) file hfile
    · refine not_same_roleFile hfile ?_ (by simp)
      rw [modelDirectory]
      split
      · exact PosixPath.root_parse _
      · exact PosixPath.root_parse _

/-! ### The names in a state file -/

/-- **A state file with the engine's own containers**: the names of its records are theirs. -/
def OwnRecords (engine : Engine) (stateFile : Option String) : Prop :=
  ∀ state roles, loadRollback engine.config stateFile = .ok (state, roles) →
    ∀ role : Role, roles.get role.text ≠ .null →
      ((roles.get role.text).get "name").pyStr = engine.container role

section Captures

variable {engine : Engine} {σ : Type} {env : Env σ}

/-- What a capture holds of a role: nothing, or a record with its name. -/
def OwnRecord (engine : Engine) (role : Role) (record : Json) : Prop :=
  record.WF ∧ (record ≠ .null → record.get "name" = .str (engine.container role))

theorem captureRole_returns (role : Role) : Prog.Returns (OwnRecord engine role)
    (captureRole env role : Eng engine σ Json) := by
  rintro s record t h
  obtain ⟨found, s₁, hfound, h⟩ := Prog.bind_eq_ok.1 h
  rw [inspectOrMissing_eq] at hfound
  obtain ⟨hout, rfl⟩ := Prod.mk.inj hfound
  cases found with
  | none =>
    obtain ⟨hrecord, -⟩ := Prod.mk.inj h
    obtain rfl := Except.ok.inj hrecord
    exact ⟨trivial, fun hnull => absurd rfl hnull⟩
  | some inspect =>
    obtain ⟨result, -, hparse⟩ := inspectOutcome_some hout
    obtain ⟨contract, s₂, hcontract, h⟩ := Prog.bind_eq_ok.1 h
    obtain ⟨hrendered, rfl⟩ := Prod.mk.inj hcontract
    obtain rfl := Except.ok.inj hrendered
    obtain ⟨⟨⟩, s₃, hlift, h⟩ := Prog.bind_eq_ok.1 h
    obtain ⟨howned, rfl⟩ := Prod.mk.inj hlift
    obtain ⟨hrecord, -⟩ := Prod.mk.inj h
    obtain ⟨hwf, hname⟩ := captureRecord_ok (parseInspect_wf hparse) hrecord
    refine ⟨hwf, fun _ => ?_⟩
    obtain ⟨labels, -, hchecks⟩ := except_bind_eq_ok.1 howned
    obtain ⟨⟨⟩, hsame, -⟩ := except_bind_eq_ok.1 hchecks
    rw [lifecycleFail, failWith_eq_ok, bne_eq_false_iff_eq, contract_container] at hsame
    rw [hname, hsame]

theorem captureFabricRole_returns (role : Role) :
    Prog.Returns Json.WF (captureFabricRole env role : Eng engine σ Json) := by
  refine .bind fun spec => .bind fun state => .pure ?_
  refine wf_obj (by simp [NmState.members, Json.keys]) ?_
  simp [NmState.members, FabricSpec.wf_toJson, Json.WF]

theorem captureFabricState_returns :
    Prog.Returns Json.WF (captureFabricState env : Eng engine σ Json) := by
  rw [captureFabricState]
  split
  · exact .pure (by simp [Json.WF, Json.WFMembers, Json.keys])
  · rintro s fabric t h
    obtain ⟨worker, s₁, hworker, h⟩ := Prog.bind_eq_ok.1 h
    obtain ⟨head, s₂, hhead, h⟩ := Prog.bind_eq_ok.1 h
    obtain ⟨hfabric, -⟩ := Prod.mk.inj h
    obtain rfl := Except.ok.inj hfabric
    have hw := captureFabricRole_returns .worker s worker s₁ hworker
    have hh := captureFabricRole_returns .head s₁ head s₂ hhead
    exact wf_obj (by simp [Json.keys]) (by simpa using ⟨hw, hh⟩)

/-- **What a capture writes names the engine's own containers.** -/
theorem ownRecords_of_capture {s t : EngineState engine σ} {captured : Json}
    (h : captureRollback env s = (.ok captured, t)) : OwnRecords engine t.stateFile := by
  obtain ⟨worker, s₁, hworker, h⟩ := Prog.bind_eq_ok.1 h
  obtain ⟨head, s₂, hhead, h⟩ := Prog.bind_eq_ok.1 h
  obtain ⟨fabric, s₃, hfabric, h⟩ := Prog.bind_eq_ok.1 h
  obtain ⟨⟨⟩, s₄, hwrite, h⟩ := Prog.bind_eq_ok.1 h
  obtain ⟨-, rfl⟩ := Prod.mk.inj hwrite
  obtain ⟨-, rfl⟩ := Prod.mk.inj h
  have hroles : ∀ role, OwnRecord engine role
      ((Json.obj [("worker", worker), ("head", head)]).get role.text) := by
    intro role
    cases role with
    | worker => exact captureRole_returns .worker s worker s₁ hworker
    | head => exact captureRole_returns .head s₁ head s₂ hhead
  have hwf : Json.WF (.obj [("worker", worker), ("head", head)]) :=
    wf_obj (by simp [Json.keys]) (by
      have hw := (hroles .worker).1
      have hh := (hroles .head).1
      simpa using ⟨hw, hh⟩)
  intro state roles hload role hnull
  have hloads : loadRollback engine.config _ = _ := loadRollback_stateText
    (captureFabricState_returns s₂ fabric s₃ hfabric) hwf rfl fun role => by cases role <;> rfl
  obtain ⟨-, rfl⟩ := Prod.mk.inj (Except.ok.inj (hload.symm.trans hloads))
  rw [Json.get_sortKeys hwf] at hnull ⊢
  have hne : (Json.obj [("worker", worker), ("head", head)]).get role.text ≠ .null := by
    intro heq
    rw [heq] at hnull
    exact hnull rfl
  rw [Json.get_sortKeys (hroles role).1, (hroles role).2 hne]
  rfl

end Captures

/-! ### Commands on containers -/

/-- A command on a container is on that of the engine's role. -/
def Own (engine : Engine) (role : Role) (c : Command) : Prop :=
  ∀ name, c.container? = some name → name = engine.container role

theorem own_of_spares {engine : Engine} {role : Role} {c : Command} (h : SparesContainers role c) :
    Own engine role c := by
  intro name hname
  cases c <;> simp [SparesContainers, Command.sparesContainers, Command.container?] at h hname

theorem Reads.own {engine : Engine} {role : Role} {c : Command} (h : Reads role c) :
    Own engine role c :=
  own_of_spares h.spares

section Methods

variable {engine : Engine} {σ : Type} {env : Env σ}

theorem own_stopAndRemove (role : Role) (inspect : Json) {name : String}
    (h : name = engine.container role) :
    Issues (Own engine) (stopAndRemove env role inspect name : Eng engine σ PUnit) := by
  subst h
  exact Prog.Within.bind (.when fun _ => issues_run fun _ hname => (Option.some.inj hname).symm)
    fun _ => issues_run fun _ hname => (Option.some.inj hname).symm

theorem own_inspectOrMissing (role : Role) :
    Issues (Own engine) (inspectOrMissing env role : Eng engine σ (Option Json)) :=
  (issues_inspectOrMissing (p := Reads) fun _ => rfl).mono fun _ _ => Reads.own

theorem cleanupPartial_own : Issues (Own engine) (cleanupPartial env : Eng engine σ PUnit) := by
  refine .each fun role _ => (own_inspectOrMissing role).bind fun inspect => ?_
  cases inspect with
  | none => exact .pure _
  | some inspect =>
    exact issues_bind_contractFor fun rc => Prog.Within.bind (.lift _) fun _ =>
      own_stopAndRemove role inspect rc.identity.1

theorem restoreFabricState_own (fabricState : Json) :
    Issues (Own engine) (restoreFabricState env fabricState : Eng engine σ PUnit) :=
  (restoreFabricState_issues fabricState).mono fun _ _ => own_of_spares

/-- The rollback to no containers. -/
theorem rollbackEmpty_own (state : Json) :
    Issues (Own engine) (rollbackEmpty env state : Eng engine σ PUnit) := by
  have hinspect : ∀ role, Issues (Own engine)
      (inspectEmptyTarget env role : Eng engine σ (Option Json)) := by
    intro role
    refine (own_inspectOrMissing role).bind fun inspect => ?_
    cases inspect with
    | none => exact .pure _
    | some inspect =>
      exact issues_bind_contractFor fun rc => Prog.Within.bind (.lift _) fun _ => .pure _
  have hremove : ∀ role found, Issues (Own engine)
      (removeEmptyTarget env role found : Eng engine σ PUnit) := by
    intro role found
    cases found with
    | none => exact .pure _
    | some inspect =>
      exact issues_bind_contractFor fun rc => own_stopAndRemove role inspect rc.identity.1
  have htargets : Issues (Own engine) (removeEmptyRollbackTargets env : Eng engine σ PUnit) :=
    (hinspect .worker).bind fun worker => (hinspect .head).bind fun head =>
      (hremove .worker worker).bind fun _ => (hremove .head head).bind fun _ =>
      .each fun role _ => (confirmEmptyTarget_reads role).mono fun _ _ => Reads.own
  refine Prog.Within.bind (.lift _) fun _ => htargets.bind fun _ => .ite (fun _ => ?_) fun _ =>
    restoreFabricState_own _
  exact (removeLegacyCandidateProfiles_issues _).mono fun _ _ => own_of_spares

/-- The rollback to a captured pair, when its records name the engine's own containers. -/
theorem rollbackPair_own (state : Json) {roles : Json}
    (h : ∀ role : Role, roles.get role.text ≠ .null →
      ((roles.get role.text).get "name").pyStr = engine.container role) :
    Issues (Own engine) (rollbackPair env state roles : Eng engine σ PUnit) := by
  refine Prog.Within.bind_lift fun _ hcheck => ?_
  -- a rollback goes on with records for both roles
  obtain ⟨⟨⟩, hnull, -⟩ := except_bind_eq_ok.1 hcheck
  rw [lifecycleFail, failWith_eq_ok, List.any_eq_false] at hnull
  have hname : ∀ role : Role, ((roles.get role.text).get "name").pyStr = engine.container role :=
    fun role => h role (by simpa using hnull role (by cases role <;> decide))
  refine Prog.Within.bind (.each fun _ _ => issues_run fun _ hname => by cases hname)
    fun _ => (restoreFabricState_own _).bind fun _ => Prog.Within.bind (.each fun role _ => ?_)
    fun _ => Prog.Within.bind (.each fun role _ => ?_) fun _ =>
    (verifyRollback_reads roles).mono fun _ _ => Reads.own
  · refine (own_inspectOrMissing role).bind fun inspect => ?_
    cases inspect with
    | none => exact .pure _
    | some inspect =>
      exact (issues_contractFor role).bind fun _ => Prog.Within.bind (.lift _) fun _ =>
        own_stopAndRemove role inspect (hname role)
  · refine Prog.Within.bind_lift fun argv hargv => ?_
    obtain ⟨words, hwords⟩ := rollbackCreateArgv_interpret hargv
    refine (issues_run ?_).bind fun _ => .when fun _ => issues_run ?_
    · intro name hcontainer
      rw [hwords] at hcontainer
      exact (Option.some.inj hcontainer).symm.trans (hname role)
    · exact fun name hcontainer => (Option.some.inj hcontainer).symm.trans (hname role)

end Methods

/-! ### Isolation -/

/-- The commands that a method adds to the record, from a state, act on no container of another
deployment. -/
def SparesContainersOf {engine : Engine} {σ : Type} (other : Config)
    (method : Eng engine σ PUnit) (s : EngineState engine σ) : Prop :=
  ∃ new, (method s).2.records = s.records ++ new ∧
    ∀ r ∈ new, ∀ name, (interpret r.argv).container? = some name →
      ∀ role, name ≠ containerName other role

/-- **What an engine leaves alone of another deployment**: its containers and its role files. A
rollback is to a state file with the engine's own containers, as a capture writes it. -/
structure SparesOther (engine : Engine) (other : Config) : Prop where
  apply : ∀ {σ : Type} (env : Env σ) (isUpdate : Bool) (s : EngineState engine σ),
    SparesContainersOf other (DgxSpark.apply env isUpdate) s
  start : ∀ {σ : Type} (env : Env σ) (s : EngineState engine σ),
    SparesContainersOf other (DgxSpark.start env) s
  stop : ∀ {σ : Type} (env : Env σ) (s : EngineState engine σ),
    SparesContainersOf other (DgxSpark.stop env) s
  rollback : ∀ {σ : Type} (env : Env σ) (s : EngineState engine σ),
    OwnRecords engine s.stateFile → SparesContainersOf other (DgxSpark.rollback env) s
  captured : ∀ {σ : Type} (env : Env σ) (s t : EngineState engine σ) (record : Json),
    captureRollback env s = (.ok record, t) → OwnRecords engine t.stateFile
  staged : ∀ role (contract : RenderedContract engine.config engine.lock role)
    (head : RenderedContract engine.config engine.lock .head),
    ∀ path ∈ stagedPaths engine role contract.contract head.contract, ∀ file ∈ other.roleFiles,
      ¬PosixPath.Same path file

/-- **Two deployments side by side**, one in each mode. -/
structure ModesIsolated (p c : Config) : Prop where
  ports : ∀ n ∈ [p.deployment.apiPort, p.deployment.masterPort],
    n ∉ [c.deployment.apiPort, c.deployment.masterPort]
  containers : ∀ role role', containerName p role ≠ containerName c role'
  paths : ∀ path ∈ p.paths, ∀ path' ∈ c.paths, ¬PosixPath.Same path path'
  production : ∀ engine : Engine, engine.config = p → SparesOther engine c
  candidate : ∀ engine : Engine, engine.config = c → SparesOther engine p

/-- **Candidate-namespaced production roots keep off**: such a root is no root and no role file
of the candidate, and if it is the remote root, no role file below it is a root of the
candidate. Of a production root that is not candidate-namespaced, nothing is asked. -/
def NamespacesKept (p c : Config) : Prop :=
  ∀ root ∈ p.deployment.roots, isCandidateRoot root = true →
    (∀ path ∈ c.paths, ¬PosixPath.Same root path) ∧
      (root = p.deployment.remoteRoot → ∀ file ∈ p.roleFiles, ∀ root' ∈ c.deployment.roots,
        ¬PosixPath.Same file root')

/-- The records that a method adds from a state are the engine's own. -/
def IssuesOwn {engine : Engine} {σ α : Type} (method : Eng engine σ α)
    (s : EngineState engine σ) : Prop :=
  ∃ new, (method s).2.records = s.records ++ new ∧ ∀ r ∈ new, Own engine r.role (interpret r.argv)

section IssuesOwn

variable {engine : Engine} {σ α β : Type} {s : EngineState engine σ}

theorem IssuesOwn.throw (e : Exn) : IssuesOwn (throw e : Eng engine σ α) s :=
  ⟨[], (List.append_nil _).symm, nofun⟩

theorem IssuesOwn.bind {x : Eng engine σ α} {f : α → Eng engine σ β} (hx : IssuesOwn x s)
    (hf : ∀ a t, x s = (.ok a, t) → IssuesOwn (f a) t) : IssuesOwn (x >>= f) s := by
  obtain ⟨new, hrecords, hown⟩ := hx
  rw [IssuesOwn, Prog.bind_run]
  rcases hrun : x s with ⟨e | a, t⟩ <;> rw [hrun] at hrecords
  · exact ⟨new, hrecords, hown⟩
  · obtain ⟨rest, hrecords', hown'⟩ := hf a t hrun
    refine ⟨new ++ rest, ?_, fun r hr => (List.mem_append.1 hr).elim (hown r) (hown' r)⟩
    exact hrecords'.trans (by rw [hrecords, List.append_assoc])

theorem IssuesOwn.catchLifecycle {x : Eng engine σ α} {h : Exn → Eng engine σ α}
    (hx : IssuesOwn x s) (hh : ∀ e t, x s = (.error e, t) → IssuesOwn (h e) t) :
    IssuesOwn (catchLifecycle x h) s := by
  obtain ⟨new, hrecords, hown⟩ := hx
  rw [IssuesOwn, DgxSpark.catchLifecycle, Prog.tryCatch_run]
  rcases hrun : x s with ⟨e | a, t⟩ <;> rw [hrun] at hrecords
  · by_cases he : e.isLifecycle = true
    · obtain ⟨rest, hrecords', hown'⟩ := hh e t hrun
      refine ⟨new ++ rest, ?_, fun r hr => (List.mem_append.1 hr).elim (hown r) (hown' r)⟩
      simp only [he, if_true]
      exact hrecords'.trans (by rw [hrecords, List.append_assoc])
    · simp only [he]
      exact ⟨new, hrecords, hown⟩
  · exact ⟨new, hrecords, hown⟩

theorem IssuesOwn.spares {other : Config} {method : Eng engine σ PUnit}
    (h : IssuesOwn method s) (hnames : ∀ role role',
      containerName engine.config role ≠ containerName other role') :
    SparesContainersOf other method s := by
  obtain ⟨new, hrecords, hall⟩ := h
  refine ⟨new, hrecords, fun r hr name hname role => ?_⟩
  rw [hall r hr name hname]
  exact hnames r.role role

end IssuesOwn

theorem applies_own {engine : Engine} {role : Role} {c : Command} (h : Applies engine role c) :
    Own engine role c :=
  fun _ hname => h.container hname

theorem start_own {engine : Engine} {σ : Type} (env : Env σ) :
    Issues (Own engine) (start env : Eng engine σ PUnit) :=
  ((preflight_reads _ _).mono fun _ _ => Reads.own).bind fun _ =>
    (startAll_issues.mono fun _ _ => applies_own).bind fun _ =>
    (verify_reads _).mono fun _ _ => Reads.own

/-- A rollback to the engine's own records. -/
theorem rollback_own {engine : Engine} {σ : Type} (env : Env σ) {s : EngineState engine σ}
    (h : OwnRecords engine s.stateFile) : IssuesOwn (rollback env) s := by
  have hrun : rollback env s =
      (Prog.lift (loadRollback engine.config s.stateFile) >>= fun loaded =>
        if roleOrder.all fun role => loaded.2.get role.text == .null then
          rollbackEmpty env loaded.1
        else rollbackPair env loaded.1 loaded.2) s := rfl
  rw [IssuesOwn, hrun, Prog.bind_run, Prog.lift_run]
  cases hload : loadRollback engine.config s.stateFile with
  | error e => exact ⟨[], by simp, nofun⟩
  | ok loaded =>
    dsimp only
    split
    · exact (rollbackEmpty_own _).records s
    · exact (rollbackPair_own _ (h loaded.1 loaded.2 hload)).records s

theorem captureRollback_own {engine : Engine} {σ : Type} (env : Env σ) (s : EngineState engine σ) :
    IssuesOwn (captureRollback env) s := by
  have hrole : ∀ role, Issues (Own engine) (captureRole env role : Eng engine σ Json) :=
    fun role => (captureRole_reads role).mono fun _ _ => Reads.own
  refine .bind ((hrole .worker).records s) fun _ s₁ _ => ?_
  refine .bind ((hrole .head).records s₁) fun _ s₂ _ => ?_
  refine .bind ((captureFabricState_reads.mono fun _ _ => Reads.own).records s₂) fun _ s₃ _ => ?_
  exact ⟨[], (List.append_nil _).symm, nofun⟩

/-- **An apply and its recovery** act on the engine's own containers: a recovery that goes back
to a captured pair reads what this apply has captured. -/
theorem apply_own {engine : Engine} {σ : Type} (env : Env σ) (isUpdate : Bool)
    (s : EngineState engine σ) : IssuesOwn (apply env isUpdate) s := by
  refine .bind (((preflight_reads _ _).mono fun _ _ => Reads.own).records s) fun _ s₁ _ => ?_
  refine .bind (captureRollback_own env s₁) fun captured s₂ hcaptured => ?_
  have hbody := @applyBody_issues engine _ env isUpdate
  refine .catchLifecycle ((hbody.mono fun _ _ => applies_own).records s₂) fun original t hrun => ?_
  refine .bind (.catchLifecycle ?_ fun _ _ _ => .throw _) fun _ _ _ => .throw _
  rw [recover]
  split
  · have hfile := hbody.stateFile s₂
    rw [hrun] at hfile
    exact rollback_own env (hfile ▸ ownRecords_of_capture hcaptured)
  · have hcleanup : Issues (Own engine) (do
        cleanupPartial env
        restoreFabricState env (captured.get "fabric") : Eng engine σ PUnit) :=
      cleanupPartial_own.bind fun _ => restoreFabricState_own _
    exact hcleanup.records t

/-- An engine spares a deployment whose names are not its own. -/
theorem sparesOther_of_apart {engine : Engine} {other : Config}
    (hnames : ∀ role role', containerName engine.config role ≠ containerName other role')
    (hfiles : ∀ file ∈ engine.config.roleFiles, ∀ file' ∈ other.roleFiles,
      ¬PosixPath.Same file file') :
    SparesOther engine other where
  apply env isUpdate s := (apply_own env isUpdate s).spares hnames
  start env s := IssuesOwn.spares ((start_own env).records s) hnames
  stop _ s := IssuesOwn.spares ((stopOwned_issues.mono fun _ _ => applies_own).records s) hnames
  rollback env _ h := (rollback_own env h).spares hnames
  captured _ _ _ _ h := ownRecords_of_capture h
  staged := stagedPaths_apart hfiles

/-- The paths are apart if and only if the candidate-namespaced production roots keep off. -/
theorem paths_apart_iff {p c : Config} (hp : p.deployment.mode = .production)
    (hc : c.deployment.mode = .candidate)
    (hroots : ∀ root ∈ c.deployment.roots, isCandidateRoot root = true) :
    (∀ path ∈ p.paths, ∀ path' ∈ c.paths, ¬PosixPath.Same path path') ↔ NamespacesKept p c := by
  constructor
  · intro h root hroot _
    exact ⟨h root (List.mem_append_right _ hroot), fun _ file hfile root' hroot' =>
      h file (List.mem_append_left _ hfile) root' (List.mem_append_right _ hroot')⟩
  · intro h path hpath path' hpath' hsame
    have hremote : p.deployment.remoteRoot ∈ p.deployment.roots := by
      simp [Deployment.roots]
    rcases List.mem_append.1 hpath with hfile | hroot
    · -- a role file of production can only meet a root of the candidate
      rcases List.mem_append.1 hpath' with hfile' | hroot'
      · exact roleFiles_apart hp hc path hfile path' hfile' hsame
      · have hcandidate := isCandidateRoot_of_roleFile hp hfile
          ((isCandidateRoot_congr hsame).2 (hroots path' hroot'))
        exact (h _ hremote hcandidate).2 rfl path hfile path' hroot' hsame
    · have hcandidate : isCandidateRoot path' = true := by
        rcases List.mem_append.1 hpath' with hfile' | hroot'
        · exact isCandidateRoot_roleFile hc path' hfile'
        · exact hroots path' hroot'
      exact (h path hroot ((isCandidateRoot_congr hsame).2 hcandidate)).1 path' hpath' hsame

section Validated

variable {decimals : Decimals} {repository : PosixPath} {values values' : EnvValues}
  {profile profile' : Profile} {p c : Config}

/-- **Production and candidate are isolated** if and only if the candidate-namespaced roots of
production keep off the candidate's paths. -/
theorem modes_isolated_iff (hp : validate decimals repository values profile = .ok p)
    (hc : validate decimals repository values' profile' = .ok c)
    (hproduction : p.deployment.mode = .production) (hcandidate : c.deployment.mode = .candidate) :
    ModesIsolated p c ↔ NamespacesKept p c := by
  have hvalid := validate_ok hp (by simp [hproduction])
  have hvalid' := validate_ok hc (by simp [hcandidate])
  have hpaths := paths_apart_iff hproduction hcandidate (hvalid'.candidateRoots hcandidate)
  refine ⟨fun h => hpaths.1 h.paths, fun h => ?_⟩
  have hnames := containerName_ne hproduction hcandidate
  have hfiles := roleFiles_apart hproduction hcandidate
  refine ⟨?_, hnames, hpaths.2 h, ?_, ?_⟩
  · rw [hvalid.masterPort, hvalid.apiPort, hvalid'.masterPort, hvalid'.apiPort, hproduction,
      hcandidate]
    decide
  · rintro engine rfl
    exact sparesOther_of_apart hnames hfiles
  · rintro engine rfl
    exact sparesOther_of_apart (fun role role' => (hnames role' role).symm)
      fun file hfile file' hfile' hsame => hfiles file' hfile' file hfile hsame.symm

end Validated

/-! ### A production deployment on the roots of a candidate -/

/-- The production configuration with the roots of the candidate. -/
def sharedRootConfig : Config :=
  ⟨defaultProfile, { candidateDeployment with
    mode := .production
    masterPort := 29619
    apiPort := 8101 }⟩

theorem validate_sharedRoot :
    validate asciiDecimals checkout (sharedRootValues .production) defaultProfile =
      .ok sharedRootConfig := by
  decide

theorem modes_isolated_iff_sharedRoot :
    ModesIsolated sharedRootConfig candidateConfig ↔
      NamespacesKept sharedRootConfig candidateConfig :=
  modes_isolated_iff validate_sharedRoot validate_candidate rfl rfl

/-- Validation accepts a production deployment on the very roots of an accepted candidate. -/
theorem production_on_candidate_roots :
    validate asciiDecimals checkout (sharedRootValues .production) defaultProfile =
        .ok sharedRootConfig ∧
      validate asciiDecimals checkout (sharedRootValues .candidate) defaultProfile =
        .ok candidateConfig ∧
      sharedRootConfig.deployment.mode = .production ∧
      candidateConfig.deployment.mode = .candidate ∧
      ¬ModesIsolated sharedRootConfig candidateConfig := by
  refine ⟨validate_sharedRoot, validate_candidate, rfl, rfl, fun h => ?_⟩
  have hroot : "/srv/dgx-spark-candidate/deploy" ∈ sharedRootConfig.deployment.roots := by
    decide
  exact h.paths _ (List.mem_append_right _ hroot) _ (List.mem_append_right _ (by decide)) rfl

end DgxSpark
