import DgxSpark.Host.Command
import DgxSpark.Lifecycle.Apply

/-!
# The commands that each method issues

For every method of the engine that is not itself about removing or creating containers, the
operations that its commands ask for, whatever the nodes answer (`DgxSpark.Issues`). Most of
them only read; applying the fabric adds and activates the profile of its specification.
None of them touches the rollback state file.

Everything that is said elsewhere about a run, which containers it may have touched, which
profile it may have activated, starts from these facts and not from the methods' bodies.
-/

namespace DgxSpark

section Issues

variable {engine : Engine} {σ : Type} {α : Type}

/-- The frame of a method: commands with a property are added to the record, and the state
file stays. -/
def issuing (p : Role → Command → Prop) : Frame (EngineState engine σ) :=
  (Frame.logging (·.records) fun r => p r.role (interpret r.argv)).and
    (Frame.fixed (·.stateFile))

/-- **What a method asks the nodes for.** -/
def Issues (p : Role → Command → Prop) (x : Eng engine σ α) : Prop :=
  Prog.Within (issuing p) x

/-- Nothing but reading. -/
def Reads (_ : Role) (c : Command) : Prop :=
  c.isRead = true

variable {env : Env σ} {p q : Role → Command → Prop} {role : Role}

theorem Issues.mono {x : Eng engine σ α} (h : Issues p x) (hpq : ∀ r c, p r c → q r c) :
    Issues q x := by
  refine Prog.Within.mono h ?_
  rintro s t ⟨⟨new, hn, hp⟩, hf⟩
  exact ⟨⟨new, hn, fun r hr => hpq _ _ (hp r hr)⟩, hf⟩

theorem Issues.records {x : Eng engine σ α} (h : Issues p x) (s : EngineState engine σ) :
    ∃ new, (x s).2.records = s.records ++ new ∧ ∀ r ∈ new, p r.role (interpret r.argv) :=
  (h s).1

theorem Issues.stateFile {x : Eng engine σ α} (h : Issues p x) (s : EngineState engine σ) :
    (x s).2.stateFile = s.stateFile :=
  (h s).2

theorem issues_remote {argv : List String} (h : p role (interpret argv)) :
    Issues p (remote env role argv : Eng engine σ CommandResult) :=
  Prog.Within.ofFn fun _ => ⟨⟨[⟨role, argv, _⟩], rfl, by simpa using h⟩, rfl⟩

theorem issues_run {argv : List String} (h : p role (interpret argv)) :
    Issues p (run env role argv : Eng engine σ PUnit) :=
  (issues_remote h).bind fun _ => .pure _

theorem issues_scp (argv : List String) :
    Issues p (scp env argv : Eng engine σ CommandResult) :=
  Prog.Within.ofFn fun _ => ⟨⟨[], by simp, by simp⟩, rfl⟩

theorem issues_contractFor (role : Role) :
    Issues p (contractFor role : Eng engine σ Contract) :=
  Prog.Within.ofFn fun s => (issuing p).refl s

theorem issues_modify {f : EngineState engine σ → EngineState engine σ}
    (hr : ∀ s, (f s).records = s.records) (hf : ∀ s, (f s).stateFile = s.stateFile) :
    Issues p (Prog.modify f : Eng engine σ PUnit) :=
  Prog.Within.modify fun s => ⟨⟨[], by simp [hr], by simp⟩, hf s⟩

theorem Issues.catchLifecycle {x : Eng engine σ α} {h : Exn → Eng engine σ α} (hx : Issues p x)
    (hh : ∀ e, Issues p (h e)) : Issues p (catchLifecycle x h) :=
  Prog.Within.tryCatch hx fun e => .ite (fun _ => hh e) fun _ => .throw e

theorem Issues.fabricAsLifecycle {x : Eng engine σ α} (hx : Issues p x) :
    Issues p (fabricAsLifecycle x) :=
  Prog.Within.tryCatch hx fun _ => .throw _

theorem issues_inspectRequired (h : ∀ name, p role (.inspect name)) :
    Issues p (inspectRequired env role : Eng engine σ Json) :=
  (issues_contractFor role).bind fun _ => (issues_remote (h _)).bind fun _ => .lift _

theorem issues_inspectOrMissing (h : ∀ name, p role (.inspect name)) :
    Issues p (inspectOrMissing env role : Eng engine σ (Option Json)) := by
  refine (issues_contractFor role).bind fun contract => Prog.Within.bind ?_ fun result => ?_
  · refine Issues.catchLifecycle ((issues_remote (h _)).bind fun _ => .pure _) fun e => ?_
    exact .ite (fun _ => .pure _) fun _ => .throw e
  · rcases result with - | result
    · exact .pure _
    · exact Prog.Within.bind (.lift _) fun _ => .pure _

end Issues

/-! ### One command at a time -/

section Runs

variable {engine : Engine} {σ : Type} (env : Env σ) (role : Role)

@[simp] theorem remote_records (argv : List String) (s : EngineState engine σ) :
    (remote env role argv s).2.records =
      s.records ++ [⟨role, argv, (remote env role argv s).1⟩] := rfl

@[simp] theorem remote_contracts (argv : List String) (s : EngineState engine σ) :
    (remote env role argv s).2.contracts = s.contracts := rfl

@[simp] theorem remote_stateFile (argv : List String) (s : EngineState engine σ) :
    (remote env role argv s).2.stateFile = s.stateFile := rfl

@[simp] theorem remote_gidOverrides (argv : List String) (s : EngineState engine σ) :
    (remote env role argv s).2.gidOverrides = s.gidOverrides := rfl

/-- A command whose output nothing reads. -/
theorem run_eq (argv : List String) (s : EngineState engine σ) :
    run env role argv s =
      ((remote env role argv s).1.map fun _ => ⟨⟩, (remote env role argv s).2) := by
  rw [run, Prog.bind_run]
  rcases remote env role argv s with ⟨e | result, t⟩ <;> rfl

/-- What an inspection makes of what the command gave back. -/
def inspectOutcome (role : Role) : Except Exn CommandResult → Except Exn (Option Json)
  | .ok result => (parseInspect role result).map some
  | .error e => if e.isLifecycle && saysMissing e.message then .ok none else .error e

/-- The container of a role, by the name that the configuration fixes. -/
def Engine.container (engine : Engine) (role : Role) : String :=
  containerName engine.config role

theorem contractFor_run (s : EngineState engine σ) :
    contractFor role s = (.ok (s.contracts role).contract, s) := rfl

theorem contract_container (s : EngineState engine σ) :
    (s.contracts role).contract.container = engine.container role :=
  (s.contracts role).identity.1

/-- **An inspection is one command**, on the container of the role. -/
theorem inspectOrMissing_eq (s : EngineState engine σ) :
    inspectOrMissing env role s =
      (inspectOutcome role (remote env role (inspectArgv (engine.container role)) s).1,
        (remote env role (inspectArgv (engine.container role)) s).2) := by
  rw [inspectOrMissing, Prog.bind_ok (contractFor_run role s), contract_container, Prog.bind_run,
    catchLifecycle, Prog.tryCatch_run, Prog.bind_run]
  rcases remote env role (inspectArgv (engine.container role)) s with ⟨e | result, t⟩
  · by_cases hl : e.isLifecycle = true
    · by_cases hm : saysMissing e.message = true <;> simp [inspectOutcome, hl, hm]
    · simp [inspectOutcome, hl]
  · simp only [Prog.pure_run, inspectOutcome, Prog.bind_run, Prog.lift_run]
    rcases parseInspect role result with e | object <;> rfl

end Runs

/-! ### The operations of the fabric commands -/

/-- Discovery asks for nothing that is modelled of a node. -/
theorem interpret_discoveryCommands {config : Config} {role : Role} {imageRef : String}
    {commands : List (List String)} (h : discoveryCommands config role imageRef = .ok commands) :
    ∀ command ∈ commands, interpret command = .other := by
  obtain ⟨spec, -, h⟩ := except_bind_eq_ok.1 h
  obtain ⟨gid, hother, h⟩ : ∃ gid, interpret gid = .other ∧ Except.ok commands = Except.ok
      ([["ip", "-json", "address", "show", "dev", spec.interface],
        ["ip", "-json", "link", "show", "dev", spec.interface], ["rdma", "-j", "link"],
        ["ibdev2netdev", "-v"]] ++ pingCommands spec ++ [gid]) := by
    cases hi : spec.gidIndex with
    | some index =>
      rw [hi] at h
      obtain ⟨gid, hgid, h⟩ := except_bind_eq_ok.1 h
      exact ⟨gid, interpret_helper hgid, h.symm⟩
    | none =>
      rw [hi] at h
      obtain ⟨gid, hgid, h⟩ := except_bind_eq_ok.1 h
      obtain ⟨_, -, hgid⟩ := except_bind_eq_ok.1 hgid
      exact ⟨gid, interpret_helper hgid, h.symm⟩
  obtain rfl := Except.ok.inj h
  intro command hc
  simp only [List.mem_append, List.mem_singleton] at hc
  rcases hc with (hc | hc) | rfl
  · simp only [List.mem_cons, List.not_mem_nil, or_false] at hc
    rcases hc with rfl | rfl | rfl | rfl <;> rfl
  · rw [pingCommands] at hc
    split at hc
    · simp at hc
    · split at hc
      · simp at hc
      · obtain rfl := List.mem_singleton.1 hc
        rfl
  · exact hother

theorem interpret_gidAttributeCommands {config : Config} {role : Role} {imageRef : String}
    {index : Int} {commands : List String × List String}
    (h : gidAttributeCommands config role imageRef index = .ok commands) :
    interpret commands.1 = .other ∧ interpret commands.2 = .other := by
  obtain ⟨spec, -, h⟩ := except_bind_eq_ok.1 h
  obtain ⟨ndevs, hn, h⟩ := except_bind_eq_ok.1 h
  obtain ⟨types, ht, h⟩ := except_bind_eq_ok.1 h
  obtain rfl := Except.ok.inj h
  exact ⟨interpret_helper hn, interpret_helper ht⟩

theorem interpret_nmConnectionStateCommand {config : Config} {role : Role} {argv : List String}
    (h : nmConnectionStateCommand config role = .ok argv) : interpret argv = .nmShow := by
  obtain ⟨spec, -, h⟩ := except_bind_eq_ok.1 h
  obtain ⟨-, -, h⟩ := except_bind_eq_ok.1 h
  obtain rfl := Except.ok.inj h
  rfl

theorem hostCommand_ensure (name connection interface : String) :
    hostCommand ["/bin/sh", "-c", ensureScript, name, connection, interface] =
      .nmEnsure connection interface := by
  simp [hostCommand]

/-- **The operations of applying the fabric**: the target is added if it is missing, and
activated at the end. -/
theorem interpret_applyCommands {config : Config} {role : Role} {imageRef : String}
    {commands : List (List String)} (h : applyCommands config role imageRef = .ok commands) :
    ∃ spec, fabricSpec config role = .ok spec ∧ spec.profile = .f1 ∧
      commands.map interpret = [.nmEnsure (strOption spec.connection) spec.interface, .other,
        .other, .other, .other, .nmUp (strOption spec.connection)] := by
  obtain ⟨spec, hspec, h⟩ := except_bind_eq_ok.1 h
  obtain ⟨⟨⟩, hf1, h⟩ := except_bind_eq_ok.1 h
  have hf : spec.profile = .f1 := by simpa [fabricFail, failWith_eq_ok] using hf1
  refine ⟨spec, hspec, hf, ?_⟩
  have hmap : commands.map interpret = (applyHostCommands spec).map hostCommand := by
    rw [← List.forall₂_eq_eq_eq, List.forall₂_map_left_iff, List.forall₂_map_right_iff]
    exact (except_mapM_eq_ok.1 h).flip.imp fun _ _ hy => interpret_helper hy
  rw [hmap, applyHostCommands, List.map_cons, hostCommand_ensure]
  rfl

/-! ### The methods that read -/

section Methods

variable {engine : Engine} {σ : Type} {env : Env σ}

theorem reads_of_other {role : Role} {c : Command} (h : c = .other) : Reads role c := by
  rw [h]
  rfl

theorem readGidAttempts_reads {role : Role} {command : List String} {spec : FabricSpec}
    {discovery : Bool} (h : interpret command = .other) (attempts : Nat) :
    Issues Reads (readGidAttempts env role command spec discovery attempts : Eng engine σ _) := by
  induction attempts with
  | zero => exact .throw _
  | succ attempts ih =>
    refine (issues_remote (reads_of_other h)).bind fun result => ?_
    split
    · exact .pure _
    · exact .ite (fun _ => ih) fun _ => .throw _

theorem readGidAttributesAttempts_reads {role : Role} {ndevs types : List String}
    {spec : FabricSpec} (hn : interpret ndevs = .other) (ht : interpret types = .other)
    (attempts : Nat) :
    Issues Reads
      (readGidAttributesAttempts env role ndevs types spec attempts : Eng engine σ PUnit) := by
  induction attempts with
  | zero => exact .throw _
  | succ attempts ih =>
    refine (issues_remote (reads_of_other hn)).bind fun ndev => ?_
    refine (issues_remote (reads_of_other ht)).bind fun type => ?_
    split
    · exact .pure _
    · exact .ite (fun _ => ih) fun _ => .throw _

theorem issues_setGidOverride (role : Role) (index : Int) :
    Issues Reads (setGidOverride role index : Eng engine σ PUnit) :=
  issues_modify (fun _ => rfl) fun _ => rfl

theorem checkDiscovery_reads {role : Role} {requireAddress : Bool} {spec : FabricSpec}
    {command : List String} (h : interpret command = .other) (stdout : String)
    (known : Option Int) :
    Issues Reads
      (checkDiscovery env role requireAddress spec command stdout known : Eng engine σ _) := by
  have hparse : ∀ r : Except Exn Unit, Issues Reads
      ((do Prog.when requireAddress (Prog.lift r)
           return known) : Eng engine σ (Option Int)) := fun r =>
    Prog.Within.bind (.when fun _ => .lift r) fun _ => .pure known
  rw [checkDiscovery]
  refine .ite (fun _ => .pure _) fun _ => .ite (fun _ => hparse _) fun _ =>
    .ite (fun _ => hparse _) fun _ => .ite (fun _ => hparse _) fun _ =>
    .ite (fun _ => ?_) fun _ => .ite (fun _ => ?_) fun _ => .pure _
  · exact .ite (fun _ => (readGidAttempts_reads h _).bind fun _ => .pure _) fun _ => .pure _
  · refine .ite (fun _ => (readGidAttempts_reads h _).bind fun gid => ?_) fun _ => .pure _
    exact Prog.Within.bind (.lift _) fun _ => (issues_setGidOverride role _).bind fun _ => .pure _

theorem runDiscovery_reads {role : Role} {requireAddress : Bool} {spec : FabricSpec}
    {commands : List (List String)} (h : ∀ command ∈ commands, interpret command = .other)
    (known : Option Int) :
    Issues Reads
      (runDiscovery env role requireAddress spec commands known : Eng engine σ _) := by
  induction commands generalizing known with
  | nil => exact .pure _
  | cons command commands ih =>
    have hc : interpret command = .other := h _ (by simp)
    exact (issues_remote (reads_of_other hc)).bind fun result =>
      (checkDiscovery_reads hc _ _).bind fun known => ih (fun c hm => h c (by simp [hm])) known

theorem selectDiscovery_subset {spec : FabricSpec} {requireAddress : Bool}
    {commands : List (List String)} {command : List String}
    (h : command ∈ selectDiscovery spec requireAddress commands) : command ∈ commands := by
  rw [selectDiscovery] at h
  split at h
  · exact h
  · split at h
    · simp at h
    · exact (List.mem_filter.1 h).1

theorem fabricPreflight_reads (role : Role) (requireAddress : Bool) :
    Issues Reads (fabricPreflight env role requireAddress : Eng engine σ PUnit) := by
  refine .ite (fun _ => .pure _) fun _ => Issues.fabricAsLifecycle ?_
  refine Prog.Within.bind (.lift _) fun spec => (issues_contractFor role).bind fun contract => ?_
  refine Prog.Within.bind_lift fun commands hcommands => ?_
  have hother := interpret_discoveryCommands hcommands
  refine (runDiscovery_reads (fun c hc => hother c (selectDiscovery_subset hc)) _).bind
    fun discovered => .when fun _ => ?_
  split
  · exact .throw _
  · refine Prog.Within.bind_lift fun attributes hattributes => ?_
    obtain ⟨hn, ht⟩ := interpret_gidAttributeCommands hattributes
    exact readGidAttributesAttempts_reads hn ht _

theorem preflightModel_reads (role : Role) (contract : Contract) (requireModelMarker : Bool) :
    Issues Reads
      (preflightModel env role contract requireModelMarker : Eng engine σ PUnit) := by
  refine Prog.Within.bind ?_ fun marker => Prog.Within.bind (.lift _) fun _ =>
    Prog.Within.bind (.each fun file _ => issues_run rfl) fun _ => issues_run rfl
  refine Issues.catchLifecycle ((issues_remote rfl).bind fun _ => .pure _) fun e => ?_
  exact .ite (fun _ => .throw _) fun _ => .pure _

theorem preflightImage_reads (role : Role) (contract : Contract) :
    Issues Reads (preflightImage env role contract : Eng engine σ PUnit) :=
  (issues_remote rfl).bind fun _ => Prog.Within.bind (.lift _) fun _ =>
    Prog.Within.bind (.lift _) fun _ => Prog.Within.bind (.lift _) fun _ => .lift _

/-- A preflight only reads. -/
theorem preflight_reads (requireModelMarker requireFabric : Bool) :
    Issues Reads (preflight env requireModelMarker requireFabric : Eng engine σ PUnit) := by
  refine .each fun role _ => ?_
  refine (issues_run rfl).bind fun _ => (issues_run rfl).bind fun _ =>
    (issues_run rfl).bind fun _ => (issues_run rfl).bind fun _ => (issues_run rfl).bind fun _ =>
    (fabricPreflight_reads role _).bind fun _ => (issues_contractFor role).bind fun contract => ?_
  exact (preflightImage_reads role contract).bind fun _ =>
    (preflightModel_reads role contract _).bind fun _ => issues_run rfl

theorem awaitReady_reads (apiPort attempts : Nat) :
    Issues Reads (awaitReady env apiPort attempts : Eng engine σ PUnit) := by
  induction attempts with
  | zero => exact .throw _
  | succ attempts ih =>
    exact Issues.catchLifecycle ((issues_run rfl).bind fun _ => issues_run rfl) fun _ => ih

/-- A verification only reads. -/
theorem verify_reads (withPreflight : Bool) :
    Issues Reads (verify env withPreflight : Eng engine σ PUnit) := by
  refine Prog.Within.bind (.when fun _ => preflight_reads _ _) fun _ =>
    Prog.Within.bind (.each fun role _ => ?_) fun _ =>
    (issues_contractFor _).bind fun _ => awaitReady_reads _ _
  exact (issues_inspectRequired fun _ => rfl).bind fun _ =>
    (issues_contractFor role).bind fun _ => .lift _

/-- Staging makes directories and copies files. -/
theorem stage_reads : Issues Reads (stage env : Eng engine σ PUnit) := by
  refine .each fun role _ => (issues_contractFor _).bind fun _ => (issues_contractFor _).bind
    fun _ => (issues_run rfl).bind fun _ => Prog.Within.get.bind fun _ =>
    Prog.Within.bind (.lift _) fun files => Prog.Within.bind ?_ fun _ => ?_
  · exact .each fun file _ => issues_modify (fun _ => rfl) fun _ => rfl
  · exact .each fun file _ => Prog.Within.bind (.lift _) fun _ =>
      (issues_scp _).bind fun _ => .pure _

theorem readNmState_reads (role : Role) (spec : FabricSpec) :
    Issues Reads (readNmState env role spec : Eng engine σ NmState) := by
  refine Prog.Within.bind_lift fun command hcommand => ?_
  have h : Reads role (interpret command) := by
    rw [interpret_nmConnectionStateCommand hcommand]
    rfl
  exact (issues_remote h).bind fun _ => .lift _

/-- Capturing the fabric only reads. -/
theorem captureFabricState_reads :
    Issues Reads (captureFabricState env : Eng engine σ Json) := by
  have hrole : ∀ role, Issues Reads (captureFabricRole env role : Eng engine σ Json) := fun role =>
    Prog.Within.bind (.lift _) fun spec => (readNmState_reads role spec).bind fun _ => .pure _
  exact .ite (fun _ => .pure _) fun _ =>
    (hrole .worker).bind fun _ => (hrole .head).bind fun _ => .pure _

/-- Capturing a container only reads. -/
theorem captureRole_reads (role : Role) :
    Issues Reads (captureRole env role : Eng engine σ Json) := by
  refine (issues_inspectOrMissing fun _ => rfl).bind fun inspect => ?_
  rcases inspect with - | inspect
  · exact .pure _
  · exact (issues_contractFor role).bind fun _ => Prog.Within.bind (.lift _) fun _ => .lift _

/-! ### Applying the fabric -/

/-- The operations of applying the fabric, and reading. -/
def AppliesFabric (config : Config) (role : Role) (c : Command) : Prop :=
  c.isRead = true ∨ ∃ spec, fabricSpec config role = .ok spec ∧
    (c = .nmEnsure (strOption spec.connection) spec.interface ∨
      c = .nmUp (strOption spec.connection))

theorem applyFabric_issues :
    Issues (AppliesFabric engine.config) (applyFabric env : Eng engine σ PUnit) := by
  refine .ite (fun _ => .pure _) fun _ => Prog.Within.bind (.each fun role _ => ?_) fun _ =>
    Prog.Within.bind (.each fun role _ => (fabricPreflight_reads role true).mono fun _ _ => .inl)
      fun _ => Prog.Within.bind ?_ fun _ => Prog.Within.get.bind fun _ => .lift _
  · refine Issues.fabricAsLifecycle ((issues_contractFor role).bind fun contract =>
      Prog.Within.bind_lift fun commands hcommands => .each fun command hmem => ?_)
    refine (issues_remote ?_).bind fun _ => .pure _
    obtain ⟨spec, hspec, -, hmap⟩ := interpret_applyCommands hcommands
    have hin := List.mem_map_of_mem (f := interpret) hmem
    rw [hmap] at hin
    simp only [List.mem_cons, List.not_mem_nil, or_false] at hin
    rcases hin with hin | hin | hin | hin | hin | hin
    · exact .inr ⟨spec, hspec, .inl hin⟩
    · exact .inl (@reads_of_other role _ hin)
    · exact .inl (@reads_of_other role _ hin)
    · exact .inl (@reads_of_other role _ hin)
    · exact .inl (@reads_of_other role _ hin)
    · exact .inr ⟨spec, hspec, .inr hin⟩
  · exact Prog.Within.get.bind fun _ => Prog.Within.bind (.lift _) fun _ =>
      Prog.Within.bind (.lift _) fun _ => issues_modify (fun _ => rfl) fun _ => rfl

/-! ### Acting on containers -/

/-- The container that is created has the name of its role. -/
theorem interpret_renderContainerArgv {config : Config} {role : Role} {lock : Option Lock}
    {gidIndex : Option Int} {argv : List String}
    (h : renderContainerArgv config role lock gidIndex = .ok argv) :
    ∃ words, interpret argv = .create (containerName config role) words := by
  simp only [renderContainerArgv, except_bind_eq_ok] at h
  obtain ⟨_, -, _, -, _, -, h⟩ := h
  rw [← Except.ok.inj h]
  exact ⟨_, rfl⟩

@[simp] theorem interpret_stopArgv (name : String) : interpret (stopArgv name) = .stop name := rfl

@[simp] theorem interpret_rmArgv (name : String) : interpret (rmArgv name) = .rm name := rfl

@[simp] theorem interpret_startArgv (name : String) : interpret (startArgv name) = .start name := rfl

@[simp] theorem interpret_inspectArgv (name : String) :
    interpret (inspectArgv name) = .inspect name := rfl

/-- The operations of an apply on a role: reading, its fabric, its own container. -/
inductive Applies (engine : Engine) (role : Role) : Command → Prop where
  | read {c : Command} : c.isRead = true → Applies engine role c
  | fabric {c : Command} : AppliesFabric engine.config role c → Applies engine role c
  | stop : Applies engine role (.stop (engine.container role))
  | rm : Applies engine role (.rm (engine.container role))
  | start : Applies engine role (.start (engine.container role))
  | create {gidIndex : Option Int} {argv : List String} :
    renderContainerArgv engine.config role (some engine.lock) gidIndex = .ok argv →
    Applies engine role (interpret argv)

theorem issues_bind_contractFor {role : Role} {p : Role → Command → Prop} {α : Type}
    {f : Contract → Eng engine σ α}
    (hf : ∀ rc : RenderedContract engine.config engine.lock role, Issues p (f rc.contract)) :
    Issues p (contractFor role >>= f) :=
  fun s => hf (s.contracts role) s

theorem stopOwned_issues : Issues (Applies engine) (stopOwned env : Eng engine σ PUnit) := by
  refine .each fun role _ => (issues_inspectOrMissing fun _ => .read rfl).bind fun inspect => ?_
  rcases inspect with - | inspect
  · exact .pure _
  · refine issues_bind_contractFor fun rc => Prog.Within.bind (.lift _) fun _ => .when fun _ => ?_
    rw [rc.identity.1]
    exact issues_run .stop

theorem removeOwned_issues : Issues (Applies engine) (removeOwned env : Eng engine σ PUnit) := by
  refine .each fun role _ => (issues_inspectOrMissing fun _ => .read rfl).bind fun inspect => ?_
  rcases inspect with - | inspect
  · exact .pure _
  · refine issues_bind_contractFor fun rc => Prog.Within.bind (.lift _) fun _ => ?_
    rw [rc.identity.1]
    exact issues_run .rm

theorem create_issues : Issues (Applies engine) (create env : Eng engine σ PUnit) :=
  .each fun _ _ => Prog.Within.get.bind fun _ => Prog.Within.bind_lift fun _ hargv =>
    issues_run (.create hargv)

theorem startAll_issues : Issues (Applies engine) (startAll env : Eng engine σ PUnit) := by
  refine .each fun role _ => (issues_inspectOrMissing fun _ => .read rfl).bind fun inspect =>
    issues_bind_contractFor fun rc => ?_
  rw [rc.identity.1]
  rcases inspect with - | inspect
  · exact issues_run .start
  · exact Prog.Within.bind (.lift _) fun _ => .when fun _ => issues_run .start

/-- The body of `apply`. -/
theorem applyBody_issues (isUpdate : Bool) :
    Issues (Applies engine) (applyBody env isUpdate : Eng engine σ PUnit) :=
  (applyFabric_issues.mono fun _ _ => .fabric).bind fun _ =>
    ((preflight_reads _ _).mono fun _ _ => .read).bind fun _ =>
    Prog.Within.bind (.when fun _ => stopOwned_issues.bind fun _ => removeOwned_issues) fun _ =>
    (stage_reads.mono fun _ _ => .read).bind fun _ =>
    ((preflight_reads _ _).mono fun _ _ => .read).bind fun _ =>
    create_issues.bind fun _ => startAll_issues.bind fun _ =>
    (verify_reads _).mono fun _ _ => .read

/-! ### Restoring the fabric -/

/-- The operations of restoring the fabric: none of them is on a container. -/
def SparesContainers (_ : Role) (c : Command) : Prop :=
  c.sparesContainers = true

theorem Reads.spares {role : Role} {c : Command} (h : Reads role c) : SparesContainers role c :=
  ((Command.isRead_iff c).1 h).1

/-- The mutations of a profile: bringing it down, deleting it, bringing one up. -/
theorem interpret_fabricMutations {contract : Contract} {spec : FabricSpec} {state : Json}
    {current : NmState} {commands : List (List String)}
    (h : (fabricMutations spec state current).mapM (nmcliMutation contract) = .ok commands) :
    ∀ command ∈ commands, ∃ name, interpret command = .nmDown name ∨
      interpret command = .nmDelete name ∨ interpret command = .nmUp name := by
  have hargs : ∀ args ∈ fabricMutations spec state current, ∃ verb name,
      args = ["connection", verb, name] ∧ (verb = "down" ∨ verb = "delete" ∨ verb = "up") := by
    intro args hmem
    simp only [fabricMutations, List.mem_append] at hmem
    rcases hmem with (hmem | hmem) | hmem
    · split at hmem
      · exact ⟨"down", _, List.mem_singleton.1 hmem, .inl rfl⟩
      · simp at hmem
    · split at hmem
      · exact ⟨"delete", _, List.mem_singleton.1 hmem, .inr (.inl rfl)⟩
      · simp at hmem
    · split at hmem
      · exact ⟨"up", _, List.mem_singleton.1 hmem, .inr (.inr rfl)⟩
      · simp at hmem
  intro command hmem
  obtain ⟨args, hin, heq⟩ := exists_of_mem_mapM h hmem
  obtain ⟨verb, name, rfl, rfl | rfl | rfl⟩ := hargs args hin
  · exact ⟨name, .inl (interpret_helper heq)⟩
  · exact ⟨name, .inr (.inl (interpret_helper heq))⟩
  · exact ⟨name, .inr (.inr (interpret_helper heq))⟩

/-- A planned mutation acts on a profile, if on anything. -/
def SparingAction (action : Role × List String) : Prop :=
  (interpret action.2).sparesContainers = true

/-- **A frame that commands keep which spare containers.** -/
def Spared (env : Env σ) (F : Frame (EngineState engine σ)) : Prop :=
  ∀ role argv, (interpret argv).sparesContainers = true →
    Prog.Within F (remote env role argv : Eng engine σ CommandResult)

variable {F : Frame (EngineState engine σ)}

theorem Spared.run (hF : Spared env F) {role : Role} {argv : List String}
    (h : (interpret argv).sparesContainers = true) :
    Prog.Within F (run env role argv : Eng engine σ PUnit) :=
  (hF role argv h).bind fun _ => .pure _

theorem Spared.readNmState (hF : Spared env F) (role : Role) (spec : FabricSpec) :
    Prog.Within F (readNmState env role spec : Eng engine σ NmState) := by
  refine Prog.Within.bind_lift fun command hcommand => ?_
  have h : (interpret command).sparesContainers = true := by
    rw [interpret_nmConnectionStateCommand hcommand]
    rfl
  exact (hF role command h).bind fun _ => .lift _

theorem Spared.planFabricRole (hF : Spared env F) (fabricState : Json) (role : Role) :
    Prog.Within F (planFabricRole env fabricState role : Eng engine σ _) :=
  Prog.Within.bind (.lift _) fun _ => Prog.Within.bind (.lift _) fun spec =>
    Prog.Within.bind (.lift _) fun _ => (hF.readNmState role spec).bind fun _ =>
    Prog.Within.bind (.lift _) fun _ => Prog.Within.bind (.ofFn fun s => F.refl s) fun _ =>
    Prog.Within.bind (.lift _) fun _ => .pure _

theorem planFabricRole_returns (fabricState : Json) (role : Role) :
    Prog.Returns (fun actions => ∀ action ∈ actions, SparingAction action)
      (planFabricRole env fabricState role : Eng engine σ _) := by
  refine .bind fun _ => .bind fun spec => .bind fun _ => .bind fun current => .bind fun _ =>
    .bind fun contract => .bind_lift fun commands hcommands => .pure fun action hmem => ?_
  obtain ⟨command, hc, rfl⟩ := List.mem_map.1 hmem
  obtain ⟨name, h | h | h⟩ := interpret_fabricMutations hcommands command hc <;>
    simp [SparingAction, h, Command.sparesContainers]

theorem Spared.mutateFabric (hF : Spared env F) {action : Role × List String}
    (h : SparingAction action) :
    Prog.Within F (mutateFabric env action : Eng engine σ PUnit) :=
  Prog.Within.tryCatch (hF.run h) fun e => .ite (fun _ => .ite (fun _ => .pure _)
    fun _ => .throw _) fun _ => .throw e

theorem Spared.confirmFabricRole (hF : Spared env F) (fabricState : Json) (role : Role) :
    Prog.Within F (confirmFabricRole env fabricState role : Eng engine σ PUnit) :=
  Prog.Within.bind (.lift _) fun spec => (hF.readNmState role spec).bind fun _ => .lift _

/-- Restoring the fabric is within every frame that commands keep which spare containers. -/
theorem Spared.restoreFabricState (hF : Spared env F) (fabricState : Json) :
    Prog.Within F (restoreFabricState env fabricState : Eng engine σ PUnit) := by
  refine .ite (fun _ => .pure _) fun _ => Prog.Within.bind (.lift _) fun _ => ?_
  refine Prog.Within.bind_returns (hF.planFabricRole _ _) (planFabricRole_returns _ _)
    fun worker hworker => ?_
  refine Prog.Within.bind_returns (hF.planFabricRole _ _) (planFabricRole_returns _ _)
    fun head hhead => ?_
  refine Prog.Within.bind (.each fun action hmem => hF.mutateFabric ?_) fun _ =>
    .each fun role _ => hF.confirmFabricRole fabricState role
  exact (List.mem_append.1 hmem).elim (hworker action) (hhead action)

/-- Restoring the fabric leaves containers alone. -/
theorem restoreFabricState_issues (fabricState : Json) :
    Issues SparesContainers (restoreFabricState env fabricState : Eng engine σ PUnit) :=
  Spared.restoreFabricState (fun _ _ h => issues_remote h) fabricState

/-- Removing legacy profiles leaves containers alone. -/
theorem removeLegacyCandidateProfiles_issues (fabricState : Json) :
    Issues SparesContainers
      (removeLegacyCandidateProfiles env fabricState : Eng engine σ PUnit) := by
  have hplan : ∀ role, Issues SparesContainers
      (planLegacyRole env fabricState role : Eng engine σ _) := fun role =>
    Prog.Within.bind (.lift _) fun _ => Prog.Within.bind (.lift _) fun spec =>
      Prog.Within.bind (.lift _) fun _ =>
      ((readNmState_reads role spec).mono fun _ _ => Reads.spares).bind fun _ =>
      Prog.Within.bind (.lift _) fun _ => .pure _
  have hremove : ∀ role spec current, Issues SparesContainers
      (removeLegacyRole env role spec current : Eng engine σ PUnit) := fun role spec current =>
    .when fun _ => Prog.Within.bind (.when fun _ => issues_run rfl) fun _ => issues_run rfl
  have hconfirm : ∀ role spec, Issues SparesContainers
      (confirmLegacyRole env role spec : Eng engine σ PUnit) := fun role spec =>
    ((readNmState_reads role spec).mono fun _ _ => Reads.spares).bind fun _ =>
      Prog.Within.bind (.lift _) fun _ => .lift _
  exact Prog.Within.bind (.lift _) fun _ => (hplan .worker).bind fun worker =>
    (hplan .head).bind fun head => (hremove _ _ _).bind fun _ => (hremove _ _ _).bind fun _ =>
    (hconfirm _ _).bind fun _ => hconfirm _ _

end Methods

end DgxSpark
