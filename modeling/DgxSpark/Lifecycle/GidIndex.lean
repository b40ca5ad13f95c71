import DgxSpark.Deploy.Limits
import DgxSpark.Deploy.Locks
import DgxSpark.Lifecycle.Issued

/-!
# The GID index of a run

Without configured GID indexes, the index that a role's `NCCL_IB_GID_INDEX` has comes from the
node: each fabric preflight asks for it again, and overwrites what an earlier one had found.
An `apply` has three of them. The contracts are rendered after the first, the files staged
after the second, and the containers created after the third; so a run has one index exactly
when the node gave the same answer before each of these points (`DgxSpark.one_gid_iff`).

| | |
|---|---|
| what the node last answered | `DgxSpark.Engine.lastGid` |
| the answer is the override | `DgxSpark.Settled` |
| the states of a run that returns | `DgxSpark.ApplyRun` |
-/

namespace DgxSpark

/-! ### The answers of a node -/

/-- The command that asks a node of an engine for its GID index. -/
def Engine.gidCommand (engine : Engine) (role : Role) : List String :=
  ((gidDiscoveryCommand engine.config role (engine.lock.image role).reference).toOption).getD []

/-- The index in what a command gave back. -/
def gidOutcome : Except Exn CommandResult → Option Int
  | .ok result => ((parseGidDiscoveryOutput result.stdout).toOption).map Prod.fst
  | .error _ => none

/-- The index that a node last answered with. -/
def Engine.lastGid (engine : Engine) (records : List OperationRecord) (role : Role) :
    Option Int :=
  (records.filter fun r => r.role = role ∧ r.argv = engine.gidCommand role).getLast?.bind
    fun r => gidOutcome r.outcome

section GidIndex

variable {engine : Engine} {σ : Type} {env : Env σ}

theorem lastGid_other {records : List OperationRecord} {r : OperationRecord} {role : Role}
    (h : ¬(r.role = role ∧ r.argv = engine.gidCommand role)) :
    engine.lastGid (records ++ [r]) role = engine.lastGid records role := by
  rw [Engine.lastGid, List.filter_append, List.filter_singleton, decide_eq_false h]
  simp [Engine.lastGid]

theorem lastGid_append_singleton {records : List OperationRecord} {r : OperationRecord}
    {role : Role} (h : r.role = role ∧ r.argv = engine.gidCommand role) :
    engine.lastGid (records ++ [r]) role = gidOutcome r.outcome := by
  rw [Engine.lastGid, List.filter_append, List.filter_singleton, decide_eq_true h]
  simp

/-! ### Commands that leave the index alone -/

/-- The frame of what does not ask for a GID index. -/
def gidFrame : Frame (EngineState engine σ) :=
  (Frame.fixed (·.gidOverrides)).and
    ((Frame.fixed (·.contracts)).and (Frame.fixed fun s => engine.lastGid s.records))

/-- A method that neither asks for a GID index nor changes one. -/
def KeepsGid {α : Type} (x : Eng engine σ α) : Prop :=
  Prog.Within gidFrame x

/-- The question is put through the helper, in a shell. -/
theorem gidCommand_eq (role : Role) :
    engine.gidCommand role = [] ∨ ∃ imageRef script, engine.gidCommand role =
      ["docker", "run", "--rm", "--privileged", "--network", "host", "--entrypoint",
        "/usr/sbin/chroot", "--volume", "/:/host:ro", imageRef, "/host", "/bin/sh", "-c",
        script] := by
  rw [Engine.gidCommand]
  rcases h : gidDiscoveryCommand engine.config role (engine.lock.image role).reference with
    e | argv
  · exact .inl rfl
  · right
    obtain ⟨spec, -, h⟩ := except_bind_eq_ok.1 h
    exact ⟨_, _, helperArgv_eq_ok h⟩

/-- A command with other first words is not the question. -/
theorem ne_gidCommand {argv : List String} (h : argv.take 2 ≠ ["docker", "run"])
    (hne : argv ≠ []) (role : Role) : argv ≠ engine.gidCommand role := by
  rintro rfl
  rcases @gidCommand_eq engine role with hnil | ⟨imageRef, script, heq⟩
  · exact hne hnil
  · exact h (by rw [heq]; rfl)

theorem keepsGid_remote {role : Role} {argv : List String}
    (h : ∀ r, argv ≠ engine.gidCommand r) :
    KeepsGid (remote env role argv : Eng engine σ CommandResult) :=
  Prog.Within.ofFn fun _ => ⟨rfl, rfl, funext fun r => lastGid_other fun hr => h r hr.2⟩

theorem keepsGid_run {role : Role} {argv : List String} (h : ∀ r, argv ≠ engine.gidCommand r) :
    KeepsGid (run env role argv : Eng engine σ PUnit) :=
  (keepsGid_remote h).bind fun _ => .pure _

/-- A command that is not through the helper. -/
theorem keepsGid_plain {role : Role} {argv : List String} (h : argv.take 2 ≠ ["docker", "run"])
    (hne : argv ≠ []) : KeepsGid (run env role argv : Eng engine σ PUnit) :=
  keepsGid_run (ne_gidCommand h hne)

theorem keepsGid_contractFor (role : Role) :
    KeepsGid (contractFor role : Eng engine σ Contract) :=
  Prog.Within.ofFn fun s => gidFrame.refl s

theorem KeepsGid.catchLifecycle {α : Type} {x : Eng engine σ α} {h : Exn → Eng engine σ α}
    (hx : KeepsGid x) (hh : ∀ e, KeepsGid (h e)) : KeepsGid (catchLifecycle x h) :=
  Prog.Within.tryCatch hx fun e => .ite (fun _ => hh e) fun _ => .throw e

theorem keepsGid_inspectOrMissing (role : Role) :
    KeepsGid (inspectOrMissing env role : Eng engine σ (Option Json)) := by
  refine (keepsGid_contractFor role).bind fun contract => Prog.Within.bind ?_ fun result => ?_
  · refine KeepsGid.catchLifecycle ((keepsGid_remote (ne_gidCommand (by simp [inspectArgv])
      (by simp [inspectArgv]))).bind fun _ => .pure _) fun e => ?_
    exact .ite (fun _ => .pure _) fun _ => .throw e
  · rcases result with - | result
    · exact .pure _
    · exact Prog.Within.bind (.lift _) fun _ => .pure _

theorem keepsGid_preflightModel (role : Role) (contract : Contract) (marker : Bool) :
    KeepsGid (preflightModel env role contract marker : Eng engine σ PUnit) := by
  refine Prog.Within.bind ?_ fun _ => Prog.Within.bind (.lift _) fun _ =>
    Prog.Within.bind (.each fun file _ => keepsGid_plain (by simp) (by simp)) fun _ =>
      keepsGid_plain (by simp) (by simp)
  refine KeepsGid.catchLifecycle ((keepsGid_remote (ne_gidCommand (by simp) (by simp))).bind
    fun _ => .pure _) fun e => ?_
  exact .ite (fun _ => .throw _) fun _ => .pure _

theorem keepsGid_preflightImage (role : Role) (contract : Contract) :
    KeepsGid (preflightImage env role contract : Eng engine σ PUnit) :=
  (keepsGid_remote (ne_gidCommand (by simp) (by simp))).bind fun _ =>
    Prog.Within.bind (.lift _) fun _ => Prog.Within.bind (.lift _) fun _ =>
    Prog.Within.bind (.lift _) fun _ => .lift _

theorem keepsGid_stageRole (role : Role) :
    KeepsGid (stageRole env role : Eng engine σ PUnit) := by
  refine (keepsGid_contractFor _).bind fun _ => (keepsGid_contractFor _).bind fun _ =>
    (keepsGid_plain (by simp) (by simp)).bind fun _ => Prog.Within.get.bind fun _ =>
    Prog.Within.bind (.lift _) fun files => Prog.Within.bind ?_ fun _ => ?_
  · exact .each fun file _ => .modify fun s => gidFrame.refl s
  · refine .each fun file _ => Prog.Within.bind (.lift _) fun _ => Prog.Within.bind ?_ fun _ =>
      .pure _
    exact .ofFn fun s => gidFrame.refl s

theorem keepsGid_stopOwnedRole (role : Role) :
    KeepsGid (stopOwnedRole env role : Eng engine σ PUnit) := by
  refine (keepsGid_inspectOrMissing role).bind fun inspect => ?_
  rcases inspect with - | inspect
  · exact .pure _
  · refine (keepsGid_contractFor role).bind fun contract => Prog.Within.bind (.lift _) fun _ =>
      .when fun _ => ?_
    exact keepsGid_plain (by simp [stopArgv]) (by simp [stopArgv])

theorem keepsGid_removeOwnedRole (role : Role) :
    KeepsGid (removeOwnedRole env role : Eng engine σ PUnit) := by
  refine (keepsGid_inspectOrMissing role).bind fun inspect => ?_
  rcases inspect with - | inspect
  · exact .pure _
  · refine (keepsGid_contractFor role).bind fun contract => Prog.Within.bind (.lift _) fun _ => ?_
    exact keepsGid_plain (by simp [rmArgv]) (by simp [rmArgv])

theorem keepsGid_startRole (role : Role) :
    KeepsGid (startRole env role : Eng engine σ PUnit) := by
  refine (keepsGid_inspectOrMissing role).bind fun inspect =>
    (keepsGid_contractFor role).bind fun contract => ?_
  rcases inspect with - | inspect
  · exact keepsGid_plain (by simp [startArgv]) (by simp [startArgv])
  · refine Prog.Within.bind (.lift _) fun _ => .when fun _ => ?_
    exact keepsGid_plain (by simp [startArgv]) (by simp [startArgv])

theorem keepsGid_createRole (role : Role) :
    KeepsGid (createRole env role : Eng engine σ PUnit) := by
  refine Prog.Within.get.bind fun s => Prog.Within.bind_lift fun argv hargv => ?_
  obtain ⟨_, -, h⟩ := except_bind_eq_ok.1 hargv
  obtain ⟨_, -, h⟩ := except_bind_eq_ok.1 h
  obtain ⟨_, -, h⟩ := except_bind_eq_ok.1 h
  obtain rfl := Except.ok.inj h
  exact keepsGid_plain (by simp) (by simp)

/-- What is known after a run that keeps the index. -/
theorem KeepsGid.rel {α : Type} {x : Eng engine σ α} (h : KeepsGid x) {s t : EngineState engine σ}
    {r : Except Exn α} (hx : x s = (r, t)) :
    t.gidOverrides = s.gidOverrides ∧ t.contracts = s.contracts ∧
      engine.lastGid t.records = engine.lastGid s.records := by
  have hrel := h s
  rw [hx] at hrel
  exact hrel

/-! ### A preflight asks -/

/-- The index in use for a role is the last answer of its node. -/
def Settled (role : Role) (s : EngineState engine σ) : Prop :=
  ∃ gid, s.gidOverrides role = some gid ∧ engine.lastGid s.records role = some gid

/-- A run that asks the node of one role, and uses its answer. -/
structure Asks (role : Role) (s t : EngineState engine σ) : Prop where
  contracts : t.contracts = s.contracts
  settled : Settled role t
  others : ∀ r ≠ role, t.gidOverrides r = s.gidOverrides r ∧
    engine.lastGid t.records r = engine.lastGid s.records r

theorem gidOutcome_ok {result : CommandResult} {gid : Int × String}
    (h : parseGidDiscoveryOutput result.stdout = .ok gid) : gidOutcome (.ok result) = some gid.1 := by
  rw [gidOutcome, h]
  rfl

/-- The attempts end with the last answer. -/
theorem readGidAttempts_ok {role : Role} {spec : FabricSpec} {gid : Int × String}
    {attempts : Nat} {s t : EngineState engine σ}
    (h : readGidAttempts env role (engine.gidCommand role) spec true attempts s = (.ok gid, t)) :
    t.gidOverrides = s.gidOverrides ∧ t.contracts = s.contracts ∧
      engine.lastGid t.records role = some gid.1 ∧
      ∀ r ≠ role, engine.lastGid t.records r = engine.lastGid s.records r := by
  induction attempts generalizing s with
  | zero => cases h
  | succ attempts ih =>
    obtain ⟨result, s', hr, h⟩ := Prog.bind_eq_ok.1 h
    have hout : (remote env role (engine.gidCommand role) s).1 = .ok result :=
      congrArg Prod.fst hr
    obtain rfl : (remote env role (engine.gidCommand role) s).2 = s' := congrArg Prod.snd hr
    have hothers : ∀ r ≠ role, engine.lastGid
        (remote env role (engine.gidCommand role) s).2.records r = engine.lastGid s.records r :=
      fun r hne => lastGid_other fun hr => hne hr.1.symm
    rw [parseGid, if_pos rfl] at h
    cases hparse : parseGidDiscoveryOutput result.stdout with
    | ok found =>
      rw [hparse] at h
      obtain ⟨hgid, rfl⟩ := Prod.mk.inj h
      obtain rfl := Except.ok.inj hgid
      refine ⟨rfl, rfl, ?_, hothers⟩
      rw [remote_records, lastGid_append_singleton ⟨rfl, rfl⟩, hout]
      exact gidOutcome_ok hparse
    | error e =>
      rw [hparse] at h
      by_cases hready : e.isFabricNotReady = true
      · simp only [hready, if_true] at h
        obtain ⟨ho, hc, hg, hrest⟩ := ih h
        exact ⟨ho, hc, hg, fun r hne => (hrest r hne).trans (hothers r hne)⟩
      · simp only [hready] at h
        cases h

theorem runDiscovery_append (role : Role) (requireAddress : Bool) (spec : FabricSpec)
    (xs ys : List (List String)) (known : Option Int) :
    (runDiscovery env role requireAddress spec (xs ++ ys) known : Eng engine σ _) =
      runDiscovery env role requireAddress spec xs known >>=
        runDiscovery env role requireAddress spec ys := by
  induction xs generalizing known with
  | nil => rfl
  | cons command xs ih =>
    simp only [List.cons_append, runDiscovery, ih, Prog.bind_assoc]

/-- The commands before the question do not go through the helper. -/
theorem keepsGid_runDiscovery {role : Role} {requireAddress : Bool} {spec : FabricSpec}
    {commands : List (List String)}
    (h : ∀ command ∈ commands, command ≠ [] ∧ command.head? ≠ some "docker")
    (known : Option Int) :
    KeepsGid (runDiscovery env role requireAddress spec commands known : Eng engine σ _) := by
  induction commands generalizing known with
  | nil => exact .pure _
  | cons command commands ih =>
    obtain ⟨hne, hhead⟩ := h command (by simp)
    have htake : command.take 2 ≠ ["docker", "run"] := by
      intro htake
      rcases command with - | ⟨word, words⟩
      · exact hne rfl
      · simp only [List.take_succ_cons, List.cons.injEq] at htake
        exact hhead (by simp [htake.1])
    refine (keepsGid_remote (ne_gidCommand htake hne)).bind fun result =>
      Prog.Within.bind ?_ fun known => ih (fun c hc => h c (by simp [hc])) known
    have hparse : ∀ r : Except Exn Unit, KeepsGid
        ((do Prog.when requireAddress (Prog.lift r)
             return known) : Eng engine σ (Option Int)) := fun r =>
      Prog.Within.bind (.when fun _ => .lift r) fun _ => .pure known
    rw [checkDiscovery]
    exact .ite (fun _ => .pure _) fun _ => .ite (fun _ => hparse _) fun _ =>
      .ite (fun _ => hparse _) fun _ => .ite (fun _ => hparse _) fun _ =>
      .ite (fun hc => absurd hc.1 hhead) fun _ => .ite (fun hc => absurd hc.1 hhead)
        fun _ => .pure _

/-- Without a configured index, the question is the last of the discovery commands. -/
theorem discoveryCommands_split {config : Config} {role : Role} {imageRef : String}
    {spec : FabricSpec} {commands : List (List String)} (hspec : fabricSpec config role = .ok spec)
    (hnone : spec.gidIndex = none) (h : discoveryCommands config role imageRef = .ok commands) :
    ∃ plain gid, commands = plain ++ [gid] ∧
      gidDiscoveryCommand config role imageRef = .ok gid ∧
      ∀ command ∈ plain, command ≠ [] ∧ command.head? ≠ some "docker" := by
  rw [discoveryCommands, hspec] at h
  obtain ⟨_, hsame, h⟩ := except_bind_eq_ok.1 h
  obtain rfl := Except.ok.inj hsame
  rw [hnone] at h
  obtain ⟨gid, hgid, h⟩ := except_bind_eq_ok.1 h
  refine ⟨_, gid, (Except.ok.inj h).symm, hgid, fun command hc => ?_⟩
  rcases List.mem_append.1 hc with hc | hc
  · simp only [List.mem_cons, List.not_mem_nil, or_false] at hc
    rcases hc with rfl | rfl | rfl | rfl <;> simp
  · rw [pingCommands] at hc
    split at hc
    · simp at hc
    · split at hc
      · simp at hc
      · obtain rfl := List.mem_singleton.1 hc
        simp

/-- The words of the question. -/
theorem gidDiscoveryCommand_ok {config : Config} {role : Role} {imageRef : String}
    {command : List String} (h : gidDiscoveryCommand config role imageRef = .ok command) :
    ∃ script, script ≠ "/bin/cat" ∧ command =
      ["docker", "run", "--rm", "--privileged", "--network", "host", "--entrypoint",
        "/usr/sbin/chroot", "--volume", "/:/host:ro", imageRef, "/host", "/bin/sh", "-c",
        script] := by
  obtain ⟨spec, -, h⟩ := except_bind_eq_ok.1 h
  refine ⟨_, fun hscript => ?_, helperArgv_eq_ok h⟩
  -- a script begins with a loop, a path with a slash
  have hhead := congrArg (fun s => s.toList.head?) hscript
  have hloop : "for i in $(seq 0 31); do ".toList.head? = some 'f' := by decide
  have hslash : "/bin/cat".toList.head? = some '/' := by decide
  simp only [String.toList_append, List.append_assoc] at hhead
  rw [List.head?_append, hloop, hslash] at hhead
  cases hhead

/-- What is done with the question's command. -/
theorem checkDiscovery_question {role : Role} {spec : FabricSpec} {config : Config}
    {imageRef : String} {command : List String} (hprofile : spec.profile ≠ .auto)
    (href : imageRef ≠ "/bin/cat") (h : gidDiscoveryCommand config role imageRef = .ok command)
    (stdout : String) (known : Option Int) :
    (checkDiscovery env role true spec command stdout known : Eng engine σ (Option Int)) =
      (do
        let gid ← readGidWithRetry env role command spec true
        Prog.lift (lifecycleFail
          ((engine.config.deployment.settings role).roceGidIndex.any (· != gid.1))
          (role.text ++ " discovered GID index differs from lock"))
        setGidOverride role gid.1
        return some gid.1) := by
  obtain ⟨script, hscript, rfl⟩ := gidDiscoveryCommand_ok h
  have hcat : ¬(List.contains ["docker", "run", "--rm", "--privileged", "--network", "host",
      "--entrypoint", "/usr/sbin/chroot", "--volume", "/:/host:ro", imageRef, "/host", "/bin/sh",
      "-c", script] "/bin/cat" = true) := by
    simp [href.symm, hscript.symm]
  rw [checkDiscovery, if_neg hprofile, if_neg (by simp), if_neg (by simp), if_neg (by simp),
    if_neg fun hc => hcat hc.2, if_pos ⟨rfl, by simp⟩, if_pos rfl]

theorem lift_eq_ok {α : Type} {r : Except Exn α} {s t : EngineState engine σ} {a : α} :
    (Prog.lift r : Eng engine σ α) s = (.ok a, t) ↔ r = .ok a ∧ s = t := by
  rw [Prog.lift_run, Prod.mk.injEq]

theorem fabricAsLifecycle_ok {α : Type} {x : Eng engine σ α} {s t : EngineState engine σ} {a : α} :
    fabricAsLifecycle x s = (.ok a, t) ↔ x s = (.ok a, t) := by
  rw [fabricAsLifecycle, Prog.tryCatch_run]
  rcases x s with ⟨e | b, s'⟩ <;> simp

theorem readGidAttributesAttempts_keepsGid {role : Role} {ndevs types : List String}
    {spec : FabricSpec} (hn : ∀ r, ndevs ≠ engine.gidCommand r)
    (ht : ∀ r, types ≠ engine.gidCommand r) (attempts : Nat) :
    KeepsGid
      (readGidAttributesAttempts env role ndevs types spec attempts : Eng engine σ PUnit) := by
  induction attempts with
  | zero => exact .throw _
  | succ attempts ih =>
    refine (keepsGid_remote hn).bind fun ndev => (keepsGid_remote ht).bind fun type => ?_
    split
    · exact .pure _
    · exact .ite (fun _ => ih) fun _ => .throw _

/-- Reading a file is not the question. -/
theorem cat_ne_gidCommand {imageRef path : String} {argv : List String}
    (h : helperArgv imageRef ["/bin/cat", path] false = .ok argv) (role : Role) :
    argv ≠ engine.gidCommand role := by
  rw [helperArgv_eq_ok h]
  rcases @gidCommand_eq engine role with hnil | ⟨imageRef', script, heq⟩
  · simp [hnil]
  · simp [heq]

/-- The lock names its images by reference: the loader accepts no other. -/
def Engine.Immutable (engine : Engine) : Prop :=
  ∀ role, isImageRef (engine.lock.image role).reference = true

/-- No role has a configured index. -/
def Engine.Unconfigured (engine : Engine) : Prop :=
  ∀ role, (engine.config.deployment.settings role).roceGidIndex.or
    engine.config.deployment.roceGidIndex = none

theorem reference_ne_cat {reference : String} (h : isImageRef reference = true) :
    reference ≠ "/bin/cat" := by
  rintro rfl
  exact absurd h (by decide)

section Unconfigured

variable (hf1 : engine.config.deployment.fabricProfile = .f1) (hnone : engine.Unconfigured)
  (hlock : engine.Immutable)

include hf1 hnone hlock

/-- **A fabric preflight that returns has asked the node**, and uses its last answer. -/
theorem fabricPreflight_asks {role : Role} {s t : EngineState engine σ}
    (h : fabricPreflight env role true s = (.ok ⟨⟩, t)) : Asks role s t := by
  rw [fabricPreflight, hf1, if_neg (by decide), fabricAsLifecycle_ok] at h
  obtain ⟨spec, s₀, hlift, h⟩ := Prog.bind_eq_ok.1 h
  obtain ⟨hspec, rfl⟩ := lift_eq_ok.1 hlift
  have hvalues := fabricSpec_eq_ok hspec
  have hgid : spec.gidIndex = none := by
    rw [hvalues]
    exact hnone role
  have hprofile : spec.profile ≠ .auto := by
    rw [hvalues, specValues, hf1]
    simp
  obtain ⟨contract, s₁, hcontract, h⟩ := Prog.bind_eq_ok.1 h
  obtain ⟨hsame, rfl⟩ := Prod.mk.inj hcontract
  have hreference : contract.image.reference = (engine.lock.image role).reference := by
    rw [← Except.ok.inj hsame, (s.contracts role).identity.2.2]
    rfl
  obtain ⟨commands, s₂, hlift, h⟩ := Prog.bind_eq_ok.1 h
  obtain ⟨hcommands, rfl⟩ := lift_eq_ok.1 hlift
  rw [hreference] at hcommands
  obtain ⟨plain, question, rfl, hquestion, hplain⟩ :=
    discoveryCommands_split hspec hgid hcommands
  have hcommand : question = engine.gidCommand role := by
    rw [Engine.gidCommand, hquestion]
    rfl
  -- the commands before the question, the question's first run, the attempts, the attributes
  obtain ⟨discovered, s₇, hrun, h⟩ := Prog.bind_eq_ok.1 h
  rw [selectDiscovery, if_pos rfl, runDiscovery_append] at hrun
  obtain ⟨known, s₃, hfirst, hrun⟩ := Prog.bind_eq_ok.1 hrun
  obtain ⟨ho₃, hc₃, hl₃⟩ := (keepsGid_runDiscovery hplain none).rel hfirst
  obtain ⟨result, s₄, hresult, hrun⟩ := Prog.bind_eq_ok.1 hrun
  obtain rfl : (remote env role question s₃).2 = s₄ := congrArg Prod.snd hresult
  rw [checkDiscovery_question hprofile (reference_ne_cat (hlock role)) hquestion] at hrun
  obtain ⟨found, s₅, hcheck, hrun⟩ := Prog.bind_eq_ok.1 hrun
  obtain ⟨-, rfl⟩ := Prod.mk.inj hrun
  obtain ⟨gid, s₆, hread, hcheck⟩ := Prog.bind_eq_ok.1 hcheck
  rw [hcommand] at hread
  obtain ⟨ho₆, hc₆, hg₆, hl₆⟩ := readGidAttempts_ok hread
  obtain ⟨_, s₈, hfail, hcheck⟩ := Prog.bind_eq_ok.1 hcheck
  obtain ⟨-, rfl⟩ := lift_eq_ok.1 hfail
  obtain ⟨_, s₉, hset, hcheck⟩ := Prog.bind_eq_ok.1 hcheck
  obtain ⟨-, rfl⟩ := Prod.mk.inj hset
  obtain ⟨-, rfl⟩ := Prod.mk.inj hcheck
  obtain ⟨ho, hc, hl⟩ := KeepsGid.rel (Prog.Within.when fun _ => by
    split
    · exact .throw _
    · refine Prog.Within.bind_lift fun attributes hattr => ?_
      obtain ⟨_, -, hattr⟩ := except_bind_eq_ok.1 hattr
      obtain ⟨ndevs, hn, hattr⟩ := except_bind_eq_ok.1 hattr
      obtain ⟨types, ht, hattr⟩ := except_bind_eq_ok.1 hattr
      obtain rfl := Except.ok.inj hattr
      exact readGidAttributesAttempts_keepsGid (cat_ne_gidCommand hn) (cat_ne_gidCommand ht) _) h
  refine ⟨?_, ⟨gid.1, ?_, ?_⟩, fun r hne => ⟨?_, ?_⟩⟩
  · rw [hc]
    exact hc₆.trans hc₃
  · rw [ho]
    exact if_pos rfl
  · rw [hl]
    exact hg₆
  · rw [ho]
    exact (if_neg hne).trans (congrFun (ho₆.trans ho₃) r)
  · rw [hl]
    refine (hl₆ r hne).trans ((lastGid_other fun hr => hne hr.1.symm).trans ?_)
    exact congrFun hl₃ r

/-- The contracts are the same, and some roles are settled. -/
def Kept (roles : List Role) (contracts : ∀ role, RenderedContract engine.config engine.lock role)
    (s : EngineState engine σ) : Prop :=
  s.contracts = contracts ∧ ∀ role ∈ roles, Settled role s

omit hf1 hnone hlock in
theorem KeepsGid.kept {α : Type} {x : Eng engine σ α} (h : KeepsGid x)
    {s t : EngineState engine σ} {r : Except Exn α} (hx : x s = (r, t)) {roles : List Role}
    {contracts : ∀ role, RenderedContract engine.config engine.lock role}
    (hs : Kept roles contracts s) : Kept roles contracts t := by
  obtain ⟨ho, hc, hl⟩ := h.rel hx
  refine ⟨hc.trans hs.1, fun role hrole => ?_⟩
  obtain ⟨gid, hgid, hlast⟩ := hs.2 role hrole
  exact ⟨gid, by rw [ho, hgid], by rw [hl, hlast]⟩

omit hf1 hnone hlock in
theorem Asks.kept {role : Role} {s t : EngineState engine σ} (h : Asks role s t)
    {roles : List Role} {contracts : ∀ role, RenderedContract engine.config engine.lock role}
    (hs : Kept roles contracts s) : Kept (role :: roles) contracts t := by
  refine ⟨h.contracts.trans hs.1, fun r hr => ?_⟩
  by_cases hrole : r = role
  · rw [hrole]
    exact h.settled
  · obtain ⟨gid, hgid, hlast⟩ := hs.2 r ((List.mem_cons.1 hr).resolve_left hrole)
    obtain ⟨ho, hl⟩ := h.others r hrole
    exact ⟨gid, by rw [ho, hgid], by rw [hl, hlast]⟩

omit hf1 hnone hlock in
theorem each_roleOrder_ok {f : Role → Eng engine σ PUnit} {s t : EngineState engine σ} :
    Prog.each roleOrder f s = (.ok ⟨⟩, t) ↔
      ∃ mid, f .worker s = (.ok ⟨⟩, mid) ∧ f .head mid = (.ok ⟨⟩, t) := by
  rw [roleOrder, Prog.each_cons, Prog.bind_eq_ok]
  simp only [Prog.each_cons, Prog.each_nil, Prog.bind_eq_ok]
  constructor
  · rintro ⟨_, mid, hw, _, last, hh, hend⟩
    obtain ⟨-, rfl⟩ := Prod.mk.inj hend
    exact ⟨mid, hw, hh⟩
  · rintro ⟨mid, hw, hh⟩
    exact ⟨_, mid, hw, _, t, hh, rfl⟩

theorem preflightRole_kept {role : Role} {marker : Bool} {s t : EngineState engine σ}
    (h : preflightRole env marker true role s = (.ok ⟨⟩, t)) {roles : List Role}
    {contracts : ∀ role, RenderedContract engine.config engine.lock role}
    (hs : Kept roles contracts s) : Kept (role :: roles) contracts t := by
  have hplain : ∀ {argv : List String} {s t : EngineState engine σ} {r : Except Exn PUnit},
      argv.take 2 ≠ ["docker", "run"] → argv ≠ [] → run env role argv s = (r, t) →
        Kept roles contracts s → Kept roles contracts t :=
    fun htake hne hx hs => (keepsGid_plain htake hne).kept hx hs
  obtain ⟨_, s₁, hx, h₁⟩ := Prog.bind_eq_ok.1 h
  have hs₁ := hplain (by simp) (by simp) hx hs
  obtain ⟨_, s₂, hx, h₂⟩ := Prog.bind_eq_ok.1 h₁
  have hs₂ := hplain (by simp) (by simp) hx hs₁
  obtain ⟨_, s₃, hx, h₃⟩ := Prog.bind_eq_ok.1 h₂
  have hs₃ := hplain (by simp) (by simp) hx hs₂
  obtain ⟨_, s₄, hx, h₄⟩ := Prog.bind_eq_ok.1 h₃
  have hs₄ := hplain (by simp) (by simp) hx hs₃
  obtain ⟨_, s₅, hx, h₅⟩ := Prog.bind_eq_ok.1 h₄
  have hs₅ := hplain (by simp) (by simp) hx hs₄
  obtain ⟨_, s₆, hx, h₆⟩ := Prog.bind_eq_ok.1 h₅
  have hs₆ := (fabricPreflight_asks hf1 hnone hlock hx).kept hs₅
  refine KeepsGid.kept ((keepsGid_contractFor role).bind fun contract =>
    (keepsGid_preflightImage role contract).bind fun _ =>
      (keepsGid_preflightModel role contract marker).bind fun _ => ?_) h₆ hs₆
  exact keepsGid_plain (by simp) (by simp)

/-- **A preflight with the fabric settles both roles**, and keeps the contracts. -/
theorem preflight_kept {marker : Bool} {s t : EngineState engine σ}
    (h : preflight env marker true s = (.ok ⟨⟩, t)) :
    t.contracts = s.contracts ∧ ∀ role, Settled role t := by
  obtain ⟨mid, hworker, hhead⟩ := each_roleOrder_ok.1 h
  have hs : Kept [] s.contracts s := ⟨rfl, by simp⟩
  have hmid := preflightRole_kept hf1 hnone hlock hworker hs
  obtain ⟨hc, hsettled⟩ := preflightRole_kept hf1 hnone hlock hhead hmid
  exact ⟨hc, fun role => hsettled role (by cases role <;> simp)⟩

omit hf1 hnone hlock in
theorem renderFor_gidIndex {config : Config} {lock : Lock} {role : Role} {gidIndex : Option Int}
    {rc : RenderedContract config lock role} (h : renderFor config lock role gidIndex = .ok rc) :
    rc.gidIndex = gidIndex := by
  rw [renderFor] at h
  split at h
  · rw [← Except.ok.inj h]
  · cases h

/-- **Applying the fabric settles both roles**, and renders their contracts with the answers. -/
theorem applyFabric_settles {s t : EngineState engine σ}
    (h : applyFabric env s = (.ok ⟨⟩, t)) :
    ∀ role, Settled role t ∧ (t.contracts role).gidIndex = t.gidOverrides role := by
  rw [applyFabric, hf1, if_neg (by simp)] at h
  obtain ⟨_, s₁, -, h₁⟩ := Prog.bind_eq_ok.1 h
  obtain ⟨_, s₂, hpreflight, h₂⟩ := Prog.bind_eq_ok.1 h₁
  obtain ⟨mid, hworker, hhead⟩ := each_roleOrder_ok.1 hpreflight
  have hs₁ : Kept [] s₁.contracts s₁ := ⟨rfl, by simp⟩
  have hmid := (fabricPreflight_asks hf1 hnone hlock hworker).kept hs₁
  obtain ⟨-, hsettled⟩ := (fabricPreflight_asks hf1 hnone hlock hhead).kept hmid
  obtain ⟨_, s₃, hrefresh, h₃⟩ := Prog.bind_eq_ok.1 h₂
  obtain ⟨before, s₄, hget, h₄⟩ := Prog.bind_eq_ok.1 hrefresh
  obtain ⟨hbefore, rfl⟩ := Prod.mk.inj hget
  obtain rfl := Except.ok.inj hbefore
  obtain ⟨worker, s₅, hlift, h₅⟩ := Prog.bind_eq_ok.1 h₄
  obtain ⟨hrenderWorker, rfl⟩ := lift_eq_ok.1 hlift
  obtain ⟨head, s₆, hlift, h₆⟩ := Prog.bind_eq_ok.1 h₅
  obtain ⟨hrenderHead, rfl⟩ := lift_eq_ok.1 hlift
  obtain ⟨-, rfl⟩ := Prod.mk.inj h₆
  obtain ⟨_, s₇, hget, h₇⟩ := Prog.bind_eq_ok.1 h₃
  obtain ⟨-, rfl⟩ := Prod.mk.inj hget
  obtain ⟨-, rfl⟩ := lift_eq_ok.1 h₇
  intro role
  refine ⟨hsettled role (by cases role <;> simp), ?_⟩
  cases role with
  | worker => exact renderFor_gidIndex hrenderWorker
  | head => exact renderFor_gidIndex hrenderHead

end Unconfigured

/-! ### Where an index is carried -/

/-- The variable of the GID index. -/
def gidVariable : String := "NCCL_IB_GID_INDEX"

/-- A contract with this index, in its environment and in its fabric. -/
def Contract.HasGid (c : Contract) (gid : Int) : Prop :=
  c.environment.lookup gidVariable = some (toString gid) ∧ c.fabric.gidIndex = some gid

/-- The same of a contract document. -/
def DocumentHasGid (value : Json) (gid : Int) : Prop :=
  (value.get "environment").get gidVariable = .str (toString gid) ∧
    (value.get "fabric").get "gid_index" = .int gid

/-- The value that the `--env` options of a command line give a variable. -/
def envOption (key : String) : List String → Option String
  | [] => none
  | [_] => none
  | option :: word :: words =>
    if option = "--env" ∧ (Text.cut '=' word).map Prod.fst = some key then
      (Text.cut '=' word).map Prod.snd
    else envOption key (word :: words)

theorem cut_assignment {key : String} (h : '=' ∉ key.toList) (value : String) :
    Text.cut '=' (key ++ "=" ++ value) = some (key, value) := by
  have hchars : (key ++ "=" ++ value).toList = key.toList ++ '=' :: value.toList := by simp
  rw [Text.cut, Text.chars_eq, hchars, Text.cutAt_append h]
  simp

theorem envOption_cons {option : String} (h : option ≠ "--env") (key : String)
    (words : List String) : envOption key (option :: words) = envOption key words := by
  cases words with
  | nil => rfl
  | cons word words => rw [envOption, if_neg fun hc => h hc.1]

theorem envOption_append {pre : List String} (h : "--env" ∉ pre) (key : String)
    (words : List String) : envOption key (pre ++ words) = envOption key words := by
  induction pre with
  | nil => rfl
  | cons option pre ih =>
    obtain ⟨hne, hpre⟩ := not_or.1 (List.mem_cons.not.1 h)
    rw [List.cons_append, envOption_cons (Ne.symm hne), ih hpre]

/-- The options of an environment give its variables. -/
theorem envOption_environment {environment : List (String × String)} {key value : String}
    (hnames : ∀ p ∈ environment, '=' ∉ p.1.toList) (h : environment.lookup key = some value)
    (words : List String) :
    envOption key ((environment.flatMap fun p => ["--env", p.1 ++ "=" ++ p.2]) ++ words) =
      some value := by
  induction environment with
  | nil => cases h
  | cons p environment ih =>
    obtain ⟨name, text⟩ := p
    have hcut := cut_assignment (hnames _ List.mem_cons_self) text
    have hword : name ++ "=" ++ text ≠ "--env" := by
      intro heq
      have hmem : '=' ∈ (name ++ "=" ++ text).toList := by simp
      rw [heq] at hmem
      exact absurd hmem (by decide)
    rw [List.flatMap_cons, List.append_assoc, List.cons_append, List.cons_append, List.nil_append,
      envOption, hcut]
    by_cases hkey : name = key
    · subst hkey
      rw [List.lookup_cons_self] at h
      rw [if_pos ⟨rfl, rfl⟩, Option.map_some, h]
    · rw [if_neg fun hc => hkey (Option.some.inj hc.2), envOption_cons hword]
      rw [List.lookup_cons, beq_eq_false_iff_ne.2 (Ne.symm hkey)] at h
      exact ih (fun q hq => hnames q (List.mem_cons_of_mem _ hq)) h

/-- A word that begins otherwise is not the option. -/
theorem ne_envOption {a : String} (h : a.toList.head?.any (· != '-') = true) (b : String) :
    "--env" ≠ a ++ b := by
  intro heq
  have hhead := congrArg (fun s => s.toList.head?) heq
  have hdash : "--env".toList.head? = some '-' := by decide
  obtain ⟨c, hc, hne⟩ := (Option.any_eq_true _ _).1 h
  rw [hdash, String.toList_append, List.head?_append, hc] at hhead
  obtain rfl := Option.some.inj hhead
  exact absurd hne (by decide)

theorem mem_renderEnvironment {config : Config} {role : Role} {gid : Option Int}
    {p : String × String} :
    p ∈ renderEnvironment config role gid ↔ p ∈ environmentAssignments config role gid :=
  (List.perm_insertionSort nameLe _).mem_iff

/-- A rendered environment has the index it is rendered with. -/
theorem lookup_gidVariable (config : Config) (role : Role) (gid : Int) :
    (renderEnvironment config role (some gid)).lookup gidVariable = some (toString gid) := by
  rw [Json.lookup_eq_some_iff (renderEnvironment_nodup config role _), mem_renderEnvironment]
  simp [environmentAssignments, effectiveGid, gidVariable]

theorem notMem_environment_names {config : Config} {role : Role} {gid : Option Int} :
    ∀ p ∈ renderEnvironment config role gid, '=' ∉ p.1.toList := by
  intro p hp
  have hmem := (environmentAssignments_names config role gid).subset
    (List.mem_map_of_mem (mem_renderEnvironment.1 hp))
  have hall : (environmentNames.all fun name => !name.toList.contains '=') = true := by
    decide
  simpa using List.all_eq_true.1 hall _ hmem

/-- **A container is created with the index** that its command is rendered with. -/
theorem envOption_renderContainerArgv {config : Config} {role : Role} {lock : Option Lock}
    {gid : Int} {argv : List String} (hmode : config.deployment.mode ≠ .generic)
    (h : renderContainerArgv config role lock (some gid) = .ok argv) :
    envOption gidVariable argv = some (toString gid) := by
  obtain ⟨required, hrequired, h⟩ := except_bind_eq_ok.1 h
  obtain ⟨destination, -, h⟩ := except_bind_eq_ok.1 h
  obtain ⟨serviceArgv, -, h⟩ := except_bind_eq_ok.1 h
  obtain rfl := Except.ok.inj h
  have hname : "--env" ≠ containerName config role := by
    rw [containerName]
    cases hm : config.deployment.mode with
    | production => exact ne_envOption (by decide) _
    | candidate =>
      simp only [String.append_assoc]
      exact ne_envOption (by decide) _
    | generic => exact absurd hm hmode
  have hlabels : "--env" ∉ required.flatten := by
    intro hmem
    obtain ⟨words, hwords, hin⟩ := List.mem_flatten.1 hmem
    obtain ⟨key, hkey, hlabel⟩ := exists_of_mem_mapM hrequired hwords
    obtain ⟨value, -, hlabel⟩ := except_bind_eq_ok.1 hlabel
    obtain rfl := Except.ok.inj hlabel
    have hall : (requiredImageLabels.all fun key => key.toList.head?.any (· != '-')) = true := by
      decide
    simp only [List.mem_cons, List.not_mem_nil, or_false, String.append_assoc] at hin
    rcases hin with hin | hin
    · exact absurd hin (by decide)
    · exact ne_envOption (List.all_eq_true.1 hall key hkey) _ hin
  have hid := ne_envOption (a := "com.dgx-spark.deployment_id=") (by decide)
    (deploymentId config)
  have hrole := ne_envOption (a := "com.dgx-spark.role=") (by decide) role.text
  have hstart : "--env" ∉ ["docker", "container", "create", "--name", containerName config role,
      "--hostname", containerName config role, "--network", "host", "--ipc", "host", "--gpus",
      "all", "--shm-size", "68719476736", "--workdir", "/workspace/vllm", "--ulimit",
      "memlock=-1", "--ulimit", "nofile=1048576:1048576", "--label",
      "com.dgx-spark.deployment_id=" ++ deploymentId config, "--label",
      "com.dgx-spark.role=" ++ role.text] := by
    simp [hname, hid, hrole]
  have hisolation : "--env" ∉ if config.deployment.mode = .generic
      then ["--read-only", "--security-opt", "no-new-privileges:true"]
      else ["--privileged", "--security-opt", "label=disable"] := by
    rw [if_neg hmode]
    simp
  simp only [List.append_assoc]
  rw [envOption_append hstart, envOption_append hisolation, envOption_append hlabels]
  exact envOption_environment notMem_environment_names (lookup_gidVariable config role gid) _

theorem get_environmentJson {environment : List (String × String)} {key value : String}
    (h : environment.lookup key = some value) :
    (environmentJson environment).get key = .str value := by
  have hlookup : ((environment.map fun p => (p.1, Json.str p.2)).lookup key) =
      some (.str value) := by
    induction environment with
    | nil => cases h
    | cons p environment ih =>
      rw [List.map_cons, List.lookup_cons]
      rw [List.lookup_cons] at h
      cases hk : key == p.1 with
      | true =>
        rw [hk] at h
        exact congrArg (fun v => some (Json.str v)) (Option.some.inj h)
      | false =>
        rw [hk] at h
        exact ih h
  rw [environmentJson, Json.get, Json.find?, Json.members, hlookup]
  rfl

/-- The index of a contract document is the index of the contract. -/
theorem documentHasGid_sortKeys {c : Contract} (h : (c.environment.map Prod.fst).Nodup)
    {gid : Int} (hgid : c.HasGid gid) : DocumentHasGid c.toJson.sortKeys gid := by
  have hwf := Contract.wf_toJson h
  have henvironment : c.toJson.get "environment" = environmentJson c.environment := rfl
  have hfabric : c.toJson.get "fabric" = c.fabric.toJson := rfl
  have hvariable := get_environmentJson hgid.1
  have hwfEnvironment : (environmentJson c.environment).WF := wf_textMapping h
  have hindex : c.fabric.toJson.get "gid_index" = .int gid := by
    change Json.ofInt? c.fabric.gidIndex = _
    rw [hgid.2]
    rfl
  refine ⟨?_, ?_⟩
  · rw [Json.get_sortKeys hwf, henvironment, Json.get_sortKeys hwfEnvironment, hvariable]
    rfl
  · rw [Json.get_sortKeys hwf, hfabric, Json.get_sortKeys c.fabric.wf_toJson, hindex]
    rfl

theorem hasGid_of_renderContract {config : Config} {role : Role} {lock : Option Lock} {gid : Int}
    {c : Contract} (h : renderContract config role lock (some gid) = .ok c) : c.HasGid gid := by
  refine ⟨?_, ?_⟩
  · rw [(rendered_of_renderContract h).environment_eq]
    exact lookup_gidVariable config role gid
  · obtain ⟨_, -, h⟩ := except_bind_eq_ok.1 h
    obtain ⟨_, -, h⟩ := except_bind_eq_ok.1 h
    obtain ⟨_, -, h⟩ := except_bind_eq_ok.1 h
    obtain ⟨_, -, h⟩ := except_bind_eq_ok.1 h
    obtain rfl := Except.ok.inj h
    rfl

theorem Contract.HasGid.unique {c : Contract} {gid gid' : Int} (h : c.HasGid gid)
    (h' : c.HasGid gid') : gid = gid' :=
  Option.some.inj (h.2.symm.trans h'.2)

/-! ### The states of a run -/

/-- The states that an `apply` goes through when it returns: with its capture, with the fabric
applied and the contracts rendered, before it stages, before it creates, before it verifies. -/
structure ApplyRun (env : Env σ) (isUpdate : Bool)
    (s captured refreshed staging creating verifying t : EngineState engine σ) : Prop where
  capture : ∃ record, (do
    preflight env false false
    captureRollback env) s = (.ok record, captured)
  fabric : applyFabric env captured = (.ok ⟨⟩, refreshed)
  prepare : (do
    preflight env false true
    Prog.when isUpdate do
      stopOwned env
      removeOwned env) refreshed = (.ok ⟨⟩, staging)
  stage : (do
    stage env
    preflight env true true) staging = (.ok ⟨⟩, creating)
  create : (do
    create env
    startAll env) creating = (.ok ⟨⟩, verifying)
  verify : verify env false verifying = (.ok ⟨⟩, t)

/-- An `apply` returns only when its body does: the handler raises again. -/
theorem applyRun_of_ok {isUpdate : Bool} {s t : EngineState engine σ}
    (h : apply env isUpdate s = (.ok ⟨⟩, t)) :
    ∃ captured refreshed staging creating verifying,
      ApplyRun env isUpdate s captured refreshed staging creating verifying t := by
  obtain ⟨_, s₁, hpreflight, h⟩ := Prog.bind_eq_ok.1 h
  obtain ⟨record, captured, hcapture, h⟩ := Prog.bind_eq_ok.1 h
  have hbody : applyBody env isUpdate captured = (.ok ⟨⟩, t) := by
    rw [catchLifecycle, Prog.tryCatch_run] at h
    rcases hrun : applyBody env isUpdate captured with ⟨e | ⟨⟩, s'⟩
    · rw [hrun] at h
      dsimp only at h
      split at h
      · obtain ⟨_, s'', -, hraise⟩ := Prog.bind_eq_ok.1 h
        cases hraise
      · cases h
    · rw [hrun] at h
      exact h
  obtain ⟨_, refreshed, hfabric, h₁⟩ := Prog.bind_eq_ok.1 hbody
  obtain ⟨_, s₂, hchecked, h₂⟩ := Prog.bind_eq_ok.1 h₁
  obtain ⟨_, staging, hremoved, h₃⟩ := Prog.bind_eq_ok.1 h₂
  obtain ⟨_, s₃, hstaged, h₄⟩ := Prog.bind_eq_ok.1 h₃
  obtain ⟨_, creating, hready, h₅⟩ := Prog.bind_eq_ok.1 h₄
  obtain ⟨_, s₄, hcreated, h₆⟩ := Prog.bind_eq_ok.1 h₅
  obtain ⟨_, verifying, hstarted, hverified⟩ := Prog.bind_eq_ok.1 h₆
  exact ⟨captured, refreshed, staging, creating, verifying,
    ⟨record, Prog.bind_eq_ok.2 ⟨_, s₁, hpreflight, hcapture⟩⟩, hfabric,
    Prog.bind_eq_ok.2 ⟨_, s₂, hchecked, hremoved⟩, Prog.bind_eq_ok.2 ⟨_, s₃, hstaged, hready⟩,
    Prog.bind_eq_ok.2 ⟨_, s₄, hcreated, hstarted⟩, hverified⟩

/-- The state in which a loop over the roles comes to a role. -/
def atRole (f : Role → Eng engine σ PUnit) (s : EngineState engine σ) : Role → EngineState engine σ
  | .worker => s
  | .head => (f .worker s).2

theorem KeepsGid.atRole {f : Role → Eng engine σ PUnit} (h : KeepsGid (f .worker))
    (s : EngineState engine σ) (role : Role) :
    (atRole f s role).gidOverrides = s.gidOverrides ∧ (atRole f s role).contracts = s.contracts := by
  cases role with
  | worker => exact ⟨rfl, rfl⟩
  | head => exact ⟨(h s).1, (h s).2.1⟩

/-- **A role has one index**: in the contract and the environment file that are staged, in the
command that creates its container, and in the contract that is verified. -/
structure OneGid (env : Env σ) (staging creating verifying : EngineState engine σ) (role : Role)
    (gid : Int) : Prop where
  staged : ∃ contractFile envFile modelFile,
    stagedFiles engine.config engine.lock role
        ((atRole (stageRole env) staging role).gidOverrides role)
        ((atRole (stageRole env) staging role).contracts role).contract
        ((atRole (stageRole env) staging role).contracts .head).contract =
      .ok [contractFile, envFile, modelFile] ∧
    (∃ value, Json.loads contractFile.text = some value ∧ DocumentHasGid value gid) ∧
    ∃ environment, envFile.text = environmentText environment ∧
      environment.lookup gidVariable = some (toString gid)
  created : ∃ argv outcome,
    (createRole env role (atRole (createRole env) creating role)).2.records =
      (atRole (createRole env) creating role).records ++ [⟨role, argv, outcome⟩] ∧
    envOption gidVariable argv = some (toString gid)
  verified : (verifying.contracts role).contract.HasGid gid

/-- **The node gave one answer**: before the contracts were rendered, before the files were
staged, and before the containers were created. -/
def SameAnswer (refreshed staging creating : EngineState engine σ) (role : Role) : Prop :=
  engine.lastGid refreshed.records role = engine.lastGid staging.records role ∧
    engine.lastGid staging.records role = engine.lastGid creating.records role

theorem DocumentHasGid.unique {value : Json} {gid gid' : Int} (h : DocumentHasGid value gid)
    (h' : DocumentHasGid value gid') : gid = gid' :=
  Json.int.inj (h.2.symm.trans h'.2)

theorem keepsGid_stage : KeepsGid (stage env : Eng engine σ PUnit) :=
  .each fun role _ => keepsGid_stageRole role

theorem keepsGid_create : KeepsGid (create env : Eng engine σ PUnit) :=
  .each fun role _ => keepsGid_createRole role

theorem keepsGid_startAll : KeepsGid (startAll env : Eng engine σ PUnit) :=
  .each fun role _ => keepsGid_startRole role

theorem keepsGid_replace : KeepsGid (do
    stopOwned env
    removeOwned env : Eng engine σ PUnit) :=
  Prog.Within.bind (.each fun role _ => keepsGid_stopOwnedRole role) fun _ =>
    .each fun role _ => keepsGid_removeOwnedRole role

/-- What a loop over the roles does for each of them, when it returns. -/
theorem atRole_ok {f : Role → Eng engine σ PUnit} {s t : EngineState engine σ}
    (h : Prog.each roleOrder f s = (.ok ⟨⟩, t)) (role : Role) :
    ∃ after, f role (atRole f s role) = (.ok ⟨⟩, after) := by
  obtain ⟨mid, hworker, hhead⟩ := each_roleOrder_ok.1 h
  cases role with
  | worker => exact ⟨mid, hworker⟩
  | head =>
    refine ⟨t, ?_⟩
    rw [atRole, hworker]
    exact hhead

/-- **Staging a role** writes the files of its index. -/
theorem stageRole_ok {role : Role} {s t : EngineState engine σ}
    (h : stageRole env role s = (.ok ⟨⟩, t)) :
    ∃ files, stagedFiles engine.config engine.lock role (s.gidOverrides role)
      (s.contracts role).contract (s.contracts .head).contract = .ok files := by
  obtain ⟨contract, s₁, hx, h₁⟩ := Prog.bind_eq_ok.1 h
  obtain ⟨hcontract, rfl⟩ := Prod.mk.inj hx
  obtain ⟨head, s₂, hx, h₂⟩ := Prog.bind_eq_ok.1 h₁
  obtain ⟨hhead, rfl⟩ := Prod.mk.inj hx
  obtain ⟨_, s₃, hx, h₃⟩ := Prog.bind_eq_ok.1 h₂
  obtain ⟨ho, -, -⟩ := (keepsGid_plain (by simp) (by simp)).rel hx
  obtain ⟨before, s₄, hx, h₄⟩ := Prog.bind_eq_ok.1 h₃
  obtain ⟨hbefore, rfl⟩ := Prod.mk.inj hx
  obtain ⟨files, s₅, hx, -⟩ := Prog.bind_eq_ok.1 h₄
  obtain ⟨hfiles, -⟩ := lift_eq_ok.1 hx
  rw [← Except.ok.inj hbefore, ho, ← Except.ok.inj hcontract, ← Except.ok.inj hhead] at hfiles
  exact ⟨files, hfiles⟩

/-- **Creating a role** issues the command of its index. -/
theorem createRole_ok {role : Role} {s t : EngineState engine σ}
    (h : createRole env role s = (.ok ⟨⟩, t)) :
    ∃ argv outcome, renderContainerArgv engine.config role (some engine.lock)
        (s.gidOverrides role) = .ok argv ∧ t.records = s.records ++ [⟨role, argv, outcome⟩] := by
  obtain ⟨before, s₁, hx, h₁⟩ := Prog.bind_eq_ok.1 h
  obtain ⟨hbefore, rfl⟩ := Prod.mk.inj hx
  obtain ⟨argv, s₂, hx, h₂⟩ := Prog.bind_eq_ok.1 h₁
  obtain ⟨hargv, rfl⟩ := lift_eq_ok.1 hx
  rw [run_eq] at h₂
  obtain ⟨-, rfl⟩ := Prod.mk.inj h₂
  rw [← Except.ok.inj hbefore] at hargv
  exact ⟨argv, _, hargv, rfl⟩

theorem stagedFiles_eq_ok {config : Config} {lock : Lock} {role : Role} {gidIndex : Option Int}
    {contract head : Contract} {files : List StagedFile}
    (h : stagedFiles config lock role gidIndex contract head = .ok files) :
    ∃ contractFile envFile modelFile, files = [contractFile, envFile, modelFile] ∧
      contractJson config role (some lock) gidIndex = .ok contractFile.text ∧
      envFile.text = environmentText (renderEnvironment config role gidIndex) := by
  obtain ⟨text, htext, h⟩ := except_bind_eq_ok.1 h
  have hfiles := Except.ok.inj h
  rw [← hfiles]
  refine ⟨_, _, _, rfl, htext, ?_⟩
  dsimp only

/-- A staged contract document carries the index of its rendering. -/
theorem documentHasGid_of_contractJson {config : Config} {lock : Lock} {role : Role} {gid : Int}
    {text : String} (h : contractJson config role (some lock) (some gid) = .ok text) :
    ∃ value, Json.loads text = some value ∧ DocumentHasGid value gid := by
  obtain ⟨c, hrender, h⟩ := except_bind_eq_ok.1 h
  obtain ⟨validated, hvalidated, h⟩ := except_bind_eq_ok.1 h
  obtain ⟨_, -, hvalidated⟩ := except_bind_eq_ok.1 hvalidated
  obtain rfl := Except.ok.inj hvalidated
  have hnodup : (c.restamped.environment.map Prod.fst).Nodup :=
    (rendered_of_renderContract hrender).environment_nodup
  have hgid : c.HasGid gid := hasGid_of_renderContract hrender
  refine ⟨c.restamped.toJson.sortKeys, ?_, documentHasGid_sortKeys (c := c.restamped) hnodup hgid⟩
  rw [← Except.ok.inj h]
  exact Json.loads_dumps_newline Json.indented_blank (Contract.wf_toJson hnodup)

/-- The indexes of a role in a run: of its contract, its files and its container. -/
theorem oneGid_iff {staging creating created verifying after : EngineState engine σ} {role : Role}
    {g₁ g₂ g₃ : Int} (hstage : stage env staging = (.ok ⟨⟩, after))
    (hcreate : create env creating = (.ok ⟨⟩, created))
    (hverify : (verifying.contracts role).gidIndex = some g₁)
    (hstaging : staging.gidOverrides role = some g₂)
    (hcreating : creating.gidOverrides role = some g₃) (gid : Int) :
    OneGid env staging creating verifying role gid ↔ g₁ = gid ∧ g₂ = gid ∧ g₃ = gid := by
  have hcontract : (verifying.contracts role).contract.HasGid g₁ := by
    have hrendered := (verifying.contracts role).rendered
    rw [hverify] at hrendered
    exact hasGid_of_renderContract hrendered
  obtain ⟨_, hstageRole⟩ := atRole_ok hstage role
  obtain ⟨files, hfiles⟩ := stageRole_ok hstageRole
  have hoverride : (atRole (stageRole env) staging role).gidOverrides role = some g₂ := by
    rw [((keepsGid_stageRole _).atRole staging role).1, hstaging]
  rw [hoverride] at hfiles
  obtain ⟨contractFile, envFile, modelFile, rfl, hjson, henv⟩ := stagedFiles_eq_ok hfiles
  obtain ⟨value, hvalue, hdocument⟩ := documentHasGid_of_contractJson hjson
  obtain ⟨_, hcreateRole⟩ := atRole_ok hcreate role
  obtain ⟨argv, outcome, hargv, hrecords⟩ := createRole_ok hcreateRole
  rw [((keepsGid_createRole _).atRole creating role).1, hcreating] at hargv
  have hoption := envOption_renderContainerArgv engine.mode_ne hargv
  constructor
  · intro h
    refine ⟨hcontract.unique h.verified, ?_, ?_⟩
    · obtain ⟨contractFile', _, _, hfiles', ⟨value', hvalue', hdocument'⟩, -⟩ := h.staged
      rw [hoverride, hfiles] at hfiles'
      obtain ⟨rfl, -⟩ := List.cons.inj (Except.ok.inj hfiles')
      obtain rfl := Option.some.inj (hvalue.symm.trans hvalue')
      exact hdocument.unique hdocument'
    · obtain ⟨argv', outcome', hrecords', hoption'⟩ := h.created
      rw [hcreateRole, hrecords] at hrecords'
      have hlast := List.append_cancel_left hrecords'
      obtain rfl : argv = argv' := congrArg OperationRecord.argv (List.cons.inj hlast).1
      exact Int.repr_injective (Option.some.inj (hoption.symm.trans hoption'))
  · rintro ⟨rfl, rfl, rfl⟩
    refine ⟨⟨contractFile, envFile, modelFile, ?_, ⟨value, hvalue, hdocument⟩, _, henv,
      lookup_gidVariable _ _ _⟩, ⟨argv, outcome, ?_, hoption⟩, hcontract⟩
    · rw [hoverride]
      exact hfiles
    · rw [hcreateRole]
      exact hrecords

section Unconfigured

variable (hf1 : engine.config.deployment.fabricProfile = .f1) (hnone : engine.Unconfigured)
  (hlock : engine.Immutable)

include hf1 hnone hlock

/-- **What a run knows of its indexes**: the contracts that are verified have the answers from
before they were rendered, and staging and creation use the answers from before them. -/
theorem ApplyRun.answers {isUpdate : Bool}
    {s captured refreshed staging creating verifying t : EngineState engine σ}
    (h : ApplyRun env isUpdate s captured refreshed staging creating verifying t) (role : Role) :
    (∃ gid, (verifying.contracts role).gidIndex = some gid ∧
        engine.lastGid refreshed.records role = some gid) ∧
      Settled role staging ∧ Settled role creating := by
  obtain ⟨⟨gid, hgid, hlast⟩, hcontract⟩ := applyFabric_settles hf1 hnone hlock h.fabric role
  obtain ⟨_, s₁, hpreflight, hreplace⟩ := Prog.bind_eq_ok.1 h.prepare
  obtain ⟨hc₁, hsettled₁⟩ := preflight_kept hf1 hnone hlock hpreflight
  obtain ⟨ho₂, hc₂, hl₂⟩ := KeepsGid.rel (Prog.Within.when fun _ => keepsGid_replace) hreplace
  obtain ⟨_, s₃, hstage, hready⟩ := Prog.bind_eq_ok.1 h.stage
  obtain ⟨-, hc₃, -⟩ := keepsGid_stage.rel hstage
  obtain ⟨hc₄, hsettled₄⟩ := preflight_kept hf1 hnone hlock hready
  obtain ⟨_, s₅, hcreate, hstart⟩ := Prog.bind_eq_ok.1 h.create
  obtain ⟨-, hc₅, -⟩ := keepsGid_create.rel hcreate
  obtain ⟨-, hc₆, -⟩ := keepsGid_startAll.rel hstart
  refine ⟨⟨gid, ?_, hlast⟩, ?_, hsettled₄ role⟩
  · rw [hc₆, hc₅, hc₄, hc₃, hc₂, hc₁, hcontract, hgid]
  · obtain ⟨gid₁, hgid₁, hlast₁⟩ := hsettled₁ role
    exact ⟨gid₁, by rw [ho₂, hgid₁], by rw [hl₂, hlast₁]⟩

/-- **A run has one index if and only if the nodes gave one answer**: whenever `apply` returns on
an `f1` engine without configured indexes. -/
theorem one_gid_iff {isUpdate : Bool} {s t : EngineState engine σ}
    (h : apply env isUpdate s = (.ok ⟨⟩, t)) :
    ∃ captured refreshed staging creating verifying,
      ApplyRun env isUpdate s captured refreshed staging creating verifying t ∧
        ((∀ role, ∃ gid, OneGid env staging creating verifying role gid) ↔
          ∀ role, SameAnswer refreshed staging creating role) := by
  obtain ⟨captured, refreshed, staging, creating, verifying, hrun⟩ := applyRun_of_ok h
  refine ⟨captured, refreshed, staging, creating, verifying, hrun, forall_congr' fun role => ?_⟩
  obtain ⟨⟨g₁, hverify, hg₁⟩, ⟨g₂, hstaging, hg₂⟩, g₃, hcreating, hg₃⟩ :=
    hrun.answers hf1 hnone hlock role
  obtain ⟨_, s₃, hstage, -⟩ := Prog.bind_eq_ok.1 hrun.stage
  obtain ⟨_, s₅, hcreate, -⟩ := Prog.bind_eq_ok.1 hrun.create
  have hone := oneGid_iff hstage hcreate hverify hstaging hcreating
  rw [SameAnswer, hg₁, hg₂, hg₃]
  constructor
  · rintro ⟨gid, hgid⟩
    obtain ⟨rfl, rfl, rfl⟩ := (hone gid).1 hgid
    exact ⟨rfl, rfl⟩
  · rintro ⟨h₁₂, h₂₃⟩
    obtain rfl := Option.some.inj h₁₂
    obtain rfl := Option.some.inj h₂₃
    exact ⟨_, (hone _).2 ⟨rfl, rfl, rfl⟩⟩

end Unconfigured

end GidIndex

end DgxSpark
