import DgxSpark.Lib.Trace
import DgxSpark.Lifecycle.Issued

/-!
# Ownership before mutation

Whatever an entry point does to a container it has looked at first: each `docker container
stop` and each `docker container rm` that it issues has, earlier in the same run, an
inspection of that container that the ownership check of the path accepted, and in between
no command that could have put another container under the name. The nodes may answer
anything, and differently each time.

The discipline is a `DgxSpark.Trace.Guard` over the recorded commands
(`DgxSpark.containerGuard`), and a method is judged by which containers are checked before
and after it (`DgxSpark.Watched`). The paths differ in their check: the current contract's
(`DgxSpark.Owned`) wherever nothing was captured, the captured record's
(`DgxSpark.RollbackOwned`) when a rollback removes what it finds.

The result is `DgxSpark.ownership_before_mutation`.
-/

namespace DgxSpark

/-! ### The discipline -/

/-- A container as commands name it. -/
abbrev Target : Type := Role × String

/-- A removal or a stop of a container. -/
def OperationRecord.Mutates (e : OperationRecord) (k : Target) : Prop :=
  e.role = k.1 ∧ (interpret e.argv = .stop k.2 ∨ interpret e.argv = .rm k.2)

/-- A command after which the name may stand for another container, or for none. -/
def OperationRecord.Replaces (e : OperationRecord) (k : Target) : Prop :=
  e.role = k.1 ∧ ((∃ words, interpret e.argv = .create k.2 words) ∨ interpret e.argv = .rm k.2)

/-- An inspection whose object passed a check. -/
def OperationRecord.Checks (own : Role → Json → Prop) (e : OperationRecord) (k : Target) : Prop :=
  e.role = k.1 ∧ interpret e.argv = .inspect k.2 ∧
    ∃ result object, e.outcome = .ok result ∧ parseInspect k.1 result = .ok object ∧
      own k.1 object

/-- **Ownership before mutation**, for one notion of ownership. -/
def containerGuard (own : Role → Json → Prop) : Trace.Guard OperationRecord Target where
  check := OperationRecord.Checks own
  act := OperationRecord.Mutates
  stale := OperationRecord.Replaces

/-- The ownership check of the current contract: `_assert_owned`. -/
def Owned (engine : Engine) (role : Role) (inspect : Json) : Prop :=
  assertOwned engine.config.deployment.mode (engine.contracts role).contract role inspect = .ok ()

/-- The ownership check of a rollback to captured records: `_remove_rollback_targets`. -/
def RollbackOwned (engine : Engine) (roles : Json) (role : Role) (inspect : Json) : Prop :=
  checkRollbackTarget (engine.contracts role).contract role (roles.get role.text) inspect = .ok ()

/-- An inspection after which a role does not stand in the way of an empty rollback: its
container is owned, or there is none. -/
def OperationRecord.Clears (engine : Engine) (e : OperationRecord) (role : Role) : Prop :=
  e.Checks (Owned engine) (role, engine.container role) ∨
    (e.role = role ∧ interpret e.argv = .inspect (engine.container role) ∧
      ∃ exn, e.outcome = .error exn ∧ saysMissing exn.message = true)

/-- Both roles before either: a mutation of any container needs the clearance of every
role. -/
def pairGuard (engine : Engine) : Trace.Guard OperationRecord Role where
  check := OperationRecord.Clears engine
  act e _ := ∃ k, e.Mutates k
  stale _ _ := False

/-- The operations that neither remove, nor stop, nor create. -/
def Command.isQuiet : Command → Bool
  | .create _ _ | .stop _ | .rm _ => false
  | _ => true

theorem Command.isQuiet_of_isRead {c : Command} (h : c.isRead = true) : c.isQuiet = true := by
  cases c <;> simp_all [isRead, isQuiet]

/-- A discipline about removing and stopping: quiet commands do not matter to it, and to
create is no action. -/
structure SparingGuard {κ : Type} (G : Trace.Guard OperationRecord κ) : Prop where
  quiet : ∀ e : OperationRecord, (interpret e.argv).isQuiet = true → ∀ k,
    ¬G.act e k ∧ ¬G.stale e k
  create : ∀ (e : OperationRecord) name words, interpret e.argv = .create name words → ∀ k,
    ¬G.act e k

theorem OperationRecord.not_mutates {e : OperationRecord}
    (h : (interpret e.argv).isQuiet = true ∨ ∃ name words, interpret e.argv = .create name words)
    (k : Target) : ¬e.Mutates k := by
  rcases h with h | ⟨name, words, h⟩
  · rintro ⟨-, hc | hc⟩ <;> simp [hc, Command.isQuiet] at h
  · rintro ⟨-, hc | hc⟩ <;> simp [hc] at h

theorem sparing_containerGuard (own : Role → Json → Prop) :
    SparingGuard (containerGuard own) where
  quiet e h k := by
    refine ⟨e.not_mutates (.inl h) k, ?_⟩
    rintro ⟨-, ⟨words, hc⟩ | hc⟩ <;> simp [hc, Command.isQuiet] at h
  create e name words h k := e.not_mutates (.inr ⟨name, words, h⟩) k

theorem sparing_pairGuard (engine : Engine) : SparingGuard (pairGuard engine) where
  quiet e h _ := ⟨fun ⟨k, hk⟩ => e.not_mutates (.inl h) k hk, fun hf => hf⟩
  create e name words h _ := fun ⟨k, hk⟩ => e.not_mutates (.inr ⟨name, words, h⟩) k hk

/-! ### Methods under watch -/

section Watch

variable {engine : Engine} {σ : Type} {env : Env σ} {κ : Type}
variable {G : Trace.Guard OperationRecord κ} {base : List OperationRecord} {K L : List κ}
variable {role : Role}

/-- What has been issued since `base` keeps the discipline, and the objects `K` are checked. -/
def Watched (G : Trace.Guard OperationRecord κ) (base : List OperationRecord) (K : List κ)
    (s : EngineState engine σ) : Prop :=
  ∃ new, s.records = base ++ new ∧ G.Guarded new ∧ ∀ k ∈ K, G.Since k new

/-- A method that starts with `K` checked keeps the discipline, and ends, if it returns, with
`L` checked. -/
def Watches {α : Type} (G : Trace.Guard OperationRecord κ) (base : List OperationRecord)
    (K : List κ) (x : Eng engine σ α) (L : List κ) : Prop :=
  Prog.Triple (Watched G base K) x (fun _ => Watched G base L) fun _ => Watched G base []

theorem Watched.mono {s : EngineState engine σ} (h : Watched G base K s) (hK : L ⊆ K) :
    Watched G base L s := by
  obtain ⟨new, hn, hg, hs⟩ := h
  exact ⟨new, hn, hg, fun k hk => hs k (hK hk)⟩

theorem Watched.forget {s : EngineState engine σ} (h : Watched G base K s) :
    Watched G base [] s :=
  h.mono (by simp)

/-- One more command: what it acts on must be checked before, and what is claimed to be
checked after it must have been checked by it, or before and not be made stale by it. -/
theorem Watched.remote {s : EngineState engine σ} (h : Watched G base K s) {argv : List String}
    (hact : ∀ out k, G.act ⟨role, argv, out⟩ k → k ∈ K)
    (hK : ∀ k ∈ L, (k ∈ K ∧ ∀ out, ¬G.stale ⟨role, argv, out⟩ k) ∨
      G.check ⟨role, argv, (remote env role argv s).1⟩ k) :
    Watched G base L (remote env role argv s).2 := by
  obtain ⟨new, hn, hg, hs⟩ := h
  refine ⟨new ++ [⟨role, argv, (DgxSpark.remote env role argv s).1⟩], ?_, ?_, fun k hk => ?_⟩
  · rw [remote_records, hn, List.append_assoc]
  · exact Trace.Guard.guarded_snoc hg fun k hk => hs k (hact _ k hk)
  · rcases hK k hk with ⟨hk, hstale⟩ | hcheck
    · exact (hs k hk).append (by simpa using hstale _)
    · exact Trace.Guard.since_snoc hcheck

/-- Quiet commands. -/
def Quiet (_ : Role) (c : Command) : Prop :=
  c.isQuiet = true

/-- A quiet method keeps what is checked. -/
theorem Issues.watched {α : Type} {x : Eng engine σ α} (hG : SparingGuard G)
    (hx : Issues Quiet x) :
    Prog.Triple (Watched G base K) x (fun _ => Watched G base K) fun _ => Watched G base K := by
  refine Prog.Within.triple fun s => ?_
  rintro ⟨new, hn, hg, hs⟩
  obtain ⟨more, hm, hquiet⟩ := hx.records s
  refine ⟨new ++ more, by rw [hm, hn, List.append_assoc], ?_, fun k hk => (hs k hk).append ?_⟩
  · exact hg.append_idle fun r hr k => (hG.quiet r (hquiet r hr) k).1
  · exact fun r hr => (hG.quiet r (hquiet r hr) k).2

theorem Issues.watches {α : Type} {x : Eng engine σ α} (hG : SparingGuard G)
    (hx : Issues Quiet x) : Watches G base K x K :=
  (Issues.watched hG hx).conseq (fun _ h => h) (fun _ _ h => h) fun _ _ h => h.forget

theorem reads_watches {α : Type} {x : Eng engine σ α} (hG : SparingGuard G)
    (hx : Issues Reads x) : Watches G base K x K :=
  Issues.watches hG (hx.mono fun _ _ h => Command.isQuiet_of_isRead h)

theorem Watches.bind {α β : Type} {x : Eng engine σ α} {f : α → Eng engine σ β} {M : List κ}
    (hx : Watches G base K x L) (hf : ∀ a, Watches G base L (f a) M) :
    Watches G base K (x >>= f) M :=
  Prog.Triple.bind hx hf

theorem Watches.weaken {α : Type} {x : Eng engine σ α} {M : List κ}
    (hx : Watches G base K x L) (hK : M ⊆ L) : Watches G base K x M :=
  hx.post fun _ _ h => h.mono hK

theorem Watches.bind_lift {α β : Type} {r : Except Exn α} {f : α → Eng engine σ β}
    (hf : ∀ a, r = .ok a → Watches G base K (f a) L) :
    Watches G base K (Prog.lift r >>= f) L :=
  Prog.Triple.bind_lift (fun _ _ _ h => h.forget) hf

theorem Watches.lift {α : Type} (r : Except Exn α) :
    Watches G base K (Prog.lift r : Eng engine σ α) K :=
  Prog.Triple.lift (fun _ _ _ h => h) fun _ _ _ h => h.forget

theorem Watches.pure {α : Type} (a : α) : Watches G base K (pure a : Eng engine σ α) K :=
  Prog.Triple.pure fun _ h => h

theorem Watches.bind_contractFor {β : Type} {f : Contract → Eng engine σ β}
    (hf : ∀ rc : RenderedContract engine.config engine.lock role,
      Watches G base K (f rc.contract) L) :
    Watches G base K (contractFor role >>= f) L :=
  fun s hs => hf (s.contracts role) s hs

/-- **An inspection checks**: of every object that its record is a check of. -/
theorem inspectOrMissing_watches (hG : SparingGuard G) :
    Prog.Triple (Watched G base K) (inspectOrMissing env role : Eng engine σ (Option Json))
      (fun found s => Watched G base K s ∧ ∀ k,
        (∀ out, inspectOutcome role out = .ok found →
          G.check ⟨role, inspectArgv (engine.container role), out⟩ k) →
        Watched G base (k :: K) s)
      fun _ => Watched G base [] := by
  have hquiet : (interpret (inspectArgv (engine.container role))).isQuiet = true := rfl
  intro s hs
  rw [inspectOrMissing_eq]
  have hafter : Watched G base K
      (remote env role (inspectArgv (engine.container role)) s).2 :=
    hs.remote (fun out k hk => absurd hk (hG.quiet _ hquiet k).1)
      fun k hk => .inl ⟨hk, fun out => (hG.quiet _ hquiet k).2⟩
  rcases hout : inspectOutcome role
    (remote env role (inspectArgv (engine.container role)) s).1 with e | found
  · exact hafter.forget
  · refine ⟨hafter, fun k hk => hs.remote (fun out k hk => absurd hk (hG.quiet _ hquiet k).1) ?_⟩
    rintro k' (- | ⟨-, hk'⟩)
    · exact .inr (hk _ hout)
    · exact .inl ⟨hk', fun out => (hG.quiet _ hquiet k').2⟩

theorem Watches.run {argv : List String} (hact : ∀ out k, G.act ⟨role, argv, out⟩ k → k ∈ K)
    (hK : ∀ k ∈ L, k ∈ K ∧ ∀ out, ¬G.stale ⟨role, argv, out⟩ k) :
    Watches G base K (run env role argv : Eng engine σ PUnit) L := by
  intro s hs
  rw [run_eq]
  have hafter := @Watched.remote _ _ env _ _ _ _ _ _ s hs _ hact fun k hk => .inl (hK k hk)
  rcases hr : DgxSpark.remote env role argv s with ⟨e | result, t⟩
  · rw [hr] at hafter
    exact hafter.forget
  · rw [hr] at hafter
    exact hafter

end Watch

/-! ### Stopping, removing, creating -/

section Actions

variable {engine : Engine} {σ : Type} {env : Env σ} {base : List OperationRecord}
variable {own : Role → Json → Prop} {K L : List Target} {role : Role} {name : String}

/-- A stop needs its container checked, and leaves it checked. -/
theorem stop_watches (h : (role, name) ∈ K) :
    Watches (containerGuard own) base K (run env role (stopArgv name) : Eng engine σ PUnit) K := by
  refine Watches.run ?_ fun k hk => ⟨hk, fun out => ?_⟩
  · rintro out ⟨r, n⟩ ⟨hr, hc | hc⟩
    · cases hr
      cases hc
      exact h
    · simp at hc
  · rintro ⟨-, ⟨words, hc⟩ | hc⟩ <;> simp at hc

/-- A removal needs its container checked, and takes the check away. -/
theorem rm_watches (h : (role, name) ∈ K) (hK : ∀ k ∈ L, k ∈ K ∧ k ≠ (role, name)) :
    Watches (containerGuard own) base K (run env role (rmArgv name) : Eng engine σ PUnit) L := by
  refine Watches.run ?_ fun k hk => ⟨(hK k hk).1, fun out => ?_⟩
  · rintro out ⟨r, n⟩ ⟨hr, hc | hc⟩
    · simp at hc
    · cases hr
      cases hc
      exact h
  · rintro ⟨hr, ⟨words, hc⟩ | hc⟩
    · simp at hc
    · refine (hK k hk).2 (Prod.ext hr.symm ?_)
      exact (Command.rm.inj hc).symm

theorem stopAndRemove_watches (inspect : Json) (h : (role, name) ∈ K)
    (hK : ∀ k ∈ L, k ∈ K ∧ k ≠ (role, name)) :
    Watches (containerGuard own) base K
      (stopAndRemove env role inspect name : Eng engine σ PUnit) L :=
  Watches.bind (.when (fun _ => stop_watches h) fun _ _ hs => hs) fun _ => rm_watches h hK

theorem start_quiet (name : String) :
    Issues Quiet (run env role (startArgv name) : Eng engine σ PUnit) :=
  issues_run rfl

/-- Creating ends every check. -/
theorem create_watches {κ : Type} {G : Trace.Guard OperationRecord κ} (hG : SparingGuard G)
    {K : List κ} {argv words : List String} (h : interpret argv = .create name words) :
    Watches G base K (run env role argv : Eng engine σ PUnit) [] :=
  Watches.run (fun _ k hk => absurd hk (hG.create _ name words h k)) (by simp)

/-- The ownership check does not depend on which rendering of the contract is at hand. -/
theorem assertOwned_eq (rc : RenderedContract engine.config engine.lock role) (inspect : Json) :
    assertOwned engine.config.deployment.mode rc.contract role inspect = .ok () ↔
      Owned engine role inspect := by
  obtain ⟨hc, hd, hi⟩ := rc.identity
  obtain ⟨hc', hd', hi'⟩ := (engine.contracts role).identity
  simp only [Owned, assertOwned, currentOwner, lockOwner, hc, hd, hi, hc', hd', hi']

theorem checkRollbackTarget_eq (rc : RenderedContract engine.config engine.lock role)
    (roles inspect : Json) :
    checkRollbackTarget rc.contract role (roles.get role.text) inspect = .ok () ↔
      RollbackOwned engine roles role inspect := by
  obtain ⟨-, hd, hi⟩ := rc.identity
  obtain ⟨-, hd', hi'⟩ := (engine.contracts role).identity
  simp only [RollbackOwned, checkRollbackTarget, currentOwner, hd, hi, hd', hi']

/-- What an inspection found was printed by it. -/
theorem inspectOutcome_some {out : Except Exn CommandResult} {object : Json}
    (h : inspectOutcome role out = .ok (some object)) :
    ∃ result, out = .ok result ∧ parseInspect role result = .ok object := by
  rcases out with e | result
  · rw [inspectOutcome] at h
    split at h <;> simp at h
  · refine ⟨result, rfl, ?_⟩
    rw [inspectOutcome] at h
    rcases hp : parseInspect role result with e | found
    · simp [hp, Except.map] at h
    · simpa [hp, Except.map] using h

/-- What an inspection did not find was reported missing. -/
theorem inspectOutcome_none {out : Except Exn CommandResult}
    (h : inspectOutcome role out = .ok none) :
    ∃ e, out = .error e ∧ e.isLifecycle = true ∧ saysMissing e.message = true := by
  rcases out with e | result
  · rw [inspectOutcome] at h
    split at h
    · rename_i hc
      exact ⟨e, rfl, by simpa using hc⟩
    · simp at h
  · rw [inspectOutcome] at h
    rcases hp : parseInspect role result with e | found <;> simp [hp, Except.map] at h

/-- **Inspecting and asserting**: the shape of every path that is guarded by the current
contract. -/
theorem inspectOwned_watches {f : Contract → Json → Eng engine σ PUnit} (hK : L ⊆ K)
    (hf : ∀ (rc : RenderedContract engine.config engine.lock role) object,
      Watches (containerGuard (Owned engine)) base ((role, engine.container role) :: K)
        (f rc.contract object) L) :
    Watches (containerGuard (Owned engine)) base K
      (do
        let inspect ← inspectOrMissing env role
        match inspect with
        | none => return ⟨⟩
        | some inspect => do
          let contract ← contractFor role
          Prog.lift (assertOwned engine.config.deployment.mode contract role inspect)
          f contract inspect)
      L := by
  refine Prog.Triple.bind (inspectOrMissing_watches (sparing_containerGuard _)) fun found => ?_
  rcases found with - | object
  · exact Prog.Triple.pure fun s hs => hs.1.mono hK
  · rintro s ⟨hs, hchecked⟩
    dsimp only
    rw [Prog.bind_ok (contractFor_run role s), Prog.bind_run, Prog.lift_run]
    rcases howned : assertOwned engine.config.deployment.mode (s.contracts role).contract role
      object with e | ⟨⟩
    · exact hs.forget
    · refine hf (s.contracts role) object s (hchecked _ fun out hout => ?_)
      obtain ⟨result, hresult, hparse⟩ := inspectOutcome_some hout
      exact ⟨rfl, rfl, result, object, hresult, hparse, (assertOwned_eq _ _).1 howned⟩

end Actions

/-! ### The paths of the current contract -/

section Current

variable {engine : Engine} {σ : Type} {env : Env σ} {base : List OperationRecord}
variable {role : Role}

/-- A loop over the roles, each of which keeps the discipline. -/
theorem roles_watches {κ : Type} {G : Trace.Guard OperationRecord κ}
    {f : Role → Eng engine σ PUnit} (h : ∀ role, Watches G base [] (f role) []) :
    Watches G base [] (Prog.each roleOrder f) [] :=
  .each fun role _ => h role

theorem stopOwned_watches :
    Watches (containerGuard (Owned engine)) base [] (stopOwned env : Eng engine σ PUnit) [] := by
  refine roles_watches fun role => ?_
  refine inspectOwned_watches (f := fun contract inspect =>
    Prog.when (inspectRunning inspect) (run env role (stopArgv contract.container)))
    (List.Subset.refl _) fun rc object => ?_
  rw [rc.identity.1]
  exact Watches.weaken (.when (fun _ => stop_watches (by simp [Engine.container]))
    fun _ _ hs => hs) (by simp)

theorem removeOwned_watches :
    Watches (containerGuard (Owned engine)) base [] (removeOwned env : Eng engine σ PUnit) [] := by
  refine roles_watches fun role => ?_
  refine inspectOwned_watches (f := fun contract _ => run env role (rmArgv contract.container))
    (List.Subset.refl _) fun rc object => ?_
  rw [rc.identity.1]
  exact rm_watches (by simp [Engine.container]) (by simp)

theorem cleanupPartial_watches :
    Watches (containerGuard (Owned engine)) base []
      (cleanupPartial env : Eng engine σ PUnit) [] := by
  refine roles_watches fun role => ?_
  refine inspectOwned_watches (f := fun contract inspect =>
    stopAndRemove env role inspect contract.container) (List.Subset.refl _) fun rc object => ?_
  rw [rc.identity.1]
  exact stopAndRemove_watches object (by simp [Engine.container]) (by simp)

/-- Starting is quiet: it never stops and never removes. -/
theorem startAll_quiet : Issues Quiet (startAll env : Eng engine σ PUnit) := by
  refine .each fun role _ => (issues_inspectOrMissing fun _ => rfl).bind fun inspect =>
    (issues_contractFor role).bind fun contract => ?_
  rcases inspect with - | inspect
  · exact start_quiet _
  · exact Prog.Within.bind (.lift _) fun _ => .when fun _ => start_quiet _

theorem create_watches_all {κ : Type} {G : Trace.Guard OperationRecord κ} (hG : SparingGuard G) :
    Watches G base [] (create env : Eng engine σ PUnit) [] := by
  refine roles_watches fun role => Prog.Triple.bind (Q := fun _ => Watched G base [])
    (.get fun _ h => h) fun s => Watches.bind_lift fun argv hargv => ?_
  obtain ⟨words, hwords⟩ := interpret_renderContainerArgv hargv
  exact create_watches hG hwords

theorem applyFabric_quiet : Issues Quiet (applyFabric env : Eng engine σ PUnit) := by
  refine applyFabric_issues.mono fun role c h => ?_
  rcases h with h | ⟨spec, -, rfl | rfl⟩
  · exact Command.isQuiet_of_isRead h
  · rfl
  · rfl

theorem SparesContainers.quiet {c : Command} (h : SparesContainers role c) : Quiet role c := by
  cases c <;> simp_all [SparesContainers, Command.sparesContainers, Quiet, Command.isQuiet]

theorem restoreFabricState_quiet (fabricState : Json) :
    Issues Quiet (restoreFabricState env fabricState : Eng engine σ PUnit) :=
  (restoreFabricState_issues fabricState).mono fun _ _ => SparesContainers.quiet

/-- The body of `apply` removes only what the current contract owns. -/
theorem applyBody_watches (isUpdate : Bool) :
    Watches (containerGuard (Owned engine)) base []
      (applyBody env isUpdate : Eng engine σ PUnit) [] := by
  have hG := sparing_containerGuard (Owned engine)
  refine Watches.bind (Issues.watches hG applyFabric_quiet) fun _ => ?_
  refine Watches.bind (reads_watches hG (preflight_reads _ _)) fun _ => ?_
  refine Watches.bind (.when (fun _ => stopOwned_watches.bind fun _ => removeOwned_watches)
    fun _ _ hs => hs) fun _ => ?_
  refine Watches.bind (reads_watches hG stage_reads) fun _ => ?_
  refine Watches.bind (reads_watches hG (preflight_reads _ _)) fun _ => ?_
  refine Watches.bind (create_watches_all hG) fun _ => ?_
  exact (Issues.watches hG startAll_quiet).bind fun _ => reads_watches hG (verify_reads _)

/-- What has been watched up to some point stays watched through a handler. -/
theorem Watches.catchLifecycle {κ : Type} {G : Trace.Guard OperationRecord κ} {α : Type}
    {x : Eng engine σ α} {h : Exn → Eng engine σ α} (hx : Watches G base [] x [])
    (hh : ∀ e, Watches G base [] (h e) []) :
    Watches G base [] (catchLifecycle x h) [] :=
  Prog.Triple.tryCatch hx fun e => .ite (fun _ => hh e) fun _ => .throw fun _ hs => hs

theorem captureRollback_watches {κ : Type} {G : Trace.Guard OperationRecord κ}
    (hG : SparingGuard G) :
    Watches G base [] (captureRollback env : Eng engine σ Json) [] :=
  Watches.bind (reads_watches hG (captureRole_reads _)) fun _ =>
    Watches.bind (reads_watches hG (captureRole_reads _)) fun _ =>
    Watches.bind (reads_watches hG captureFabricState_reads) fun _ =>
    Watches.bind (L := []) (.modify fun _ h => h) fun _ => Watches.pure _

/-- The recovery of an apply that had nothing to go back to. -/
theorem cleanup_watches (captured : Json) :
    Watches (containerGuard (Owned engine)) base []
      (do cleanupPartial env
          restoreFabricState env (captured.get "fabric") : Eng engine σ PUnit) [] :=
  cleanupPartial_watches.bind fun _ =>
    Issues.watches (sparing_containerGuard _) (restoreFabricState_quiet _)

end Current

/-! ### The paths of a captured state -/

section Captured

variable {engine : Engine} {σ : Type} {env : Env σ} {base : List OperationRecord}
variable {role : Role}

/-- **The daemon returns the container that was asked for**, when it is asked by the name of a
role's container. -/
def HonestDaemon (engine : Engine) (env : Env σ) : Prop :=
  ∀ role world result object,
    (execRemote env engine.config.deployment role (inspectArgv (engine.container role)) world).1 =
      .ok result →
    parseInspect role result = .ok object → inspectName object = engine.container role

theorem inspectOrMissing_returns (honest : HonestDaemon engine env) (role : Role) :
    Prog.Returns (fun found => ∀ object, found = some object →
        inspectName object = engine.container role)
      (inspectOrMissing env role : Eng engine σ (Option Json)) := by
  rintro s found t h object rfl
  rw [inspectOrMissing_eq] at h
  obtain ⟨result, hresult, hparse⟩ := inspectOutcome_some (congrArg Prod.fst h)
  exact honest role s.world result object hresult hparse

/-- A rollback to captured records removes only what they, or the current contract, own. -/
theorem removeRollbackTarget_watches (honest : HonestDaemon engine env) (roles : Json)
    (role : Role) :
    Watches (containerGuard (RollbackOwned engine roles)) base []
      (removeRollbackTarget env roles role : Eng engine σ PUnit) [] := by
  refine Prog.Triple.bind_returns (inspectOrMissing_watches (sparing_containerGuard _))
    (inspectOrMissing_returns honest role) fun found hname => ?_
  rcases found with - | object
  · exact Prog.Triple.pure fun s hs => hs.1
  · rintro s ⟨hs, hchecked⟩
    dsimp only
    rw [Prog.bind_ok (contractFor_run role s), Prog.bind_run, Prog.lift_run]
    rcases howned : checkRollbackTarget (s.contracts role).contract role (roles.get role.text)
      object with e | ⟨⟩
    · exact hs.forget
    · have hsame : ((roles.get role.text).get "name").pyStr = engine.container role := by
        obtain ⟨⟨⟩, hn, -⟩ := except_bind_eq_ok.1 howned
        have hn : inspectName object = ((roles.get role.text).get "name").pyStr := by
          simpa [lifecycleFail, failWith_eq_ok] using hn
        rw [← hn, hname object rfl]
      have hwatch := hchecked (role, engine.container role) fun out hout => by
        obtain ⟨result, hresult, hparse⟩ := inspectOutcome_some hout
        exact ⟨rfl, rfl, result, object, hresult, hparse, (checkRollbackTarget_eq _ _ _).1 howned⟩
      dsimp only
      rw [hsame]
      exact stopAndRemove_watches object (by simp) (by simp) s hwatch

theorem rollbackCreateArgv_interpret {old : Json} {argv : List String}
    (h : rollbackCreateArgv role old = .ok argv) :
    ∃ words, interpret argv = .create (old.get "name").pyStr words := by
  simp only [rollbackCreateArgv, except_bind_eq_ok] at h
  obtain ⟨_, -, _, -, _, -, _, -, _, -, h⟩ := h
  rw [← Except.ok.inj h]
  exact ⟨_, rfl⟩

theorem recreateRole_watches {κ : Type} {G : Trace.Guard OperationRecord κ} (hG : SparingGuard G)
    (roles : Json) (role : Role) :
    Watches G base [] (recreateRole env roles role : Eng engine σ PUnit) [] := by
  refine Watches.bind_lift fun argv hargv => ?_
  obtain ⟨words, hwords⟩ := rollbackCreateArgv_interpret hargv
  exact (create_watches hG hwords).bind fun _ =>
    .when (fun _ => Issues.watches hG (start_quiet _)) fun _ _ hs => hs

theorem verifyRollback_reads (roles : Json) :
    Issues Reads (verifyRollback env roles : Eng engine σ PUnit) :=
  .each fun _ _ => (issues_inspectRequired fun _ => rfl).bind fun _ => .lift _

theorem rollbackPair_watches (honest : HonestDaemon engine env) (state roles : Json) :
    Watches (containerGuard (RollbackOwned engine roles)) base []
      (rollbackPair env state roles : Eng engine σ PUnit) [] := by
  have hG := sparing_containerGuard (RollbackOwned engine roles)
  refine Watches.bind_lift fun _ _ => Watches.bind (L := []) ?_ fun _ =>
    Watches.bind (Issues.watches hG (restoreFabricState_quiet _)) fun _ => ?_
  · exact roles_watches fun role => Issues.watches hG (issues_run rfl)
  · exact Watches.bind (roles_watches fun role => removeRollbackTarget_watches honest roles role)
      fun _ => Watches.bind (roles_watches fun role => recreateRole_watches hG roles role) fun _ =>
      reads_watches hG (verifyRollback_reads roles)

/-! ### The empty rollback -/

/-- The inspection of a role, before anything is removed: whatever its record is a check of,
given that the object it found, if any, is owned. -/
theorem inspectEmptyTarget_watches {κ : Type} {G : Trace.Guard OperationRecord κ}
    (hG : SparingGuard G) {K : List κ} :
    Prog.Triple (Watched G base K) (inspectEmptyTarget env role : Eng engine σ (Option Json))
      (fun found s => Watched G base K s ∧ ∀ k,
        (∀ out, inspectOutcome role out = .ok found →
          (∀ object, found = some object → Owned engine role object) →
          G.check ⟨role, inspectArgv (engine.container role), out⟩ k) →
        Watched G base (k :: K) s)
      fun _ => Watched G base [] := by
  refine Prog.Triple.bind (inspectOrMissing_watches hG) fun found => ?_
  rcases found with - | object
  · refine Prog.Triple.pure fun s hs => ⟨hs.1, fun k hk => hs.2 k fun out hout => ?_⟩
    exact hk out hout (by simp)
  · rintro s ⟨hs, hchecked⟩
    dsimp only
    rw [Prog.bind_ok (contractFor_run role s), Prog.bind_run, Prog.lift_run]
    rcases howned : assertOwned engine.config.deployment.mode (s.contracts role).contract role
      object with e | ⟨⟩
    · exact hs.forget
    · refine ⟨hs, fun k hk => hchecked k fun out hout => hk out hout ?_⟩
      rintro _ ⟨⟩
      exact (assertOwned_eq _ _).1 howned

/-- What is checked of a role by what its inspection found. -/
def clearance (engine : Engine) (role : Role) (found : Option Json) : List Target :=
  found.toList.map fun _ => (role, engine.container role)

theorem mem_clearance {found : Option Json} {k : Target} :
    k ∈ clearance engine role found ↔ found.isSome = true ∧ k = (role, engine.container role) := by
  cases found <;> simp [clearance]

theorem inspectEmptyTarget_clears {K : List Target} :
    Prog.Triple (Watched (containerGuard (Owned engine)) base K)
      (inspectEmptyTarget env role : Eng engine σ (Option Json))
      (fun found => Watched (containerGuard (Owned engine)) base (clearance engine role found ++ K))
      fun _ => Watched (containerGuard (Owned engine)) base [] := by
  refine (inspectEmptyTarget_watches (sparing_containerGuard _)).post fun found s hs => ?_
  rcases found with - | object
  · exact hs.1
  · refine hs.2 _ fun out hout howned => ?_
    obtain ⟨result, hresult, hparse⟩ := inspectOutcome_some hout
    exact ⟨rfl, rfl, result, object, hresult, hparse, howned object rfl⟩

theorem removeEmptyTarget_watches {K L : List Target} {found : Option Json}
    (h : clearance engine role found ⊆ K)
    (hK : ∀ k ∈ L, k ∈ K ∧ k ≠ (role, engine.container role)) :
    Watches (containerGuard (Owned engine)) base K
      (removeEmptyTarget env role found : Eng engine σ PUnit) L := by
  rcases found with - | object
  · exact (Watches.pure _).weaken fun k hk => (hK k hk).1
  · refine Watches.bind_contractFor fun rc => ?_
    rw [rc.identity.1]
    exact stopAndRemove_watches object (h (by simp [clearance, Engine.container])) hK

theorem confirmEmptyTarget_reads (role : Role) :
    Issues Reads (confirmEmptyTarget env role : Eng engine σ PUnit) :=
  (issues_inspectOrMissing fun _ => rfl).bind fun _ => .lift _

theorem removeEmptyRollbackTargets_watches :
    Watches (containerGuard (Owned engine)) base []
      (removeEmptyRollbackTargets env : Eng engine σ PUnit) [] := by
  have hG := sparing_containerGuard (Owned engine)
  refine Prog.Triple.bind inspectEmptyTarget_clears fun worker => ?_
  refine Prog.Triple.bind inspectEmptyTarget_clears fun head => ?_
  refine Watches.bind (L := clearance engine .head head) ?_ fun _ => ?_
  · refine removeEmptyTarget_watches (by simp) fun k hk => ⟨by simp [hk], ?_⟩
    rw [(mem_clearance.1 hk).2]
    simp
  · exact Watches.bind (removeEmptyTarget_watches (List.Subset.refl _) (by simp)) fun _ =>
      roles_watches fun role => reads_watches hG (confirmEmptyTarget_reads role)

/-- A role is cleared by its inspection. -/
theorem inspectEmptyTarget_pair {K : List Role} :
    Watches (pairGuard engine) base K
      (inspectEmptyTarget env role : Eng engine σ (Option Json)) (role :: K) := by
  refine (inspectEmptyTarget_watches (sparing_pairGuard engine)).post fun found s hs => ?_
  refine hs.2 role fun out hout howned => ?_
  rcases found with - | object
  · obtain ⟨e, rfl, -, hm⟩ := inspectOutcome_none hout
    exact .inr ⟨rfl, rfl, e, rfl, hm⟩
  · obtain ⟨result, hresult, hparse⟩ := inspectOutcome_some hout
    exact .inl ⟨rfl, rfl, result, object, hresult, hparse, howned object rfl⟩

/-- With both roles cleared, any command keeps the discipline. -/
theorem run_pair {K : List Role} (hK : ∀ r, r ∈ K) (argv : List String) :
    Watches (pairGuard engine) base K (run env role argv : Eng engine σ PUnit) K :=
  Watches.run (fun _ k _ => hK k) fun _ hk => ⟨hk, fun _ hf => hf⟩

theorem removeEmptyTarget_pair {K : List Role} (hK : ∀ r, r ∈ K) (found : Option Json) :
    Watches (pairGuard engine) base K
      (removeEmptyTarget env role found : Eng engine σ PUnit) K := by
  rcases found with - | object
  · exact Watches.pure _
  · exact Watches.bind_contractFor fun rc =>
      Watches.bind (.when (fun _ => run_pair hK _) fun _ _ hs => hs) fun _ => run_pair hK _

theorem removeEmptyRollbackTargets_pair :
    Watches (pairGuard engine) base []
      (removeEmptyRollbackTargets env : Eng engine σ PUnit) [] := by
  have hK : ∀ r, r ∈ [Role.head, Role.worker] := fun r => by cases r <;> simp
  refine Watches.bind inspectEmptyTarget_pair fun worker => ?_
  refine Watches.bind inspectEmptyTarget_pair fun head => ?_
  refine Watches.bind (removeEmptyTarget_pair hK worker) fun _ => ?_
  refine Watches.bind (L := []) ((removeEmptyTarget_pair hK head).weaken (by simp)) fun _ => ?_
  exact roles_watches fun role =>
    reads_watches (sparing_pairGuard engine) (confirmEmptyTarget_reads role)

/-- After the removal, an empty rollback only deals with the network. -/
theorem rollbackEmpty_watches {κ : Type} {G : Trace.Guard OperationRecord κ}
    (hG : SparingGuard G) (state : Json)
    (h : Watches G base [] (removeEmptyRollbackTargets env : Eng engine σ PUnit) []) :
    Watches G base [] (rollbackEmpty env state : Eng engine σ PUnit) [] := by
  refine Watches.bind_lift fun _ _ => Watches.bind h fun _ => .ite (fun _ => ?_) fun _ => ?_
  · exact Issues.watches hG ((removeLegacyCandidateProfiles_issues _).mono
      fun _ _ => SparesContainers.quiet)
  · exact Issues.watches hG (restoreFabricState_quiet _)

end Captured

/-! ### Runs -/

section Runs

variable {engine : Engine} {σ : Type} {env : Env σ}

/-- What a run issues keeps a discipline. -/
def RunKeeps {κ α : Type} (G : Trace.Guard OperationRecord κ) (x : Eng engine σ α)
    (s : EngineState engine σ) : Prop :=
  ∃ new, (x s).2.records = s.records ++ new ∧ G.Guarded new

theorem Watches.runKeeps {κ α : Type} {G : Trace.Guard OperationRecord κ} {x : Eng engine σ α}
    {s : EngineState engine σ} (h : Watches G s.records [] x []) : RunKeeps G x s := by
  have hstart : Watched G s.records [] s :=
    ⟨[], by simp, Trace.Guard.guarded_nil, by simp⟩
  have hend := h s hstart
  rcases hx : x s with ⟨e | a, t⟩ <;> rw [hx] at hend <;>
    obtain ⟨new, hn, hg, -⟩ := hend <;> exact ⟨new, by rw [hx]; exact hn, hg⟩

/-- What a rollback must keep, by what its state file holds. A file that does not pass the
first checks lets no command be issued. -/
def RollbackKeeps (engine : Engine) (stateFile : Option String) (new : List OperationRecord) :
    Prop :=
  match loadRollback engine.config stateFile with
  | .error _ => new = []
  | .ok loaded =>
    if roleOrder.all fun role => loaded.2.get role.text == .null then
      (containerGuard (Owned engine)).Guarded new ∧ (pairGuard engine).Guarded new
    else (containerGuard (RollbackOwned engine loaded.2)).Guarded new

theorem rollback_keeps (honest : HonestDaemon engine env) (s : EngineState engine σ) :
    ∃ new, (rollback env s).2.records = s.records ++ new ∧
      RollbackKeeps engine s.stateFile new := by
  have hrun : rollback env s =
      (Prog.lift (loadRollback engine.config s.stateFile) >>= fun loaded =>
        if roleOrder.all fun role => loaded.2.get role.text == .null then
          rollbackEmpty env loaded.1
        else rollbackPair env loaded.1 loaded.2) s := rfl
  rw [hrun, Prog.bind_run, Prog.lift_run]
  simp only [RollbackKeeps]
  rcases loadRollback engine.config s.stateFile with e | ⟨state, roles⟩
  · exact ⟨[], by simp, rfl⟩
  · dsimp only
    split
    · obtain ⟨new, hn, hg⟩ := (@rollbackEmpty_watches _ _ env s.records _ _
        (sparing_containerGuard (Owned engine)) state removeEmptyRollbackTargets_watches).runKeeps
      obtain ⟨new', hn', hg'⟩ := (@rollbackEmpty_watches _ _ env s.records _ _
        (sparing_pairGuard engine) state removeEmptyRollbackTargets_pair).runKeeps
      obtain rfl : new = new' := List.append_cancel_left (hn.symm.trans hn')
      exact ⟨new, hn, hg, hg'⟩
    · exact (rollbackPair_watches honest state roles).runKeeps

/-- A recovery ends in the state that its attempt left, whether it failed or not. -/
theorem recoverAndRaise_state (isUpdate : Bool) (captured : Json) (original : Exn)
    (s : EngineState engine σ) :
    (recoverAndRaise env isUpdate captured original s).2 =
      (recover env isUpdate captured s).2 := by
  rw [recoverAndRaise, Prog.bind_run, catchLifecycle, Prog.tryCatch_run]
  rcases recover env isUpdate captured s with ⟨e | ⟨⟩, t⟩
  · by_cases he : e.isLifecycle = true <;> simp [he]
  · rfl

/-- What an update must keep: its body the current contract's discipline, and its recovery,
if there is one, the same or, when both containers were captured, that of the rollback. -/
def UpdateKeeps (env : Env σ) (s : EngineState engine σ) : Prop :=
  ∃ body recovery, (update env s).2.records = s.records ++ body ++ recovery ∧
    (containerGuard (Owned engine)).Guarded body ∧
    ((containerGuard (Owned engine)).Guarded recovery ∨
      ∃ captured mid, (do preflight env false false; captureRollback env) s = (.ok captured, mid) ∧
        capturedPair captured = true ∧ RollbackKeeps engine mid.stateFile recovery)

/-- The phase of an apply before anything is changed. -/
theorem capturePhase_watches {base : List OperationRecord} :
    Watches (containerGuard (Owned engine)) base []
      (do preflight env false false; captureRollback env : Eng engine σ Json) [] :=
  Watches.bind (reads_watches (sparing_containerGuard _) (preflight_reads _ _)) fun _ =>
    captureRollback_watches (sparing_containerGuard _)

theorem apply_eq (isUpdate : Bool) :
    (apply env isUpdate : Eng engine σ PUnit) =
      (do preflight env false false; captureRollback env) >>= fun captured =>
        catchLifecycle (applyBody env isUpdate) (recoverAndRaise env isUpdate captured) := by
  rw [Prog.bind_assoc]
  rfl

theorem update_keeps (honest : HonestDaemon engine env) (s : EngineState engine σ) :
    UpdateKeeps env s := by
  have hstart : Watched (containerGuard (Owned engine)) s.records [] s :=
    ⟨[], by simp, Trace.Guard.guarded_nil, by simp⟩
  have hphase := @capturePhase_watches _ _ env _ s hstart
  rw [UpdateKeeps, update, apply_eq, Prog.bind_run]
  rcases hcap : (do preflight env false false; captureRollback env : Eng engine σ Json) s with
    ⟨e | captured, mid⟩ <;> rw [hcap] at hphase
  · obtain ⟨new, hn, hg, -⟩ := hphase
    exact ⟨new, [], by simpa using hn, hg, .inl Trace.Guard.guarded_nil⟩
  · have hbody := @applyBody_watches _ _ env _ true mid hphase
    have hfile := (@applyBody_issues engine _ env true).stateFile mid
    dsimp only
    rw [catchLifecycle, Prog.tryCatch_run]
    rcases hrun : applyBody env true mid with ⟨e | ⟨⟩, t⟩ <;> rw [hrun] at hbody hfile
    · obtain ⟨body, hn, hg, -⟩ := hbody
      by_cases he : e.isLifecycle = true
      · simp only [he, if_true]
        rw [recoverAndRaise_state, recover]
        by_cases hpair : capturedPair captured = true
        · obtain ⟨new, hn', hk⟩ := rollback_keeps honest t
          rw [hfile] at hk
          refine ⟨body, new, ?_, hg, .inr ⟨captured, mid, rfl, hpair, hk⟩⟩
          rw [hpair, Bool.and_self, if_pos rfl, hn', hn]
        · obtain ⟨new, hn', hg'⟩ := (@cleanup_watches _ _ env t.records
            captured).runKeeps
          refine ⟨body, new, ?_, hg, .inl hg'⟩
          rw [Bool.eq_false_iff.2 hpair, Bool.and_false, if_neg Bool.false_ne_true, hn', hn]
      · simp only [he]
        exact ⟨body, [], by simpa using hn, hg, .inl Trace.Guard.guarded_nil⟩
    · obtain ⟨body, hn, hg, -⟩ := hbody
      exact ⟨body, [], by simpa using hn, hg, .inl Trace.Guard.guarded_nil⟩

theorem apply_watches {base : List OperationRecord} :
    Watches (containerGuard (Owned engine)) base [] (apply env false : Eng engine σ PUnit) [] := by
  rw [apply_eq]
  refine capturePhase_watches.bind fun captured =>
    (applyBody_watches false).catchLifecycle fun original => ?_
  refine Watches.bind (L := []) ?_ fun _ => .throw fun _ hs => hs
  exact Watches.catchLifecycle (cleanup_watches captured) fun _ => .throw fun _ hs => hs

theorem start_watches {base : List OperationRecord} :
    Watches (containerGuard (Owned engine)) base [] (start env : Eng engine σ PUnit) [] := by
  have hG := sparing_containerGuard (Owned engine)
  exact Watches.bind (reads_watches hG (preflight_reads _ _)) fun _ =>
    (Issues.watches hG startAll_quiet).bind fun _ => reads_watches hG (verify_reads _)

/-- **Ownership before mutation**, at every entry point and in every recovery. -/
theorem ownership_before_mutation (honest : HonestDaemon engine env) (s : EngineState engine σ) :
    RunKeeps (containerGuard (Owned engine)) (apply env false) s ∧
      UpdateKeeps env s ∧
      RunKeeps (containerGuard (Owned engine)) (start env) s ∧
      RunKeeps (containerGuard (Owned engine)) (stop env) s ∧
      ∃ new, (rollback env s).2.records = s.records ++ new ∧
        RollbackKeeps engine s.stateFile new :=
  ⟨apply_watches.runKeeps, update_keeps honest s, start_watches.runKeeps,
    stopOwned_watches.runKeeps, rollback_keeps honest s⟩

end Runs

end DgxSpark
