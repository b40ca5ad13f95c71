import DgxSpark.Lifecycle.Issued

/-!
# A container that is not there

Several methods go on when an inspection fails because there is no container, and fail when it
fails for any other reason. What tells the two apart is the text of the failure
(`DgxSpark.saysMissing`): three phrases, looked for in the command line and whatever the node, or
`ssh`, wrote. A node without Docker says that a command was not found, and passes for a node
without the container.

Which failures are Docker's own report is a parameter (`reported`). A run is candid when no other
failure of an inspection has one of the phrases (`DgxSpark.Candid`), and then absence is only
concluded from Docker: `DgxSpark.absence_of_candid`.
-/

namespace DgxSpark

variable {engine : Engine} {σ : Type} {α β : Type} {env : Env σ}

/-! ### Failed inspections -/

/-- A failed inspection of the container of a role. -/
def FailedInspection (engine : Engine) (r : OperationRecord) (e : Exn) : Prop :=
  r.argv = inspectArgv (engine.container r.role) ∧ r.outcome = .error e

/-- Whether a failure is taken for the absence of the container. -/
def takenForAbsence (e : Exn) : Bool :=
  e.isLifecycle && saysMissing e.message

/-- **No failure but Docker's report has one of the phrases.** -/
def Candid (engine : Engine) (reported : OperationRecord → Prop) (records : List OperationRecord) : Prop :=
  ∀ r ∈ records, ∀ e, FailedInspection engine r e → takenForAbsence e = true → reported r

/-- Docker reported that a role has no container, and nothing after that made one. -/
def ReportedAbsent (engine : Engine) (reported : OperationRecord → Prop) (records : List OperationRecord)
    (role : Role) : Prop :=
  ∃ before r after e, records = before ++ r :: after ∧ r.role = role ∧
    FailedInspection engine r e ∧ reported r ∧
    ∀ r' ∈ after, (interpret r'.argv).sparesContainers = true

/-! ### Methods that stop at a failed inspection -/

/-- **A failed inspection that does not say so is the end**: the method issues no further command
and fails. -/
def Attentive (x : Eng engine σ α) : Prop :=
  ∀ s, ∃ new, (x s).2.records = s.records ++ new ∧ ∀ before r after e,
    new = before ++ r :: after → FailedInspection engine r e → takenForAbsence e = false →
      after = [] ∧ ∃ e', (x s).1 = .error e'

theorem Attentive.silent {x : Eng engine σ α} (h : ∀ s, (x s).2.records = s.records) :
    Attentive x := by
  refine fun s => ⟨[], by rw [h, List.append_nil], fun before r after e hnew => ?_⟩
  exact absurd hnew (by simp)

theorem Attentive.pure (a : α) : Attentive (pure a : Eng engine σ α) :=
  .silent fun _ => rfl

theorem Attentive.lift (r : Except Exn α) : Attentive (Prog.lift r : Eng engine σ α) :=
  .silent fun _ => rfl

theorem attentive_contractFor (role : Role) :
    Attentive (contractFor role : Eng engine σ Contract) :=
  .silent fun _ => rfl

theorem Attentive.bind {x : Eng engine σ α} {f : α → Eng engine σ β} (hx : Attentive x)
    (hf : ∀ a, Attentive (f a)) : Attentive (x >>= f) := by
  intro s
  obtain ⟨first, hfirst, hstop⟩ := hx s
  rw [Prog.bind_run]
  rcases hr : x s with ⟨e' | a, t⟩
  · rw [hr] at hfirst hstop
    refine ⟨first, hfirst, fun before r after e hnew hfailed htaken => ?_⟩
    exact ⟨(hstop before r after e hnew hfailed htaken).1, e', rfl⟩
  · rw [hr] at hfirst hstop
    obtain ⟨second, hsecond, hstop'⟩ := hf a t
    refine ⟨first ++ second, ?_, fun before r after e hnew hfailed htaken => ?_⟩
    · rw [hsecond, hfirst, List.append_assoc]
    · -- the first part returned, so the inspection is one of the second
      rcases List.append_eq_append_iff.1 hnew with ⟨middle, rfl, htail⟩ | ⟨middle, hfirst', htail⟩
      · exact hstop' middle r after e htail hfailed htaken
      · cases middle with
        | nil => exact hstop' [] r after e htail.symm hfailed htaken
        | cons r' middle =>
          obtain ⟨rfl, -⟩ := List.cons.inj htail
          obtain ⟨-, e', herror⟩ := hstop before r middle e hfirst' hfailed htaken
          cases herror

theorem Attentive.when {c : Bool} {x : Eng engine σ PUnit} (h : Attentive x) :
    Attentive (Prog.when c x) := by
  cases c with
  | false => exact .pure _
  | true => exact h

theorem Attentive.each {xs : List β} {f : β → Eng engine σ PUnit} (h : ∀ x, Attentive (f x)) :
    Attentive (Prog.each xs f) := by
  induction xs with
  | nil => exact .pure _
  | cons x xs ih => exact (h x).bind fun _ => ih

theorem eq_of_singleton {x r : β} {before after : List β} (h : [x] = before ++ r :: after) :
    r = x ∧ after = [] := by
  cases before with
  | nil => simpa [eq_comm] using h
  | cons y before => simp at h

theorem attentive_remote (role : Role) (argv : List String) :
    Attentive (remote env role argv : Eng engine σ CommandResult) := by
  refine fun s => ⟨[⟨role, argv, (remote env role argv s).1⟩], rfl, ?_⟩
  rintro before r after e hnew ⟨-, houtcome⟩ -
  obtain ⟨rfl, rfl⟩ := eq_of_singleton hnew
  exact ⟨rfl, e, houtcome⟩

theorem attentive_run (role : Role) (argv : List String) :
    Attentive (run env role argv : Eng engine σ PUnit) :=
  (attentive_remote role argv).bind fun _ => .pure _

/-- A failure that is not taken for absence is passed on. -/
theorem attentive_inspectOrMissing (role : Role) :
    Attentive (inspectOrMissing env role : Eng engine σ (Option Json)) := by
  intro s
  rw [inspectOrMissing_eq]
  refine ⟨_, remote_records env role _ s, ?_⟩
  rintro before r after e hnew ⟨-, houtcome⟩ htaken
  obtain ⟨rfl, rfl⟩ := eq_of_singleton hnew
  change (remote env role (inspectArgv (engine.container role)) s).1 = .error e at houtcome
  rw [takenForAbsence] at htaken
  refine ⟨rfl, e, ?_⟩
  change inspectOutcome role _ = .error e
  rw [houtcome, inspectOutcome, if_neg (by rw [htaken]; decide)]

theorem attentive_bind_contractFor {role : Role} {f : Contract → Eng engine σ α}
    (hf : ∀ contract, Attentive (f contract)) : Attentive (contractFor role >>= f) :=
  (attentive_contractFor role).bind hf

/-! ### The methods that go on without a container -/

theorem attentive_stopOwned : Attentive (stopOwned env : Eng engine σ PUnit) := by
  refine .each fun role => (attentive_inspectOrMissing role).bind fun inspect => ?_
  rcases inspect with - | inspect
  · exact .pure _
  · exact attentive_bind_contractFor fun contract => (Attentive.lift _).bind fun _ =>
      .when (attentive_run _ _)

theorem attentive_removeOwned : Attentive (removeOwned env : Eng engine σ PUnit) := by
  refine .each fun role => (attentive_inspectOrMissing role).bind fun inspect => ?_
  rcases inspect with - | inspect
  · exact .pure _
  · exact attentive_bind_contractFor fun contract => (Attentive.lift _).bind fun _ =>
      attentive_run _ _

theorem attentive_startAll : Attentive (startAll env : Eng engine σ PUnit) := by
  refine .each fun role => (attentive_inspectOrMissing role).bind fun inspect =>
    attentive_bind_contractFor fun contract => ?_
  rcases inspect with - | inspect
  · exact attentive_run _ _
  · exact (Attentive.lift _).bind fun _ => .when (attentive_run _ _)

theorem attentive_stopAndRemove (role : Role) (inspect : Json) (name : String) :
    Attentive (stopAndRemove env role inspect name : Eng engine σ PUnit) :=
  (Attentive.when (attentive_run _ _)).bind fun _ => attentive_run _ _

theorem attentive_cleanupPartial : Attentive (cleanupPartial env : Eng engine σ PUnit) := by
  refine .each fun role => (attentive_inspectOrMissing role).bind fun inspect => ?_
  rcases inspect with - | inspect
  · exact .pure _
  · exact attentive_bind_contractFor fun contract => (Attentive.lift _).bind fun _ =>
      attentive_stopAndRemove _ _ _

theorem attentive_removeRollbackTargets (roles : Json) :
    Attentive (removeRollbackTargets env roles : Eng engine σ PUnit) := by
  refine .each fun role => (attentive_inspectOrMissing role).bind fun inspect => ?_
  rcases inspect with - | inspect
  · exact .pure _
  · exact attentive_bind_contractFor fun contract => (Attentive.lift _).bind fun _ =>
      attentive_stopAndRemove _ _ _

theorem attentive_inspectEmptyTarget (role : Role) :
    Attentive (inspectEmptyTarget env role : Eng engine σ (Option Json)) := by
  refine (attentive_inspectOrMissing role).bind fun inspect => ?_
  rcases inspect with - | inspect
  · exact .pure _
  · exact attentive_bind_contractFor fun contract => (Attentive.lift _).bind fun _ => .pure _

theorem attentive_removeEmptyTarget (role : Role) (inspect : Option Json) :
    Attentive (removeEmptyTarget env role inspect : Eng engine σ PUnit) := by
  rcases inspect with - | inspect
  · exact .pure _
  · exact attentive_bind_contractFor fun contract => attentive_stopAndRemove _ _ _

theorem attentive_confirmEmptyTarget (role : Role) :
    Attentive (confirmEmptyTarget env role : Eng engine σ PUnit) :=
  (attentive_inspectOrMissing role).bind fun _ => .lift _

/-- The part of the removal before the read-back. -/
def clearEmptyTargets (env : Env σ) : Eng engine σ PUnit := do
  let worker ← inspectEmptyTarget env .worker
  let head ← inspectEmptyTarget env .head
  removeEmptyTarget env .worker worker
  removeEmptyTarget env .head head

theorem removeEmptyRollbackTargets_eq :
    (removeEmptyRollbackTargets env : Eng engine σ PUnit) =
      clearEmptyTargets env >>= fun _ => Prog.each roleOrder (confirmEmptyTarget env) := by
  simp only [removeEmptyRollbackTargets, clearEmptyTargets, Prog.bind_assoc]

theorem attentive_clearEmptyTargets : Attentive (clearEmptyTargets env : Eng engine σ PUnit) :=
  (attentive_inspectEmptyTarget _).bind fun _ => (attentive_inspectEmptyTarget _).bind fun _ =>
    (attentive_removeEmptyTarget _ _).bind fun _ => attentive_removeEmptyTarget _ _

theorem attentive_removeEmptyRollbackTargets :
    Attentive (removeEmptyRollbackTargets env : Eng engine σ PUnit) := by
  rw [removeEmptyRollbackTargets_eq]
  exact attentive_clearEmptyTargets.bind fun _ => .each fun role =>
    attentive_confirmEmptyTarget role

theorem attentive_captureRole (role : Role) :
    Attentive (captureRole env role : Eng engine σ Json) := by
  refine (attentive_inspectOrMissing role).bind fun inspect => ?_
  rcases inspect with - | inspect
  · exact .pure _
  · exact attentive_bind_contractFor fun contract => (Attentive.lift _).bind fun _ => .lift _

theorem attentive_captureFabricState :
    Attentive (captureFabricState env : Eng engine σ Json) := by
  have hrole : ∀ role, Attentive (captureFabricRole env role : Eng engine σ Json) := fun role =>
    (Attentive.lift _).bind fun spec => ((Attentive.lift _).bind fun _ =>
      (attentive_remote _ _).bind fun _ => .lift _).bind fun _ => .pure _
  rw [captureFabricState]
  split_ifs
  · exact .pure _
  · exact (hrole _).bind fun _ => (hrole _).bind fun _ => .pure _

theorem attentive_captureRollback : Attentive (captureRollback env : Eng engine σ Json) :=
  (attentive_captureRole _).bind fun _ => (attentive_captureRole _).bind fun _ =>
    attentive_captureFabricState.bind fun _ =>
      (Attentive.silent fun _ => rfl).bind fun _ => .pure _

/-- The methods that treat a role as absent when the inspection says so. -/
inductive GoesOn (env : Env σ) : Eng engine σ PUnit → Prop
  | capture : GoesOn env (captureRollback env >>= fun _ => pure ⟨⟩)
  | stop : GoesOn env (stopOwned env)
  | remove : GoesOn env (removeOwned env)
  | start : GoesOn env (startAll env)
  | cleanup : GoesOn env (cleanupPartial env)
  | targets (roles : Json) : GoesOn env (removeRollbackTargets env roles)
  | emptyTargets : GoesOn env (removeEmptyRollbackTargets env)

theorem GoesOn.attentive {x : Eng engine σ PUnit} (h : GoesOn env x) : Attentive x := by
  cases h with
  | capture => exact attentive_captureRollback.bind fun _ => .pure _
  | stop => exact attentive_stopOwned
  | remove => exact attentive_removeOwned
  | start => exact attentive_startAll
  | cleanup => exact attentive_cleanupPartial
  | targets roles => exact attentive_removeRollbackTargets roles
  | emptyTargets => exact attentive_removeEmptyRollbackTargets

/-! ### Conclusions -/

/-- **Absence is concluded from one failure.** -/
theorem inspectOrMissing_none {role : Role} {s t : EngineState engine σ}
    (h : inspectOrMissing env role s = (.ok none, t)) :
    ∃ e, takenForAbsence e = true ∧ t.records =
      s.records ++ [⟨role, inspectArgv (engine.container role), .error e⟩] := by
  rw [inspectOrMissing_eq] at h
  obtain ⟨houtcome, rfl⟩ := Prod.mk.inj h
  cases hremote : (remote env role (inspectArgv (engine.container role)) s).1 with
  | ok result =>
    rw [hremote, inspectOutcome] at houtcome
    cases hparse : parseInspect role result with
    | error e => rw [hparse] at houtcome; cases houtcome
    | ok object => rw [hparse] at houtcome; cases houtcome
  | error e =>
    rw [hremote, inspectOutcome] at houtcome
    split_ifs at houtcome with htaken
    exact ⟨e, htaken, by rw [remote_records, hremote]⟩

theorem confirmEmptyTarget_ok {role : Role} {s t : EngineState engine σ}
    (h : confirmEmptyTarget env role s = (.ok ⟨⟩, t)) :
    ∃ e, takenForAbsence e = true ∧ t.records =
      s.records ++ [⟨role, inspectArgv (engine.container role), .error e⟩] := by
  obtain ⟨remaining, mid, hinspect, h⟩ := Prog.bind_eq_ok.1 h
  obtain ⟨hcheck, rfl⟩ := Prod.mk.inj h
  rw [lifecycleFail, failWith_eq_ok, Option.isSome_eq_false_iff, Option.isNone_iff_eq_none]
    at hcheck
  subst hcheck
  exact inspectOrMissing_none hinspect

/-- The absence of a role in a candid run, from its failed inspection. -/
theorem Candid.reportedAbsent {reported : OperationRecord → Prop} {role : Role} {e : Exn}
    {before after : List OperationRecord} (h : Candid engine reported
      (before ++ ⟨role, inspectArgv (engine.container role), .error e⟩ :: after))
    (htaken : takenForAbsence e = true)
    (hafter : ∀ r ∈ after, (interpret r.argv).sparesContainers = true) :
    ReportedAbsent engine reported
      (before ++ ⟨role, inspectArgv (engine.container role), .error e⟩ :: after) role :=
  ⟨before, ⟨role, inspectArgv (engine.container role), .error e⟩, after, e, rfl, rfl, ⟨rfl, rfl⟩,
    h ⟨role, inspectArgv (engine.container role), .error e⟩
      (List.mem_append_right _ List.mem_cons_self) e ⟨rfl, rfl⟩ htaken, hafter⟩

theorem Issues.spares {x : Eng engine σ α} (h : Issues SparesContainers x)
    (s : EngineState engine σ) : ∃ new, (x s).2.records = s.records ++ new ∧
      ∀ r ∈ new, (interpret r.argv).sparesContainers = true :=
  h.records s

/-- After an empty rollback both roles are reported absent. -/
theorem rollbackEmpty_ok {state : Json} {s t : EngineState engine σ}
    (h : rollbackEmpty env state s = (.ok ⟨⟩, t)) {reported : OperationRecord → Prop}
    {new : List OperationRecord} (hnew : t.records = s.records ++ new)
    (hcandid : Candid engine reported new) (role : Role) :
    ReportedAbsent engine reported new role := by
  obtain ⟨_, s₀, hmode, h⟩ := Prog.bind_eq_ok.1 h
  obtain rfl := (Prod.mk.inj hmode).2
  obtain ⟨_, s₁, hremove, h⟩ := Prog.bind_eq_ok.1 h
  rw [removeEmptyRollbackTargets_eq] at hremove
  obtain ⟨_, s₂, hclear, hremove⟩ := Prog.bind_eq_ok.1 hremove
  obtain ⟨_, s₃, hworker, hremove⟩ := Prog.bind_eq_ok.1 hremove
  obtain ⟨_, s₄, hhead, hremove⟩ := Prog.bind_eq_ok.1 hremove
  obtain rfl := (Prod.mk.inj hremove).2
  obtain ⟨first, hfirst, -⟩ := (attentive_clearEmptyTargets :
    Attentive (clearEmptyTargets env : Eng engine σ PUnit)) s
  rw [hclear] at hfirst
  obtain ⟨e, htaken, hthird⟩ := confirmEmptyTarget_ok hworker
  obtain ⟨e', htaken', hfourth⟩ := confirmEmptyTarget_ok hhead
  have hrestore : Issues SparesContainers (if isLegacyFabric (state.get "fabric") then
      removeLegacyCandidateProfiles env (state.get "fabric")
      else restoreFabricState env (state.get "fabric") : Eng engine σ PUnit) :=
    .ite (fun _ => removeLegacyCandidateProfiles_issues _) fun _ => restoreFabricState_issues _
  obtain ⟨last, hlast, hspares⟩ := hrestore.spares s₄
  rw [h, hfourth, hthird, hfirst] at hlast
  have hall : new = first ++
      ⟨.worker, inspectArgv (engine.container .worker), .error e⟩ ::
      ⟨.head, inspectArgv (engine.container .head), .error e'⟩ :: last := by
    have heq := hnew.symm.trans hlast
    simpa using heq
  subst hall
  cases role with
  | worker =>
    refine hcandid.reportedAbsent htaken ?_
    exact List.forall_mem_cons.2 ⟨rfl, hspares⟩
  | head =>
    have hcandid' := hcandid
    rw [List.append_cons] at hcandid' ⊢
    exact hcandid'.reportedAbsent htaken' hspares

theorem captureRole_null {role : Role} {s t : EngineState engine σ}
    (h : captureRole env role s = (.ok .null, t)) :
    ∃ e, takenForAbsence e = true ∧ t.records =
      s.records ++ [⟨role, inspectArgv (engine.container role), .error e⟩] := by
  obtain ⟨inspect, mid, hinspect, h⟩ := Prog.bind_eq_ok.1 h
  rcases inspect with - | inspect
  · obtain rfl := (Prod.mk.inj h).2
    exact inspectOrMissing_none hinspect
  · obtain ⟨contract, _, -, h⟩ := Prog.bind_eq_ok.1 h
    obtain ⟨_, _, -, h⟩ := Prog.bind_eq_ok.1 h
    have hrecord : captureRecord role inspect = .ok .null := (Prod.mk.inj h).1
    obtain ⟨_, -, hrecord⟩ := except_bind_eq_ok.1 hrecord
    obtain ⟨_, -, hrecord⟩ := except_bind_eq_ok.1 hrecord
    obtain ⟨_, -, hrecord⟩ := except_bind_eq_ok.1 hrecord
    cases hrecord

/-- A role that is captured as `null` is reported absent. -/
theorem captureRollback_ok {state : Json} {s t : EngineState engine σ}
    (h : captureRollback env s = (.ok state, t)) {reported : OperationRecord → Prop}
    {new : List OperationRecord} (hnew : t.records = s.records ++ new)
    (hcandid : Candid engine reported new) {role : Role}
    (hnull : (state.get "roles").get role.text = .null) :
    ReportedAbsent engine reported new role := by
  obtain ⟨worker, s₁, hworker, h⟩ := Prog.bind_eq_ok.1 h
  obtain ⟨head, s₂, hhead, h⟩ := Prog.bind_eq_ok.1 h
  obtain ⟨fabric, s₃, hfabric, h⟩ := Prog.bind_eq_ok.1 h
  obtain ⟨_, s₄, hwrite, h⟩ := Prog.bind_eq_ok.1 h
  obtain ⟨hstate, rfl⟩ := Prod.mk.inj h
  obtain rfl := Except.ok.inj hstate
  obtain rfl := (Prod.mk.inj hwrite).2
  obtain ⟨last, hlast, hreads⟩ := (captureFabricState_reads :
    Issues Reads (captureFabricState env : Eng engine σ Json)).records s₂
  rw [hfabric] at hlast
  -- the network is captured last, by reading
  have hspares : ∀ r ∈ last, (interpret r.argv).sparesContainers = true :=
    fun r hr => ((Command.isRead_iff _).1 (hreads r hr)).1
  change s₃.records = s.records ++ new at hnew
  rw [hnew] at hlast
  cases role with
  | worker =>
    have hworkerNull : worker = .null := hnull
    subst hworkerNull
    obtain ⟨e, htaken, hrecords⟩ := captureRole_null hworker
    obtain ⟨middle, hmiddle, hreads'⟩ := (captureRole_reads .head :
      Issues Reads (captureRole env .head : Eng engine σ Json)).records s₁
    rw [hhead, hrecords] at hmiddle
    -- the head, whose capture follows, is only read, and so is the network
    have hall : new = [] ++ ⟨.worker, inspectArgv (engine.container .worker), .error e⟩ ::
        (middle ++ last) := by
      rw [hmiddle] at hlast
      simpa using hlast
    subst hall
    refine hcandid.reportedAbsent htaken fun r hr => ?_
    rcases List.mem_append.1 hr with hr | hr
    · exact ((Command.isRead_iff _).1 (hreads' r hr)).1
    · exact hspares r hr
  | head =>
    have hheadNull : head = .null := hnull
    subst hheadNull
    obtain ⟨e, htaken, hrecords⟩ := captureRole_null hhead
    obtain ⟨first, hfirst, -⟩ := (captureRole_reads .worker :
      Issues Reads (captureRole env .worker : Eng engine σ Json)).records s
    rw [hworker] at hfirst
    -- what the capture of the worker has issued lies before the inspection
    have hall : new = first ++ ⟨.head, inspectArgv (engine.container .head), .error e⟩ ::
        last := by
      rw [hrecords, hfirst] at hlast
      simpa using hlast
    subst hall
    exact hcandid.reportedAbsent htaken hspares

/-- A rollback to a state without containers. -/
theorem rollback_eq_empty {s : EngineState engine σ} {state roles : Json}
    (hload : loadRollback engine.config s.stateFile = .ok (state, roles))
    (hnull : ∀ role : Role, roles.get role.text = .null) :
    rollback env s = rollbackEmpty env state s := by
  have hrun : rollback env s =
      (Prog.lift (loadRollback engine.config s.stateFile) >>= fun loaded =>
        if roleOrder.all fun role => loaded.2.get role.text == .null then
          rollbackEmpty env loaded.1
        else rollbackPair env loaded.1 loaded.2) s := rfl
  have hall : (roleOrder.all fun role => roles.get role.text == .null) = true := by
    rw [List.all_eq_true]
    intro role _
    rw [hnull role]
    rfl
  rw [hrun, Prog.bind_run, Prog.lift_run, hload]
  dsimp only
  rw [if_pos hall]

/-- **Absence is only concluded from Docker** in a candid run: whatever goes on without a
container stops at an inspection that failed for another reason, an empty rollback returns only
when both roles are reported absent, and a role is captured as `null` only when it is. -/
theorem absence_of_candid {s t : EngineState engine σ} {reported : OperationRecord → Prop}
    {new : List OperationRecord} (hcandid : Candid engine reported new)
    (hnew : t.records = s.records ++ new) :
    (∀ (x : Eng engine σ PUnit) (outcome : Except Exn PUnit), GoesOn env x → x s = (outcome, t) →
      ∀ before r after e, new = before ++ r :: after → FailedInspection engine r e →
        ¬reported r → after = [] ∧ ∃ e', outcome = .error e') ∧
    (∀ state roles, loadRollback engine.config s.stateFile = .ok (state, roles) →
      (∀ role : Role, roles.get role.text = .null) → rollback env s = (.ok ⟨⟩, t) →
        ∀ role, ReportedAbsent engine reported new role) ∧
    (∀ state, captureRollback env s = (.ok state, t) → ∀ role : Role,
      (state.get "roles").get role.text = .null → ReportedAbsent engine reported new role) := by
  refine ⟨fun x outcome hx hrun before r after e heq hfailed hreported => ?_,
    fun state roles hload hnull hrun role => ?_,
    fun state hrun role hnull => captureRollback_ok hrun hnew hcandid hnull⟩
  · obtain ⟨records, hrecords, hstop⟩ := hx.attentive s
    rw [hrun] at hrecords hstop
    obtain rfl := List.append_cancel_left (hnew.symm.trans hrecords)
    refine hstop before r after e heq hfailed ?_
    by_contra htaken
    rw [Bool.not_eq_false] at htaken
    exact hreported (hcandid r (by rw [heq]; simp) e hfailed htaken)
  · rw [rollback_eq_empty hload hnull] at hrun
    exact rollbackEmpty_ok hrun hnew hcandid role

/-! ### A node without Docker -/

/-- Nodes that answer every command as a shell does when there is no Docker. -/
def noDocker : Env Unit where
  runner := some fun _ _ world => (⟨127, "", "bash: docker: command not found"⟩, world)
  scpRunner := none
  process := fun _ world => (⟨127, "", ""⟩, world)
  writeFile := fun _ _ world => world
  temporaryDirectory := "/tmp"

/-- Docker's words for a container that does not exist. -/
def saysNoSuchContainer (e : Exn) : Bool :=
  Text.contains (Text.lower e.message) "no such container"

/-- Docker reports that there is no such container. -/
def dockerReports (r : OperationRecord) : Prop :=
  ∃ e, r.outcome = .error e ∧ saysNoSuchContainer e = true

/-- Whether a capture found no container, and its failures are all of one kind. -/
def capturedNull {engine : Engine} (kind : Exn → Bool) :
    Except Exn Json × EngineState engine Unit → Bool
  | (.ok state, t) =>
    ([Role.head, Role.worker].all fun role => (state.get "roles").get role.text == .null) &&
      t.records.all fun r => match r.outcome with
        | .ok _ => true
        | .error e => kind e
  | (.error _, _) => false

theorem of_capturedNull {env : Env Unit} {s : EngineState engine Unit} {kind : Exn → Bool}
    (h : capturedNull kind (captureRollback env s) = true) : ∃ state t,
    captureRollback env s = (.ok state, t) ∧
      (∀ role : Role, (state.get "roles").get role.text = .null) ∧
      ∀ r ∈ t.records, ∀ e, r.outcome = .error e → kind e = true := by
  cases hcapture : captureRollback env s with
  | mk outcome t =>
    rw [hcapture] at h
    cases outcome with
    | error e => cases h
    | ok state =>
      rw [capturedNull, Bool.and_eq_true, List.all_eq_true, List.all_eq_true] at h
      obtain ⟨hnull, hkinds⟩ := h
      refine ⟨state, t, rfl, fun role => ?_, fun r hr e houtcome => ?_⟩
      · have hrole := hnull role (by cases role <;> simp)
        simpa using hrole
      · have hkind := hkinds r hr
        rwa [houtcome] at hkind

/-- **Without Docker every role is absent**: the capture records `null` for both, and Docker has
reported nothing. -/
theorem noDocker_captured : ∃ state t,
    captureRollback noDocker (candidateEngine.start () none) = (.ok state, t) ∧
      ∀ role : Role, (state.get "roles").get role.text = .null ∧
        ¬ReportedAbsent candidateEngine dockerReports t.records role := by
  obtain ⟨state, t, hcapture, hnull, hkinds⟩ := @of_capturedNull candidateEngine noDocker
    (candidateEngine.start () none) (fun e => !saysNoSuchContainer e) (by decide +kernel)
  refine ⟨state, t, hcapture, fun role => ⟨hnull role, ?_⟩⟩
  rintro ⟨before, r, after, e, hrecords, -, -, ⟨e', houtcome, hreported⟩, -⟩
  have hkind := hkinds r (by rw [hrecords]; simp) e' houtcome
  simp [hreported] at hkind

/-- Nodes on which Docker finds no container. -/
def emptyDocker : Env Unit where
  runner := some fun _ argv world =>
    (⟨1, "", "Error response from daemon: No such container: " ++ argv.getLast?.getD ""⟩, world)
  scpRunner := none
  process := fun _ world => (⟨1, "", ""⟩, world)
  writeFile := fun _ _ world => world
  temporaryDirectory := "/tmp"

/-- The state of a candidate that had no containers. -/
def emptyRollback : Json :=
  sealState (rollbackState candidateEngine.config (.obj [])
    (.obj [("worker", .null), ("head", .null)]))

theorem loadRollback_emptyRollback :
    loadRollback candidateEngine.config (some (stateText emptyRollback)) =
      .ok (emptyRollback.sortKeys, (Json.obj [("worker", .null), ("head", .null)]).sortKeys) :=
  loadRollback_stateText (by simp [Json.WF, Json.WFMembers, Json.keys])
    (by simp [Json.WF, Json.WFMembers, Json.keys]) rfl fun role => by cases role <;> rfl

/-- Whether a rollback has returned, and its failures are all of one kind. -/
def rolledBack {engine : Engine} (kind : Exn → Bool) :
    Except Exn PUnit × EngineState engine Unit → Bool
  | (.ok _, t) =>
    t.records.all fun r => match r.outcome with
      | .ok _ => true
      | .error e => kind e
  | (.error _, _) => false

theorem of_rolledBack {engine : Engine} {kind : Exn → Bool}
    {run : Except Exn PUnit × EngineState engine Unit} (h : rolledBack kind run = true) :
    run.1 = .ok ⟨⟩ ∧ ∀ r ∈ run.2.records, ∀ e, r.outcome = .error e → kind e = true := by
  obtain ⟨e | ⟨⟩, t⟩ := run
  · cases h
  · refine ⟨rfl, fun r hr e houtcome => ?_⟩
    have hkind := List.all_eq_true.1 h r hr
    rwa [houtcome] at hkind

theorem rolledBack_emptyRollback : rolledBack saysNoSuchContainer
    (rollbackEmpty emptyDocker emptyRollback.sortKeys
      (candidateEngine.start () (some (stateText emptyRollback)))) = true := by
  decide +kernel

/-- A candid capture, and a candid rollback to no containers. -/
theorem emptyDocker_captured :
    (∃ state t, captureRollback emptyDocker (candidateEngine.start () none) = (.ok state, t) ∧
      ∀ role : Role, ReportedAbsent candidateEngine dockerReports t.records role) ∧
    ∃ t, rollback emptyDocker (candidateEngine.start () (some (stateText emptyRollback))) =
        (.ok ⟨⟩, t) ∧
      ∀ role : Role, ReportedAbsent candidateEngine dockerReports t.records role := by
  have hcandid : ∀ t : EngineState candidateEngine Unit,
      (∀ r ∈ t.records, ∀ e, r.outcome = .error e → saysNoSuchContainer e = true) →
        Candid candidateEngine dockerReports t.records :=
    fun t hkinds r hr e hfailed _ => ⟨e, hfailed.2, hkinds r hr e hfailed.2⟩
  constructor
  · obtain ⟨state, t, hcapture, hnull, hkinds⟩ := @of_capturedNull candidateEngine emptyDocker
      (candidateEngine.start () none) saysNoSuchContainer (by decide +kernel)
    exact ⟨state, t, hcapture, fun role =>
      (absence_of_candid (hcandid t hkinds) rfl).2.2 state hcapture role (hnull role)⟩
  · have hempty : ∀ role : Role, (Json.obj [("worker", .null), ("head", .null)]).sortKeys.get
        role.text = .null := by
      intro role
      cases role <;> rfl
    have hrun := @rollback_eq_empty candidateEngine _ emptyDocker
      (candidateEngine.start () (some (stateText emptyRollback))) _ _ loadRollback_emptyRollback
      hempty
    obtain ⟨hok, hkinds⟩ := of_rolledBack rolledBack_emptyRollback
    rw [← hrun] at hok hkinds
    generalize hstart : candidateEngine.start () (some (stateText emptyRollback)) = start at *
    have hnone : start.records = [] := by rw [← hstart]; rfl
    have hload := loadRollback_emptyRollback
    rw [show some (stateText emptyRollback) = start.stateFile by rw [← hstart]; rfl] at hload
    rcases hpair : rollback emptyDocker start with ⟨outcome, t⟩
    rw [hpair] at hok hkinds
    obtain rfl : outcome = .ok ⟨⟩ := hok
    exact ⟨t, rfl, (absence_of_candid (hcandid t hkinds) (by rw [hnone, List.nil_append])).2.1 _ _
      hload hempty hpair⟩

end DgxSpark
