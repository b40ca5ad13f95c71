import DgxSpark.Lifecycle.Ownership

/-!
# What a rollback removes

A rollback to a captured pair checks its records, looks for the captured images and restores the
network (`DgxSpark.prepareRollback`); then `_remove_rollback_targets` looks at the roles one after
the other, checks the container that it finds and removes it. Its check is of the name, the image
and the labels; the command is not looked at, and a role that comes later is not looked at before
the one that comes first is removed.

The nodes are those of `DgxSpark.Daemon`: what is under the name of a role changes with the
commands on the containers of its node, and with no others. `DgxSpark.removesOnlyOwn_iff` says
when a rollback removes nothing but the captured or the current containers.
-/

namespace DgxSpark

/-! ### What may be removed -/

/-- The command of a captured record. -/
def capturedCommand (old : Json) : List String :=
  match old.get "command" with
  | .arr items => items.map Json.pyStr
  | _ => []

/-- **The captured or the current container**: image and command are together those of the
captured record or together those of the contract, and the labels are those of the deployment and
the role or the captured ones. -/
structure Recognized (contract : Contract) (role : Role) (old inspect : Json) : Prop where
  content : ∃ command, inspectCommand inspect ("rollback " ++ role.text) = .ok command ∧
    (inspectImage inspect = (old.get "image").pyStr ∧ command = capturedCommand old ∨
      inspectImage inspect = strOption contract.image.imageId ∧ command = contract.serviceArgv)
  owner : ∃ labels, inspectLabels inspect ("rollback " ++ role.text) = .ok labels ∧
    (currentOwner contract role labels = true ∨
      (environmentJson labels).pyEq (environmentJson (textMembers (old.get "labels"))) = true)

/-- **A daemon on each node**, with `objects role world` under the name of a role's container: an
inspection prints it, and only the commands on containers of that node change it. -/
structure Daemon (engine : Engine) {σ : Type} (env : Env σ)
    (objects : Role → σ → Option Json) : Prop where
  inspects : ∀ role world, inspectOutcome role (execRemote env engine.config.deployment role
    (inspectArgv (engine.container role)) world).1 = .ok (objects role world)
  keeps : ∀ node role argv world,
    node ≠ role ∨ (interpret argv).sparesContainers = true →
      objects role (execRemote env engine.config.deployment node argv world).2 = objects role world

/-- **Only its own, and only in pairs**: what is removed is recognized, and where a container that
was found is not, nothing is stopped or removed. -/
structure RemovesOnlyOwn (contract : Role → Contract) (roles : Json) (found : Role → Option Json)
    (new : List OperationRecord) : Prop where
  removed : ∀ e ∈ new, ∀ name, interpret e.argv = .rm name →
    ∃ inspect, found e.role = some inspect ∧
      Recognized (contract e.role) e.role (roles.get e.role.text) inspect
  paired : ∀ role inspect, found role = some inspect →
    ¬Recognized (contract role) role (roles.get role.text) inspect →
      ∀ e ∈ new, ∀ k, ¬e.Mutates k

/-- The first role with a container. -/
def firstFound (found : Role → Option Json) : Option Role :=
  roleOrder.find? fun role => (found role).isSome

/-- The check of a role's container accepts it. -/
def Passes (contract : Role → Contract) (roles : Json) (found : Role → Option Json)
    (role : Role) : Prop :=
  ∃ inspect, found role = some inspect ∧
    checkRollbackTarget (contract role) role (roles.get role.text) inspect = .ok ()

section Targets

variable {engine : Engine} {σ : Type} {env : Env σ} {objects : Role → σ → Option Json}

/-! ### One role -/

/-- The commands that a step has issued, and the containers that they leave alone. -/
structure Issued (objects : Role → σ → Option Json) (s t : EngineState engine σ)
    (new : List OperationRecord) : Prop where
  records : t.records = s.records ++ new
  contracts : t.contracts = s.contracts
  keeps : ∀ role, (∀ e ∈ new, e.role ≠ role ∨ (interpret e.argv).sparesContainers = true) →
    objects role t.world = objects role s.world

theorem Issued.trans {s t u : EngineState engine σ} {new new' : List OperationRecord}
    (h : Issued objects s t new) (h' : Issued objects t u new') :
    Issued objects s u (new ++ new') where
  records := by rw [h'.records, h.records, List.append_assoc]
  contracts := h'.contracts.trans h.contracts
  keeps role hspares := (h'.keeps role fun e he => hspares e (List.mem_append_right _ he)).trans
    (h.keeps role fun e he => hspares e (List.mem_append_left _ he))

theorem issued_remote (hd : Daemon engine env objects) (role : Role) (argv : List String)
    (s : EngineState engine σ) :
    Issued objects s (remote env role argv s).2 [⟨role, argv, (remote env role argv s).1⟩] where
  records := rfl
  contracts := rfl
  keeps other hspares := hd.keeps role other argv s.world (hspares _ (List.mem_singleton_self _))

/-- Whatever becomes of it, a removal has issued a command on the container, and none on another
role. -/
theorem issued_stopAndRemove (hd : Daemon engine env objects) (role : Role) (inspect : Json)
    (name : String) (s : EngineState engine σ) :
    ∃ new, Issued objects s (stopAndRemove env role inspect name s).2 new ∧
      (∃ e ∈ new, e.Mutates (role, name)) ∧ ∀ e ∈ new, e.role = role := by
  rw [stopAndRemove]
  cases inspectRunning inspect with
  | true =>
    rw [Prog.bind_run]
    simp only [Prog.when, if_true]
    rw [run_eq]
    have hstop := issued_remote hd role (stopArgv name) s
    rcases hrun : remote env role (stopArgv name) s with ⟨e | result, t⟩
    · rw [hrun] at hstop
      refine ⟨_, hstop, ⟨_, List.mem_cons_self, rfl, .inl rfl⟩, fun e he => ?_⟩
      rw [List.mem_singleton.1 he]
    · rw [hrun] at hstop
      have hrm := issued_remote hd role (rmArgv name) t
      dsimp only [Except.map] at hstop ⊢
      rw [run_eq]
      refine ⟨_, hstop.trans hrm, ⟨_, List.mem_cons_self, rfl, .inl rfl⟩, fun e he => ?_⟩
      rcases List.mem_pair.1 he with rfl | rfl
      · rfl
      · rfl
  | false =>
    rw [Prog.bind_run]
    simp only [Prog.when, Bool.false_eq_true, if_false, Prog.pure_run]
    rw [run_eq]
    refine ⟨_, issued_remote hd role (rmArgv name) s, ⟨_, List.mem_cons_self, rfl, .inr rfl⟩,
      fun e he => ?_⟩
    rw [List.mem_singleton.1 he]

/-- What the rollback finds, in a state. -/
def EngineState.found (objects : Role → σ → Option Json) (s : EngineState engine σ) (role : Role) :
    Option Json :=
  objects role s.world

/-- The contracts of a state. -/
def EngineState.current (s : EngineState engine σ) (role : Role) : Contract :=
  (s.contracts role).contract

/-- **A role's turn**: it is looked at; where nothing is found the rollback goes on, and where the
check refuses what is found it ends, without any command on a container. -/
theorem issued_removeRollbackTarget (hd : Daemon engine env objects)
    (roles : Json) (role : Role) (s : EngineState engine σ) :
    ∃ look new, Issued objects s (removeRollbackTarget env roles role s).2 (look :: new) ∧
      (∀ k, ¬look.Mutates k) ∧ (∀ name, interpret look.argv ≠ .rm name) ∧
      (∀ e ∈ look :: new, e.role = role) ∧
      ((∃ e ∈ new, ∃ k, e.Mutates k) ↔ Passes s.current roles (s.found objects) role) ∧
      (¬Passes s.current roles (s.found objects) role → new = []) ∧
      (s.found objects role = none → (removeRollbackTarget env roles role s).1 = .ok ⟨⟩) ∧
      ((removeRollbackTarget env roles role s).1 = .ok ⟨⟩ → s.found objects role = none ∨
        Passes s.current roles (s.found objects) role) := by
  have hlook := issued_remote hd role (inspectArgv (engine.container role)) s
  have hout := hd.inspects role s.world
  have hquiet : ∀ out k, ¬(⟨role, inspectArgv (engine.container role), out⟩ :
      OperationRecord).Mutates k := by
    rintro out k ⟨-, h | h⟩ <;> cases h
  have hnotRm : ∀ name, interpret (inspectArgv (engine.container role)) ≠ .rm name := by
    intro name h
    cases h
  have halone : ∀ out, ∀ e ∈ [(⟨role, inspectArgv (engine.container role), out⟩ :
      OperationRecord)], e.role = role := fun out e he => by rw [List.mem_singleton.1 he]
  rw [removeRollbackTarget, Prog.bind_run, inspectOrMissing_eq]
  have hremote : (remote env role (inspectArgv (engine.container role)) s).1 =
    (execRemote env engine.config.deployment role (inspectArgv (engine.container role))
      s.world).1 := rfl
  rw [hremote, hout]
  rw [hremote] at hlook
  generalize (remote env role (inspectArgv (engine.container role)) s).2 = t at hlook
  cases hfound : objects role s.world with
  | none =>
    -- nothing is there: the inspection is all that is issued
    refine ⟨_, [], hlook, hquiet _, hnotRm, halone _, ⟨nofun, ?_⟩, fun _ => rfl, fun _ => rfl,
      fun _ => .inl hfound⟩
    rintro ⟨inspect, hsome, -⟩
    cases hfound.symm.trans hsome
  | some inspect =>
    dsimp only
    rw [Prog.bind_ok (contractFor_run role t), Prog.bind_run, Prog.lift_run, hlook.contracts]
    cases hcheck : checkRollbackTarget (s.contracts role).contract role (roles.get role.text)
        inspect with
    | error e =>
      -- what is there is refused, after the inspection and before anything is stopped
      have hnot : ¬Passes s.current roles (s.found objects) role := by
        rintro ⟨inspect', hsome, hok⟩
        obtain rfl := Option.some.inj (hfound.symm.trans hsome)
        cases hcheck.symm.trans hok
      exact ⟨_, [], hlook, hquiet _, hnotRm, halone _, ⟨nofun, fun h => absurd h hnot⟩,
        fun _ => rfl, fun hnone => (nomatch hfound.symm.trans hnone), nofun⟩
    | ok u =>
      -- what is there is taken for the container, and stopped and removed
      have hpasses : Passes s.current roles (s.found objects) role := ⟨inspect, hfound, hcheck⟩
      obtain ⟨new, hnew, ⟨e, he, hmutates⟩, hroles⟩ :=
        issued_stopAndRemove hd role inspect ((roles.get role.text).get "name").pyStr t
      refine ⟨_, new, hlook.trans hnew, hquiet _, hnotRm, fun e' he' => ?_,
        ⟨fun _ => hpasses, fun _ => ⟨e, he, _, hmutates⟩⟩, fun h => absurd hpasses h,
        fun hnone => (nomatch hfound.symm.trans hnone), fun _ => .inr hpasses⟩
      rcases List.mem_cons.1 he' with rfl | he'
      · rfl
      · exact hroles e' he'

/-! ### Both roles -/

theorem firstFound_worker {found : Role → Option Json} (h : found .worker ≠ none) :
    firstFound found = some .worker := by
  rw [firstFound, roleOrder, List.find?_cons_of_pos]
  exact Option.isSome_iff_ne_none.2 h

theorem firstFound_head {found : Role → Option Json} (h : found .worker = none)
    (h' : found .head ≠ none) : firstFound found = some .head := by
  rw [firstFound, roleOrder, List.find?_cons_of_neg, List.find?_cons_of_pos]
  · exact Option.isSome_iff_ne_none.2 h'
  · rw [h]
    exact Bool.false_ne_true

theorem firstFound_eq_head {found : Role → Option Json} {role : Role} (h : found .worker = none)
    (hfirst : firstFound found = some role) : role = .head := by
  have hmem := List.find?_some hfirst
  cases role with
  | worker =>
    rw [h] at hmem
    cases hmem
  | head => rfl

theorem Passes.ne_none {contract : Role → Contract} {roles : Json} {found : Role → Option Json}
    {role : Role} (h : Passes contract roles found role) : found role ≠ none := by
  obtain ⟨inspect, hsome, -⟩ := h
  rw [hsome]
  exact nofun

/-- A look changes nothing about what is mutated. -/
theorem mutates_cons {look : OperationRecord} {acts : List OperationRecord}
    (h : ∀ k, ¬look.Mutates k) :
    (∃ e ∈ look :: acts, ∃ k, e.Mutates k) ↔ ∃ e ∈ acts, ∃ k, e.Mutates k := by
  constructor
  · rintro ⟨e, he, k, hk⟩
    rcases List.mem_cons.1 he with rfl | he
    · exact absurd hk (h k)
    · exact ⟨e, he, k, hk⟩
  · rintro ⟨e, he, hk⟩
    exact ⟨e, List.mem_cons_of_mem _ he, hk⟩

/-- **A container is stopped or removed** if and only if the check accepts the first one that is
found; and what is removed, the check has accepted. -/
theorem issued_removeRollbackTargets (hd : Daemon engine env objects) (roles : Json)
    (s : EngineState engine σ) :
    ∃ new, Issued objects s (removeRollbackTargets env roles s).2 new ∧
      ((∃ e ∈ new, ∃ k, e.Mutates k) ↔ ∃ role, firstFound (s.found objects) = some role ∧
        Passes s.current roles (s.found objects) role) ∧
      ∀ e ∈ new, ∀ name, interpret e.argv = .rm name →
        Passes s.current roles (s.found objects) e.role := by
  obtain ⟨look, acts, hissued, hquiet, hnotRm, hroles, hmutates, hpass, hnone, hok⟩ :=
    issued_removeRollbackTarget hd roles .worker s
  have hworkerRm : ∀ e ∈ look :: acts, ∀ name, interpret e.argv = .rm name →
      Passes s.current roles (s.found objects) e.role := by
    intro e he name hrm
    rw [hroles e he]
    rcases List.mem_cons.1 he with rfl | he
    · exact absurd hrm (hnotRm name)
    · by_contra hnot
      rw [hpass hnot] at he
      cases he
  rw [removeRollbackTargets, roleOrder, Prog.each, Prog.bind_run]
  rcases hworker : removeRollbackTarget env roles .worker s with ⟨e | u, t⟩
  · -- the rollback ends with the first role
    rw [hworker] at hissued hnone
    have hfound : s.found objects .worker ≠ none := fun h => by cases hnone h
    refine ⟨_, hissued, (mutates_cons hquiet).trans (hmutates.trans ?_), hworkerRm⟩
    rw [firstFound_worker hfound]
    constructor
    · exact fun h => ⟨_, rfl, h⟩
    · rintro ⟨role, hrole, h⟩
      exact Option.some.inj hrole ▸ h
  · rw [hworker] at hissued hok
    obtain ⟨look', acts', hissued', hquiet', hnotRm', hroles', hmutates', hpass', -, -⟩ :=
      issued_removeRollbackTarget hd roles .head t
    -- the head finds what was there before the worker's turn
    have hcurrent : t.current = s.current := by
      funext role
      rw [EngineState.current, hissued.contracts, EngineState.current]
    have hkept : t.found objects .head = s.found objects .head :=
      hissued.keeps .head fun e he => .inl (by rw [hroles e he]; decide)
    have hpasses : Passes t.current roles (t.found objects) .head ↔
        Passes s.current roles (s.found objects) .head := by
      rw [Passes, Passes, hcurrent, hkept]
    rw [hpasses] at hmutates' hpass'
    have hend : (Prog.each [Role.head] (removeRollbackTarget env roles) t).2 =
        (removeRollbackTarget env roles .head t).2 := by
      rw [Prog.each, Prog.bind_run]
      rcases removeRollbackTarget env roles .head t with ⟨e | u, t'⟩ <;> rfl
    refine ⟨(look :: acts) ++ (look' :: acts'), ?_, ?_, ?_⟩
    · dsimp only
      rw [hend]
      exact hissued.trans hissued'
    · have hsplit : (∃ e ∈ (look :: acts) ++ (look' :: acts'), ∃ k, e.Mutates k) ↔
          Passes s.current roles (s.found objects) .worker ∨
            Passes s.current roles (s.found objects) .head := by
        constructor
        · rintro ⟨e, he, hk⟩
          rcases List.mem_append.1 he with he | he
          · exact .inl (hmutates.1 ((mutates_cons hquiet).1 ⟨e, he, hk⟩))
          · exact .inr (hmutates'.1 ((mutates_cons hquiet').1 ⟨e, he, hk⟩))
        · rintro (h | h)
          · obtain ⟨e, he, hk⟩ := (mutates_cons hquiet).2 (hmutates.2 h)
            exact ⟨e, List.mem_append_left _ he, hk⟩
          · obtain ⟨e, he, hk⟩ := (mutates_cons hquiet').2 (hmutates'.2 h)
            exact ⟨e, List.mem_append_right _ he, hk⟩
      rw [hsplit]
      rcases hok rfl with hmissing | hworkerPasses
      · have hnot : ¬Passes s.current roles (s.found objects) .worker :=
          fun h => h.ne_none hmissing
        constructor
        · rintro (h | h)
          · exact absurd h hnot
          · exact ⟨_, firstFound_head hmissing h.ne_none, h⟩
        · rintro ⟨role, hfirst, h⟩
          exact .inr (firstFound_eq_head hmissing hfirst ▸ h)
      · exact ⟨fun _ => ⟨_, firstFound_worker hworkerPasses.ne_none, hworkerPasses⟩,
          fun _ => .inl hworkerPasses⟩
    · intro e he name hrm
      rcases List.mem_append.1 he with he | he
      · exact hworkerRm e he name hrm
      · rw [hroles' e he]
        rcases List.mem_cons.1 he with rfl | he
        · exact absurd hrm (hnotRm' name)
        · by_contra hnot
          rw [hpass' hnot] at he
          cases he

/-! ### The whole rollback -/

/-- What a rollback to a captured pair does before it looks at the containers: the records, the
captured images, the network. -/
def prepareRollback (env : Env σ) (state roles : Json) : Eng engine σ PUnit := do
  Prog.lift (checkRecords roles)
  Prog.each roleOrder fun role =>
    run env role ["docker", "image", "inspect", ((roles.get role.text).get "image").pyStr]
  restoreFabricState env (state.get "fabric")

/-- What it does after the removal. -/
def recreatePair (env : Env σ) (roles : Json) : Eng engine σ PUnit := do
  Prog.each roleOrder (recreateRole env roles)
  verifyRollback env roles

/-- A rollback is one to a captured pair, if the state has one. -/
theorem rollback_eq {s : EngineState engine σ} {state roles : Json}
    (hload : loadRollback engine.config s.stateFile = .ok (state, roles))
    (hpair : ∀ role : Role, roles.get role.text ≠ .null) :
    rollback env s = (prepareRollback env state roles >>= fun _ =>
      removeRollbackTargets env roles >>= fun _ => recreatePair env roles) s := by
  have hall : (roleOrder.all fun role => roles.get role.text == .null) = false := by
    rw [List.all_eq_false]
    exact ⟨.worker, List.mem_cons_self, by simpa using hpair .worker⟩
  have hrun : rollback env s = rollbackPair env state roles s := by
    rw [rollback, Prog.bind_ok (rfl : Prog.get s = (.ok s, s)), Prog.bind_run, Prog.lift_run, hload]
    dsimp only
    rw [hall]
    rfl
  rw [hrun, rollbackPair, prepareRollback]
  simp only [Prog.bind_assoc]
  rfl

/-- The frame of a step that leaves the containers alone. -/
def untouched (objects : Role → σ → Option Json) : Frame (EngineState engine σ) :=
  (Frame.fixed (·.contracts)).and (Frame.fixed fun s => s.found objects)

theorem spared_untouched (hd : Daemon engine env objects) :
    Spared env (untouched objects : Frame (EngineState engine σ)) :=
  fun role argv h => Prog.Within.ofFn fun s =>
    ⟨rfl, funext fun other => hd.keeps role other argv s.world (.inr h)⟩

theorem prepareRollback_within {F : Frame (EngineState engine σ)} (hF : Spared env F)
    (state roles : Json) : Prog.Within F (prepareRollback env state roles) :=
  Prog.Within.bind (.lift _) fun _ => Prog.Within.bind (.each fun _ _ => hF.run rfl) fun _ =>
    hF.restoreFabricState _

/-- Creating and starting is no mutation. -/
theorem recreatePair_issues (roles : Json) :
    Issues (fun _ c => c.isQuiet = true ∨ ∃ name words, c = .create name words)
      (recreatePair env roles : Eng engine σ PUnit) := by
  refine Prog.Within.bind (.each fun role _ => Prog.Within.bind_lift fun argv hargv => ?_) fun _ =>
    (verifyRollback_reads roles).mono fun _ _ h => .inl (Command.isQuiet_of_isRead h)
  obtain ⟨words, hwords⟩ := rollbackCreateArgv_interpret hargv
  exact (issues_run (.inr ⟨_, words, hwords⟩)).bind fun _ => .when fun _ => issues_run (.inl rfl)

/-- Commands that are no mutations. -/
def Harmless (new : List OperationRecord) : Prop :=
  ∀ e ∈ new, ∀ k, ¬e.Mutates k

theorem Harmless.not_rm {new : List OperationRecord} (h : Harmless new) :
    ∀ e ∈ new, ∀ name, interpret e.argv ≠ .rm name :=
  fun e he name hrm => h e he (e.role, name) ⟨rfl, .inr hrm⟩

/-- **A rollback stops or removes a container** if and only if it gets as far as that, and the
check accepts the first one that it finds; and what is removed, the check has accepted. -/
theorem issued_rollback (hd : Daemon engine env objects) {s : EngineState engine σ}
    {state roles : Json} (hload : loadRollback engine.config s.stateFile = .ok (state, roles))
    (hpair : ∀ role : Role, roles.get role.text ≠ .null) :
    ∃ new, (rollback env s).2.records = s.records ++ new ∧
      ((∃ e ∈ new, ∃ k, e.Mutates k) ↔ (prepareRollback env state roles s).1 = .ok ⟨⟩ ∧
        ∃ role, firstFound (s.found objects) = some role ∧
          Passes s.current roles (s.found objects) role) ∧
      ∀ e ∈ new, ∀ name, interpret e.argv = .rm name →
        Passes s.current roles (s.found objects) e.role := by
  obtain ⟨before, hbefore, hspares⟩ := Issues.records (prepareRollback_within (F := issuing
    SparesContainers) (fun _ _ h => issues_remote h) state roles) s
  have hharmless : Harmless before := fun e he k =>
    e.not_mutates (.inl (SparesContainers.quiet (hspares e he))) k
  obtain ⟨hcontracts, hfound⟩ := prepareRollback_within (spared_untouched hd) state roles s
  rw [rollback_eq hload hpair, Prog.bind_run]
  rcases hprepare : prepareRollback env state roles s with ⟨e | ⟨⟨⟩⟩, mid⟩
  · -- nothing has been looked at
    rw [hprepare] at hbefore
    refine ⟨before, hbefore, ⟨?_, ?_⟩, fun e he name hrm => absurd hrm (hharmless.not_rm e he name)⟩
    · rintro ⟨e, he, k, hk⟩
      exact absurd hk (hharmless e he k)
    · rintro ⟨hok, -⟩
      cases hok
  · rw [hprepare] at hbefore hcontracts hfound
    have hcontracts : mid.contracts = s.contracts := hcontracts
    have hfound : mid.found objects = s.found objects := hfound
    have hcurrent : mid.current = s.current := by
      funext role
      rw [EngineState.current, hcontracts, EngineState.current]
    obtain ⟨acts, hissued, hmutates, hrm⟩ := issued_removeRollbackTargets hd roles mid
    rw [hcurrent, hfound] at hmutates hrm
    -- what comes after the removal, if it is reached, mutates nothing
    obtain ⟨after, hafter, hquiet⟩ : ∃ after,
        ((removeRollbackTargets env roles >>= fun _ => recreatePair env roles) mid).2.records =
          s.records ++ (before ++ acts) ++ after ∧ Harmless after := by
      rw [Prog.bind_run]
      rcases hremove : removeRollbackTargets env roles mid with ⟨e | ⟨⟨⟩⟩, t⟩
      · rw [hremove] at hissued
        refine ⟨[], ?_, nofun⟩
        dsimp only
        rw [hissued.records, hbefore]
        simp
      · rw [hremove] at hissued
        obtain ⟨after, hafter, hquiet⟩ := (recreatePair_issues roles).records t
        refine ⟨after, ?_, fun e he k => e.not_mutates (hquiet e he) k⟩
        dsimp only
        rw [hafter, hissued.records, hbefore]
        simp
    dsimp only
    refine ⟨before ++ acts ++ after, by rw [hafter, List.append_assoc], ?_, ?_⟩
    · refine Iff.trans ?_ (hmutates.trans (and_iff_right rfl).symm)
      constructor
      · rintro ⟨e, he, k, hk⟩
        rcases List.mem_append.1 he with he | he
        · rcases List.mem_append.1 he with he | he
          · exact absurd hk (hharmless e he k)
          · exact ⟨e, he, k, hk⟩
        · exact absurd hk (hquiet e he k)
      · rintro ⟨e, he, hk⟩
        exact ⟨e, List.mem_append_left _ (List.mem_append_right _ he), hk⟩
    · intro e he name hname
      rcases List.mem_append.1 he with he | he
      · rcases List.mem_append.1 he with he | he
        · exact absurd hname (hharmless.not_rm e he name)
        · exact hrm e he name hname
      · exact absurd hname (hquiet.not_rm e he name)

/-- **A rollback removes only the captured or the current containers**, and only in pairs, if and
only if it does not get as far as looking at them, or the first one that it finds is refused by its
check, or all that are there are recognized. -/
theorem removesOnlyOwn_iff (hd : Daemon engine env objects) {s : EngineState engine σ}
    {state roles : Json} (hload : loadRollback engine.config s.stateFile = .ok (state, roles))
    (hpair : ∀ role : Role, roles.get role.text ≠ .null) :
    ∃ new, (rollback env s).2.records = s.records ++ new ∧
      (RemovesOnlyOwn s.current roles (s.found objects) new ↔
        ((prepareRollback env state roles s).1 = .ok ⟨⟩ →
          ∀ first, firstFound (s.found objects) = some first →
            Passes s.current roles (s.found objects) first →
            ∀ role inspect, s.found objects role = some inspect →
              Recognized (s.current role) role (roles.get role.text) inspect)) := by
  obtain ⟨new, hrecords, hmutates, hrm⟩ := issued_rollback hd hload hpair
  refine ⟨new, hrecords, fun h hready first hfirst hpasses role inspect hfound => ?_, fun h => ?_⟩
  · by_contra hnot
    obtain ⟨e, he, k, hk⟩ := hmutates.2 ⟨hready, first, hfirst, hpasses⟩
    exact h.paired role inspect hfound hnot e he k hk
  · -- whatever is stopped or removed, the first container was accepted
    have hall : ∀ e ∈ new, ∀ k, e.Mutates k → ∀ role inspect, s.found objects role = some inspect →
        Recognized (s.current role) role (roles.get role.text) inspect := by
      intro e he k hk
      obtain ⟨hready, first, hfirst, hpasses⟩ := hmutates.1 ⟨e, he, k, hk⟩
      exact h hready first hfirst hpasses
    refine ⟨fun e he name hname => ?_, fun role inspect hfound hnot e he k hk => ?_⟩
    · obtain ⟨inspect, hfound, -⟩ := hrm e he name hname
      exact ⟨inspect, hfound, hall e he (e.role, name) ⟨rfl, .inr hname⟩ e.role inspect hfound⟩
    · exact hnot (hall e he k hk role inspect hfound)

end Targets

/-! ### Nodes with one container each -/

/-- The reference of a production image. -/
def productionRef (role : Role) : String :=
  "registry.example.invalid/dsv4-" ++ role.text ++ "@sha256:" ++
    "cccccccccccccccccccccccccccccccccccccccccccccccccccccccccccccccc"

/-- A production deployment. -/
def productionConfig : Config :=
  ⟨defaultProfile, { candidateDeployment with
    mode := .production
    head := { candidateDeployment.head with imageRef := productionRef .head }
    worker := { candidateDeployment.worker with imageRef := productionRef .worker }
    remoteRoot := "/srv/dgx-spark/deploy"
    stateRoot := "/var/lib/dgx-spark/state"
    cacheRoot := "/var/cache/dgx-spark/cache"
    logRoot := some "/var/log/dgx-spark/logs"
    resultRoot := "/var/lib/dgx-spark/results"
    masterPort := 29619
    apiPort := 8101 }⟩

/-- The labels of its images. -/
def productionLabels : Labels where
  members := requiredImageLabels.map fun key => (key, "linux/arm64")
  nodup := by decide +kernel

/-- A lock of it. -/
def productionLock : Lock where
  head := ⟨productionRef .head, "sha256:head", productionLabels⟩
  worker := ⟨productionRef .worker, "sha256:worker", productionLabels⟩

/-- An engine over it. -/
def productionEngine : Engine :=
  (Engine.build productionConfig productionLock).toOption.get (by decide +kernel)

/-- A container: one of the owner from before deployments had identifiers, which runs or does
not, or one with the captured image and labels, and a command that nobody captured. -/
inductive Held where
  | owned (running : Bool)
  | foreign

/-- What an inspection prints of it. -/
def Held.object (role : Role) : Held → Json
  | .owned running => .obj [
    ("Config", .obj [
      ("Cmd", .arr [.str "serve"]),
      ("Labels", .obj [
        ("com.dgx-spark.owner", .str "deepseek-v4-flash-dgx-spark"),
        ("com.dgx-spark.role", .str role.text)])]),
    ("Image", .str (legacyImage role)),
    ("Name", .str ("/" ++ productionEngine.container role)),
    ("State", .obj [("Running", .bool running)])]
  | .foreign => .obj [
    ("Config", .obj [("Cmd", .null), ("Labels", .obj [("a", .str "b")])]),
    ("Image", .str "sha256:old"),
    ("Name", .str ("/" ++ productionEngine.container role))]

/-- What an inspection prints of the locked image. -/
def imageObject (image : ContractImage) : Json := .obj [
  ("Architecture", .str "arm64"),
  ("Config", .obj [("Labels", image.labels.toJson)]),
  ("Id", Json.ofText? image.imageId)]

/-- What a node answers. There is no space for staged files, and no GPU for a container that is
started. -/
def smallAnswer (role : Role) (argv : List String) (held : Option Held) : CommandResult :=
  match interpret argv, argv with
  | .inspect name, _ =>
    match if name = productionEngine.container role then held else none with
    | some held => ⟨0, Json.dumps Json.compact (held.object role), ""⟩
    | none => ⟨1, "", "Error: No such container: " ++ name⟩
  | .imageInspect _, _ =>
    ⟨0, Json.dumps Json.compact (imageObject (productionEngine.contracts role).contract.image), ""⟩
  | .start _, _ => ⟨1, "", "Error response from daemon: no GPU"⟩
  | .other, "cat" :: _ => ⟨0, productionConfig.deployment.modelManifestSha256, ""⟩
  | .other, "mkdir" :: _ => ⟨1, "", "mkdir: No space left on device"⟩
  | _, _ => ⟨0, "", ""⟩

/-- What becomes of the container of a node. -/
def Held.after (held : Option Held) : Command → Option Held
  | .create _ _ => some (.owned false)
  | .stop _ => held.map fun _ => .owned false
  | .rm _ => none
  | _ => held

/-- **Nodes with the locked image and the model**, and with a container at most each. -/
def smallDocker : Env (Role → Option Held) where
  runner := some fun role argv world => (smallAnswer role argv (world role),
    Function.update world role (Held.after (world role) (interpret argv)))
  scpRunner := none
  process _ world := (⟨0, "", ""⟩, world)
  writeFile _ _ world := world
  temporaryDirectory := "/tmp/dgx-spark"

theorem Held.wf_object (role : Role) (held : Held) : Json.WF (held.object role) := by
  cases held <;> simp [Held.object, Json.WF, Json.WFMembers, Json.WFItems, Json.keys]

/-- The start with a running container of the deployment on each node. -/
def ownedStart : EngineState productionEngine (Role → Option Held) :=
  productionEngine.start (fun _ => some (.owned true)) none

/-- The stops and the removals among some commands. -/
def mutations (records : List OperationRecord) : List (Role × Command) :=
  (records.map fun e => (e.role, interpret e.argv)).filter fun p =>
    match p.2 with
    | .stop _ | .rm _ => true
    | _ => false

/-- Commands on both containers, in the order of the roles. -/
def onBoth (commands : List (String → Command)) : List (Role × Command) :=
  roleOrder.flatMap fun role =>
    commands.map fun command => (role, command (productionEngine.container role))

section SmallDocker

variable {role : Role}

theorem inspectName_object (held : Held) :
    inspectName (held.object role) = productionEngine.container role := by
  have hslash : Text.lstripChar '/' ("/" ++ productionEngine.container role) =
      productionEngine.container role := by
    cases role <;> decide +kernel
  cases held <;> exact hslash

theorem execRemote_smallDocker (node : Role) (argv : List String) (world : Role → Option Held) :
    (execRemote smallDocker productionEngine.config.deployment node argv world).2 =
      Function.update world node (Held.after (world node) (interpret argv)) := by
  rw [execRemote, smallDocker]
  dsimp only
  split <;> rfl

/-- What `_remote` makes of an answer. -/
def answered (role : Role) (argv : List String) (result : CommandResult) :
    Except Exn CommandResult :=
  if result.returncode ≠ 0 then
    .error ⟨.lifecycle, role.text ++ " command failed: " ++ String.intercalate " " argv ++
      stderrSuffix result⟩
  else .ok result

theorem execRemote_answered (node : Role) (argv : List String) (world : Role → Option Held) :
    (execRemote smallDocker productionEngine.config.deployment node argv world).1 =
      answered node argv (smallAnswer node argv (world node)) := by
  rw [execRemote, smallDocker, answered]
  dsimp only
  split <;> rfl

theorem smallAnswer_inspectArgv (held : Option Held) :
    smallAnswer role (inspectArgv (productionEngine.container role)) held =
      match held with
      | some held => ⟨0, Json.dumps Json.compact (held.object role), ""⟩
      | none => ⟨1, "", "Error: No such container: " ++ productionEngine.container role⟩ := by
  unfold smallAnswer
  rw [interpret_inspectArgv]
  dsimp only
  rw [if_pos rfl]

theorem inspectOutcome_none_smallDocker :
    inspectOutcome role (answered role (inspectArgv (productionEngine.container role))
      ⟨1, "", "Error: No such container: " ++ productionEngine.container role⟩) = .ok none := by
  have hmissing : saysMissing (role.text ++ " command failed: " ++
      String.intercalate " " (inspectArgv (productionEngine.container role)) ++
      stderrSuffix ⟨1, "", "Error: No such container: " ++ productionEngine.container role⟩) =
        true := by
    cases role <;> decide +kernel
  rw [answered, if_pos (by simp), inspectOutcome, hmissing]
  rfl

/-- These nodes have daemons. -/
theorem daemon_smallDocker : Daemon productionEngine smallDocker
    fun role world => (world role).map (Held.object role) where
  inspects role world := by
    rw [execRemote_answered, smallAnswer_inspectArgv]
    cases world role with
    | none => exact inspectOutcome_none_smallDocker
    | some held =>
      have hloads := Json.loads_dumps Json.compact_blank (held.wf_object role)
      dsimp only
      rw [answered, if_neg (by simp), inspectOutcome, parseInspect, jsonStdout, hloads]
      cases held <;> rfl
  keeps node role argv world h := by
    rw [execRemote_smallDocker]
    by_cases hnode : node = role
    · subst hnode
      have hspares := h.resolve_left fun hne => hne rfl
      have hafter : Held.after (world node) (interpret argv) = world node := by
        cases hc : interpret argv <;> rw [hc] at hspares <;> first | rfl | cases hspares
      rw [hafter, Function.update_eq_self]
    · rw [Function.update_of_ne (Ne.symm hnode)]

/-- They return what they are asked for. -/
theorem honestDaemon_smallDocker : HonestDaemon productionEngine smallDocker := by
  intro role world result object hrun hparse
  have hfound := daemon_smallDocker.inspects role world
  rw [hrun, inspectOutcome, hparse] at hfound
  cases hworld : world role with
  | none =>
    rw [hworld] at hfound
    cases hfound
  | some held =>
    rw [hworld] at hfound
    obtain rfl : object = held.object role := Option.some.inj (Except.ok.inj hfound)
    exact inspectName_object held

end SmallDocker

/-! ### A container with another command -/

/-- The captured record of a container, which ran a server. -/
def foreignRecord (role : Role) : Json := .obj [
  ("command", .arr [.str "serve"]),
  ("environment", .arr []),
  ("host_config", .obj []),
  ("image", .str "sha256:old"),
  ("labels", .obj [("a", .str "b")]),
  ("mounts", .arr []),
  ("name", .str (productionEngine.container role)),
  ("running", .bool true),
  ("working_dir", .str "/")]

/-- The captured records of both roles. -/
def foreignRoles : Json :=
  .obj [("head", foreignRecord .head), ("worker", foreignRecord .worker)]

/-- The state of such a capture. -/
def foreignState : Json :=
  sealState (rollbackState productionEngine.config (.obj []) foreignRoles)

/-- The start with its file, and with a container of another command on each node. -/
def foreignStart : EngineState productionEngine (Role → Option Held) :=
  productionEngine.start (fun _ => some .foreign) (some (stateText foreignState))

theorem get_foreignRoles (role : Role) : foreignRoles.get role.text = foreignRecord role := by
  cases role <;> rfl

theorem loadRollback_foreignStart :
    loadRollback productionEngine.config foreignStart.stateFile =
      .ok (foreignState.sortKeys, foreignRoles) := by
  have hroles : Json.WF foreignRoles := by
    simp [foreignRoles, foreignRecord, Json.WF, Json.WFMembers, Json.WFItems, Json.keys]
  exact loadRollback_stateText (by simp [Json.WF, Json.WFMembers, Json.keys]) hroles rfl
    fun role => by cases role <;> rfl

theorem foreignRoles_ne_null (role : Role) : foreignRoles.get role.text ≠ .null := by
  rw [get_foreignRoles]
  exact nofun

/-- Its records are complete, and the captured image is there. -/
theorem prepareRollback_foreignStart :
    (prepareRollback smallDocker foreignState.sortKeys foreignRoles foreignStart).1 = .ok ⟨⟩ := by
  have hok : (prepareRollback smallDocker foreignState.sortKeys foreignRoles
      foreignStart).1.toOption.isSome = true := by
    decide +kernel
  cases h : (prepareRollback smallDocker foreignState.sortKeys foreignRoles foreignStart).1 with
  | ok u => rfl
  | error e =>
    rw [h] at hok
    cases hok

/-- What is there: the image and the labels are the captured ones. -/
abbrev smallObjects (role : Role) (world : Role → Option Held) : Option Json :=
  (world role).map (Held.object role)

theorem passes_foreignStart (role : Role) :
    Passes foreignStart.current foreignRoles (foreignStart.found smallObjects) role := by
  refine ⟨Held.object role .foreign, rfl, ?_⟩
  rw [get_foreignRoles]
  have hname : (inspectName (Held.object role .foreign) !=
      ((foreignRecord role).get "name").pyStr) = false := by
    rw [inspectName_object, bne_eq_false_iff_eq]
    rfl
  have himage : (!([((foreignRecord role).get "image").pyStr,
      strOption (foreignStart.current role).image.imageId].contains
        (inspectImage (Held.object role .foreign)))) = false := by
    have hold : ((foreignRecord role).get "image").pyStr = "sha256:old" := rfl
    have hnew : inspectImage (Held.object role .foreign) = "sha256:old" := rfl
    rw [hold, hnew]
    simp
  have hlabels : ∀ context, inspectLabels (Held.object role .foreign) context = .ok [("a", "b")] :=
    fun _ => rfl
  have hmapping : ((foreignRecord role).get "labels").isMapping = true := rfl
  have hsame : (environmentJson [("a", "b")]).pyEq
      (environmentJson (textMembers ((foreignRecord role).get "labels"))) = true := by
    have htext : textMembers ((foreignRecord role).get "labels") = [("a", "b")] := rfl
    rw [htext]
    decide
  rw [checkRollbackTarget, hname, himage, hlabels, hmapping]
  change lifecycleFail (!(currentOwner (foreignStart.current role) role [("a", "b")] ||
    (environmentJson [("a", "b")]).pyEq
      (environmentJson (textMembers ((foreignRecord role).get "labels")))))
    ("rollback refusing to remove unowned " ++ role.text ++ " target") = .ok ()
  rw [hsame, Bool.or_true]
  rfl

/-- The rollback to the captured pair stops or removes a container. -/
theorem mutates_foreignStart : ∃ new,
    (rollback smallDocker foreignStart).2.records = foreignStart.records ++ new ∧
      ∃ e ∈ new, ∃ k, e.Mutates k := by
  obtain ⟨new, hrecords, hmutates, -⟩ := issued_rollback daemon_smallDocker
    loadRollback_foreignStart foreignRoles_ne_null
  exact ⟨new, hrecords, hmutates.2 ⟨prepareRollback_foreignStart, .worker, rfl,
    passes_foreignStart _⟩⟩

/-- Such a container is neither the captured nor the current one. -/
theorem not_recognized_foreign (contract : Contract) (role : Role) (old : Json) :
    ¬Recognized contract role old (Held.object role .foreign) := by
  rintro ⟨⟨command, hcommand, -⟩, -⟩
  cases hcommand

/-- **The command is not looked at**: the rollback stops or removes a container, and none of them
is recognized. -/
theorem foreign_removed : ∃ new,
    (rollback smallDocker foreignStart).2.records = foreignStart.records ++ new ∧
      (∃ e ∈ new, ∃ k, e.Mutates k) ∧
      ¬RemovesOnlyOwn foreignStart.current foreignRoles (foreignStart.found smallObjects) new := by
  obtain ⟨new, hrecords, hany⟩ := mutates_foreignStart
  refine ⟨new, hrecords, hany, fun h => ?_⟩
  obtain ⟨e, he, k, hk⟩ := hany
  exact h.paired .worker _ rfl (not_recognized_foreign _ _ _) e he k hk

/-- On these nodes the condition fails, too. -/
theorem removesOnlyOwn_iff_foreign : ∃ new,
    (rollback smallDocker foreignStart).2.records = foreignStart.records ++ new ∧
      (RemovesOnlyOwn foreignStart.current foreignRoles (foreignStart.found smallObjects) new ↔
        ((prepareRollback smallDocker foreignState.sortKeys foreignRoles foreignStart).1 = .ok ⟨⟩ →
          ∀ first, firstFound (foreignStart.found smallObjects) = some first →
            Passes foreignStart.current foreignRoles (foreignStart.found smallObjects) first →
            ∀ role inspect, foreignStart.found smallObjects role = some inspect →
              Recognized (foreignStart.current role) role (foreignRoles.get role.text) inspect)) :=
  removesOnlyOwn_iff daemon_smallDocker loadRollback_foreignStart foreignRoles_ne_null

/-! ### Commands on containers that were checked -/

/-- An `apply` that cannot stage recovers by stopping and removing the containers of the owner, a
stop stops them, and a rollback removes what has the captured image and labels. -/
theorem ownership_before_mutation_smallDocker :
    (RunKeeps (containerGuard (Owned productionEngine)) (apply smallDocker false) ownedStart ∧
      mutations (apply smallDocker false ownedStart).2.records = onBoth [.stop, .rm]) ∧
    UpdateKeeps smallDocker ownedStart ∧
    RunKeeps (containerGuard (Owned productionEngine)) (start smallDocker) ownedStart ∧
    (RunKeeps (containerGuard (Owned productionEngine)) (stop smallDocker) ownedStart ∧
      mutations (stop smallDocker ownedStart).2.records = onBoth [.stop]) ∧
    ∃ new, (rollback smallDocker foreignStart).2.records = foreignStart.records ++ new ∧
      RollbackKeeps productionEngine foreignStart.stateFile new ∧ ∃ e ∈ new, ∃ k, e.Mutates k := by
  obtain ⟨happly, hupdate, hstart, hstop, -⟩ :=
    ownership_before_mutation honestDaemon_smallDocker ownedStart
  obtain ⟨-, -, -, -, new, hrecords, hrollback⟩ :=
    ownership_before_mutation honestDaemon_smallDocker foreignStart
  obtain ⟨new', hrecords', hany⟩ := mutates_foreignStart
  obtain rfl : new = new' := List.append_cancel_left (hrecords.symm.trans hrecords')
  exact ⟨⟨happly, by decide +kernel⟩, hupdate, hstart, ⟨hstop, by decide +kernel⟩, new, hrecords,
    hrollback, hany⟩

end DgxSpark
