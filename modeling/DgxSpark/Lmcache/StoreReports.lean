import DgxSpark.Lmcache.WorkerAdapter

/-!
# When a worker reports a request as stored

The engine frees the blocks of a finished request when the worker reports it, and the worker
reports it when the cache server has read them. Two sets meet in `get_finished` of
`vllm_multi_process_adapter.py`: what the server has finished storing, and what the engine has
finished; a third one remembers what has been returned, since the engine may say the same twice.

What happens to one request does not depend on the others, and is a machine with four bits
(`DgxSpark.Lmcache.Marks`), which the adapter refines (`DgxSpark.Lmcache.next_marks`). Over every
run that does not offload lazily a request is reported once, after the engine has finished it, and
at the latest in the first step that leaves no store of it pending – unless a retrieve of it is
drained in that step, which is then what the engine is told
(`DgxSpark.Lmcache.store_reported_once`).

It is reported with a store *pending* exactly when an earlier store of it had been collected
before the engine finished it: the futures are kept by request, and what has been collected of
one store counts for all of them.
-/

namespace DgxSpark

namespace Lmcache

/-! ### One request -/

/-- What the adapter has of the stores of one request. -/
@[ext] structure Marks where
  pending : Bool
  finished : Bool
  previously : Bool
  returned : Bool

/-- A step of the adapter, for one request: whether its store has ended, and whether the engine
has finished it. The result says whether the request is settled. -/
def Marks.step (m : Marks) (ended fromEngine : Bool) : Bool × Marks :=
  let pending := m.pending && !ended
  let finished := m.finished || ended
  let new := fromEngine && !m.returned
  let stored := new && (finished || pending)
  let previously := m.previously || stored
  let safe := finished && previously
  let settled := new && !stored || safe
  (settled, ⟨pending, finished && !previously, previously && !safe, m.returned || settled⟩)

/-- What the engine has finished waits for a pending store, and not for long. -/
def Marks.Ok (m : Marks) : Prop :=
  (m.previously = true → m.pending = true ∧ m.finished = false ∧ m.returned = false)

theorem Marks.step_ok {m : Marks} (h : m.Ok) (ended fromEngine : Bool) :
    (m.step ended fromEngine).2.Ok := by
  obtain ⟨pending, finished, previously, returned⟩ := m
  revert h
  simp only [Ok, step]
  revert pending finished previously returned ended fromEngine
  decide

/-- What is settled had not been, and is from now on. -/
theorem Marks.step_settled {m : Marks} (h : m.Ok) (ended fromEngine : Bool)
    (hsettled : (m.step ended fromEngine).1 = true) :
    m.returned = false ∧ (m.previously = true ∨ fromEngine = true) := by
  obtain ⟨pending, finished, previously, returned⟩ := m
  revert h hsettled
  simp only [Ok, step]
  revert pending finished previously returned ended fromEngine
  decide

/-- What is returned is what has been, and what is settled. -/
theorem Marks.step_returned (m : Marks) (ended fromEngine : Bool) :
    (m.step ended fromEngine).2.returned = (m.returned || (m.step ended fromEngine).1) := rfl

/-- What the engine has finished is known, and nothing else. -/
theorem Marks.step_known {m : Marks} (ended fromEngine : Bool) :
    ((m.step ended fromEngine).2.previously || (m.step ended fromEngine).2.returned) =
      (m.previously || m.returned || fromEngine) := by
  obtain ⟨pending, finished, previously, returned⟩ := m
  simp only [step]
  revert pending finished previously returned ended fromEngine
  decide

/-- When a request is settled with a store pending. -/
theorem Marks.step_early {m : Marks} (h : m.Ok) (ended fromEngine : Bool) :
    (m.step ended fromEngine).1 = true ∧ (m.step ended fromEngine).2.pending = true ↔
      fromEngine = true ∧ m.returned = false ∧ m.finished = true ∧ m.pending = true ∧
        ended = false := by
  obtain ⟨pending, finished, previously, returned⟩ := m
  revert h
  simp only [Ok, step]
  revert pending finished previously returned ended fromEngine
  decide

/-- A store that ends is remembered until the request is settled. -/
theorem Marks.step_finished (m : Marks) (ended fromEngine : Bool)
    (h : (m.step ended fromEngine).2.returned = false) :
    (m.step ended fromEngine).2.finished = (m.finished || ended) := by
  obtain ⟨pending, finished, previously, returned⟩ := m
  revert h
  simp only [step]
  revert pending finished previously returned ended fromEngine
  decide

/-! ### The adapter, request by request -/

/-- What the adapter has of one request. -/
def WorkerAdapter.marks (a : WorkerAdapter) (id : String) : Marks where
  pending := decide (id ∈ keySet a.storeFutures)
  finished := decide (id ∈ a.finishedStores)
  previously := decide (id ∈ a.previouslyFinished)
  returned := decide (id ∈ a.returnedFinished)

/-- The stores that an event reports. -/
def Worker.storeReport (w : Worker) : Event → Finset String
  | .step fromEngine schedule => (w.adapter.getFinished fromEngine schedule w.done).1.1
  | _ => ∅

/-- The retrieves that an event drains, the server being unhealthy. -/
def Worker.drained (w : Worker) : Event → Finset String
  | .step fromEngine schedule =>
    if w.adapter.isHealthy then ∅
    else (w.adapter.getFinished fromEngine schedule w.done).1.2
  | _ => ∅

/-- The requests that the engine finishes in an event. -/
def Event.engineFinished : Event → Finset String
  | .step fromEngine _ => fromEngine
  | _ => ∅

/-- An event takes a store of a request out of those that are pending. -/
def Worker.Collects (w : Worker) (e : Event) (id : String) : Prop :=
  id ∈ keySet w.adapter.storeFutures ∧ id ∉ keySet (w.next e).2.adapter.storeFutures

theorem keySet_popAll {α : Type} (d : List (String × α)) (keys : Finset String) (id : String) :
    id ∈ keySet (popAll d keys) ↔ id ∈ keySet d ∧ id ∉ keys := by
  rw [mem_keySet, mem_keySet]
  constructor
  · rintro ⟨v, hv⟩
    obtain ⟨hmem, hnot⟩ := List.mem_filter.1 hv
    exact ⟨⟨v, hmem⟩, of_decide_eq_true hnot⟩
  · rintro ⟨⟨v, hv⟩, hnot⟩
    exact ⟨v, List.mem_filter.2 ⟨hv, decide_eq_true hnot⟩⟩

/-- The adapter after its dictionaries have been polled or drained, with the stores that ended. -/
structure Polls (a b : WorkerAdapter) (ended : Finset String) : Prop where
  pending : ∀ id, id ∈ keySet b.storeFutures ↔ id ∈ keySet a.storeFutures ∧ id ∉ ended
  ended_pending : ended ⊆ keySet a.storeFutures
  finished : b.finishedStores = a.finishedStores
  previously : b.previouslyFinished = a.previouslyFinished
  returned : b.returnedFinished = a.returnedFinished

theorem drain_polls (a : WorkerAdapter) : Polls a a.drain.2.2 a.drain.1 := by
  refine ⟨fun id => ?_, Finset.Subset.refl _, rfl, rfl, rfl⟩
  show id ∈ keySet ([] : List (String × Future)) ↔
    id ∈ keySet a.storeFutures ∧ id ∉ keySet a.storeFutures
  rw [and_not_self_iff, iff_false, mem_keySet]
  rintro ⟨_, hmem⟩
  exact List.not_mem_nil hmem

theorem collect_polls (a : WorkerAdapter) (schedule : List Arrivals) (done : Completions) :
    Polls a (a.collect schedule done).2.2.1 (a.collect schedule done).1 := by
  have hstores := pollFutures_polled Prod.snd a.storeFutures schedule done
  refine ⟨fun id => keySet_popAll _ _ id, fun id hid => ?_, rfl, rfl, rfl⟩
  obtain ⟨entry, hentry, rfl⟩ := List.mem_map.1 (List.mem_toFinset.1 hid)
  exact mem_keySet.2 ⟨entry.1.2, (hstores.sound hentry).1⟩

/-- **What is done with the stores that ended**, for one request. -/
theorem processFinishedStores_marks {a b : WorkerAdapter} {ended : Finset String}
    (h : Polls a b ended) (fromEngine : Finset String) (id : String) :
    (decide (id ∈ (b.processFinishedStores ended fromEngine).1),
        (b.processFinishedStores ended fromEngine).2.marks id) =
      (a.marks id).step (decide (id ∈ ended)) (decide (id ∈ fromEngine)) := by
  have hpending := h.pending id
  simp only [WorkerAdapter.processFinishedStores, WorkerAdapter.updateAndGetFinishedStore,
    WorkerAdapter.marks, Marks.step, Finset.mem_sdiff, Finset.mem_union, Finset.mem_inter,
    Finset.mem_filter, Bool.decide_and, Bool.decide_or, decide_not, h.finished, h.previously,
    h.returned, hpending]

theorem setItem_mem {α : Type} (d : List (String × α)) (key : String) (v : α) :
    (key, v) ∈ setItem d key v := by
  rw [setItem]
  split
  · rename_i hany
    obtain ⟨e, he, hkey⟩ := List.any_eq_true.1 hany
    exact List.mem_map.2 ⟨e, he, if_pos (of_decide_eq_true hkey)⟩
  · exact List.mem_append_right _ (List.mem_singleton_self _)

theorem getFinished_marks (a : WorkerAdapter) (fromEngine : Finset String)
    (schedule : List Arrivals) (done : Completions) (id : String) :
    ∃ ended : Bool, (ended = true → (a.marks id).pending = true) ∧
      (a.getFinished fromEngine schedule done).2.1.marks id =
        ((a.marks id).step ended (decide (id ∈ fromEngine))).2 ∧
      (id ∈ (a.getFinished fromEngine schedule done).1.1 ↔
        ((a.marks id).step ended (decide (id ∈ fromEngine))).1 = true ∧
          (a.isHealthy = false → id ∉ (a.getFinished fromEngine schedule done).1.2)) := by
  rw [WorkerAdapter.getFinished]
  by_cases hhealthy : a.isHealthy = true
  · rw [if_neg (not_not.2 hhealthy)]
    have hpolls := collect_polls a schedule done
    have hboth := processFinishedStores_marks hpolls fromEngine id
    refine ⟨_, fun h => decide_eq_true (hpolls.ended_pending (of_decide_eq_true h)),
      congrArg Prod.snd hboth, ?_⟩
    rw [← congrArg Prod.fst hboth, decide_eq_true_eq, hhealthy]
    exact (and_iff_left fun h => absurd h Bool.noConfusion).symm
  · rw [if_pos hhealthy]
    have hpolls := drain_polls a
    have hboth := processFinishedStores_marks hpolls fromEngine id
    refine ⟨_, fun h => decide_eq_true (hpolls.ended_pending (of_decide_eq_true h)),
      congrArg Prod.snd hboth, ?_⟩
    rw [← congrArg Prod.fst hboth, decide_eq_true_eq]
    show id ∈ _ \ _ ↔ _
    rw [Finset.mem_sdiff]
    exact and_congr_right fun _ => ⟨fun h _ => h, fun h => h (Bool.not_eq_true _ ▸ hhealthy)⟩

/-- **What an event does to one request**: a step of its machine, or nothing but that a store of
it is pending. -/
theorem next_marks {w : Worker} (hlazy : w.adapter.lazyOffload = false) (e : Event) (id : String) :
    (w.next e).2.adapter.lazyOffload = false ∧
    ((∃ ended : Bool, (ended = true → (w.adapter.marks id).pending = true) ∧
        (w.next e).2.adapter.marks id =
          ((w.adapter.marks id).step ended (decide (id ∈ e.engineFinished))).2 ∧
        (id ∈ w.storeReport e ↔
          ((w.adapter.marks id).step ended (decide (id ∈ e.engineFinished))).1 = true ∧
            id ∉ w.drained e)) ∨
      id ∉ w.storeReport e ∧ id ∉ e.engineFinished ∧
        ((w.next e).2.adapter.marks id = w.adapter.marks id ∨
          (w.next e).2.adapter.marks id = { w.adapter.marks id with pending := true })) := by
  cases e with
  | step fromEngine schedule =>
    refine ⟨?_, .inl ?_⟩
    · show (w.adapter.getFinished fromEngine schedule w.done).2.1.lazyOffload = false
      rw [WorkerAdapter.getFinished]
      split <;> exact hlazy
    · obtain ⟨ended, hpending, hmarks, hreport⟩ :=
        getFinished_marks w.adapter fromEngine schedule w.done id
      refine ⟨ended, hpending, hmarks, hreport.trans (and_congr_right fun _ => ?_)⟩
      rw [Worker.drained]
      cases w.adapter.isHealthy with
      | true => exact iff_of_true (fun h => absurd h Bool.noConfusion) (Finset.notMem_empty id)
      | false => exact ⟨fun h => h rfl, fun h _ => h⟩
  | lazyStep schedule =>
    have hsame : w.next (.lazyStep schedule) = (none, w) := by
      rw [Worker.next, WorkerAdapter.getFinishedWithLazyOffload, hlazy]
      rfl
    rw [hsame]
    exact ⟨hlazy, .inr ⟨Finset.notMem_empty id, Finset.notMem_empty id, .inl rfl⟩⟩
  | submitStore requestId future =>
    have hsame : (w.next (.submitStore requestId future)).2 = w ∨ ∃ f,
        (w.next (.submitStore requestId future)).2.adapter = { w.adapter with
          storeFutures := setItem w.adapter.storeFutures requestId f
          storeEvents := insert requestId w.adapter.storeEvents } := by
      rw [Worker.next, WorkerAdapter.submitStoreRequest.eq_def]
      split
      · exact .inl rfl
      · split
        · exact .inl rfl
        · split
          · exact .inl rfl
          · cases future with
            | none => exact .inl rfl
            | some f => exact .inr ⟨f, rfl⟩
    rcases hsame with hsame | ⟨f, hsame⟩
    · rw [hsame]
      exact ⟨hlazy, .inr ⟨Finset.notMem_empty id, Finset.notMem_empty id, .inl rfl⟩⟩
    · rw [hsame]
      refine ⟨hlazy, .inr ⟨Finset.notMem_empty id, Finset.notMem_empty id, ?_⟩⟩
      by_cases hid : id = requestId
      · refine .inr (Marks.ext ?_ rfl rfl rfl)
        rw [hid]
        exact decide_eq_true (mem_keySet.2 ⟨f, setItem_mem _ _ _⟩)
      · refine .inl (Marks.ext ?_ rfl rfl rfl)
        refine decide_eq_decide.2 ?_
        rw [mem_keySet, mem_keySet]
        exact exists_congr fun v => mem_setItem hid
  | submitRetrieve requestId op future =>
    refine ⟨?_, .inr ⟨Finset.notMem_empty id, Finset.notMem_empty id, .inl ?_⟩⟩ <;>
    · rw [Worker.next, WorkerAdapter.submitRetrieveRequest.eq_def]
      split
      · first | exact hlazy | rfl
      · split
        · first | exact hlazy | rfl
        · cases future <;> first | exact hlazy | rfl
  | health healthy =>
    exact ⟨hlazy, .inr ⟨Finset.notMem_empty id, Finset.notMem_empty id, .inl rfl⟩⟩
  | transferContext ready =>
    exact ⟨hlazy, .inr ⟨Finset.notMem_empty id, Finset.notMem_empty id, .inl rfl⟩⟩
  | complete future result =>
    exact ⟨hlazy, .inr ⟨Finset.notMem_empty id, Finset.notMem_empty id, .inl rfl⟩⟩

/-! ### Runs -/

section Runs

variable {isKvWriter : Bool} {id : String}

/-- The worker after some events, from its start, not offloading lazily. -/
def Worker.run (isKvWriter : Bool) (events : List Event) : Worker :=
  (Worker.init false isKvWriter).after events

@[simp] theorem run_nil : Worker.run isKvWriter [] = Worker.init false isKvWriter := rfl

@[simp] theorem run_concat (events : List Event) (e : Event) :
    Worker.run isKvWriter (events ++ [e]) = ((Worker.run isKvWriter events).next e).2 := by
  rw [Worker.run, Worker.after, List.foldl_append]
  rfl

/-- Some event of a run, with the worker before it, is as described. -/
def Happened (isKvWriter : Bool) (events : List Event) (P : Worker → Event → Prop) : Prop :=
  ∃ early e late, events = early ++ e :: late ∧ P (Worker.run isKvWriter early) e

theorem happened_nil {P : Worker → Event → Prop} : ¬Happened isKvWriter [] P := by
  rintro ⟨early, e, late, heq, -⟩
  exact List.append_ne_nil_of_right_ne_nil early (List.cons_ne_nil e late) heq.symm

theorem happened_concat {events : List Event} {e : Event} {P : Worker → Event → Prop} :
    Happened isKvWriter (events ++ [e]) P ↔
      Happened isKvWriter events P ∨ P (Worker.run isKvWriter events) e := by
  constructor
  · rintro ⟨early, e', late, heq, hP⟩
    rcases List.eq_nil_or_concat late with rfl | ⟨late, last, rfl⟩
    · obtain ⟨rfl, hlast⟩ := List.append_inj' heq rfl
      rw [List.cons.inj hlast |>.1]
      exact .inr hP
    · rw [List.concat_eq_append, ← List.cons_append, ← List.append_assoc] at heq
      obtain ⟨rfl, -⟩ := List.append_inj' heq rfl
      exact .inl ⟨early, e', late, rfl, hP⟩
  · rintro (⟨early, e', late, rfl, hP⟩ | hP)
    · exact ⟨early, e', late ++ [e], by rw [List.append_assoc, List.cons_append], hP⟩
    · exact ⟨events, e, [], rfl, hP⟩

/-- What a run has done to one request. -/
structure Followed (isKvWriter : Bool) (events : List Event) (id : String) : Prop where
  lazy : (Worker.run isKvWriter events).adapter.lazyOffload = false
  ok : ((Worker.run isKvWriter events).adapter.marks id).Ok
  known : (((Worker.run isKvWriter events).adapter.marks id).previously ||
      ((Worker.run isKvWriter events).adapter.marks id).returned) = true ↔
    Happened isKvWriter events fun _ e => id ∈ e.engineFinished
  returned : ((Worker.run isKvWriter events).adapter.marks id).returned = true →
    Happened isKvWriter events fun w e => id ∈ w.storeReport e ∨ id ∈ w.drained e
  reported : (Happened isKvWriter events fun w e => id ∈ w.storeReport e) →
    ((Worker.run isKvWriter events).adapter.marks id).returned = true
  finished : ((Worker.run isKvWriter events).adapter.marks id).returned = false →
    (((Worker.run isKvWriter events).adapter.marks id).finished = true ↔
      Happened isKvWriter events fun w e => w.Collects e id)

theorem followed (isKvWriter : Bool) (events : List Event) (id : String) :
    Followed isKvWriter events id := by
  induction events using List.reverseRecOn with
  | nil =>
    refine ⟨rfl, fun h => absurd h Bool.noConfusion, ?_, fun h => absurd h Bool.noConfusion,
      fun h => absurd h happened_nil, fun _ => ?_⟩ <;>
    exact iff_of_false Bool.noConfusion happened_nil
  | append_singleton events e ih =>
    obtain ⟨hlazy, hstep | ⟨hnone, hengine, hsame⟩⟩ := next_marks ih.lazy e id
    · obtain ⟨ended, hpending, hmarks, hreport⟩ := hstep
      have hcollects : (Worker.run isKvWriter events).Collects e id ↔ ended = true := by
        rw [Worker.Collects, ← decide_eq_true_iff (p := id ∈ keySet _),
          ← decide_eq_false_iff_not]
        show ((Worker.run isKvWriter events).adapter.marks id).pending = true ∧
          (((Worker.run isKvWriter events).next e).2.adapter.marks id).pending = false ↔ _
        rw [hmarks]
        show _ ∧ (_ && !ended) = false ↔ _
        cases ended with
        | true => rw [Bool.not_true, Bool.and_false]; exact and_iff_left rfl |>.trans
                    (iff_of_true (hpending rfl) rfl)
        | false => rw [Bool.not_false, Bool.and_true]; exact iff_of_false
                    (fun h => Bool.noConfusion (h.1.symm.trans h.2)) Bool.noConfusion
      -- what is returned was returned before, or is settled now: then it is reported, or drained
      refine ⟨?_, ?_, ?_, fun hreturned => ?_, fun hreported => ?_, fun hnot => ?_⟩
      · rw [run_concat]
        exact hlazy
      · rw [run_concat, hmarks]
        exact Marks.step_ok ih.ok _ _
      · rw [run_concat, hmarks, Marks.step_known, happened_concat, Bool.or_eq_true, ih.known,
          decide_eq_true_eq]
      · rw [run_concat, hmarks, Marks.step_returned, Bool.or_eq_true] at hreturned
        rw [happened_concat]
        rcases hreturned with hbefore | hsettled
        · exact .inl (ih.returned hbefore)
        · by_cases hdrained : id ∈ (Worker.run isKvWriter events).drained e
          · exact .inr (.inr hdrained)
          · exact .inr (.inl (hreport.2 ⟨hsettled, hdrained⟩))
      · rw [run_concat, hmarks, Marks.step_returned, Bool.or_eq_true]
        exact (happened_concat.1 hreported).imp ih.reported fun h => (hreport.1 h).1
      · rw [run_concat, hmarks] at hnot ⊢
        have hbefore : ((Worker.run isKvWriter events).adapter.marks id).returned = false := by
          rw [Marks.step_returned, Bool.or_eq_false_iff] at hnot
          exact hnot.1
        rw [Marks.step_finished _ _ _ hnot, happened_concat, Bool.or_eq_true,
          ih.finished hbefore, hcollects]
    -- no other event reports, collects or finishes anything
    · have hkeep : ∀ m : Marks,
          (((Worker.run isKvWriter events).next e).2.adapter.marks id = m →
            m.previously = ((Worker.run isKvWriter events).adapter.marks id).previously ∧
            m.returned = ((Worker.run isKvWriter events).adapter.marks id).returned ∧
            m.finished = ((Worker.run isKvWriter events).adapter.marks id).finished ∧
            (((Worker.run isKvWriter events).adapter.marks id).pending = true →
              m.pending = true)) := by
        rintro m rfl
        rcases hsame with hsame | hsame <;> rw [hsame]
        · exact ⟨rfl, rfl, rfl, fun h => h⟩
        · exact ⟨rfl, rfl, rfl, fun _ => rfl⟩
      obtain ⟨hprev, hret, hfin, hpend⟩ := hkeep _ rfl
      have hcollects : ¬(Worker.run isKvWriter events).Collects e id := fun ⟨hin, hout⟩ =>
        hout (of_decide_eq_true (hpend (decide_eq_true hin)))
      refine ⟨?_, ?_, ?_, ?_, ?_, ?_⟩
      · rw [run_concat]
        exact hlazy
      · rw [run_concat]
        intro hp
        rw [hprev] at hp
        obtain ⟨h1, h2, h3⟩ := ih.ok hp
        exact ⟨hpend h1, hfin.trans h2, hret.trans h3⟩
      · rw [run_concat, hprev, hret, happened_concat, ih.known]
        exact (or_iff_left hengine).symm
      · rw [run_concat, hret, happened_concat]
        exact fun h => .inl (ih.returned h)
      · rw [run_concat, hret, happened_concat]
        exact fun h => ih.reported (h.resolve_right hnone)
      · rw [run_concat, hret, hfin, happened_concat]
        exact fun h => (ih.finished h).trans (or_iff_left hcollects).symm

/-- What is pending after an event was not drained by it. -/
theorem notMem_drained {w : Worker} {e : Event}
    (h : id ∈ keySet (w.next e).2.adapter.storeFutures) : id ∉ w.drained e := by
  cases e with
  | step fromEngine schedule =>
    rw [Worker.drained]
    by_cases hhealthy : w.adapter.isHealthy = true
    · rw [if_pos hhealthy]
      exact Finset.notMem_empty id
    · have hnone : (w.next (.step fromEngine schedule)).2.adapter.storeFutures = [] := by
        show (w.adapter.getFinished fromEngine schedule w.done).2.1.storeFutures = []
        rw [WorkerAdapter.getFinished, if_pos hhealthy]
        rfl
      rw [hnone] at h
      obtain ⟨_, hmem⟩ := mem_keySet.1 h
      exact absurd hmem List.not_mem_nil
  | submitStore => exact Finset.notMem_empty id
  | submitRetrieve => exact Finset.notMem_empty id
  | health => exact Finset.notMem_empty id
  | transferContext => exact Finset.notMem_empty id
  | complete => exact Finset.notMem_empty id
  | lazyStep => exact Finset.notMem_empty id

/-- **A stored request is reported once**: not before the engine has finished it, and as soon as
no store of it is pending, unless a retrieve of it is drained instead. A request that is reported
with a store pending is one of which an earlier store had been collected when the engine finished
it. -/
theorem store_reported_once (isKvWriter : Bool) (early : List Event) (e : Event) (id : String) :
    (id ∈ (Worker.run isKvWriter early).storeReport e →
      (Happened isKvWriter (early ++ [e]) fun _ e => id ∈ e.engineFinished) ∧
        ¬Happened isKvWriter early fun w e => id ∈ w.storeReport e) ∧
    ((Happened isKvWriter (early ++ [e]) fun _ e => id ∈ e.engineFinished) →
      id ∈ keySet (Worker.run isKvWriter (early ++ [e])).adapter.storeFutures ∨
        Happened isKvWriter (early ++ [e]) fun w e => id ∈ w.storeReport e ∨ id ∈ w.drained e) ∧
    (id ∈ keySet (Worker.run isKvWriter (early ++ [e])).adapter.storeFutures →
      (id ∈ (Worker.run isKvWriter early).storeReport e ↔
        id ∈ e.engineFinished ∧
          id ∉ (Worker.run isKvWriter early).adapter.returnedFinished ∧
          Happened isKvWriter early fun w e => w.Collects e id)) := by
  have hbefore := followed isKvWriter early id
  have hafter := followed isKvWriter (early ++ [e]) id
  refine ⟨fun hreport => ⟨?_, fun hagain => ?_⟩, fun hengine => ?_, fun hpending => ?_⟩
  · have hreturned := hafter.reported (happened_concat.2 (.inr hreport))
    exact hafter.known.1 (by rw [hreturned, Bool.or_true])
  · obtain ⟨-, hstep | ⟨hnone, -⟩⟩ := next_marks hbefore.lazy e id
    · obtain ⟨ended, -, -, hiff⟩ := hstep
      have hnot := (Marks.step_settled hbefore.ok _ _ (hiff.1 hreport).1).1
      exact Bool.noConfusion ((hbefore.reported hagain).symm.trans hnot)
    · exact hnone hreport
  · have hknown := hafter.known.2 hengine
    rw [Bool.or_eq_true] at hknown
    rcases hknown with hprev | hreturned
    · exact .inl (of_decide_eq_true (hafter.ok hprev).1)
    · exact .inr (hafter.returned hreturned)
  · rw [run_concat] at hpending
    obtain ⟨-, hstep | ⟨hnone, hengine, -⟩⟩ := next_marks hbefore.lazy e id
    · obtain ⟨ended, hended, hmarks, hiff⟩ := hstep
      have hmark : (((Worker.run isKvWriter early).adapter.marks id).step ended
          (decide (id ∈ e.engineFinished))).2.pending = true := by
        rw [← hmarks]
        exact decide_eq_true hpending
      rw [hiff, and_iff_left (notMem_drained hpending), ← and_iff_left hmark (a := _ = true),
        Marks.step_early hbefore.ok]
      have hfinished := hbefore.finished
      constructor
      · rintro ⟨hengine, hreturned, hfin, -, -⟩
        exact ⟨of_decide_eq_true hengine, of_decide_eq_false hreturned,
          (hfinished hreturned).1 hfin⟩
      · rintro ⟨hengine, hreturned, hcollected⟩
        have hreturned : ((Worker.run isKvWriter early).adapter.marks id).returned = false :=
          decide_eq_false hreturned
        have hboth : ((Worker.run isKvWriter early).adapter.marks id).pending = true ∧
            ended = false := by
          rw [← Bool.not_eq_true']
          exact Bool.and_eq_true_iff.1 hmark
        exact ⟨decide_eq_true hengine, hreturned, (hfinished hreturned).2 hcollected, hboth⟩
    · exact iff_of_false hnone fun h => hengine h.1

/-- A request with two stores, of which the first has ended, is reported while the second one is
pending. -/
example : "r" ∈ (Worker.run true [.transferContext true, .submitStore "r" (some 0),
    .complete 0 true, .step ∅ [], .submitStore "r" (some 1)]).storeReport (.step {"r"} []) := by
  decide

end Runs

end Lmcache

end DgxSpark
