import Mathlib.Data.Finset.Basic
import Mathlib.Data.Finset.Image
import Mathlib.Data.Finset.SDiff
import Mathlib.Data.Finset.Lattice.Basic
import Mathlib.Tactic

/-!
# The worker adapter of the cache server

`LMCacheMPWorkerAdapter` of `vllm_multi_process_adapter.py`: a worker submits retrieves to the
cache server, and in every step asks which ones have ended and which blocks their failures left
unwritten. A retrieve that the server never gets – it was unhealthy – ends as a failed one.

The result is that a retrieve is reported in one step and no other, and with its blocks among
the load errors unless its future had completed with `True`
(`DgxSpark.Lmcache.retrieve_reported_once`), over every run: the health changes at any point,
and futures complete between any two polls.

| | |
|---|---|
| a submission | `DgxSpark.Lmcache.WorkerAdapter.submitRetrieveRequest` |
| a report | `DgxSpark.Lmcache.WorkerAdapter.getFinished` |
| a report, lazily offloading | `DgxSpark.Lmcache.WorkerAdapter.getFinishedWithLazyOffload` |
-/

namespace DgxSpark

namespace Lmcache

/-! ### Operations and futures -/

/-- The block ids of an operation: one list for each engine group, or the single list that
serialization between processes leaves of `[[20, 21]]`. -/
inductive BlockIds where
  | perGroup (groups : List (List Int))
  | flattened (ids : List Int)
deriving DecidableEq, Repr

/-- `LoadStoreOp`. -/
structure LoadStoreOp where
  tokenIds : List Nat
  blockIds : BlockIds
  start : Nat
  «end» : Nat
  skipFirstNTokens : Nat
deriving DecidableEq, Repr

/-- `flat_block_ids`. -/
def LoadStoreOp.flatBlockIds (op : LoadStoreOp) : List Int :=
  match op.blockIds with
  | .perGroup groups => groups.flatten
  | .flattened ids => ids

/-- A `MessagingFuture`, by its identity. -/
abbrev Future : Type := Nat

/-- What the futures have completed with so far. -/
abbrev Completions : Type := Future → Option Bool

/-- A future completes; it does so once. -/
def Completions.complete (done : Completions) (f : Future) (b : Bool) : Completions :=
  fun g => if g = f then (done g).or (some b) else done g

/-- What completes between two polls. -/
abbrev Arrivals : Type := List (Future × Bool)

/-- The futures of `arrivals` complete, in their order. -/
def Completions.arrive (done : Completions) (arrivals : Arrivals) : Completions :=
  arrivals.foldl (fun done a => done.complete a.1 a.2) done

/-- An assignment to a key of a dictionary, which keeps its place. -/
def setItem {α : Type} (d : List (String × α)) (key : String) (v : α) : List (String × α) :=
  if d.any (·.1 = key) then d.map fun e => if e.1 = key then (key, v) else e
  else d ++ [(key, v)]

/-- `pop` for each of `keys`. -/
def popAll {α : Type} (d : List (String × α)) (keys : Finset String) : List (String × α) :=
  d.filter fun e => e.1 ∉ keys

/-- The keys of a dictionary. -/
def keySet {α : Type} (d : List (String × α)) : Finset String := (d.map Prod.fst).toFinset

/-! ### The adapter -/

/-- The exceptions of the adapter. -/
inductive AdapterError where
  /-- the transfer context is not initialized -/
  | noTransferContext
  /-- the transfer context refused the request -/
  | transferRefused
  /-- not in lazy offload mode -/
  | notLazyOffload
deriving DecidableEq, Repr

/-- The state of a `LMCacheMPWorkerAdapter`. -/
structure WorkerAdapter where
  /-- `_health_event.is_set()` -/
  isHealthy : Bool
  lazyOffload : Bool
  isKvWriter : Bool
  /-- `transfer_ctx` is there -/
  transferReady : Bool
  storeFutures : List (String × Future)
  retrieveFutures : List (String × Future × List Int)
  storeEvents : Finset String
  retrieveEvents : Finset String
  errorBlockIds : Finset Int
  droppedRetrieves : Finset String
  finishedStores : Finset String
  previouslyFinished : Finset String
  returnedFinished : Finset String
  completedStoreRequests : Finset String

/-- The adapter as `__init__` leaves it. -/
def WorkerAdapter.init (lazyOffload isKvWriter : Bool) : WorkerAdapter where
  isHealthy := true
  lazyOffload := lazyOffload
  isKvWriter := isKvWriter
  transferReady := false
  storeFutures := []
  retrieveFutures := []
  storeEvents := ∅
  retrieveEvents := ∅
  errorBlockIds := ∅
  droppedRetrieves := ∅
  finishedStores := ∅
  previouslyFinished := ∅
  returnedFinished := ∅
  completedStoreRequests := ∅

/-- `submit_store_request`; `future` is what the transfer context hands out, if anything. -/
def WorkerAdapter.submitStoreRequest (a : WorkerAdapter) (requestId : String)
    (future : Option Future) : Except AdapterError WorkerAdapter :=
  if ¬a.isKvWriter then .ok a
  else if ¬a.isHealthy then .ok a
  else if ¬a.transferReady then .error .noTransferContext
  else match future with
    | none => .error .transferRefused
    | some f => .ok { a with
        storeFutures := setItem a.storeFutures requestId f
        storeEvents := insert requestId a.storeEvents }

/-- `submit_retrieve_request`. -/
def WorkerAdapter.submitRetrieveRequest (a : WorkerAdapter) (requestId : String)
    (op : LoadStoreOp) (future : Option Future) : Except AdapterError WorkerAdapter :=
  if ¬a.isHealthy then
    .ok { a with
      errorBlockIds := a.errorBlockIds ∪ op.flatBlockIds.toFinset
      droppedRetrieves := insert requestId a.droppedRetrieves }
  else if ¬a.transferReady then .error .noTransferContext
  else match future with
    | none => .error .transferRefused
    | some f => .ok { a with
        retrieveFutures := setItem a.retrieveFutures requestId (f, op.flatBlockIds)
        retrieveEvents := insert requestId a.retrieveEvents }

/-- `_update_and_get_finished_store`. -/
def WorkerAdapter.updateAndGetFinishedStore (a : WorkerAdapter) :
    Finset String × WorkerAdapter :=
  let safe := a.finishedStores ∩ a.previouslyFinished
  (safe, { a with
    finishedStores := a.finishedStores \ a.previouslyFinished
    previouslyFinished := a.previouslyFinished \ safe })

/-- `_process_finished_stores`. -/
def WorkerAdapter.processFinishedStores (a : WorkerAdapter)
    (fromLmcache fromEngine : Finset String) : Finset String × WorkerAdapter :=
  let a := { a with finishedStores := a.finishedStores ∪ fromLmcache }
  let new := fromEngine.filter (· ∉ a.returnedFinished)
  let stored := new.filter fun r => r ∈ a.finishedStores ∨ r ∈ keySet a.storeFutures
  let (safe, a) := { a with
    previouslyFinished := a.previouslyFinished ∪ stored }.updateAndGetFinishedStore
  let ret := (new \ stored) ∪ safe
  (ret, { a with returnedFinished := a.returnedFinished ∪ ret })

/-- The branch of an unhealthy server: every pending future is drained, each retrieve as a
failed one, and the dropped retrieves with them. -/
def WorkerAdapter.drain (a : WorkerAdapter) :
    Finset String × Finset String × WorkerAdapter :=
  (keySet a.storeFutures, keySet a.retrieveFutures ∪ a.droppedRetrieves, { a with
    errorBlockIds := a.errorBlockIds ∪ (a.retrieveFutures.flatMap (·.2.2)).toFinset
    storeFutures := []
    retrieveFutures := []
    storeEvents := ∅
    retrieveEvents := ∅
    droppedRetrieves := ∅ })

/-- The entries of a dictionary whose futures have completed, with their results, polled in the
order of the dictionary. The first of `schedule` completes before the first poll, the second
before the second one, and so on. -/
def pollFutures {α : Type} (futureOf : α → Future) :
    List α → List Arrivals → Completions → List (α × Bool) × List Arrivals × Completions
  | [], schedule, done => ([], schedule, done)
  | e :: es, schedule, done =>
    let done := done.arrive (schedule.headD [])
    let (found, schedule, last) := pollFutures futureOf es schedule.tail done
    match done (futureOf e) with
    | none => (found, schedule, last)
    | some b => ((e, b) :: found, schedule, last)

/-- The branch of a healthy server: what has completed is taken out, and the dropped retrieves
with it. -/
def WorkerAdapter.collect (a : WorkerAdapter) (schedule : List Arrivals) (done : Completions) :
    Finset String × Finset String × WorkerAdapter × Completions :=
  let (stores, schedule, done) := pollFutures Prod.snd a.storeFutures schedule done
  let (retrieves, _, done) := pollFutures (·.2.1) a.retrieveFutures schedule done
  let finishedStores := (stores.map (·.1.1)).toFinset
  let finishedRetrieves := (retrieves.map (·.1.1)).toFinset
  let failed := (retrieves.filter fun e => !e.2).flatMap (·.1.2.2)
  (finishedStores, finishedRetrieves ∪ a.droppedRetrieves, { a with
    errorBlockIds := a.errorBlockIds ∪ failed.toFinset
    storeFutures := popAll a.storeFutures finishedStores
    storeEvents := a.storeEvents \ finishedStores
    retrieveFutures := popAll a.retrieveFutures finishedRetrieves
    retrieveEvents := a.retrieveEvents \ finishedRetrieves
    droppedRetrieves := ∅ }, done)

/-- `get_finished`: the stores and the retrieves that ended. -/
def WorkerAdapter.getFinished (a : WorkerAdapter) (fromEngine : Finset String)
    (schedule : List Arrivals) (done : Completions) :
    (Finset String × Finset String) × WorkerAdapter × Completions :=
  if ¬a.isHealthy then
    let (finishedStores, finishedRetrieves, a) := a.drain
    let (retStores, a) := a.processFinishedStores finishedStores fromEngine
    -- the scheduler has deleted the request when it sees its retrieve end
    ((retStores \ finishedRetrieves, finishedRetrieves), a, done)
  else
    let (finishedStores, finishedRetrieves, a, done) := a.collect schedule done
    let (retStores, a) := a.processFinishedStores finishedStores fromEngine
    ((retStores, finishedRetrieves), a, done)

/-- `get_finished_with_lazy_offload`: the retrieves that ended. -/
def WorkerAdapter.getFinishedWithLazyOffload (a : WorkerAdapter) (schedule : List Arrivals)
    (done : Completions) :
    Except AdapterError (Finset String × WorkerAdapter × Completions) :=
  if ¬a.lazyOffload then .error .notLazyOffload
  else if ¬a.isHealthy then
    let (finishedStores, finishedRetrieves, a) := a.drain
    .ok (finishedRetrieves, { a with
      completedStoreRequests := a.completedStoreRequests ∪ finishedStores }, done)
  else
    let (finishedStores, finishedRetrieves, a, done) := a.collect schedule done
    .ok (finishedRetrieves, { a with
      completedStoreRequests := a.completedStoreRequests ∪ finishedStores }, done)

/-- `get_block_ids_with_load_errors`. -/
def WorkerAdapter.getBlockIdsWithLoadErrors (a : WorkerAdapter) : Finset Int × WorkerAdapter :=
  (a.errorBlockIds, { a with errorBlockIds := ∅ })

/-! ### Runs -/

/-- What happens to a worker. -/
inductive Event where
  | submitStore (requestId : String) (future : Option Future)
  | submitRetrieve (requestId : String) (op : LoadStoreOp) (future : Option Future)
  | health (healthy : Bool)
  | transferContext (ready : Bool)
  | complete (future : Future) (result : Bool)
  /-- `get_finished`, then `get_block_ids_with_load_errors` -/
  | step (fromEngine : Finset String) (schedule : List Arrivals)
  /-- `get_finished_with_lazy_offload`, then `get_block_ids_with_load_errors` -/
  | lazyStep (schedule : List Arrivals)

/-- What a step reports of the retrieves. -/
structure Report where
  finishedRetrieves : Finset String
  loadErrors : Finset Int

/-- An adapter, and what its futures have completed with. -/
structure Worker where
  adapter : WorkerAdapter
  done : Completions

/-- A worker before its first event. -/
def Worker.init (lazyOffload isKvWriter : Bool) : Worker where
  adapter := .init lazyOffload isKvWriter
  done := fun _ => none

/-- The end of a step: the load errors are asked for. -/
def Worker.reported (finished : Finset String) (a : WorkerAdapter) (done : Completions) :
    Option Report × Worker :=
  let (errors, a) := a.getBlockIdsWithLoadErrors
  (some ⟨finished, errors⟩, ⟨a, done⟩)

/-- One event, with the report that it gives. What raises changes nothing. -/
def Worker.next (w : Worker) : Event → Option Report × Worker
  | .submitStore requestId future =>
    (none, { w with
      adapter := (w.adapter.submitStoreRequest requestId future).toOption.getD w.adapter })
  | .submitRetrieve requestId op future =>
    (none, { w with
      adapter := (w.adapter.submitRetrieveRequest requestId op future).toOption.getD w.adapter })
  | .health healthy => (none, { w with adapter := { w.adapter with isHealthy := healthy } })
  | .transferContext ready =>
    (none, { w with adapter := { w.adapter with transferReady := ready } })
  | .complete future result => (none, { w with done := w.done.complete future result })
  | .step fromEngine schedule =>
    let (finished, a, done) := w.adapter.getFinished fromEngine schedule w.done
    Worker.reported finished.2 a done
  | .lazyStep schedule =>
    match w.adapter.getFinishedWithLazyOffload schedule w.done with
    | .error _ => (none, w)
    | .ok (finished, a, done) => Worker.reported finished a done

/-- The worker after `events`. -/
def Worker.after (w : Worker) (events : List Event) : Worker :=
  events.foldl (fun w e => (w.next e).2) w

/-- The reports of `events`. -/
def Worker.reports : Worker → List Event → List Report
  | _, [] => []
  | w, e :: es => (w.next e).1.toList ++ (w.next e).2.reports es

/-- The submission of a retrieve returns. -/
def Worker.Submits (w : Worker) (requestId : String) (op : LoadStoreOp)
    (future : Option Future) : Prop :=
  (w.adapter.submitRetrieveRequest requestId op future).isOk = true

instance (w : Worker) (requestId : String) (op : LoadStoreOp) (future : Option Future) :
    Decidable (w.Submits requestId op future) :=
  inferInstanceAs (Decidable (_ = true))

/-- The ids that have an outstanding retrieve after an event. -/
def Worker.outstanding (w : Worker) (ids : Finset String) (e : Event) : Finset String :=
  match e with
  | .submitRetrieve requestId op future =>
    if w.Submits requestId op future then insert requestId ids else ids
  | e => (w.next e).1.elim ids fun r => ids \ r.finishedRetrieves

/-- Retrieves are submitted only for ids without an outstanding one, `ids` being the ids that
have one at the start. -/
def Worker.Admissible : Worker → Finset String → List Event → Prop
  | _, _, [] => True
  | w, ids, e :: es =>
    (∀ requestId op future, e = .submitRetrieve requestId op future → requestId ∉ ids) ∧
      (w.next e).2.Admissible (w.outstanding ids e) es

/-- The future of a retrieve that is submitted: there is none when it is dropped. -/
def Worker.sent (w : Worker) (future : Option Future) : Option Future :=
  if w.adapter.isHealthy then future else none

/-- No later submission of `requestId` returns in `events`. -/
def Worker.LastOf (w : Worker) (requestId : String) (events : List Event) : Prop :=
  ∀ early op future late, events = early ++ .submitRetrieve requestId op future :: late →
    ¬(w.after early).Submits requestId op future

/-- **A retrieve is reported, once**: in one step of `events` and no other; and unless its
future has completed with `True` by the end of that step, the load errors up to there have all
its blocks. -/
def Worker.Served (w : Worker) (requestId : String) (future : Option Future)
    (blocks : List Int) (events : List Event) : Prop :=
  ∃ early e late r, events = early ++ e :: late ∧ ((w.after early).next e).1 = some r ∧
    requestId ∈ r.finishedRetrieves ∧
    (∀ r' ∈ w.reports early, requestId ∉ r'.finishedRetrieves) ∧
    (∀ r' ∈ (w.after (early ++ [e])).reports late, requestId ∉ r'.finishedRetrieves) ∧
    ((∀ f, future = some f → (w.after (early ++ [e])).done f ≠ some true) →
      ∀ b ∈ blocks, ∃ r' ∈ w.reports (early ++ [e]), b ∈ r'.loadErrors)

/-- **A retrieve is still outstanding**: no step of `events` reports it, and each of them found
the server healthy and its future not completed. -/
def Worker.Outstanding (w : Worker) (requestId : String) (future : Option Future)
    (events : List Event) : Prop :=
  (∀ r ∈ w.reports events, requestId ∉ r.finishedRetrieves) ∧
  ∀ early e late, events = early ++ e :: late → ((w.after early).next e).1.isSome →
    (w.after early).adapter.isHealthy = true ∧
      ∃ f, future = some f ∧ (w.after early).done f = none

/-! ### What completes stays completed -/

theorem complete_mono {done : Completions} {f g : Future} {b c : Bool}
    (h : done g = some c) : done.complete f b g = some c := by
  rw [Completions.complete]
  split
  · rw [h]
    rfl
  · exact h

theorem arrive_mono {done : Completions} {arrivals : Arrivals} {g : Future} {c : Bool}
    (h : done g = some c) : done.arrive arrivals g = some c := by
  induction arrivals generalizing done with
  | nil => exact h
  | cons a as ih => exact ih (complete_mono h)

/-- What the polls find: entries of the dictionary with their results, and every entry whose
future had completed before. -/
structure Polled {α : Type} (futureOf : α → Future) (es : List α) (done : Completions)
    (found : List (α × Bool)) (last : Completions) : Prop where
  mono : ∀ {f b}, done f = some b → last f = some b
  sound : ∀ {e b}, (e, b) ∈ found → e ∈ es ∧ last (futureOf e) = some b
  complete : ∀ {e b}, e ∈ es → done (futureOf e) = some b → (e, b) ∈ found

theorem pollFutures_polled {α : Type} (futureOf : α → Future) (es : List α)
    (schedule : List Arrivals) (done : Completions) :
    Polled futureOf es done (pollFutures futureOf es schedule done).1
      (pollFutures futureOf es schedule done).2.2 := by
  induction es generalizing schedule done with
  | nil => exact ⟨id, nofun, nofun⟩
  | cons e es ih =>
    have ih := ih schedule.tail (done.arrive (schedule.headD []))
    rw [pollFutures]
    cases hpoll : done.arrive (schedule.headD []) (futureOf e) with
    | none =>
      refine ⟨fun h => ih.mono (arrive_mono h), fun h => ?_, fun he h => ?_⟩
      · exact ⟨List.mem_cons_of_mem _ (ih.sound h).1, (ih.sound h).2⟩
      · rcases List.mem_cons.1 he with rfl | he
        · rw [arrive_mono h] at hpoll
          cases hpoll
        · exact ih.complete he (arrive_mono h)
    | some c =>
      refine ⟨fun h => ih.mono (arrive_mono h), fun h => ?_, fun he h => ?_⟩
      · rcases List.mem_cons.1 h with h | h
        · cases h
          exact ⟨List.mem_cons_self, ih.mono hpoll⟩
        · exact ⟨List.mem_cons_of_mem _ (ih.sound h).1, (ih.sound h).2⟩
      · rcases List.mem_cons.1 he with rfl | he
        · have hc : some c = _ := hpoll.symm.trans (arrive_mono h)
          cases hc
          exact List.mem_cons_self
        · exact List.mem_cons_of_mem _ (ih.complete he (arrive_mono h))

/-! ### What a report does -/

@[simp] theorem mem_keySet {α : Type} {d : List (String × α)} {key : String} :
    key ∈ keySet d ↔ ∃ v, (key, v) ∈ d := by
  simp [keySet]

/-- What a step does to the retrieves: those of `ended` are taken out, each with its blocks
among the load errors unless it succeeded; one that is not taken out was waiting for its
future, at a healthy server. -/
structure Reporting (a : WorkerAdapter) (done : Completions) (ended : Finset String)
    (r : Report) (w : Worker) : Prop where
  finished : r.finishedRetrieves = ended ∪ a.droppedRetrieves
  futures : w.adapter.retrieveFutures = popAll a.retrieveFutures ended
  dropped : w.adapter.droppedRetrieves = ∅
  errors : a.errorBlockIds ⊆ r.loadErrors
  mono : ∀ {f b}, done f = some b → w.done f = some b
  pending : ∀ {requestId f blocks}, (requestId, f, blocks) ∈ a.retrieveFutures →
    requestId ∉ ended → a.isHealthy = true ∧ done f = none
  failed : ∀ {requestId}, requestId ∈ ended →
    ∃ f blocks, (requestId, f, blocks) ∈ a.retrieveFutures ∧
      (w.done f ≠ some true → ∀ b ∈ blocks, b ∈ r.loadErrors)

@[simp] theorem processFinishedStores_retrieveFutures (a : WorkerAdapter)
    (fromLmcache fromEngine : Finset String) :
    (a.processFinishedStores fromLmcache fromEngine).2.retrieveFutures = a.retrieveFutures := rfl

@[simp] theorem processFinishedStores_droppedRetrieves (a : WorkerAdapter)
    (fromLmcache fromEngine : Finset String) :
    (a.processFinishedStores fromLmcache fromEngine).2.droppedRetrieves = a.droppedRetrieves :=
  rfl

@[simp] theorem processFinishedStores_errorBlockIds (a : WorkerAdapter)
    (fromLmcache fromEngine : Finset String) :
    (a.processFinishedStores fromLmcache fromEngine).2.errorBlockIds = a.errorBlockIds := rfl

/-- The drained adapter, with what its caller does to the stores: every retrieve ends. -/
theorem drain_reporting {a : WorkerAdapter} {done : Completions} {w : Worker}
    (hfutures : w.adapter.retrieveFutures = a.drain.2.2.retrieveFutures)
    (hdropped : w.adapter.droppedRetrieves = a.drain.2.2.droppedRetrieves)
    (hdone : w.done = done) :
    Reporting a done (keySet a.retrieveFutures) ⟨a.drain.2.1, a.drain.2.2.errorBlockIds⟩ w where
  finished := rfl
  futures := by
    rw [hfutures]
    refine (List.filter_eq_nil_iff.2 fun e he => ?_).symm
    simpa using ⟨e.2.1, e.2.2, he⟩
  dropped := hdropped
  errors := Finset.subset_union_left
  mono := by
    rw [hdone]
    exact id
  pending := fun hmem hnot => absurd (mem_keySet.2 ⟨_, hmem⟩) hnot
  failed := by
    intro requestId hmem
    obtain ⟨⟨f, blocks⟩, hmem⟩ := mem_keySet.1 hmem
    refine ⟨f, blocks, hmem, fun _ b hb => ?_⟩
    refine Finset.mem_union_right _ (List.mem_toFinset.2 ?_)
    exact List.mem_flatMap.2 ⟨_, hmem, hb⟩

/-- The adapter after a collection, with what its caller does to the stores: the retrieves
whose futures have completed end. -/
theorem collect_reporting {a : WorkerAdapter} {done : Completions} {schedule : List Arrivals}
    {w : Worker} (hhealthy : a.isHealthy = true)
    (hfutures : w.adapter.retrieveFutures = (a.collect schedule done).2.2.1.retrieveFutures)
    (hdropped : w.adapter.droppedRetrieves = (a.collect schedule done).2.2.1.droppedRetrieves)
    (hdone : w.done = (a.collect schedule done).2.2.2) :
    ∃ ended, Reporting a done ended
      ⟨(a.collect schedule done).2.1, (a.collect schedule done).2.2.1.errorBlockIds⟩ w := by
  have hstores := pollFutures_polled Prod.snd a.storeFutures schedule done
  generalize hs : pollFutures Prod.snd a.storeFutures schedule done = polled at hstores
  obtain ⟨stores, schedule', done'⟩ := polled
  have hretrieves := pollFutures_polled (fun e : String × Future × List Int => e.2.1)
    a.retrieveFutures schedule' done'
  generalize hr : pollFutures (fun e : String × Future × List Int => e.2.1)
    a.retrieveFutures schedule' done' = polled at hretrieves
  obtain ⟨retrieves, schedule'', last⟩ := polled
  simp only [WorkerAdapter.collect, hs, hr] at hfutures hdropped hdone ⊢
  refine ⟨(retrieves.map (·.1.1)).toFinset, rfl, hfutures, hdropped,
    Finset.subset_union_left, ?_, ?_, ?_⟩
  · intro f b h
    rw [hdone]
    exact hretrieves.mono (hstores.mono h)
  · intro requestId f blocks hmem hnot
    refine ⟨hhealthy, ?_⟩
    by_contra hsome
    obtain ⟨b, hb⟩ := Option.ne_none_iff_exists'.1 hsome
    refine hnot (List.mem_toFinset.2 (List.mem_map.2 ⟨((requestId, f, blocks), b), ?_, rfl⟩))
    exact hretrieves.complete hmem (hstores.mono hb)
  · intro requestId hmem
    obtain ⟨⟨⟨_, f, blocks⟩, b⟩, hfound, rfl⟩ := List.mem_map.1 (List.mem_toFinset.1 hmem)
    obtain ⟨hentry, hlast⟩ := hretrieves.sound hfound
    refine ⟨f, blocks, hentry, fun hfail c hc => ?_⟩
    -- the result that the poll found is the one of the future
    have hb : b = false := by
      cases b with
      | false => rfl
      | true => exact absurd (by rw [hdone]; exact hlast) hfail
    refine Finset.mem_union_right _ (List.mem_toFinset.2 ?_)
    refine List.mem_flatMap.2 ⟨_, List.mem_filter.2 ⟨hfound, ?_⟩, hc⟩
    rw [hb]
    rfl

/-- **What a report does**, whichever of the two functions gave it. -/
theorem next_reporting {w : Worker} {e : Event} {r : Report} (h : (w.next e).1 = some r) :
    ∃ ended, Reporting w.adapter w.done ended r (w.next e).2 := by
  cases e with
  | submitStore requestId future => cases h
  | submitRetrieve requestId op future => cases h
  | health healthy => cases h
  | transferContext ready => cases h
  | complete future result => cases h
  | step fromEngine schedule =>
    rw [Worker.next] at h ⊢
    rw [WorkerAdapter.getFinished] at h ⊢
    by_cases hhealthy : w.adapter.isHealthy = true
    · rw [if_neg (not_not.2 hhealthy)] at h ⊢
      cases h
      exact collect_reporting hhealthy rfl rfl rfl
    · rw [if_pos hhealthy] at h ⊢
      cases h
      exact ⟨_, drain_reporting rfl rfl rfl⟩
  | lazyStep schedule =>
    rw [Worker.next] at h ⊢
    rw [WorkerAdapter.getFinishedWithLazyOffload] at h ⊢
    by_cases hlazy : w.adapter.lazyOffload = true
    · rw [if_neg (not_not.2 hlazy)] at h ⊢
      by_cases hhealthy : w.adapter.isHealthy = true
      · rw [if_neg (not_not.2 hhealthy)] at h ⊢
        cases h
        exact collect_reporting hhealthy rfl rfl rfl
      · rw [if_pos hhealthy] at h ⊢
        cases h
        exact ⟨_, drain_reporting rfl rfl rfl⟩
    · rw [if_pos hlazy] at h
      cases h

/-! ### Events without a report -/

theorem mem_setItem {α : Type} {d : List (String × α)} {key other : String} {v x : α}
    (h : other ≠ key) : (other, x) ∈ setItem d key v ↔ (other, x) ∈ d := by
  rw [setItem]
  split
  · constructor
    · intro hmem
      obtain ⟨e, he, heq⟩ := List.mem_map.1 hmem
      split at heq
      · cases heq
        exact absurd rfl h
      · exact heq ▸ he
    · intro hmem
      exact List.mem_map.2 ⟨_, hmem, if_neg h⟩
  · simp [h]

theorem mem_setItem_self {α : Type} {d : List (String × α)} {key : String} {v x : α}
    (h : key ∉ keySet d) : (key, x) ∈ setItem d key v ↔ x = v := by
  have hnone : ∀ y, (key, y) ∉ d := fun y hy => h (mem_keySet.2 ⟨y, hy⟩)
  rw [setItem, if_neg]
  · simp [hnone]
  · intro hany
    obtain ⟨e, he, hkey⟩ := List.any_eq_true.1 hany
    have hkey : e.1 = key := of_decide_eq_true hkey
    exact hnone e.2 (hkey ▸ he)

/-- What an event keeps of the retrieve of `requestId`. -/
structure Keeps (requestId : String) (w w' : Worker) : Prop where
  futures : ∀ x, (requestId, x) ∈ w'.adapter.retrieveFutures ↔
    (requestId, x) ∈ w.adapter.retrieveFutures
  dropped : requestId ∈ w'.adapter.droppedRetrieves ↔ requestId ∈ w.adapter.droppedRetrieves
  errors : w.adapter.errorBlockIds ⊆ w'.adapter.errorBlockIds
  mono : ∀ {f b}, w.done f = some b → w'.done f = some b

theorem Keeps.refl (requestId : String) (w : Worker) : Keeps requestId w w :=
  ⟨fun _ => Iff.rfl, Iff.rfl, Finset.Subset.refl _, id⟩

/-- A submission that raises changes nothing. -/
theorem next_submitRetrieve_of_not {w : Worker} {requestId : String} {op : LoadStoreOp}
    {future : Option Future} (h : ¬w.Submits requestId op future) :
    (w.next (.submitRetrieve requestId op future)).2 = w := by
  rw [Worker.Submits] at h
  rw [Worker.next]
  cases hsub : w.adapter.submitRetrieveRequest requestId op future with
  | ok a => rw [hsub] at h; exact absurd rfl h
  | error e => rfl

/-- An event that gives no report keeps a retrieve, but for a submission under its id. -/
theorem next_keeps {w : Worker} {e : Event} {requestId : String}
    (hnone : (w.next e).1 = none)
    (hsub : ∀ op future, e = .submitRetrieve requestId op future →
      ¬w.Submits requestId op future) :
    Keeps requestId w (w.next e).2 := by
  cases e with
  | submitStore other future =>
    rw [Worker.next, WorkerAdapter.submitStoreRequest.eq_def]
    split
    · exact Keeps.refl _ _
    · split
      · exact Keeps.refl _ _
      · split
        · exact Keeps.refl _ _
        · cases future with
          | none => exact Keeps.refl _ _
          | some f => exact ⟨fun _ => Iff.rfl, Iff.rfl, Finset.Subset.refl _, id⟩
  | submitRetrieve other op future =>
    by_cases hother : requestId = other
    · subst hother
      rw [next_submitRetrieve_of_not (hsub op future rfl)]
      exact Keeps.refl _ _
    · rw [Worker.next, WorkerAdapter.submitRetrieveRequest.eq_def]
      split
      · exact ⟨fun _ => Iff.rfl, Finset.mem_insert.trans (or_iff_right hother),
          Finset.subset_union_left, id⟩
      · split
        · exact Keeps.refl _ _
        · cases future with
          | none => exact Keeps.refl _ _
          | some f =>
            exact ⟨fun _ => mem_setItem hother, Iff.rfl, Finset.Subset.refl _, id⟩
  | health healthy => exact ⟨fun _ => Iff.rfl, Iff.rfl, Finset.Subset.refl _, id⟩
  | transferContext ready => exact ⟨fun _ => Iff.rfl, Iff.rfl, Finset.Subset.refl _, id⟩
  | complete future result =>
    exact ⟨fun _ => Iff.rfl, Iff.rfl, Finset.Subset.refl _, complete_mono⟩
  | step fromEngine schedule => cases hnone
  | lazyStep schedule =>
    rw [Worker.next] at hnone ⊢
    cases hrep : w.adapter.getFinishedWithLazyOffload schedule w.done with
    | error e => exact Keeps.refl _ _
    | ok ret =>
      rw [hrep] at hnone
      cases hnone

/-! ### The phases of a retrieve -/

/-- The adapter knows nothing of `requestId`. -/
def Worker.Idle (w : Worker) (requestId : String) : Prop :=
  (∀ x, (requestId, x) ∉ w.adapter.retrieveFutures) ∧
    requestId ∉ w.adapter.droppedRetrieves

/-- The retrieve of `requestId` was dropped, its blocks are load errors. -/
def Worker.Dropped (w : Worker) (requestId : String) (blocks : List Int) : Prop :=
  (∀ x, (requestId, x) ∉ w.adapter.retrieveFutures) ∧
    requestId ∈ w.adapter.droppedRetrieves ∧ ∀ b ∈ blocks, b ∈ w.adapter.errorBlockIds

/-- The retrieve of `requestId` has its future. -/
def Worker.Waiting (w : Worker) (requestId : String) (f : Future) (blocks : List Int) : Prop :=
  (∀ x, (requestId, x) ∈ w.adapter.retrieveFutures ↔ x = (f, blocks)) ∧
    requestId ∉ w.adapter.droppedRetrieves

section Phases

variable {requestId : String} {w w' : Worker} {blocks : List Int} {f : Future}

theorem Worker.Idle.keep (h : w.Idle requestId) (hkeeps : Keeps requestId w w') :
    w'.Idle requestId :=
  ⟨fun x hx => h.1 x ((hkeeps.futures x).1 hx), fun hd => h.2 (hkeeps.dropped.1 hd)⟩

theorem Worker.Dropped.keep (h : w.Dropped requestId blocks) (hkeeps : Keeps requestId w w') :
    w'.Dropped requestId blocks :=
  ⟨fun x hx => h.1 x ((hkeeps.futures x).1 hx), hkeeps.dropped.2 h.2.1,
    fun b hb => hkeeps.errors (h.2.2 b hb)⟩

theorem Worker.Waiting.keep (h : w.Waiting requestId f blocks)
    (hkeeps : Keeps requestId w w') : w'.Waiting requestId f blocks :=
  ⟨fun x => (hkeeps.futures x).trans (h.1 x), fun hd => h.2 (hkeeps.dropped.1 hd)⟩

variable {ended : Finset String} {r : Report}

/-- After a report, no dropped retrieve and none that ended is left. -/
theorem Reporting.idle (h : Reporting w.adapter w.done ended r w')
    (hgone : requestId ∈ ended ∨ ∀ x, (requestId, x) ∉ w.adapter.retrieveFutures) :
    w'.Idle requestId := by
  refine ⟨fun x hx => ?_, ?_⟩
  · rw [h.futures, popAll, List.mem_filter] at hx
    rcases hgone with hended | hnone
    · exact absurd hended (of_decide_eq_true hx.2)
    · exact hnone x hx.1
  · rw [h.dropped]
    exact Finset.notMem_empty _

theorem Reporting.notMem_ended (h : Reporting w.adapter w.done ended r w')
    (hnone : ∀ x, (requestId, x) ∉ w.adapter.retrieveFutures) : requestId ∉ ended := by
  intro hmem
  obtain ⟨f, blocks, hentry, -⟩ := h.failed hmem
  exact hnone _ hentry

end Phases

/-! ### Whole runs -/

section Runs

variable {requestId : String} {w : Worker} {e : Event} {es : List Event}

@[simp] theorem after_nil : w.after [] = w := rfl

@[simp] theorem after_cons : w.after (e :: es) = (w.next e).2.after es := rfl

@[simp] theorem reports_nil : w.reports [] = [] := rfl

@[simp] theorem reports_cons :
    w.reports (e :: es) = (w.next e).1.toList ++ (w.next e).2.reports es := rfl

theorem Worker.LastOf.tail (h : w.LastOf requestId (e :: es)) :
    (w.next e).2.LastOf requestId es := by
  rintro early op future late rfl
  exact h (e :: early) op future late rfl

theorem Worker.LastOf.head (h : w.LastOf requestId (e :: es)) (op : LoadStoreOp)
    (future : Option Future) (he : e = .submitRetrieve requestId op future) :
    ¬w.Submits requestId op future := by
  subst he
  exact h [] op future es rfl

/-- An id that the adapter knows nothing of is not reported. -/
theorem Worker.Idle.notMem_reports (hlast : w.LastOf requestId es) (h : w.Idle requestId) :
    ∀ r ∈ w.reports es, requestId ∉ r.finishedRetrieves := by
  induction es generalizing w with
  | nil => exact nofun
  | cons e es ih =>
    intro r hr
    rw [reports_cons, List.mem_append] at hr
    cases hrep : (w.next e).1 with
    | none =>
      rw [hrep] at hr
      refine ih hlast.tail (h.keep (next_keeps hrep hlast.head)) r ?_
      simpa using hr
    | some r' =>
      obtain ⟨ended, hreporting⟩ := next_reporting hrep
      rcases hr with hr | hr
      · obtain rfl : r = r' := by simpa [hrep] using hr
        rw [hreporting.finished, Finset.mem_union]
        rintro (hended | hdropped)
        · exact hreporting.notMem_ended h.1 hended
        · exact h.2 hdropped
      · exact ih hlast.tail (hreporting.idle (.inr h.1)) r hr

variable {future : Option Future} {blocks : List Int}

/-- The step that reports comes first. -/
theorem Worker.Served.here {r : Report} (hlast : w.LastOf requestId (e :: es))
    (hrep : (w.next e).1 = some r) (hmem : requestId ∈ r.finishedRetrieves)
    (hidle : (w.next e).2.Idle requestId)
    (herrors : (∀ f, future = some f → (w.next e).2.done f ≠ some true) →
      ∀ b ∈ blocks, b ∈ r.loadErrors) :
    w.Served requestId future blocks (e :: es) := by
  refine ⟨[], e, es, r, rfl, hrep, hmem, nofun, hidle.notMem_reports hlast.tail,
    fun hfail b hb => ⟨r, ?_, herrors hfail b hb⟩⟩
  simp [hrep]

/-- An event before the step that reports. -/
theorem Worker.Served.cons (h : (w.next e).2.Served requestId future blocks es)
    (hnot : ∀ r, (w.next e).1 = some r → requestId ∉ r.finishedRetrieves) :
    w.Served requestId future blocks (e :: es) := by
  obtain ⟨early, e', late, r, rfl, hrep, hmem, hearly, hlate, herrors⟩ := h
  refine ⟨e :: early, e', late, r, rfl, hrep, hmem, ?_, hlate, fun hfail b hb => ?_⟩
  · intro r' hr'
    rw [reports_cons, List.mem_append] at hr'
    rcases hr' with hr' | hr'
    · exact hnot r' (by simpa using hr')
    · exact hearly r' hr'
  · obtain ⟨r', hr', hb'⟩ := herrors hfail b hb
    refine ⟨r', ?_, hb'⟩
    rw [List.cons_append, reports_cons]
    exact List.mem_append_right _ hr'

/-- An event before a run in which the retrieve stays outstanding. -/
theorem Worker.Outstanding.cons (h : (w.next e).2.Outstanding requestId future es)
    (hnot : ∀ r, (w.next e).1 = some r → requestId ∉ r.finishedRetrieves)
    (hpending : (w.next e).1.isSome → w.adapter.isHealthy = true ∧
      ∃ f, future = some f ∧ w.done f = none) :
    w.Outstanding requestId future (e :: es) := by
  constructor
  · intro r' hr'
    rw [reports_cons, List.mem_append] at hr'
    rcases hr' with hr' | hr'
    · exact hnot r' (by simpa using hr')
    · exact h.1 r' hr'
  · intro early e' late heq hsome
    cases early with
    | nil =>
      cases heq
      exact hpending hsome
    | cons _ early =>
      cases heq
      exact h.2 early e' late rfl hsome

/-- **A dropped retrieve** is reported by the first step, with its blocks. -/
theorem Worker.Dropped.served_or (hlast : w.LastOf requestId es)
    (h : w.Dropped requestId blocks) :
    w.Served requestId future blocks es ∨ w.Outstanding requestId future es := by
  induction es generalizing w with
  | nil => exact .inr ⟨nofun, fun early e late heq => by simp at heq⟩
  | cons e es ih =>
    cases hrep : (w.next e).1 with
    | none =>
      have hnot : ∀ r, (w.next e).1 = some r → requestId ∉ r.finishedRetrieves := by
        intro r hr
        rw [hrep] at hr
        cases hr
      rcases ih hlast.tail (h.keep (next_keeps hrep hlast.head)) with hserved | hout
      · exact .inl (hserved.cons hnot)
      · refine .inr (hout.cons hnot fun hsome => ?_)
        rw [hrep] at hsome
        cases hsome
    | some r =>
      obtain ⟨ended, hreporting⟩ := next_reporting hrep
      refine .inl (Worker.Served.here hlast hrep ?_ (hreporting.idle (.inr h.1))
        fun _ b hb => hreporting.errors (h.2.2 b hb))
      rw [hreporting.finished]
      exact Finset.mem_union_right _ h.2.1

/-- **A retrieve with its future** is reported by the first step that finds the future
completed, or the server unhealthy. -/
theorem Worker.Waiting.served_or {f : Future} (hlast : w.LastOf requestId es)
    (h : w.Waiting requestId f blocks) :
    w.Served requestId (some f) blocks es ∨ w.Outstanding requestId (some f) es := by
  induction es generalizing w with
  | nil => exact .inr ⟨nofun, fun early e late heq => by simp at heq⟩
  | cons e es ih =>
    cases hrep : (w.next e).1 with
    | none =>
      have hnot : ∀ r, (w.next e).1 = some r → requestId ∉ r.finishedRetrieves := by
        intro r hr
        rw [hrep] at hr
        cases hr
      rcases ih hlast.tail (h.keep (next_keeps hrep hlast.head)) with hserved | hout
      · exact .inl (hserved.cons hnot)
      · refine .inr (hout.cons hnot fun hsome => ?_)
        rw [hrep] at hsome
        cases hsome
    | some r =>
      obtain ⟨ended, hreporting⟩ := next_reporting hrep
      by_cases hended : requestId ∈ ended
      · left
        refine Worker.Served.here hlast hrep ?_ (hreporting.idle (.inl hended)) ?_
        · rw [hreporting.finished]
          exact Finset.mem_union_left _ hended
        · intro hfail b hb
          obtain ⟨f', blocks', hentry, herrors⟩ := hreporting.failed hended
          cases (h.1 _).1 hentry
          exact herrors (hfail f rfl) b hb
      · have hnot : ∀ r', (w.next e).1 = some r' → requestId ∉ r'.finishedRetrieves := by
          intro r' hr'
          obtain rfl : r = r' := Option.some.inj (hrep.symm.trans hr')
          rw [hreporting.finished, Finset.mem_union]
          rintro (hmem | hmem)
          · exact hended hmem
          · exact h.2 hmem
        have hwaiting : (w.next e).2.Waiting requestId f blocks := by
          refine ⟨fun x => ?_, ?_⟩
          · rw [hreporting.futures, popAll, List.mem_filter, ← h.1 x]
            exact and_iff_left (decide_eq_true hended)
          · rw [hreporting.dropped]
            exact Finset.notMem_empty _
        obtain ⟨hhealthy, hdone⟩ := hreporting.pending ((h.1 _).2 rfl) hended
        rcases ih hlast.tail hwaiting with hserved | hout
        · exact .inl (hserved.cons hnot)
        · exact .inr (hout.cons hnot fun _ => ⟨hhealthy, f, rfl, hdone⟩)

/-! ### Admissible runs -/

/-- The ids that the adapter knows of are outstanding, each in one way. -/
structure Worker.Tracked (w : Worker) (ids : Finset String) : Prop where
  idle : ∀ requestId, requestId ∉ ids → w.Idle requestId
  apart : ∀ requestId ∈ w.adapter.droppedRetrieves,
    ∀ x, (requestId, x) ∉ w.adapter.retrieveFutures

theorem Worker.Tracked.init (lazyOffload isKvWriter : Bool) :
    (Worker.init lazyOffload isKvWriter).Tracked ∅ :=
  ⟨fun _ _ => ⟨fun _ => List.not_mem_nil, Finset.notMem_empty _⟩,
    fun _ h => absurd h (Finset.notMem_empty _)⟩

variable {ids : Finset String}

theorem outstanding_of_report {r : Report} (hrep : (w.next e).1 = some r) :
    w.outstanding ids e = ids \ r.finishedRetrieves := by
  cases e with
  | submitRetrieve other op future => cases hrep
  | _ => simp only [Worker.outstanding, hrep, Option.elim_some]

theorem subset_outstanding (hrep : (w.next e).1 = none) : ids ⊆ w.outstanding ids e := by
  cases e with
  | submitRetrieve other op future =>
    rw [Worker.outstanding]
    split
    · exact Finset.subset_insert _ _
    · exact Finset.Subset.refl _
  | _ => simp only [Worker.outstanding, hrep, Option.elim_none, Finset.Subset.refl]

/-- A submission leaves its id dropped, if the server is unhealthy, and else waiting. -/
theorem Worker.Idle.submit {op : LoadStoreOp} {future : Option Future}
    (h : w.Idle requestId) (hsub : w.Submits requestId op future) :
    (w.sent future = none ∧
        (w.next (.submitRetrieve requestId op future)).2.Dropped requestId op.flatBlockIds) ∨
      ∃ f, w.sent future = some f ∧
        (w.next (.submitRetrieve requestId op future)).2.Waiting requestId f
          op.flatBlockIds := by
  rw [Worker.Submits, WorkerAdapter.submitRetrieveRequest.eq_def] at hsub
  rw [Worker.next, WorkerAdapter.submitRetrieveRequest.eq_def, Worker.sent]
  by_cases hhealthy : w.adapter.isHealthy = true
  · rw [if_neg (not_not.2 hhealthy)] at hsub ⊢
    rw [if_pos hhealthy]
    by_cases hready : w.adapter.transferReady = true
    · rw [if_neg (not_not.2 hready)] at hsub ⊢
      cases future with
      | none => cases hsub
      | some f =>
        refine .inr ⟨f, rfl, fun x => mem_setItem_self ?_, h.2⟩
        rw [mem_keySet]
        rintro ⟨x, hx⟩
        exact h.1 x hx
    · rw [if_pos hready] at hsub
      cases hsub
  · rw [if_pos hhealthy, if_neg hhealthy]
    refine .inl ⟨rfl, h.1, Finset.mem_insert_self _ _, fun b hb => ?_⟩
    exact Finset.mem_union_right _ (List.mem_toFinset.2 hb)

/-- One event of an admissible run keeps the ids that the adapter knows of among the
outstanding ones. -/
theorem Worker.Tracked.next (h : w.Tracked ids)
    (hadm : ∀ requestId op future, e = .submitRetrieve requestId op future →
      requestId ∉ ids) :
    (w.next e).2.Tracked (w.outstanding ids e) := by
  cases hrep : (w.next e).1 with
  | some r =>
    obtain ⟨ended, hreporting⟩ := next_reporting hrep
    rw [outstanding_of_report hrep]
    refine ⟨fun requestId hnot => ?_, fun requestId hmem => ?_⟩
    · by_cases hmem : requestId ∈ ids
      · have hfinished : requestId ∈ r.finishedRetrieves := by
          by_contra hfin
          exact hnot (Finset.mem_sdiff.2 ⟨hmem, hfin⟩)
        rw [hreporting.finished, Finset.mem_union] at hfinished
        exact hreporting.idle (hfinished.imp_right (h.apart requestId))
      · exact hreporting.idle (.inr (h.idle requestId hmem).1)
    · rw [hreporting.dropped] at hmem
      exact absurd hmem (Finset.notMem_empty _)
  | none =>
    by_cases hsub : ∃ requestId op future, e = .submitRetrieve requestId op future ∧
        w.Submits requestId op future
    · obtain ⟨requestId, op, future, rfl, hsub⟩ := hsub
      have hidle := h.idle requestId (hadm requestId op future rfl)
      have hother : ∀ other, other ≠ requestId →
          Keeps other w (w.next (.submitRetrieve requestId op future)).2 := by
        intro other hne
        refine next_keeps hrep fun op' future' heq => ?_
        cases heq
        exact absurd rfl hne
      refine ⟨fun other hnot => ?_, fun other hmem x hx => ?_⟩
      · rw [Worker.outstanding, if_pos hsub, Finset.mem_insert, not_or] at hnot
        exact (h.idle other hnot.2).keep (hother other hnot.1)
      · by_cases hne : other = requestId
        · subst hne
          rcases hidle.submit hsub with ⟨-, hdropped⟩ | ⟨f, -, hwaiting⟩
          · exact hdropped.1 x hx
          · exact hwaiting.2 hmem
        · have hkeeps := hother other hne
          exact h.apart other (hkeeps.dropped.1 hmem) x ((hkeeps.futures x).1 hx)
    · have hkeeps : ∀ requestId, Keeps requestId w (w.next e).2 := fun requestId =>
        next_keeps hrep fun op future heq hs => hsub ⟨requestId, op, future, heq, hs⟩
      refine ⟨fun requestId hnot => ?_, fun requestId hmem x hx => ?_⟩
      · have hnot' : requestId ∉ ids := fun hmem => hnot (subset_outstanding hrep hmem)
        exact (h.idle requestId hnot').keep (hkeeps requestId)
      · have hkeep := hkeeps requestId
        exact h.apart requestId (hkeep.dropped.1 hmem) x ((hkeep.futures x).1 hx)

/-- Where an admissible run submits a retrieve, the adapter knows nothing of its id. -/
theorem Worker.Tracked.idle_of_admissible {op : LoadStoreOp} {before : List Event}
    (h : w.Tracked ids)
    (hadm : w.Admissible ids (before ++ .submitRetrieve requestId op future :: es)) :
    (w.after before).Idle requestId := by
  induction before generalizing w ids with
  | nil => exact h.idle requestId (hadm.1 requestId op future rfl)
  | cons e before ih => exact ih (h.next hadm.1) hadm.2

end Runs

/-- **A retrieve is reported exactly once, and fails closed**: in a run that submits retrieves
only for ids without an outstanding one, each that is submitted is in the finished set of
exactly one step before its id is submitted again, with all its blocks among the load errors up
to that step unless its future has completed with `True`; or it is still outstanding, and every
step since found the server healthy and the future not completed. -/
theorem retrieve_reported_once {lazyOffload isKvWriter : Bool} {before events : List Event}
    {requestId : String} {op : LoadStoreOp} {future : Option Future}
    (hadm : (Worker.init lazyOffload isKvWriter).Admissible ∅
      (before ++ .submitRetrieve requestId op future :: events))
    (hsub : ((Worker.init lazyOffload isKvWriter).after before).Submits requestId op future)
    (hlast : ((Worker.init lazyOffload isKvWriter).after
      (before ++ [.submitRetrieve requestId op future])).LastOf requestId events) :
    ((Worker.init lazyOffload isKvWriter).after
        (before ++ [.submitRetrieve requestId op future])).Served requestId
        (((Worker.init lazyOffload isKvWriter).after before).sent future)
        op.flatBlockIds events ∨
      ((Worker.init lazyOffload isKvWriter).after
        (before ++ [.submitRetrieve requestId op future])).Outstanding requestId
        (((Worker.init lazyOffload isKvWriter).after before).sent future) events := by
  have hidle := (Worker.Tracked.init lazyOffload isKvWriter).idle_of_admissible hadm
  have hafter : (Worker.init lazyOffload isKvWriter).after
      (before ++ [.submitRetrieve requestId op future]) =
        (((Worker.init lazyOffload isKvWriter).after before).next
          (.submitRetrieve requestId op future)).2 := by
    rw [Worker.after, List.foldl_append]
    rfl
  rw [hafter] at hlast ⊢
  rcases hidle.submit hsub with ⟨hsent, hdropped⟩ | ⟨f, hsent, hwaiting⟩
  · exact hdropped.served_or hlast
  · rw [hsent]
    exact hwaiting.served_or hlast

/-- A retrieve dropped by an unhealthy server, and the step after it. -/
theorem retrieve_reported_once_dropped :
    let op : LoadStoreOp := ⟨[1, 2], .perGroup [[7], [8, 9]], 0, 2, 0⟩
    let events : List Event := [.health true, .step ∅ []]
    let w := (Worker.init false true).after [.health false, .submitRetrieve "r" op none]
    w.Served "r" none op.flatBlockIds events ∨ w.Outstanding "r" none events := by
  intro op events w
  refine @retrieve_reported_once false true [.health false] events "r" op none ?_ rfl ?_
  · exact ⟨nofun, fun _ _ _ _ => Finset.notMem_empty _, nofun, nofun, trivial⟩
  · intro early op' future late h
    have hmem : Event.submitRetrieve "r" op' future ∈ events :=
      h ▸ List.mem_append_right early List.mem_cons_self
    simp [events] at hmem

end Lmcache

end DgxSpark
