import DgxSpark.Lmcache.LoadRetry
import DgxSpark.Lmcache.WorkerAdapter

/-!
# Failed loads and shared blocks

When a retrieve fails, the worker reports all blocks of its operation as load errors
(`flat_block_ids`), the ones that it was told to skip among them, and the scheduler looks for
these blocks in every request that runs or loads. A block that the retrieve shares with another
request through the prefix cache was never written by it; the other request loses its tokens all
the same.

`DgxSpark.Lmcache.failed_retrieve_spares` says when this does not happen: exactly if no other
request has computed tokens in a block of the operation, and nothing was to be skipped.
-/

namespace DgxSpark

namespace Lmcache

/-! ### What the worker reports -/

/-- How a retrieve fails. -/
inductive RetrieveFailure where
  /-- its future completes with `False` -/
  | resultFalse
  /-- the server is unhealthy when it is submitted -/
  | dropped
  /-- the server becomes unhealthy before it completes -/
  | drained
deriving DecidableEq, Repr

/-- The worker is asked for what has finished. -/
def Worker.poll (w : Worker) (fromEngine : Finset String) : Event :=
  if w.adapter.lazyOffload then .lazyStep [] else .step fromEngine []

/-- A retrieve that fails, up to the report of it. -/
def RetrieveFailure.events (how : RetrieveFailure) (w : Worker) (requestId : String)
    (op : LoadStoreOp) (f : Future) (fromEngine : Finset String) : List Event :=
  match how with
  | .resultFalse =>
    [.submitRetrieve requestId op (some f), .complete f false, w.poll fromEngine]
  | .dropped => [.health false, .submitRetrieve requestId op (some f), w.poll fromEngine]
  | .drained => [.submitRetrieve requestId op (some f), .health false, w.poll fromEngine]

/-- A healthy worker, to which `f` is a new future. Other retrieves may be on their way as long as
they neither complete nor fail with this one, which they do if the server becomes unhealthy. -/
structure Worker.Quiet (w : Worker) (how : RetrieveFailure) (requestId : String) (f : Future) :
    Prop where
  healthy : w.adapter.isHealthy = true
  ready : w.adapter.transferReady = true
  waiting : ∀ e ∈ w.adapter.retrieveFutures,
    how = .resultFalse ∧ e.1 ≠ requestId ∧ e.2.1 ≠ f ∧ w.done e.2.1 = none
  dropped : w.adapter.droppedRetrieves = ∅
  errors : w.adapter.errorBlockIds = ∅
  fresh : w.done f = none

/-- The `invalid_block_ids` of a connector's output. -/
def Report.invalidBlockIds (r : Report) : Finset Nat :=
  (r.loadErrors.filter (0 ≤ ·)).image Int.toNat

theorem Report.mem_invalidBlockIds {r : Report} {b : Nat} :
    b ∈ r.invalidBlockIds ↔ (b : Int) ∈ r.loadErrors := by
  rw [Report.invalidBlockIds, Finset.mem_image]
  constructor
  · rintro ⟨i, hi, rfl⟩
    obtain ⟨hmem, hnonneg⟩ := Finset.mem_filter.1 hi
    rw [Int.toNat_of_nonneg hnonneg]
    exact hmem
  · intro h
    exact ⟨b, Finset.mem_filter.2 ⟨h, Int.natCast_nonneg b⟩, Int.toNat_natCast b⟩

/-- The blocks at the places that an operation is told to skip. -/
def LoadStoreOp.skippedBlockIds (cfg : SchedulerConfig) (op : LoadStoreOp) : List Int :=
  match op.blockIds with
  | .perGroup groups => (cfg.kvCacheGroups.zip groups).flatMap fun p =>
      p.2.take (op.skipFirstNTokens / p.1.blockSize)
  | .flattened ids => cfg.kvCacheGroups.head?.toList.flatMap fun group =>
      ids.take (op.skipFirstNTokens / group.blockSize)

theorem LoadStoreOp.mem_flatBlockIds_of_skipped {cfg : SchedulerConfig} {op : LoadStoreOp}
    {b : Int} (h : b ∈ op.skippedBlockIds cfg) : b ∈ op.flatBlockIds := by
  rw [skippedBlockIds.eq_def] at h
  rw [flatBlockIds.eq_def]
  cases hids : op.blockIds with
  | perGroup groups =>
    rw [hids] at h
    obtain ⟨p, hp, hb⟩ := List.mem_flatMap.1 h
    exact List.mem_flatten.2 ⟨p.2, (List.of_mem_zip hp).2, List.mem_of_mem_take hb⟩
  | flattened ids =>
    rw [hids] at h
    obtain ⟨group, -, hb⟩ := List.mem_flatMap.1 h
    exact List.mem_of_mem_take hb

/-- A poll during which nothing completes. -/
theorem pollFutures_now {α : Type} (futureOf : α → Future) (es : List α) (done : Completions) :
    pollFutures futureOf es [] done =
      (es.filterMap fun e => (done (futureOf e)).map fun b => (e, b), [], done) := by
  induction es with
  | nil => rfl
  | cons e es ih =>
    rw [pollFutures]
    have harrive : done.arrive (([] : List Arrivals).headD []) = done := rfl
    simp only [harrive, List.tail_nil, ih]
    cases h : done (futureOf e) with
    | none => simp [h]
    | some b => simp [h]

section Report

variable {w : Worker} {how : RetrieveFailure} {requestId : String} {f : Future}

/-- Without a failure of the server there are no other retrieves. -/
theorem Worker.Quiet.alone (h : w.Quiet how requestId f) (hhow : how ≠ .resultFalse) :
    w.adapter.retrieveFutures = [] :=
  List.eq_nil_iff_forall_not_mem.2 fun e he => hhow (h.waiting e he).1

/-- The retrieve is entered behind the others. -/
theorem Worker.Quiet.setItem_eq (h : w.Quiet how requestId f) (v : Future × List Int) :
    setItem w.adapter.retrieveFutures requestId v =
      w.adapter.retrieveFutures ++ [(requestId, v)] := by
  rw [setItem, if_neg]
  intro hany
  obtain ⟨e, he, hkey⟩ := List.any_eq_true.1 hany
  exact (h.waiting e he).2.1 (of_decide_eq_true hkey)

/-- What has completed is this retrieve, and with `False`. -/
theorem Worker.Quiet.found (h : w.Quiet how requestId f) (blocks : List Int) :
    (w.adapter.retrieveFutures ++ [(requestId, f, blocks)]).filterMap (fun e =>
        (w.done.complete f false e.2.1).map fun b => (e, b)) =
      [((requestId, f, blocks), false)] := by
  have hothers : w.adapter.retrieveFutures.filterMap (fun e =>
      (w.done.complete f false e.2.1).map fun b => (e, b)) = [] := by
    refine List.filterMap_eq_nil_iff.2 fun e he => ?_
    obtain ⟨-, -, hne, hnone⟩ := h.waiting e he
    simp [Completions.complete, hne, hnone]
  rw [List.filterMap_append, hothers]
  simp [Completions.complete, h.fresh]

/-- **A retrieve that fails is reported with all its blocks**, however it fails. -/
theorem Worker.Quiet.reports (h : w.Quiet how requestId f) (op : LoadStoreOp)
    (fromEngine : Finset String) :
    w.reports (how.events w requestId op f fromEngine) =
      [⟨{requestId}, op.flatBlockIds.toFinset⟩] := by
  have halone := h.alone
  have hset := h.setItem_eq
  have hfound := h.found
  obtain ⟨hhealthy, hready, -, hdropped, herrors, -⟩ := h
  rcases w with ⟨a, done⟩
  dsimp only at hhealthy hready halone hset hfound hdropped herrors
  cases how with
  | resultFalse =>
    cases hlazy : a.lazyOffload with
    | true =>
      simp [RetrieveFailure.events, Worker.poll, Worker.next, WorkerAdapter.submitRetrieveRequest,
        hhealthy, hready, hset, hdropped, herrors, hlazy,
        WorkerAdapter.getFinishedWithLazyOffload, WorkerAdapter.collect, Worker.reported,
        WorkerAdapter.getBlockIdsWithLoadErrors, pollFutures_now, hfound, Except.toOption,
        -List.filterMap_append]
    | false =>
      simp [RetrieveFailure.events, Worker.poll, Worker.next, WorkerAdapter.submitRetrieveRequest,
        hhealthy, hready, hset, hdropped, herrors, hlazy,
        WorkerAdapter.getFinished, WorkerAdapter.collect, Worker.reported,
        WorkerAdapter.getBlockIdsWithLoadErrors, pollFutures_now, hfound, Except.toOption,
        -List.filterMap_append]
  | dropped =>
    have hretrieves := halone (by decide)
    cases hlazy : a.lazyOffload with
    | true =>
      simp [RetrieveFailure.events, Worker.poll, Worker.next, WorkerAdapter.submitRetrieveRequest,
        hretrieves, hdropped, herrors, hlazy, keySet,
        WorkerAdapter.getFinishedWithLazyOffload, WorkerAdapter.drain, Worker.reported,
        WorkerAdapter.getBlockIdsWithLoadErrors, Except.toOption]
    | false =>
      simp [RetrieveFailure.events, Worker.poll, Worker.next, WorkerAdapter.submitRetrieveRequest,
        hretrieves, hdropped, herrors, hlazy, keySet,
        WorkerAdapter.getFinished, WorkerAdapter.drain, Worker.reported,
        WorkerAdapter.getBlockIdsWithLoadErrors, Except.toOption]
  | drained =>
    have hretrieves := halone (by decide)
    cases hlazy : a.lazyOffload with
    | true =>
      simp [RetrieveFailure.events, Worker.poll, Worker.next, WorkerAdapter.submitRetrieveRequest,
        hhealthy, hready, hretrieves, hdropped, herrors, hlazy, setItem, keySet,
        WorkerAdapter.getFinishedWithLazyOffload, WorkerAdapter.drain, Worker.reported,
        WorkerAdapter.getBlockIdsWithLoadErrors, Except.toOption]
    | false =>
      simp [RetrieveFailure.events, Worker.poll, Worker.next, WorkerAdapter.submitRetrieveRequest,
        hhealthy, hready, hretrieves, hdropped, herrors, hlazy, setItem, keySet,
        WorkerAdapter.getFinished, WorkerAdapter.drain, Worker.reported,
        WorkerAdapter.getBlockIdsWithLoadErrors, Except.toOption]

end Report

/-! ### What the scheduler makes of it -/

namespace Scheduler

/-- The blocks of a request that hold its first `n` tokens. -/
def coveredBlocks (cfg : SchedulerConfig) (n : Nat) (blocks : List (List Nat)) : List Nat :=
  (cfg.kvCacheGroups.zip blocks).flatMap fun p =>
    p.2.take ((n + p.1.blockSize - 1) / p.1.blockSize)

/-- The blocks that hold computed tokens of a request that runs or loads. -/
def computedBlocks (cfg : SchedulerConfig) (s : Scheduler) (numScheduled : String → Nat)
    (id : String) : List Nat :=
  match s.requests id with
  | none => []
  | some r =>
    if id ∈ s.asyncLoadReqs ∨ id ∈ s.running then
      coveredBlocks cfg (r.numComputedTokens - numScheduled id) (s.blocks id)
    else []

/-- **A failed load does not touch a request**: its tokens and its status stay, it is not left
out of the output, and it is not recorded as failed. -/
structure Spared (cfg : SchedulerConfig) (s : Scheduler) (invalid : Finset Nat)
    (numScheduled : String → Nat) (id : String) : Prop where
  request : (handleInvalidBlocks cfg invalid numScheduled s).2.requests id = s.requests id
  output : id ∉ (handleInvalidBlocks cfg invalid numScheduled s).1
  unfailed : id ∉ (handleInvalidBlocks cfg invalid numScheduled
    { s with failedRecvingKvReqIds := ∅ }).2.failedRecvingKvReqIds

section Affected

variable {cfg : SchedulerConfig} {invalid : Finset Nat} {numScheduled : String → Nat}

/-- A block by which its request is affected. -/
def Hits (cfg : SchedulerConfig) (invalid : Finset Nat) (b : Nat) : Prop :=
  b ∈ invalid ∧ b ≠ cfg.nullBlockId

theorem scanBlock_affected (group : KvCacheGroup) (ids : List Nat) (scan : Scan)
    (p : Nat × Nat) : (scanBlock cfg invalid group ids scan p).affected = true ↔
      scan.affected = true ∨ Hits cfg invalid p.1 := by
  rw [scanBlock, Hits]
  by_cases hmem : p.1 ∈ invalid
  · rw [if_neg (not_not.2 hmem)]
    by_cases hnull : p.1 = cfg.nullBlockId
    · rw [if_pos hnull]
      exact ⟨.inl, fun h => h.resolve_right fun h => h.2 hnull⟩
    · rw [if_neg hnull]
      split
      · exact ⟨fun _ => .inr ⟨hmem, hnull⟩, fun _ => rfl⟩
      · exact ⟨fun _ => .inr ⟨hmem, hnull⟩, fun _ => rfl⟩
  · rw [if_pos hmem]
    exact ⟨.inl, fun h => h.resolve_right fun h => hmem h.1⟩

/-- A scan finds its request affected if one of its pieces does. -/
theorem foldl_affected {α : Type} {f : Scan → α → Scan} {P : α → Prop}
    (hf : ∀ scan a, (f scan a).affected = true ↔ scan.affected = true ∨ P a) (l : List α)
    (scan : Scan) : (l.foldl f scan).affected = true ↔ scan.affected = true ∨ ∃ a ∈ l, P a := by
  induction l generalizing scan with
  | nil => simp
  | cons a l ih =>
    rw [List.foldl_cons, ih, hf]
    simp [or_assoc]

theorem scanGroup_affected (n : Nat) (scan : Scan) (p : KvCacheGroup × List Nat) :
    (scanGroup cfg invalid n scan p).affected = true ↔ scan.affected = true ∨
      ∃ b ∈ p.2.take ((n + p.1.blockSize - 1) / p.1.blockSize), Hits cfg invalid b := by
  rw [scanGroup, foldl_affected (scanBlock_affected p.1 p.2)]
  refine or_congr_right ⟨?_, ?_⟩
  · rintro ⟨q, hq, hhits⟩
    exact ⟨q.1, List.fst_mem_of_mem_zipIdx hq, hhits⟩
  · rintro ⟨b, hb, hhits⟩
    obtain ⟨i, hi, rfl⟩ := List.mem_iff_getElem.1 hb
    exact ⟨(_, i), List.mk_mem_zipIdx_iff_getElem?.2 (List.getElem?_eq_getElem hi), hhits⟩

theorem scanRequest_affected (n : Nat) (blocks : List (List Nat)) (marked evict : Finset Nat) :
    (scanRequest cfg invalid n blocks marked evict).affected = true ↔
      ∃ b ∈ coveredBlocks cfg n blocks, Hits cfg invalid b := by
  rw [scanRequest, foldl_affected (scanGroup_affected n)]
  constructor
  · rintro (h | ⟨p, hp, b, hb, hhits⟩)
    · cases h
    · exact ⟨b, List.mem_flatMap.2 ⟨p, hp, hb⟩, hhits⟩
  · rintro ⟨b, hb, hhits⟩
    obtain ⟨p, hp, hb⟩ := List.mem_flatMap.1 hb
    exact .inr ⟨p, hp, b, hb, hhits⟩

/-- What the scan over some requests leaves of one that it does not find affected. -/
structure Unmoved (id : String) (t t' : Scanned) : Prop where
  request : t'.scheduler.requests id = t.scheduler.requests id
  blocks : t'.scheduler.blocks id = t.scheduler.blocks id
  affected : id ∈ t'.affectedReqIds ↔ id ∈ t.affectedReqIds

theorem Unmoved.trans {id : String} {t t' t'' : Scanned} (h : Unmoved id t t')
    (h' : Unmoved id t' t'') : Unmoved id t t'' :=
  ⟨h'.request.trans h.request, h'.blocks.trans h.blocks, h'.affected.trans h.affected⟩

/-- A request is hit where a block of its computed tokens is. -/
def IsHit (cfg : SchedulerConfig) (invalid : Finset Nat) (numScheduled : String → Nat)
    (s : Scheduler) (id : String) : Prop :=
  ∃ r, s.requests id = some r ∧
    ∃ b ∈ coveredBlocks cfg (r.numComputedTokens - numScheduled id) (s.blocks id),
      Hits cfg invalid b

variable {id other : String} {t : Scanned}

theorem updateRequest_unmoved
    (h : other = id → ¬IsHit cfg invalid numScheduled t.scheduler id) :
    Unmoved id t (updateRequestWithInvalidBlocks cfg invalid numScheduled t other) := by
  rw [updateRequestWithInvalidBlocks]
  cases hreq : t.scheduler.requests other with
  | none => exact ⟨rfl, rfl, Iff.rfl⟩
  | some r =>
    dsimp only
    split
    · rename_i haffected
      have hne : id ≠ other := by
        rintro rfl
        exact h rfl ⟨r, hreq, (scanRequest_affected _ _ _ _).1 haffected⟩
      refine ⟨(same_put hne).request, rfl, ?_⟩
      rw [List.mem_append, List.mem_singleton]
      exact or_iff_left hne
    · exact ⟨rfl, rfl, Iff.rfl⟩

theorem updateRequest_grows (h : id ∈ t.affectedReqIds) :
    id ∈ (updateRequestWithInvalidBlocks cfg invalid numScheduled t other).affectedReqIds := by
  rw [updateRequestWithInvalidBlocks]
  cases t.scheduler.requests other with
  | none => exact h
  | some r =>
    dsimp only
    split
    · exact List.mem_append_left _ h
    · exact h

theorem updateRequest_hit (h : IsHit cfg invalid numScheduled t.scheduler id) :
    id ∈ (updateRequestWithInvalidBlocks cfg invalid numScheduled t id).affectedReqIds := by
  obtain ⟨r, hreq, hhit⟩ := h
  rw [updateRequestWithInvalidBlocks, hreq]
  dsimp only
  rw [if_pos ((scanRequest_affected _ _ _ _).2 hhit)]
  exact List.mem_append_right _ List.mem_cons_self

/-- **A request that is not hit is not moved** by the scan. -/
theorem foldl_unmoved (ids : List String)
    (h : id ∈ ids → ¬IsHit cfg invalid numScheduled t.scheduler id) :
    Unmoved id t (ids.foldl (updateRequestWithInvalidBlocks cfg invalid numScheduled) t) := by
  induction ids generalizing t with
  | nil => exact ⟨rfl, rfl, Iff.rfl⟩
  | cons other ids ih =>
    have hstep : Unmoved id t (updateRequestWithInvalidBlocks cfg invalid numScheduled t other) :=
      updateRequest_unmoved fun heq => h (heq ▸ List.mem_cons_self)
    refine hstep.trans (ih fun hmem hhit => h (List.mem_cons_of_mem _ hmem) ?_)
    rwa [IsHit, hstep.request, hstep.blocks] at hhit

/-- **A request that is hit is affected.** -/
theorem foldl_hit {ids : List String} (hmem : id ∈ ids)
    (h : IsHit cfg invalid numScheduled t.scheduler id) :
    id ∈ (ids.foldl (updateRequestWithInvalidBlocks cfg invalid numScheduled)
      t).affectedReqIds := by
  have hgrows : ∀ (ids : List String) (t : Scanned), id ∈ t.affectedReqIds →
      id ∈ (ids.foldl (updateRequestWithInvalidBlocks cfg invalid numScheduled)
        t).affectedReqIds := by
    intro ids
    induction ids with
    | nil => exact fun t h => h
    | cons other ids ih => exact fun t h => ih _ (updateRequest_grows h)
  induction ids generalizing t with
  | nil => cases hmem
  | cons other ids ih =>
    by_cases heq : other = id
    · subst heq
      exact hgrows ids _ (updateRequest_hit h)
    · have hstep : Unmoved id t
          (updateRequestWithInvalidBlocks cfg invalid numScheduled t other) :=
        updateRequest_unmoved fun h' => absurd h' heq
      refine ih ((List.mem_cons.1 hmem).resolve_left (Ne.symm heq)) ?_
      rwa [IsHit, hstep.request, hstep.blocks]

variable {s : Scheduler}

theorem mem_computedBlocks {b : Nat} : b ∈ s.computedBlocks cfg numScheduled id ↔
    (id ∈ s.asyncLoadReqs ∨ id ∈ s.running) ∧ ∃ r, s.requests id = some r ∧
      b ∈ coveredBlocks cfg (r.numComputedTokens - numScheduled id) (s.blocks id) := by
  rw [computedBlocks]
  cases s.requests id with
  | none => simp
  | some r =>
    dsimp only
    split
    · rename_i hmem
      simp [hmem]
    · rename_i hmem
      simp [hmem]

/-- The scan of the requests that load. -/
abbrev asyncScan (cfg : SchedulerConfig) (invalid : Finset Nat) (numScheduled : String → Nat)
    (s : Scheduler) : Scanned :=
  updateRequestsWithInvalidBlocks cfg invalid numScheduled s.asyncLoadReqs s

/-- The scan of the requests that run, after it. -/
abbrev syncScan (cfg : SchedulerConfig) (invalid : Finset Nat) (numScheduled : String → Nat)
    (s : Scheduler) : Scanned :=
  updateRequestsWithInvalidBlocks cfg invalid numScheduled s.running
    (asyncScan cfg invalid numScheduled s).scheduler

theorem syncScan_failed (s : Scheduler) :
    (syncScan cfg invalid numScheduled s).scheduler.failedRecvingKvReqIds =
      s.failedRecvingKvReqIds := by
  have hasync : Recomputed "" s (asyncScan cfg invalid numScheduled s).scheduler :=
    (updateRequestsWithInvalidBlocks_scanning _ _ _ s s.asyncLoadReqs).recomputed ""
  have hsync : Recomputed "" (asyncScan cfg invalid numScheduled s).scheduler
      (syncScan cfg invalid numScheduled s).scheduler :=
    (updateRequestsWithInvalidBlocks_scanning _ _ _ _ s.running).recomputed ""
  exact hsync.failed.trans hasync.failed

/-- A request that is hit and does not load is affected in the second scan. -/
theorem mem_syncScan (hasync : id ∉ s.asyncLoadReqs) (hmem : id ∈ s.running)
    (hit : IsHit cfg invalid numScheduled s id) :
    id ∈ (syncScan cfg invalid numScheduled s).affectedReqIds := by
  have hkept : Unmoved id ⟨[], ∅, ∅, s⟩ (asyncScan cfg invalid numScheduled s) :=
    foldl_unmoved s.asyncLoadReqs fun h => absurd h hasync
  refine foldl_hit hmem ?_
  rw [IsHit, hkept.request, hkept.blocks]
  exact hit

/-- An affected request is left out of the output; one that loads may be recorded as failed
instead. -/
theorem handleInvalidBlocks_affected (s : Scheduler) :
    (id ∈ (asyncScan cfg invalid numScheduled s).affectedReqIds →
        cfg.recomputeKvLoadFailures = true →
          id ∈ (handleInvalidBlocks cfg invalid numScheduled s).2.failedRecvingKvReqIds) ∧
      (id ∈ (asyncScan cfg invalid numScheduled s).affectedReqIds →
        ¬cfg.recomputeKvLoadFailures = true →
          id ∈ (handleInvalidBlocks cfg invalid numScheduled s).1) ∧
      (id ∈ (syncScan cfg invalid numScheduled s).affectedReqIds →
        id ∈ (handleInvalidBlocks cfg invalid numScheduled s).1) := by
  rw [handleInvalidBlocks]
  dsimp only
  by_cases hnone : (asyncScan cfg invalid numScheduled s).affectedReqIds = [] ∧
      (syncScan cfg invalid numScheduled s).affectedReqIds = []
  · rw [if_pos hnone, hnone.1, hnone.2]
    exact ⟨fun h => absurd h List.not_mem_nil, fun h => absurd h List.not_mem_nil,
      fun h => absurd h List.not_mem_nil⟩
  · rw [if_neg hnone]
    by_cases hpolicy : cfg.recomputeKvLoadFailures = true
    · rw [if_neg (not_not.2 hpolicy)]
      refine ⟨fun h _ => ?_, fun _ h => absurd hpolicy h, fun h => h⟩
      exact Finset.mem_union_right _ (List.mem_toFinset.2 h)
    · rw [if_pos hpolicy]
      exact ⟨fun _ h => absurd h hpolicy, fun h _ => List.mem_append_left _ h,
        fun h => List.mem_append_right _ h⟩

/-- A request that is in neither scan's result keeps what it has. -/
theorem handleInvalidBlocks_unaffected
    (hasync : id ∉ (asyncScan cfg invalid numScheduled s).affectedReqIds)
    (hsync : id ∉ (syncScan cfg invalid numScheduled s).affectedReqIds) :
    (handleInvalidBlocks cfg invalid numScheduled s).2.requests id =
        (syncScan cfg invalid numScheduled s).scheduler.requests id ∧
      id ∉ (handleInvalidBlocks cfg invalid numScheduled s).1 ∧
      (id ∈ (handleInvalidBlocks cfg invalid numScheduled s).2.failedRecvingKvReqIds →
        id ∈ (syncScan cfg invalid numScheduled s).scheduler.failedRecvingKvReqIds) := by
  rw [handleInvalidBlocks]
  dsimp only
  split
  · exact ⟨rfl, List.not_mem_nil, fun h => h⟩
  · split
    · refine ⟨rfl, fun h => ?_, fun h => h⟩
      exact (List.mem_append.1 h).elim hasync hsync
    · refine ⟨rfl, hsync, fun h => ?_⟩
      refine (Finset.mem_union.1 h).resolve_right fun h => ?_
      exact hasync (List.mem_toFinset.1 h)

/-- A request that is not hit keeps what it has through both scans. -/
theorem scans_unmoved (h : id ∈ s.asyncLoadReqs ∨ id ∈ s.running →
    ¬IsHit cfg invalid numScheduled s id) :
    id ∉ (asyncScan cfg invalid numScheduled s).affectedReqIds ∧
      id ∉ (syncScan cfg invalid numScheduled s).affectedReqIds ∧
      (syncScan cfg invalid numScheduled s).scheduler.requests id = s.requests id := by
  have hasync : Unmoved id ⟨[], ∅, ∅, s⟩ (asyncScan cfg invalid numScheduled s) :=
    foldl_unmoved s.asyncLoadReqs fun hmem => h (.inl hmem)
  have hsync : Unmoved id ⟨[], ∅, ∅, (asyncScan cfg invalid numScheduled s).scheduler⟩
      (syncScan cfg invalid numScheduled s) := by
    refine foldl_unmoved s.running fun hmem hit => h (.inr hmem) ?_
    rwa [IsHit, hasync.request, hasync.blocks] at hit
  exact ⟨fun hmem => List.not_mem_nil (hasync.affected.1 hmem),
    fun hmem => List.not_mem_nil (hsync.affected.1 hmem), hsync.request.trans hasync.request⟩

/-- **A failed load touches exactly the requests with computed tokens in its blocks.** -/
theorem spared_iff : Spared cfg s invalid numScheduled id ↔
    ∀ b ∈ s.computedBlocks cfg numScheduled id, b ∈ invalid → b = cfg.nullBlockId := by
  constructor
  · intro h b hb hinvalid
    by_contra hnull
    obtain ⟨hmem, r, hr, hb⟩ := mem_computedBlocks.1 hb
    have hit : IsHit cfg invalid numScheduled s id := ⟨r, hr, b, hb, hinvalid, hnull⟩
    by_cases hasync : id ∈ s.asyncLoadReqs
    · by_cases hpolicy : cfg.recomputeKvLoadFailures = true
      · -- what was recorded before does not matter to the scan
        have hfresh : IsHit cfg invalid numScheduled { s with failedRecvingKvReqIds := ∅ } id :=
          hit
        exact h.unfailed ((handleInvalidBlocks_affected { s with failedRecvingKvReqIds := ∅ }).1
          (foldl_hit hasync hfresh) hpolicy)
      · exact h.output ((handleInvalidBlocks_affected s).2.1 (foldl_hit hasync hit) hpolicy)
    · exact h.output ((handleInvalidBlocks_affected s).2.2
        (mem_syncScan hasync (hmem.resolve_left hasync) hit))
  · intro h
    have hmiss : id ∈ s.asyncLoadReqs ∨ id ∈ s.running →
        ¬IsHit cfg invalid numScheduled s id := by
      rintro hmem ⟨r, hr, b, hb, hinvalid, hnull⟩
      exact hnull (h b (mem_computedBlocks.2 ⟨hmem, r, hr, hb⟩) hinvalid)
    have hmiss' : id ∈ ({ s with failedRecvingKvReqIds := ∅ } : Scheduler).asyncLoadReqs ∨
        id ∈ ({ s with failedRecvingKvReqIds := ∅ } : Scheduler).running →
          ¬IsHit cfg invalid numScheduled { s with failedRecvingKvReqIds := ∅ } id := hmiss
    obtain ⟨hasync, hsync, hrequest⟩ := scans_unmoved hmiss
    obtain ⟨hafter, hout, -⟩ := handleInvalidBlocks_unaffected hasync hsync
    obtain ⟨hasync', hsync', -⟩ := scans_unmoved hmiss'
    refine ⟨hafter.trans hrequest, hout, fun hfailed => ?_⟩
    have hmem := (handleInvalidBlocks_unaffected hasync' hsync').2.2 hfailed
    rw [syncScan_failed] at hmem
    exact Finset.notMem_empty _ hmem

end Affected

end Scheduler

/-! ### A failed retrieve -/

/-- **The failure of a retrieve touches no other request**, and none of the blocks that it was
told to skip is taken for an invalid one. -/
structure Report.SparesOthers (cfg : SchedulerConfig) (s : Scheduler)
    (numScheduled : String → Nat) (requestId : String) (op : LoadStoreOp) (report : Report) :
    Prop where
  others : ∀ other, other ≠ requestId →
    Scheduler.Spared cfg s report.invalidBlockIds numScheduled other
  skipped : ∀ b ∈ op.skippedBlockIds cfg, b ∈ report.loadErrors → b = cfg.nullBlockId

/-- **A failed retrieve spares the other requests exactly if none has computed tokens in a block
of its operation**, the null block apart, and the blocks that it skips are null blocks. -/
theorem failed_retrieve_spares {w : Worker} {how : RetrieveFailure} {requestId : String}
    {f : Future} (hquiet : w.Quiet how requestId f) (op : LoadStoreOp)
    (fromEngine : Finset String) (cfg : SchedulerConfig) (s : Scheduler)
    (numScheduled : String → Nat) :
    (∃ report, w.reports (how.events w requestId op f fromEngine) = [report] ∧
        report.SparesOthers cfg s numScheduled requestId op) ↔
      (∀ other, other ≠ requestId → ∀ b ∈ s.computedBlocks cfg numScheduled other,
          (b : Int) ∈ op.flatBlockIds → b = cfg.nullBlockId) ∧
        ∀ b ∈ op.skippedBlockIds cfg, b = cfg.nullBlockId := by
  rw [hquiet.reports]
  have hmem : ∀ b : Nat, b ∈ Report.invalidBlockIds ⟨{requestId}, op.flatBlockIds.toFinset⟩ ↔
      (b : Int) ∈ op.flatBlockIds := fun b =>
    Report.mem_invalidBlockIds.trans List.mem_toFinset
  constructor
  · rintro ⟨report, hreport, hspares⟩
    cases List.cons.inj hreport |>.1
    refine ⟨fun other hne b hb hop => ?_, fun b hb => ?_⟩
    · exact Scheduler.spared_iff.1 (hspares.others other hne) b hb ((hmem b).2 hop)
    · exact hspares.skipped b hb
        (List.mem_toFinset.2 (LoadStoreOp.mem_flatBlockIds_of_skipped hb))
  · rintro ⟨hothers, hskipped⟩
    refine ⟨_, rfl, fun other hne => ?_, fun b hb _ => hskipped b hb⟩
    exact Scheduler.spared_iff.2 fun b hb hinvalid => hothers other hne b hb ((hmem b).1 hinvalid)

/-- A worker that is ready. -/
def readyWorker : Worker :=
  ⟨{ WorkerAdapter.init true true with transferReady := true }, fun _ => none⟩

/-- The same with another retrieve on its way. -/
def busyWorker : Worker :=
  readyWorker.after [.submitRetrieve "q"
    { tokenIds := [], blockIds := .perGroup [[5, 6]], start := 0, «end» := 8,
      skipFirstNTokens := 0 } (some 1)]

theorem busyWorker_quiet : busyWorker.Quiet .resultFalse "r" 0 where
  healthy := rfl
  ready := rfl
  waiting := by decide
  dropped := rfl
  errors := rfl
  fresh := rfl

/-- A request that runs on a block of the prefix cache, and one that loads the next block. -/
def sharedRun : List SchedulerEvent :=
  [.add "s" 5 false,
    .visit "s" ⟨0, false, true⟩ (.run [[1, 3]] 0),
    .schedule "s" 4,
    .output ⟨[("s", 4, ⟨4, 5, none⟩)], ∅, [], []⟩ [],
    .add "r" 9 false,
    .visit "r" ⟨0, false, true⟩ (.load [[1, 2]] 8),
    .schedule "s" 1]

/-- The load of the block after the shared one; the shared one is skipped. -/
def sharedOp : LoadStoreOp where
  tokenIds := []
  blockIds := .perGroup [[1, 2]]
  start := 0
  «end» := 8
  skipFirstNTokens := 4

/-- How many tokens are scheduled in the step in which the load fails. -/
def sharedScheduled (id : String) : Nat := if id = "s" then 1 else 0

theorem failed_retrieve_spares_shared :
    (∃ report, busyWorker.reports (RetrieveFailure.events .resultFalse busyWorker "r"
        sharedOp 0 ∅) = [report] ∧
        report.SparesOthers retryConfig (World.init.after retryConfig sharedRun).scheduler
          sharedScheduled "r" sharedOp) ↔
      (∀ other, other ≠ "r" → ∀ b ∈ (World.init.after retryConfig
            sharedRun).scheduler.computedBlocks retryConfig sharedScheduled other,
          (b : Int) ∈ sharedOp.flatBlockIds → b = retryConfig.nullBlockId) ∧
        ∀ b ∈ sharedOp.skippedBlockIds retryConfig, b = retryConfig.nullBlockId :=
  failed_retrieve_spares busyWorker_quiet sharedOp ∅ retryConfig _ sharedScheduled

/-- A request that runs on the skipped block loses its computed tokens. -/
theorem shared_block_invalidated :
    ¬∃ report, readyWorker.reports (RetrieveFailure.events .resultFalse readyWorker "r"
        sharedOp 0 ∅) = [report] ∧
      report.SparesOthers retryConfig (World.init.after retryConfig sharedRun).scheduler
        sharedScheduled "r" sharedOp := by
  rintro ⟨report, hreport, hspares⟩
  have hreported : report = ⟨{"r"}, {1, 2}⟩ := (List.cons.inj hreport.symm).1
  subst hreported
  have hrequest := (hspares.others "s" (by decide)).request
  revert hrequest
  decide

end Lmcache

end DgxSpark
