import DgxSpark.Lmcache.Scheduler

/-!
# Retried loads

A request in `WAITING_FOR_REMOTE_KVS` is in one of three phases: its load is under way, its
completion is recorded, or its load has failed and it waits to be looked up again. Nothing but
two sets and a flag tells them apart, and completions are known by the id of the request alone.

Runs are here with what the scheduler does not see: which attempt a completion is of
(`DgxSpark.Lmcache.World`). What the phases guarantee, in the runs without the events that the
code gets wrong, is `DgxSpark.Lmcache.loads_orderly`.
-/

namespace DgxSpark

namespace Lmcache

/-! ### Runs -/

/-- A scheduler, with the attempts at loading that were made for each id, and those whose
completion has not been processed. -/
structure World where
  scheduler : Scheduler
  attempt : String → Nat
  outstanding : Finset (String × Nat)

/-- What happens to a scheduler. A completed load is known here by its attempt. -/
inductive SchedulerEvent where
  | add (id : String) (numTokens : Nat) (grammar : Bool)
  | resume (id : String) (numTokens : Nat)
  | visit (id : String) (turn : Scheduler.Turn) (admission : Scheduler.Admission)
  | preempt (id : String)
  | schedule (id : String) (numScheduled : Nat)
  | finish (ids : List String) (status : FinishedStatus)
  | output (out : Scheduler.Output) (loads : List (String × Nat))

/-- A world before its first event. -/
def World.init : World := ⟨.init, fun _ => 0, ∅⟩

/-- A load is started. -/
def World.startLoad (w : World) (id : String) : World :=
  { w with
    attempt := Function.update w.attempt id (w.attempt id + 1)
    outstanding := insert (id, w.attempt id + 1) w.outstanding }

/-- One event. -/
def World.next (cfg : SchedulerConfig) (w : World) : SchedulerEvent → World
  | .add id numTokens grammar =>
    if (w.scheduler.requests id).isSome then w
    else { w with scheduler := w.scheduler.addRequest id numTokens grammar }
  | .resume id numTokens =>
    match w.scheduler.requests id with
    | none => w
    | some r =>
      if r.status = .waitingForStreamingReq then
        { w with scheduler := w.scheduler.updateRequestAsSession id r numTokens }
      else w
  | .visit id turn admission =>
    let (started, s) := w.scheduler.visit cfg turn admission id
    let w := { w with scheduler := s }
    if started then w.startLoad id else w
  | .preempt id =>
    match w.scheduler.requests id with
    | none => w
    | some r =>
      if r.status = .running then { w with scheduler := w.scheduler.preemptRequest id r } else w
  | .schedule id numScheduled =>
    match w.scheduler.requests id with
    | none => w
    | some r =>
      if r.status = .running then
        { w with scheduler := w.scheduler.updateAfterSchedule id r numScheduled }
      else w
  | .finish ids status => { w with scheduler := w.scheduler.finishRequests ids status }
  | .output out loads =>
    { w with
      scheduler := w.scheduler.updateFromOutput cfg
        { out with finishedRecving := loads.map Prod.fst }
      outstanding := w.outstanding \ loads.toFinset }

/-- The world after `events`. -/
def World.after (cfg : SchedulerConfig) (w : World) (events : List SchedulerEvent) : World :=
  events.foldl (World.next cfg) w

/-! ### What stays -/

/-- Two states of the scheduler that do not differ in a request. -/
structure Same (id : String) (s s' : Scheduler) : Prop where
  request : s'.requests id = s.requests id
  blocks : s'.blocks id = s.blocks id
  recorded : id ∈ s'.finishedRecvingKvReqIds ↔ id ∈ s.finishedRecvingKvReqIds
  failed : id ∈ s'.failedRecvingKvReqIds ↔ id ∈ s.failedRecvingKvReqIds

theorem Same.refl (id : String) (s : Scheduler) : Same id s s :=
  ⟨rfl, rfl, Iff.rfl, Iff.rfl⟩

theorem Same.trans {id : String} {s s' s'' : Scheduler} (h : Same id s s')
    (h' : Same id s' s'') : Same id s s'' :=
  ⟨h'.request.trans h.request, h'.blocks.trans h.blocks, h'.recorded.trans h.recorded,
    h'.failed.trans h.failed⟩

namespace Scheduler

section Frames

variable {s : Scheduler} {id other : String} {r : Request}

@[simp] theorem put_requests_self : (s.put id r).requests id = some r := by simp [put]

theorem same_put (h : other ≠ id) : Same other s (s.put id r) :=
  ⟨by simp [put, h], rfl, Iff.rfl, Iff.rfl⟩

theorem same_freeKv (h : other ≠ id) : Same other s (s.freeKv id) :=
  ⟨rfl, by simp [freeKv, h], Iff.rfl, Iff.rfl⟩

theorem same_dequeue : Same other s (s.dequeue id) := ⟨rfl, rfl, Iff.rfl, Iff.rfl⟩

theorem same_skip : Same other s (s.skip id) := ⟨rfl, rfl, Iff.rfl, Iff.rfl⟩

theorem same_enqueue {status : RequestStatus} :
    Same other s (s.enqueueWaitingRequest id status) := by
  rw [enqueueWaitingRequest]
  split
  · exact ⟨rfl, rfl, Iff.rfl, Iff.rfl⟩
  · exact ⟨rfl, rfl, Iff.rfl, Iff.rfl⟩

theorem same_freeBlocks (h : other ≠ id) : Same other s (s.freeBlocks id) :=
  ⟨by simp [freeBlocks, freeKv, h], by simp [freeBlocks, freeKv, h], Iff.rfl, Iff.rfl⟩

theorem same_freeRequest {delay : Bool} (h : other ≠ id) :
    Same other s (s.freeRequest id delay) := by
  rw [freeRequest]
  split
  · exact ⟨rfl, rfl, Iff.rfl, Iff.rfl⟩
  · refine Same.trans ?_ (same_freeBlocks h)
    exact ⟨rfl, rfl, Iff.rfl, Iff.rfl⟩

theorem same_setStatus {status : RequestStatus} (h : other ≠ id) :
    Same other s (s.setStatus id status) :=
  ⟨by simp [setStatus, h], rfl, Iff.rfl, Iff.rfl⟩

variable {cfg : SchedulerConfig} {turn : Turn}

theorem same_maybeRetryKvLoad (h : other ≠ id) :
    Same other s (maybeRetryKvLoad cfg turn s id r).2 := by
  rw [maybeRetryKvLoad]
  split
  · exact Same.refl _ _
  · split
    · exact Same.refl _ _
    · split
      · exact Same.refl _ _
      · exact ((same_put h).trans (same_freeKv h)).trans ⟨rfl, rfl, Iff.rfl, Iff.rfl⟩

theorem same_erase_recorded (h : other ≠ id) : Same other s { s with
    finishedRecvingKvReqIds := s.finishedRecvingKvReqIds.erase id } :=
  ⟨rfl, rfl, by simp [h], Iff.rfl⟩

theorem same_erase_failed (h : other ≠ id) : Same other s { s with
    failedRecvingKvReqIds := s.failedRecvingKvReqIds.erase id } :=
  ⟨rfl, rfl, Iff.rfl, by simp [h]⟩

theorem same_updateWaitingForRemoteKv (h : other ≠ id) :
    Same other s (updateWaitingForRemoteKv cfg turn s id r).2 := by
  rw [updateWaitingForRemoteKv]
  split
  · have hretry : Same other s (maybeRetryKvLoad cfg turn { s with
        failedRecvingKvReqIds := s.failedRecvingKvReqIds.erase id } id r).2 :=
      (same_erase_failed h).trans (same_maybeRetryKvLoad h)
    dsimp only
    split
    · exact hretry.trans (same_erase_recorded h)
    · refine Same.trans ?_ (same_erase_recorded h)
      split
      · exact hretry
      · exact hretry.trans (same_freeKv h)
  · refine Same.trans ?_ (same_erase_recorded h)
    split
    · exact same_put h
    · exact Same.refl _ _

theorem same_tryPromote (h : other ≠ id) :
    Same other s (tryPromoteBlockedWaitingRequest cfg turn s id r).2 := by
  rw [tryPromoteBlockedWaitingRequest.eq_def]
  split
  · split
    · split
      · exact Same.refl _ _
      · exact same_put h
    · split
      · exact Same.refl _ _
      · have hupdate : Same other s (updateWaitingForRemoteKv cfg turn s id r).2 :=
          same_updateWaitingForRemoteKv h
        dsimp only
        split
        · exact hupdate.trans (same_setStatus h)
        · exact hupdate
  · split
    · exact same_setStatus h
    · exact Same.refl _ _
  · exact Same.refl _ _

theorem same_restOfTurn {admission : Admission} (h : other ≠ id) :
    Same other s (s.restOfTurn id r admission).2 := by
  cases admission with
  | skip => exact same_skip
  | stop => exact Same.refl _ _
  | load blocks n =>
    rw [restOfTurn]
    split
    · exact ((same_put h).trans same_skip).trans
        ⟨rfl, Function.update_of_ne h _ _, Iff.rfl, Iff.rfl⟩
    · exact Same.refl _ _
  | run blocks n =>
    rw [restOfTurn]
    exact ((same_put h).trans same_dequeue).trans
      ⟨rfl, Function.update_of_ne h _ _, Iff.rfl, Iff.rfl⟩

/-- A turn is about its own request. -/
theorem same_visit {admission : Admission} (h : other ≠ id) :
    Same other s (s.visit cfg turn admission id).2 := by
  rw [visit]
  cases s.requests id with
  | none => exact Same.refl _ _
  | some r =>
    dsimp only
    split
    · have hpromote : Same other s (tryPromoteBlockedWaitingRequest cfg turn s id r).2 :=
        same_tryPromote h
      rcases hp : tryPromoteBlockedWaitingRequest cfg turn s id r with ⟨ready, s'⟩
      rw [hp] at hpromote
      cases ready with
      | false => exact hpromote.trans same_skip
      | true =>
        dsimp only
        cases s'.requests id with
        | none => exact hpromote
        | some r' => exact hpromote.trans (same_restOfTurn h)
    · split
      · exact same_restOfTurn h
      · exact Same.refl _ _

theorem same_preemptRequest (h : other ≠ id) : Same other s (s.preemptRequest id r) := by
  rw [preemptRequest]
  exact (((same_freeKv h).trans (same_put h)).trans
    (same_dequeue : Same other _ (dequeue _ id))).trans
    ⟨rfl, rfl, Iff.rfl, Iff.rfl⟩

theorem same_finishRequest {status : FinishedStatus} (h : other ≠ id) :
    Same other s (finishRequest status s id) := by
  rw [finishRequest]
  cases s.requests id with
  | none => exact Same.refl _ _
  | some r =>
    dsimp only
    split
    · exact Same.refl _ _
    · split
      · refine Same.trans ?_ (same_freeRequest h)
        refine Same.trans ?_ (same_put h)
        exact (same_dequeue.trans (same_erase_recorded h)).trans (same_erase_failed h)
      · exact (same_dequeue.trans (same_put h)).trans (same_freeRequest h)

theorem same_finishedRecving (h : other ≠ id) : Same other s (s.finishedRecving id) := by
  rw [finishedRecving]
  cases s.requests id with
  | none => exact Same.refl _ _
  | some r =>
    dsimp only
    split
    · exact ⟨rfl, rfl, by simp [h], Iff.rfl⟩
    · split
      · exact same_freeBlocks h
      · exact Same.refl _ _

theorem same_finishedSending (h : other ≠ id) : Same other s (s.finishedSending id) := by
  rw [finishedSending]
  cases s.requests id with
  | none => exact Same.refl _ _
  | some r =>
    dsimp only
    split
    · exact same_freeBlocks h
    · exact Same.refl _ _

theorem same_progressRequest {progress : Progress} (h : other ≠ id) :
    Same other s (s.progressRequest id progress) := by
  rw [progressRequest]
  cases s.requests id with
  | none => exact Same.refl _ _
  | some r =>
    dsimp only
    split
    · cases progress.stop with
      | none => exact same_put h
      | some stop =>
        cases stop with
        | finish status => exact ((same_put h).trans same_dequeue).trans (same_freeRequest h)
        | awaitInput => exact ((same_put h).trans same_dequeue).trans same_enqueue
        | nextInput => exact ((same_put h).trans same_dequeue).trans same_enqueue
    · exact Same.refl _ _

end Frames

/-! ### What a turn does to its request -/

/-- A failed load that will be tried again. -/
structure Retried (cfg : SchedulerConfig) (s s' : Scheduler) (id : String) (r : Request) :
    Prop where
  allowed : cfg.recomputeKvLoadFailures = true ∧ r.kvLoadRetryCount < cfg.maxKvLoadRetries
  recorded : id ∈ s.finishedRecvingKvReqIds
  request : ∃ r', s'.requests id = some r' ∧ r'.isLoading ∧ r'.kvLoadRetryPending = true ∧
    r'.kvLoadRetryCount = r.kvLoadRetryCount + 1 ∧ r'.numComputedTokens = 0
  blocks : s'.blocks id = []
  unrecorded : id ∉ s'.finishedRecvingKvReqIds
  unfailed : id ∉ s'.failedRecvingKvReqIds

/-- A request that can be scheduled again, in `status`. -/
structure Promoted (s' : Scheduler) (id : String) (r : Request) (status : RequestStatus) :
    Prop where
  request : ∃ r', s'.requests id = some r' ∧ r'.status = status ∧
    r'.kvLoadRetryPending = false ∧ r'.kvLoadRetryCount = r.kvLoadRetryCount
  recorded : id ∉ s'.finishedRecvingKvReqIds
  failed : id ∉ s'.failedRecvingKvReqIds

section Turn

variable {cfg : SchedulerConfig} {turn : Turn} {s : Scheduler} {id : String} {r : Request}

/-- The cases of `_maybe_retry_kv_load`. -/
theorem maybeRetryKvLoad_cases (cfg : SchedulerConfig) (turn : Turn) (s : Scheduler)
    (id : String) (r : Request) :
    maybeRetryKvLoad cfg turn s id r = (false, s) ∨
      ((cfg.recomputeKvLoadFailures = true ∧ r.kvLoadRetryCount < cfg.maxKvLoadRetries) ∧
        ∃ s', maybeRetryKvLoad cfg turn s id r = (true, s') ∧
          s'.requests id = some { r with
            kvLoadRetryCount := r.kvLoadRetryCount + 1
            kvLoadRetryPending := true
            kvLoadRetryNotBefore := turn.now + cfg.kvLoadRetryBackoff
            numComputedTokens := 0 } ∧
          s'.blocks id = [] ∧ s'.finishedRecvingKvReqIds = s.finishedRecvingKvReqIds ∧
          s'.failedRecvingKvReqIds = s.failedRecvingKvReqIds) := by
  rw [maybeRetryKvLoad]
  by_cases hrecompute : cfg.recomputeKvLoadFailures = true
  · rw [if_neg (not_not.2 hrecompute)]
    by_cases hcount : cfg.maxKvLoadRetries ≤ r.kvLoadRetryCount
    · rw [if_pos hcount]
      exact .inl rfl
    · rw [if_neg hcount]
      by_cases hreset : turn.resetLoadState = true
      · rw [if_neg (not_not.2 hreset)]
        refine .inr ⟨⟨hrecompute, not_le.1 hcount⟩, _, rfl, ?_, ?_, rfl, rfl⟩
        · exact Function.update_self _ _ _
        · exact Function.update_self _ _ _
      · rw [if_pos hreset]
        exact .inl rfl
  · rw [if_pos hrecompute]
    exact .inl rfl

variable (cfg turn) in
/-- The cases of `_update_waiting_for_remote_kv`. -/
theorem updateWaitingForRemoteKv_cases (hreq : s.requests id = some r) (hload : r.isLoading)
    (hpending : r.kvLoadRetryPending = false) (hrecorded : id ∈ s.finishedRecvingKvReqIds) :
    (∃ s', updateWaitingForRemoteKv cfg turn s id r = (false, s') ∧ Retried cfg s s' id r) ∨
      ∃ s', updateWaitingForRemoteKv cfg turn s id r = (true, s') ∧
        Promoted s' id r .waitingForRemoteKvs ∧
        ∃ n, s'.requests id = some { r with numComputedTokens := n } := by
  have hstatus : r.status = .waitingForRemoteKvs := of_decide_eq_true hload
  rw [updateWaitingForRemoteKv]
  by_cases hfailed : id ∈ s.failedRecvingKvReqIds
  · rw [if_pos hfailed]
    rcases maybeRetryKvLoad_cases cfg turn { s with
      failedRecvingKvReqIds := s.failedRecvingKvReqIds.erase id } id r with
      hno | ⟨hallowed, s', hretry, hrequest, hblocks, hfinished, hfail⟩
    · right
      dsimp only
      rw [hno]
      dsimp only
      rw [if_neg Bool.false_ne_true]
      refine ⟨_, rfl, ⟨⟨r, ?_, hstatus, hpending, rfl⟩, ?_, ?_⟩, r.numComputedTokens, ?_⟩
      · split
        · exact hreq
        · exact hreq
      · exact Finset.notMem_erase _ _
      · split
        · exact Finset.notMem_erase _ _
        · exact Finset.notMem_erase _ _
      · split
        · exact hreq
        · exact hreq
    · left
      dsimp only
      rw [hretry]
      dsimp only
      rw [if_pos rfl]
      refine ⟨_, rfl, hallowed, hrecorded, ⟨_, hrequest, hload, rfl, rfl, rfl⟩, hblocks,
        Finset.notMem_erase _ _, ?_⟩
      change id ∉ s'.failedRecvingKvReqIds
      rw [hfail]
      exact Finset.notMem_erase _ _
  · right
    rw [if_neg hfailed]
    dsimp only
    split
    · exact ⟨_, rfl, ⟨⟨_, put_requests_self, hstatus, hpending, rfl⟩, Finset.notMem_erase _ _,
        hfailed⟩, _, put_requests_self⟩
    · exact ⟨_, rfl, ⟨⟨r, hreq, hstatus, hpending, rfl⟩, Finset.notMem_erase _ _, hfailed⟩,
        r.numComputedTokens, hreq⟩

/-- The status in which a promoted request goes on. -/
def resumedStatus (r : Request) : RequestStatus :=
  if r.numPreemptions ≠ 0 then .preempted else .waiting

variable (cfg turn) in
/-- **The turn of a loading request**: it stays, its load is tried again, its backoff has
elapsed, or its completion is recorded. -/
theorem tryPromote_loading (hreq : s.requests id = some r) (hload : r.isLoading) :
    tryPromoteBlockedWaitingRequest cfg turn s id r = (false, s) ∨
      (∃ s', tryPromoteBlockedWaitingRequest cfg turn s id r = (false, s') ∧
        r.kvLoadRetryPending = false ∧ Retried cfg s s' id r) ∨
      (∃ s', tryPromoteBlockedWaitingRequest cfg turn s id r = (true, s') ∧
        r.kvLoadRetryPending = true ∧ r.kvLoadRetryNotBefore ≤ turn.now ∧
        s'.requests id = some { r with kvLoadRetryPending := false, status := .waiting } ∧
        s'.finishedRecvingKvReqIds = s.finishedRecvingKvReqIds ∧
        s'.failedRecvingKvReqIds = s.failedRecvingKvReqIds) ∨
      ∃ s', tryPromoteBlockedWaitingRequest cfg turn s id r = (true, s') ∧
        r.kvLoadRetryPending = false ∧ id ∈ s.finishedRecvingKvReqIds ∧
        Promoted s' id r (resumedStatus r) := by
  have hstatus : r.status = .waitingForRemoteKvs := of_decide_eq_true hload
  rw [tryPromoteBlockedWaitingRequest.eq_def, hstatus]
  dsimp only
  by_cases hpending : r.kvLoadRetryPending = true
  · rw [if_pos hpending]
    by_cases hearly : turn.now < r.kvLoadRetryNotBefore
    · rw [if_pos hearly]
      exact .inl rfl
    · rw [if_neg hearly]
      exact .inr (.inr (.inl ⟨_, rfl, hpending, not_lt.1 hearly, put_requests_self, rfl, rfl⟩))
  · have hnot : r.kvLoadRetryPending = false := Bool.eq_false_iff.2 hpending
    rw [if_neg hpending]
    by_cases hrecorded : id ∈ s.finishedRecvingKvReqIds
    · rw [if_neg (not_not.2 hrecorded)]
      rcases updateWaitingForRemoteKv_cases cfg turn hreq hload hnot
        hrecorded with ⟨s', hupdate, hretried⟩ | ⟨s', hupdate, hpromoted, n, hrequest⟩
      · rw [hupdate]
        exact .inr (.inl ⟨s', rfl, hnot, hretried⟩)
      · rw [hupdate]
        refine .inr (.inr (.inr ⟨_, rfl, hnot, hrecorded, ?_, hpromoted.recorded,
          hpromoted.failed⟩))
        refine ⟨{ r with numComputedTokens := n, status := resumedStatus r }, ?_, rfl, hnot, rfl⟩
        change Function.update s'.requests id _ id = some _
        rw [Function.update_self, hrequest]
        rfl
    · rw [if_pos hrecorded]
      exact .inl rfl

variable (cfg turn) in
/-- The turn of a blocked request that is not loading: it stays, or its grammar is there. -/
theorem tryPromote_other (hreq : s.requests id = some r) (hload : r.isLoading = false) :
    tryPromoteBlockedWaitingRequest cfg turn s id r = (false, s) ∨
      ∃ s', tryPromoteBlockedWaitingRequest cfg turn s id r = (true, s') ∧
        s'.requests id = some { r with status := .waiting } ∧
        s'.finishedRecvingKvReqIds = s.finishedRecvingKvReqIds ∧
        s'.failedRecvingKvReqIds = s.failedRecvingKvReqIds := by
  rw [tryPromoteBlockedWaitingRequest.eq_def]
  cases hs : r.status with
  | waitingForRemoteKvs =>
    rw [Request.isLoading, hs] at hload
    cases hload
  | waitingForStructuredOutputGrammar =>
    dsimp only
    split
    · refine .inr ⟨_, rfl, ?_, rfl, rfl⟩
      rw [setStatus, hreq]
      exact Function.update_self _ _ _
    · exact .inl rfl
  | _ => exact .inl rfl

/-- The cases of an admission. -/
theorem restOfTurn_cases (s : Scheduler) (id : String) (r : Request) (admission : Admission) :
    (s.restOfTurn id r admission).2.finishedRecvingKvReqIds = s.finishedRecvingKvReqIds ∧
      (s.restOfTurn id r admission).2.failedRecvingKvReqIds = s.failedRecvingKvReqIds ∧
      (((s.restOfTurn id r admission).1 = false ∧
          (s.restOfTurn id r admission).2.requests id = s.requests id ∧
          (s.restOfTurn id r admission).2.blocks id = s.blocks id) ∨
        ((s.restOfTurn id r admission).1 = true ∧ ∃ n, (s.restOfTurn id r admission).2.requests id =
          some { r with status := .waitingForRemoteKvs, numComputedTokens := n }) ∨
        ((s.restOfTurn id r admission).1 = false ∧ ∃ n, (s.restOfTurn id r admission).2.requests id =
          some { r with status := .running, numComputedTokens := n })) := by
  cases admission with
  | skip => exact ⟨rfl, rfl, .inl ⟨rfl, rfl, rfl⟩⟩
  | stop => exact ⟨rfl, rfl, .inl ⟨rfl, rfl, rfl⟩⟩
  | load blocks n =>
    rw [restOfTurn]
    split
    · exact ⟨rfl, rfl, .inr (.inl ⟨rfl, n, put_requests_self⟩)⟩
    · exact ⟨rfl, rfl, .inl ⟨rfl, rfl, rfl⟩⟩
  | run blocks n =>
    exact ⟨rfl, rfl, .inr (.inr ⟨rfl, _, put_requests_self⟩)⟩

end Turn

/-! ### What a failed load does -/

/-- Two states that differ in a request's computed tokens at most, and not even there if it has
no blocks. -/
structure Recomputed (id : String) (s s' : Scheduler) : Prop where
  request : s'.requests id = s.requests id ∨ ∃ r n, s.requests id = some r ∧
    s'.requests id = some { r with numComputedTokens := n } ∧ s.blocks id ≠ []
  blocks : s'.blocks id = s.blocks id
  recorded : s'.finishedRecvingKvReqIds = s.finishedRecvingKvReqIds
  failed : s'.failedRecvingKvReqIds = s.failedRecvingKvReqIds

theorem Recomputed.refl (id : String) (s : Scheduler) : Recomputed id s s :=
  ⟨.inl rfl, rfl, rfl, rfl⟩

theorem Recomputed.trans {id : String} {s s' s'' : Scheduler} (h : Recomputed id s s')
    (h' : Recomputed id s' s'') : Recomputed id s s'' := by
  refine ⟨?_, h'.blocks.trans h.blocks, h'.recorded.trans h.recorded, h'.failed.trans h.failed⟩
  rcases h'.request with heq | ⟨r', n', hr', hs'', hblocks⟩
  · rw [heq]
    exact h.request
  · rw [h.blocks] at hblocks
    rcases h.request with heq | ⟨r, n, hr, hs', -⟩
    · exact .inr ⟨r', n', heq ▸ hr', hs'', hblocks⟩
    · rw [hs'] at hr'
      cases hr'
      exact .inr ⟨r, n', hr, hs'', hblocks⟩

section Invalid

variable {cfg : SchedulerConfig} {invalid : Finset Nat} {numScheduled : String → Nat}

/-- A request without blocks is not affected. -/
theorem scanRequest_nil (n : Nat) (marked evict : Finset Nat) :
    (scanRequest cfg invalid n [] marked evict).affected = false := by
  rw [scanRequest, List.zip_nil_right]
  rfl

/-- What the scan over some requests has done so far: it has changed computed tokens, and found
affected only requests with blocks. -/
structure Scanning (s : Scheduler) (ids : List String) (t : Scanned) : Prop where
  recomputed : ∀ id, Recomputed id s t.scheduler
  affected : ∀ id ∈ t.affectedReqIds, id ∈ ids ∧ s.blocks id ≠ []

theorem updateRequestWithInvalidBlocks_scanning {s : Scheduler} {ids : List String} {t : Scanned}
    {id : String} (h : Scanning s ids t) (hid : id ∈ ids) :
    Scanning s ids (updateRequestWithInvalidBlocks cfg invalid numScheduled t id) := by
  rw [updateRequestWithInvalidBlocks]
  cases hreq : t.scheduler.requests id with
  | none => exact h
  | some r =>
    dsimp only
    split
    · rename_i haffected
      have hblocks : t.scheduler.blocks id ≠ [] := by
        intro hnil
        rw [hnil, scanRequest_nil] at haffected
        cases haffected
      refine ⟨fun other => (h.recomputed other).trans ?_, fun other hother => ?_⟩
      · by_cases heq : other = id
        · subst heq
          exact ⟨.inr ⟨r, _, hreq, put_requests_self, hblocks⟩, rfl, rfl, rfl⟩
        · exact ⟨.inl (same_put heq).request, rfl, rfl, rfl⟩
      · rcases List.mem_append.1 hother with hother | hother
        · exact h.affected other hother
        · rw [List.mem_singleton.1 hother]
          rw [(h.recomputed id).blocks] at hblocks
          exact ⟨hid, hblocks⟩
    · exact ⟨h.recomputed, h.affected⟩

variable (cfg invalid numScheduled) in
theorem updateRequestsWithInvalidBlocks_scanning (s : Scheduler) (ids : List String) :
    Scanning s ids (updateRequestsWithInvalidBlocks cfg invalid numScheduled ids s) := by
  have hfold : ∀ (rest : List String) (t : Scanned), rest ⊆ ids → Scanning s ids t →
      Scanning s ids
        (rest.foldl (updateRequestWithInvalidBlocks cfg invalid numScheduled) t) := by
    intro rest
    induction rest with
    | nil => exact fun t _ h => h
    | cons id rest ih =>
      intro t hsub h
      exact ih _ (fun other hother => hsub (List.mem_cons_of_mem _ hother))
        (updateRequestWithInvalidBlocks_scanning h (hsub List.mem_cons_self))
  refine hfold ids _ (List.Subset.refl _) ⟨fun id => Recomputed.refl id s, fun id hid => ?_⟩
  cases hid

/-- **What `_handle_invalid_blocks` changes**: computed tokens of requests with blocks, and the
loads among these are recorded as failed. -/
theorem handleInvalidBlocks_spec (cfg : SchedulerConfig) (invalid : Finset Nat)
    (numScheduled : String → Nat) (s : Scheduler) (id : String) :
    ∃ s', Recomputed id s s' ∧
      (handleInvalidBlocks cfg invalid numScheduled s).2.requests id = s'.requests id ∧
      (handleInvalidBlocks cfg invalid numScheduled s).2.blocks id = s'.blocks id ∧
      (handleInvalidBlocks cfg invalid numScheduled s).2.finishedRecvingKvReqIds =
        s'.finishedRecvingKvReqIds ∧
      (id ∈ (handleInvalidBlocks cfg invalid numScheduled s).2.failedRecvingKvReqIds →
        id ∈ s.failedRecvingKvReqIds ∨
          (∃ r, s.requests id = some r ∧ r.isLoading) ∧ s.blocks id ≠ []) := by
  have hasync := updateRequestsWithInvalidBlocks_scanning cfg invalid numScheduled
    s s.asyncLoadReqs
  have hsync := updateRequestsWithInvalidBlocks_scanning cfg invalid numScheduled
    (updateRequestsWithInvalidBlocks cfg invalid numScheduled
      s.asyncLoadReqs s).scheduler s.running
  have hboth := (hasync.recomputed id).trans (hsync.recomputed id)
  have hsame : (updateRequestsWithInvalidBlocks cfg invalid numScheduled s.running
      (updateRequestsWithInvalidBlocks cfg invalid numScheduled s.asyncLoadReqs
        s).scheduler).scheduler.failedRecvingKvReqIds = s.failedRecvingKvReqIds := hboth.failed
  refine ⟨_, hboth, ?_⟩
  rw [handleInvalidBlocks]
  split
  · exact ⟨rfl, rfl, rfl, fun h => .inl (hsame ▸ h)⟩
  · split
    · exact ⟨rfl, rfl, rfl, fun h => .inl (hsame ▸ h)⟩
    · refine ⟨rfl, rfl, rfl, fun h => ?_⟩
      rcases Finset.mem_union.1 h with h | h
      · exact .inl (hsame ▸ h)
      · obtain ⟨hmem, hblocks⟩ := hasync.affected id (List.mem_toFinset.1 h)
        have hloading := (List.mem_filter.1 hmem).2
        cases hreq : s.requests id with
        | none =>
          rw [hreq] at hloading
          cases hloading
        | some r =>
          rw [hreq] at hloading
          exact .inr ⟨⟨r, rfl, hloading⟩, hblocks⟩

end Invalid

end Scheduler

/-! ### The phases of a request -/

/-- The phases in which a request can be; `pending` says that its current load is under way. -/
structure Phases (cfg : SchedulerConfig) (s : Scheduler) (id : String) (loading : Prop) :
    Prop where
  recorded : id ∈ s.finishedRecvingKvReqIds → ¬loading ∧
    ∃ r, s.requests id = some r ∧ r.isLoading ∧ r.kvLoadRetryPending = false
  failed : id ∈ s.failedRecvingKvReqIds →
    ∃ r, s.requests id = some r ∧ r.isLoading ∧ r.kvLoadRetryPending = false
  bounded : ∀ r, s.requests id = some r → r.kvLoadRetryCount ≤ cfg.maxKvLoadRetries
  pending : ∀ r, s.requests id = some r → r.kvLoadRetryPending = true →
    s.blocks id = [] ∧ r.numComputedTokens = 0 ∧ (r.isLoading ∨ r.status.isFinished)
  awake : ∀ r, s.requests id = some r → r.isLoading →
    r.kvLoadRetryPending = true ∨ loading ∨ id ∈ s.finishedRecvingKvReqIds

section Phases

variable {cfg : SchedulerConfig} {s s' : Scheduler} {id : String} {loading : Prop}

theorem Phases.same (h : Phases cfg s id loading) (hsame : Same id s s') :
    Phases cfg s' id loading := by
  refine ⟨fun hmem => ?_, fun hmem => ?_, fun r hr => ?_, fun r hr hp => ?_, fun r hr hl => ?_⟩
  · rw [hsame.request]
    exact h.recorded (hsame.recorded.1 hmem)
  · rw [hsame.request]
    exact h.failed (hsame.failed.1 hmem)
  · exact h.bounded r (hsame.request ▸ hr)
  · rw [hsame.blocks]
    exact h.pending r (hsame.request ▸ hr) hp
  · rw [hsame.recorded]
    exact h.awake r (hsame.request ▸ hr) hl

/-- A request that is not loading is in neither of the two sets. -/
theorem Phases.unrecorded (h : Phases cfg s id loading)
    (hnot : ∀ r, s.requests id = some r → r.isLoading = false) :
    id ∉ s.finishedRecvingKvReqIds ∧ id ∉ s.failedRecvingKvReqIds := by
  constructor
  · intro hmem
    obtain ⟨-, r, hr, hl, -⟩ := h.recorded hmem
    rw [hnot r hr] at hl
    cases hl
  · intro hmem
    obtain ⟨r, hr, hl, -⟩ := h.failed hmem
    rw [hnot r hr] at hl
    cases hl

/-- A load that was not started is under way if it was before. -/
theorem Phases.unstarted (h : Phases cfg s id loading) :
    Phases cfg s id (false = true ∨ loading) := by
  have hiff : (false = true ∨ loading) = loading := by simp
  rw [hiff]
  exact h

/-- A request in none of the phases: it is not loading and not to be loaded again. -/
theorem Phases.idle (hunrecorded : id ∉ s.finishedRecvingKvReqIds)
    (hunfailed : id ∉ s.failedRecvingKvReqIds)
    (hreq : ∀ r, s.requests id = some r → r.kvLoadRetryCount ≤ cfg.maxKvLoadRetries ∧
      r.kvLoadRetryPending = false ∧ r.isLoading = false) :
    Phases cfg s id loading := by
  refine ⟨fun h => absurd h hunrecorded, fun h => absurd h hunfailed,
    fun r hr => (hreq r hr).1, fun r hr hp => ?_, fun r hr hl => ?_⟩
  · rw [(hreq r hr).2.1] at hp
    cases hp
  · rw [(hreq r hr).2.2] at hl
    cases hl

theorem Phases.handleInvalidBlocks (h : Phases cfg s id loading) (invalid : Finset Nat)
    (numScheduled : String → Nat) :
    Phases cfg (s.handleInvalidBlocks cfg invalid numScheduled).2 id loading := by
  obtain ⟨s', hrecomputed, hreq, hblocks, hfinished, hfailed⟩ :=
    Scheduler.handleInvalidBlocks_spec cfg invalid numScheduled s id
  -- a request that changes has blocks, so it is not to be loaded again
  have hchange : s'.requests id = s.requests id ∨ ∃ r n, s.requests id = some r ∧
      s'.requests id = some { r with numComputedTokens := n } ∧ r.kvLoadRetryPending = false := by
    rcases hrecomputed.request with heq | ⟨r, n, hr, hs', hne⟩
    · exact .inl heq
    · refine .inr ⟨r, n, hr, hs', Bool.eq_false_iff.2 fun hp => hne ?_⟩
      exact (h.pending r hr hp).1
  refine ⟨fun hmem => ?_, fun hmem => ?_, fun r hr => ?_, fun r hr hp => ?_, fun r hr hl => ?_⟩
  · rw [hfinished, hrecomputed.recorded] at hmem
    obtain ⟨hno, r, hr, hl, hp⟩ := h.recorded hmem
    rw [hreq]
    rcases hchange with heq | ⟨r', n, hr', hs', hp'⟩
    · exact ⟨hno, r, heq.trans hr, hl, hp⟩
    · rw [hr'] at hr
      cases hr
      exact ⟨hno, _, hs', hl, hp⟩
  · have hfail : ∃ r, s.requests id = some r ∧ r.isLoading ∧ r.kvLoadRetryPending = false := by
      rcases hfailed hmem with hold | ⟨⟨r, hr, hl⟩, hne⟩
      · exact h.failed hold
      · exact ⟨r, hr, hl, Bool.eq_false_iff.2 fun hp => hne (h.pending r hr hp).1⟩
    obtain ⟨r, hr, hl, hp⟩ := hfail
    rw [hreq]
    rcases hchange with heq | ⟨r', n, hr', hs', hp'⟩
    · exact ⟨r, heq.trans hr, hl, hp⟩
    · rw [hr'] at hr
      cases hr
      exact ⟨_, hs', hl, hp⟩
  · rw [hreq] at hr
    rcases hchange with heq | ⟨r', n, hr', hs', -⟩
    · exact h.bounded r (heq ▸ hr)
    · rw [hs'] at hr
      cases hr
      exact h.bounded r' hr'
  · rw [hreq] at hr
    rw [hblocks, hrecomputed.blocks]
    rcases hchange with heq | ⟨r', n, hr', hs', hp'⟩
    · exact h.pending r (heq ▸ hr) hp
    · rw [hs'] at hr
      cases hr
      rw [hp'] at hp
      cases hp
  · rw [hreq] at hr
    rw [hfinished, hrecomputed.recorded]
    rcases hchange with heq | ⟨r', n, hr', hs', hp'⟩
    · exact h.awake r (heq ▸ hr) hl
    · rw [hs'] at hr
      cases hr
      exact h.awake r' hr' hl

theorem Phases.progressRequest (h : Phases cfg s id loading) (progress : Scheduler.Progress)
    (other : String) : Phases cfg (s.progressRequest other progress) id loading := by
  by_cases heq : id = other
  swap
  · exact h.same (Scheduler.same_progressRequest heq)
  subst heq
  rw [Scheduler.progressRequest]
  cases hreq : s.requests id with
  | none => exact h
  | some r =>
    dsimp only
    split
    · rename_i hstatus
      -- a request that runs, or waits to run again, is in none of the phases
      have hnot : r.isLoading = false ∧ r.status.isFinished = false := by
        rcases hstatus with hstatus | hstatus
        · rw [Request.isLoading, hstatus]
          exact ⟨rfl, rfl⟩
        · rw [Request.isLoading, hstatus]
          exact ⟨rfl, rfl⟩
      have hpending : r.kvLoadRetryPending = false := by
        refine Bool.eq_false_iff.2 fun hp => ?_
        rcases (h.pending r hreq hp).2.2 with hl | hf
        · rw [hnot.1] at hl
          cases hl
        · rw [hnot.2] at hf
          cases hf
      have hbounded := h.bounded r hreq
      obtain ⟨hfin, hfail⟩ := h.unrecorded fun r' hr' => by
        rw [hreq] at hr'
        cases hr'
        exact hnot.1
      cases progress.stop with
      | none =>
        refine Phases.idle hfin hfail fun r' hr' => ?_
        rw [Scheduler.put_requests_self] at hr'
        cases hr'
        exact ⟨hbounded, hpending, hnot.1⟩
      | some stop =>
        cases stop with
        | finish status =>
          refine Phases.idle hfin hfail fun r' hr' => ?_
          simp [Scheduler.freeRequest, Scheduler.freeBlocks] at hr'
        | awaitInput =>
          refine Phases.idle hfin hfail fun r' hr' => ?_
          change (s.put id _).requests id = some r' at hr'
          rw [Scheduler.put_requests_self] at hr'
          cases hr'
          exact ⟨hbounded, hpending, rfl⟩
        | nextInput =>
          refine Phases.idle hfin hfail fun r' hr' => ?_
          change (s.put id _).requests id = some r' at hr'
          rw [Scheduler.put_requests_self] at hr'
          cases hr'
          exact ⟨hbounded, hpending, rfl⟩
    · exact h

/-- The cases of the end of a request that has not finished. -/
theorem finishRequest_cases (status : FinishedStatus) {r : Request}
    (hreq : s.requests id = some r) (hnot : r.status.isFinished = false) :
    ((Scheduler.finishRequest status s id).requests id = none ∨
        r.isLoading = true ∧ id ∉ s.finishedRecvingKvReqIds ∧
          (Scheduler.finishRequest status s id).requests id =
            some { r with status := status } ∧
          (Scheduler.finishRequest status s id).blocks id = s.blocks id) ∧
      (r.isLoading = true → id ∉ (Scheduler.finishRequest status s id).finishedRecvingKvReqIds ∧
        id ∉ (Scheduler.finishRequest status s id).failedRecvingKvReqIds) ∧
      (r.isLoading = false →
        (Scheduler.finishRequest status s id).finishedRecvingKvReqIds =
            s.finishedRecvingKvReqIds ∧
          (Scheduler.finishRequest status s id).failedRecvingKvReqIds =
            s.failedRecvingKvReqIds) := by
  rw [Scheduler.finishRequest, hreq]
  dsimp only
  rw [hnot, if_neg Bool.false_ne_true]
  cases hl : r.isLoading with
  | true =>
    rw [if_pos rfl]
    by_cases hmem : id ∈ s.finishedRecvingKvReqIds
    · have hdelay : decide (id ∉ (s.dequeue id).finishedRecvingKvReqIds) = false :=
        decide_eq_false (not_not.2 hmem)
      rw [hdelay]
      refine ⟨.inl ?_, fun _ => ⟨Finset.notMem_erase _ _, Finset.notMem_erase _ _⟩, nofun⟩
      exact Function.update_self _ _ _
    · have hdelay : decide (id ∉ (s.dequeue id).finishedRecvingKvReqIds) = true :=
        decide_eq_true hmem
      rw [hdelay]
      refine ⟨.inr ⟨rfl, hmem, ?_, rfl⟩,
        fun _ => ⟨Finset.notMem_erase _ _, Finset.notMem_erase _ _⟩, nofun⟩
      exact Function.update_self _ _ _
  | false =>
    rw [if_neg Bool.false_ne_true]
    refine ⟨.inl ?_, nofun, fun _ => ⟨rfl, rfl⟩⟩
    exact Function.update_self _ _ _

theorem Phases.finishRequest (h : Phases cfg s id loading) (status : FinishedStatus)
    (other : String) : Phases cfg (Scheduler.finishRequest status s other) id loading := by
  by_cases heq : id = other
  swap
  · exact h.same (Scheduler.same_finishRequest heq)
  subst heq
  cases hreq : s.requests id with
  | none =>
    rw [Scheduler.finishRequest, hreq]
    exact h
  | some r =>
    cases hfinished : r.status.isFinished with
    | true =>
      rw [Scheduler.finishRequest, hreq]
      dsimp only
      rw [hfinished, if_pos rfl]
      exact h
    | false =>
      obtain ⟨hafter, hyes, hno⟩ := finishRequest_cases status hreq hfinished
      have hsets : id ∉ (Scheduler.finishRequest status s id).finishedRecvingKvReqIds ∧
          id ∉ (Scheduler.finishRequest status s id).failedRecvingKvReqIds := by
        cases hl : r.isLoading with
        | true => exact hyes hl
        | false =>
          rw [(hno hl).1, (hno hl).2]
          refine h.unrecorded fun r' hr' => ?_
          rw [hreq] at hr'
          cases hr'
          exact hl
      refine ⟨fun hmem => absurd hmem hsets.1, fun hmem => absurd hmem hsets.2, fun r' hr' => ?_,
        fun r' hr' hp => ?_, fun r' hr' hl => ?_⟩
      · rcases hafter with hnone | ⟨-, -, hsome, -⟩
        · rw [hnone] at hr'
          cases hr'
        · rw [hsome] at hr'
          cases hr'
          exact h.bounded r hreq
      · rcases hafter with hnone | ⟨-, -, hsome, hblocks⟩
        · rw [hnone] at hr'
          cases hr'
        · rw [hsome] at hr'
          cases hr'
          rw [hblocks]
          obtain ⟨hb, hc, -⟩ := h.pending r hreq hp
          exact ⟨hb, hc, .inr status.2⟩
      · rcases hafter with hnone | ⟨-, -, hsome, -⟩
        · rw [hnone] at hr'
          cases hr'
        · rw [hsome] at hr'
          cases hr'
          have hfin := status.2
          rw [Request.isLoading, decide_eq_true_eq] at hl
          rw [show (status : RequestStatus) = .waitingForRemoteKvs from hl] at hfin
          cases hfin

theorem Phases.finishRequests (h : Phases cfg s id loading) (ids : List String)
    (status : FinishedStatus) : Phases cfg (s.finishRequests ids status) id loading := by
  rw [Scheduler.finishRequests]
  induction ids generalizing s with
  | nil => exact h
  | cons other ids ih => exact ih (h.finishRequest status other)

/-- A request that starts to load anew. -/
theorem Phases.load (hunrecorded : id ∉ s.finishedRecvingKvReqIds)
    (hunfailed : id ∉ s.failedRecvingKvReqIds) {r : Request} (hreq : s.requests id = some r)
    (hbounded : r.kvLoadRetryCount ≤ cfg.maxKvLoadRetries)
    (hpending : r.kvLoadRetryPending = false) (hloading : loading) :
    Phases cfg s id loading := by
  refine ⟨fun h => absurd h hunrecorded, fun h => absurd h hunfailed, fun r' hr' => ?_,
    fun r' hr' hp => ?_, fun r' hr' hl => .inr (.inl hloading)⟩
  · rw [hreq] at hr'
    cases hr'
    exact hbounded
  · rw [hreq] at hr'
    cases hr'
    rw [hpending] at hp
    cases hp

/-- The rest of a turn, for a request that can be scheduled. -/
theorem Phases.restOfTurn (hunrecorded : id ∉ s.finishedRecvingKvReqIds)
    (hunfailed : id ∉ s.failedRecvingKvReqIds) {r : Request} (hreq : s.requests id = some r)
    (hbounded : r.kvLoadRetryCount ≤ cfg.maxKvLoadRetries)
    (hpending : r.kvLoadRetryPending = false) (hl : r.isLoading = false)
    (admission : Scheduler.Admission) :
    Phases cfg (s.restOfTurn id r admission).2 id
      ((s.restOfTurn id r admission).1 = true ∨ loading) := by
  obtain ⟨hfin, hfail, hcases⟩ := Scheduler.restOfTurn_cases s id r admission
  rw [← hfin] at hunrecorded
  rw [← hfail] at hunfailed
  rcases hcases with ⟨hstart, hsame, -⟩ | ⟨hstart, n, hload⟩ | ⟨hstart, n, hrun⟩
  · refine Phases.idle hunrecorded hunfailed fun r' hr' => ?_
    rw [hsame, hreq] at hr'
    cases hr'
    exact ⟨hbounded, hpending, hl⟩
  · exact Phases.load hunrecorded hunfailed hload hbounded hpending (.inl hstart)
  · refine Phases.idle hunrecorded hunfailed fun r' hr' => ?_
    rw [hrun] at hr'
    cases hr'
    exact ⟨hbounded, hpending, rfl⟩

/-- **A turn keeps the phases** of its request. -/
theorem Phases.visit (h : Phases cfg s id loading) (turn : Scheduler.Turn)
    (admission : Scheduler.Admission) :
    Phases cfg (s.visit cfg turn admission id).2 id
      ((s.visit cfg turn admission id).1 = true ∨ loading) := by
  rw [Scheduler.visit]
  cases hreq : s.requests id with
  | none => exact h.unstarted
  | some r =>
    dsimp only
    have hbounded := h.bounded r hreq
    cases hl : r.isLoading with
    | true =>
      have hstatus : r.status = .waitingForRemoteKvs := of_decide_eq_true hl
      have hblocked : r.status.isBlockedWaiting = true := by
        rw [hstatus]
        rfl
      rw [if_pos hblocked]
      rcases Scheduler.tryPromote_loading cfg turn hreq hl with
        hstay | ⟨s', hs', hp, hretried⟩ | ⟨s', hs', hp, -, hr', hfin, hfail⟩ |
        ⟨s', hs', hp, -, hpromoted⟩
      · rw [hstay]
        exact (h.same Scheduler.same_skip).unstarted
      · rw [hs']
        obtain ⟨r', hr', hl', hp', hcount, hcomputed⟩ := hretried.request
        refine ⟨fun hmem => absurd hmem hretried.unrecorded,
          fun hmem => absurd hmem hretried.unfailed, fun r'' hr'' => ?_, fun r'' hr'' _ => ?_,
          fun r'' hr'' _ => ?_⟩
        · cases hr'.symm.trans hr''
          rw [hcount]
          exact hretried.allowed.2
        · cases hr'.symm.trans hr''
          exact ⟨hretried.blocks, hcomputed, .inl hl'⟩
        · cases hr'.symm.trans hr''
          exact .inl hp'
      · rw [hs']
        dsimp only
        rw [hr']
        have hun : id ∉ s.finishedRecvingKvReqIds ∧ id ∉ s.failedRecvingKvReqIds := by
          constructor
          · intro hmem
            obtain ⟨-, r'', hr'', -, hp''⟩ := h.recorded hmem
            cases hreq.symm.trans hr''
            rw [hp] at hp''
            cases hp''
          · intro hmem
            obtain ⟨r'', hr'', -, hp''⟩ := h.failed hmem
            cases hreq.symm.trans hr''
            rw [hp] at hp''
            cases hp''
        exact Phases.restOfTurn (hfin ▸ hun.1) (hfail ▸ hun.2) hr' hbounded rfl rfl admission
      · rw [hs']
        obtain ⟨r', hr', hstatus', hp', hcount⟩ := hpromoted.request
        dsimp only
        rw [hr']
        refine Phases.restOfTurn hpromoted.recorded hpromoted.failed hr' (hcount ▸ hbounded) hp' ?_
          admission
        rw [Request.isLoading, hstatus', Scheduler.resumedStatus]
        split
        · rfl
        · rfl
    | false =>
      obtain ⟨hfin, hfail⟩ := h.unrecorded fun r' hr' => by
        cases hreq.symm.trans hr'
        exact hl
      -- an unfinished request that is not loading is not to be loaded again
      have hpending : r.status.isFinished = false → r.kvLoadRetryPending = false := by
        intro hnot
        refine Bool.eq_false_iff.2 fun hp => ?_
        rcases (h.pending r hreq hp).2.2 with hl' | hf
        · rw [hl] at hl'
          cases hl'
        · rw [hnot] at hf
          cases hf
      by_cases hblocked : r.status.isBlockedWaiting = true
      · rw [if_pos hblocked]
        have hp : r.kvLoadRetryPending = false := by
          refine hpending ?_
          cases hs : r.status with
          | waitingForStructuredOutputGrammar => rfl
          | waitingForRemoteKvs => rfl
          | waitingForStreamingReq => rfl
          | _ => rw [hs] at hblocked; cases hblocked
        rcases Scheduler.tryPromote_other cfg turn hreq hl with
          hstay | ⟨s', hs', hr', hfin', hfail'⟩
        · rw [hstay]
          exact (h.same Scheduler.same_skip).unstarted
        · rw [hs']
          dsimp only
          rw [hr']
          exact Phases.restOfTurn (hfin' ▸ hfin) (hfail' ▸ hfail) hr' hbounded hp rfl admission
      · rw [if_neg hblocked]
        by_cases hstatus : r.status = .waiting ∨ r.status = .preempted
        · rw [if_pos hstatus]
          have hp : r.kvLoadRetryPending = false := by
            refine hpending ?_
            rcases hstatus with hs | hs
            · rw [hs]
              rfl
            · rw [hs]
              rfl
          exact Phases.restOfTurn hfin hfail hreq hbounded hp hl admission
        · rw [if_neg hstatus]
          exact h.unstarted

/-- A request that neither runs nor waits to run keeps the phases through its own change. -/
theorem Phases.change (h : Phases cfg s id loading) {r r' : Request}
    (hreq : s.requests id = some r) (hl : r.isLoading = false)
    (hunfinished : r.status.isFinished = false) (hreq' : s'.requests id = some r')
    (hl' : r'.isLoading = false) (hpending : r'.kvLoadRetryPending = r.kvLoadRetryPending)
    (hcount : r'.kvLoadRetryCount = r.kvLoadRetryCount)
    (hfin : s'.finishedRecvingKvReqIds = s.finishedRecvingKvReqIds)
    (hfail : s'.failedRecvingKvReqIds = s.failedRecvingKvReqIds) :
    Phases cfg s' id loading := by
  obtain ⟨hun, hunfailed⟩ := h.unrecorded fun r'' hr'' => by
    cases hreq.symm.trans hr''
    exact hl
  refine Phases.idle (hfin ▸ hun) (hfail ▸ hunfailed) fun r'' hr'' => ?_
  cases hreq'.symm.trans hr''
  refine ⟨hcount ▸ h.bounded r hreq, ?_, hl'⟩
  rw [hpending]
  refine Bool.eq_false_iff.2 fun hp => ?_
  rcases (h.pending r hreq hp).2.2 with hl'' | hf
  · rw [hl] at hl''
    cases hl''
  · rw [hunfinished] at hf
    cases hf

/-- The blocks of a finished request are freed, and it is forgotten. -/
theorem Phases.freeBlocks (h : Phases cfg s id loading) {r : Request}
    (hreq : s.requests id = some r) (hl : r.isLoading = false) :
    Phases cfg (s.freeBlocks id) id loading := by
  obtain ⟨hun, hunfailed⟩ := h.unrecorded fun r'' hr'' => by
    cases hreq.symm.trans hr''
    exact hl
  refine Phases.idle hun hunfailed fun r' hr' => ?_
  rw [Scheduler.freeBlocks] at hr'
  simp at hr'

theorem not_isLoading_of_isFinished {r : Request} (h : r.status.isFinished = true) :
    r.isLoading = false := by
  rw [Request.isLoading]
  cases hs : r.status with
  | waitingForRemoteKvs => rw [hs] at h; cases h
  | _ => rfl

theorem Phases.finishedSending (h : Phases cfg s id loading) (other : String) :
    Phases cfg (s.finishedSending other) id loading := by
  by_cases heq : id = other
  swap
  · exact h.same (Scheduler.same_finishedSending heq)
  subst heq
  rw [Scheduler.finishedSending]
  cases hreq : s.requests id with
  | none => exact h
  | some r =>
    dsimp only
    split
    · rename_i hfinished
      exact h.freeBlocks hreq (not_isLoading_of_isFinished hfinished)
    · exact h

/-- Completions of other loads change nothing for a request. -/
theorem same_receive {recving : List String} (h : id ∉ recving) :
    Same id s (recving.foldl Scheduler.finishedRecving s) := by
  induction recving generalizing s with
  | nil => exact Same.refl _ _
  | cons other recving ih =>
    rw [List.mem_cons, not_or] at h
    exact (Scheduler.same_finishedRecving h.1).trans (ih h.2)

/-- The completion of its load is recorded for a loading request. -/
theorem receive_loading {recving : List String} {r : Request} (hmem : id ∈ recving)
    (hreq : s.requests id = some r) (hl : r.isLoading = true) :
    (recving.foldl Scheduler.finishedRecving s).requests id = some r ∧
      (recving.foldl Scheduler.finishedRecving s).blocks id = s.blocks id ∧
      id ∈ (recving.foldl Scheduler.finishedRecving s).finishedRecvingKvReqIds ∧
      (id ∈ (recving.foldl Scheduler.finishedRecving s).failedRecvingKvReqIds ↔
        id ∈ s.failedRecvingKvReqIds) := by
  induction recving generalizing s with
  | nil => cases hmem
  | cons other recving ih =>
    rw [List.foldl_cons]
    by_cases hother : id = other
    · subst hother
      have hstep : s.finishedRecving id = { s with
          finishedRecvingKvReqIds := insert id s.finishedRecvingKvReqIds } := by
        rw [Scheduler.finishedRecving, hreq]
        exact if_pos hl
      rw [hstep]
      by_cases hagain : id ∈ recving
      · exact ih hagain hreq
      · have hsame := same_receive hagain (s := { s with
          finishedRecvingKvReqIds := insert id s.finishedRecvingKvReqIds })
        exact ⟨hsame.request.trans hreq, hsame.blocks,
          hsame.recorded.2 (Finset.mem_insert_self _ _), hsame.failed⟩
    · have hsame := Scheduler.same_finishedRecving hother (s := s)
      have hmem' : id ∈ recving := (List.mem_cons.1 hmem).resolve_left hother
      obtain ⟨hr, hb, hf, hfail⟩ := ih hmem' (hsame.request.trans hreq)
      exact ⟨hr, hb.trans hsame.blocks, hf, hfail.trans hsame.failed⟩

/-- A request that is not loading is untouched by completions, or forgotten. -/
theorem Phases.receive_other {recving : List String} (h : Phases cfg s id loading)
    (hl : ∀ r, s.requests id = some r → r.isLoading = false) {loading' : Prop} :
    Phases cfg (recving.foldl Scheduler.finishedRecving s) id loading' := by
  induction recving generalizing s with
  | nil =>
    obtain ⟨hun, hunfailed⟩ := h.unrecorded hl
    refine ⟨fun hmem => absurd hmem hun, fun hmem => absurd hmem hunfailed, h.bounded,
      h.pending, fun r hr hl' => ?_⟩
    rw [hl r hr] at hl'
    cases hl'
  | cons other recving ih =>
    rw [List.foldl_cons]
    by_cases hother : id = other
    · subst hother
      rw [Scheduler.finishedRecving]
      cases hreq : s.requests id with
      | none => exact ih h hl
      | some r =>
        dsimp only
        rw [hl r hreq, if_neg Bool.false_ne_true]
        split
        · refine ih (h.freeBlocks hreq (hl r hreq)) fun r' hr' => ?_
          rw [Scheduler.freeBlocks] at hr'
          simp at hr'
        · exact ih h hl
    · have hsame := Scheduler.same_finishedRecving hother (s := s)
      exact ih (h.same hsame) fun r hr => hl r (hsame.request ▸ hr)

/-- **Completions keep the phases**, where each that reaches a loading request is the one of its
current load. -/
theorem Phases.receive {recving : List String} (h : Phases cfg s id loading) {loading' : Prop}
    (hmiss : id ∉ recving → (loading' ↔ loading))
    (hhit : id ∈ recving → ∀ r, s.requests id = some r → r.isLoading = true →
      r.kvLoadRetryPending = false ∧ ¬loading') :
    Phases cfg (recving.foldl Scheduler.finishedRecving s) id loading' := by
  by_cases hmem : id ∈ recving
  · cases hreq : s.requests id with
    | none =>
      refine h.receive_other fun r hr => ?_
      rw [hreq] at hr
      cases hr
    | some r =>
      cases hl : r.isLoading with
      | false =>
        refine h.receive_other fun r' hr' => ?_
        cases hreq.symm.trans hr'
        exact hl
      | true =>
        obtain ⟨hp, hno⟩ := hhit hmem r hreq hl
        obtain ⟨hr, hb, hf, hfail⟩ := receive_loading hmem hreq hl
        refine ⟨fun _ => ⟨hno, r, hr, hl, hp⟩, fun _ => ⟨r, hr, hl, hp⟩, fun r' hr' => ?_,
          fun r' hr' hp' => ?_, fun _ _ _ => .inr (.inr hf)⟩
        · cases hr.symm.trans hr'
          exact h.bounded r hreq
        · cases hr.symm.trans hr'
          rw [hp] at hp'
          cases hp'
  · have heq : loading' = loading := propext (hmiss hmem)
    rw [heq]
    exact h.same (same_receive hmem)

end Phases

/-! ### Requests that neither run nor wait to run -/

/-- A request that is loading, or has finished. -/
def Request.isParked (r : Request) : Bool := r.isLoading || r.status.isFinished

/-- A loading request was loading before, one that is parked stays so, and none appears. -/
structure Parks (id : String) (s s' : Scheduler) : Prop where
  backward : ∀ r', s'.requests id = some r' → r'.isLoading = true →
    ∃ r, s.requests id = some r ∧ r.isLoading = true ∧
      r.kvLoadRetryPending = r'.kvLoadRetryPending
  forward : ∀ r, s.requests id = some r → r.isParked = true →
    ∀ r', s'.requests id = some r' → r'.isParked = true
  gone : s.requests id = none → s'.requests id = none

section Parks

variable {s s' s'' : Scheduler} {id : String}

theorem Parks.of_eq (h : s'.requests id = s.requests id) : Parks id s s' := by
  refine ⟨fun r' hr' hl => ⟨r', h ▸ hr', hl, rfl⟩, fun r hr hp r' hr' => ?_, fun hn => h.trans hn⟩
  rw [h, hr] at hr'
  cases hr'
  exact hp

theorem Parks.trans (h : Parks id s s') (h' : Parks id s' s'') : Parks id s s'' := by
  refine ⟨fun r'' hr'' hl'' => ?_, fun r hr hp r'' hr'' => ?_, fun hn => h'.gone (h.gone hn)⟩
  · obtain ⟨r', hr', hl', hp'⟩ := h'.backward r'' hr'' hl''
    obtain ⟨r, hr, hl, hp⟩ := h.backward r' hr' hl'
    exact ⟨r, hr, hl, hp.trans hp'⟩
  · cases hr' : s'.requests id with
    | none =>
      rw [h'.gone hr'] at hr''
      cases hr''
    | some r' => exact h'.forward r' hr' (h.forward r hr hp r' hr') r'' hr''

/-- A request that is forgotten. -/
theorem Parks.of_none (h : s'.requests id = none) : Parks id s s' := by
  refine ⟨fun r' hr' => ?_, fun r hr hp r' hr' => ?_, fun _ => h⟩
  · rw [h] at hr'
    cases hr'
  · rw [h] at hr'
    cases hr'

/-- A request that was not parked and does not come to load. -/
theorem Parks.of_unparked {r r' : Request} (hreq : s.requests id = some r)
    (hp : r.isParked = false) (hreq' : s'.requests id = some r') (hl : r'.isLoading = false) :
    Parks id s s' := by
  refine ⟨fun r'' hr'' hl'' => ?_, fun r'' hr'' hp'' => ?_, fun hn => ?_⟩
  · cases hreq'.symm.trans hr''
    rw [hl] at hl''
    cases hl''
  · cases hreq.symm.trans hr''
    rw [hp] at hp''
    cases hp''
  · rw [hreq] at hn
    cases hn

theorem parks_handleInvalidBlocks (cfg : SchedulerConfig) (invalid : Finset Nat)
    (numScheduled : String → Nat) :
    Parks id s (s.handleInvalidBlocks cfg invalid numScheduled).2 := by
  obtain ⟨s', hrecomputed, hreq, -, -, -⟩ :=
    Scheduler.handleInvalidBlocks_spec cfg invalid numScheduled s id
  rcases hrecomputed.request with heq | ⟨r, n, hr, hs', -⟩
  · exact Parks.of_eq (hreq.trans heq)
  · have hafter := hreq.trans hs'
    refine ⟨fun r' hr' hl => ?_, fun r' hr' hp r'' hr'' => ?_, fun hn => ?_⟩
    · cases hafter.symm.trans hr'
      exact ⟨r, hr, hl, rfl⟩
    · cases hafter.symm.trans hr''
      cases hr.symm.trans hr'
      exact hp
    · rw [hr] at hn
      cases hn

theorem isParked_running {r : Request} (h : r.status = .running ∨ r.status = .preempted) :
    r.isParked = false := by
  rw [Request.isParked, Request.isLoading]
  rcases h with h | h
  · rw [h]
    rfl
  · rw [h]
    rfl

theorem parks_progressRequest (progress : Scheduler.Progress) (other : String) :
    Parks id s (s.progressRequest other progress) := by
  by_cases heq : id = other
  swap
  · exact Parks.of_eq (Scheduler.same_progressRequest heq).request
  subst heq
  rw [Scheduler.progressRequest]
  cases hreq : s.requests id with
  | none => exact Parks.of_eq rfl
  | some r =>
    dsimp only
    split
    · rename_i hstatus
      have hp := isParked_running hstatus
      have hl : r.isLoading = false := by
        rw [Request.isParked, Bool.or_eq_false_iff] at hp
        exact hp.1
      cases progress.stop with
      | none => exact Parks.of_unparked hreq hp Scheduler.put_requests_self hl
      | some stop =>
        cases stop with
        | finish status =>
          refine Parks.of_none ?_
          exact Function.update_self _ _ _
        | awaitInput =>
          exact Parks.of_unparked hreq hp (Function.update_self _ _ _) rfl
        | nextInput => exact Parks.of_unparked hreq hp (Function.update_self _ _ _) rfl
    · exact Parks.of_eq rfl

theorem parks_finishRequest (status : FinishedStatus) (other : String) :
    Parks id s (Scheduler.finishRequest status s other) := by
  by_cases heq : id = other
  swap
  · exact Parks.of_eq (Scheduler.same_finishRequest heq).request
  subst heq
  cases hreq : s.requests id with
  | none =>
    rw [Scheduler.finishRequest, hreq]
    exact Parks.of_eq rfl
  | some r =>
    cases hfinished : r.status.isFinished with
    | true =>
      rw [Scheduler.finishRequest, hreq]
      dsimp only
      rw [hfinished, if_pos rfl]
      exact Parks.of_eq rfl
    | false =>
      rcases (finishRequest_cases status hreq hfinished).1 with
        hnone | ⟨-, -, hsome, -⟩
      · exact Parks.of_none hnone
      · have hfin : ({ r with status := (status : RequestStatus) } : Request).status.isFinished =
            true := status.2
        refine ⟨fun r' hr' hl => ?_, fun r' hr' hp r'' hr'' => ?_, fun hn => ?_⟩
        · cases hsome.symm.trans hr'
          rw [not_isLoading_of_isFinished hfin] at hl
          cases hl
        · cases hsome.symm.trans hr''
          rw [Request.isParked, hfin, Bool.or_true]
        · rw [hreq] at hn
          cases hn

theorem parks_finishRequests (ids : List String) (status : FinishedStatus) :
    Parks id s (s.finishRequests ids status) := by
  rw [Scheduler.finishRequests]
  induction ids generalizing s with
  | nil => exact Parks.of_eq rfl
  | cons other ids ih => exact (parks_finishRequest status other).trans ih

theorem parks_finishedRecving (other : String) : Parks id s (s.finishedRecving other) := by
  by_cases heq : id = other
  swap
  · exact Parks.of_eq (Scheduler.same_finishedRecving heq).request
  subst heq
  rw [Scheduler.finishedRecving]
  cases hreq : s.requests id with
  | none => exact Parks.of_eq rfl
  | some r =>
    dsimp only
    split
    · exact Parks.of_eq rfl
    · split
      · exact Parks.of_none (Function.update_self _ _ _)
      · exact Parks.of_eq rfl

theorem parks_finishedSending (other : String) : Parks id s (s.finishedSending other) := by
  by_cases heq : id = other
  swap
  · exact Parks.of_eq (Scheduler.same_finishedSending heq).request
  subst heq
  rw [Scheduler.finishedSending]
  cases hreq : s.requests id with
  | none => exact Parks.of_eq rfl
  | some r =>
    dsimp only
    split
    · exact Parks.of_none (Function.update_self _ _ _)
    · exact Parks.of_eq rfl

theorem parks_foldl {α : Type} {f : Scheduler → α → Scheduler} (h : ∀ s a, Parks id s (f s a))
    (l : List α) : Parks id s (l.foldl f s) := by
  induction l generalizing s with
  | nil => exact Parks.of_eq rfl
  | cons a l ih => exact (h s a).trans ih

end Parks

/-! ### The output of a step -/

namespace Scheduler

/-- A request that fails is finished. -/
theorem isFinished_finishedError : RequestStatus.finishedError.isFinished = true := rfl

/-- An output before its completions: failed loads, the progress of what was scheduled, and the
requests that fail. -/
def beforeCompletions (cfg : SchedulerConfig) (s : Scheduler) (out : Output) : Scheduler :=
  let (failed, s) :=
    if out.invalidBlockIds = ∅ then ([], s)
    else handleInvalidBlocks cfg out.invalidBlockIds out.numScheduled s
  let s := out.scheduled.foldl
    (fun s p => if p.1 ∈ failed then s else s.progressRequest p.1 p.2.2) s
  if cfg.recomputeKvLoadFailures then s
  else s.finishRequests failed ⟨.finishedError, isFinished_finishedError⟩

theorem updateFromOutput_eq (cfg : SchedulerConfig) (s : Scheduler) (out : Output) :
    s.updateFromOutput cfg out =
      (s.beforeCompletions cfg out).updateFromKvXferFinished out.finishedRecving
        out.finishedSending := rfl

end Scheduler

section Output

variable {cfg : SchedulerConfig} {s : Scheduler} {id : String} {loading : Prop}

variable (cfg) in
theorem parks_beforeCompletions (out : Scheduler.Output) :
    Parks id s (s.beforeCompletions cfg out) := by
  have hprogress : ∀ (failed : List String) (s : Scheduler), Parks id s (out.scheduled.foldl
      (fun s p => if p.1 ∈ failed then s else s.progressRequest p.1 p.2.2) s) := by
    intro failed s
    refine parks_foldl (fun s p => ?_) _
    split
    · exact Parks.of_eq rfl
    · exact parks_progressRequest p.2.2 p.1
  have hinvalid : Parks id s (if out.invalidBlockIds = ∅ then (([] : List String), s)
      else s.handleInvalidBlocks cfg out.invalidBlockIds out.numScheduled).2 := by
    split
    · exact Parks.of_eq rfl
    · exact parks_handleInvalidBlocks cfg out.invalidBlockIds out.numScheduled
  rw [Scheduler.beforeCompletions]
  dsimp only
  split
  · exact hinvalid.trans (hprogress _ _)
  · exact (hinvalid.trans (hprogress _ _)).trans (parks_finishRequests _ _)

theorem Phases.beforeCompletions (h : Phases cfg s id loading) (out : Scheduler.Output) :
    Phases cfg (s.beforeCompletions cfg out) id loading := by
  have hprogress : ∀ (failed : List String) (l : List (String × Nat × Scheduler.Progress))
      (s : Scheduler), Phases cfg s id loading → Phases cfg (l.foldl
        (fun s p => if p.1 ∈ failed then s else s.progressRequest p.1 p.2.2) s) id loading := by
    intro failed l
    induction l with
    | nil => exact fun s h => h
    | cons p l ih =>
      intro s h
      refine ih _ ?_
      dsimp only
      split
      · exact h
      · exact h.progressRequest p.2.2 p.1
  have hinvalid : Phases cfg (if out.invalidBlockIds = ∅ then (([] : List String), s)
      else s.handleInvalidBlocks cfg out.invalidBlockIds out.numScheduled).2 id loading := by
    split
    · exact h
    · exact h.handleInvalidBlocks out.invalidBlockIds out.numScheduled
  rw [Scheduler.beforeCompletions]
  dsimp only
  split
  · exact hprogress _ _ _ hinvalid
  · exact (hprogress _ _ _ hinvalid).finishRequests _ _

/-- **The output of a step keeps the phases**, where its completions are of current loads. -/
theorem Phases.updateFromOutput (h : Phases cfg s id loading) (out : Scheduler.Output)
    {loading' : Prop} (hmiss : id ∉ out.finishedRecving → (loading' ↔ loading))
    (hhit : id ∈ out.finishedRecving → ∀ r, s.requests id = some r → r.isLoading = true →
      r.kvLoadRetryPending = false ∧ ¬loading') :
    Phases cfg (s.updateFromOutput cfg out) id loading' := by
  have hsend : ∀ (l : List String) (s : Scheduler), Phases cfg s id loading' →
      Phases cfg (l.foldl Scheduler.finishedSending s) id loading' := by
    intro l
    induction l with
    | nil => exact fun s h => h
    | cons other l ih => exact fun s h => ih _ (h.finishedSending other)
  rw [Scheduler.updateFromOutput_eq, Scheduler.updateFromKvXferFinished]
  refine hsend _ _ ((h.beforeCompletions out).receive hmiss fun hmem r' hr' hl' => ?_)
  obtain ⟨r, hr, hl, hp⟩ := (parks_beforeCompletions cfg out).backward r' hr' hl'
  rw [← hp]
  exact hhit hmem r hr hl

theorem parks_updateFromOutput (out : Scheduler.Output) :
    Parks id s (s.updateFromOutput cfg out) :=
  ((parks_beforeCompletions cfg out).trans
    (parks_foldl (fun _ other => parks_finishedRecving other) out.finishedRecving)).trans
    (parks_foldl (fun _ other => parks_finishedSending other) out.finishedSending)

end Output

/-! ### Orderly runs -/

/-- **What the phases guarantee** in a state: the retries are bounded, a request that is to be
loaded again has nothing and is recorded nowhere, and none waits in vain. -/
structure World.Sound (cfg : SchedulerConfig) (w : World) : Prop where
  bounded : ∀ id r, w.scheduler.requests id = some r →
    r.kvLoadRetryCount ≤ cfg.maxKvLoadRetries
  pending : ∀ id r, w.scheduler.requests id = some r → r.kvLoadRetryPending = true →
    w.scheduler.blocks id = [] ∧ r.numComputedTokens = 0 ∧
      id ∉ w.scheduler.finishedRecvingKvReqIds ∧ id ∉ w.scheduler.failedRecvingKvReqIds
  awake : ∀ id r, w.scheduler.requests id = some r → r.isLoading = true →
    r.kvLoadRetryPending = true ∨ (id, w.attempt id) ∈ w.outstanding ∨
      id ∈ w.scheduler.finishedRecvingKvReqIds

/-- The backoff of a request has elapsed, or the completion of its current load is recorded. -/
def World.MayResume (w : World) (id : String) (r : Request) (now : Int) : Prop :=
  (r.kvLoadRetryPending = true ∧ r.kvLoadRetryNotBefore ≤ now) ∨
    (r.kvLoadRetryPending = false ∧ id ∈ w.scheduler.finishedRecvingKvReqIds ∧
      (id, w.attempt id) ∉ w.outstanding)

/-- **What the phases guarantee** of an event: a loading request stops loading in its own turn
or for good, and in its turn only when it may, as a preempted one exactly if it was
preempted. A turn in which it does not go on leaves it loading. -/
structure World.Resumes (cfg : SchedulerConfig) (w : World) (e : SchedulerEvent) : Prop where
  leaves : ∀ id r r', w.scheduler.requests id = some r → r.isLoading = true →
    (w.next cfg e).scheduler.requests id = some r' →
      r'.isParked = true ∨ ∃ turn admission, e = .visit id turn admission
  turn : ∀ id turn admission r s', e = .visit id turn admission →
    w.scheduler.requests id = some r → r.isLoading = true →
    Scheduler.tryPromoteBlockedWaitingRequest cfg turn w.scheduler id r = (true, s') →
      w.MayResume id r turn.now ∧ ∃ r', s'.requests id = some r' ∧
        r'.status = if r.numPreemptions ≠ 0 then .preempted else .waiting
  stays : ∀ id turn admission r s', e = .visit id turn admission →
    w.scheduler.requests id = some r → r.isLoading = true →
    Scheduler.tryPromoteBlockedWaitingRequest cfg turn w.scheduler id r = (false, s') →
      ∃ r', s'.requests id = some r' ∧ r'.isLoading = true

/-- **An orderly event**: a completion that reaches a loading request is the one of its current
load and finds it not waiting for a retry, and a request whose backoff has elapsed was never
preempted. -/
def World.Orders (w : World) : SchedulerEvent → Prop
  | .output _ loads => ∀ p ∈ loads, ∀ r, w.scheduler.requests p.1 = some r →
      r.isLoading = true → r.kvLoadRetryPending = false ∧ p.2 = w.attempt p.1
  | .visit id turn _ => ∀ r, w.scheduler.requests id = some r → r.isLoading = true →
      r.kvLoadRetryPending = true → r.kvLoadRetryNotBefore ≤ turn.now → r.numPreemptions = 0
  | _ => True

/-- A run whose events are orderly. -/
def World.Orderly (cfg : SchedulerConfig) : World → List SchedulerEvent → Prop
  | _, [] => True
  | w, e :: es => w.Orders e ∧ (w.next cfg e).Orderly cfg es

/-- The phases of every request. -/
def World.InPhases (cfg : SchedulerConfig) (w : World) : Prop :=
  ∀ id, Phases cfg w.scheduler id ((id, w.attempt id) ∈ w.outstanding)

section Worlds

variable {cfg : SchedulerConfig} {w : World}

theorem World.InPhases.init : World.init.InPhases cfg := by
  intro id
  refine Phases.idle (Finset.notMem_empty _) (Finset.notMem_empty _) fun r hr => ?_
  cases hr

theorem World.InPhases.sound (h : w.InPhases cfg) : w.Sound cfg := by
  refine ⟨fun id r hr => (h id).bounded r hr, fun id r hr hp => ?_,
    fun id r hr hl => (h id).awake r hr hl⟩
  obtain ⟨hblocks, hcomputed, -⟩ := (h id).pending r hr hp
  refine ⟨hblocks, hcomputed, fun hmem => ?_, fun hmem => ?_⟩
  · obtain ⟨-, r', hr', -, hp'⟩ := (h id).recorded hmem
    cases hr.symm.trans hr'
    rw [hp] at hp'
    cases hp'
  · obtain ⟨r', hr', -, hp'⟩ := (h id).failed hmem
    cases hr.symm.trans hr'
    rw [hp] at hp'
    cases hp'

/-- An event about one request that keeps its phases keeps those of all. -/
theorem World.InPhases.of_same (h : w.InPhases cfg) {s : Scheduler} {id : String}
    (hother : ∀ other, other ≠ id → Same other w.scheduler s)
    (hid : Phases cfg s id ((id, w.attempt id) ∈ w.outstanding)) :
    World.InPhases cfg { w with scheduler := s } := by
  intro other
  by_cases heq : other = id
  · subst heq
    exact hid
  · exact (h other).same (hother other heq)

/-- **An orderly event keeps the phases.** -/
theorem World.InPhases.next (h : w.InPhases cfg) {e : SchedulerEvent} (horders : w.Orders e) :
    (w.next cfg e).InPhases cfg := by
  cases e with
  | add id numTokens grammar =>
    rw [World.next]
    split
    · exact h
    · rename_i hnone
      have hreq : w.scheduler.requests id = none := by simpa using hnone
      obtain ⟨hun, hunfailed⟩ := (h id).unrecorded fun r hr => by
        rw [hreq] at hr
        cases hr
      have hother : ∀ other, other ≠ id →
          Same other w.scheduler (w.scheduler.addRequest id numTokens grammar) :=
        fun other hne => (Scheduler.same_put hne).trans Scheduler.same_enqueue
      refine h.of_same hother ?_
      have hsame : Same id _ (w.scheduler.addRequest id numTokens grammar) :=
        Scheduler.same_enqueue
      refine Phases.same ?_ hsame
      refine Phases.idle hun hunfailed fun r hr => ?_
      rw [Scheduler.put_requests_self] at hr
      cases hr
      refine ⟨Nat.zero_le _, rfl, ?_⟩
      cases grammar <;> rfl
  | resume id numTokens =>
    rw [World.next]
    cases hreq : w.scheduler.requests id with
    | none => exact h
    | some r =>
      dsimp only
      split
      · rename_i hstatus
        have hother : ∀ other, other ≠ id →
            Same other w.scheduler (w.scheduler.updateRequestAsSession id r numTokens) :=
          fun other hne => (Scheduler.same_put hne).trans Scheduler.same_skip
        refine h.of_same hother ?_
        · refine (h id).change hreq ?_ ?_ (Function.update_self _ _ _) rfl rfl rfl rfl rfl
          · rw [Request.isLoading, hstatus]
            rfl
          · rw [hstatus]
            rfl
      · exact h
  | visit id turn admission =>
    rw [World.next]
    have hvisit := (h id).visit turn admission
    have hsame : ∀ other, other ≠ id →
        Same other w.scheduler (w.scheduler.visit cfg turn admission id).2 :=
      fun other hne => Scheduler.same_visit hne
    rcases hv : w.scheduler.visit cfg turn admission id with ⟨started, s⟩
    simp only [hv] at hvisit hsame
    dsimp only
    cases started with
    | false =>
      rw [if_neg Bool.false_ne_true]
      refine h.of_same hsame ?_
      simpa using hvisit
    | true =>
      rw [if_pos rfl]
      intro other
      by_cases heq : other = id
      · subst heq
        have hyes : (other, (World.startLoad { w with scheduler := s } other).attempt other) ∈
            (World.startLoad { w with scheduler := s } other).outstanding := by
          simp [World.startLoad]
        rw [show ((other, (World.startLoad { w with scheduler := s } other).attempt other) ∈
            (World.startLoad { w with scheduler := s } other).outstanding) = (true = true ∨
              (other, w.attempt other) ∈ w.outstanding) from
            propext ⟨fun _ => .inl rfl, fun _ => hyes⟩]
        exact hvisit
      · have hsame' := (h other).same (hsame other heq)
        rw [show ((other, (World.startLoad { w with scheduler := s } id).attempt other) ∈
            (World.startLoad { w with scheduler := s } id).outstanding) =
              ((other, w.attempt other) ∈ w.outstanding) by
            simp [World.startLoad, heq]]
        exact hsame'
  | preempt id =>
    rw [World.next]
    cases hreq : w.scheduler.requests id with
    | none => exact h
    | some r =>
      dsimp only
      split
      · rename_i hstatus
        refine h.of_same (fun other hne => Scheduler.same_preemptRequest hne) ?_
        refine (h id).change hreq ?_ ?_ (Function.update_self _ _ _) rfl rfl rfl rfl rfl
        · rw [Request.isLoading, hstatus]
          rfl
        · rw [hstatus]
          rfl
      · exact h
  | schedule id numScheduled =>
    rw [World.next]
    cases hreq : w.scheduler.requests id with
    | none => exact h
    | some r =>
      dsimp only
      split
      · rename_i hstatus
        have hl : r.isLoading = false := by
          rw [Request.isLoading, hstatus]
          rfl
        refine h.of_same (fun other hne => Scheduler.same_put hne) ?_
        refine (h id).change hreq hl ?_ (Function.update_self _ _ _) hl rfl rfl rfl rfl
        rw [hstatus]
        rfl
      · exact h
  | finish ids status => exact fun id => (h id).finishRequests ids status
  | output out loads =>
    intro id
    refine (h id).updateFromOutput _ (fun hmiss => ?_) fun hhit r hr hl => ?_
    · have hnot : (id, w.attempt id) ∉ loads.toFinset := fun hmem =>
        hmiss (List.mem_map_of_mem (f := Prod.fst) (List.mem_toFinset.1 hmem))
      exact Finset.mem_sdiff.trans (and_iff_left hnot)
    · obtain ⟨p, hp, rfl⟩ := List.mem_map.1 hhit
      obtain ⟨hpending, hattempt⟩ := horders p hp r hr hl
      refine ⟨hpending, fun hmem => (Finset.mem_sdiff.1 hmem).2 ?_⟩
      refine List.mem_toFinset.2 ?_
      change (p.1, w.attempt p.1) ∈ loads
      rw [← hattempt]
      exact hp

/-- **A loading request resumes as it should** in an orderly event. -/
theorem World.InPhases.resumes (h : w.InPhases cfg) {e : SchedulerEvent}
    (horders : w.Orders e) : w.Resumes cfg e := by
  constructor
  · intro id r r' hr hl hr'
    have hparked : r.isParked = true := by rw [Request.isParked, hl, Bool.true_or]
    have hkeep : ∀ s, Parks id w.scheduler s → s.requests id = some r' → r'.isParked = true :=
      fun s hparks hs => hparks.forward r hr hparked r' hs
    have hstays : w.scheduler.requests id = some r' → r'.isParked = true :=
      hkeep _ (Parks.of_eq rfl)
    cases e with
    | add other numTokens grammar =>
      left
      rw [World.next] at hr'
      split at hr'
      · exact hstays hr'
      · rename_i hnone
        refine hkeep _ (Parks.of_eq ?_) hr'
        have hne : id ≠ other := by
          rintro rfl
          rw [hr] at hnone
          exact hnone rfl
        exact ((Scheduler.same_put hne).trans Scheduler.same_enqueue).request
    | resume other numTokens =>
      left
      rw [World.next] at hr'
      cases hreq : w.scheduler.requests other with
      | none =>
        rw [hreq] at hr'
        exact hstays hr'
      | some q =>
        rw [hreq] at hr'
        dsimp only at hr'
        split at hr'
        · rename_i hstatus
          refine hkeep _ (Parks.of_eq ?_) hr'
          have hne : id ≠ other := by
            rintro rfl
            cases hr.symm.trans hreq
            rw [Request.isLoading, hstatus] at hl
            cases hl
          exact ((Scheduler.same_put hne).trans Scheduler.same_skip).request
        · exact hstays hr'
    | visit other turn admission =>
      by_cases hne : id = other
      · subst hne
        exact .inr ⟨turn, admission, rfl⟩
      · left
        have hsame : Same id w.scheduler (w.scheduler.visit cfg turn admission other).2 :=
          Scheduler.same_visit hne
        refine hkeep _ (Parks.of_eq hsame.request) ?_
        rw [World.next] at hr'
        dsimp only at hr'
        split at hr'
        · exact hr'
        · exact hr'
    | preempt other =>
      left
      rw [World.next] at hr'
      cases hreq : w.scheduler.requests other with
      | none =>
        rw [hreq] at hr'
        exact hstays hr'
      | some q =>
        rw [hreq] at hr'
        dsimp only at hr'
        split at hr'
        · rename_i hstatus
          refine hkeep _ (Parks.of_eq ?_) hr'
          have hne : id ≠ other := by
            rintro rfl
            cases hr.symm.trans hreq
            rw [Request.isLoading, hstatus] at hl
            cases hl
          exact (Scheduler.same_preemptRequest hne).request
        · exact hstays hr'
    | schedule other numScheduled =>
      left
      rw [World.next] at hr'
      cases hreq : w.scheduler.requests other with
      | none =>
        rw [hreq] at hr'
        exact hstays hr'
      | some q =>
        rw [hreq] at hr'
        dsimp only at hr'
        split at hr'
        · rename_i hstatus
          refine hkeep _ (Parks.of_eq ?_) hr'
          have hne : id ≠ other := by
            rintro rfl
            cases hr.symm.trans hreq
            rw [Request.isLoading, hstatus] at hl
            cases hl
          exact (Scheduler.same_put hne).request
        · exact hstays hr'
    | finish ids status => exact .inl (hkeep _ (parks_finishRequests ids status) hr')
    | output out loads => exact .inl (hkeep _ (parks_updateFromOutput _) hr')
  · rintro id turn admission r s' rfl hr hl hready
    rcases Scheduler.tryPromote_loading cfg turn hr hl with
      hstay | ⟨s'', hs, -⟩ | ⟨s'', hs, hp, hdue, hr', -⟩ | ⟨s'', hs, hp, hrecorded, hpromoted⟩
    · rw [hstay] at hready
      cases hready
    · rw [hs] at hready
      cases hready
    · rw [hs] at hready
      cases hready
      refine ⟨.inl ⟨hp, hdue⟩, _, hr', ?_⟩
      rw [horders r hr hl hp hdue]
      rfl
    · rw [hs] at hready
      cases hready
      obtain ⟨r', hr', hstatus, -⟩ := hpromoted.request
      exact ⟨.inr ⟨hp, hrecorded, ((h id).recorded hrecorded).1⟩, r', hr', hstatus⟩
  · rintro id turn admission r s' rfl hr hl hblocked
    rcases Scheduler.tryPromote_loading cfg turn hr hl with
      hstay | ⟨s'', hs, -, hretried⟩ | ⟨s'', hs, -⟩ | ⟨s'', hs, -⟩
    · rw [hstay] at hblocked
      cases hblocked
      exact ⟨r, hr, hl⟩
    · rw [hs] at hblocked
      cases hblocked
      obtain ⟨r', hr', hl', -⟩ := hretried.request
      exact ⟨r', hr', hl'⟩
    · rw [hs] at hblocked
      cases hblocked
    · rw [hs] at hblocked
      cases hblocked

/-- **An orderly run is one as the phases promise**, in every state and for every event. -/
theorem loads_orderly {cfg : SchedulerConfig} {events : List SchedulerEvent}
    (horderly : World.init.Orderly cfg events) (before after : List SchedulerEvent)
    (hsplit : events = before ++ after) :
    (World.init.after cfg before).Sound cfg ∧
      ∀ e rest, after = e :: rest → (World.init.after cfg before).Resumes cfg e := by
  have hrun : ∀ (w : World) (before : List SchedulerEvent), w.InPhases cfg →
      w.Orderly cfg (before ++ after) → (w.after cfg before).InPhases cfg ∧
        (w.after cfg before).Orderly cfg after := by
    intro w before
    induction before generalizing w with
    | nil => exact fun h horderly => ⟨h, horderly⟩
    | cons e before ih => exact fun h horderly => ih _ (h.next horderly.1) horderly.2
  subst hsplit
  obtain ⟨h, hafter⟩ := hrun _ before World.InPhases.init horderly
  refine ⟨h.sound, ?_⟩
  rintro e rest rfl
  exact h.resumes hafter.1

/-- A policy that tries a failed load again. -/
def retryConfig : SchedulerConfig where
  recomputeKvLoadFailures := true
  maxKvLoadRetries := 3
  kvLoadRetryBackoff := 1
  kvCacheGroups := [⟨true, 4⟩]
  nullBlockId := 0

/-- A request whose first load fails, and that is to be loaded again. -/
def retryRun : List SchedulerEvent :=
  [.add "r" 8 false,
    .visit "r" ⟨0, false, true⟩ (.load [[1, 2]] 8),
    .output ⟨[], {1}, [], []⟩ [("r", 1)],
    .visit "r" ⟨0, true, true⟩ .skip]

theorem retryRun_orderly : World.init.Orderly retryConfig retryRun := by
  refine ⟨trivial, ?_, ?_, ?_, trivial⟩
  · intro r hr hl
    have hreq : some r = some (⟨.waiting, 8, 0, 0, 0, false, 0⟩ : Request) := hr.symm.trans rfl
    cases hreq
    cases hl
  · intro p hp r hr hl
    cases List.mem_singleton.1 hp
    have hreq : some r = some (⟨.waitingForRemoteKvs, 8, 8, 0, 0, false, 0⟩ : Request) :=
      hr.symm.trans rfl
    cases hreq
    exact ⟨rfl, rfl⟩
  · intro r hr hl hp
    have hreq : some r = some (⟨.waitingForRemoteKvs, 8, 0, 0, 0, false, 0⟩ : Request) :=
      hr.symm.trans rfl
    cases hreq
    cases hp

/-- The turn of the request when its backoff has elapsed. -/
def secondLoad : SchedulerEvent := .visit "r" ⟨1, false, true⟩ (.load [[1, 2]] 8)

theorem secondLoad_orderly : World.init.Orderly retryConfig (retryRun ++ [secondLoad]) := by
  obtain ⟨hadd, hload, houtput, hvisit, -⟩ := retryRun_orderly
  refine ⟨hadd, hload, houtput, hvisit, ?_, trivial⟩
  intro r hr hl hp hnow
  have hreq : some r = some (⟨.waitingForRemoteKvs, 8, 0, 0, 1, true, 1⟩ : Request) :=
    hr.symm.trans rfl
  cases hreq
  rfl

/-- In that turn the request goes on, to be loaded again. -/
theorem loads_orderly_retryRun :
    (World.init.after retryConfig retryRun).Sound retryConfig ∧
      (World.init.after retryConfig retryRun).Resumes retryConfig secondLoad ∧
      ((World.init.after retryConfig retryRun).next retryConfig secondLoad).outstanding =
        {("r", 2)} := by
  obtain ⟨hsound, hresumes⟩ := loads_orderly secondLoad_orderly retryRun [secondLoad] rfl
  exact ⟨hsound, hresumes secondLoad [] rfl, by decide⟩

/-- The completion of a load comes a second time, while its request waits to be loaded
again: it is recorded for the next load. -/
theorem duplicate_completion_recorded :
    ¬(World.init.after retryConfig
      (retryRun ++ [.output ⟨[], ∅, [], []⟩ [("r", 1)]])).Sound retryConfig := by
  intro h
  exact (h.pending "r" ⟨.waitingForRemoteKvs, 8, 0, 0, 1, true, 1⟩ rfl rfl).2.2.1 (by decide)

end Worlds

end Lmcache

end DgxSpark
