import DgxSpark.Lmcache.LoadRetry

/-!
# Aborted requests

`finish_requests` keeps the blocks of a request whose load is under way, and the request with
them, until the completion of the load comes. That a load is under way it infers from the
status and from `finished_recving_kv_req_ids`: a request that waits for the backoff of a retry
looks the same, and no completion will come for it.

`DgxSpark.Lmcache.aborted_freed` says that there is no other way to be kept for nothing: in
every run, the requests that have finished and are still there all have a load outstanding,
exactly if no abort hits a request between two loads.
-/

namespace DgxSpark

namespace Lmcache

/-- **No aborted request lingers**: one that is still there has a load outstanding. -/
def World.Freed (w : World) : Prop :=
  ∀ id r, w.scheduler.requests id = some r → r.status.isFinished = true →
    (id, w.attempt id) ∈ w.outstanding

/-- An abort hits no request that waits for the backoff of a retry, unless a completion will
come for it or has come. -/
def World.SparesRetries (w : World) : SchedulerEvent → Prop
  | .finish ids _ => ∀ id ∈ ids, ∀ r, w.scheduler.requests id = some r → r.isLoading = true →
      r.kvLoadRetryPending = true → id ∈ w.scheduler.finishedRecvingKvReqIds ∨
        (id, w.attempt id) ∈ w.outstanding
  | _ => True

/-- A run whose aborts spare the requests between two loads. -/
def World.AllSpareRetries (cfg : SchedulerConfig) : World → List SchedulerEvent → Prop
  | _, [] => True
  | w, e :: es => w.SparesRetries e ∧ (w.next cfg e).AllSpareRetries cfg es

/-! ### What is owed to a request -/

/-- A request that loads has a completion to come, or one that has come, or is to be loaded
again; one that has finished has a completion to come. -/
structure Owed (cfg : SchedulerConfig) (s : Scheduler) (id : String) (loading : Prop) :
    Prop where
  pending : ∀ r, s.requests id = some r → r.kvLoadRetryPending = true →
    cfg.recomputeKvLoadFailures = true ∧ (r.isLoading = true ∨ r.status.isFinished = true)
  awake : ∀ r, s.requests id = some r → r.isLoading = true →
    r.kvLoadRetryPending = true ∨ loading ∨ id ∈ s.finishedRecvingKvReqIds
  finished : ∀ r, s.requests id = some r → r.status.isFinished = true → loading

section Owed

variable {cfg : SchedulerConfig} {s s' : Scheduler} {id : String} {loading : Prop}

theorem Owed.same (h : Owed cfg s id loading) (hsame : Same id s s') :
    Owed cfg s' id loading := by
  refine ⟨fun r hr => ?_, fun r hr => ?_, fun r hr => ?_⟩
  · exact h.pending r (hsame.request ▸ hr)
  · rw [hsame.recorded]
    exact h.awake r (hsame.request ▸ hr)
  · exact h.finished r (hsame.request ▸ hr)

/-- A load that was not started is under way if it was before. -/
theorem Owed.unstarted (h : Owed cfg s id loading) :
    Owed cfg s id (false = true ∨ loading) := by
  have hiff : (false = true ∨ loading) = loading := by simp
  rw [hiff]
  exact h

/-- Nothing is owed to a request that is not loading and has not finished. -/
theorem Owed.idle (h : ∀ r, s.requests id = some r → r.kvLoadRetryPending = false ∧
    r.isLoading = false ∧ r.status.isFinished = false) : Owed cfg s id loading := by
  refine ⟨fun r hr hp => ?_, fun r hr hl => ?_, fun r hr hf => ?_⟩
  · rw [(h r hr).1] at hp
    cases hp
  · rw [(h r hr).2.1] at hl
    cases hl
  · rw [(h r hr).2.2] at hf
    cases hf

/-- A request that is not loading and has not finished is not to be loaded again. -/
theorem Owed.not_pending (h : Owed cfg s id loading) {r : Request}
    (hreq : s.requests id = some r) (hl : r.isLoading = false)
    (hf : r.status.isFinished = false) : r.kvLoadRetryPending = false := by
  refine Bool.eq_false_iff.2 fun hp => ?_
  rcases (h.pending r hreq hp).2 with hl' | hf'
  · rw [hl] at hl'
    cases hl'
  · rw [hf] at hf'
    cases hf'

/-- A request that neither loads nor has finished stays so through its own change. -/
theorem Owed.change (h : Owed cfg s id loading) {r r' : Request}
    (hreq : s.requests id = some r) (hl : r.isLoading = false)
    (hf : r.status.isFinished = false) (hreq' : s'.requests id = some r')
    (hpending : r'.kvLoadRetryPending = r.kvLoadRetryPending) (hl' : r'.isLoading = false)
    (hf' : r'.status.isFinished = false) : Owed cfg s' id loading := by
  refine Owed.idle fun q hq => ?_
  cases hreq'.symm.trans hq
  exact ⟨hpending.trans (h.not_pending hreq hl hf), hl', hf'⟩

theorem Owed.handleInvalidBlocks (h : Owed cfg s id loading) (invalid : Finset Nat)
    (numScheduled : String → Nat) :
    Owed cfg (s.handleInvalidBlocks cfg invalid numScheduled).2 id loading := by
  obtain ⟨s', hrecomputed, hreq, -, hrecorded, -⟩ :=
    Scheduler.handleInvalidBlocks_spec cfg invalid numScheduled s id
  rw [hrecomputed.recorded] at hrecorded
  -- a request that changes keeps its status and its flag
  have hback : ∀ r, (s.handleInvalidBlocks cfg invalid numScheduled).2.requests id = some r →
      ∃ q n, s.requests id = some q ∧ r = { q with numComputedTokens := n } := by
    intro r hr
    rw [hreq] at hr
    rcases hrecomputed.request with heq | ⟨q, n, hq, hs', -⟩
    · exact ⟨r, r.numComputedTokens, heq ▸ hr, rfl⟩
    · cases hs'.symm.trans hr
      exact ⟨q, n, hq, rfl⟩
  refine ⟨fun r hr => ?_, fun r hr => ?_, fun r hr => ?_⟩
  · obtain ⟨q, n, hq, rfl⟩ := hback r hr
    exact h.pending q hq
  · obtain ⟨q, n, hq, rfl⟩ := hback r hr
    rw [hrecorded]
    exact h.awake q hq
  · obtain ⟨q, n, hq, rfl⟩ := hback r hr
    exact h.finished q hq

theorem Owed.progressRequest (h : Owed cfg s id loading) (progress : Scheduler.Progress)
    (other : String) : Owed cfg (s.progressRequest other progress) id loading := by
  by_cases heq : id = other
  swap
  · exact h.same (Scheduler.same_progressRequest heq)
  subst heq
  rw [Scheduler.progressRequest]
  cases hreq : s.requests id with
  | none => exact h
  | some r =>
    dsimp only
    split
    · rename_i hstatus
      have hnot : r.isLoading = false ∧ r.status.isFinished = false := by
        rw [Request.isLoading]
        rcases hstatus with hs | hs
        · rw [hs]
          exact ⟨rfl, rfl⟩
        · rw [hs]
          exact ⟨rfl, rfl⟩
      have hchange : ∀ {s'' : Scheduler} {r' : Request}, s''.requests id = some r' →
          r'.kvLoadRetryPending = r.kvLoadRetryPending → r'.isLoading = false →
          r'.status.isFinished = false → Owed cfg s'' id loading :=
        fun hr' => h.change hreq hnot.1 hnot.2 hr'
      cases progress.stop with
      | none => exact hchange (Function.update_self _ _ _) rfl hnot.1 hnot.2
      | some stop =>
        cases stop with
        | finish status =>
          refine Owed.idle fun r' hr' => ?_
          simp [Scheduler.freeRequest, Scheduler.freeBlocks] at hr'
        | awaitInput => exact hchange (Function.update_self _ _ _) rfl rfl rfl
        | nextInput => exact hchange (Function.update_self _ _ _) rfl rfl rfl
    · exact h

/-- The end of a request keeps what is owed to it, unless it waits for a retry. -/
theorem Owed.finishRequest (h : Owed cfg s id loading) (status : FinishedStatus)
    (other : String) (hspare : id = other → ∀ r, s.requests id = some r → r.isLoading = true →
      r.kvLoadRetryPending = true → id ∈ s.finishedRecvingKvReqIds ∨ loading) :
    Owed cfg (Scheduler.finishRequest status s other) id loading := by
  by_cases heq : id = other
  swap
  · exact h.same (Scheduler.same_finishRequest heq)
  subst heq
  cases hreq : s.requests id with
  | none =>
    rw [Scheduler.finishRequest, hreq]
    exact h
  | some r =>
    cases hfinished : r.status.isFinished with
    | true =>
      rw [Scheduler.finishRequest, hreq]
      dsimp only
      rw [hfinished, if_pos rfl]
      exact h
    | false =>
      rcases (finishRequest_cases status hreq hfinished).1 with
        hnone | ⟨hl, hno, hsome, -⟩
      · refine Owed.idle fun r' hr' => ?_
        rw [hnone] at hr'
        cases hr'
      · have hloading : loading := by
          rcases h.awake r hreq hl with hp | hloading | hmem
          · exact (hspare rfl r hreq hl hp).resolve_left hno
          · exact hloading
          · exact absurd hmem hno
        have hfin : ({ r with status := (status : RequestStatus) } : Request).status.isFinished =
            true := status.2
        refine ⟨fun r' hr' hp => ?_, fun r' hr' hl' => ?_, fun _ _ _ => hloading⟩
        · cases hsome.symm.trans hr'
          exact ⟨(h.pending r hreq hp).1, .inr hfin⟩
        · cases hsome.symm.trans hr'
          rw [not_isLoading_of_isFinished hfin] at hl'
          cases hl'

/-- A request that was asked to finish does not load. -/
theorem finishRequest_unloading {status : FinishedStatus} {r : Request}
    (hr : (Scheduler.finishRequest status s id).requests id = some r) : r.isLoading = false := by
  cases hreq : s.requests id with
  | none =>
    rw [Scheduler.finishRequest, hreq] at hr
    cases hreq.symm.trans hr
  | some q =>
    cases hfinished : q.status.isFinished with
    | true =>
      rw [Scheduler.finishRequest, hreq] at hr
      dsimp only at hr
      rw [hfinished, if_pos rfl] at hr
      cases hreq.symm.trans hr
      exact not_isLoading_of_isFinished hfinished
    | false =>
      rcases (finishRequest_cases status hreq hfinished).1 with
        hnone | ⟨-, -, hsome, -⟩
      · rw [hnone] at hr
        cases hr
      · cases hsome.symm.trans hr
        exact not_isLoading_of_isFinished status.2

theorem Owed.finishRequests (h : Owed cfg s id loading) (ids : List String)
    (status : FinishedStatus) (hspare : id ∈ ids → ∀ r, s.requests id = some r →
      r.isLoading = true → r.kvLoadRetryPending = true →
        id ∈ s.finishedRecvingKvReqIds ∨ loading) :
    Owed cfg (s.finishRequests ids status) id loading := by
  rw [Scheduler.finishRequests]
  induction ids generalizing s with
  | nil => exact h
  | cons other ids ih =>
    have hstep := h.finishRequest status other fun heq =>
      hspare (heq ▸ List.mem_cons_self)
    refine ih hstep fun hmem r hr hl hp => ?_
    by_cases heq : id = other
    · subst heq
      rw [finishRequest_unloading hr] at hl
      cases hl
    · have hsame : Same id s (Scheduler.finishRequest status s other) :=
        Scheduler.same_finishRequest heq
      rw [hsame.recorded]
      exact hspare (List.mem_cons_of_mem _ hmem) r (hsame.request ▸ hr) hl hp

theorem Owed.restOfTurn {r : Request} (hreq : s.requests id = some r)
    (hpending : r.kvLoadRetryPending = false) (hl : r.isLoading = false)
    (hf : r.status.isFinished = false) (admission : Scheduler.Admission) :
    Owed cfg (s.restOfTurn id r admission).2 id ((s.restOfTurn id r admission).1 = true ∨ loading) := by
  obtain ⟨-, -, hcases⟩ := Scheduler.restOfTurn_cases s id r admission
  rcases hcases with ⟨-, hsame, -⟩ | ⟨hstart, n, hload⟩ | ⟨-, n, hrun⟩
  · refine Owed.idle fun r' hr' => ?_
    rw [hsame, hreq] at hr'
    cases hr'
    exact ⟨hpending, hl, hf⟩
  · refine ⟨fun r' hr' hp => ?_, fun _ _ _ => .inr (.inl (.inl hstart)), fun _ _ _ => .inl hstart⟩
    cases hload.symm.trans hr'
    rw [hpending] at hp
    cases hp
  · refine Owed.idle fun r' hr' => ?_
    cases hrun.symm.trans hr'
    exact ⟨hpending, rfl, rfl⟩

/-- **A turn keeps what is owed** to its request. -/
theorem Owed.visit (h : Owed cfg s id loading) (turn : Scheduler.Turn)
    (admission : Scheduler.Admission) :
    Owed cfg (s.visit cfg turn admission id).2 id
      ((s.visit cfg turn admission id).1 = true ∨ loading) := by
  rw [Scheduler.visit]
  cases hreq : s.requests id with
  | none => exact h.unstarted
  | some r =>
    dsimp only
    cases hl : r.isLoading with
    | true =>
      have hblocked : r.status.isBlockedWaiting = true := by
        rw [show r.status = .waitingForRemoteKvs from of_decide_eq_true hl]
        rfl
      rw [if_pos hblocked]
      rcases Scheduler.tryPromote_loading cfg turn hreq hl with
        hstay | ⟨s', hs', -, hretried⟩ | ⟨s', hs', -, -, hr', -⟩ | ⟨s', hs', -, -, hpromoted⟩
      · rw [hstay]
        exact (h.same Scheduler.same_skip).unstarted
      · rw [hs']
        obtain ⟨r', hr', hl', hp', -⟩ := hretried.request
        refine ⟨fun r'' hr'' _ => ?_, fun r'' hr'' _ => ?_, fun r'' hr'' hf => ?_⟩
        · cases hr'.symm.trans hr''
          exact ⟨hretried.allowed.1, .inl hl'⟩
        · cases hr'.symm.trans hr''
          exact .inl hp'
        · cases hr'.symm.trans hr''
          rw [not_isLoading_of_isFinished hf] at hl'
          cases hl'
      · rw [hs']
        dsimp only
        rw [hr']
        exact Owed.restOfTurn hr' rfl rfl rfl admission
      · rw [hs']
        obtain ⟨r', hr', hstatus, hp', -⟩ := hpromoted.request
        dsimp only
        rw [hr']
        have hnot : r'.isLoading = false ∧ r'.status.isFinished = false := by
          rw [Request.isLoading, hstatus, Scheduler.resumedStatus]
          split
          · exact ⟨rfl, rfl⟩
          · exact ⟨rfl, rfl⟩
        exact Owed.restOfTurn hr' hp' hnot.1 hnot.2 admission
    | false =>
      by_cases hblocked : r.status.isBlockedWaiting = true
      · rw [if_pos hblocked]
        have hf : r.status.isFinished = false := by
          cases hs : r.status <;> rw [hs] at hblocked <;> first | rfl | cases hblocked
        rcases Scheduler.tryPromote_other cfg turn hreq hl with
          hstay | ⟨s', hs', hr', -, -⟩
        · rw [hstay]
          exact (h.same Scheduler.same_skip).unstarted
        · rw [hs']
          dsimp only
          rw [hr']
          have hp : r.kvLoadRetryPending = false := h.not_pending hreq hl hf
          exact Owed.restOfTurn hr' hp rfl rfl admission
      · rw [if_neg hblocked]
        by_cases hstatus : r.status = .waiting ∨ r.status = .preempted
        · rw [if_pos hstatus]
          have hf : r.status.isFinished = false := by
            rcases hstatus with hs | hs
            · rw [hs]
              rfl
            · rw [hs]
              rfl
          exact Owed.restOfTurn hreq (h.not_pending hreq hl hf) hl hf admission
        · rw [if_neg hstatus]
          exact h.unstarted

/-! ### Completions -/

/-- A request that is there after a completion was there before it. -/
theorem finishedRecving_requests {other : String} {r : Request}
    (hr : (s.finishedRecving other).requests id = some r) : s.requests id = some r := by
  by_cases heq : id = other
  swap
  · exact (Scheduler.same_finishedRecving heq).request ▸ hr
  subst heq
  rw [Scheduler.finishedRecving] at hr
  cases hreq : s.requests id with
  | none =>
    rw [hreq] at hr
    exact hreq.symm.trans hr
  | some q =>
    rw [hreq] at hr
    dsimp only at hr
    split at hr
    · exact hreq.symm.trans hr
    · split at hr
      · simp [Scheduler.freeBlocks] at hr
      · exact hreq.symm.trans hr

theorem receive_requests {recving : List String} {r : Request}
    (hr : (recving.foldl Scheduler.finishedRecving s).requests id = some r) :
    s.requests id = some r := by
  induction recving generalizing s with
  | nil => exact hr
  | cons other recving ih => exact finishedRecving_requests (ih hr)

/-- The completion for a finished request is the end of it. -/
theorem receive_unfinished {recving : List String} (hmem : id ∈ recving) {r : Request}
    (hr : (recving.foldl Scheduler.finishedRecving s).requests id = some r) :
    r.status.isFinished = false := by
  induction recving generalizing s with
  | nil => cases hmem
  | cons other recving ih =>
    rw [List.foldl_cons] at hr
    by_cases heq : id = other
    · subst heq
      have hmid := receive_requests hr
      have hreq := finishedRecving_requests hmid
      refine Bool.eq_false_iff.2 fun hf => ?_
      rw [Scheduler.finishedRecving, hreq] at hmid
      dsimp only at hmid
      rw [not_isLoading_of_isFinished hf, if_neg Bool.false_ne_true, if_pos hf] at hmid
      simp [Scheduler.freeBlocks] at hmid
    · exact ih ((List.mem_cons.1 hmem).resolve_left heq) hr

/-- **Completions keep what is owed**, whatever attempt they are of. -/
theorem Owed.receive {recving : List String} (h : Owed cfg s id loading) {loading' : Prop}
    (hmiss : id ∉ recving → (loading' ↔ loading)) :
    Owed cfg (recving.foldl Scheduler.finishedRecving s) id loading' := by
  by_cases hmem : id ∈ recving
  · refine ⟨fun r hr => h.pending r (receive_requests hr), fun r hr hl => ?_, fun r hr hf => ?_⟩
    · exact .inr (.inr (receive_loading hmem (receive_requests hr) hl).2.2.1)
    · rw [receive_unfinished hmem hr] at hf
      cases hf
  · have hiff := hmiss hmem
    have hsame := h.same (same_receive hmem)
    refine ⟨hsame.pending, fun r hr hl => ?_, fun r hr hf => hiff.2 (hsame.finished r hr hf)⟩
    rw [hiff]
    exact hsame.awake r hr hl

theorem Owed.finishedSending (h : Owed cfg s id loading) (other : String) :
    Owed cfg (s.finishedSending other) id loading := by
  by_cases heq : id = other
  swap
  · exact h.same (Scheduler.same_finishedSending heq)
  subst heq
  rw [Scheduler.finishedSending]
  cases hreq : s.requests id with
  | none => exact h
  | some r =>
    dsimp only
    split
    · refine Owed.idle fun r' hr' => ?_
      simp [Scheduler.freeBlocks] at hr'
    · exact h

theorem Owed.beforeCompletions (h : Owed cfg s id loading) (out : Scheduler.Output) :
    Owed cfg (s.beforeCompletions cfg out) id loading := by
  have hprogress : ∀ (failed : List String) (l : List (String × Nat × Scheduler.Progress))
      (s : Scheduler), Owed cfg s id loading → Owed cfg (l.foldl
        (fun s p => if p.1 ∈ failed then s else s.progressRequest p.1 p.2.2) s) id loading := by
    intro failed l
    induction l with
    | nil => exact fun s h => h
    | cons p l ih =>
      intro s h
      refine ih _ ?_
      dsimp only
      split
      · exact h
      · exact h.progressRequest p.2.2 p.1
  have hinvalid : Owed cfg (if out.invalidBlockIds = ∅ then (([] : List String), s)
      else s.handleInvalidBlocks cfg out.invalidBlockIds out.numScheduled).2 id loading := by
    split
    · exact h
    · exact h.handleInvalidBlocks out.invalidBlockIds out.numScheduled
  rw [Scheduler.beforeCompletions]
  dsimp only
  split
  · exact hprogress _ _ _ hinvalid
  · rename_i hpolicy
    -- requests fail for their loads only where none is ever to be loaded again
    have hafter := hprogress (if out.invalidBlockIds = ∅ then (([] : List String), s)
      else s.handleInvalidBlocks cfg out.invalidBlockIds out.numScheduled).1 out.scheduled _
      hinvalid
    exact hafter.finishRequests _ _ fun _ r hr _ hp => absurd (hafter.pending r hr hp).1 hpolicy

theorem Owed.updateFromOutput (h : Owed cfg s id loading) (out : Scheduler.Output)
    {loading' : Prop} (hmiss : id ∉ out.finishedRecving → (loading' ↔ loading)) :
    Owed cfg (s.updateFromOutput cfg out) id loading' := by
  have hsend : ∀ (l : List String) (s : Scheduler), Owed cfg s id loading' →
      Owed cfg (l.foldl Scheduler.finishedSending s) id loading' := by
    intro l
    induction l with
    | nil => exact fun s h => h
    | cons other l ih => exact fun s h => ih _ (h.finishedSending other)
  rw [Scheduler.updateFromOutput_eq, Scheduler.updateFromKvXferFinished]
  exact hsend _ _ ((h.beforeCompletions out).receive hmiss)

end Owed

/-! ### Runs -/

/-- What is owed to every request. -/
def World.AllOwed (cfg : SchedulerConfig) (w : World) : Prop :=
  ∀ id, Owed cfg w.scheduler id ((id, w.attempt id) ∈ w.outstanding)

section Worlds

variable {cfg : SchedulerConfig} {w : World}

theorem World.AllOwed.init : World.init.AllOwed cfg := by
  intro id
  refine Owed.idle fun r hr => ?_
  cases hr

theorem World.AllOwed.of_same (h : w.AllOwed cfg) {s : Scheduler} {id : String}
    (hother : ∀ other, other ≠ id → Same other w.scheduler s)
    (hid : Owed cfg s id ((id, w.attempt id) ∈ w.outstanding)) :
    World.AllOwed cfg { w with scheduler := s } := by
  intro other
  by_cases heq : other = id
  · subst heq
    exact hid
  · exact (h other).same (hother other heq)

/-- **An event that spares the retries keeps what is owed.** -/
theorem World.AllOwed.next (h : w.AllOwed cfg) {e : SchedulerEvent}
    (hspares : w.SparesRetries e) : (w.next cfg e).AllOwed cfg := by
  cases e with
  | add id numTokens grammar =>
    rw [World.next]
    split
    · exact h
    · have hother : ∀ other, other ≠ id →
          Same other w.scheduler (w.scheduler.addRequest id numTokens grammar) :=
        fun other hne => (Scheduler.same_put hne).trans Scheduler.same_enqueue
      refine h.of_same hother ?_
      have hsame : Same id _ (w.scheduler.addRequest id numTokens grammar) :=
        Scheduler.same_enqueue
      refine Owed.same (Owed.idle fun r hr => ?_) hsame
      rw [Scheduler.put_requests_self] at hr
      cases hr
      cases grammar
      · exact ⟨rfl, rfl, rfl⟩
      · exact ⟨rfl, rfl, rfl⟩
  | resume id numTokens =>
    rw [World.next]
    cases hreq : w.scheduler.requests id with
    | none => exact h
    | some r =>
      dsimp only
      split
      · rename_i hstatus
        have hother : ∀ other, other ≠ id →
            Same other w.scheduler (w.scheduler.updateRequestAsSession id r numTokens) :=
          fun other hne => (Scheduler.same_put hne).trans Scheduler.same_skip
        refine h.of_same hother ?_
        refine (h id).change hreq ?_ ?_ (Function.update_self _ _ _) rfl rfl rfl
        · rw [Request.isLoading, hstatus]
          rfl
        · rw [hstatus]
          rfl
      · exact h
  | visit id turn admission =>
    rw [World.next]
    have hvisit := (h id).visit turn admission
    have hsame : ∀ other, other ≠ id →
        Same other w.scheduler (w.scheduler.visit cfg turn admission id).2 :=
      fun other hne => Scheduler.same_visit hne
    rcases hv : w.scheduler.visit cfg turn admission id with ⟨started, s⟩
    simp only [hv] at hvisit hsame
    dsimp only
    cases started with
    | false =>
      rw [if_neg Bool.false_ne_true]
      refine h.of_same hsame ?_
      simpa using hvisit
    | true =>
      rw [if_pos rfl]
      intro other
      by_cases heq : other = id
      · subst heq
        have hyes : (other, (World.startLoad { w with scheduler := s } other).attempt other) ∈
            (World.startLoad { w with scheduler := s } other).outstanding := by
          simp [World.startLoad]
        exact ⟨hvisit.pending, fun _ _ _ => .inr (.inl hyes), fun _ _ _ => hyes⟩
      · have hsame' := (h other).same (hsame other heq)
        rw [show ((other, (World.startLoad { w with scheduler := s } id).attempt other) ∈
            (World.startLoad { w with scheduler := s } id).outstanding) =
              ((other, w.attempt other) ∈ w.outstanding) by
            simp [World.startLoad, heq]]
        exact hsame'
  | preempt id =>
    rw [World.next]
    cases hreq : w.scheduler.requests id with
    | none => exact h
    | some r =>
      dsimp only
      split
      · rename_i hstatus
        refine h.of_same (fun other hne => Scheduler.same_preemptRequest hne) ?_
        refine (h id).change hreq ?_ ?_ (Function.update_self _ _ _) rfl rfl rfl
        · rw [Request.isLoading, hstatus]
          rfl
        · rw [hstatus]
          rfl
      · exact h
  | schedule id numScheduled =>
    rw [World.next]
    cases hreq : w.scheduler.requests id with
    | none => exact h
    | some r =>
      dsimp only
      split
      · rename_i hstatus
        have hnot : r.isLoading = false ∧ r.status.isFinished = false := by
          rw [Request.isLoading, hstatus]
          exact ⟨rfl, rfl⟩
        refine h.of_same (fun other hne => Scheduler.same_put hne) ?_
        exact (h id).change hreq hnot.1 hnot.2 (Function.update_self _ _ _) rfl hnot.1 hnot.2
      · exact h
  | finish ids status =>
    exact fun id => (h id).finishRequests ids status fun hmem r hr hl hp =>
      hspares id hmem r hr hl hp
  | output out loads =>
    intro id
    refine (h id).updateFromOutput _ fun hmiss => ?_
    have hnot : (id, w.attempt id) ∉ loads.toFinset := fun hmem =>
      hmiss (List.mem_map_of_mem (f := Prod.fst) (List.mem_toFinset.1 hmem))
    exact Finset.mem_sdiff.trans (and_iff_left hnot)

/-- A request that has finished is passed over by further aborts. -/
theorem finishRequests_finished {s : Scheduler} {id : String} {r : Request}
    (hr : s.requests id = some r) (hf : r.status.isFinished = true) (ids : List String)
    (status : FinishedStatus) : (s.finishRequests ids status).requests id = some r := by
  rw [Scheduler.finishRequests]
  induction ids generalizing s with
  | nil => exact hr
  | cons other ids ih =>
    refine ih ?_
    by_cases heq : id = other
    · subst heq
      rw [Scheduler.finishRequest, hr]
      dsimp only
      rw [if_pos hf]
      exact hr
    · exact (Scheduler.same_finishRequest heq).request.trans hr

/-- A loading request whose completion is not recorded is kept when it is aborted. -/
theorem finishRequests_kept {s : Scheduler} {id : String} {r : Request}
    (hr : s.requests id = some r) (hl : r.isLoading = true)
    (hno : id ∉ s.finishedRecvingKvReqIds) {ids : List String} (hmem : id ∈ ids)
    (status : FinishedStatus) :
    (s.finishRequests ids status).requests id = some { r with status := status } := by
  rw [Scheduler.finishRequests]
  induction ids generalizing s with
  | nil => cases hmem
  | cons other ids ih =>
    rw [List.foldl_cons]
    by_cases heq : id = other
    · subst heq
      refine finishRequests_finished ?_ status.2 ids status
      rw [Scheduler.finishRequest, hr]
      have hf : r.status.isFinished = false := by
        refine Bool.eq_false_iff.2 fun hf => ?_
        rw [not_isLoading_of_isFinished hf] at hl
        cases hl
      dsimp only
      rw [hf, if_neg Bool.false_ne_true, if_pos hl]
      have hdelay : decide (id ∉ (s.dequeue id).finishedRecvingKvReqIds) = true :=
        decide_eq_true hno
      rw [hdelay]
      exact Function.update_self _ _ _
    · have hsame : Same id s (Scheduler.finishRequest status s other) :=
        Scheduler.same_finishRequest heq
      exact ih (hsame.request.trans hr) (fun h => hno (hsame.recorded.1 h))
        ((List.mem_cons.1 hmem).resolve_left heq)

/-- **An abort that does not spare the retries leaves a request behind.** -/
theorem World.Freed.spares {e : SchedulerEvent} (h : (w.next cfg e).Freed) :
    w.SparesRetries e := by
  cases e with
  | finish ids status =>
    intro id hmem r hr hl hp
    by_contra hneither
    obtain ⟨hno, hnone⟩ := not_or.1 hneither
    exact hnone (h id _ (finishRequests_kept hr hl hno hmem status) status.2)
  | _ => trivial

/-- **A run leaves no aborted request behind exactly if its aborts spare the requests that wait
for a retry.** -/
theorem aborted_freed {cfg : SchedulerConfig} {events : List SchedulerEvent} :
    (∀ before after, events = before ++ after → (World.init.after cfg before).Freed) ↔
      World.init.AllSpareRetries cfg events := by
  have hrun : ∀ (events : List SchedulerEvent) (w : World), w.AllOwed cfg →
      ((∀ before after, events = before ++ after → (w.after cfg before).Freed) ↔
        w.AllSpareRetries cfg events) := by
    intro events
    induction events with
    | nil =>
      intro w h
      refine ⟨fun _ => trivial, fun _ before after hsplit => ?_⟩
      rw [(List.append_eq_nil_iff.1 hsplit.symm).1]
      exact fun id => (h id).finished
    | cons e events ih =>
      intro w h
      constructor
      · intro hfreed
        have hspares : w.SparesRetries e := World.Freed.spares (hfreed [e] events rfl)
        refine ⟨hspares, (ih _ (h.next hspares)).1 fun before after hsplit => ?_⟩
        exact hfreed (e :: before) after (congrArg (e :: ·) hsplit)
      · rintro ⟨hspares, hafter⟩ before after hsplit
        cases before with
        | nil => exact fun id => (h id).finished
        | cons e' before =>
          obtain ⟨rfl, hrest⟩ := List.cons.inj hsplit
          exact (ih _ (h.next hspares)).2 hafter before after hrest
  exact hrun events World.init World.AllOwed.init

/-- A request is aborted while it waits to be loaded again: it stays, and nothing is
outstanding. -/
theorem retryRun_abort_lingers :
    ¬(World.init.after retryConfig
      (retryRun ++ [.finish ["r"] ⟨.finishedAborted, rfl⟩])).Freed := by
  intro h
  have hmem := h "r" ⟨.finishedAborted, 8, 0, 0, 1, true, 1⟩ rfl rfl
  revert hmem
  decide

end Worlds

end Lmcache

end DgxSpark
