import Mathlib.Data.List.Basic
import Mathlib.Data.List.Count
import Mathlib.Data.List.Induction

/-!
# Blocks that a step may still write

With several batches in flight, a step may still write the blocks of a request that has been
preempted or aborted meanwhile. The scheduler counts the non-empty steps that it has scheduled and
those whose output it has processed, notes for each request the last step it was in, and hands
blocks to the pool behind a fence: the step after which nothing writes them any more. The fences
are kept in a queue, which is drained from its front only.

Which blocks a request has, and which the copies of a step retain, is the affair of the cache
manager: here they come with the calls, whatever they are, and what is shown is what the scheduler
makes of them. What the cache manager gives back by itself (blocks out of the window of a request,
also where a request finishes) does not pass the fences and is not described here.

The fences of copies are one step ahead of those of requests, so the queue is not quite in order
(`DgxSpark.Kv.Fenced.ordered`), and what is behind a fence that has not been passed waits, for one
step at most. Over every run, what a request is freed of is deferred exactly if a step in flight
has scheduled it, and then it is still in the queue as long as such a step is in flight; each
block is handed to the pool as often as it was given up (`DgxSpark.Kv.freed_blocks_fenced`).
-/

namespace DgxSpark

namespace Kv

universe u

/-! ### The scheduler's fences -/

/-- A scheduled step whose output has not been processed: the number of the first non-empty step
from it on, and the requests in it. -/
structure InFlightStep (ρ : Type u) where
  seq : Nat
  scheduled : List ρ

/-- The scheduler, as far as it frees blocks, and all that it has handed to the pool. -/
structure StepScheduler (ρ : Type u) where
  deferBlockFree : Bool
  schedStepSeq : Nat
  processedStepSeq : Nat
  lastSchedSeq : ρ → Nat
  deferredFrees : List (Nat × List Nat)
  inFlight : List (InFlightStep ρ)
  released : List Nat

/-- What happens: a request is freed of the blocks that the cache manager has for it, where it is
preempted, finished or aborted; a step is scheduled, with the copies that the cache manager wants
and the blocks that it retains for them; the output of the oldest step is processed. -/
inductive FreeOp (ρ : Type u) where
  | free (r : ρ) (blocks : List Nat)
  | schedule (scheduled : List ρ) (copies : List (Nat × Nat)) (retained : List Nat)
  | updateFromOutput

/-- The loop of `_drain_deferred_frees`, with what it hands to the pool. -/
def drainLoop (processed : Nat) :
    List (Nat × List Nat) → List Nat → List (Nat × List Nat) × List Nat
  | [], released => ([], released)
  | (fence, blocks) :: rest, released =>
    if processed < fence then ((fence, blocks) :: rest, released)
    else drainLoop processed rest (released ++ blocks.reverse)

namespace StepScheduler

variable {ρ : Type u} [DecidableEq ρ]

/-- A scheduler that has scheduled nothing. -/
def init (deferBlockFree : Bool) : StepScheduler ρ where
  deferBlockFree := deferBlockFree
  schedStepSeq := 0
  processedStepSeq := 0
  lastSchedSeq := fun _ => 0
  deferredFrees := []
  inFlight := []
  released := []

/-- `_free_request_blocks`. -/
def freeRequestBlocks (s : StepScheduler ρ) (r : ρ) (blocks : List Nat) : StepScheduler ρ :=
  if !s.deferBlockFree || s.lastSchedSeq r ≤ s.processedStepSeq then
    { s with released := s.released ++ blocks }
  else if blocks.isEmpty then s
  else { s with deferredFrees := s.deferredFrees ++ [(s.schedStepSeq, blocks)] }

/-- `_free_cow_retained_blocks`. -/
def freeCowRetainedBlocks (s : StepScheduler ρ) (blocks : List Nat) (fenceSeq : Nat) :
    StepScheduler ρ :=
  if !s.deferBlockFree || fenceSeq ≤ s.processedStepSeq then
    { s with released := s.released ++ blocks }
  else { s with deferredFrees := s.deferredFrees ++ [(fenceSeq, blocks.reverse)] }

/-- The end of `schedule`: the copies are taken, the step is counted if anything is scheduled in
it, and the requests note it. -/
def schedule (s : StepScheduler ρ) (scheduled : List ρ) (copies : List (Nat × Nat))
    (retained : List Nat) : StepScheduler ρ :=
  let taken :=
    if copies.isEmpty then s else s.freeCowRetainedBlocks retained (s.schedStepSeq + 1)
  let seq :=
    if s.deferBlockFree && !scheduled.isEmpty then s.schedStepSeq + 1 else s.schedStepSeq
  { taken with
    schedStepSeq := seq
    lastSchedSeq := fun r =>
      if s.deferBlockFree && decide (r ∈ scheduled) then seq else s.lastSchedSeq r
    inFlight := s.inFlight ++ [⟨s.schedStepSeq + 1, scheduled⟩] }

/-- The beginning of `update_from_output`, for the oldest step in flight. -/
def updateFromOutput (s : StepScheduler ρ) : StepScheduler ρ :=
  match s.inFlight with
  | [] => s
  | step :: rest =>
    if s.deferBlockFree && !step.scheduled.isEmpty then
      let drained := drainLoop (s.processedStepSeq + 1) s.deferredFrees s.released
      { s with
        inFlight := rest
        processedStepSeq := s.processedStepSeq + 1
        deferredFrees := drained.1
        released := drained.2 }
    else { s with inFlight := rest }

/-- One step. -/
def step (s : StepScheduler ρ) : FreeOp ρ → StepScheduler ρ
  | .free r blocks => s.freeRequestBlocks r blocks
  | .schedule scheduled copies retained => s.schedule scheduled copies retained
  | .updateFromOutput => s.updateFromOutput

/-- A run. -/
def run (deferBlockFree : Bool) (ops : List (FreeOp ρ)) : StepScheduler ρ :=
  ops.foldl step (init deferBlockFree)

end StepScheduler

/-- The blocks that the cache manager gives up with a call. -/
def FreeOp.given {ρ : Type u} : FreeOp ρ → List Nat
  | .free _ blocks => blocks
  | .schedule _ copies retained => if copies.isEmpty then [] else retained
  | .updateFromOutput => []

/-! ### The queue of fences -/

/-- **What a drain does**: the entries up to the first fence that has not been passed hand over
their blocks. -/
theorem drainLoop_spec (processed : Nat) (entries : List (Nat × List Nat))
    (released : List Nat) :
    ∃ done, entries = done ++ (drainLoop processed entries released).1 ∧
      (∀ e ∈ done, e.1 ≤ processed) ∧
      (∀ e ∈ (drainLoop processed entries released).1.head?, processed < e.1) ∧
      (drainLoop processed entries released).2.Perm (released ++ done.flatMap Prod.snd) := by
  induction entries generalizing released with
  | nil =>
    refine ⟨[], rfl, fun _ h => absurd h List.not_mem_nil, fun _ h => ?_, ?_⟩
    · exact absurd h (Option.not_mem_none _)
    · rw [List.flatMap_nil, List.append_nil]
      exact List.Perm.refl _
  | cons e rest ih =>
    obtain ⟨fence, blocks⟩ := e
    rw [drainLoop]
    split
    · rename_i hfence
      refine ⟨[], rfl, fun _ h => absurd h List.not_mem_nil, fun e he => ?_, ?_⟩
      · obtain rfl := Option.some.inj he
        exact hfence
      · rw [List.flatMap_nil, List.append_nil]
    · rename_i hfence
      obtain ⟨done, heq, hdone, hhead, hperm⟩ := ih (released ++ blocks.reverse)
      refine ⟨(fence, blocks) :: done, congrArg _ heq, fun e he => ?_, hhead, ?_⟩
      · obtain rfl | he := List.mem_cons.1 he
        · exact Nat.le_of_not_lt hfence
        · exact hdone e he
      · rw [List.flatMap_cons, ← List.append_assoc]
        exact hperm.trans (((List.reverse_perm blocks).append_left released).append_right _)

/-- The steps in flight, when `p` non-empty ones have been processed and `s` scheduled. -/
def Numbered {ρ : Type u} : Nat → List (InFlightStep ρ) → Nat → Prop
  | p, [], s => p = s
  | p, step :: rest, s =>
    step.seq = p + 1 ∧ Numbered (if !step.scheduled.isEmpty then p + 1 else p) rest s

section Numbered

variable {ρ : Type u} {p s : Nat} {steps : List (InFlightStep ρ)}

theorem Numbered.le (h : Numbered p steps s) : p ≤ s := by
  induction steps generalizing p with
  | nil => exact Nat.le_of_eq h
  | cons step rest ih =>
    have hle := ih h.2
    split at hle <;> omega

theorem Numbered.lt_seq (h : Numbered p steps s) : ∀ step ∈ steps, p < step.seq := by
  induction steps generalizing p with
  | nil => exact fun _ hmem => absurd hmem List.not_mem_nil
  | cons first rest ih =>
    intro step hmem
    obtain ⟨hfirst, hrest⟩ := h
    obtain rfl | hmem := List.mem_cons.1 hmem
    · omega
    · have hlt := ih hrest step hmem
      split at hlt <;> omega

theorem Numbered.append (h : Numbered p steps s) (scheduled : List ρ) :
    Numbered p (steps ++ [⟨s + 1, scheduled⟩])
      (if !scheduled.isEmpty then s + 1 else s) := by
  induction steps generalizing p with
  | nil =>
    obtain rfl : p = s := h
    exact ⟨rfl, rfl⟩
  | cons step rest ih => exact ⟨h.1, ih h.2⟩

end Numbered

/-! ### What a step keeps -/

section Steps

variable {ρ : Type u} [DecidableEq ρ] {s : StepScheduler ρ} {r : ρ}

/-- What the fences keep. -/
structure Fenced (s : StepScheduler ρ) : Prop where
  defers : s.deferBlockFree = true
  numbered : Numbered s.processedStepSeq s.inFlight s.schedStepSeq
  covered : ∀ step ∈ s.inFlight, ∀ r ∈ step.scheduled, step.seq ≤ s.lastSchedSeq r
  last : ∀ r, s.processedStepSeq < s.lastSchedSeq r → ∃ step ∈ s.inFlight, r ∈ step.scheduled ∧
    step.seq = s.lastSchedSeq r
  noted : ∀ r, s.lastSchedSeq r ≤ s.schedStepSeq
  ordered : s.deferredFrees.Pairwise fun e e' => e.1 ≤ e'.1 + 1
  waiting : ∀ e ∈ s.deferredFrees, s.processedStepSeq ≤ e.1 ∧ e.1 ≤ s.schedStepSeq + 1

omit [DecidableEq ρ] in
/-- A request is in a step in flight exactly if its last step has not been processed. -/
theorem Fenced.inFlight_iff (h : Fenced s) (r : ρ) :
    (∃ step ∈ s.inFlight, r ∈ step.scheduled) ↔ s.processedStepSeq < s.lastSchedSeq r := by
  constructor
  · rintro ⟨step, hstep, hr⟩
    exact Nat.lt_of_lt_of_le (h.numbered.lt_seq step hstep) (h.covered step hstep r hr)
  · intro hlt
    obtain ⟨step, hstep, hr, -⟩ := h.last r hlt
    exact ⟨step, hstep, hr⟩

omit [DecidableEq ρ] in
/-- The queue with one more fence, which is not behind the ones before it by more than one. -/
theorem Fenced.push (h : Fenced s) {fence : Nat} (hlow : s.schedStepSeq ≤ fence)
    (hhigh : fence ≤ s.schedStepSeq + 1) (blocks : List Nat) :
    (s.deferredFrees ++ [(fence, blocks)]).Pairwise (fun e e' => e.1 ≤ e'.1 + 1) ∧
      ∀ e ∈ s.deferredFrees ++ [(fence, blocks)],
        s.processedStepSeq ≤ e.1 ∧ e.1 ≤ s.schedStepSeq + 1 := by
  refine ⟨List.pairwise_append.2 ⟨h.ordered, List.pairwise_singleton _ _, ?_⟩, fun e he => ?_⟩
  · rintro e he e' he'
    obtain rfl := List.mem_singleton.1 he'
    have hle := (h.waiting e he).2
    dsimp only
    omega
  · obtain he | he := List.mem_append.1 he
    · exact h.waiting e he
    · obtain rfl := List.mem_singleton.1 he
      exact ⟨Nat.le_trans h.numbered.le hlow, hhigh⟩

omit [DecidableEq ρ] in
/-- **A request is freed**: at once if its last step has been processed, and else behind the last
step that was scheduled. -/
theorem Fenced.free_eq (h : Fenced s) (r : ρ) (blocks : List Nat) :
    s.freeRequestBlocks r blocks =
      if s.lastSchedSeq r ≤ s.processedStepSeq then { s with released := s.released ++ blocks }
      else if blocks = [] then s
      else { s with deferredFrees := s.deferredFrees ++ [(s.schedStepSeq, blocks)] } := by
  rw [StepScheduler.freeRequestBlocks, h.defers, Bool.not_true, Bool.false_or]
  simp only [decide_eq_true_eq, List.isEmpty_iff]

omit [DecidableEq ρ] in
theorem Fenced.free (h : Fenced s) (r : ρ) (blocks : List Nat) :
    Fenced (s.freeRequestBlocks r blocks) := by
  rw [h.free_eq]
  split
  · exact ⟨h.defers, h.numbered, h.covered, h.last, h.noted, h.ordered, h.waiting⟩
  · split
    · exact h
    · obtain ⟨hordered, hwaiting⟩ := h.push (Nat.le_refl _) (Nat.le_succ _) blocks
      exact ⟨h.defers, h.numbered, h.covered, h.last, h.noted, hordered, hwaiting⟩

/-- A step that is scheduled: its copies hold on to their blocks until it, or the next non-empty
one, is processed. -/
theorem Fenced.schedule_eq (h : Fenced s) (scheduled : List ρ) (copies : List (Nat × Nat))
    (retained : List Nat) :
    s.schedule scheduled copies retained = { s with
      deferredFrees := s.deferredFrees ++
        if copies = [] then [] else [(s.schedStepSeq + 1, retained.reverse)]
      schedStepSeq := if !scheduled.isEmpty then s.schedStepSeq + 1 else s.schedStepSeq
      lastSchedSeq := fun r => if r ∈ scheduled then
        if !scheduled.isEmpty then s.schedStepSeq + 1 else s.schedStepSeq else s.lastSchedSeq r
      inFlight := s.inFlight ++ [⟨s.schedStepSeq + 1, scheduled⟩] } := by
  have hle := h.numbered.le
  have hcopies : s.freeCowRetainedBlocks retained (s.schedStepSeq + 1) =
      { s with deferredFrees := s.deferredFrees ++ [(s.schedStepSeq + 1, retained.reverse)] } := by
    rw [StepScheduler.freeCowRetainedBlocks, h.defers, Bool.not_true, Bool.false_or,
      if_neg (mt of_decide_eq_true (by omega))]
  rw [StepScheduler.schedule, hcopies, h.defers]
  simp only [Bool.true_and, decide_eq_true_eq, List.isEmpty_iff]
  by_cases hnone : copies = []
  · rw [if_pos hnone, if_pos hnone, List.append_nil, h.defers]
  · rw [if_neg hnone, if_neg hnone]

theorem Fenced.schedule (h : Fenced s) (scheduled : List ρ) (copies : List (Nat × Nat))
    (retained : List Nat) : Fenced (s.schedule scheduled copies retained) := by
  rw [h.schedule_eq]
  have hseq : s.schedStepSeq ≤
      if !scheduled.isEmpty then s.schedStepSeq + 1 else s.schedStepSeq := by
    split <;> omega
  have hnew : ∀ r ∈ scheduled,
      (if !scheduled.isEmpty then s.schedStepSeq + 1 else s.schedStepSeq) =
        s.schedStepSeq + 1 := by
    intro r hr
    rw [if_pos]
    rw [Bool.not_eq_true', List.isEmpty_eq_false_iff]
    exact List.ne_nil_of_mem hr
  refine ⟨h.defers, h.numbered.append _, fun step hstep r hr => ?_, fun r hlt => ?_, fun r => ?_,
    ?_, fun e he => ?_⟩
  · obtain hstep | hstep := List.mem_append.1 hstep
    · have hle := h.covered step hstep r hr
      dsimp only
      split
      · exact Nat.le_trans hle (Nat.le_trans (h.noted r) hseq)
      · exact hle
    · obtain rfl := List.mem_singleton.1 hstep
      exact Nat.le_of_eq ((if_pos hr).trans (hnew r hr)).symm
  · dsimp only at hlt ⊢
    by_cases hr : r ∈ scheduled
    · rw [if_pos hr]
      exact ⟨_, List.mem_append_right _ (List.mem_singleton_self _), hr, (hnew r hr).symm⟩
    · rw [if_neg hr] at hlt ⊢
      obtain ⟨step, hstep, hin, heq⟩ := h.last r hlt
      exact ⟨step, List.mem_append_left _ hstep, hin, heq⟩
  · dsimp only
    split
    · exact Nat.le_refl _
    · exact Nat.le_trans (h.noted r) hseq
  · dsimp only
    split
    · rw [List.append_nil]
      exact h.ordered
    · exact (h.push (Nat.le_succ _) (Nat.le_refl _) _).1
  · have hold : s.processedStepSeq ≤ e.1 ∧ e.1 ≤ s.schedStepSeq + 1 := by
      dsimp only at he
      split at he
      · rw [List.append_nil] at he
        exact h.waiting e he
      · exact (h.push (Nat.le_succ _) (Nat.le_refl _) _).2 e he
    dsimp only
    omega

omit [DecidableEq ρ] in
/-- **The output of the oldest step is processed**: what is handed over is behind fences that have
been passed. -/
theorem Fenced.updateFromOutput (h : Fenced s) : Fenced s.updateFromOutput := by
  obtain ⟨hdefers, hnumbered, hcovered, hlast, hnoted, hordered, hwaiting⟩ := h
  rw [StepScheduler.updateFromOutput]
  split
  · exact ⟨hdefers, hnumbered, hcovered, hlast, hnoted, hordered, hwaiting⟩
  · rename_i step rest hflight
    rw [hflight] at hnumbered hcovered hlast
    obtain ⟨hfirst, hrest⟩ := hnumbered
    have hothers : ∀ other ∈ rest, ∀ r ∈ other.scheduled, other.seq ≤ s.lastSchedSeq r :=
      fun other hother => hcovered other (List.mem_cons_of_mem _ hother)
    rw [hdefers, Bool.true_and]
    by_cases hnonempty : (!step.scheduled.isEmpty) = true
    · rw [if_pos hnonempty] at hrest ⊢
      obtain ⟨done, heq, -, hhead, -⟩ :=
        drainLoop_spec (s.processedStepSeq + 1) s.deferredFrees s.released
      have hpairs := hordered
      rw [heq] at hpairs
      have hkeptPairs := (List.pairwise_append.1 hpairs).2.1
      -- the queue is out of order by one at most, so behind the first fence that has not been
      -- passed there is none that has been passed by more than this step
      have hkept : ∀ e ∈ (drainLoop (s.processedStepSeq + 1) s.deferredFrees s.released).1,
          s.processedStepSeq + 1 ≤ e.1 := by
        revert hhead hkeptPairs
        cases (drainLoop (s.processedStepSeq + 1) s.deferredFrees s.released).1 with
        | nil => exact fun _ _ e he => absurd he List.not_mem_nil
        | cons first others =>
          intro hhead hkeptPairs e he
          have hlow := hhead first rfl
          obtain rfl | he := List.mem_cons.1 he
          · omega
          · have hle := (List.pairwise_cons.1 hkeptPairs).1 e he
            omega
      refine ⟨rfl, hrest, hothers, fun r hlt => ?_, hnoted, hkeptPairs,
        fun e he => ⟨hkept e he, (hwaiting e ?_).2⟩⟩
      · dsimp only at hlt
        obtain ⟨other, hother, hr, hnum⟩ := hlast r (by omega)
        -- the step that is done is not the last one of a request whose last step is to come
        obtain rfl | hother := List.mem_cons.1 hother
        · omega
        · exact ⟨other, hother, hr, hnum⟩
      · rw [heq]
        exact List.mem_append_right _ he
    · rw [if_neg hnonempty] at hrest ⊢
      refine ⟨rfl, hrest, hothers, fun r hlt => ?_, hnoted, hordered, hwaiting⟩
      obtain ⟨other, hother, hr, hnum⟩ := hlast r hlt
      obtain rfl | hother := List.mem_cons.1 hother
      · rw [Bool.not_eq_true, Bool.not_eq_false', List.isEmpty_iff] at hnonempty
        rw [hnonempty] at hr
        exact absurd hr List.not_mem_nil
      · exact ⟨other, hother, hr, hnum⟩

theorem Fenced.step (h : Fenced s) (op : FreeOp ρ) : Fenced (s.step op) := by
  cases op with
  | free r blocks => exact h.free r blocks
  | schedule scheduled copies retained => exact h.schedule scheduled copies retained
  | updateFromOutput => exact h.updateFromOutput

/-! ### An entry of the queue -/

/-- An entry is still in the queue, behind some of the entries that were before it. -/
def Waits (before : List (Nat × List Nat)) (e : Nat × List Nat)
    (queue : List (Nat × List Nat)) : Prop :=
  ∃ kept more, kept <:+ before ∧ queue = kept ++ e :: more

theorem Waits.append {before queue : List (Nat × List Nat)} {e : Nat × List Nat}
    (h : Waits before e queue) (others : List (Nat × List Nat)) :
    Waits before e (queue ++ others) := by
  obtain ⟨kept, more, hsuffix, rfl⟩ := h
  exact ⟨kept, more ++ others, hsuffix, by rw [List.append_assoc, List.cons_append]⟩

/-- A drain does not get past a fence that has not been passed. -/
theorem Waits.drain {before queue : List (Nat × List Nat)} {e : Nat × List Nat}
    (h : Waits before e queue) {processed : Nat} (hfence : processed < e.1)
    (released : List Nat) : Waits before e (drainLoop processed queue released).1 := by
  obtain ⟨kept, more, hsuffix, rfl⟩ := h
  induction kept generalizing released with
  | nil =>
    rw [List.nil_append, drainLoop, if_pos hfence]
    exact ⟨[], more, hsuffix, rfl⟩
  | cons first kept ih =>
    rw [List.cons_append, drainLoop]
    split
    · exact ⟨first :: kept, more, hsuffix, rfl⟩
    · exact ih _ ((List.suffix_cons first kept).trans hsuffix)

theorem Fenced.waits_step (h : Fenced s) {before : List (Nat × List Nat)} {e : Nat × List Nat}
    (hwaits : Waits before e s.deferredFrees) (op : FreeOp ρ)
    (hfence : (s.step op).processedStepSeq < e.1) : Waits before e (s.step op).deferredFrees := by
  cases op with
  | free r blocks =>
    show Waits before e (s.freeRequestBlocks r blocks).deferredFrees
    rw [h.free_eq]
    split
    · exact hwaits
    · split
      · exact hwaits
      · exact hwaits.append _
  | schedule scheduled copies retained =>
    show Waits before e (s.schedule scheduled copies retained).deferredFrees
    rw [h.schedule_eq]
    exact hwaits.append _
  | updateFromOutput =>
    dsimp only [StepScheduler.step, StepScheduler.updateFromOutput] at hfence ⊢
    cases hflight : s.inFlight with
    | nil => exact hwaits
    | cons step rest =>
      rw [hflight] at hfence
      dsimp only at hfence ⊢
      split
      · rename_i hcond
        rw [if_pos hcond] at hfence
        exact hwaits.drain hfence _
      · exact hwaits

omit [DecidableEq ρ] in
/-- Each block is deferred or has been handed over. -/
theorem conserved_drain (s : StepScheduler ρ) (processed : Nat) :
    ((drainLoop processed s.deferredFrees s.released).2 ++
      (drainLoop processed s.deferredFrees s.released).1.flatMap Prod.snd).Perm
        (s.released ++ s.deferredFrees.flatMap Prod.snd) := by
  obtain ⟨done, heq, -, -, hperm⟩ := drainLoop_spec processed s.deferredFrees s.released
  refine (hperm.append_right _).trans ?_
  rw [List.append_assoc, ← List.flatMap_append, ← heq]

/-- What was given up with a step is deferred or handed over, with what was so before. -/
theorem conserved_step (s : StepScheduler ρ) (op : FreeOp ρ) :
    ((s.step op).released ++ (s.step op).deferredFrees.flatMap Prod.snd).Perm
      (s.released ++ s.deferredFrees.flatMap Prod.snd ++ op.given) := by
  have hnow : ∀ blocks : List Nat, (s.released ++ blocks ++ s.deferredFrees.flatMap Prod.snd).Perm
      (s.released ++ s.deferredFrees.flatMap Prod.snd ++ blocks) := by
    intro blocks
    rw [List.append_assoc, List.append_assoc]
    exact List.perm_append_comm.append_left _
  cases op with
  | free r blocks =>
    show ((s.freeRequestBlocks r blocks).released ++
      (s.freeRequestBlocks r blocks).deferredFrees.flatMap Prod.snd).Perm (_ ++ blocks)
    rw [StepScheduler.freeRequestBlocks]
    split
    · exact hnow blocks
    · split
      · rename_i hempty
        rw [List.isEmpty_iff.1 hempty, List.append_nil]
      · rw [List.flatMap_append, List.flatMap_singleton, List.append_assoc]
  | schedule scheduled copies retained =>
    dsimp only [StepScheduler.step, StepScheduler.schedule, FreeOp.given]
    split
    · rw [List.append_nil]
    · rw [StepScheduler.freeCowRetainedBlocks]
      split
      · exact hnow retained
      · rw [List.flatMap_append, List.flatMap_singleton, ← List.append_assoc]
        exact (List.reverse_perm retained).append_left _
  | updateFromOutput =>
    dsimp only [StepScheduler.step, StepScheduler.updateFromOutput, FreeOp.given]
    rw [List.append_nil]
    split
    · exact List.Perm.refl _
    · split
      · exact conserved_drain s _
      · exact List.Perm.refl _

end Steps

/-! ### Runs -/

section Runs

variable {ρ : Type u} [DecidableEq ρ]

theorem run_concat (deferBlockFree : Bool) (ops : List (FreeOp ρ)) (op : FreeOp ρ) :
    StepScheduler.run deferBlockFree (ops ++ [op]) =
      (StepScheduler.run deferBlockFree ops).step op := by
  rw [StepScheduler.run, List.foldl_append]
  rfl

theorem run_fenced (ops : List (FreeOp ρ)) : Fenced (StepScheduler.run true ops) := by
  induction ops using List.reverseRecOn with
  | nil =>
    exact ⟨rfl, rfl, fun _ h => absurd h List.not_mem_nil,
      fun _ h => absurd h (Nat.lt_irrefl 0), fun _ => Nat.le_refl _, .nil,
      fun _ h => absurd h List.not_mem_nil⟩
  | append_singleton ops op ih =>
    rw [run_concat]
    exact ih.step op

theorem run_conserved (deferBlockFree : Bool) (ops : List (FreeOp ρ)) :
    ((StepScheduler.run deferBlockFree ops).released ++
      (StepScheduler.run deferBlockFree ops).deferredFrees.flatMap Prod.snd).Perm
        (ops.flatMap FreeOp.given) := by
  induction ops using List.reverseRecOn with
  | nil => exact List.Perm.refl _
  | append_singleton ops op ih =>
    rw [run_concat, List.flatMap_append, List.flatMap_singleton]
    exact (conserved_step _ op).trans (ih.append_right _)

/-- The number of steps whose output has been processed does not go back. -/
theorem processed_mono (s : StepScheduler ρ) (op : FreeOp ρ) :
    s.processedStepSeq ≤ (s.step op).processedStepSeq := by
  cases op with
  | free r blocks =>
    dsimp only [StepScheduler.step, StepScheduler.freeRequestBlocks]
    split
    · exact Nat.le_refl _
    · split <;> exact Nat.le_refl _
  | schedule scheduled copies retained =>
    dsimp only [StepScheduler.step, StepScheduler.schedule, StepScheduler.freeCowRetainedBlocks]
    split
    · exact Nat.le_refl _
    · split <;> exact Nat.le_refl _
  | updateFromOutput =>
    dsimp only [StepScheduler.step, StepScheduler.updateFromOutput]
    split
    · exact Nat.le_refl _
    · split
      · exact Nat.le_succ _
      · exact Nat.le_refl _

/-- An entry that a call has put in the queue stays there as long as its fence has not been
passed. -/
theorem run_waits {ops : List (FreeOp ρ)} {before : List (Nat × List Nat)} {e : Nat × List Nat}
    (hwaits : Waits before e (StepScheduler.run true ops).deferredFrees)
    (after : List (FreeOp ρ))
    (hfence : (StepScheduler.run true (ops ++ after)).processedStepSeq < e.1) :
    Waits before e (StepScheduler.run true (ops ++ after)).deferredFrees := by
  induction after using List.reverseRecOn with
  | nil =>
    rw [List.append_nil]
    exact hwaits
  | append_singleton after op ih =>
    rw [← List.append_assoc, run_concat] at hfence ⊢
    have hle := processed_mono (StepScheduler.run true (ops ++ after)) op
    exact (run_fenced _).waits_step (ih (by omega)) op hfence

/-- **Freed blocks are fenced**: in every run, what a request is freed of is handed to the pool at
once if no step in flight has scheduled the request; else it stays in the queue until the output
of every such step has been processed, whatever happens between. So do the blocks that copies
retain, until the step that makes the copies, or the next non-empty one, has been processed. An
entry is out of the queue at the latest one step after its fence, and each block is handed over,
or deferred, as often as it was given up. -/
theorem freed_blocks_fenced (ops : List (FreeOp ρ)) :
    let s := StepScheduler.run true ops
    (∀ (r : ρ) (blocks : List Nat), (∀ step ∈ s.inFlight, r ∉ step.scheduled) →
      (s.step (.free r blocks)).released = s.released ++ blocks ∧
      (s.step (.free r blocks)).deferredFrees = s.deferredFrees) ∧
    (∀ (r : ρ) (blocks : List Nat) (after : List (FreeOp ρ)),
      let t := StepScheduler.run true (ops ++ .free r blocks :: after)
      ∀ step ∈ s.inFlight, r ∈ step.scheduled → t.processedStepSeq < step.seq → blocks ≠ [] →
        ∃ fence, step.seq ≤ fence ∧ Waits s.deferredFrees (fence, blocks) t.deferredFrees) ∧
    (∀ (scheduled : List ρ) (copies : List (Nat × Nat)) (retained : List Nat)
      (after : List (FreeOp ρ)),
      let t := StepScheduler.run true (ops ++ .schedule scheduled copies retained :: after)
      copies ≠ [] → t.processedStepSeq ≤ s.schedStepSeq →
        Waits s.deferredFrees (s.schedStepSeq + 1, retained.reverse) t.deferredFrees) ∧
    (∀ e ∈ s.deferredFrees, s.processedStepSeq ≤ e.1) ∧
    (s.released ++ s.deferredFrees.flatMap Prod.snd).Perm (ops.flatMap FreeOp.given) := by
  intro s
  have hfenced : Fenced s := run_fenced ops
  refine ⟨fun r blocks hnone => ?_, fun r blocks after => ?_,
    fun scheduled copies retained after => ?_, fun e he => (hfenced.waiting e he).1,
    run_conserved true ops⟩
  · have hdone : s.lastSchedSeq r ≤ s.processedStepSeq := by
      refine Nat.le_of_not_lt fun hlt => ?_
      obtain ⟨step, hstep, hr⟩ := (hfenced.inFlight_iff r).2 hlt
      exact hnone step hstep hr
    show (s.freeRequestBlocks r blocks).released = _ ∧
      (s.freeRequestBlocks r blocks).deferredFrees = _
    rw [hfenced.free_eq, if_pos hdone]
    exact ⟨rfl, rfl⟩
  · intro t step hstep hr hflight hblocks
    have hlast := (hfenced.inFlight_iff r).1 ⟨step, hstep, hr⟩
    -- the fence is the last step that was scheduled, not the last one of the request
    have hle : step.seq ≤ s.schedStepSeq :=
      Nat.le_trans (hfenced.covered step hstep r hr) (hfenced.noted r)
    have hput : Waits s.deferredFrees (s.schedStepSeq, blocks)
        (StepScheduler.run true (ops ++ [.free r blocks])).deferredFrees := by
      rw [run_concat]
      show Waits _ _ (s.freeRequestBlocks r blocks).deferredFrees
      rw [hfenced.free_eq, if_neg (Nat.not_le_of_lt hlast), if_neg hblocks]
      exact ⟨s.deferredFrees, [], List.suffix_refl _, rfl⟩
    have hsplit : ops ++ FreeOp.free r blocks :: after = ops ++ [.free r blocks] ++ after :=
      List.append_cons _ _ _
    refine ⟨s.schedStepSeq, hle, ?_⟩
    show Waits _ _ (StepScheduler.run true _).deferredFrees
    rw [hsplit]
    refine run_waits hput after (Nat.lt_of_lt_of_le ?_ hle)
    rw [← hsplit]
    exact hflight
  · intro t hcopies hflight
    have hput : Waits s.deferredFrees (s.schedStepSeq + 1, retained.reverse)
        (StepScheduler.run true
          (ops ++ [.schedule scheduled copies retained])).deferredFrees := by
      rw [run_concat]
      show Waits _ _ (s.schedule scheduled copies retained).deferredFrees
      rw [hfenced.schedule_eq]
      dsimp only
      rw [if_neg hcopies]
      exact ⟨s.deferredFrees, [], List.suffix_refl _, rfl⟩
    have hsplit : ops ++ FreeOp.schedule scheduled copies retained :: after =
        ops ++ [.schedule scheduled copies retained] ++ after :=
      List.append_cons _ _ _
    show Waits _ _ (StepScheduler.run true _).deferredFrees
    rw [hsplit]
    refine run_waits hput after (Nat.lt_succ_of_le ?_)
    rw [← hsplit]
    exact hflight

/-- A request is preempted with a step in flight: its blocks wait for the step. -/
example :
    let ops : List (FreeOp String) := [.schedule ["r", "q"] [(3, 4)] [3], .free "r" [7, 8],
      .schedule ["q"] [] []]
    (StepScheduler.run true ops).released = [] ∧
      (StepScheduler.run true (ops ++ [.updateFromOutput])).released = [3, 8, 7] ∧
      (StepScheduler.run false ops).released = [3, 7, 8] := by
  decide

end Runs

end Kv

end DgxSpark
