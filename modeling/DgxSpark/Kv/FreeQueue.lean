import Mathlib.Data.List.Nodup
import Mathlib.Data.List.TakeDrop
import Mathlib.Data.List.Perm.Basic

/-!
# The free block queue

`FreeKVCacheBlockQueue` of `vllm/v1/core/kv_cache_utils.py`: the free blocks in the order in
which they are handed out. The source links the blocks themselves, so that one in the middle
can be taken out at once; a queue is here the list of the identifiers along the links.

The point is the pop that picks: `DgxSpark.Kv.popleftNWhere` walks the queue and takes up to
`n` blocks that match, and two such pops, the second one matching everything, are one pop
from the queue with the matching blocks moved to the front
(`DgxSpark.Kv.popTwice_fst`, `DgxSpark.Kv.popTwice_snd`).
-/

namespace DgxSpark

namespace Kv

/-! ### The operations -/

/-- `popleft_n`: the first blocks, and the queue without them. -/
def popleftN (n : Nat) (queue : List Nat) : List Nat × List Nat :=
  (queue.take n, queue.drop n)

/-- `popleft_n_where`: up to `n` blocks that match, in queue order, and the queue without
them. -/
def popleftNWhere (predicate : Nat → Bool) : Nat → List Nat → List Nat × List Nat
  | 0, queue => ([], queue)
  | _ + 1, [] => ([], [])
  | n + 1, currBlock :: queue =>
    if predicate currBlock then
      -- unlink the block from the list
      (currBlock :: (popleftNWhere predicate n queue).1, (popleftNWhere predicate n queue).2)
    else
      ((popleftNWhere predicate (n + 1) queue).1,
        currBlock :: (popleftNWhere predicate (n + 1) queue).2)

/-- The two pops of `get_new_blocks`: first those that match, then, if they are too few, any. -/
def popTwice (predicate : Nat → Bool) (n : Nat) (queue : List Nat) : List Nat × List Nat :=
  let first := popleftNWhere predicate n queue
  if first.1.length < n then
    let rest := popleftNWhere (fun _ => true) (n - first.1.length) first.2
    (first.1 ++ rest.1, rest.2)
  else first

/-- `prepend_n`. -/
def prependN (blocks queue : List Nat) : List Nat :=
  blocks ++ queue

/-- `append_n`. -/
def appendN (blocks queue : List Nat) : List Nat :=
  queue ++ blocks

/-! ### What a pop takes -/

section Pop

variable {predicate : Nat → Bool}

theorem popleftNWhere_fst (n : Nat) (queue : List Nat) :
    (popleftNWhere predicate n queue).1 = (queue.filter predicate).take n := by
  induction queue generalizing n with
  | nil => cases n <;> simp [popleftNWhere]
  | cons b queue ih =>
    cases n with
    | zero => simp [popleftNWhere]
    | succ n => by_cases hb : predicate b <;> simp [popleftNWhere, hb, ih]

/-- The queue that a pop leaves has the other blocks, in the order in which they were. -/
theorem popleftNWhere_snd (predicate : Nat → Bool) (n : Nat) {queue : List Nat} (hnodup : queue.Nodup) :
    (popleftNWhere predicate n queue).2 =
      queue.filter (· ∉ (popleftNWhere predicate n queue).1) := by
  induction queue generalizing n with
  | nil => cases n <;> simp [popleftNWhere]
  | cons b queue ih =>
    obtain ⟨hb, hnodup⟩ := List.nodup_cons.1 hnodup
    cases n with
    | zero => simp [popleftNWhere]
    | succ n =>
      by_cases hp : predicate b
      · simp only [popleftNWhere, hp, if_true, List.mem_cons, not_or]
        rw [List.filter_cons_of_neg (by simp), ih n hnodup]
        refine List.filter_congr fun x hx => ?_
        have hne : x ≠ b := fun h => hb (h ▸ hx)
        simp [hne]
      · -- a block that does not match is not among those taken further on
        have hnot : b ∉ (popleftNWhere predicate (n + 1) queue).1 := by
          rw [popleftNWhere_fst]
          intro h
          exact hb (List.mem_filter.1 (List.mem_of_mem_take h)).1
        simp only [popleftNWhere, hp, Bool.false_eq_true, if_false]
        rw [List.filter_cons_of_pos (by simp [hnot]), ← ih (n + 1) hnodup]

/-- No block gets lost. -/
theorem length_popleftNWhere (predicate : Nat → Bool) (n : Nat) (queue : List Nat) :
    (popleftNWhere predicate n queue).1.length + (popleftNWhere predicate n queue).2.length =
      queue.length := by
  induction queue generalizing n with
  | nil => cases n <;> rfl
  | cons b queue ih =>
    cases n with
    | zero => simp [popleftNWhere]
    | succ n =>
      by_cases hp : predicate b
      · have hrest := ih n
        simp only [popleftNWhere, hp, if_true, List.length_cons]
        omega
      · have hrest := ih (n + 1)
        simp only [popleftNWhere, hp, Bool.false_eq_true, if_false, List.length_cons]
        omega

/-- Taking whatever comes first. -/
theorem popleftNWhere_true (n : Nat) (queue : List Nat) :
    popleftNWhere (fun _ => true) n queue = popleftN n queue := by
  induction queue generalizing n with
  | nil => cases n <;> simp [popleftNWhere, popleftN]
  | cons b queue ih => cases n <;> simp [popleftNWhere, popleftN, ih]

/-- What does not match stays when everything that matches is taken. -/
theorem popleftNWhere_snd_of_le {n : Nat} {queue : List Nat}
    (h : (queue.filter predicate).length ≤ n) :
    (popleftNWhere predicate n queue).2 = queue.filter (fun b => !predicate b) := by
  induction queue generalizing n with
  | nil => cases n <;> simp [popleftNWhere]
  | cons b queue ih =>
    by_cases hp : predicate b
    · rw [List.filter_cons_of_pos hp, List.length_cons] at h
      obtain ⟨m, rfl⟩ : ∃ m, n = m + 1 := ⟨n - 1, by omega⟩
      simp only [popleftNWhere, hp, if_true]
      rw [ih (by omega), List.filter_cons_of_neg (by simp [hp])]
    · rw [List.filter_cons_of_neg hp] at h
      cases n with
      | zero =>
        have hnone : queue.filter predicate = [] := List.length_eq_zero_iff.1 (by omega)
        have hall : ∀ x ∈ b :: queue, (!predicate x) = true := by
          intro x hx
          rcases List.mem_cons.1 hx with rfl | hx
          · simpa using hp
          · simpa using List.filter_eq_nil_iff.1 hnone x hx
        rw [popleftNWhere, List.filter_eq_self.2 hall]
      | succ n =>
        simp only [popleftNWhere, hp, Bool.false_eq_true, if_false]
        rw [ih h, List.filter_cons_of_pos (by simp [hp])]

/-- **What the two pops take**: the first `n` of the blocks that match followed by those that
do not. -/
theorem popTwice_fst (predicate : Nat → Bool) (n : Nat) (queue : List Nat) :
    (popTwice predicate n queue).1 =
      (queue.filter predicate ++ queue.filter (fun b => !predicate b)).take n := by
  simp only [popTwice]
  split
  · rename_i hlt
    rw [popleftNWhere_fst, List.length_take] at hlt
    have hlen : (queue.filter predicate).length ≤ n := by omega
    rw [popleftNWhere_true, popleftNWhere_snd_of_le hlen, popleftNWhere_fst]
    simp only [popleftN]
    rw [List.take_of_length_le hlen, List.take_append, List.take_of_length_le hlen]
  · rename_i hlt
    rw [popleftNWhere_fst, List.length_take] at hlt
    rw [popleftNWhere_fst, List.take_append_of_le_length (by omega)]

/-- **What the two pops leave**: the others, in the order in which they were. -/
theorem popTwice_snd (predicate : Nat → Bool) (n : Nat) {queue : List Nat} (hnodup : queue.Nodup) :
    (popTwice predicate n queue).2 = queue.filter (· ∉ (popTwice predicate n queue).1) := by
  have hfirst := popleftNWhere_snd predicate n hnodup
  simp only [popTwice]
  split
  · have hrest := hnodup.filter (· ∉ (popleftNWhere predicate n queue).1)
    rw [← hfirst] at hrest
    rw [popleftNWhere_snd _ _ hrest]
    simp only [hfirst, List.filter_filter, List.mem_append, not_or]
    refine List.filter_congr fun x _ => ?_
    simp [Bool.and_comm]
  · exact hfirst

/-- When everything matches, the two pops are the one pop of the original queue. -/
theorem popTwice_of_all {n : Nat} {queue : List Nat} (h : ∀ b ∈ queue, predicate b = true) :
    (popTwice predicate n queue).1 = (popleftN n queue).1 := by
  have hnone : queue.filter (fun b => !predicate b) = [] :=
    List.filter_eq_nil_iff.2 fun b hb => by simp [h b hb]
  rw [popTwice_fst, List.filter_eq_self.2 h, hnone, List.append_nil, popleftN]

/-- What is not among the first blocks comes after them. -/
theorem filter_not_mem_take (n : Nat) {queue : List Nat} (hnodup : queue.Nodup) :
    queue.filter (· ∉ queue.take n) = queue.drop n := by
  have h := popleftNWhere_snd (fun _ => true) n hnodup
  rw [popleftNWhere_true] at h
  exact h.symm

/-- The blocks that are taken come in the order of the two parts. -/
theorem popTwice_sublist (predicate : Nat → Bool) (n : Nat) (queue : List Nat) :
    (popTwice predicate n queue).1.Sublist
      (queue.filter predicate ++ queue.filter (fun b => !predicate b)) := by
  rw [popTwice_fst]
  exact List.take_sublist _ _

end Pop

end Kv

end DgxSpark
