import Mathlib.Data.Int.CardIntervalMod
import Mathlib.Data.List.Perm.Basic

/-!
# Dealing a list out

The slices `l[i::n]` of a list, for `i < n`, deal its entries out in turn (`Slices.slice`). Every
entry is in exactly one slice (`Slices.slices_perm`), and every stretch of consecutive entries is
dealt out evenly: a slice gets the stretch's share, rounded down or up (`Slices.stretch_even`).
-/

namespace Slices

variable {α : Type*}

/-- The entries at `i`, `i + n`, `i + 2 n`, …, for `i < n`. -/
def slice (n i : ℕ) (l : List α) : List α :=
  (l.zipIdx.filter fun entry => decide (entry.2 % n = i)).map Prod.fst

/-- The slices, one after the other. -/
def slices (n : ℕ) (l : List α) : List (List α) :=
  (List.range n).map fun i => slice n i l

/-- A slice keeps the order of the list. -/
theorem slice_sublist (n i : ℕ) (l : List α) : (slice n i l).Sublist l := by
  have h := (List.filter_sublist (p := fun entry : α × ℕ => decide (entry.2 % n = i))
    (l := l.zipIdx)).map Prod.fst
  rwa [List.zipIdx_map_fst] at h

@[simp] theorem slices_length (n : ℕ) (l : List α) : (slices n l).length = n := by
  rw [slices, List.length_map, List.length_range]

/-- Sorting a list by a number below `n` keeps its entries. -/
theorem flatMap_filter_perm (f : α → ℕ) (l : List α) (n : ℕ) :
    ((List.range n).flatMap fun i => l.filter fun a => decide (f a = i)).Perm
      (l.filter fun a => decide (f a < n)) := by
  induction n with
  | zero =>
    rw [List.filter_eq_nil_iff.2 fun a _ => by simp]
    exact List.Perm.refl _
  | succ n ih =>
    rw [List.range_succ, List.flatMap_append, List.flatMap_singleton]
    refine (ih.append_right _).trans ?_
    have hsplit := List.filter_append_perm (fun a => decide (f a < n))
      (l.filter fun a => decide (f a < n + 1))
    rw [List.filter_filter, List.filter_filter] at hsplit
    convert hsplit using 2
    · refine List.filter_congr fun a _ => ?_
      rw [← Bool.decide_and, decide_eq_decide]
      omega
    · refine List.filter_congr fun a _ => ?_
      rw [← decide_not, ← Bool.decide_and, decide_eq_decide]
      omega

/-- **Every entry is in one slice.** -/
theorem slices_perm {n : ℕ} (hn : 0 < n) (l : List α) : (slices n l).flatten.Perm l := by
  have hperm := (flatMap_filter_perm (fun entry : α × ℕ => entry.2 % n) l.zipIdx n).map Prod.fst
  rw [List.map_flatMap] at hperm
  refine hperm.trans ?_
  rw [List.filter_eq_self.2 fun entry _ => decide_eq_true (Nat.mod_lt _ hn), List.zipIdx_map_fst]

/-- How many entries of a stretch that starts at `start` a slice gets. -/
theorem stretch_count (n i : ℕ) (l : List α) (start : ℕ) :
    ((l.zipIdx start).filter fun entry => decide (entry.2 % n = i)).length +
        Nat.count (fun k => k % n = i) start =
      Nat.count (fun k => k % n = i) (start + l.length) := by
  induction l generalizing start with
  | nil => exact Nat.zero_add _
  | cons a l ih =>
    have hrest := ih (start + 1)
    rw [Nat.count_succ] at hrest
    rw [List.zipIdx_cons, List.filter_cons, List.length_cons,
      show start + (l.length + 1) = start + 1 + l.length by omega, ← hrest]
    by_cases hi : start % n = i
    · rw [if_pos (decide_eq_true hi), if_pos hi, List.length_cons]
      omega
    · rw [if_neg (by rw [decide_eq_true_eq]; exact hi), if_neg hi]
      omega

/-- **A stretch is dealt out evenly.** -/
theorem stretch_even {n i : ℕ} (hi : i < n) (l : List α) (start : ℕ) :
    l.length / n ≤ ((l.zipIdx start).filter fun entry => decide (entry.2 % n = i)).length ∧
      ((l.zipIdx start).filter fun entry => decide (entry.2 % n = i)).length ≤
        (l.length + n - 1) / n := by
  have hn : 0 < n := Nat.zero_lt_of_lt hi
  have hcount : ∀ b, Nat.count (fun k => k % n = i) b = b / n + if i < b % n then 1 else 0 := by
    intro b
    have h := Nat.count_modEq_card b hn i
    simpa only [Nat.ModEq, Nat.mod_eq_of_lt hi] using h
  have hstretch := stretch_count n i l start
  rw [hcount, hcount] at hstretch
  generalize ((l.zipIdx start).filter fun entry => decide (entry.2 % n = i)).length = c at *
  have hlo := Nat.div_add_mod start n
  have hhi := Nat.div_add_mod (start + l.length) n
  have hlo' := Nat.mod_lt start hn
  have hhi' := Nat.mod_lt (start + l.length) hn
  -- the products with `n` are what the lengths are compared with
  have hc : n * c + n * (start / n) + n * (if i < start % n then 1 else 0) =
      n * ((start + l.length) / n) + n * (if i < (start + l.length) % n then 1 else 0) := by
    rw [← Nat.mul_add, ← Nat.mul_add, ← Nat.mul_add]
    exact congrArg (n * ·) (by omega)
  constructor
  · refine Nat.le_of_lt_succ ((Nat.div_lt_iff_lt_mul hn).2 ?_)
    rw [Nat.succ_eq_add_one, Nat.add_mul, Nat.one_mul, Nat.mul_comm c n]
    split_ifs at hc <;> omega
  · refine (Nat.le_div_iff_mul_le hn).2 ?_
    rw [Nat.mul_comm c n]
    split_ifs at hc <;> omega

/-- A slice has its share of the list. -/
theorem slice_length {n i : ℕ} (hi : i < n) (l : List α) :
    l.length / n ≤ (slice n i l).length ∧ (slice n i l).length ≤ (l.length + n - 1) / n := by
  rw [slice, List.length_map]
  exact stretch_even hi l 0

/-- Slices of at most `size` entries, when there are enough of them. -/
theorem slice_le {n i size : ℕ} (hi : i < n) (l : List α) (hsize : l.length ≤ n * size) :
    (slice n i l).length ≤ size := by
  refine (slice_length hi l).2.trans (Nat.le_of_lt_succ ?_)
  rw [Nat.div_lt_iff_lt_mul (Nat.zero_lt_of_lt hi), Nat.succ_eq_add_one, Nat.mul_comm, Nat.mul_add,
    Nat.mul_one]
  have := Nat.zero_lt_of_lt hi
  omega

end Slices
