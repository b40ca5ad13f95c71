import Mathlib.Data.List.Sort
import Mathlib.Data.List.Nodup
import Mathlib.Tactic.Ring
import Mathlib.Tactic.Linarith

/-!
# Packing records into fixed slots

Records of different sizes are laid out one after the other (`Packing.place`), and copies of the
resulting slot are repeated at a fixed stride. The two facts a memory plan rests on are that
records of one slot share no position (`Packing.place_apart`), and that a position determines the
slot it lies in (`Packing.slot_of_address`).
-/

namespace Packing

variable {α : Type*}

/-! ### One record after the other -/

section Place

variable (size : α → ℕ)

/-- The records of a list, each with the position at which it starts. -/
def place : List α → ℕ → List (ℕ × α)
  | [], _ => []
  | a :: l, start => (start, a) :: place l (start + size a)

@[simp] theorem place_nil (start : ℕ) : place size [] start = [] := rfl

@[simp] theorem place_cons (a : α) (l : List α) (start : ℕ) :
    place size (a :: l) start = (start, a) :: place size l (start + size a) := rfl

/-- Placing keeps the records and their order. -/
@[simp] theorem place_map_snd (l : List α) (start : ℕ) :
    (place size l start).map Prod.snd = l := by
  induction l generalizing start with
  | nil => rfl
  | cons a l ih => rw [place_cons, List.map_cons, ih]

theorem mem_of_mem_place {l : List α} {start o : ℕ} {a : α} (h : (o, a) ∈ place size l start) :
    a ∈ l := by
  rw [← place_map_snd size l start]
  exact List.mem_map.2 ⟨(o, a), h, rfl⟩

theorem exists_place {l : List α} (start : ℕ) {a : α} (h : a ∈ l) :
    ∃ o, (o, a) ∈ place size l start := by
  rw [← place_map_snd size l start] at h
  obtain ⟨⟨o, a'⟩, hmem, rfl⟩ := List.mem_map.1 h
  exact ⟨o, hmem⟩

/-- A record lies between the start and the end of the layout. -/
theorem place_bounds {l : List α} {start o : ℕ} {a : α} (h : (o, a) ∈ place size l start) :
    start ≤ o ∧ o + size a ≤ start + (l.map size).sum := by
  induction l generalizing start with
  | nil => exact absurd h List.not_mem_nil
  | cons b l ih =>
    rw [List.map_cons, List.sum_cons]
    rcases List.mem_cons.1 h with heq | hrest
    · obtain ⟨rfl, rfl⟩ := Prod.mk.inj heq
      omega
    · have := ih hrest
      omega

/-- **Records do not overlap**: two records that share a position are the same record. -/
theorem place_apart {l : List α} {start o o' x : ℕ} {a a' : α}
    (h : (o, a) ∈ place size l start) (h' : (o', a') ∈ place size l start)
    (hlo : o ≤ x) (hhi : x < o + size a) (hlo' : o' ≤ x) (hhi' : x < o' + size a') :
    (o, a) = (o', a') := by
  induction l generalizing start with
  | nil => exact absurd h List.not_mem_nil
  | cons b l ih =>
    rcases List.mem_cons.1 h with heq | hrest <;> rcases List.mem_cons.1 h' with heq' | hrest'
    · rw [heq, heq']
    · obtain ⟨rfl, rfl⟩ := Prod.mk.inj heq
      have := (place_bounds size hrest').1
      omega
    · obtain ⟨rfl, rfl⟩ := Prod.mk.inj heq'
      have := (place_bounds size hrest).1
      omega
    · exact ih hrest hrest'

end Place

/-! ### Slots at a stride -/

/-- **A position determines its slot**: with slots of `stride` positions, one that lies in the
record at `offset` of slot `block` has that slot as quotient, and lies in the record by its
remainder. -/
theorem slot_of_address {stride offset size block x : ℕ} (hfit : offset + size ≤ stride)
    (hlo : block * stride + offset ≤ x) (hhi : x < block * stride + offset + size) :
    x / stride = block ∧ offset ≤ x % stride ∧ x % stride < offset + size := by
  have hx : x = block * stride + (x - block * stride) := by omega
  have hlt : x - block * stride < stride := by omega
  have hmod : x % stride = x - block * stride := by
    rw [hx, Nat.add_comm, Nat.add_mul_mod_self_right, Nat.mod_eq_of_lt hlt]
    omega
  refine ⟨?_, by omega, by omega⟩
  rw [hx, Nat.add_comm, Nat.add_mul_div_right _ _ (by omega), Nat.div_eq_of_lt hlt, Nat.zero_add]

/-- The record at `offset` of a slot ends before the slots below `blocks` do. -/
theorem slot_end {stride offset size block blocks : ℕ} (hfit : offset + size ≤ stride)
    (hblock : block < blocks) : block * stride + offset + size ≤ stride * blocks := by
  have := Nat.mul_le_mul_left stride (Nat.succ_le_of_lt hblock)
  rw [Nat.succ_eq_add_one, Nat.mul_add, Nat.mul_one, Nat.mul_comm] at this
  omega

end Packing
