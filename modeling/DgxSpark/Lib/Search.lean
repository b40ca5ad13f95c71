import Mathlib.Order.Monotone.Basic
import Mathlib.Tactic.Linarith

/-!
# The last number that fits, by bisection

A test on the natural numbers that can fail, and the loop that halves an interval until it has the
last number that passes (`Search.bisect`). Where the test is antitone the result is the greatest
number up to the bound that passes (`Search.bisect_greatest`); in any case it passes.
-/

namespace Search

variable {ε : Type*}

/-- The loop: `result` has passed, the answer lies between `left` and `right` if it is another. -/
def bisect (fits : ℕ → Except ε Bool) : ℕ → ℕ → ℕ → ℕ → Except ε ℕ
  | 0, _, _, result => .ok result
  | fuel + 1, left, right, result =>
    if left ≤ right then do
      if ← fits ((left + right) / 2) then
        bisect fits fuel ((left + right) / 2 + 1) right ((left + right) / 2)
      else bisect fits fuel left ((left + right) / 2 - 1) result
    else .ok result

variable {fits : ℕ → Except ε Bool} {p : ℕ → Bool}

theorem bisect_step (hfits : ∀ n, fits n = .ok (p n)) {fuel left right result : ℕ}
    (hle : left ≤ right) : bisect fits (fuel + 1) left right result =
      if p ((left + right) / 2) then
        bisect fits fuel ((left + right) / 2 + 1) right ((left + right) / 2)
      else bisect fits fuel left ((left + right) / 2 - 1) result := by
  rw [bisect, if_pos hle, hfits]
  rfl

/-- **Bisection finds the greatest number that passes**, given enough rounds. -/
theorem bisect_greatest (hfits : ∀ n, fits n = .ok (p n))
    (hanti : ∀ m n, m ≤ n → p n = true → p m = true) (top : ℕ) {fuel left right result : ℕ}
    (hpos : 1 ≤ left) (hleft : left ≤ result + 1) (hfuel : right + 1 - left ≤ fuel)
    (hresult : p result = true)
    (hbound : result ≤ top) (hright : right ≤ top)
    (habove : ∀ n, right < n → n ≤ top → p n = false) :
    ∃ best, bisect fits fuel left right result = .ok best ∧ p best = true ∧ best ≤ top ∧
      ∀ n ≤ top, p n = true → n ≤ best := by
  induction fuel generalizing left right result with
  | zero =>
    refine ⟨result, rfl, hresult, hbound, fun n hn hpn => ?_⟩
    by_contra hlt
    rw [habove n (by omega) hn] at hpn
    exact Bool.false_ne_true hpn
  | succ fuel ih =>
    by_cases hle : left ≤ right
    · rw [bisect_step hfits hle]
      cases hmid : p ((left + right) / 2) with
      | true =>
        rw [if_pos rfl]
        exact ih (by omega) le_rfl (by omega) hmid (by omega) hright habove
      | false =>
        rw [if_neg Bool.false_ne_true]
        refine ih hpos hleft (by omega) hresult hbound (by omega) fun n hlt hn => ?_
        -- what lies above a number that fails, fails
        rw [← Bool.not_eq_true]
        intro hpn
        rw [hanti ((left + right) / 2) n (by omega) hpn] at hmid
        exact Bool.false_ne_true hmid.symm
    · rw [bisect, if_neg hle]
      refine ⟨result, rfl, hresult, hbound, fun n hn hpn => ?_⟩
      by_contra hlt
      rw [habove n (by omega) hn] at hpn
      exact Bool.false_ne_true hpn

end Search
