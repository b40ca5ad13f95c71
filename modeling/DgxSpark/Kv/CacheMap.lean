import DgxSpark.Kv.PoolSpec

/-!
# The map from hashes to blocks

`BlockHashToBlockMap` has a single block under a key until a second one comes, and a dictionary of
blocks from then on, also when it has become one block again. The pool's model has the blocks under
a key as a list (`DgxSpark.Kv.BlockPool.cachedBlockHashToBlock`); this module is the map as it is
written, and says that each of its operations does on it what the model does on the lists
(`DgxSpark.Kv.Represents.run`).
-/

namespace DgxSpark

namespace Kv

variable {η : Type}

/-- What there is under a key: a block, or blocks by their identifier, in the order in which they
came. -/
inductive CacheEntry where
  | block (b : Nat)
  | dict (blocks : List Nat)
deriving DecidableEq, Repr

/-- The blocks of an entry. -/
def CacheEntry.toList : CacheEntry → List Nat
  | .block b => [b]
  | .dict blocks => blocks

/-- `BlockHashToBlockMap`, by its `_cache`. -/
abbrev BlockHashToBlockMap (η : Type) : Type := BlockHashWithGroupId η → Option CacheEntry

namespace BlockHashToBlockMap

/-- `get_one_block`: of a dictionary, the first block. -/
def getOneBlock (cache : BlockHashToBlockMap η) (key : BlockHashWithGroupId η) : Option Nat :=
  match cache key with
  | none => none
  | some (.block b) => some b
  | some (.dict blocks) => blocks.head?

/-- `contain`. -/
def contain (cache : BlockHashToBlockMap η) (key : BlockHashWithGroupId η) (b : Nat) : Bool :=
  match cache key with
  | none => false
  | some (.block b') => b' = b
  | some (.dict blocks) => b ∈ blocks

variable [DecidableEq η]

/-- `insert`. A block that is in the dictionary already keeps its place. -/
def insert (cache : BlockHashToBlockMap η) (key : BlockHashWithGroupId η) (b : Nat) :
    BlockHashToBlockMap η :=
  match cache key with
  | none => Function.update cache key (some (.block b))
  | some (.block b') =>
    -- the merged dictionary, in which the same identifier is one entry
    Function.update cache key (some (.dict (if b' = b then [b] else [b', b])))
  | some (.dict blocks) =>
    Function.update cache key (some (.dict (if b ∈ blocks then blocks else blocks ++ [b])))

/-- `pop`: the block, if it is there, and the map after. -/
def pop (cache : BlockHashToBlockMap η) (key : BlockHashWithGroupId η) (b : Nat) :
    Option Nat × BlockHashToBlockMap η :=
  match cache key with
  | none => (none, cache)
  | some (.block b') => if b' = b then (some b', Function.update cache key none) else (none, cache)
  | some (.dict blocks) =>
    (if b ∈ blocks then some b else none,
      Function.update cache key
        (if 0 < (blocks.erase b).length then some (.dict (blocks.erase b)) else none))

end BlockHashToBlockMap

/-- **The map has the blocks of the lists**, each once, and no dictionary of it is empty. -/
structure Represents (cache : BlockHashToBlockMap η) (lists : BlockHashWithGroupId η → List Nat) :
    Prop where
  toList : ∀ key, ((cache key).elim [] CacheEntry.toList) = lists key
  nodup : ∀ key, (lists key).Nodup
  nonempty : ∀ key blocks, cache key = some (.dict blocks) → blocks ≠ []

namespace Represents

variable {cache : BlockHashToBlockMap η} {lists : BlockHashWithGroupId η → List Nat}

/-- An empty map. -/
theorem empty : Represents (fun _ => none) (fun _ : BlockHashWithGroupId η => []) :=
  ⟨fun _ => rfl, fun _ => List.nodup_nil, nofun⟩

/-- **A lookup** finds the block that came first of those that are left. -/
theorem getOneBlock (h : Represents cache lists) (key : BlockHashWithGroupId η) :
    cache.getOneBlock key = (lists key).head? := by
  rw [← h.toList key, BlockHashToBlockMap.getOneBlock]
  rcases cache key with - | b | blocks
  · rfl
  · rfl
  · rfl

theorem contain (h : Represents cache lists) (key : BlockHashWithGroupId η) (b : Nat) :
    cache.contain key b = true ↔ b ∈ lists key := by
  rw [← h.toList key, BlockHashToBlockMap.contain]
  rcases cache key with - | b' | blocks
  · simp
  · simp [CacheEntry.toList, eq_comm]
  · simp [CacheEntry.toList]

variable [DecidableEq η]

/-- The map, with another entry under a key. -/
theorem update (h : Represents cache lists) (key : BlockHashWithGroupId η)
    {entry : Option CacheEntry} {blocks : List Nat}
    (hentry : entry.elim [] CacheEntry.toList = blocks) (hnodup : blocks.Nodup)
    (hnonempty : ∀ blocks, entry = some (.dict blocks) → blocks ≠ []) :
    Represents (Function.update cache key entry) (Function.update lists key blocks) := by
  refine ⟨fun k => ?_, fun k => ?_, fun k => ?_⟩
  · by_cases hk : k = key
    · subst hk
      rw [Function.update_self, Function.update_self, hentry]
    · rw [Function.update_of_ne hk, Function.update_of_ne hk]
      exact h.toList k
  · by_cases hk : k = key
    · subst hk
      rw [Function.update_self]
      exact hnodup
    · rw [Function.update_of_ne hk]
      exact h.nodup k
  · by_cases hk : k = key
    · subst hk
      rw [Function.update_self]
      exact hnonempty
    · rw [Function.update_of_ne hk]
      exact h.nonempty k

/-- **Insertion.** -/
theorem insert (h : Represents cache lists) (key : BlockHashWithGroupId η) (b : Nat) :
    Represents (cache.insert key b) (insertKey key b lists) := by
  have hlist := h.toList key
  rw [BlockHashToBlockMap.insert, insertKey]
  cases hentry : cache key with
  | none =>
    rw [hentry] at hlist
    have hnone : lists key = [] := hlist.symm
    rw [hnone]
    exact h.update key rfl (List.nodup_singleton b) nofun
  | some entry =>
    rw [hentry] at hlist
    cases entry with
    | block b' =>
      have hone : lists key = [b'] := hlist.symm
      rw [hone]
      by_cases hsame : b' = b
      · subst hsame
        simp only [if_pos, List.mem_cons_self]
        exact h.update key rfl (List.nodup_singleton b') (by simp)
      · have hnot : b ∉ [b'] := fun hmem => hsame (List.mem_singleton.1 hmem).symm
        simp only [if_neg hsame, if_neg hnot]
        exact h.update key rfl (by simpa using hsame) (by simp)
    | dict blocks =>
      have hdict : lists key = blocks := hlist.symm
      have hnodup : blocks.Nodup := hdict ▸ h.nodup key
      rw [hdict]
      by_cases hmem : b ∈ blocks
      · simp only [if_pos hmem]
        exact h.update key rfl hnodup fun _ hsame => by
          cases hsame
          exact List.ne_nil_of_mem hmem
      · simp only [if_neg hmem]
        refine h.update key rfl ?_ (by simp)
        exact List.nodup_append.2 ⟨hnodup, List.nodup_singleton b, fun x hx y hy => by
          rw [List.mem_singleton.1 hy]
          exact fun heq => hmem (heq ▸ hx)⟩

/-- **Removal**: the block is returned if it was under the key. -/
theorem pop (h : Represents cache lists) (key : BlockHashWithGroupId η) (b : Nat) :
    (cache.pop key b).1 = (if b ∈ lists key then some b else none) ∧
      Represents (cache.pop key b).2 (Function.update lists key ((lists key).erase b)) := by
  have hlist := h.toList key
  have hkeep : (lists key).erase b = lists key → Represents cache
      (Function.update lists key ((lists key).erase b)) := by
    intro hsame
    rw [hsame, Function.update_eq_self]
    exact h
  rw [BlockHashToBlockMap.pop]
  cases hentry : cache key with
  | none =>
    rw [hentry] at hlist
    have hnone : lists key = [] := hlist.symm
    exact ⟨by simp [hnone], hkeep (by simp [hnone])⟩
  | some entry =>
    rw [hentry] at hlist
    cases entry with
    | block b' =>
      have hone : lists key = [b'] := hlist.symm
      by_cases hsame : b' = b
      · subst hsame
        rw [hone]
        simp only [if_pos]
        refine ⟨by simp, h.update key ?_ ?_ nofun⟩
        · simp
        · simp
      · dsimp only
        rw [if_neg hsame]
        have hnot : b ∉ lists key := by simpa [hone] using Ne.symm hsame
        exact ⟨by rw [if_neg hnot], hkeep (List.erase_of_not_mem hnot)⟩
    | dict blocks =>
      have hdict : lists key = blocks := hlist.symm
      have hnodup : (blocks.erase b).Nodup := by
        have hall := h.nodup key
        rw [hdict] at hall
        exact hall.erase b
      refine ⟨by rw [hdict], ?_⟩
      rw [hdict]
      by_cases hleft : 0 < (blocks.erase b).length
      · simp only [if_pos hleft]
        exact h.update key rfl hnodup fun _ hsame => by
          cases hsame
          exact List.ne_nil_of_length_pos hleft
      · simp only [if_neg hleft]
        have hempty : blocks.erase b = [] := List.length_eq_zero_iff.1 (by omega)
        exact h.update key hempty.symm hnodup nofun

end Represents

/-! ### Runs of the map -/

/-- What the pool does with the map. -/
inductive MapOp (η : Type) where
  | insert (key : BlockHashWithGroupId η) (b : Nat)
  | pop (key : BlockHashWithGroupId η) (b : Nat)
  | new

variable [DecidableEq η]

/-- An operation of the map. -/
def MapOp.apply : MapOp η → BlockHashToBlockMap η → BlockHashToBlockMap η
  | .insert key b, cache => cache.insert key b
  | .pop key b, cache => (cache.pop key b).2
  | .new, _ => fun _ => none

/-- The same on the lists. -/
def MapOp.applyLists : MapOp η → (BlockHashWithGroupId η → List Nat) →
    BlockHashWithGroupId η → List Nat
  | .insert key b, lists => insertKey key b lists
  | .pop key b, lists => Function.update lists key ((lists key).erase b)
  | .new, _ => fun _ => []

/-- **The map follows the lists**, over any sequence of operations. -/
theorem Represents.run {cache : BlockHashToBlockMap η} {lists : BlockHashWithGroupId η → List Nat}
    (h : Represents cache lists) (ops : List (MapOp η)) :
    Represents (ops.foldl (fun cache op => op.apply cache) cache)
      (ops.foldl (fun lists op => op.applyLists lists) lists) := by
  induction ops generalizing cache lists with
  | nil => exact h
  | cons op ops ih =>
    refine ih ?_
    cases op with
    | insert key b => exact h.insert key b
    | pop key b => exact (h.pop key b).2
    | new => exact Represents.empty

/-- Lists that the operations of the map lead to, from an empty map. -/
def Reached (lists : BlockHashWithGroupId η → List Nat) : Prop :=
  ∃ ops : List (MapOp η), ops.foldl (fun lists op => op.applyLists lists) (fun _ => []) = lists

theorem Reached.apply {lists : BlockHashWithGroupId η → List Nat} (h : Reached lists)
    (op : MapOp η) : Reached (op.applyLists lists) := by
  obtain ⟨ops, rfl⟩ := h
  exact ⟨ops ++ [op], by rw [List.foldl_append]; rfl⟩

theorem Reached.popKeys {lists : BlockHashWithGroupId η → List Nat} (h : Reached lists) (b : Nat)
    (keys : List (BlockHashWithGroupId η)) : Reached (popKeys b keys lists).2 := by
  induction keys generalizing lists with
  | nil => exact h
  | cons key keys ih =>
    have hrest := ih (h.apply (.pop key b))
    rw [Kv.popKeys]
    split
    · exact hrest
    · exact hrest

/-- The map that the same operations lead to has their blocks. -/
theorem Reached.represents {lists : BlockHashWithGroupId η → List Nat} (h : Reached lists) :
    ∃ ops : List (MapOp η), Represents
      (ops.foldl (fun cache op => op.apply cache) fun _ => none) lists := by
  obtain ⟨ops, rfl⟩ := h
  exact ⟨ops, Represents.empty.run ops⟩

end Kv

end DgxSpark
