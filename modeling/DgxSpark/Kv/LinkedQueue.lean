import DgxSpark.Kv.FreeQueue
import DgxSpark.Lib.DoublyLinked

/-!
# The links of the free block queue

`FreeKVCacheBlockQueue` as the source has it: the blocks are linked to each other, between two
blocks of the queue's own that are never handed out, and a counter goes along. Every operation
rewrites links by hand.

What the queue stands for is a list of blocks (`DgxSpark.Kv.FreeKVCacheBlockQueue.WellFormed`),
and every operation does to it what the operation of `DgxSpark.Kv.QueueOp` does to the list
(`DgxSpark.Kv.step_wellFormed`), which is the queue of the block pool. So it goes on in every run
(`DgxSpark.Kv.free_queue_wellFormed`).
-/

namespace DgxSpark

namespace Kv

open DoublyLinked

/-! ### The queue -/

/-- What is linked: the two blocks of the queue, and the blocks of the pool. -/
inductive Node where
  | fakeHead
  | fakeTail
  | block (id : Nat)
  deriving DecidableEq, Repr

/-- What an operation raises. The last one is the model's own: a walk that does not come to the
end of the queue. -/
inductive QueueError where
  | valueError
  | assertionError
  | runtimeError
  | endless
  deriving DecidableEq, Repr

structure FreeKVCacheBlockQueue where
  numFreeBlocks : Int
  links : Links Node

/-- The blocks before they are in a queue. -/
def unlinked : Links Node :=
  ⟨fun _ => none, fun _ => none⟩

namespace FreeKVCacheBlockQueue

/-- `FreeKVCacheBlockQueue.__init__`: the blocks are linked to each other, then the ends. -/
def new (blocks : List Nat) : FreeKVCacheBlockQueue where
  numFreeBlocks := blocks.length
  links :=
    match blocks.head?, blocks.getLast? with
    | some first, some last =>
      ((unlinked.linkAlong (blocks.map .block)).link .fakeHead (.block first)).link (.block last)
        .fakeTail
    | _, _ => unlinked.link .fakeHead .fakeTail

/-- `popleft`. -/
def popleft (q : FreeKVCacheBlockQueue) : Except QueueError (List Node × FreeKVCacheBlockQueue) :=
  match q.links.next .fakeHead with
  | none | some .fakeTail =>
    if q.numFreeBlocks = 0 then .error .valueError else .error .assertionError
  | some firstBlock =>
    match q.links.next firstBlock with
    | none => .error .runtimeError
    | some second =>
      .ok ([firstBlock], ⟨q.numFreeBlocks - 1, (q.links.link .fakeHead second).clear firstBlock⟩)

/-- The loop of `popleft_n`: the blocks, where it comes to, and the links by then. -/
def takeBlocks : Nat → Option Node → Links Node →
    Except QueueError (List Node × Option Node × Links Node)
  | 0, currBlock, s => .ok ([], currBlock, s)
  | _ + 1, none, _ => .error .assertionError
  | n + 1, some currBlock, s => do
    let (ret, rest) ← takeBlocks n (s.next currBlock) (s.clear currBlock)
    return (currBlock :: ret, rest)

/-- `popleft_n`. -/
def popleftN (q : FreeKVCacheBlockQueue) (n : Nat) :
    Except QueueError (List Node × FreeKVCacheBlockQueue) :=
  if n = 0 then .ok ([], q)
  else if q.numFreeBlocks < n then .error .assertionError
  else do
    let (ret, currBlock, s) ← takeBlocks n (q.links.next .fakeHead) q.links
    return (ret, ⟨q.numFreeBlocks - n, currBlock.elim s fun b => s.link .fakeHead b⟩)

/-- The loop of `popleft_n_where`, which takes a step for each block that it looks at. -/
def takeWhere (predicate : Node → Bool) :
    Nat → Nat → Option Node → Links Node → Except QueueError (List Node × Links Node)
  | 0, _, _, _ => .error .endless
  | _ + 1, 0, _, s => .ok ([], s)
  | _ + 1, _ + 1, some .fakeTail, s => .ok ([], s)
  | _ + 1, _ + 1, none, _ => .error .assertionError
  | steps + 1, n + 1, some currBlock, s =>
    if predicate currBlock then
      -- unlink the block from the list
      match s.prev currBlock, s.next currBlock with
      | some prevBlock, some nextBlock => do
        let (ret, s) ← takeWhere predicate steps n (some nextBlock)
          ((s.link prevBlock nextBlock).clear currBlock)
        return (currBlock :: ret, s)
      | _, _ => .error .assertionError
    else takeWhere predicate steps (n + 1) (s.next currBlock) s

/-- `popleft_n_where`. The walk ends at the end of the queue at the latest. -/
def popleftNWhere (q : FreeKVCacheBlockQueue) (n : Nat) (predicate : Node → Bool) :
    Except QueueError (List Node × FreeKVCacheBlockQueue) :=
  if n = 0 then .ok ([], q)
  else do
    let (ret, s) ← takeWhere predicate (q.numFreeBlocks.toNat + 1) n (q.links.next .fakeHead)
      q.links
    return (ret, ⟨q.numFreeBlocks - ret.length, s⟩)

/-- `remove`. -/
def remove (q : FreeKVCacheBlockQueue) (block : Node) :
    Except QueueError FreeKVCacheBlockQueue :=
  match q.links.prev block, q.links.next block with
  | some prevBlock, some nextBlock =>
    .ok ⟨q.numFreeBlocks - 1, (q.links.link prevBlock nextBlock).clear block⟩
  | _, _ => .error .runtimeError

/-- `append`. -/
def append (q : FreeKVCacheBlockQueue) (block : Node) : Except QueueError FreeKVCacheBlockQueue :=
  match q.links.prev .fakeTail with
  | none => .error .runtimeError
  | some lastBlock =>
    .ok ⟨q.numFreeBlocks + 1, (q.links.link lastBlock block).link block .fakeTail⟩

/-- `prepend_n`: the blocks are linked one after the other behind the head, and the last one with
what was first. -/
def prependN (q : FreeKVCacheBlockQueue) (blocks : List Node) :
    Except QueueError FreeKVCacheBlockQueue :=
  if blocks.length = 0 then .ok q
  else match q.links.next .fakeHead with
    | none => .error .assertionError
    | some firstBlock =>
      .ok ⟨q.numFreeBlocks + blocks.length,
        q.links.linkAlong (.fakeHead :: (blocks ++ [firstBlock]))⟩

/-- `append_n`: the blocks are linked one after the other behind what was last, and the last one
with the tail. -/
def appendN (q : FreeKVCacheBlockQueue) (blocks : List Node) :
    Except QueueError FreeKVCacheBlockQueue :=
  if blocks.length = 0 then .ok q
  else match q.links.prev .fakeTail with
    | none => .error .assertionError
    | some lastBlock =>
      .ok ⟨q.numFreeBlocks + blocks.length,
        q.links.linkAlong (lastBlock :: (blocks ++ [.fakeTail]))⟩

end FreeKVCacheBlockQueue

/-! ### Runs, of the queue and of the list -/

/-- An operation of the queue. -/
inductive QueueOp where
  | popleft
  | popleftN (n : Nat)
  | popleftNWhere (n : Nat) (predicate : Node → Bool)
  | remove (block : Nat)
  | append (block : Nat)
  | prependN (blocks : List Nat)
  | appendN (blocks : List Nat)

namespace QueueOp

/-- The operation on the queue: the blocks that it returns, and the queue. -/
def step (q : FreeKVCacheBlockQueue) :
    QueueOp → Except QueueError (List Node × FreeKVCacheBlockQueue)
  | popleft => q.popleft
  | popleftN n => q.popleftN n
  | popleftNWhere n predicate => q.popleftNWhere n predicate
  | remove b => (q.remove (.block b)).map ([], ·)
  | append b => (q.append (.block b)).map ([], ·)
  | prependN bs => (q.prependN (bs.map .block)).map ([], ·)
  | appendN bs => (q.appendN (bs.map .block)).map ([], ·)

/-- The operation on a list of blocks: the blocks that it returns, and the list. -/
def onList (l : List Nat) : QueueOp → Except QueueError (List Nat × List Nat)
  | popleft =>
    match l with
    | [] => .error .valueError
    | b :: l => .ok ([b], l)
  | popleftN n => if l.length < n then .error .assertionError else .ok (Kv.popleftN n l)
  | popleftNWhere n predicate => .ok (Kv.popleftNWhere (fun b => predicate (.block b)) n l)
  | remove b => .ok ([], l.erase b)
  | append b => .ok ([], l ++ [b])
  | prependN bs => .ok ([], Kv.prependN bs l)
  | appendN bs => .ok ([], Kv.appendN bs l)

/-- What the callers keep to: they remove blocks of the queue, and put in different blocks that
are not in it. -/
def Legal (l : List Nat) : QueueOp → Prop
  | remove b => b ∈ l
  | append b => b ∉ l
  | prependN bs | appendN bs => bs.Nodup ∧ ∀ b ∈ bs, b ∉ l
  | _ => True

end QueueOp

/-- The list after an operation: one that raises leaves it as it was. -/
def listAfter (l : List Nat) (op : QueueOp) : List Nat :=
  match op.onList l with
  | .ok out => out.2
  | .error _ => l

/-- The queue after an operation: one that raises leaves it as it was. -/
def queueAfter (q : FreeKVCacheBlockQueue) (op : QueueOp) : FreeKVCacheBlockQueue :=
  match op.step q with
  | .ok out => out.2
  | .error _ => q

/-- A run whose operations keep to what is legal. -/
def LegalRun : List QueueOp → List Nat → Prop
  | [], _ => True
  | op :: ops, l => op.Legal l ∧ LegalRun ops (listAfter l op)

/-- What the operations of a run return, or raise. -/
def queueResults : List QueueOp → FreeKVCacheBlockQueue → List (Except QueueError (List Node))
  | [], _ => []
  | op :: ops, q => (op.step q).map Prod.fst :: queueResults ops (queueAfter q op)

/-- What the operations of a run on a list return, or raise. -/
def listResults : List QueueOp → List Nat → List (Except QueueError (List Nat))
  | [], _ => []
  | op :: ops, l => (op.onList l).map Prod.fst :: listResults ops (listAfter l op)

/-! ### What a queue stands for -/

/-- **A well-formed queue**: the blocks of a list lie between its two ends, and they are
counted. -/
structure FreeKVCacheBlockQueue.WellFormed (q : FreeKVCacheBlockQueue) (l : List Nat) : Prop where
  count : q.numFreeBlocks = l.length
  linked : Between .fakeHead .fakeTail q.links (l.map .block)

section Links

variable {q : FreeKVCacheBlockQueue} {l : List Nat} {s : Links Node}

theorem block_injective : Function.Injective Node.block :=
  fun _ _ h => Node.block.inj h

theorem mem_nodes_iff {b : Nat} : Node.block b ∈ Node.fakeHead :: (l.map .block ++ [.fakeTail]) ↔
    b ∈ l := by
  simp

theorem nodup_nodes_iff : (Node.fakeHead :: (l.map .block ++ [.fakeTail])).Nodup ↔ l.Nodup := by
  simp [List.nodup_append, List.nodup_map_iff block_injective]

theorem nodup_of_between (h : Between .fakeHead .fakeTail s (l.map .block)) : l.Nodup :=
  nodup_nodes_iff.1 h.nodup

/-- **The queue of the constructor** has its blocks in order. -/
theorem new_wellFormed {blocks : List Nat} (hnodup : blocks.Nodup) :
    (FreeKVCacheBlockQueue.new blocks).WellFormed blocks := by
  refine ⟨rfl, ?_⟩
  have hnodes := nodup_nodes_iff.2 hnodup
  have hbetween := between_linkAlong hnodes
  suffices hlinks : (FreeKVCacheBlockQueue.new blocks).links =
      unlinked.linkAlong (.fakeHead :: (blocks.map .block ++ [.fakeTail])) by
    rw [hlinks]
    exact hbetween
  rcases List.eq_nil_or_concat blocks with rfl | ⟨front, last, rfl⟩
  · rfl
  · have hlast : (front.concat last).getLast? = some last := by simp
    obtain ⟨first, hfirst⟩ : ∃ first, (front.concat last).head? = some first := by
      cases front <;> simp
    obtain ⟨rest, hrest⟩ := List.head?_eq_some_iff.1 hfirst
    simp only [FreeKVCacheBlockQueue.new, hfirst, hlast]
    -- the source links the ends last; the head comes first here
    have hcommute : (unlinked.linkAlong ((front.concat last).map .block)).link .fakeHead
        (.block first) = unlinked.linkAlong (.fakeHead :: (front.concat last).map .block) := by
      rw [hrest] at hnodup ⊢
      rw [Links.linkAlong_link, List.map_cons]
      · rfl
      · intro hmem
        simpa using (List.dropLast_sublist _).subset hmem
      · simpa using (List.nodup_cons.1 hnodup).1
    rw [hcommute]
    simp only [List.concat_eq_append, List.map_append, List.map_cons, List.map_nil,
      List.append_assoc, List.singleton_append]
    exact (Links.linkAlong_concat (Node.fakeHead :: front.map Node.block) _ _ _).symm

/-- Taking out a block that is linked. -/
theorem unlink_block (l₁ : List Nat) {l₂ : List Nat} {b : Nat}
    (h : Between .fakeHead .fakeTail s ((l₁ ++ b :: l₂).map .block)) :
    ∃ prevBlock nextBlock, s.prev (.block b) = some prevBlock ∧
      s.next (.block b) = some nextBlock ∧
      Between .fakeHead .fakeTail ((s.link prevBlock nextBlock).clear (.block b))
        ((l₁ ++ l₂).map .block) := by
  rw [List.map_append, List.map_cons] at h
  rw [List.map_append]
  exact h.unlink

/-! ### The pops -/

theorem popleft_spec (h : q.WellFormed l) :
    match l with
    | [] => q.popleft = .error .valueError
    | b :: l => ∃ q', q.popleft = .ok ([.block b], q') ∧ q'.WellFormed l := by
  have hnext := h.linked.next_first
  cases l with
  | nil => simp [FreeKVCacheBlockQueue.popleft, hnext, h.count]
  | cons b l =>
    obtain ⟨prevBlock, nextBlock, hprev, hnextBlock, hrest⟩ := unlink_block [] h.linked
    -- before the first block is the head
    have hhead : prevBlock = .fakeHead := by
      have hback := h.linked.next_iff_prev.1 (hnext.trans rfl)
      exact Option.some.inj (hprev.symm.trans hback)
    subst hhead
    refine ⟨⟨q.numFreeBlocks - 1, (q.links.link .fakeHead nextBlock).clear (.block b)⟩, ?_, ?_,
      hrest⟩
    · simp only [FreeKVCacheBlockQueue.popleft, hnext, List.map_cons, List.cons_append,
        List.head?_cons, hnextBlock]
    · simp only [h.count, List.length_cons]
      omega

/-- The loop of `popleft_n` along a chain. -/
theorem takeBlocks_chain {m rest : List Node} {a b : Node}
    (hhead : (m ++ [b]).head? = some a) (hchain : s.Chained (m ++ b :: rest))
    (hnodup : (m ++ b :: rest).Nodup) :
    FreeKVCacheBlockQueue.takeBlocks m.length (some a) s = .ok (m, some b, s.clearAll m) := by
  induction m generalizing a s with
  | nil =>
    obtain rfl := Option.some.inj hhead
    rfl
  | cons x m ih =>
    obtain rfl := Option.some.inj hhead
    obtain ⟨hx, hnodup⟩ := List.nodup_cons.1 hnodup
    obtain ⟨a, hnext⟩ : ∃ a, (m ++ [b]).head? = some a := by
      cases m <;> simp
    have hxa : s.next x = some a := by
      cases m with
      | nil =>
        rw [← hnext]
        exact (List.isChain_cons_cons.1 hchain).1.1
      | cons y m =>
        rw [← hnext]
        exact (List.isChain_cons_cons.1 hchain).1.1
    have htail : s.Chained (m ++ b :: rest) := List.IsChain.tail hchain
    have hcleared : (s.clear x).Chained (m ++ b :: rest) := by
      refine Links.Chained.congr htail (fun y hy => ?_) fun y hy => ?_
      · have hy' : y ∈ m ++ b :: rest := (List.dropLast_sublist _).subset hy
        exact Links.clear_next_of_ne (ne_of_mem_of_not_mem hy' hx) _
      · have hy' : y ∈ m ++ b :: rest := List.mem_of_mem_tail hy
        exact Links.clear_prev_of_ne (ne_of_mem_of_not_mem hy' hx) _
    rw [List.length_cons, FreeKVCacheBlockQueue.takeBlocks, hxa, ih hnext hcleared hnodup]
    rfl

theorem popleftN_spec (h : q.WellFormed l) (n : Nat) :
    if l.length < n then q.popleftN n = .error .assertionError
    else ∃ q', q.popleftN n = .ok ((l.take n).map .block, q') ∧ q'.WellFormed (l.drop n) := by
  by_cases hzero : n = 0
  · subst hzero
    rw [if_neg (Nat.not_lt_zero _)]
    exact ⟨q, rfl, h⟩
  split
  · rename_i hlt
    rw [FreeKVCacheBlockQueue.popleftN, if_neg hzero, if_pos (by rw [h.count]; omega)]
  · rename_i hle
    have hsplit : l.map Node.block = (l.take n).map .block ++ (l.drop n).map .block := by
      rw [← List.map_append, List.take_append_drop]
    have hlinked := h.linked
    rw [hsplit] at hlinked
    obtain ⟨b, hb⟩ : ∃ b, ((l.drop n).map Node.block ++ [Node.fakeTail]).head? = some b := by
      cases l.drop n <;> simp
    obtain ⟨rest, hrest⟩ := List.head?_eq_some_iff.1 hb
    obtain ⟨a, ha⟩ : ∃ a, ((l.take n).map Node.block ++ [b]).head? = some a := by
      cases l.take n <;> simp
    have hnodes : (l.take n).map Node.block ++ (l.drop n).map .block ++ [.fakeTail] =
        (l.take n).map .block ++ b :: rest := by
      rw [List.append_assoc, hrest]
    have hfirst : q.links.next .fakeHead = some a := by
      rw [hlinked.next_first, hnodes, ← ha]
      cases l.take n <;> simp
    have hchain := hlinked.chained
    have hnodup := hlinked.nodup
    rw [hnodes] at hchain hnodup
    have htake := takeBlocks_chain ha (List.IsChain.tail hchain) (List.nodup_cons.1 hnodup).2
    have hlength : ((l.take n).map Node.block).length = n := by
      rw [List.length_map, List.length_take]
      omega
    rw [hlength] at htake
    refine ⟨⟨q.numFreeBlocks - n, (q.links.clearAll ((l.take n).map .block)).link .fakeHead b⟩,
      ?_, ?_, hlinked.clearFirst hb⟩
    · rw [FreeKVCacheBlockQueue.popleftN, if_neg hzero, if_neg (by rw [h.count]; omega), hfirst,
        htake]
      rfl
    · simp only [h.count, List.length_drop]
      omega

/-- The walk of `popleft_n_where`, in the middle of the queue. -/
theorem takeWhere_spec (predicate : Node → Bool) (steps n : Nat) (kept : List Nat)
    {rest : List Nat} (hsteps : rest.length < steps)
    (h : Between .fakeHead .fakeTail s ((kept ++ rest).map .block)) :
    ∃ s', FreeKVCacheBlockQueue.takeWhere predicate steps n
        ((rest.map Node.block ++ [Node.fakeTail]).head?) s =
          .ok ((Kv.popleftNWhere (fun b => predicate (.block b)) n rest).1.map .block, s') ∧
      Between .fakeHead .fakeTail s'
        ((kept ++ (Kv.popleftNWhere (fun b => predicate (.block b)) n rest).2).map .block) := by
  induction rest generalizing steps n kept s with
  | nil =>
    obtain ⟨steps, rfl⟩ : ∃ k, steps = k + 1 := ⟨steps - 1, by omega⟩
    cases n <;> exact ⟨s, rfl, by simpa [Kv.popleftNWhere] using h⟩
  | cons b rest ih =>
    obtain ⟨steps, rfl⟩ : ∃ k, steps = k + 1 := ⟨steps - 1, by omega⟩
    rw [List.length_cons] at hsteps
    cases n with
    | zero => exact ⟨s, rfl, h⟩
    | succ n =>
      have hnext : s.next (.block b) = (rest.map Node.block ++ [Node.fakeTail]).head? := by
        have h' := h
        rw [List.map_append, List.map_cons] at h'
        exact h'.next_mid
      by_cases hp : predicate (.block b) = true
      · obtain ⟨prevBlock, nextBlock, hprev, hnextBlock, hbetween⟩ := unlink_block kept h
        obtain ⟨s', hwalk, hs'⟩ := ih steps n kept (by omega) hbetween
        rw [← hnext, hnextBlock] at hwalk
        refine ⟨s', ?_, ?_⟩
        · simp only [List.map_cons, List.cons_append, List.head?_cons,
            FreeKVCacheBlockQueue.takeWhere, hp, if_true, hprev, hnextBlock, hwalk,
            Kv.popleftNWhere]
          rfl
        · simpa [Kv.popleftNWhere, hp] using hs'
      · -- a block that is passed over is kept
        have h' : Between .fakeHead .fakeTail s ((kept ++ [b] ++ rest).map .block) := by
          rwa [List.append_assoc, List.singleton_append]
        obtain ⟨s', hwalk, hs'⟩ := ih steps (n + 1) (kept ++ [b]) (by omega) h'
        refine ⟨s', ?_, ?_⟩
        · simp only [List.map_cons, List.cons_append, List.head?_cons,
            FreeKVCacheBlockQueue.takeWhere, hp, Bool.false_eq_true, if_false, hnext, hwalk,
            Kv.popleftNWhere]
        · simpa [Kv.popleftNWhere, hp] using hs'

theorem popleftNWhere_spec (h : q.WellFormed l) (n : Nat) (predicate : Node → Bool) :
    ∃ q', q.popleftNWhere n predicate =
        .ok ((Kv.popleftNWhere (fun b => predicate (.block b)) n l).1.map .block, q') ∧
      q'.WellFormed (Kv.popleftNWhere (fun b => predicate (.block b)) n l).2 := by
  by_cases hzero : n = 0
  · subst hzero
    refine ⟨q, ?_, ?_⟩
    · cases l <;> rfl
    · cases l <;> exact h
  · have hsteps : l.length < q.numFreeBlocks.toNat + 1 := by
      rw [h.count]
      omega
    obtain ⟨s', hwalk, hs'⟩ := takeWhere_spec predicate _ n [] hsteps h.linked
    refine ⟨⟨q.numFreeBlocks -
      (Kv.popleftNWhere (fun b => predicate (.block b)) n l).1.length, s'⟩, ?_, ?_, hs'⟩
    · rw [FreeKVCacheBlockQueue.popleftNWhere, if_neg hzero, h.linked.next_first, hwalk]
      simp only [bind, Except.bind, pure, Except.pure, List.length_map]
    · -- the two parts of the pop are the whole list
      have hlength := Kv.length_popleftNWhere (fun b => predicate (.block b)) n l
      simp only [h.count]
      omega

/-! ### Taking out and putting in -/

theorem remove_spec (h : q.WellFormed l) {b : Nat} (hb : b ∈ l) :
    ∃ q', q.remove (.block b) = .ok q' ∧ q'.WellFormed (l.erase b) := by
  obtain ⟨l₁, l₂, -, rfl, herase⟩ := List.exists_erase_eq hb
  obtain ⟨prevBlock, nextBlock, hprev, hnext, hrest⟩ := unlink_block l₁ h.linked
  rw [herase]
  refine ⟨⟨q.numFreeBlocks - 1, (q.links.link prevBlock nextBlock).clear (.block b)⟩, ?_, ?_,
    hrest⟩
  · simp only [FreeKVCacheBlockQueue.remove, hprev, hnext]
  · simp only [h.count, List.length_append, List.length_cons]
    omega

/-- The blocks that are put in are loose. -/
theorem notMem_nodes {bs : List Nat} (h : ∀ b ∈ bs, b ∉ l) :
    ∀ x ∈ bs.map Node.block, x ∉ Node.fakeHead :: (l.map .block ++ [.fakeTail]) := by
  intro x hx
  obtain ⟨b, hb, rfl⟩ := List.mem_map.1 hx
  rw [mem_nodes_iff]
  exact h b hb

theorem prependN_spec (h : q.WellFormed l) {bs : List Nat} (hnodup : bs.Nodup)
    (hfresh : ∀ b ∈ bs, b ∉ l) :
    ∃ q', q.prependN (bs.map .block) = .ok q' ∧ q'.WellFormed (Kv.prependN bs l) := by
  by_cases hempty : (bs.map Node.block).length = 0
  · have hnil : bs = [] := by simpa using hempty
    subst hnil
    exact ⟨q, rfl, h⟩
  obtain ⟨b, hb⟩ : ∃ b, (l.map Node.block ++ [Node.fakeTail]).head? = some b := by
    cases l <;> simp
  obtain ⟨rest, hrest⟩ := List.head?_eq_some_iff.1 hb
  have hlinked : Between .fakeHead .fakeTail q.links ([] ++ l.map .block) := h.linked
  have hleft : Node.fakeHead :: [] = [] ++ [Node.fakeHead] := rfl
  have hlinks := hlinked.insert hleft hrest (hnodup.map block_injective) (notMem_nodes hfresh)
  refine ⟨⟨q.numFreeBlocks + (bs.map Node.block).length,
    q.links.linkAlong (.fakeHead :: (bs.map .block ++ [b]))⟩, ?_, ?_, ?_⟩
  · rw [FreeKVCacheBlockQueue.prependN, if_neg hempty, h.linked.next_first, hb]
  · simp only [h.count, Kv.prependN, List.length_append, List.length_map]
    omega
  · rw [Kv.prependN, List.map_append]
    exact hlinks

/-- Putting blocks in at the end, one or more. -/
theorem appendAlong (bs : List Nat) (h : q.WellFormed l) (hnodup : bs.Nodup)
    (hfresh : ∀ b ∈ bs, b ∉ l) :
    ∃ lastBlock, q.links.prev .fakeTail = some lastBlock ∧
      Between .fakeHead .fakeTail
        (q.links.linkAlong (lastBlock :: (bs.map .block ++ [.fakeTail])))
        ((Kv.appendN bs l).map .block) := by
  obtain ⟨m₁, a, hleft⟩ : ∃ m₁ a, Node.fakeHead :: l.map .block = m₁ ++ [a] :=
    ⟨_, _, (List.dropLast_append_getLast (List.cons_ne_nil _ _)).symm⟩
  have hend : Node.fakeHead :: (l.map .block ++ [.fakeTail]) = m₁ ++ a :: .fakeTail :: [] := by
    rw [← List.cons_append, hleft]
    simp
  have hadjacent := h.linked.adjacent hend
  have hlinked : Between .fakeHead .fakeTail q.links (l.map .block ++ []) := by
    rw [List.append_nil]
    exact h.linked
  have hfresh' : ∀ x ∈ bs.map Node.block,
      x ∉ Node.fakeHead :: (l.map .block ++ [] ++ [.fakeTail]) := by
    rw [List.append_nil]
    exact notMem_nodes hfresh
  have hright : [] ++ [Node.fakeTail] = Node.fakeTail :: [] := rfl
  have hlinks := hlinked.insert hleft hright (hnodup.map block_injective) hfresh'
  refine ⟨a, hadjacent.2, ?_⟩
  rw [Kv.appendN, List.map_append]
  rwa [List.append_nil] at hlinks

theorem appendN_spec (h : q.WellFormed l) {bs : List Nat} (hnodup : bs.Nodup)
    (hfresh : ∀ b ∈ bs, b ∉ l) :
    ∃ q', q.appendN (bs.map .block) = .ok q' ∧ q'.WellFormed (Kv.appendN bs l) := by
  by_cases hempty : (bs.map Node.block).length = 0
  · have hnil : bs = [] := by simpa using hempty
    subst hnil
    exact ⟨q, rfl, by rwa [Kv.appendN, List.append_nil]⟩
  obtain ⟨lastBlock, hlast, hlinks⟩ := appendAlong bs h hnodup hfresh
  refine ⟨⟨q.numFreeBlocks + (bs.map Node.block).length, _⟩, ?_, ?_, hlinks⟩
  · rw [FreeKVCacheBlockQueue.appendN, if_neg hempty, hlast]
  · simp only [h.count, Kv.appendN, List.length_append, List.length_map]
    omega

theorem append_spec (h : q.WellFormed l) {b : Nat} (hb : b ∉ l) :
    ∃ q', q.append (.block b) = .ok q' ∧ q'.WellFormed (l ++ [b]) := by
  obtain ⟨lastBlock, hlast, hlinks⟩ := appendAlong [b] h (List.nodup_singleton b)
    (by simpa using hb)
  refine ⟨⟨q.numFreeBlocks + 1, _⟩, ?_, ?_, hlinks⟩
  · rw [FreeKVCacheBlockQueue.append, hlast]
    rfl
  · simp only [h.count, List.length_append, List.length_singleton]
    omega

/-! ### Runs -/

/-- **One operation**: the queue does what the list does. -/
theorem step_wellFormed (h : q.WellFormed l) {op : QueueOp} (hlegal : op.Legal l) :
    (op.step q).map Prod.fst = (op.onList l).map (fun out => out.1.map Node.block) ∧
      (queueAfter q op).WellFormed (listAfter l op) := by
  have hok : ∀ {ret : List Nat} {l' : List Nat} {q' : FreeKVCacheBlockQueue},
      op.onList l = .ok (ret, l') → op.step q = .ok (ret.map .block, q') → q'.WellFormed l' →
      (op.step q).map Prod.fst = (op.onList l).map (fun out => out.1.map Node.block) ∧
        (queueAfter q op).WellFormed (listAfter l op) := by
    intro ret l' q' hlist hstep hwell
    rw [queueAfter, listAfter, hlist, hstep]
    exact ⟨rfl, hwell⟩
  have herror : ∀ {e : QueueError}, op.onList l = .error e → op.step q = .error e →
      (op.step q).map Prod.fst = (op.onList l).map (fun out => out.1.map Node.block) ∧
        (queueAfter q op).WellFormed (listAfter l op) := by
    intro e hlist hstep
    rw [queueAfter, listAfter, hlist, hstep]
    exact ⟨rfl, h⟩
  cases op with
  | popleft =>
    have hspec := popleft_spec h
    cases l with
    | nil => exact herror rfl hspec
    | cons b l =>
      obtain ⟨q', hstep, hwell⟩ := hspec
      exact hok rfl hstep hwell
  | popleftN n =>
    have hspec := popleftN_spec h n
    split at hspec
    · rename_i hlt
      exact herror (if_pos hlt) hspec
    · rename_i hle
      obtain ⟨q', hstep, hwell⟩ := hspec
      exact hok (if_neg hle) hstep hwell
  | popleftNWhere n predicate =>
    obtain ⟨q', hstep, hwell⟩ := popleftNWhere_spec h n predicate
    exact hok rfl hstep hwell
  | remove b =>
    obtain ⟨q', hstep, hwell⟩ := remove_spec h hlegal
    exact hok rfl (by rw [QueueOp.step, hstep]; rfl) hwell
  | append b =>
    obtain ⟨q', hstep, hwell⟩ := append_spec h hlegal
    exact hok rfl (by rw [QueueOp.step, hstep]; rfl) hwell
  | prependN bs =>
    obtain ⟨q', hstep, hwell⟩ := prependN_spec h hlegal.1 hlegal.2
    exact hok rfl (by rw [QueueOp.step, hstep]; rfl) hwell
  | appendN bs =>
    obtain ⟨q', hstep, hwell⟩ := appendN_spec h hlegal.1 hlegal.2
    exact hok rfl (by rw [QueueOp.step, hstep]; rfl) hwell

/-- **A run**: by induction on its operations. -/
theorem run_wellFormed (h : q.WellFormed l) {ops : List QueueOp} (hlegal : LegalRun ops l) :
    queueResults ops q = (listResults ops l).map (fun out => out.map (·.map Node.block)) ∧
      (ops.foldl queueAfter q).WellFormed (ops.foldl listAfter l) := by
  induction ops generalizing q l with
  | nil => exact ⟨rfl, h⟩
  | cons op ops ih =>
    obtain ⟨hresult, hwell⟩ := step_wellFormed h hlegal.1
    obtain ⟨hresults, hrest⟩ := ih hwell hlegal.2
    refine ⟨?_, hrest⟩
    rw [queueResults, listResults, List.map_cons, hresults, hresult]
    cases op.onList l <;> rfl

/-- **The free queue is a well-formed list** in every run: it stands for the list that the list
operations make, it is counted, forwards and backwards are the inverse of each other, what is not
in it is not linked, and the operations return what those on the list return. -/
theorem free_queue_wellFormed {blocks : List Nat} {ops : List QueueOp} (hnodup : blocks.Nodup)
    (hlegal : LegalRun ops blocks) :
    let q := ops.foldl queueAfter (.new blocks)
    let l := ops.foldl listAfter blocks
    q.WellFormed l ∧ l.Nodup ∧
      (∀ x y, q.links.next x = some y ↔ q.links.prev y = some x) ∧
      (∀ b, b ∉ l → q.links.next (.block b) = none ∧ q.links.prev (.block b) = none) ∧
      queueResults ops (.new blocks) =
        (listResults ops blocks).map fun out => out.map (·.map Node.block) := by
  obtain ⟨hresults, hwell⟩ := run_wellFormed (new_wellFormed hnodup) hlegal
  refine ⟨hwell, nodup_of_between hwell.linked, fun x y => hwell.linked.next_iff_prev,
    fun b hb => ?_, hresults⟩
  exact hwell.linked.loose _ fun hmem => hb (mem_nodes_iff.1 hmem)

/-- A run on three blocks: the middle one is picked and put back, the first one is popped, and
the middle one is removed. -/
def threeBlockRun : List QueueOp :=
  [.popleftNWhere 1 (· == .block 1), .append 1, .popleft, .remove 1]

theorem legalRun_threeBlocks : LegalRun threeBlockRun [0, 1, 2] :=
  ⟨trivial, (by decide : 1 ∉ [0, 2]), trivial, (by decide : 1 ∈ [2, 1]), trivial⟩

theorem free_queue_wellFormed_threeBlocks :
    LegalRun threeBlockRun [0, 1, 2] ∧
      (threeBlockRun.foldl queueAfter (.new [0, 1, 2])).WellFormed [2] :=
  ⟨legalRun_threeBlocks, (free_queue_wellFormed (by decide) legalRun_threeBlocks).1⟩

end Links

end Kv

end DgxSpark
