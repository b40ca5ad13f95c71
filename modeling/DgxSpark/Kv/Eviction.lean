import DgxSpark.Kv.Protection

/-!
# What an allocation evicts

The free queue has the blocks without a hash first: they are freed to its front, and the cached
ones to its end (`DgxSpark.Kv.EmptyFirst`). Taken in that order, no cached prefix would go while
an empty block is free.

An allocation does not take them in that order. It passes over the blocks that a session
protects, until there are no others, and a session protects all of its blocks, those without a
hash as well. So a cached block may go before an empty one, but then the cached one is not
protected, and the empty one is (`DgxSpark.Kv.eviction_order`).
-/

namespace DgxSpark

namespace Kv

variable {η : Type} [DecidableEq η]

/-! ### The order of the queue -/

/-- **The order of the queue**: the blocks without a hash come first. -/
def EmptyFirst (pool : BlockPool η) : Prop :=
  pool.freeBlockQueue.Pairwise fun a b =>
    (pool.blocks b).blockHash = none → (pool.blocks a).blockHash = none

section Order

variable {pool pool' : BlockPool η} {nowNs : Nat}

omit [DecidableEq η] in
/-- Fewer blocks, in the same order and with the same hashes. -/
theorem EmptyFirst.sublist (h : EmptyFirst pool)
    (hsub : pool'.freeBlockQueue.Sublist pool.freeBlockQueue)
    (hhash : ∀ b ∈ pool'.freeBlockQueue,
      (pool'.blocks b).blockHash = (pool.blocks b).blockHash) : EmptyFirst pool' := by
  refine (List.Pairwise.sublist hsub h).imp_of_mem fun ha hb hab hnone => ?_
  rw [hhash _ hb] at hnone
  rw [hhash _ ha]
  exact hab hnone

omit [DecidableEq η] in
/-- Empty blocks in front, cached ones behind. -/
theorem EmptyFirst.around {front back : List Nat} (h : EmptyFirst pool)
    (hqueue : pool'.freeBlockQueue = front ++ pool.freeBlockQueue ++ back)
    (hhash : ∀ b, (pool'.blocks b).blockHash = (pool.blocks b).blockHash)
    (hfront : ∀ b ∈ front, (pool.blocks b).blockHash = none)
    (hback : ∀ b ∈ back, (pool.blocks b).blockHash ≠ none) : EmptyFirst pool' := by
  rw [EmptyFirst, hqueue]
  simp only [hhash]
  have hlater : ∀ {l : List Nat}, (∀ b ∈ l, (pool.blocks b).blockHash ≠ none) →
      l.Pairwise fun a b => (pool.blocks b).blockHash = none → (pool.blocks a).blockHash = none :=
    fun hl => List.pairwise_of_forall_mem_list fun a _ b hb hnone => absurd hnone (hl b hb)
  have hempty : ∀ {l : List Nat}, (∀ b ∈ l, (pool.blocks b).blockHash = none) →
      l.Pairwise fun a b => (pool.blocks b).blockHash = none → (pool.blocks a).blockHash = none :=
    fun hl => List.pairwise_of_forall_mem_list fun a ha b _ _ => hl a ha
  refine List.pairwise_append.2 ⟨List.pairwise_append.2 ⟨hempty hfront, h, ?_⟩, hlater hback, ?_⟩
  · intro a ha b _ _
    exact hfront a ha
  · intro a _ b hb hnone
    exact absurd hnone (hback b hb)

omit [DecidableEq η] in
/-- A change to a block that is not in the queue. -/
theorem EmptyFirst.of_held {b : Nat} (h : EmptyFirst pool)
    (hqueue : pool'.freeBlockQueue = pool.freeBlockQueue) (hb : b ∉ pool.freeBlockQueue)
    (hothers : ∀ x, x ≠ b → pool'.blocks x = pool.blocks x) : EmptyFirst pool' := by
  refine h.sublist (by rw [hqueue]) fun x hx => ?_
  rw [hqueue] at hx
  rw [hothers x (ne_of_mem_of_not_mem hx hb)]

/-- The operation takes no hash from a block of the queue by itself. -/
def SparesQueue (op : Op η) (before _ : BlockPool η) : Prop :=
  (∀ b, op = .removeCachedBlockHashes b → b ∉ before.freeBlockQueue) ∧
    ∀ blockIds, op = .evictBlocks blockIds → ∀ b ∈ blockIds, b ∉ before.freeBlockQueue

/-- Blocks out of the queue are evicted. -/
theorem evictBlocks_emptyFirst {blockIds : List Nat}
    (h : evictBlocks blockIds pool = .ok pool')
    (hheld : ∀ b ∈ blockIds, b ∉ pool.freeBlockQueue) (ho : EmptyFirst pool) :
    EmptyFirst pool' := by
  induction blockIds generalizing pool with
  | nil =>
    obtain rfl := Except.ok.inj h
    exact ho
  | cons b rest ih =>
    simp only [evictBlocks] at h
    split at h
    · have hspec := removeCachedBlockHashes_spec b pool
      refine ih h (fun x hx => ?_) (ho.of_held hspec.queue (hheld b List.mem_cons_self)
        fun x hx => (hspec.others x hx).1)
      rw [maybeEvictCachedBlock, hspec.queue]
      exact hheld x (List.mem_cons_of_mem b hx)
    · cases h

/-- Expired blocks come to the front and are empty there; the others have what they had. -/
theorem expireCachedBlocks_emptyFirst {n : Nat} (h : expireCachedBlocks nowNs pool = .ok (n, pool'))
    (hi : Tidy pool ∧ Covered pool) (ho : EmptyFirst pool) : EmptyFirst pool' := by
  cases htimeout : pool.prefixCacheIdleTimeoutNs with
  | none =>
    rw [expireCachedBlocks_none nowNs htimeout] at h
    obtain ⟨rfl, rfl⟩ := Prod.mk.inj (Except.ok.inj h)
    exact ho
  | some timeoutNs =>
    obtain ⟨q, hok, hexpired, hqueue⟩ :=
      expireCachedBlocks_order nowNs htimeout hi.1.nodup (hi.2 timeoutNs htimeout)
    obtain ⟨rfl, rfl⟩ := Prod.mk.inj (Except.ok.inj (h.symm.trans hok))
    have hgone : ∀ x ∈ pool.freeBlockQueue.filter
        (fun b => Due nowNs timeoutNs (pool.blocks b)), (pool'.blocks x).blockHash = none := by
      intro x hx
      obtain ⟨hmem, hdue⟩ := List.mem_filter.1 hx
      exact hexpired.gone x hmem (by simpa using hdue)
    have hkept : ∀ x ∈ pool.freeBlockQueue.filter
        (fun b => !decide (Due nowNs timeoutNs (pool.blocks b))),
        pool'.blocks x = pool.blocks x := by
      intro x hx
      have hnot := (List.mem_filter.1 hx).2
      exact (hexpired.kept x fun hdue => by simp [hdue.2] at hnot).1
    rw [EmptyFirst, hqueue]
    refine List.pairwise_append.2 ⟨?_, ?_, fun a ha b _ _ => hgone a ha⟩
    · exact List.pairwise_of_forall_mem_list fun a ha b _ _ => hgone a ha
    · refine (List.Pairwise.sublist List.filter_sublist ho).imp_of_mem
        fun {a b} ha hb hab hnone => ?_
      rw [hkept b hb] at hnone
      rw [hkept a ha]
      exact hab hnone

/-- **One operation** keeps the order of the queue. -/
theorem step_emptyFirst {op : Op η} (hop : op.Proper pool) (hspares : SparesQueue op pool pool')
    (h : step nowNs op pool = .ok pool') (hi : Tidy pool ∧ Covered pool)
    (hcache : pool.enableCaching = true) (ho : EmptyFirst pool) : EmptyFirst pool' := by
  cases op with
  | getNewBlocks numBlocks =>
    obtain ⟨⟨ret, q⟩, hget, rfl⟩ := except_map_eq_ok.1 h
    have halloc := (getNewBlocks_spec hi.1.nodup hget).2
    refine ho.sublist (by rw [halloc.queue]; exact List.filter_sublist) fun b hb => ?_
    rw [halloc.queue, List.mem_filter] at hb
    rw [halloc.others b (by simpa using hb.2)]
  | insertBlockHash key b numTokens =>
    have hspec := insertBlockHash_spec h
    have hb : b ∉ pool.freeBlockQueue := by
      intro hmem
      have hfree := ((hi.1.mem b).1 hmem).2.2
      have hheld := hop.2
      omega
    exact ho.of_held hspec.queue hb hspec.others
  | removeCachedBlockHashes b =>
    obtain rfl := Except.ok.inj h
    have hspec := removeCachedBlockHashes_spec b pool
    exact ho.of_held hspec.queue (hspares.1 b rfl) fun x hx => (hspec.others x hx).1
  | touch blocks =>
    refine touch_induction (fun b p q ht hp => ?_) h ho
    refine hp.sublist ?_ fun x _ => ?_
    · rcases ht.queue with ⟨-, -, -, hqueue⟩ | ⟨-, hqueue, -⟩
      · rw [hqueue]
        exact List.erase_sublist
      · rw [hqueue]
    · by_cases hx : x = b
      · rw [hx, ht.blockHash]
      · rw [ht.others x hx]
  | freeBlocks orderedBlocks =>
    obtain rfl := Except.ok.inj h
    obtain ⟨new, hfreed⟩ := freeBlocks_spec nowNs orderedBlocks pool
    refine ho.around (freeBlocks_queue nowNs orderedBlocks pool) hfreed.blockHash ?_ ?_
    · exact (release_spec pool.enableCaching orderedBlocks pool.blocks).withoutHash
    · rw [hcache]
      exact release_withHash orderedBlocks pool.blocks
  | evictBlocks blockIds => exact evictBlocks_emptyFirst h (hspares.2 blockIds rfl) ho
  | expireCachedBlocks =>
    obtain ⟨⟨n, q⟩, hexpire, rfl⟩ := except_map_eq_ok.1 h
    exact expireCachedBlocks_emptyFirst hexpire hi ho
  | resetPrefixCache =>
    obtain rfl := Except.ok.inj h
    simp only [resetPrefixCache]
    split
    · exact ho
    · refine List.pairwise_of_forall_mem_list fun a ha b _ _ => ?_
      have hlt := ((hi.1.mem a).1 ha).1
      simp only [if_pos hlt]
      rfl
  | stampSessionBlockProtection sessionId protectNs groups =>
    obtain rfl := Except.ok.inj h
    cases sessionId with
    | none => exact ho
    | some sessionId =>
      cases protectNs with
      | none => exact ho
      | some protectNs =>
        rw [stamp_eq]
        refine ho.sublist (.refl _) fun b _ => ?_
        simp only
        split <;> rfl

/-- **A run** that takes no hash from a block of the queue keeps its order. -/
theorem run_emptyFirst {t t' : Nat} (h : RunWhere SparesQueue t pool t' pool')
    (hi : Tidy pool ∧ Covered pool) (hcache : pool.enableCaching = true)
    (ho : EmptyFirst pool) : EmptyFirst pool' := by
  induction h with
  | refl => exact ho
  | step op hrun _ hop hstep hspares ih =>
    obtain ⟨hinv, hsetup⟩ := run_inv hrun.run hi
    exact step_emptyFirst hop hspares hstep hinv (hsetup.enableCaching.trans hcache)
      (ih hi hcache ho)

/-! ### What is taken first -/

omit [DecidableEq η] in
/-- Of two parts taken one after the other, each with the empty blocks first: when a cached block
is taken and an empty one is left, the cached one is of the first part and the empty one of the
second. -/
theorem take_of_emptyFirst {first second : List Nat} {n b x : Nat}
    {hash : Nat → Option (BlockHashWithGroupId η)}
    (hfirst : first.Pairwise fun a b => hash b = none → hash a = none)
    (hsecond : second.Pairwise fun a b => hash b = none → hash a = none)
    (hb : b ∈ (first ++ second).take n) (hcached : hash b ≠ none)
    (hx : x ∈ (first ++ second).drop n) (hempty : hash x = none) : b ∈ first ∧ x ∈ second := by
  rw [List.take_append] at hb
  rw [List.drop_append] at hx
  -- within a part what is left comes after what is taken
  have hpart : ∀ {l : List Nat} {k : Nat},
      l.Pairwise (fun a b => hash b = none → hash a = none) → b ∈ l.take k → x ∉ l.drop k := by
    intro l k hl hbl hxl
    rw [← List.take_append_drop k l] at hl
    exact hcached ((List.pairwise_append.1 hl).2.2 b hbl x hxl hempty)
  rcases List.mem_append.1 hb with hbf | hbs
  · refine ⟨List.mem_of_mem_take hbf, ?_⟩
    rcases List.mem_append.1 hx with hxf | hxs
    · exact absurd hxf (hpart hfirst hbf)
    · exact List.mem_of_mem_drop hxs
  · -- the second part is begun, so nothing of the first one is left
    rcases List.mem_append.1 hx with hxf | hxs
    · have hlt : first.length < n := by
        by_contra hle
        rw [Nat.sub_eq_zero_of_le (by omega), List.take_zero] at hbs
        cases hbs
      rw [List.drop_eq_nil_of_le hlt.le] at hxf
      cases hxf
    · exact absurd hxs (hpart hsecond hbs)

/-- **What an allocation evicts**, after any run: when it hands out a cached block and leaves an
empty one in the queue, the empty one is protected by a session at that time, and the cached one
is not. -/
theorem eviction_order {roundNs : ℚ → Int} {numGpuBlocks numBlocks : Nat} {seconds : Option ℚ}
    {start t : Nat} {ret : List Nat} {after : BlockPool η}
    (hnew : BlockPool.new roundNs numGpuBlocks true seconds = .ok pool)
    (hrun : RunWhere SparesQueue start pool t pool')
    (hget : getNewBlocks nowNs numBlocks pool' = .ok (ret, after)) :
    ∀ b ∈ ret, (pool'.blocks b).blockHash ≠ none →
      ∀ x ∈ after.freeBlockQueue, (after.blocks x).blockHash = none →
        nowNs < (after.blocks x).protectedUntilNs ∧
          (pool'.blocks b).protectedUntilNs ≤ nowNs := by
  intro b hb hcached x hx hempty
  have hcache : pool.enableCaching = true := by
    simp only [BlockPool.new] at hnew
    split at hnew
    · cases hnew
    · cases seconds with
      | none =>
        obtain rfl := Except.ok.inj hnew
        rfl
      | some seconds =>
        simp only [Bool.true_eq_false, if_false] at hnew
        split at hnew
        · cases hnew
        · obtain rfl := Except.ok.inj hnew
          rfl
  have hfresh : EmptyFirst pool := by
    obtain ⟨-, -, -, hblocks⟩ := new_spec hnew
    refine List.pairwise_of_forall_mem_list fun a _ b _ _ => ?_
    rw [hblocks]
  have hi := new_inv hnew
  have hinv := (run_inv hrun.run hi).1
  have ho := run_emptyFirst hrun hi hcache hfresh
  obtain ⟨hret, halloc⟩ := getNewBlocks_spec hinv.1.nodup hget
  -- what is left was there before, and was not taken
  rw [halloc.queue, List.mem_filter] at hx
  obtain ⟨hxin, hxnot⟩ := hx
  have hxout : x ∉ ret := by simpa using hxnot
  rw [halloc.others x hxout] at hempty ⊢
  set first := pool'.freeBlockQueue.filter (unprotected nowNs pool') with hfirst
  set second := pool'.freeBlockQueue.filter (fun b => !unprotected nowNs pool' b) with hsecond
  have htake : ret = (first ++ second).take numBlocks := by
    rw [hret, popTwice_fst]
  have hdrop : x ∈ (first ++ second).drop numBlocks := by
    have hmem : x ∈ first ++ second := (List.filter_append_perm _ _).mem_iff.2 hxin
    rw [← List.take_append_drop numBlocks (first ++ second), ← htake] at hmem
    exact (List.mem_append.1 hmem).resolve_left hxout
  rw [htake] at hb
  obtain ⟨hbfirst, hxsecond⟩ := take_of_emptyFirst
    (List.Pairwise.sublist List.filter_sublist ho) (List.Pairwise.sublist List.filter_sublist ho)
    hb hcached hdrop hempty
  have hbun := (List.mem_filter.1 hbfirst).2
  have hxun := (List.mem_filter.1 hxsecond).2
  simp only [unprotected, decide_eq_true_eq] at hbun
  simp only [unprotected, Bool.not_eq_true', decide_eq_false_iff_not] at hxun
  exact ⟨by omega, hbun⟩

/-! ### A session with an unhashed tail -/

/-- A new pool of three blocks and the null one. -/
def fourBlockPool : BlockPool Unit :=
  ⟨4, true, none, none, fun b => { isNull := b = 0 }, [1, 2, 3], fun _ => [], fun _ => []⟩

/-- A request of a session has a cached block and a tail that is not full; another request has a
cached block. Both end, and their blocks are freed: the tail to the front of the queue. -/
theorem tailRun : ∃ pool', RunWhere SparesQueue 0 fourBlockPool 5 pool' ∧
    (pool'.blocks 3).blockHash = some ((), 1) ∧
    ∃ after, getNewBlocks 6 1 pool' = .ok ([3], after) ∧ 2 ∈ after.freeBlockQueue ∧
      (after.blocks 2).blockHash = none := by
  have hspares : ∀ {op : Op Unit} {p q : BlockPool Unit},
      (∀ b, op ≠ .removeCachedBlockHashes b) → (∀ l, op ≠ .evictBlocks l) →
      SparesQueue op p q :=
    fun hremove hevict => ⟨fun b h => absurd h (hremove b), fun l h => absurd h (hevict l)⟩
  have hrun := RunWhere.step (.freeBlocks [3]) (.step (.freeBlocks [2, 1])
    (.step (.stampSessionBlockProtection (some "s") (some 100) [[1, 2]])
      (.step (.insertBlockHash ((), 1) 3 (some 16))
        (.step (.insertBlockHash ((), 0) 1 (some 16))
          (.step (.getNewBlocks 3) (.refl 0 fourBlockPool) (Nat.zero_le 1) trivial rfl
            (hspares (by simp) (by simp)))
          (Nat.le_refl 1) ⟨rfl, by decide⟩ rfl (hspares (by simp) (by simp)))
        (Nat.le_succ 1) ⟨rfl, by decide⟩ rfl (hspares (by simp) (by simp)))
      (Nat.le_succ 2) trivial rfl (hspares (by simp) (by simp)))
    (Nat.le_succ 3) trivial rfl (hspares (by simp) (by simp)))
    (Nat.le_succ 4) trivial rfl (hspares (by simp) (by simp))
  exact ⟨_, hrun, rfl, _, rfl, by decide, rfl⟩

theorem eviction_order_tail : ∃ (pool' after : BlockPool Unit),
    RunWhere SparesQueue 0 fourBlockPool 5 pool' ∧
      getNewBlocks 6 1 pool' = .ok ([3], after) ∧
      ∀ x ∈ after.freeBlockQueue, (after.blocks x).blockHash = none →
        6 < (after.blocks x).protectedUntilNs := by
  obtain ⟨pool', hrun, hhash, after, hget, -, -⟩ := tailRun
  have hnew : BlockPool.new (fun _ => 0) 4 true none = .ok fourBlockPool := rfl
  refine ⟨pool', after, hrun, hget, fun x hx hempty => ?_⟩
  exact (eviction_order hnew hrun hget 3 (by decide) (by simp [hhash]) x hx hempty).1

/-- **A cached block goes before an empty one**: the tail of a session's request is passed
over. -/
theorem cached_before_empty : ∃ (pool' after : BlockPool Unit),
    BlockPool.new (fun _ => 0) 4 true none = .ok fourBlockPool ∧
      RunWhere SparesQueue 0 fourBlockPool 5 pool' ∧
      getNewBlocks 6 1 pool' = .ok ([3], after) ∧
      (pool'.blocks 3).blockHash ≠ none ∧
      2 ∈ after.freeBlockQueue ∧ (after.blocks 2).blockHash = none := by
  obtain ⟨pool', hrun, hhash, after, hget, hmem, hempty⟩ := tailRun
  exact ⟨pool', after, rfl, hrun, hget, by simp [hhash], hmem, hempty⟩

end Order

end Kv

end DgxSpark
