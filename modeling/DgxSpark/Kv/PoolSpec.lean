import DgxSpark.Kv.BlockPool

/-!
# What an operation of the block pool does

One lemma for each operation of `DgxSpark.Kv.BlockPool`, saying what the pool is afterwards:
which blocks may have changed, and in what (`DgxSpark.Kv.removeCachedBlockHashes_spec`,
`DgxSpark.Kv.takeBlocks_spec`, `DgxSpark.Kv.release_spec`, `DgxSpark.Kv.scan_spec`,
`DgxSpark.Kv.dropExpiredHashes_spec`). Later modules cite these and never open an operation again.
-/

namespace DgxSpark

namespace Kv

variable {η : Type}

/-! ### What a pool is set up with -/

/-- What no operation changes. -/
structure SameSetup (pool pool' : BlockPool η) : Prop where
  numGpuBlocks : pool'.numGpuBlocks = pool.numGpuBlocks
  enableCaching : pool'.enableCaching = pool.enableCaching
  timeout : pool'.prefixCacheIdleTimeoutNs = pool.prefixCacheIdleTimeoutNs

theorem SameSetup.refl (pool : BlockPool η) : SameSetup pool pool :=
  ⟨rfl, rfl, rfl⟩

theorem SameSetup.trans {p q r : BlockPool η} (h : SameSetup p q) (h' : SameSetup q r) :
    SameSetup p r :=
  ⟨h'.numGpuBlocks.trans h.numGpuBlocks, h'.enableCaching.trans h.enableCaching,
    h'.timeout.trans h.timeout⟩

/-- A block has the same entries in the prefix cache. -/
structure SameHashes (b : Nat) (pool pool' : BlockPool η) : Prop where
  blockHash : (pool'.blocks b).blockHash = (pool.blocks b).blockHash
  byBlock : pool'.cachedBlockHashesByBlock b = pool.cachedBlockHashesByBlock b
  toBlock : ∀ key, b ∈ pool'.cachedBlockHashToBlock key ↔ b ∈ pool.cachedBlockHashToBlock key

theorem SameHashes.refl (b : Nat) (pool : BlockPool η) : SameHashes b pool pool :=
  ⟨rfl, rfl, fun _ => Iff.rfl⟩

theorem SameHashes.trans {b : Nat} {p q r : BlockPool η} (h : SameHashes b p q)
    (h' : SameHashes b q r) : SameHashes b p r :=
  ⟨h'.blockHash.trans h.blockHash, h'.byBlock.trans h.byBlock,
    fun key => (h'.toBlock key).trans (h.toBlock key)⟩

/-! ### Changing blocks one after the other -/

section Fold

variable {α : Type} {f : α → α}

/-- A change that need not be made twice, made to each member of a list. -/
theorem foldl_update (hf : ∀ x, f (f x) = f x) (l : List Nat) (g : Nat → α) :
    l.foldl (fun g b => Function.update g b (f (g b))) g =
      fun b => if b ∈ l then f (g b) else g b := by
  induction l generalizing g with
  | nil => simp
  | cons b l ih =>
    rw [List.foldl_cons, ih]
    funext x
    by_cases hx : x = b
    · subst hx
      by_cases hmem : x ∈ l <;> simp [hmem, hf]
    · simp [hx]

theorem foldl_setBlock {f : KVCacheBlock η → KVCacheBlock η} (hf : ∀ x, f (f x) = f x)
    (l : List Nat) (pool : BlockPool η) :
    l.foldl (fun pool b => pool.setBlock b (f (pool.blocks b))) pool =
      { pool with blocks := fun b => if b ∈ l then f (pool.blocks b) else pool.blocks b } := by
  rw [← foldl_update hf l pool.blocks]
  induction l generalizing pool with
  | nil => rfl
  | cons b l ih => rw [List.foldl_cons, List.foldl_cons, ih]; rfl

end Fold

variable [DecidableEq η] {pool pool' : BlockPool η}

/-! ### Hashes -/

/-- Only the entries of the block itself are popped. -/
theorem mem_popKeys {b x : Nat} (hx : x ≠ b) (keys : List (BlockHashWithGroupId η))
    (cache : BlockHashWithGroupId η → List Nat) (key : BlockHashWithGroupId η) :
    x ∈ (popKeys b keys cache).2 key ↔ x ∈ cache key := by
  induction keys generalizing cache with
  | nil => rfl
  | cons k keys ih =>
    have hstep : x ∈ Function.update cache k ((cache k).erase b) key ↔ x ∈ cache key := by
      by_cases hk : key = k
      · subst hk
        simp [List.mem_erase_of_ne hx]
      · simp [hk]
    simp only [popKeys]
    split <;> exact (ih _).trans hstep

/-- What taking the hashes of a block off leaves. -/
structure Unhashed (b : Nat) (pool pool' : BlockPool η) : Prop where
  setup : SameSetup pool pool'
  queue : pool'.freeBlockQueue = pool.freeBlockQueue
  next : pool'.nextPrefixCacheExpiryNs = pool.nextPrefixCacheExpiryNs
  others : ∀ x, x ≠ b → pool'.blocks x = pool.blocks x ∧ SameHashes x pool pool'
  refCnt : (pool'.blocks b).refCnt = (pool.blocks b).refCnt
  isNull : (pool'.blocks b).isNull = (pool.blocks b).isNull
  blockHash : (pool'.blocks b).blockHash = none
  protection : (pool'.blocks b).protectedUntilNs ≤ (pool.blocks b).protectedUntilNs

/-- **Taking hashes off** changes one block, and of that neither the references nor the place in
the queue. -/
theorem removeCachedBlockHashes_spec (b : Nat) (pool : BlockPool η) :
    Unhashed b pool (removeCachedBlockHashes b pool).2 := by
  simp only [removeCachedBlockHashes]
  split
  · rename_i hkeys
    have hnone : (pool.blocks b).blockHash = none := by
      simpa using (List.append_eq_nil_iff.1 hkeys).1
    exact ⟨.refl _, rfl, rfl, fun x _ => ⟨rfl, .refl _ _⟩, rfl, rfl, hnone, le_rfl⟩
  · refine ⟨⟨rfl, rfl, rfl⟩, rfl, rfl, fun x hx => ?_, ?_, ?_, ?_, ?_⟩
    · have hblock : Function.update pool.blocks b (pool.blocks b).resetHash x = pool.blocks x :=
        Function.update_of_ne hx _ _
      refine ⟨hblock, congrArg _ hblock, Function.update_of_ne hx _ _, fun key => ?_⟩
      exact mem_popKeys hx _ _ key
    all_goals simp [BlockPool.setBlock, KVCacheBlock.resetHash]

/-- What a new key leaves as it is, and what it sets. -/
structure Hashed (b : Nat) (pool pool' : BlockPool η) : Prop where
  setup : SameSetup pool pool'
  queue : pool'.freeBlockQueue = pool.freeBlockQueue
  next : pool'.nextPrefixCacheExpiryNs = pool.nextPrefixCacheExpiryNs
  others : ∀ x, x ≠ b → pool'.blocks x = pool.blocks x
  refCnt : (pool'.blocks b).refCnt = (pool.blocks b).refCnt
  isNull : (pool'.blocks b).isNull = (pool.blocks b).isNull
  protection : (pool'.blocks b).protectedUntilNs = (pool.blocks b).protectedUntilNs
  primary : (pool.blocks b).blockHash ≠ none →
    (pool'.blocks b).blockHash = (pool.blocks b).blockHash

/-- **A new key** is no change to references, protection or queue. -/
theorem insertBlockHash_spec {key : BlockHashWithGroupId η} {b : Nat} {numTokens : Option Nat}
    (h : insertBlockHash key b numTokens pool = .ok pool') : Hashed b pool pool' := by
  simp only [insertBlockHash] at h
  split at h
  · obtain rfl := Except.ok.inj h
    exact ⟨.refl _, rfl, rfl, fun _ _ => rfl, rfl, rfl, rfl, fun _ => rfl⟩
  split at h
  · obtain rfl := Except.ok.inj h
    exact ⟨.refl _, rfl, rfl, fun _ _ => rfl, rfl, rfl, rfl, fun _ => rfl⟩
  split at h
  · -- the first key of the block
    rename_i hnone
    simp only [KVCacheBlock.setBlockHash] at h
    split at h
    · obtain rfl := Except.ok.inj h
      exact ⟨⟨rfl, rfl, rfl⟩, rfl, rfl, fun x hx => Function.update_of_ne hx _ _,
        by simp [BlockPool.setBlock], by simp [BlockPool.setBlock], by simp [BlockPool.setBlock],
        fun hsome => absurd hnone hsome⟩
    · cases h
  · -- one more key
    obtain rfl := Except.ok.inj h
    exact ⟨⟨rfl, rfl, rfl⟩, rfl, rfl, fun _ _ => rfl, rfl, rfl, rfl, fun _ => rfl⟩

/-! ### Allocation -/

omit [DecidableEq η] in
theorem unprotectBlocks_eq (ret : List Nat) (pool : BlockPool η) :
    unprotectBlocks ret pool =
      { pool with
        blocks := fun b => if b ∈ ret then { pool.blocks b with protectedUntilNs := 0 }
          else pool.blocks b } :=
  foldl_setBlock (f := fun block => { block with protectedUntilNs := 0 }) (fun _ => rfl) ret pool

/-- What the loop over the popped blocks leaves. -/
structure Taken (ret : List Nat) (pool pool' : BlockPool η) : Prop where
  setup : SameSetup pool pool'
  queue : pool'.freeBlockQueue = pool.freeBlockQueue
  next : pool'.nextPrefixCacheExpiryNs = pool.nextPrefixCacheExpiryNs
  others : ∀ x, x ∉ ret → pool'.blocks x = pool.blocks x
  was : ∀ b ∈ ret, (pool.blocks b).refCnt = 0
  refCnt : ∀ b ∈ ret, (pool'.blocks b).refCnt = 1
  isNull : ∀ b ∈ ret, (pool'.blocks b).isNull = (pool.blocks b).isNull
  protection : ∀ b ∈ ret, (pool'.blocks b).protectedUntilNs ≤ (pool.blocks b).protectedUntilNs
  blockHash : pool.enableCaching = true → ∀ b ∈ ret, (pool'.blocks b).blockHash = none
  uncached : pool.enableCaching = false → ∀ b ∈ ret,
    (pool'.blocks b).blockHash = (pool.blocks b).blockHash

omit [DecidableEq η] in
/-- One block, with its first reference. -/
theorem setBlock_refCnt_spec (b : Nat) (pool : BlockPool η) :
    ∀ x, x ≠ b → (pool.setBlock b
      { pool.blocks b with refCnt := (pool.blocks b).refCnt + 1 }).blocks x = pool.blocks x :=
  fun _ hx => Function.update_of_ne hx _ _

/-- The first block of the loop, out of the cache. -/
theorem evicted_spec (b : Nat) (pool : BlockPool η) :
    ∃ q : BlockPool η, (if pool.enableCaching then maybeEvictCachedBlock b pool else pool) = q ∧
      SameSetup pool q ∧ q.freeBlockQueue = pool.freeBlockQueue ∧
      q.nextPrefixCacheExpiryNs = pool.nextPrefixCacheExpiryNs ∧
      (∀ x, x ≠ b → q.blocks x = pool.blocks x) ∧
      (q.blocks b).refCnt = (pool.blocks b).refCnt ∧
      (q.blocks b).isNull = (pool.blocks b).isNull ∧
      (q.blocks b).protectedUntilNs ≤ (pool.blocks b).protectedUntilNs ∧
      (pool.enableCaching = true → (q.blocks b).blockHash = none) ∧
      (pool.enableCaching = false → (q.blocks b).blockHash = (pool.blocks b).blockHash) := by
  refine ⟨_, rfl, ?_⟩
  have hspec := removeCachedBlockHashes_spec b pool
  by_cases hc : pool.enableCaching = true
  · simp only [hc, if_true, maybeEvictCachedBlock]
    exact ⟨hspec.setup, hspec.queue, hspec.next, fun x hx => (hspec.others x hx).1, hspec.refCnt,
      hspec.isNull, hspec.protection, fun _ => hspec.blockHash, fun h => by cases h⟩
  · rw [if_neg hc]
    exact ⟨.refl _, rfl, rfl, fun _ _ => rfl, rfl, rfl, le_rfl, fun h => absurd h hc, fun _ => rfl⟩

/-- **Taking the popped blocks**, each of them once. -/
theorem takeBlocks_spec {ret : List Nat} (hnodup : ret.Nodup)
    (h : takeBlocks ret pool = .ok pool') : Taken ret pool pool' := by
  induction ret generalizing pool with
  | nil =>
    obtain rfl := Except.ok.inj h
    exact ⟨.refl _, rfl, rfl, fun _ _ => rfl, by simp, by simp, by simp, by simp, by simp,
      by simp⟩
  | cons b ret ih =>
    obtain ⟨hb, hnodup⟩ := List.nodup_cons.1 hnodup
    obtain ⟨q, hq, hsetup, hqueue, hnext, hothers, href, hnull, hprot, hhash, hless⟩ :=
      evicted_spec b pool
    simp only [takeBlocks, hq] at h
    split at h
    · rename_i hzero
      have hrest := ih hnodup h
      -- the rest does not have the block again, so it stays as it was taken
      have hself := hrest.others b hb
      simp only [BlockPool.setBlock, Function.update_self] at hself
      have hne : ∀ x ∈ ret, x ≠ b := fun x hx heq => hb (heq ▸ hx)
      have hback : ∀ x, x ≠ b → (q.setBlock b
          { q.blocks b with refCnt := (q.blocks b).refCnt + 1 }).blocks x = pool.blocks x :=
        fun x hx => (setBlock_refCnt_spec b q x hx).trans (hothers x hx)
      refine ⟨hsetup.trans ⟨hrest.setup.numGpuBlocks, hrest.setup.enableCaching,
        hrest.setup.timeout⟩, hrest.queue.trans hqueue, hrest.next.trans hnext, ?_, ?_, ?_, ?_,
        ?_, ?_, ?_⟩
      · intro x hx
        obtain ⟨hxb, hxr⟩ := not_or.1 (fun hor => hx (List.mem_cons.2 hor))
        rw [hrest.others x hxr, hback x hxb]
      · intro x hx
        rcases List.mem_cons.1 hx with rfl | hx
        · rw [← href, hzero]
        · rw [← hback x (hne x hx)]
          exact hrest.was x hx
      · intro x hx
        rcases List.mem_cons.1 hx with rfl | hx
        · rw [hself]
          simp [hzero]
        · exact hrest.refCnt x hx
      · intro x hx
        rcases List.mem_cons.1 hx with rfl | hx
        · rw [hself]
          exact hnull
        · rw [hrest.isNull x hx, hback x (hne x hx)]
      · intro x hx
        rcases List.mem_cons.1 hx with rfl | hx
        · rw [hself]
          exact hprot
        · rw [← hback x (hne x hx)]
          exact hrest.protection x hx
      · intro hc x hx
        rcases List.mem_cons.1 hx with rfl | hx
        · rw [hself]
          exact hhash hc
        · exact hrest.blockHash (hsetup.enableCaching.trans hc) x hx
      · intro hc x hx
        rcases List.mem_cons.1 hx with rfl | hx
        · rw [hself]
          exact hless hc
        · rw [hrest.uncached (hsetup.enableCaching.trans hc) x hx, hback x (hne x hx)]
    · cases h

/-- When nobody holds the popped blocks, the loop goes through. -/
theorem takeBlocks_ok {ret : List Nat} (hnodup : ret.Nodup)
    (hzero : ∀ b ∈ ret, (pool.blocks b).refCnt = 0) :
    ∃ pool', takeBlocks ret pool = .ok pool' := by
  induction ret generalizing pool with
  | nil => exact ⟨pool, rfl⟩
  | cons b ret ih =>
    obtain ⟨hb, hnodup⟩ := List.nodup_cons.1 hnodup
    obtain ⟨q, hq, -, -, -, hothers, href, -⟩ := evicted_spec b pool
    have hqb : (q.blocks b).refCnt = 0 := href.trans (hzero b (by simp))
    simp only [takeBlocks, hq, hqb, if_true]
    refine ih hnodup fun x hx => ?_
    have hne : x ≠ b := fun heq => hb (heq ▸ hx)
    simp only [BlockPool.setBlock, Function.update_of_ne hne]
    rw [hothers x hne]
    exact hzero x (by simp [hx])

/-- What an allocation leaves. -/
structure Allocated (ret : List Nat) (pool pool' : BlockPool η) : Prop where
  setup : SameSetup pool pool'
  queue : pool'.freeBlockQueue = pool.freeBlockQueue.filter (· ∉ ret)
  next : pool'.nextPrefixCacheExpiryNs = pool.nextPrefixCacheExpiryNs
  free : ∀ b ∈ ret, b ∈ pool.freeBlockQueue
  others : ∀ x, x ∉ ret → pool'.blocks x = pool.blocks x
  refCnt : ∀ b ∈ ret, (pool'.blocks b).refCnt = 1
  isNull : ∀ b ∈ ret, (pool'.blocks b).isNull = (pool.blocks b).isNull
  protection : ∀ b ∈ ret, (pool'.blocks b).protectedUntilNs = 0
  blockHash : pool.enableCaching = true → ∀ b ∈ ret, (pool'.blocks b).blockHash = none
  uncached : pool.enableCaching = false → ∀ b ∈ ret,
    (pool'.blocks b).blockHash = (pool.blocks b).blockHash

omit [DecidableEq η] in
/-- The blocks the two pops take are in the queue, each once. -/
theorem popTwice_nodup (predicate : Nat → Bool) (n : Nat) {queue : List Nat}
    (hnodup : queue.Nodup) :
    (popTwice predicate n queue).1.Nodup ∧ ∀ b ∈ (popTwice predicate n queue).1, b ∈ queue := by
  have hperm := List.filter_append_perm predicate queue
  have hsub := popTwice_sublist predicate n queue
  exact ⟨((hperm.nodup_iff).2 hnodup).sublist hsub, fun b hb => hperm.mem_iff.1 (hsub.subset hb)⟩

/-- **Allocation** hands out what the two pops take. -/
theorem getNewBlocks_spec {nowNs numBlocks : Nat} {ret : List Nat}
    (hnodup : pool.freeBlockQueue.Nodup)
    (h : getNewBlocks nowNs numBlocks pool = .ok (ret, pool')) :
    ret = (popTwice (unprotected nowNs pool) numBlocks pool.freeBlockQueue).1 ∧
      Allocated ret pool pool' := by
  obtain ⟨hret, hfree⟩ :=
    popTwice_nodup (unprotected nowNs pool) numBlocks hnodup
  have hqueue := popTwice_snd (unprotected nowNs pool) numBlocks hnodup
  simp only [getNewBlocks] at h
  split at h
  · cases h
  set popped := popTwice (unprotected nowNs pool) numBlocks pool.freeBlockQueue
  cases htake : takeBlocks popped.1
      (unprotectBlocks popped.1 { pool with freeBlockQueue := popped.2 }) with
  | error e =>
    rw [htake] at h
    cases h
  | ok q =>
    rw [htake] at h
    obtain ⟨rfl, rfl⟩ := Prod.mk.inj (Except.ok.inj h)
    rw [unprotectBlocks_eq] at htake
    have ht := takeBlocks_spec hret htake
    refine ⟨rfl, ⟨ht.setup.numGpuBlocks, ht.setup.enableCaching, ht.setup.timeout⟩,
      ht.queue.trans hqueue, ht.next, hfree, fun x hx => ?_, ht.refCnt, fun b hb => ?_,
      fun b hb => ?_, ht.blockHash, fun hc b hb => (ht.uncached hc b hb).trans ?_⟩
    · rw [ht.others x hx]
      simp only [if_neg hx]
    · rw [ht.isNull b hb]
      simp only [if_pos hb]
    · have hle := ht.protection b hb
      simp only [if_pos hb] at hle
      omega
    · simp only [if_pos hb]

/-! ### References -/

/-- What touching one block leaves. -/
structure Touched (b : Nat) (pool pool' : BlockPool η) : Prop where
  setup : SameSetup pool pool'
  next : pool'.nextPrefixCacheExpiryNs = pool.nextPrefixCacheExpiryNs
  others : ∀ x, x ≠ b → pool'.blocks x = pool.blocks x
  refCnt : (pool'.blocks b).refCnt = (pool.blocks b).refCnt + 1
  isNull : (pool'.blocks b).isNull = (pool.blocks b).isNull
  blockHash : (pool'.blocks b).blockHash = (pool.blocks b).blockHash
  protection : (pool'.blocks b).protectedUntilNs = (pool.blocks b).protectedUntilNs
  queue : ((pool.blocks b).refCnt = 0 ∧ (pool.blocks b).isNull = false ∧
      b ∈ pool.freeBlockQueue ∧ pool'.freeBlockQueue = pool.freeBlockQueue.erase b) ∨
    (¬((pool.blocks b).refCnt = 0 ∧ (pool.blocks b).isNull = false) ∧
      pool'.freeBlockQueue = pool.freeBlockQueue ∧
      (pool'.blocks b).cacheIdleSinceNs = (pool.blocks b).cacheIdleSinceNs)

omit [DecidableEq η] in
/-- **Touching blocks**, one at a time: what each touch keeps, all of them keep. -/
theorem touch_induction {P : BlockPool η → Prop}
    (hstep : ∀ b p q, Touched b p q → P p → P q) {l : List Nat}
    (h : touch l pool = .ok pool') (hP : P pool) : P pool' := by
  induction l generalizing pool with
  | nil =>
    obtain rfl := Except.ok.inj h
    exact hP
  | cons b rest ih =>
    simp only [touch] at h
    split at h
    · rename_i hfree
      simp only [remove] at h
      split at h
      · rename_i hin
        refine ih h (hstep b pool _ ?_ hP)
        exact ⟨⟨rfl, rfl, rfl⟩, rfl, fun x hx => by simp [BlockPool.setBlock, hx],
          by simp [BlockPool.setBlock], by simp [BlockPool.setBlock],
          by simp [BlockPool.setBlock], by simp [BlockPool.setBlock],
          Or.inl ⟨hfree.1, hfree.2, hin, rfl⟩⟩
      · cases h
    · rename_i hheld
      refine ih h (hstep b pool _ ?_ hP)
      exact ⟨⟨rfl, rfl, rfl⟩, rfl, fun x hx => by simp [BlockPool.setBlock, hx],
        by simp [BlockPool.setBlock], by simp [BlockPool.setBlock],
        by simp [BlockPool.setBlock], by simp [BlockPool.setBlock],
        Or.inr ⟨hheld, rfl, by simp [BlockPool.setBlock]⟩⟩

/-- What the first loop of `free_blocks` leaves, and how it has told the blocks apart. -/
structure Counted (enableCaching : Bool) (blocks : Nat → KVCacheBlock η)
    (released : Released η) : Prop where
  same : ∀ x, released.blocks x = { blocks x with refCnt := (released.blocks x).refCnt }
  le : ∀ x, (released.blocks x).refCnt ≤ (blocks x).refCnt
  nodup : (released.withHash ++ released.withoutHash).Nodup
  mem : ∀ x, x ∈ released.withHash ++ released.withoutHash ↔
    (blocks x).isNull = false ∧ 0 < (blocks x).refCnt ∧ (released.blocks x).refCnt ≤ 0
  withoutHash : ∀ x ∈ released.withoutHash, (blocks x).blockHash = none

section Counted

variable {enableCaching : Bool} {blocks : Nat → KVCacheBlock η} {released : Released η}

omit [DecidableEq η] in
theorem Counted.isNull (h : Counted enableCaching blocks released) (x : Nat) :
    (released.blocks x).isNull = (blocks x).isNull :=
  (congrArg KVCacheBlock.isNull (h.same x)).trans rfl

omit [DecidableEq η] in
theorem Counted.blockHash (h : Counted enableCaching blocks released) (x : Nat) :
    (released.blocks x).blockHash = (blocks x).blockHash :=
  (congrArg KVCacheBlock.blockHash (h.same x)).trans rfl

omit [DecidableEq η] in
theorem Counted.protection (h : Counted enableCaching blocks released) (x : Nat) :
    (released.blocks x).protectedUntilNs = (blocks x).protectedUntilNs :=
  (congrArg KVCacheBlock.protectedUntilNs (h.same x)).trans rfl

omit [DecidableEq η] in
theorem Counted.idle (h : Counted enableCaching blocks released) (x : Nat) :
    (released.blocks x).cacheIdleSinceNs = (blocks x).cacheIdleSinceNs :=
  (congrArg KVCacheBlock.cacheIdleSinceNs (h.same x)).trans rfl

end Counted

omit [DecidableEq η] in
/-- A block without references that is put first, before those the rest of the loop finds. -/
theorem nodup_cons_of_count {b : Nat} {withHash withoutHash : List Nat}
    (hb : b ∉ withHash ++ withoutHash) (hnodup : (withHash ++ withoutHash).Nodup) :
    ((b :: withHash) ++ withoutHash).Nodup ∧ (withHash ++ b :: withoutHash).Nodup := by
  have hfirst : ((b :: withHash) ++ withoutHash).Nodup := List.nodup_cons.2 ⟨hb, hnodup⟩
  exact ⟨hfirst, (List.perm_middle.nodup_iff).2 hfirst⟩

omit [DecidableEq η] in
/-- **The first loop of `free_blocks`**: the blocks it finds are those that somebody held before
and nobody holds after. -/
theorem release_spec (enableCaching : Bool) (ordered : List Nat)
    (blocks : Nat → KVCacheBlock η) :
    Counted enableCaching blocks (release enableCaching ordered blocks) := by
  induction ordered generalizing blocks with
  | nil =>
    refine ⟨fun _ => rfl, fun _ => le_rfl, by simp [release], fun x => ?_, by simp [release]⟩
    simp only [release, List.append_nil, List.not_mem_nil, false_iff, not_and]
    intro _ h
    omega
  | cons b rest ih =>
    set block : KVCacheBlock η := { blocks b with refCnt := (blocks b).refCnt - 1 } with hblock
    set after := release enableCaching rest (Function.update blocks b block) with hafter
    obtain ⟨hsame, hle, hnodup, hmem, hwithout⟩ := ih (Function.update blocks b block)
    rw [← hafter] at hsame hle hnodup hmem hwithout
    have hself := hle b
    have hupd : ∀ x, x ≠ b → Function.update blocks b block x = blocks x :=
      fun x hx => Function.update_of_ne hx _ _
    rw [Function.update_self] at hself
    have hone : block.refCnt = (blocks b).refCnt - 1 := rfl
    have hsame' : ∀ x, after.blocks x = { blocks x with refCnt := (after.blocks x).refCnt } := by
      intro x
      by_cases hx : x = b
      · subst hx
        have := hsame x
        rw [Function.update_self] at this
        exact this
      · have := hsame x
        rwa [hupd x hx] at this
    have hle' : ∀ x, (after.blocks x).refCnt ≤ (blocks x).refCnt := by
      intro x
      by_cases hx : x = b
      · subst hx
        omega
      · have := hle x
        rwa [hupd x hx] at this
    have hwithout' : ∀ x ∈ after.withoutHash, (blocks x).blockHash = none := by
      intro x hx
      by_cases hxb : x = b
      · subst hxb
        have := hwithout x hx
        rwa [Function.update_self] at this
      · have := hwithout x hx
        rwa [hupd x hxb] at this
    -- what the rest of the loop finds, read against the pool before this block
    have hmemb : b ∈ after.withHash ++ after.withoutHash ↔
        (blocks b).isNull = false ∧ 0 < block.refCnt ∧ (after.blocks b).refCnt ≤ 0 := by
      rw [hmem b, Function.update_self]
    have hmemx : ∀ x, x ≠ b → (x ∈ after.withHash ++ after.withoutHash ↔
        (blocks x).isNull = false ∧ 0 < (blocks x).refCnt ∧ (after.blocks x).refCnt ≤ 0) := by
      intro x hx
      rw [hmem x, hupd x hx]
    simp only [release, ← hblock, ← hafter]
    split
    · -- the last reference to this block
      rename_i hzero
      have hb : b ∉ after.withHash ++ after.withoutHash := by
        rw [hmemb]
        omega
      have hnow : (blocks b).isNull = false ∧ 0 < (blocks b).refCnt ∧
          (after.blocks b).refCnt ≤ 0 := ⟨hzero.2, by omega, by omega⟩
      have hcons : ∀ x, x ∈ b :: (after.withHash ++ after.withoutHash) ↔
          (blocks x).isNull = false ∧ 0 < (blocks x).refCnt ∧ (after.blocks x).refCnt ≤ 0 := by
        intro x
        by_cases hx : x = b
        · subst hx
          simp [hnow]
        · rw [List.mem_cons, hmemx x hx]
          simp [hx]
      obtain ⟨hfirst, hmiddle⟩ := nodup_cons_of_count hb hnodup
      split
      · rename_i hnone
        refine ⟨hsame', hle', hmiddle, fun x => ?_, fun x hx => ?_⟩
        · rw [List.perm_middle.mem_iff]
          exact hcons x
        · rcases List.mem_cons.1 hx with rfl | hx
          · exact hnone.1
          · exact hwithout' x hx
      · exact ⟨hsame', hle', hfirst, hcons, hwithout'⟩
    · rename_i hnot
      refine ⟨hsame', hle', hnodup, fun x => ?_, hwithout'⟩
      by_cases hx : x = b
      · subst hx
        rw [hmemb]
        refine and_congr_right fun hnull => and_congr_left fun _ => ?_
        have hne : block.refCnt ≠ 0 := fun h => hnot ⟨h, hnull⟩
        omega
      · exact hmemx x hx

omit [DecidableEq η] in
/-- With the cache on, the blocks that go to the end of the queue have a hash. -/
theorem release_withHash (ordered : List Nat) (blocks : Nat → KVCacheBlock η) :
    ∀ x ∈ (release true ordered blocks).withHash, (blocks x).blockHash ≠ none := by
  induction ordered generalizing blocks with
  | nil =>
    intro x hx
    cases hx
  | cons b rest ih =>
    set block : KVCacheBlock η := { blocks b with refCnt := (blocks b).refCnt - 1 } with hblock
    have hrest : ∀ x ∈ (release true rest (Function.update blocks b block)).withHash,
        (blocks x).blockHash ≠ none := by
      intro x hx
      have hhash := ih (Function.update blocks b block) x hx
      by_cases hxb : x = b
      · subst hxb
        rwa [Function.update_self] at hhash
      · rwa [Function.update_of_ne hxb] at hhash
    simp only [release, ← hblock]
    split
    · split
      · exact hrest
      · rename_i hnot
        intro x hx
        rcases List.mem_cons.1 hx with rfl | hx
        · intro hnone
          exact hnot (by simpa [hblock] using hnone)
        · exact hrest x hx
    · exact hrest

omit [DecidableEq η] in
/-- Each time a block is listed, it loses one reference. -/
theorem release_refCnt (enableCaching : Bool) (ordered : List Nat)
    (blocks : Nat → KVCacheBlock η) (x : Nat) :
    ((release enableCaching ordered blocks).blocks x).refCnt =
      (blocks x).refCnt - ordered.count x := by
  induction ordered generalizing blocks with
  | nil => simp [release]
  | cons b rest ih =>
    have hone : ((release enableCaching (b :: rest) blocks).blocks x) =
        (release enableCaching rest (Function.update blocks b
          { blocks b with refCnt := (blocks b).refCnt - 1 })).blocks x := by
      simp only [release]
      split <;> try split
      all_goals rfl
    rw [hone, ih]
    by_cases hx : x = b
    · subst hx
      rw [Function.update_self, List.count_cons_self]
      push_cast
      ring
    · rw [Function.update_of_ne hx, List.count_cons_of_ne (Ne.symm hx)]

omit [DecidableEq η] in
theorem setIdle_eq (idleSinceNs : Nat) (withHash : List Nat) (blocks : Nat → KVCacheBlock η) :
    setIdle idleSinceNs withHash blocks =
      fun b => if b ∈ withHash then { blocks b with cacheIdleSinceNs := some idleSinceNs }
        else blocks b := by
  rw [setIdle]
  exact @foldl_update _ (fun block => { block with cacheIdleSinceNs := some idleSinceNs })
    (fun _ => rfl) withHash blocks

/-- What freeing leaves. The blocks that go to the queue are listed. -/
structure Freed (nowNs : Nat) (new : List Nat) (pool pool' : BlockPool η) : Prop where
  setup : SameSetup pool pool'
  nodup : new.Nodup
  mem : ∀ x, x ∈ new ↔
    (pool.blocks x).isNull = false ∧ 0 < (pool.blocks x).refCnt ∧ (pool'.blocks x).refCnt ≤ 0
  queue : pool'.freeBlockQueue.Perm (new ++ pool.freeBlockQueue)
  le : ∀ x, (pool'.blocks x).refCnt ≤ (pool.blocks x).refCnt
  isNull : ∀ x, (pool'.blocks x).isNull = (pool.blocks x).isNull
  blockHash : ∀ x, (pool'.blocks x).blockHash = (pool.blocks x).blockHash
  protection : ∀ x, (pool'.blocks x).protectedUntilNs = (pool.blocks x).protectedUntilNs
  others : ∀ x, x ∉ new → (pool'.blocks x).cacheIdleSinceNs = (pool.blocks x).cacheIdleSinceNs
  next : ∀ m ∈ pool.nextPrefixCacheExpiryNs, ∃ n ∈ pool'.nextPrefixCacheExpiryNs, n ≤ m
  idle : ∀ timeoutNs ∈ pool.prefixCacheIdleTimeoutNs, ∀ x ∈ new,
    (pool.blocks x).blockHash ≠ none → (pool'.blocks x).cacheIdleSinceNs = some nowNs ∧
      ∃ n ∈ pool'.nextPrefixCacheExpiryNs, n ≤ nowNs + timeoutNs

theorem earlier_le (next : Option Nat) (expiryNs : Nat) :
    ∃ n, earlier next expiryNs = some n ∧ n ≤ expiryNs ∧ ∀ m ∈ next, n ≤ m := by
  cases next with
  | none => exact ⟨expiryNs, rfl, le_rfl, by simp⟩
  | some m =>
    simp only [earlier]
    split
    · rename_i hlt
      exact ⟨expiryNs, rfl, le_rfl, fun k hk => by
        obtain rfl := Option.mem_some_iff.1 hk
        omega⟩
    · exact ⟨m, rfl, by omega, fun k hk => by
        obtain rfl := Option.mem_some_iff.1 hk
        omega⟩

omit [DecidableEq η] in
/-- **Freeing blocks**: those without a reference left go to the queue, and the hashed ones
among them are idle from now on. -/
theorem freeBlocks_spec (nowNs : Nat) (ordered : List Nat) (pool : BlockPool η) :
    ∃ new, Freed nowNs new pool (freeBlocks nowNs ordered pool) := by
  have hr := release_spec pool.enableCaching ordered pool.blocks
  set released := release pool.enableCaching ordered pool.blocks with hreleased
  have hperm : (appendN released.withHash
      (prependN released.withoutHash pool.freeBlockQueue)).Perm
      ((released.withHash ++ released.withoutHash) ++ pool.freeBlockQueue) := by
    simp only [appendN, prependN]
    refine List.perm_append_comm.trans ?_
    rw [← List.append_assoc]
  -- the case in which no time is noted
  have hplain : (∀ timeoutNs ∈ pool.prefixCacheIdleTimeoutNs, released.withHash = []) →
      Freed nowNs (released.withHash ++ released.withoutHash) pool
        { pool with
          blocks := released.blocks
          freeBlockQueue := appendN released.withHash
            (prependN released.withoutHash pool.freeBlockQueue) } := by
    intro hnone
    refine ⟨⟨rfl, rfl, rfl⟩, hr.nodup, hr.mem, hperm, hr.le,
      hr.isNull, hr.blockHash, hr.protection, fun x _ => hr.idle x,
      fun m hm => ⟨m, hm, le_rfl⟩, fun t ht x hx hhash => ?_⟩
    rw [hnone t ht, List.nil_append] at hx
    exact absurd (hr.withoutHash x hx) hhash
  refine ⟨released.withHash ++ released.withoutHash, ?_⟩
  simp only [freeBlocks, ← hreleased]
  split
  · rename_i timeoutNs htimeout
    split
    · rename_i hnil
      exact hplain fun _ _ => hnil
    · rw [setIdle_eq]
      obtain ⟨n, hn, hnle, hnm⟩ :=
        earlier_le pool.nextPrefixCacheExpiryNs (nowNs + timeoutNs)
      -- only the time of the blocks with a hash is new
      have hblock : ∀ x, ∃ idle, (if x ∈ released.withHash
          then { released.blocks x with cacheIdleSinceNs := some nowNs }
          else released.blocks x) = { released.blocks x with cacheIdleSinceNs := idle } := by
        intro x
        by_cases hx : x ∈ released.withHash
        · exact ⟨some nowNs, if_pos hx⟩
        · exact ⟨_, if_neg hx⟩
      refine ⟨⟨rfl, rfl, rfl⟩, hr.nodup, fun x => ?_, hperm, fun x => ?_, fun x => ?_,
        fun x => ?_, fun x => ?_, fun x hx => ?_, fun m hm => ⟨n, hn, hnm m hm⟩,
        fun t ht x hx hhash => ⟨?_, n, hn, ?_⟩⟩
      · obtain ⟨idle, heq⟩ := hblock x
        simp only [heq]
        exact hr.mem x
      · obtain ⟨idle, heq⟩ := hblock x
        simp only [heq]
        exact hr.le x
      · obtain ⟨idle, heq⟩ := hblock x
        simp only [heq]
        exact hr.isNull x
      · obtain ⟨idle, heq⟩ := hblock x
        simp only [heq]
        exact hr.blockHash x
      · obtain ⟨idle, heq⟩ := hblock x
        simp only [heq]
        exact hr.protection x
      · have hx' : x ∉ released.withHash := fun h => hx (List.mem_append_left _ h)
        simp only [if_neg hx']
        exact hr.idle x
      · have hx' : x ∈ released.withHash := by
          rcases List.mem_append.1 hx with h | h
          · exact h
          · exact absurd (hr.withoutHash x h) hhash
        simp only [if_pos hx']
      · obtain rfl := Option.some.inj (htimeout.symm.trans ht)
        exact hnle
  · rename_i hnone
    exact hplain fun t ht => absurd (hnone.symm.trans ht) (by simp)

omit [DecidableEq η] in
/-- Freed blocks without a hash go to the front of the queue, the others to its end. -/
theorem freeBlocks_queue (nowNs : Nat) (ordered : List Nat) (pool : BlockPool η) :
    (freeBlocks nowNs ordered pool).freeBlockQueue =
      (release pool.enableCaching ordered pool.blocks).withoutHash ++ pool.freeBlockQueue ++
        (release pool.enableCaching ordered pool.blocks).withHash := by
  simp only [freeBlocks]
  split
  · split <;> rfl
  · rfl

omit [DecidableEq η] in
theorem freeBlocks_refCnt (nowNs : Nat) (ordered : List Nat) (pool : BlockPool η) (x : Nat) :
    ((freeBlocks nowNs ordered pool).blocks x).refCnt =
      (pool.blocks x).refCnt - ordered.count x := by
  rw [← release_refCnt pool.enableCaching ordered pool.blocks x]
  simp only [freeBlocks]
  split
  · split
    · rfl
    · rw [setIdle_eq]
      simp only
      split <;> rfl
  · rfl

/-- The time at which a block may go: not before it has been idle for the timeout, and not
before its protection ends. -/
def KVCacheBlock.expiryNs (timeoutNs : Nat) (block : KVCacheBlock η) : Option Nat :=
  block.cacheIdleSinceNs.map fun idleSinceNs =>
    max (idleSinceNs + timeoutNs) block.protectedUntilNs

/-- A hashed block whose time has come. -/
def Due (nowNs timeoutNs : Nat) (block : KVCacheBlock η) : Prop :=
  block.blockHash ≠ none ∧ ∃ e ∈ block.expiryNs timeoutNs, e ≤ nowNs

instance (nowNs timeoutNs : Nat) (block : KVCacheBlock η) :
    Decidable (Due nowNs timeoutNs block) :=
  inferInstanceAs (Decidable (_ ∧ ∃ e ∈ block.expiryNs timeoutNs, e ≤ nowNs))

/-- A deadline that is no later than the time of any hashed block of a list, and exists when
there is one. -/
def Covers (timeoutNs : Nat) (blocks : Nat → KVCacheBlock η) (next : Option Nat)
    (queue : List Nat) : Prop :=
  ∀ b ∈ queue, (blocks b).blockHash ≠ none →
    ∃ e ∈ (blocks b).expiryNs timeoutNs, ∃ n ∈ next, n ≤ e

omit [DecidableEq η] in
/-- **The scan** finds the blocks whose time has come, and a deadline for the others. -/
theorem scan_spec (nowNs timeoutNs : Nat) {blocks : Nat → KVCacheBlock η} {queue : List Nat}
    (hidle : ∀ b ∈ queue, (blocks b).blockHash ≠ none →
      (blocks b).cacheIdleSinceNs.isSome = true) (expired : List Nat) (next : Option Nat) :
    ∃ next', scan nowNs timeoutNs blocks queue expired next =
        .ok (expired ++ queue.filter (fun b => Due nowNs timeoutNs (blocks b)), next') ∧
      (∀ m ∈ next, ∃ n ∈ next', n ≤ m) ∧
      Covers timeoutNs blocks next'
        (queue.filter (fun b => !decide (Due nowNs timeoutNs (blocks b)))) := by
  induction queue generalizing expired next with
  | nil =>
    exact ⟨next, by simp [scan], fun m hm => ⟨m, hm, le_rfl⟩, by simp [Covers]⟩
  | cons b queue ih =>
    have hrest := fun x hx => hidle x (List.mem_cons_of_mem b hx)
    -- a block that is not due, with what covers it
    have hkeep : ∀ (after : Option Nat), ¬Due nowNs timeoutNs (blocks b) →
        (∀ m ∈ next, ∃ n ∈ after, n ≤ m) →
        ((blocks b).blockHash ≠ none → ∃ e ∈ (blocks b).expiryNs timeoutNs, ∃ n ∈ after, n ≤ e) →
        ∃ next', scan nowNs timeoutNs blocks queue expired after =
            .ok (expired ++ (b :: queue).filter (fun b => Due nowNs timeoutNs (blocks b)),
              next') ∧
          (∀ m ∈ next, ∃ n ∈ next', n ≤ m) ∧
          Covers timeoutNs blocks next'
            ((b :: queue).filter (fun b => !decide (Due nowNs timeoutNs (blocks b)))) := by
      intro after hdue hafter hcover
      obtain ⟨next', hscan, hle, hcovers⟩ := ih hrest expired after
      refine ⟨next', ?_, fun m hm => ?_, fun x hx hhash => ?_⟩
      · rw [List.filter_cons_of_neg (by simpa using hdue)]
        exact hscan
      · obtain ⟨n, hn, hnm⟩ := hafter m hm
        obtain ⟨k, hk, hkn⟩ := hle n hn
        exact ⟨k, hk, hkn.trans hnm⟩
      · rw [List.filter_cons_of_pos (by simpa using hdue)] at hx
        rcases List.mem_cons.1 hx with rfl | hx
        · obtain ⟨e, he, n, hn, hne⟩ := hcover hhash
          obtain ⟨k, hk, hkn⟩ := hle n hn
          exact ⟨e, he, k, hk, hkn.trans hne⟩
        · exact hcovers x hx hhash
    simp only [scan]
    split
    · -- not in the cache
      rename_i hnone
      exact hkeep next (fun h => h.1 hnone) (fun m hm => ⟨m, hm, le_rfl⟩)
        (fun h => absurd hnone h)
    rename_i hhash
    obtain ⟨idleSinceNs, hsince⟩ := Option.isSome_iff_exists.1 (hidle b (by simp) hhash)
    have hexpiry : (blocks b).expiryNs timeoutNs =
        some (max (idleSinceNs + timeoutNs) (blocks b).protectedUntilNs) := by
      simp [KVCacheBlock.expiryNs, hsince]
    split
    · -- protected: the end of the protection stands in for the time of the block
      rename_i hprot
      obtain ⟨n, hn, hnle, hnm⟩ := earlier_le next (blocks b).protectedUntilNs
      refine hkeep _ ?_ (fun m hm => ⟨n, hn, hnm m hm⟩) fun _ =>
        ⟨_, hexpiry, n, hn, hnle.trans (le_max_right _ _)⟩
      rintro ⟨-, e, he, hle⟩
      obtain rfl := Option.some.inj (hexpiry.symm.trans he)
      omega
    rename_i hprot
    simp only [hsince]
    split
    · -- its time has come
      rename_i hdue
      have hdue' : Due nowNs timeoutNs (blocks b) := ⟨hhash, _, hexpiry, by omega⟩
      obtain ⟨next', hscan, hle, hcovers⟩ := ih hrest (expired ++ [b]) next
      refine ⟨next', ?_, hle, ?_⟩
      · rw [List.filter_cons_of_pos (by simpa using hdue')]
        simpa using hscan
      · rw [List.filter_cons_of_neg (by simpa using hdue')]
        exact hcovers
    · rename_i hlater
      obtain ⟨n, hn, hnle, hnm⟩ := earlier_le next (idleSinceNs + timeoutNs)
      refine hkeep _ ?_ (fun m hm => ⟨n, hn, hnm m hm⟩) fun _ =>
        ⟨_, hexpiry, n, hn, hnle.trans (le_max_left _ _)⟩
      rintro ⟨-, e, he, hle⟩
      obtain rfl := Option.some.inj (hexpiry.symm.trans he)
      omega

/-- What dropping the expired blocks leaves. -/
structure Dropped (expired : List Nat) (pool pool' : BlockPool η) : Prop where
  setup : SameSetup pool pool'
  queue : pool'.freeBlockQueue = pool.freeBlockQueue.filter (· ∉ expired)
  others : ∀ x, x ∉ expired → pool'.blocks x = pool.blocks x ∧ SameHashes x pool pool'
  refCnt : ∀ x, (pool'.blocks x).refCnt = (pool.blocks x).refCnt
  isNull : ∀ x, (pool'.blocks x).isNull = (pool.blocks x).isNull
  blockHash : ∀ b ∈ expired, (pool'.blocks b).blockHash = none
  protection : ∀ x, (pool'.blocks x).protectedUntilNs ≤ (pool.blocks x).protectedUntilNs

/-- **The second loop of `expire_cached_blocks`** goes through, and touches the expired blocks
only. -/
theorem dropExpiredHashes_spec {expired : List Nat} (hexpired : expired.Nodup)
    (hqueue : pool.freeBlockQueue.Nodup) (hmem : ∀ b ∈ expired, b ∈ pool.freeBlockQueue) :
    ∃ hashes pool', dropExpiredHashes expired pool = .ok (hashes, pool') ∧
      Dropped expired pool pool' := by
  induction expired generalizing pool with
  | nil =>
    exact ⟨[], pool, rfl, .refl _, by simp, fun x _ => ⟨rfl, .refl _ _⟩, fun _ => rfl,
      fun _ => rfl, by simp, fun _ => le_rfl⟩
  | cons b rest ih =>
    obtain ⟨hb, hrest⟩ := List.nodup_cons.1 hexpired
    have hin := hmem b (by simp)
    set q := (removeCachedBlockHashes b
      { pool with freeBlockQueue := pool.freeBlockQueue.erase b }).2 with hq
    have hspec := removeCachedBlockHashes_spec b
      { pool with freeBlockQueue := pool.freeBlockQueue.erase b }
    rw [← hq] at hspec
    have hqq : q.freeBlockQueue = pool.freeBlockQueue.erase b := hspec.queue
    have hne : ∀ x ∈ rest, x ≠ b := fun x hx heq => hb (heq ▸ hx)
    have hqnodup : q.freeBlockQueue.Nodup := by
      rw [hqq]
      exact hqueue.erase b
    obtain ⟨hashes, pool', hdrop, hd⟩ := ih hrest hqnodup fun x hx => by
      rw [hqq, List.mem_erase_of_ne (hne x hx)]
      exact hmem x (by simp [hx])
    refine ⟨(removeCachedBlockHashes b
      { pool with freeBlockQueue := pool.freeBlockQueue.erase b }).1 ++ hashes, pool', ?_, ?_⟩
    · simp only [dropExpiredHashes, remove, if_pos hin, bind, Except.bind, ← hq, hdrop]
      rfl
    · -- the fields of a block other than the first one are those before
      have hblocks : ∀ x, x ≠ b → q.blocks x = pool.blocks x := fun x hx =>
        (hspec.others x hx).1
      refine ⟨⟨hd.setup.numGpuBlocks.trans hspec.setup.numGpuBlocks,
        hd.setup.enableCaching.trans hspec.setup.enableCaching,
        hd.setup.timeout.trans hspec.setup.timeout⟩, ?_, fun x hx => ?_, fun x => ?_,
        fun x => ?_, fun x hx => ?_, fun x => ?_⟩
      · rw [hd.queue, hqq, hqueue.erase_eq_filter, List.filter_filter]
        refine List.filter_congr fun x _ => ?_
        by_cases hxb : x = b <;> simp [hxb]
      · obtain ⟨hxb, hxr⟩ := not_or.1 (fun hor => hx (List.mem_cons.2 hor))
        refine ⟨(hd.others x hxr).1.trans (hblocks x hxb), ?_⟩
        have hfirst : SameHashes x pool q :=
          ⟨(hspec.others x hxb).2.blockHash, (hspec.others x hxb).2.byBlock,
            (hspec.others x hxb).2.toBlock⟩
        exact hfirst.trans (hd.others x hxr).2
      · rw [hd.refCnt]
        by_cases hxb : x = b
        · subst hxb
          exact hspec.refCnt
        · rw [hblocks x hxb]
      · rw [hd.isNull]
        by_cases hxb : x = b
        · subst hxb
          exact hspec.isNull
        · rw [hblocks x hxb]
      · rcases List.mem_cons.1 hx with rfl | hx
        · rw [(hd.others x hb).1]
          exact hspec.blockHash
        · exact hd.blockHash x hx
      · refine (hd.protection x).trans ?_
        by_cases hxb : x = b
        · subst hxb
          exact hspec.protection
        · rw [hblocks x hxb]

/-- What an expiry leaves, of which the blocks may be told by their time. -/
structure Expired (nowNs timeoutNs : Nat) (pool pool' : BlockPool η) : Prop where
  setup : SameSetup pool pool'
  queue : pool'.freeBlockQueue.Perm pool.freeBlockQueue
  kept : ∀ b, ¬(b ∈ pool.freeBlockQueue ∧ Due nowNs timeoutNs (pool.blocks b)) →
    pool'.blocks b = pool.blocks b ∧ SameHashes b pool pool'
  gone : ∀ b ∈ pool.freeBlockQueue, Due nowNs timeoutNs (pool.blocks b) →
    (pool'.blocks b).blockHash = none
  refCnt : ∀ x, (pool'.blocks x).refCnt = (pool.blocks x).refCnt
  isNull : ∀ x, (pool'.blocks x).isNull = (pool.blocks x).isNull
  protection : ∀ x, (pool'.blocks x).protectedUntilNs ≤ (pool.blocks x).protectedUntilNs
  covers : Covers timeoutNs pool'.blocks pool'.nextPrefixCacheExpiryNs pool'.freeBlockQueue

omit [DecidableEq η] in
/-- A pool in which nothing is due, left as it is. -/
theorem Expired.refl {nowNs timeoutNs : Nat}
    (hcovers : Covers timeoutNs pool.blocks pool.nextPrefixCacheExpiryNs pool.freeBlockQueue)
    (hnone : ∀ b ∈ pool.freeBlockQueue, ¬Due nowNs timeoutNs (pool.blocks b)) :
    Expired nowNs timeoutNs pool pool :=
  ⟨.refl _, .refl _, fun _ _ => ⟨rfl, .refl _ _⟩, fun b hb hdue => absurd hdue (hnone b hb),
    fun _ => rfl, fun _ => rfl, fun _ => le_rfl, hcovers⟩

/-- Events change nothing in the pool. -/
theorem expireCachedBlocksEvents_map (events : Bool) (nowNs : Nat) (pool : BlockPool η) :
    (expireCachedBlocksEvents events nowNs pool).map (fun r => (r.1, r.2.2)) =
      expireCachedBlocks nowNs pool := by
  rw [expireCachedBlocks, expireCachedBlocksEvents, expireCachedBlocksEvents]
  split
  · split
    · rfl
    · rename_i timeoutNs _ _ _ _
      cases scan nowNs timeoutNs pool.blocks pool.freeBlockQueue [] none with
      | error e => rfl
      | ok scanned =>
        obtain ⟨expired, next⟩ := scanned
        simp only [bind, Except.bind]
        cases dropExpiredHashes expired pool <;> rfl
  · rfl

/-- Without a timeout nothing expires. -/
theorem expireCachedBlocks_none (nowNs : Nat) (h : pool.prefixCacheIdleTimeoutNs = none) :
    expireCachedBlocks nowNs pool = .ok (0, pool) := by
  rw [expireCachedBlocks, expireCachedBlocksEvents, h]
  rfl

/-- Expiry under a deadline that covers the queue, with the order of the queue after it: first
the blocks that have expired, then the others, each in the order in which they were. -/
theorem expireCachedBlocks_order (nowNs : Nat) {timeoutNs : Nat}
    (htimeout : pool.prefixCacheIdleTimeoutNs = some timeoutNs)
    (hnodup : pool.freeBlockQueue.Nodup)
    (hcovers : Covers timeoutNs pool.blocks pool.nextPrefixCacheExpiryNs pool.freeBlockQueue) :
    ∃ pool', expireCachedBlocks nowNs pool =
        .ok ((pool.freeBlockQueue.filter (fun b => Due nowNs timeoutNs (pool.blocks b))).length,
          pool') ∧
      Expired nowNs timeoutNs pool pool' ∧
      pool'.freeBlockQueue =
        pool.freeBlockQueue.filter (fun b => Due nowNs timeoutNs (pool.blocks b)) ++
          pool.freeBlockQueue.filter
            (fun b => !decide (Due nowNs timeoutNs (pool.blocks b))) := by
  -- when nothing is due, the pool stays as it is
  have hidle : ∀ {next : Option Nat}, pool.nextPrefixCacheExpiryNs = next →
      (∀ b ∈ pool.freeBlockQueue, ¬Due nowNs timeoutNs (pool.blocks b)) →
      ∃ pool', (.ok (0, pool) : Except PoolError (Nat × BlockPool η)) =
          .ok ((pool.freeBlockQueue.filter
            (fun b => Due nowNs timeoutNs (pool.blocks b))).length, pool') ∧
        Expired nowNs timeoutNs pool pool' ∧
        pool'.freeBlockQueue =
          pool.freeBlockQueue.filter (fun b => Due nowNs timeoutNs (pool.blocks b)) ++
            pool.freeBlockQueue.filter
              (fun b => !decide (Due nowNs timeoutNs (pool.blocks b))) := by
    intro next _ hnone
    have hempty : pool.freeBlockQueue.filter (fun b => Due nowNs timeoutNs (pool.blocks b)) = [] :=
      List.filter_eq_nil_iff.2 fun b hb => by simpa using hnone b hb
    have hall : pool.freeBlockQueue.filter
        (fun b => !decide (Due nowNs timeoutNs (pool.blocks b))) = pool.freeBlockQueue :=
      List.filter_eq_self.2 fun b hb => by simpa using hnone b hb
    refine ⟨pool, by rw [hempty]; rfl, .refl hcovers hnone, ?_⟩
    rw [hempty, hall, List.nil_append]
  simp only [expireCachedBlocks, expireCachedBlocksEvents, htimeout]
  cases hnext : pool.nextPrefixCacheExpiryNs with
  | none =>
    refine hidle hnext fun b hb hdue => ?_
    obtain ⟨-, -, n, hn, -⟩ := hcovers b hb hdue.1
    rw [hnext] at hn
    cases hn
  | some nextExpiryNs =>
    simp only
    split
    · -- the deadline has not come, so no block is due
      rename_i hlt
      refine hidle hnext fun b hb hdue => ?_
      obtain ⟨e, he, n, hn, hne⟩ := hcovers b hb hdue.1
      obtain ⟨e', he', hle⟩ := hdue.2
      obtain rfl := Option.some.inj (he.symm.trans he')
      obtain rfl := Option.some.inj (hnext.symm.trans hn)
      omega
    · have hsince : ∀ b ∈ pool.freeBlockQueue, (pool.blocks b).blockHash ≠ none →
          (pool.blocks b).cacheIdleSinceNs.isSome = true := by
        intro b hb hhash
        obtain ⟨e, he, -⟩ := hcovers b hb hhash
        obtain ⟨i, hi, -⟩ := Option.map_eq_some_iff.1 he
        simp [hi]
      obtain ⟨next', hscan, -, hcov⟩ := scan_spec nowNs timeoutNs hsince [] none
      rw [List.nil_append] at hscan
      set expired := pool.freeBlockQueue.filter
        (fun b => Due nowNs timeoutNs (pool.blocks b)) with hexpired
      obtain ⟨hashes, q, hdrop, hd⟩ := dropExpiredHashes_spec (hnodup.filter _) hnodup
        (fun b hb => (List.mem_filter.1 hb).1)
      rw [← hexpired] at hdrop hd
      have hmem : ∀ b, b ∈ expired ↔ b ∈ pool.freeBlockQueue ∧
          Due nowNs timeoutNs (pool.blocks b) := fun b => by simp [hexpired]
      have hrest : pool.freeBlockQueue.filter (· ∉ expired) = pool.freeBlockQueue.filter
          (fun b => !decide (Due nowNs timeoutNs (pool.blocks b))) := by
        refine List.filter_congr fun b hb => ?_
        simp [hmem, hb]
      refine ⟨_, by rw [hscan]; simp only [bind, Except.bind, hdrop]; rfl, ?_, ?_⟩
      rotate_left
      · simp only [prependN]
        rw [hd.queue, hrest, hexpired]
      refine ⟨⟨hd.setup.numGpuBlocks, hd.setup.enableCaching, hd.setup.timeout⟩, ?_,
        fun b hb => ?_, fun b hb hdue => hd.blockHash b ((hmem b).2 ⟨hb, hdue⟩), hd.refCnt,
        hd.isNull, hd.protection, fun b hb hhash => ?_⟩
      · simp only [prependN]
        rw [hd.queue, hrest, hexpired]
        exact List.filter_append_perm _ _
      · obtain ⟨hblock, hhashes⟩ := hd.others b (fun h => hb ((hmem b).1 h))
        exact ⟨hblock, ⟨hhashes.blockHash, hhashes.byBlock, hhashes.toBlock⟩⟩
      · -- a block with a hash is not among the expired ones
        rcases List.mem_append.1 hb with hb | hb
        · exact absurd (hd.blockHash b hb) hhash
        · rw [hd.queue, hrest] at hb
          have hnot : b ∉ expired := fun h => hhash (hd.blockHash b h)
          simp only [(hd.others b hnot).1] at hhash ⊢
          exact hcov b hb hhash

/-- **Expiry** under a deadline that covers the queue: no assertion fails, and the hashed blocks
whose time has come, and no others, lose their hashes. -/
theorem expireCachedBlocks_spec (nowNs : Nat) {timeoutNs : Nat}
    (htimeout : pool.prefixCacheIdleTimeoutNs = some timeoutNs)
    (hnodup : pool.freeBlockQueue.Nodup)
    (hcovers : Covers timeoutNs pool.blocks pool.nextPrefixCacheExpiryNs pool.freeBlockQueue) :
    ∃ n pool', expireCachedBlocks nowNs pool = .ok (n, pool') ∧
      Expired nowNs timeoutNs pool pool' := by
  obtain ⟨pool', hok, hexpired, -⟩ := expireCachedBlocks_order nowNs htimeout hnodup hcovers
  exact ⟨_, pool', hok, hexpired⟩

/-- **Evicting blocks**, one at a time. -/
theorem evictBlocks_induction {P : BlockPool η → Prop}
    (hstep : ∀ b p q, Unhashed b p q → P p → P q) {l : List Nat}
    (h : evictBlocks l pool = .ok pool') (hP : P pool) : P pool' := by
  induction l generalizing pool with
  | nil =>
    obtain rfl := Except.ok.inj h
    exact hP
  | cons b rest ih =>
    simp only [evictBlocks] at h
    split at h
    · exact ih h (hstep b pool _ (removeCachedBlockHashes_spec b pool) hP)
    · cases h

/-! ### Sessions -/

omit [DecidableEq η] in
/-- **A stamp** changes the protection of the blocks of a request, and only upwards. -/
theorem stamp_eq (nowNs protectNs : Nat) (sessionId : String) (groups : List (List Nat))
    (pool : BlockPool η) :
    stampSessionBlockProtection nowNs (some sessionId) (some protectNs) groups pool =
      { pool with
        blocks := fun b =>
          if b ∈ groups.flatten then
            { pool.blocks b with
              protectedUntilNs := max (pool.blocks b).protectedUntilNs (nowNs + protectNs) }
          else pool.blocks b } :=
  @foldl_setBlock _ (fun block =>
      { block with protectedUntilNs := max block.protectedUntilNs (nowNs + protectNs) })
    (fun block => by simp) groups.flatten pool

end Kv

end DgxSpark
