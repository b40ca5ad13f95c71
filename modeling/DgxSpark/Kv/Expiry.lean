import DgxSpark.Kv.PoolSpec

/-!
# Idle expiry over whole runs

A run of the pool is any sequence of its operations under a clock that does not go backwards
(`DgxSpark.Kv.Run`). The one thing asked of the callers is that a block gets a key only while
they hold it (`DgxSpark.Kv.Op.Proper`).

The deadline of the pool is written by `free_blocks`, `expire_cached_blocks` and
`reset_prefix_cache` only, while every operation changes the blocks it stands for. What carries
the result is that it never has to be exact: it is no later than the time of any hashed block in
the queue (`DgxSpark.Kv.Covers`), and an operation that takes blocks out of the queue, takes
hashes off, or raises a protection can only make that more true
(`DgxSpark.Kv.Covers.mono`).
-/

namespace DgxSpark

namespace Kv

variable {η : Type} [DecidableEq η]

omit [DecidableEq η] in
theorem except_map_eq_ok {ε α β : Type} {f : α → β} {x : Except ε α} {b : β} :
    x.map f = .ok b ↔ ∃ a, x = .ok a ∧ f a = b := by
  cases x <;> simp [Except.map]

/-! ### Runs -/

/-- The operations of the pool. Those that cache blocks for a request take the keys of a block
off when a longer prefix replaces them, and give it new ones. -/
inductive Op (η : Type) where
  | getNewBlocks (numBlocks : Nat)
  | insertBlockHash (key : BlockHashWithGroupId η) (b : Nat) (numTokens : Option Nat)
  | removeCachedBlockHashes (b : Nat)
  | touch (blocks : List Nat)
  | freeBlocks (orderedBlocks : List Nat)
  | evictBlocks (blockIds : List Nat)
  | expireCachedBlocks
  | resetPrefixCache
  | stampSessionBlockProtection (sessionId : Option String) (protectNs : Option Nat)
      (groups : List (List Nat))

/-- One operation, at a time. -/
def step (nowNs : Nat) : Op η → BlockPool η → Except PoolError (BlockPool η)
  | .getNewBlocks numBlocks, pool => (getNewBlocks nowNs numBlocks pool).map (·.2)
  | .insertBlockHash key b numTokens, pool => insertBlockHash key b numTokens pool
  | .removeCachedBlockHashes b, pool => .ok (removeCachedBlockHashes b pool).2
  | .touch blocks, pool => touch blocks pool
  | .freeBlocks orderedBlocks, pool => .ok (freeBlocks nowNs orderedBlocks pool)
  | .evictBlocks blockIds, pool => evictBlocks blockIds pool
  | .expireCachedBlocks, pool => (expireCachedBlocks nowNs pool).map (·.2)
  | .resetPrefixCache, pool => .ok (resetPrefixCache pool).2
  | .stampSessionBlockProtection sessionId protectNs groups, pool =>
    .ok (stampSessionBlockProtection nowNs sessionId protectNs groups pool)

/-- What the callers see to: with the cache on, a block that gets a key is held by somebody. -/
def Op.Proper : Op η → BlockPool η → Prop
  | .insertBlockHash _ b _, pool => pool.enableCaching = true ∧ 0 < (pool.blocks b).refCnt
  | _, _ => True

/-- A run, from a time and a pool to a time and a pool. An operation that raises ends it. -/
inductive Run : Nat → BlockPool η → Nat → BlockPool η → Prop
  | refl (t : Nat) (pool : BlockPool η) : Run t pool t pool
  | step {t t' nowNs : Nat} {p q r : BlockPool η} (op : Op η) :
      Run t p t' q → t' ≤ nowNs → op.Proper q → Kv.step nowNs op q = .ok r → Run t p nowNs r

/-! ### The invariant -/

/-- **The queue** has each free block once: those of the pool, but for the null block, that
nobody holds. -/
structure Tidy (pool : BlockPool η) : Prop where
  nodup : pool.freeBlockQueue.Nodup
  mem : ∀ b, b ∈ pool.freeBlockQueue ↔
    b < pool.numGpuBlocks ∧ (pool.blocks b).isNull = false ∧ (pool.blocks b).refCnt ≤ 0
  outside : ∀ b, pool.numGpuBlocks ≤ b →
    (pool.blocks b).isNull = false ∧ (pool.blocks b).refCnt ≤ 0
  uncached : pool.enableCaching = false → ∀ b, (pool.blocks b).blockHash = none

/-- **The deadline** covers the queue. -/
def Covered (pool : BlockPool η) : Prop :=
  ∀ timeoutNs ∈ pool.prefixCacheIdleTimeoutNs,
    Covers timeoutNs pool.blocks pool.nextPrefixCacheExpiryNs pool.freeBlockQueue

section Invariant

variable {pool pool' : BlockPool η} {nowNs timeoutNs : Nat}

omit [DecidableEq η] in
/-- Fewer blocks, fewer hashes, more protection: a deadline that covers goes on covering. -/
theorem Covers.mono {blocks blocks' : Nat → KVCacheBlock η} {next : Option Nat}
    {queue queue' : List Nat} (h : Covers timeoutNs blocks next queue)
    (hsub : ∀ b ∈ queue', (blocks' b).blockHash ≠ none → b ∈ queue ∧
      (blocks b).blockHash ≠ none ∧
      (blocks' b).cacheIdleSinceNs = (blocks b).cacheIdleSinceNs ∧
      (blocks b).protectedUntilNs ≤ (blocks' b).protectedUntilNs) :
    Covers timeoutNs blocks' next queue' := by
  intro b hb hhash
  obtain ⟨hin, hwas, hidle, hprot⟩ := hsub b hb hhash
  obtain ⟨e, he, n, hn, hne⟩ := h b hin hwas
  obtain ⟨idleSinceNs, hsince, rfl⟩ := Option.map_eq_some_iff.1 he
  refine ⟨max (idleSinceNs + timeoutNs) (blocks' b).protectedUntilNs, ?_, n, hn,
    hne.trans (max_le_max_left _ hprot)⟩
  simp [KVCacheBlock.expiryNs, hidle, hsince]

omit [DecidableEq η] in
/-- The same blocks in the queue, with the same references. -/
theorem Tidy.of_same (h : Tidy pool) (hsetup : SameSetup pool pool')
    (hqueue : pool'.freeBlockQueue.Perm pool.freeBlockQueue)
    (href : ∀ x, (pool'.blocks x).refCnt = (pool.blocks x).refCnt)
    (hnull : ∀ x, (pool'.blocks x).isNull = (pool.blocks x).isNull)
    (huncached : pool.enableCaching = false → ∀ x, (pool'.blocks x).blockHash = none) :
    Tidy pool' := by
  refine ⟨hqueue.nodup_iff.2 h.nodup, fun b => ?_, fun b hb => ?_, fun hc => ?_⟩
  · rw [hqueue.mem_iff, h.mem, hsetup.numGpuBlocks, hnull, href]
  · rw [hnull, href]
    exact h.outside b (by rwa [hsetup.numGpuBlocks] at hb)
  · exact huncached (by rwa [hsetup.enableCaching] at hc)

omit [DecidableEq η] in
/-- Taking hashes off. -/
theorem Unhashed.inv {b : Nat} (h : Unhashed b pool pool') (hi : Tidy pool ∧ Covered pool) :
    Tidy pool' ∧ Covered pool' := by
  have hfield : ∀ {β : Type} (f : KVCacheBlock η → β),
      f (pool'.blocks b) = f (pool.blocks b) →
      ∀ x, f (pool'.blocks x) = f (pool.blocks x) := by
    intro β f hf x
    by_cases hx : x = b
    · subst hx
      exact hf
    · rw [(h.others x hx).1]
  refine ⟨hi.1.of_same h.setup (by rw [h.queue]) (hfield _ h.refCnt) (hfield _ h.isNull)
    fun hc x => ?_, fun timeoutNs ht => ?_⟩
  · by_cases hx : x = b
    · subst hx
      exact h.blockHash
    · rw [(h.others x hx).1]
      exact hi.1.uncached hc x
  · rw [h.setup.timeout] at ht
    rw [h.next, h.queue]
    refine (hi.2 timeoutNs ht).mono fun x hx hhash => ?_
    have hne : x ≠ b := fun heq => hhash (heq ▸ h.blockHash)
    rw [(h.others x hne).1] at hhash ⊢
    exact ⟨hx, hhash, rfl, le_rfl⟩

omit [DecidableEq η] in
/-- A new key for a block that is held, and so not in the queue. -/
theorem Hashed.inv {b : Nat} (h : Hashed b pool pool') (hcache : pool.enableCaching = true)
    (hheld : 0 < (pool.blocks b).refCnt) (hi : Tidy pool ∧ Covered pool) :
    Tidy pool' ∧ Covered pool' := by
  have hfield : ∀ {β : Type} (f : KVCacheBlock η → β),
      f (pool'.blocks b) = f (pool.blocks b) →
      ∀ x, f (pool'.blocks x) = f (pool.blocks x) := by
    intro β f hf x
    by_cases hx : x = b
    · subst hx
      exact hf
    · rw [h.others x hx]
  refine ⟨hi.1.of_same h.setup (by rw [h.queue]) (hfield _ h.refCnt) (hfield _ h.isNull)
    fun hc => absurd (hcache.symm.trans hc) (by simp), fun timeoutNs ht => ?_⟩
  rw [h.setup.timeout] at ht
  rw [h.next, h.queue]
  refine (hi.2 timeoutNs ht).mono fun x hx hhash => ?_
  have hne : x ≠ b := by
    rintro rfl
    have := ((hi.1.mem x).1 hx).2.2
    omega
  rw [h.others x hne] at hhash ⊢
  exact ⟨hx, hhash, rfl, le_rfl⟩

omit [DecidableEq η] in
/-- Blocks that leave the queue with their first reference. -/
theorem Allocated.inv {ret : List Nat} (h : Allocated ret pool pool')
    (hi : Tidy pool ∧ Covered pool) : Tidy pool' ∧ Covered pool' := by
  have hqueue : ∀ b, b ∈ pool'.freeBlockQueue ↔ b ∈ pool.freeBlockQueue ∧ b ∉ ret := by
    intro b
    rw [h.queue, List.mem_filter]
    simp
  refine ⟨⟨by rw [h.queue]; exact hi.1.nodup.filter _, fun b => ?_, fun b hb => ?_,
    fun hc b => ?_⟩, fun timeoutNs ht => ?_⟩
  · rw [hqueue, h.setup.numGpuBlocks]
    by_cases hb : b ∈ ret
    · have hone := h.refCnt b hb
      simp only [hb, not_true_eq_false, and_false, false_iff]
      omega
    · rw [h.others b hb, hi.1.mem]
      simp [hb]
  · rw [h.setup.numGpuBlocks] at hb
    have hnot : b ∉ ret := by
      intro hmem
      have := ((hi.1.mem b).1 (h.free b hmem)).1
      omega
    rw [h.others b hnot]
    exact hi.1.outside b hb
  · rw [h.setup.enableCaching] at hc
    by_cases hb : b ∈ ret
    · rw [h.uncached hc b hb]
      exact hi.1.uncached hc b
    · rw [h.others b hb]
      exact hi.1.uncached hc b
  · rw [h.setup.timeout] at ht
    rw [h.next]
    refine (hi.2 timeoutNs ht).mono fun x hx hhash => ?_
    obtain ⟨hin, hnot⟩ := (hqueue x).1 hx
    rw [h.others x hnot] at hhash ⊢
    exact ⟨hin, hhash, rfl, le_rfl⟩

omit [DecidableEq η] in
/-- A touched block, which leaves the queue if it was there. -/
theorem Touched.inv {b : Nat} (h : Touched b pool pool') (hi : Tidy pool ∧ Covered pool) :
    Tidy pool' ∧ Covered pool' := by
  have hnull : ∀ x, (pool'.blocks x).isNull = (pool.blocks x).isNull := by
    intro x
    by_cases hx : x = b
    · subst hx
      exact h.isNull
    · rw [h.others x hx]
  have hhash : ∀ x, (pool'.blocks x).blockHash = (pool.blocks x).blockHash := by
    intro x
    by_cases hx : x = b
    · subst hx
      exact h.blockHash
    · rw [h.others x hx]
  have hone := h.refCnt
  have hbmem := hi.1.mem b
  rcases h.queue with ⟨hzero, hreal, hin, hqueue⟩ | ⟨hheld, hqueue, hidle⟩
  · -- the block is picked up from the queue
    have hmem : ∀ x, x ∈ pool'.freeBlockQueue ↔ x ≠ b ∧ x ∈ pool.freeBlockQueue := by
      intro x
      rw [hqueue, hi.1.nodup.mem_erase_iff]
    refine ⟨⟨by rw [hqueue]; exact hi.1.nodup.erase b, fun x => ?_, fun x hx => ?_,
      fun hc x => ?_⟩, fun timeoutNs ht => ?_⟩
    · rw [hmem, h.setup.numGpuBlocks]
      by_cases hx : x = b
      · subst hx
        simp only [ne_eq, not_true_eq_false, false_and, false_iff]
        omega
      · rw [h.others x hx, hi.1.mem]
        simp [hx]
    · rw [h.setup.numGpuBlocks] at hx
      have hne : x ≠ b := by
        rintro rfl
        have := (hbmem.1 hin).1
        omega
      rw [h.others x hne]
      exact hi.1.outside x hx
    · rw [hhash]
      exact hi.1.uncached (h.setup.enableCaching.symm.trans hc) x
    · rw [h.setup.timeout] at ht
      rw [h.next]
      refine (hi.2 timeoutNs ht).mono fun x hx hhashed => ?_
      obtain ⟨hne, hx⟩ := (hmem x).1 hx
      rw [h.others x hne] at hhashed ⊢
      exact ⟨hx, hhashed, rfl, le_rfl⟩
  · -- it stays where it is: held before and after, or not counted at all
    refine ⟨⟨by rw [hqueue]; exact hi.1.nodup, fun x => ?_, fun x hx => ?_, fun hc x => ?_⟩,
      fun timeoutNs ht => ?_⟩
    · rw [hqueue, h.setup.numGpuBlocks, hi.1.mem]
      by_cases hx : x = b
      · subst hx
        rw [h.isNull]
        refine and_congr_right fun _ => and_congr_right fun hreal => ?_
        have hne : (pool.blocks x).refCnt ≠ 0 := fun hz => hheld ⟨hz, hreal⟩
        omega
      · rw [h.others x hx]
    · rw [h.setup.numGpuBlocks] at hx
      have hout := hi.1.outside x hx
      by_cases hxb : x = b
      · subst hxb
        have hne : (pool.blocks x).refCnt ≠ 0 := fun hz => hheld ⟨hz, hout.1⟩
        rw [h.isNull]
        exact ⟨hout.1, by omega⟩
      · rw [h.others x hxb]
        exact hout
    · rw [hhash]
      exact hi.1.uncached (h.setup.enableCaching.symm.trans hc) x
    · rw [h.setup.timeout] at ht
      rw [h.next, hqueue]
      refine (hi.2 timeoutNs ht).mono fun x hx hhashed => ?_
      rw [hhash] at hhashed
      by_cases hxb : x = b
      · subst hxb
        exact ⟨hx, hhashed, hidle, h.protection.ge⟩
      · rw [h.others x hxb]
        exact ⟨hx, hhashed, rfl, le_rfl⟩

omit [DecidableEq η] in
/-- Blocks that go to the queue, with the time from which they are idle. -/
theorem Freed.inv {new : List Nat} (h : Freed nowNs new pool pool')
    (hi : Tidy pool ∧ Covered pool) : Tidy pool' ∧ Covered pool' := by
  have hmem : ∀ x, x ∈ pool'.freeBlockQueue ↔ x ∈ new ∨ x ∈ pool.freeBlockQueue := by
    intro x
    rw [h.queue.mem_iff, List.mem_append]
  have hdisjoint : ∀ x ∈ new, x ∉ pool.freeBlockQueue := by
    intro x hx hin
    have hheld := ((h.mem x).1 hx).2.1
    have hfree := ((hi.1.mem x).1 hin).2.2
    omega
  refine ⟨⟨?_, fun x => ?_, fun x hx => ?_, fun hc x => ?_⟩, fun timeoutNs ht => ?_⟩
  · refine h.queue.nodup_iff.2 (List.nodup_append.2 ⟨h.nodup, hi.1.nodup, ?_⟩)
    rintro x hx y hy rfl
    exact hdisjoint x hx hy
  · have hle := h.le x
    have hlt : 0 < (pool.blocks x).refCnt → x < pool.numGpuBlocks := fun hheld => by
      by_contra hnot
      have := (hi.1.outside x (by omega)).2
      omega
    rw [hmem, h.mem, hi.1.mem, h.setup.numGpuBlocks, h.isNull]
    constructor
    · rintro (⟨hreal, hheld, hfree⟩ | ⟨hin, hreal, hfree⟩)
      · exact ⟨hlt hheld, hreal, hfree⟩
      · exact ⟨hin, hreal, by omega⟩
    · rintro ⟨hin, hreal, hfree⟩
      by_cases hheld : 0 < (pool.blocks x).refCnt
      · exact Or.inl ⟨hreal, hheld, hfree⟩
      · exact Or.inr ⟨hin, hreal, by omega⟩
  · rw [h.setup.numGpuBlocks] at hx
    rw [h.isNull]
    exact ⟨(hi.1.outside x hx).1, (h.le x).trans (hi.1.outside x hx).2⟩
  · rw [h.blockHash]
    exact hi.1.uncached (h.setup.enableCaching.symm.trans hc) x
  · rw [h.setup.timeout] at ht
    intro x hx hhash
    rw [h.blockHash] at hhash
    by_cases hnew : x ∈ new
    · -- the deadline has been brought forward to this time
      obtain ⟨hidle, n, hn, hle⟩ := h.idle timeoutNs ht x hnew hhash
      refine ⟨max (nowNs + timeoutNs) (pool'.blocks x).protectedUntilNs, ?_, n, hn,
        hle.trans (le_max_left _ _)⟩
      simp [KVCacheBlock.expiryNs, hidle]
    · -- the deadline that covered the block has not been put off
      have hin := ((hmem x).1 hx).resolve_left hnew
      obtain ⟨e, he, m, hm, hme⟩ := hi.2 timeoutNs ht x hin hhash
      obtain ⟨n, hn, hnm⟩ := h.next m hm
      refine ⟨e, ?_, n, hn, hnm.trans hme⟩
      simp only [KVCacheBlock.expiryNs, h.others x hnew, h.protection x]
      exact he

omit [DecidableEq η] in
/-- Blocks that have expired, at the front of the queue. -/
theorem Expired.inv (h : Expired nowNs timeoutNs pool pool')
    (htimeout : pool.prefixCacheIdleTimeoutNs = some timeoutNs)
    (hi : Tidy pool ∧ Covered pool) : Tidy pool' ∧ Covered pool' := by
  refine ⟨hi.1.of_same h.setup h.queue h.refCnt h.isNull fun hc x => ?_, fun t ht => ?_⟩
  · by_cases hdue : x ∈ pool.freeBlockQueue ∧ Due nowNs timeoutNs (pool.blocks x)
    · exact h.gone x hdue.1 hdue.2
    · rw [(h.kept x hdue).1]
      exact hi.1.uncached hc x
  · rw [h.setup.timeout] at ht
    obtain rfl := Option.some.inj (htimeout.symm.trans ht)
    exact h.covers

omit [DecidableEq η] in
/-- A reset leaves no hash in the queue. -/
theorem resetPrefixCache_inv (hi : Tidy pool ∧ Covered pool) :
    Tidy (resetPrefixCache pool).2 ∧ Covered (resetPrefixCache pool).2 := by
  simp only [resetPrefixCache]
  split
  · exact hi
  · have hfield : ∀ {β : Type} (f : KVCacheBlock η → β),
        (∀ block, f block.resetHash = f block) → ∀ x,
        f (if x < pool.numGpuBlocks then (pool.blocks x).resetHash else pool.blocks x) =
          f (pool.blocks x) := by
      intro β f hf x
      split
      · exact hf _
      · rfl
    refine ⟨hi.1.of_same ⟨rfl, rfl, rfl⟩ (.refl _) (hfield _ fun _ => rfl)
      (hfield _ fun _ => rfl) fun hc x => ?_, fun t _ b hb hhash => ?_⟩
    · simp only
      split
      · rfl
      · exact hi.1.uncached hc x
    · have hlt := ((hi.1.mem b).1 hb).1
      simp only [if_pos hlt] at hhash
      exact absurd rfl hhash

omit [DecidableEq η] in
/-- A stamp only raises protection. -/
theorem stamp_inv (nowNs : Nat) (sessionId : Option String) (protectNs : Option Nat)
    (groups : List (List Nat)) (hi : Tidy pool ∧ Covered pool) :
    Tidy (stampSessionBlockProtection nowNs sessionId protectNs groups pool) ∧
      Covered (stampSessionBlockProtection nowNs sessionId protectNs groups pool) := by
  cases sessionId with
  | none => exact hi
  | some sessionId =>
    cases protectNs with
    | none => exact hi
    | some protectNs =>
      rw [stamp_eq]
      have hfield : ∀ {β : Type} (f : KVCacheBlock η → β),
          (∀ block n, f { block with protectedUntilNs := n } = f block) → ∀ x,
          f (if x ∈ groups.flatten then
            { pool.blocks x with
              protectedUntilNs := max (pool.blocks x).protectedUntilNs (nowNs + protectNs) }
            else pool.blocks x) = f (pool.blocks x) := by
        intro β f hf x
        split
        · exact hf _ _
        · rfl
      refine ⟨hi.1.of_same ⟨rfl, rfl, rfl⟩ (.refl _) (hfield _ fun _ _ => rfl)
        (hfield _ fun _ _ => rfl) fun hc x => ?_, fun t ht => ?_⟩
      · exact (hfield KVCacheBlock.blockHash (fun _ _ => rfl) x).trans (hi.1.uncached hc x)
      · refine (hi.2 t ht).mono fun b hb hhash => ⟨hb, ?_, ?_, ?_⟩
        · rwa [hfield KVCacheBlock.blockHash fun _ _ => rfl] at hhash
        · exact hfield KVCacheBlock.cacheIdleSinceNs (fun _ _ => rfl) b
        · simp only
          split
          · exact le_max_left _ _
          · exact le_rfl

/-! ### Runs keep it -/

omit [DecidableEq η] in
/-- What a new pool has in it. -/
theorem new_spec {roundNs : ℚ → Int} {numGpuBlocks : Nat} {enableCaching : Bool}
    {seconds : Option ℚ} (h : BlockPool.new roundNs numGpuBlocks enableCaching seconds =
      .ok pool) :
    numGpuBlocks ≠ 0 ∧ pool.numGpuBlocks = numGpuBlocks ∧
      pool.freeBlockQueue = (List.range numGpuBlocks).drop 1 ∧
      pool.blocks = fun b => { isNull := b = 0 } := by
  simp only [BlockPool.new] at h
  split at h
  · cases h
  · rename_i hpos
    cases seconds with
    | none =>
      obtain rfl := Except.ok.inj h
      exact ⟨hpos, rfl, rfl, rfl⟩
    | some seconds =>
      simp only at h
      split at h
      · cases h
      · split at h
        · cases h
        · obtain rfl := Except.ok.inj h
          exact ⟨hpos, rfl, rfl, rfl⟩

omit [DecidableEq η] in
/-- A new pool has an empty cache, and all its blocks but the null one in the queue. -/
theorem new_inv {roundNs : ℚ → Int} {numGpuBlocks : Nat} {enableCaching : Bool}
    {seconds : Option ℚ} (h : BlockPool.new roundNs numGpuBlocks enableCaching seconds =
      .ok pool) : Tidy pool ∧ Covered pool := by
  obtain ⟨hpos, hnum, hqueue, hblocks⟩ := new_spec h
  refine ⟨⟨?_, fun b => ?_, fun b hb => ?_, fun _ b => by rw [hblocks]⟩, fun t _ b _ hhash => ?_⟩
  · rw [hqueue]
    exact List.nodup_range.sublist (List.drop_sublist _ _)
  · rw [hqueue, hnum, hblocks]
    simp only [List.mem_drop_iff_getElem, List.getElem_range, List.length_range,
      decide_eq_false_iff_not]
    constructor
    · rintro ⟨i, hi, rfl⟩
      exact ⟨by omega, by omega, le_rfl⟩
    · rintro ⟨hlt, hpos, -⟩
      exact ⟨b - 1, by omega, by omega⟩
  · rw [hnum] at hb
    rw [hblocks]
    exact ⟨decide_eq_false (by omega), le_rfl⟩
  · rw [hblocks] at hhash
    exact absurd rfl hhash

/-- **What an operation comes to**: one of these changes, or several of them in a row. -/
inductive Change (nowNs : Nat) (op : Op η) (pool pool' : BlockPool η) : Prop
  | allocated (ret : List Nat) (h : Allocated ret pool pool')
  | hashed (b : Nat) (h : Hashed b pool pool') (hcache : pool.enableCaching = true)
      (hheld : 0 < (pool.blocks b).refCnt)
      (hop : ∃ key numTokens, op = .insertBlockHash key b numTokens)
  | unhashed (b : Nat) (h : Unhashed b pool pool')
  | touched (b : Nat) (h : Touched b pool pool')
  | freed (new : List Nat) (h : Freed nowNs new pool pool')
      (hop : ∃ orderedBlocks, op = .freeBlocks orderedBlocks)
  | expired (timeoutNs : Nat) (htimeout : pool.prefixCacheIdleTimeoutNs = some timeoutNs)
      (h : Expired nowNs timeoutNs pool pool')
  | reset (h : pool' = (resetPrefixCache pool).2)
  | stamped (sessionId : String) (protectNs : Nat) (groups : List (List Nat))
      (hop : op = .stampSessionBlockProtection (some sessionId) (some protectNs) groups)
      (h : pool' = stampSessionBlockProtection nowNs (some sessionId) (some protectNs) groups
        pool)

omit [DecidableEq η] in
/-- Each change keeps the invariant. -/
theorem Change.inv {op : Op η} (h : Change nowNs op pool pool') (hi : Tidy pool ∧ Covered pool) :
    Tidy pool' ∧ Covered pool' := by
  cases h with
  | allocated ret h => exact h.inv hi
  | hashed b h hcache hheld _ => exact h.inv hcache hheld hi
  | unhashed b h => exact h.inv hi
  | touched b h => exact h.inv hi
  | freed new h _ => exact h.inv hi
  | expired timeoutNs htimeout h => exact h.inv htimeout hi
  | reset h => exact h ▸ resetPrefixCache_inv hi
  | stamped sessionId protectNs groups _ h => exact h ▸ stamp_inv _ _ _ _ hi

omit [DecidableEq η] in
/-- No change touches what the pool was set up with. -/
theorem Change.setup {op : Op η} (h : Change nowNs op pool pool') : SameSetup pool pool' := by
  cases h with
  | allocated ret h => exact h.setup
  | hashed b h _ _ _ => exact h.setup
  | unhashed b h => exact h.setup
  | touched b h => exact h.setup
  | freed new h _ => exact h.setup
  | expired timeoutNs _ h => exact h.setup
  | reset h =>
    subst h
    simp only [resetPrefixCache]
    split <;> exact ⟨rfl, rfl, rfl⟩
  | stamped sessionId protectNs groups _ h =>
    rw [h, stamp_eq]
    exact ⟨rfl, rfl, rfl⟩

/-- **One operation**: what every change keeps, under the invariant, the operation keeps. -/
theorem step_induction {op : Op η} {P : BlockPool η → Prop}
    (hchange : ∀ p q, Tidy p ∧ Covered p → Change nowNs op p q → P p → P q)
    (hop : op.Proper pool) (h : step nowNs op pool = .ok pool') (hi : Tidy pool ∧ Covered pool)
    (hP : P pool) : (Tidy pool' ∧ Covered pool') ∧ P pool' := by
  -- one change, from a pool that has what is to be kept
  have hone : ∀ p q, Change nowNs op p q → ((Tidy p ∧ Covered p) ∧ P p) →
      ((Tidy q ∧ Covered q) ∧ P q) :=
    fun p q hc hp => ⟨hc.inv hp.1, hchange p q hp.1 hc hp.2⟩
  cases op with
  | getNewBlocks numBlocks =>
    obtain ⟨⟨ret, q⟩, hget, rfl⟩ := except_map_eq_ok.1 h
    exact hone _ _ (.allocated ret (getNewBlocks_spec hi.1.nodup hget).2) ⟨hi, hP⟩
  | insertBlockHash key b numTokens =>
    exact hone _ _ (.hashed b (insertBlockHash_spec h) hop.1 hop.2
      ⟨key, numTokens, rfl⟩) ⟨hi, hP⟩
  | removeCachedBlockHashes b =>
    obtain rfl := Except.ok.inj h
    exact hone _ _ (.unhashed b (removeCachedBlockHashes_spec b pool)) ⟨hi, hP⟩
  | touch blocks =>
    exact touch_induction (P := fun q => (Tidy q ∧ Covered q) ∧ P q)
      (fun b p q ht => hone p q (.touched b ht)) h ⟨hi, hP⟩
  | freeBlocks orderedBlocks =>
    obtain rfl := Except.ok.inj h
    obtain ⟨new, hfreed⟩ := freeBlocks_spec nowNs orderedBlocks pool
    exact hone _ _ (.freed new hfreed ⟨orderedBlocks, rfl⟩) ⟨hi, hP⟩
  | evictBlocks blockIds =>
    exact evictBlocks_induction (P := fun q => (Tidy q ∧ Covered q) ∧ P q)
      (fun b p q hu => hone p q (.unhashed b hu)) h ⟨hi, hP⟩
  | expireCachedBlocks =>
    obtain ⟨⟨n, q⟩, hexpire, rfl⟩ := except_map_eq_ok.1 h
    cases htimeout : pool.prefixCacheIdleTimeoutNs with
    | none =>
      rw [expireCachedBlocks_none nowNs htimeout] at hexpire
      obtain ⟨rfl, rfl⟩ := Prod.mk.inj (Except.ok.inj hexpire)
      exact ⟨hi, hP⟩
    | some timeoutNs =>
      obtain ⟨n', q', hok, hexpired⟩ :=
        expireCachedBlocks_spec nowNs htimeout hi.1.nodup (hi.2 timeoutNs htimeout)
      obtain ⟨rfl, rfl⟩ := Prod.mk.inj (Except.ok.inj (hexpire.symm.trans hok))
      exact hone _ _ (.expired timeoutNs htimeout hexpired) ⟨hi, hP⟩
  | resetPrefixCache =>
    obtain rfl := Except.ok.inj h
    exact hone _ _ (.reset rfl) ⟨hi, hP⟩
  | stampSessionBlockProtection sessionId protectNs groups =>
    obtain rfl := Except.ok.inj h
    cases sessionId with
    | none => exact ⟨hi, hP⟩
    | some sessionId =>
      cases protectNs with
      | none => exact ⟨hi, hP⟩
      | some protectNs => exact hone _ _ (.stamped sessionId protectNs groups rfl rfl) ⟨hi, hP⟩

/-- **A run** keeps the invariant, and what the pool was set up with. -/
theorem run_inv {t t' : Nat} (h : Run t pool t' pool') (hi : Tidy pool ∧ Covered pool) :
    (Tidy pool' ∧ Covered pool') ∧ SameSetup pool pool' := by
  induction h with
  | refl => exact ⟨hi, .refl _⟩
  | step _ _ _ hop hstep ih =>
    obtain ⟨hinv, hsetup⟩ := ih hi
    exact step_induction (P := fun q => SameSetup _ q)
      (fun _ _ _ hc hp => hp.trans hc.setup) hop hstep hinv hsetup

omit [DecidableEq η] in
/-- The timeout of a new pool is at least one nanosecond. -/
theorem new_timeout {roundNs : ℚ → Int} {numGpuBlocks : Nat} {enableCaching : Bool}
    {seconds : ℚ} (h : BlockPool.new roundNs numGpuBlocks enableCaching (some seconds) =
      .ok pool) : pool.prefixCacheIdleTimeoutNs = some (max 1 (roundNs seconds)).toNat := by
  simp only [BlockPool.new] at h
  split at h
  · cases h
  split at h
  · cases h
  split at h
  · cases h
  obtain rfl := Except.ok.inj h
  rfl

/-- **Idle expiry is complete and never premature**, after any run of a pool with a timeout.

Every hashed block in the queue has the time from which it is idle, and the deadline of the pool
is there and no later than the time of any of them. So an expiry, whenever it comes, raises
nothing, leaves no hashed block in the queue whose time has come, and takes no hash from a block
that is held or whose time has not come. -/
theorem idle_expiry {roundNs : ℚ → Int} {numGpuBlocks : Nat} {enableCaching : Bool} {seconds : ℚ}
    {start t : Nat}
    (hnew : BlockPool.new roundNs numGpuBlocks enableCaching (some seconds) = .ok pool)
    (hrun : Run start pool t pool') :
    ∃ timeoutNs, pool'.prefixCacheIdleTimeoutNs = some timeoutNs ∧
      timeoutNs = (max 1 (roundNs seconds)).toNat ∧
      (∀ b ∈ pool'.freeBlockQueue, (pool'.blocks b).blockHash ≠ none →
        (pool'.blocks b).cacheIdleSinceNs.isSome = true) ∧
      Covers timeoutNs pool'.blocks pool'.nextPrefixCacheExpiryNs pool'.freeBlockQueue ∧
      ∀ nowNs, ∃ n after, expireCachedBlocks nowNs pool' = .ok (n, after) ∧
        (∀ b ∈ after.freeBlockQueue, (after.blocks b).blockHash ≠ none →
          ∃ e ∈ (after.blocks b).expiryNs timeoutNs, nowNs < e) ∧
        ∀ b, (b ∉ pool'.freeBlockQueue ∨ 0 < (pool'.blocks b).refCnt ∨
          ∃ e ∈ (pool'.blocks b).expiryNs timeoutNs, nowNs < e) → SameHashes b pool' after := by
  obtain ⟨hinv, hsetup⟩ := run_inv hrun (new_inv hnew)
  have htimeout := hsetup.timeout.trans (new_timeout hnew)
  set timeoutNs := (max 1 (roundNs seconds)).toNat
  have hcovers := hinv.2 timeoutNs htimeout
  refine ⟨timeoutNs, htimeout, rfl, fun b hb hhash => ?_, hcovers, fun nowNs => ?_⟩
  · obtain ⟨e, he, -⟩ := hcovers b hb hhash
    obtain ⟨i, hi, -⟩ := Option.map_eq_some_iff.1 he
    simp [hi]
  obtain ⟨n, after, hok, hexpired⟩ :=
    expireCachedBlocks_spec nowNs htimeout hinv.1.nodup hcovers
  refine ⟨n, after, hok, fun b hb hhash => ?_, fun b hb => ?_⟩
  · -- a block that kept its hash was not due, and has the time that it had
    have hin : b ∈ pool'.freeBlockQueue := hexpired.queue.mem_iff.1 hb
    have hnot : ¬Due nowNs timeoutNs (pool'.blocks b) := fun hdue =>
      hhash (hexpired.gone b hin hdue)
    rw [(hexpired.kept b fun h => hnot h.2).1] at hhash ⊢
    obtain ⟨e, he, -⟩ := hcovers b hin hhash
    exact ⟨e, he, not_le.1 fun hle => hnot ⟨hhash, e, he, hle⟩⟩
  · refine (hexpired.kept b ?_).2
    rintro ⟨hin, -, e, he, hle⟩
    rcases hb with hout | hheld | ⟨e', he', hlt⟩
    · exact hout hin
    · have hfree := ((hinv.1.mem b).1 hin).2.2
      omega
    · obtain rfl := Option.some.inj (he.symm.trans he')
      omega

/-- One block, taken, cached and let go again, is the case of a run with something to expire. -/
theorem idle_expiry_one : ∃ pool' : BlockPool Unit, Run 0
      (⟨2, true, some 5, none, fun b => { isNull := b = 0 }, [1], fun _ => [], fun _ => []⟩) 3
      pool' ∧
    (pool'.blocks 1).blockHash = some ((), 0) ∧
    ∃ timeoutNs, pool'.prefixCacheIdleTimeoutNs = some timeoutNs ∧ timeoutNs = 5 ∧
      Covers timeoutNs pool'.blocks pool'.nextPrefixCacheExpiryNs pool'.freeBlockQueue := by
  have hrun : ∃ pool' : BlockPool Unit, Run 0
      (⟨2, true, some 5, none, fun b => { isNull := b = 0 }, [1], fun _ => [], fun _ => []⟩) 3
      pool' ∧ (pool'.blocks 1).blockHash = some ((), 0) :=
    ⟨_, .step (.freeBlocks [1]) (.step (.insertBlockHash ((), 0) 1 (some 16))
      (.step (.getNewBlocks 1) (.refl 0 _) (Nat.zero_le 1) trivial rfl)
      (Nat.le_succ 1) ⟨rfl, by decide⟩ rfl) (Nat.le_succ 2) trivial rfl, rfl⟩
  obtain ⟨pool', hrun, hhash⟩ := hrun
  obtain ⟨timeoutNs, htimeout, heq, -, hcovers, -⟩ :=
    @idle_expiry Unit _ _ pool' (fun _ => 5) 2 true 1 0 3 rfl hrun
  exact ⟨pool', hrun, hhash, timeoutNs, htimeout, heq, hcovers⟩

end Invariant

end Kv

end DgxSpark
