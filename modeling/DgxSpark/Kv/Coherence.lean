import DgxSpark.Kv.CacheMap
import DgxSpark.Kv.Expiry

/-!
# Coherence of the prefix cache

Which block has which key is stored three times: in the map from keys to blocks, in the primary
key of each block, and in the table of the keys beyond it. Runs of all operations of the pool
(`DgxSpark.Kv.CacheRun`), the moving of keys from one block to another among them, keep the three
in agreement (`DgxSpark.Kv.Coherent`).

What carries this is that keys go in one place only: to take the keys of a block off is, in a
coherent pool, to take the block from under all its keys
(`DgxSpark.Kv.Coherent.removeCachedBlockHashes`). An expiry does it for the expired blocks and for
no others (`DgxSpark.Kv.cache_coherent`).
-/

namespace DgxSpark

namespace Kv

variable {η : Type} [DecidableEq η]

/-! ### Moving keys -/

/-- The loop of `move_block_hashes`: a new key after the other. -/
def insertBlockHashes (b : Nat) (numTokens : Option Nat) :
    List (BlockHashWithGroupId η) → BlockPool η → Except PoolError (BlockPool η)
  | [], pool => .ok pool
  | key :: keys, pool => do
    let pool ← insertBlockHash key b numTokens pool
    insertBlockHashes b numTokens keys pool

/-- `move_block_hashes`. -/
def moveBlockHashes (src dst : Nat) (pool : BlockPool η) : Except PoolError (BlockPool η) :=
  if (pool.blocks dst).blockHash ≠ none then
    .error (.assertionError "dst_block.block_hash is None")
  else if pool.cachedBlockHashesByBlock dst ≠ [] then
    .error (.assertionError "dst_block.block_id not in self.cached_block_hashes_by_block")
  else
    let numTokens := (pool.blocks src).blockHashNumTokens
    let removed := removeCachedBlockHashes src pool
    insertBlockHashes dst numTokens removed.1 removed.2

/-! ### The invariant -/

/-- All keys of a block. -/
def BlockPool.keys (pool : BlockPool η) (b : Nat) : List (BlockHashWithGroupId η) :=
  (pool.blocks b).blockHash.toList ++ pool.cachedBlockHashesByBlock b

/-- **The cache is coherent**: a block is under its keys, and under no others; there are keys
beyond the primary one only if there is a primary one; nothing is stored twice, and nothing for a
block that the pool does not have. -/
structure Coherent (pool : BlockPool η) : Prop where
  mem_iff : ∀ key b, b ∈ pool.cachedBlockHashToBlock key ↔
    (pool.blocks b).blockHash = some key ∨ key ∈ pool.cachedBlockHashesByBlock b
  secondary : ∀ b, (pool.blocks b).blockHash = none → pool.cachedBlockHashesByBlock b = []
  distinct : ∀ b, (pool.keys b).Nodup
  nodup : ∀ key, (pool.cachedBlockHashToBlock key).Nodup
  outside : ∀ b, pool.numGpuBlocks ≤ b → (pool.blocks b).blockHash = none
  /-- the map has come about by its own operations -/
  reached : Reached pool.cachedBlockHashToBlock

section Coherent

variable {pool pool' : BlockPool η} {b : Nat} {key : BlockHashWithGroupId η}

omit [DecidableEq η] in
theorem mem_keys : key ∈ pool.keys b ↔
    (pool.blocks b).blockHash = some key ∨ key ∈ pool.cachedBlockHashesByBlock b := by
  rw [BlockPool.keys, List.mem_append, Option.mem_toList]

/-- Operations that leave keys and map as they are. -/
theorem Coherent.of_same (h : Coherent pool) (hnum : pool'.numGpuBlocks = pool.numGpuBlocks)
    (hhash : ∀ x, (pool'.blocks x).blockHash = (pool.blocks x).blockHash)
    (hmap : pool'.cachedBlockHashToBlock = pool.cachedBlockHashToBlock)
    (hby : pool'.cachedBlockHashesByBlock = pool.cachedBlockHashesByBlock) : Coherent pool' := by
  refine ⟨fun key b => ?_, fun b => ?_, fun b => ?_, fun key => ?_, fun b => ?_, ?_⟩
  · rw [hmap, hby, hhash]
    exact h.mem_iff key b
  · rw [hby, hhash]
    exact h.secondary b
  · rw [BlockPool.keys, hby, hhash]
    exact h.distinct b
  · rw [hmap]
    exact h.nodup key
  · rw [hnum, hhash]
    exact h.outside b
  · rw [hmap]
    exact h.reached

theorem Coherent.setBlock (h : Coherent pool) {block : KVCacheBlock η}
    (hsame : block.blockHash = (pool.blocks b).blockHash) : Coherent (pool.setBlock b block) := by
  refine h.of_same rfl (fun x => ?_) rfl rfl
  by_cases hx : x = b
  · subst hx
    simp only [BlockPool.setBlock, Function.update_self]
    exact hsame
  · simp only [BlockPool.setBlock, Function.update_of_ne hx]

/-! ### Taking keys off -/

/-- Popping all keys of a block, each of which it is under. -/
theorem popKeys_eq (b : Nat) (keys : List (BlockHashWithGroupId η)) (hkeys : keys.Nodup)
    (cache : BlockHashWithGroupId η → List Nat) (hmem : ∀ key ∈ keys, b ∈ cache key) :
    (popKeys b keys cache).1 = keys ∧ ∀ key,
      (popKeys b keys cache).2 key = if key ∈ keys then (cache key).erase b else cache key := by
  induction keys generalizing cache with
  | nil => exact ⟨rfl, fun key => rfl⟩
  | cons k keys ih =>
    obtain ⟨hk, hkeys⟩ := List.nodup_cons.1 hkeys
    have hother : ∀ key ∈ keys, Function.update cache k ((cache k).erase b) key = cache key :=
      fun key hkey => Function.update_of_ne (ne_of_mem_of_not_mem hkey hk) _ _
    obtain ⟨hfst, hsnd⟩ := ih hkeys (Function.update cache k ((cache k).erase b))
      fun key hkey => by
        rw [hother key hkey]
        exact hmem key (List.mem_cons_of_mem _ hkey)
    rw [popKeys, if_pos (hmem k List.mem_cons_self)]
    refine ⟨by rw [hfst], fun key => ?_⟩
    dsimp only
    rw [hsnd]
    by_cases hkey : key ∈ keys
    · rw [if_pos hkey, if_pos (List.mem_cons_of_mem _ hkey), hother key hkey]
    · rw [if_neg hkey]
      by_cases heq : key = k
      · subst heq
        rw [Function.update_self, if_pos List.mem_cons_self]
      · rw [Function.update_of_ne heq, if_neg]
        exact fun hmem => (List.mem_cons.1 hmem).elim heq hkey

/-- What is left when a block is taken from under its keys. -/
structure Removed (b : Nat) (removed : List (BlockHashWithGroupId η)) (pool pool' : BlockPool η) :
    Prop where
  removed : removed = pool.keys b
  numGpuBlocks : pool'.numGpuBlocks = pool.numGpuBlocks
  map : ∀ key, pool'.cachedBlockHashToBlock key = (pool.cachedBlockHashToBlock key).erase b
  blockHash : ∀ x, (pool'.blocks x).blockHash =
    if x = b then none else (pool.blocks x).blockHash
  byBlock : ∀ x, pool'.cachedBlockHashesByBlock x =
    if x = b then [] else pool.cachedBlockHashesByBlock x
  reached : Reached pool'.cachedBlockHashToBlock

/-- **Taking the keys of a block off** takes it from under all its keys. -/
theorem Coherent.removeCachedBlockHashes (h : Coherent pool) (b : Nat) :
    Removed b (removeCachedBlockHashes b pool).1 pool (removeCachedBlockHashes b pool).2 := by
  have hunder : ∀ key, key ∉ pool.keys b → b ∉ pool.cachedBlockHashToBlock key :=
    fun key hkey hmem => hkey (mem_keys.2 ((h.mem_iff key b).1 hmem))
  have hkeys : (pool.blocks b).blockHash.toList ++ pool.cachedBlockHashesByBlock b =
      pool.keys b := rfl
  simp only [Kv.removeCachedBlockHashes, hkeys]
  split
  · -- a block without keys
    rename_i hnone
    have hempty := List.append_eq_nil_iff.1 (hkeys.trans hnone)
    refine ⟨hnone.symm, rfl, fun key => ?_, fun x => ?_, fun x => ?_, h.reached⟩
    · refine (List.erase_of_not_mem (hunder key ?_)).symm
      rw [hnone]
      exact List.not_mem_nil
    · by_cases hx : x = b
      · subst hx
        rw [if_pos rfl]
        exact Option.toList_eq_nil_iff.1 hempty.1
      · rw [if_neg hx]
    · by_cases hx : x = b
      · subst hx
        rw [if_pos rfl, hempty.2]
      · rw [if_neg hx]
  · obtain ⟨hfst, hsnd⟩ := popKeys_eq b (pool.keys b) (h.distinct b) pool.cachedBlockHashToBlock
      fun key hkey => (h.mem_iff key b).2 (mem_keys.1 hkey)
    refine ⟨hfst, rfl, fun key => ?_, fun x => ?_, fun x => ?_, h.reached.popKeys b _⟩
    · dsimp only
      rw [hsnd]
      by_cases hkey : key ∈ pool.keys b
      · rw [if_pos hkey]
      · rw [if_neg hkey, List.erase_of_not_mem (hunder key hkey)]
    · by_cases hx : x = b
      · subst hx
        rw [if_pos rfl]
        simp [BlockPool.setBlock, KVCacheBlock.resetHash]
      · rw [if_neg hx]
        simp [BlockPool.setBlock, hx]
    · by_cases hx : x = b
      · subst hx
        rw [if_pos rfl]
        exact Function.update_self _ _ _
      · rw [if_neg hx]
        exact Function.update_of_ne hx _ _

/-- A block under other keys than before is another one. -/
theorem Removed.mem_map {removed : List (BlockHashWithGroupId η)} (hr : Removed b removed pool pool')
    (h : Coherent pool) {x : Nat} : x ∈ pool'.cachedBlockHashToBlock key ↔
      x ≠ b ∧ x ∈ pool.cachedBlockHashToBlock key := by
  rw [hr.map]
  exact (h.nodup key).mem_erase_iff

theorem Removed.coherent {removed : List (BlockHashWithGroupId η)}
    (hr : Removed b removed pool pool') (h : Coherent pool) : Coherent pool' := by
  refine ⟨fun key x => ?_, fun x hx => ?_, fun x => ?_, fun key => ?_, fun x hx => ?_,
    hr.reached⟩
  · rw [hr.mem_map h, hr.blockHash, hr.byBlock]
    by_cases hxb : x = b
    · simp [hxb]
    · rw [if_neg hxb, if_neg hxb, h.mem_iff]
      exact and_iff_right hxb
  · rw [hr.byBlock]
    rw [hr.blockHash] at hx
    by_cases hxb : x = b
    · rw [if_pos hxb]
    · rw [if_neg hxb] at hx ⊢
      exact h.secondary x hx
  · rw [BlockPool.keys, hr.blockHash, hr.byBlock]
    by_cases hxb : x = b
    · simp [hxb]
    · rw [if_neg hxb, if_neg hxb]
      exact h.distinct x
  · rw [hr.map]
    exact (h.nodup key).erase b
  · rw [hr.blockHash]
    rw [hr.numGpuBlocks] at hx
    split
    · rfl
    · exact h.outside x hx

/-! ### New keys -/

theorem insertKey_of_notMem {map : BlockHashWithGroupId η → List Nat} (hmem : b ∉ map key) :
    insertKey key b map = Function.update map key (map key ++ [b]) := by
  rw [insertKey, if_neg hmem]

theorem mem_insertKey {map : BlockHashWithGroupId η → List Nat} (hmem : b ∉ map key)
    (k : BlockHashWithGroupId η) (x : Nat) :
    x ∈ insertKey key b map k ↔ x ∈ map k ∨ k = key ∧ x = b := by
  rw [insertKey_of_notMem hmem]
  by_cases hk : k = key
  · subst hk
    simp
  · simp [hk]

theorem nodup_insertKey {map : BlockHashWithGroupId η → List Nat} (hmem : b ∉ map key)
    (hnodup : ∀ k, (map k).Nodup) (k : BlockHashWithGroupId η) :
    (insertKey key b map k).Nodup := by
  rw [insertKey_of_notMem hmem]
  by_cases hk : k = key
  · subst hk
    rw [Function.update_self]
    refine List.nodup_append.2 ⟨hnodup k, List.nodup_singleton b, fun x hx y hy => ?_⟩
    rw [List.mem_singleton.1 hy]
    exact fun heq => hmem (heq ▸ hx)
  · rw [Function.update_of_ne hk]
    exact hnodup k

/-- **The first key** of a block of the pool. -/
theorem Coherent.firstKey (h : Coherent pool) (hb : b < pool.numGpuBlocks)
    (hmem : b ∉ pool.cachedBlockHashToBlock key) (hnone : (pool.blocks b).blockHash = none)
    (numTokens : Option Nat) :
    Coherent { pool.setBlock b { pool.blocks b with
        blockHash := some key, blockHashNumTokens := numTokens } with
      cachedBlockHashToBlock := insertKey key b pool.cachedBlockHashToBlock } := by
  have hblock : ∀ x, (Function.update pool.blocks b { pool.blocks b with
      blockHash := some key, blockHashNumTokens := numTokens } x).blockHash =
        if x = b then some key else (pool.blocks x).blockHash := by
    intro x
    by_cases hx : x = b
    · subst hx
      simp
    · simp [hx]
  refine ⟨fun k x => ?_, fun x hx => ?_, fun x => ?_, nodup_insertKey hmem h.nodup,
    fun x hx => ?_, h.reached.apply (.insert key b)⟩
  · simp only [BlockPool.setBlock]
    rw [mem_insertKey hmem, h.mem_iff, hblock]
    by_cases hx : x = b
    · subst hx
      simp [hnone, h.secondary x hnone, eq_comm]
    · simp [hx]
  · simp only [BlockPool.setBlock] at hx ⊢
    rw [hblock] at hx
    split at hx
    · cases hx
    · exact h.secondary x hx
  · simp only [BlockPool.keys, BlockPool.setBlock]
    rw [hblock]
    by_cases hx : x = b
    · subst hx
      simp [h.secondary x hnone]
    · rw [if_neg hx]
      exact h.distinct x
  · simp only [BlockPool.setBlock]
    rw [hblock, if_neg (by rintro rfl; exact absurd hb (not_lt.2 hx))]
    exact h.outside x hx

/-- **One more key** of a block that has one. -/
theorem Coherent.anotherKey (h : Coherent pool) (hmem : b ∉ pool.cachedBlockHashToBlock key)
    (hsome : (pool.blocks b).blockHash ≠ none) :
    Coherent { pool with
      cachedBlockHashesByBlock := Function.update pool.cachedBlockHashesByBlock b
        (pool.cachedBlockHashesByBlock b ++ [key])
      cachedBlockHashToBlock := insertKey key b pool.cachedBlockHashToBlock } := by
  have hnew : key ∉ pool.keys b := fun hkey => hmem ((h.mem_iff key b).2 (mem_keys.1 hkey))
  have hby : ∀ x, Function.update pool.cachedBlockHashesByBlock b
      (pool.cachedBlockHashesByBlock b ++ [key]) x =
        if x = b then pool.cachedBlockHashesByBlock b ++ [key]
        else pool.cachedBlockHashesByBlock x := by
    intro x
    by_cases hx : x = b
    · subst hx
      simp
    · simp [hx]
  refine ⟨fun k x => ?_, fun x hx => ?_, fun x => ?_, nodup_insertKey hmem h.nodup, h.outside,
    h.reached.apply (.insert key b)⟩
  · dsimp only
    rw [mem_insertKey hmem, h.mem_iff, hby]
    by_cases hx : x = b
    · subst hx
      simp [or_assoc]
    · simp [hx]
  · dsimp only at hx ⊢
    rw [hby, if_neg (by rintro rfl; exact hsome hx)]
    exact h.secondary x hx
  · simp only [BlockPool.keys]
    rw [hby]
    by_cases hx : x = b
    · subst hx
      rw [if_pos rfl, ← List.append_assoc]
      refine List.nodup_append.2 ⟨h.distinct x, List.nodup_singleton key, fun y hy z hz => ?_⟩
      rw [List.mem_singleton.1 hz]
      exact fun heq => hnew (heq ▸ hy)
    · rw [if_neg hx]
      exact h.distinct x

/-- **A new key** for a block of the pool. -/
theorem Coherent.insertBlockHash (h : Coherent pool) (hb : b < pool.numGpuBlocks)
    {numTokens : Option Nat} (hok : insertBlockHash key b numTokens pool = .ok pool') :
    Coherent pool' ∧ pool'.numGpuBlocks = pool.numGpuBlocks := by
  simp only [Kv.insertBlockHash] at hok
  split at hok
  · obtain rfl := Except.ok.inj hok
    exact ⟨h, rfl⟩
  split at hok
  · obtain rfl := Except.ok.inj hok
    exact ⟨h, rfl⟩
  rename_i hprimary hmem
  split at hok
  · rename_i hnone
    simp only [KVCacheBlock.setBlockHash] at hok
    split at hok
    · obtain rfl := Except.ok.inj hok
      exact ⟨h.firstKey hb hmem hnone numTokens, rfl⟩
    · cases hok
  · rename_i primary hsome
    obtain rfl := Except.ok.inj hok
    exact ⟨h.anotherKey hmem (hsome ▸ Option.some_ne_none primary), rfl⟩

/-- **Moving keys.** -/
theorem Coherent.moveBlockHashes (h : Coherent pool) {src dst : Nat}
    (hdst : dst < pool.numGpuBlocks) (hok : moveBlockHashes src dst pool = .ok pool') :
    Coherent pool' := by
  have hloop : ∀ (keys : List (BlockHashWithGroupId η)) (p : BlockPool η) (n : Option Nat),
      Coherent p → dst < p.numGpuBlocks → insertBlockHashes dst n keys p = .ok pool' →
      Coherent pool' := by
    intro keys
    induction keys with
    | nil =>
      intro p n hp _ hok
      obtain rfl := Except.ok.inj hok
      exact hp
    | cons key keys ih =>
      intro p n hp hdst hok
      rw [insertBlockHashes] at hok
      cases hinsert : Kv.insertBlockHash key dst n p with
      | error e =>
        rw [hinsert] at hok
        cases hok
      | ok q =>
        rw [hinsert] at hok
        obtain ⟨hq, hnum⟩ := hp.insertBlockHash hdst hinsert
        exact ih q n hq (hnum ▸ hdst) hok
  rw [Kv.moveBlockHashes] at hok
  split at hok
  · cases hok
  split at hok
  · cases hok
  have hr := h.removeCachedBlockHashes src
  exact hloop _ _ _ (hr.coherent h) (hr.numGpuBlocks ▸ hdst) hok

/-! ### Allocation -/

/-- **Taking popped blocks** out of the cache. -/
theorem Coherent.takeBlocks (h : Coherent pool) {ret : List Nat}
    (hok : takeBlocks ret pool = .ok pool') : Coherent pool' := by
  induction ret generalizing pool with
  | nil =>
    obtain rfl := Except.ok.inj hok
    exact h
  | cons b ret ih =>
    rw [Kv.takeBlocks] at hok
    have hq : Coherent (if pool.enableCaching then maybeEvictCachedBlock b pool else pool) := by
      split
      · exact (h.removeCachedBlockHashes b).coherent h
      · exact h
    generalize (if pool.enableCaching then maybeEvictCachedBlock b pool else pool) = q at hok hq
    dsimp only at hok
    split at hok
    · refine ih ?_ hok
      exact hq.setBlock rfl
    · cases hok

theorem Coherent.getNewBlocks (h : Coherent pool) {nowNs numBlocks : Nat} {ret : List Nat}
    (hok : getNewBlocks nowNs numBlocks pool = .ok (ret, pool')) : Coherent pool' := by
  simp only [Kv.getNewBlocks] at hok
  split at hok
  · cases hok
  set popped := popTwice (unprotected nowNs pool) numBlocks pool.freeBlockQueue
  cases htake : Kv.takeBlocks popped.1
      (unprotectBlocks popped.1 { pool with freeBlockQueue := popped.2 }) with
  | error e =>
    rw [htake] at hok
    cases hok
  | ok q =>
    rw [htake] at hok
    obtain ⟨rfl, rfl⟩ := Prod.mk.inj (Except.ok.inj hok)
    rw [unprotectBlocks_eq] at htake
    refine Coherent.takeBlocks ?_ htake
    refine h.of_same rfl (fun x => ?_) rfl rfl
    dsimp only
    split <;> rfl

/-! ### Operations that change no key -/

theorem Coherent.touch (h : Coherent pool) {blocks : List Nat}
    (hok : touch blocks pool = .ok pool') : Coherent pool' := by
  induction blocks generalizing pool with
  | nil =>
    obtain rfl := Except.ok.inj hok
    exact h
  | cons b rest ih =>
    simp only [Kv.touch] at hok
    split at hok
    · simp only [remove] at hok
      split at hok
      · refine ih ?_ hok
        have hqueue : Coherent { pool with freeBlockQueue := pool.freeBlockQueue.erase b } :=
          h.of_same rfl (fun _ => rfl) rfl rfl
        refine Coherent.setBlock ?_ rfl
        exact hqueue.setBlock rfl
      · cases hok
    · refine ih ?_ hok
      exact h.setBlock rfl

theorem Coherent.freeBlocks (h : Coherent pool) (nowNs : Nat) (ordered : List Nat) :
    Coherent (freeBlocks nowNs ordered pool) := by
  obtain ⟨new, hfreed⟩ := freeBlocks_spec nowNs ordered pool
  refine h.of_same hfreed.setup.numGpuBlocks hfreed.blockHash ?_ ?_
  all_goals
    simp only [Kv.freeBlocks]
    split
    · split <;> rfl
    · rfl

theorem Coherent.stamp (h : Coherent pool) (nowNs : Nat) (sessionId : Option String)
    (protectNs : Option Nat) (groups : List (List Nat)) :
    Coherent (stampSessionBlockProtection nowNs sessionId protectNs groups pool) := by
  rcases sessionId with - | sessionId
  · exact h
  rcases protectNs with - | protectNs
  · exact h
  rw [stamp_eq]
  refine h.of_same rfl (fun x => ?_) rfl rfl
  dsimp only
  split <;> rfl

/-! ### Eviction and reset -/

theorem Coherent.evictBlocks (h : Coherent pool) {blockIds : List Nat}
    (hok : evictBlocks blockIds pool = .ok pool') : Coherent pool' := by
  induction blockIds generalizing pool with
  | nil =>
    obtain rfl := Except.ok.inj hok
    exact h
  | cons b rest ih =>
    simp only [Kv.evictBlocks] at hok
    split at hok
    · exact ih ((h.removeCachedBlockHashes b).coherent h) hok
    · cases hok

/-- **A reset** leaves nothing cached. -/
theorem Coherent.resetPrefixCache (h : Coherent pool) : Coherent (resetPrefixCache pool).2 := by
  simp only [Kv.resetPrefixCache]
  split
  · exact h
  · have hnone : ∀ b, (if b < pool.numGpuBlocks then (pool.blocks b).resetHash
        else pool.blocks b).blockHash = none := by
      intro b
      split
      · rfl
      · rename_i hb
        exact h.outside b (not_lt.1 hb)
    refine ⟨fun key b => ?_, fun _ _ => rfl, fun b => ?_, fun _ => List.nodup_nil,
      fun b _ => hnone b, [], rfl⟩
    · dsimp only
      rw [hnone]
      simp
    · rw [BlockPool.keys]
      dsimp only
      rw [hnone]
      exact List.nodup_nil

/-! ### Expiry -/

/-- What dropping some blocks does. -/
structure DropsKeys (expired : List Nat) (hashes : List (BlockHashWithGroupId η))
    (pool pool' : BlockPool η) : Prop where
  hashes : hashes = expired.flatMap pool.keys
  queue : pool'.freeBlockQueue = pool.freeBlockQueue.filter (· ∉ expired)
  map : ∀ key, pool'.cachedBlockHashToBlock key =
    (pool.cachedBlockHashToBlock key).filter (· ∉ expired)
  coherent : Coherent pool'
  others : ∀ x, x ∉ expired → pool'.blocks x = pool.blocks x ∧
    pool'.cachedBlockHashesByBlock x = pool.cachedBlockHashesByBlock x
  refCnt : ∀ x, (pool'.blocks x).refCnt = (pool.blocks x).refCnt
  isNull : ∀ x, (pool'.blocks x).isNull = (pool.blocks x).isNull
  numGpuBlocks : pool'.numGpuBlocks = pool.numGpuBlocks

/-- **Dropping expired blocks** takes them out of queue and cache, and nothing else. -/
theorem Coherent.dropExpiredHashes (h : Coherent pool) {expired : List Nat}
    (hexpired : expired.Nodup) (hqueue : pool.freeBlockQueue.Nodup)
    {hashes : List (BlockHashWithGroupId η)}
    (hok : dropExpiredHashes expired pool = .ok (hashes, pool')) :
    DropsKeys expired hashes pool pool' := by
  induction expired generalizing pool hashes with
  | nil =>
    obtain ⟨rfl, rfl⟩ := Prod.mk.inj (Except.ok.inj hok)
    exact ⟨rfl, by simp, fun _ => by simp, h, fun _ _ => ⟨rfl, rfl⟩, fun _ => rfl, fun _ => rfl,
      rfl⟩
  | cons b rest ih =>
    obtain ⟨hb, hrest⟩ := List.nodup_cons.1 hexpired
    rw [Kv.dropExpiredHashes] at hok
    simp only [remove] at hok
    split at hok
    · set p : BlockPool η := { pool with freeBlockQueue := pool.freeBlockQueue.erase b } with hp
      have hcoherent : Coherent p := h.of_same rfl (fun _ => rfl) rfl rfl
      have hr := hcoherent.removeCachedBlockHashes b
      have hu := removeCachedBlockHashes_spec b p
      set q := (Kv.removeCachedBlockHashes b p).2 with hq
      change Except.bind (Kv.dropExpiredHashes rest q) _ = _ at hok
      cases htail : Kv.dropExpiredHashes rest q with
      | error e =>
        rw [htail] at hok
        cases hok
      | ok tail =>
        rw [htail] at hok
        obtain ⟨hhashes, rfl⟩ := Prod.mk.inj (Except.ok.inj hok)
        have hqueueq : q.freeBlockQueue = pool.freeBlockQueue.erase b := hu.queue
        have hd := ih (hr.coherent hcoherent) hrest (hqueueq ▸ hqueue.erase b) htail
        -- the other blocks have the keys they had
        have hkeys : ∀ x, x ≠ b → q.keys x = pool.keys x := by
          intro x hx
          rw [BlockPool.keys, (hu.others x hx).1, (hu.others x hx).2.byBlock]
          rfl
        refine ⟨?_, ?_, fun key => ?_, hd.coherent, fun x hx => ?_, fun x => ?_, fun x => ?_,
          hd.numGpuBlocks.trans hu.setup.numGpuBlocks⟩
        · rw [← hhashes, hr.removed, hd.hashes, List.flatMap_cons]
          refine congrArg₂ _ rfl ?_
          exact List.flatMap_congr fun x hx => hkeys x (ne_of_mem_of_not_mem hx hb)
        · rw [hd.queue, hqueueq, hqueue.erase_eq_filter, List.filter_filter]
          refine List.filter_congr fun x _ => ?_
          by_cases hxb : x = b <;> simp [hxb]
        · rw [hd.map, hr.map, (hcoherent.nodup key).erase_eq_filter, List.filter_filter]
          refine List.filter_congr fun x _ => ?_
          by_cases hxb : x = b <;> simp [hxb]
        · obtain ⟨hxb, hxr⟩ := not_or.1 (fun hor => hx (List.mem_cons.2 hor))
          obtain ⟨hblock, hby⟩ := hd.others x hxr
          exact ⟨hblock.trans (hu.others x hxb).1, hby.trans (hu.others x hxb).2.byBlock⟩
        · rw [hd.refCnt]
          by_cases hxb : x = b
          · subst hxb
            exact hu.refCnt
          · rw [(hu.others x hxb).1]
        · rw [hd.isNull]
          by_cases hxb : x = b
          · subst hxb
            exact hu.isNull
          · rw [(hu.others x hxb).1]
    · cases hok

omit [DecidableEq η] in
/-- A scan that goes through has found the blocks that are due. -/
theorem scan_expired {nowNs timeoutNs : Nat} {blocks : Nat → KVCacheBlock η} {queue expired : List Nat}
    {next : Option Nat} {found : List Nat × Option Nat}
    (hok : scan nowNs timeoutNs blocks queue expired next = .ok found) :
    found.1 = expired ++ queue.filter fun b => Due nowNs timeoutNs (blocks b) := by
  induction queue generalizing expired next with
  | nil =>
    obtain rfl := Except.ok.inj hok
    simp
  | cons b queue ih =>
    rw [scan] at hok
    split at hok
    · rename_i hnone
      rw [ih hok, List.filter_cons_of_neg (by simp [Due, hnone])]
    · rename_i hhash
      split at hok
      · -- a protected block
        rename_i hprotected
        have hnot : ¬Due nowNs timeoutNs (blocks b) := by
          rintro ⟨-, e, he, hle⟩
          obtain ⟨i, -, rfl⟩ := Option.map_eq_some_iff.1 he
          have hmax := le_max_right (i + timeoutNs) (blocks b).protectedUntilNs
          omega
        rw [ih hok, List.filter_cons_of_neg (by simpa using hnot)]
      · split at hok
        · cases hok
        · rename_i hprotected _ idleSinceNs hidle
          split at hok
          · rename_i hdue
            have hdue' : Due nowNs timeoutNs (blocks b) := by
              refine ⟨hhash, max (idleSinceNs + timeoutNs) (blocks b).protectedUntilNs, ?_, ?_⟩
              · rw [KVCacheBlock.expiryNs, hidle]
                rfl
              · exact max_le hdue (not_lt.1 hprotected)
            rw [ih hok, List.filter_cons_of_pos (by simpa using hdue'), List.append_assoc,
              List.singleton_append]
          · rename_i hdue
            have hnot : ¬Due nowNs timeoutNs (blocks b) := by
              rintro ⟨-, e, he, hle⟩
              obtain ⟨i, hi, rfl⟩ := Option.map_eq_some_iff.1 he
              obtain rfl := Option.some.inj (hidle.symm.trans hi)
              have hmax := le_max_left (idleSinceNs + timeoutNs) (blocks b).protectedUntilNs
              omega
            rw [ih hok, List.filter_cons_of_neg (by simpa using hnot)]

/-- The entries of some blocks, each with its block. -/
def BlockPool.entries (pool : BlockPool η) (blocks : List Nat) :
    List (BlockHashWithGroupId η × Nat) :=
  blocks.flatMap fun b => (pool.keys b).map fun key => (key, b)

/-- **The blocks that expire** at a time: once the deadline has come, those of the queue that are
due. -/
def BlockPool.expiredBlocks (nowNs : Nat) (pool : BlockPool η) : List Nat :=
  match pool.prefixCacheIdleTimeoutNs, pool.nextPrefixCacheExpiryNs with
  | some timeoutNs, some nextExpiryNs =>
    if nowNs < nextExpiryNs then []
    else pool.freeBlockQueue.filter fun b => Due nowNs timeoutNs (pool.blocks b)
  | _, _ => []

/-- **What an expiry does**: the expired blocks are found by no lookup any more, the others as
before; the queue has them first; and each entry that is removed is emitted, once. Under a deadline
that covers the queue the expired blocks are all that are due. -/
structure CleanExpiry (events : Bool) (nowNs : Nat) (pool : BlockPool η) (expired : List Nat)
    (n : Nat) (emitted : List (BlockHashWithGroupId η)) (pool' : BlockPool η) : Prop where
  found : expired = pool.expiredBlocks nowNs
  covered : Covered pool → ∀ timeoutNs ∈ pool.prefixCacheIdleTimeoutNs,
    expired = pool.freeBlockQueue.filter fun b => Due nowNs timeoutNs (pool.blocks b)
  count : n = expired.length
  coherent : Coherent pool'
  map : ∀ key, pool'.cachedBlockHashToBlock key =
    (pool.cachedBlockHashToBlock key).filter (· ∉ expired)
  kept : ∀ b, b ∉ expired → SameHashes b pool pool'
  queue : pool'.freeBlockQueue = expired ++ pool.freeBlockQueue.filter (· ∉ expired)
  perm : pool'.freeBlockQueue.Perm pool.freeBlockQueue
  removed : ∀ key b, (key, b) ∈ pool.entries expired ↔
    b ∈ pool.cachedBlockHashToBlock key ∧ b ∉ pool'.cachedBlockHashToBlock key
  once : (pool.entries expired).Nodup
  emitted : emitted = if events then (pool.entries expired).map Prod.fst else []
  refCnt : ∀ x, (pool'.blocks x).refCnt = (pool.blocks x).refCnt
  isNull : ∀ x, (pool'.blocks x).isNull = (pool.blocks x).isNull

omit [DecidableEq η] in
/-- Before the deadline nothing is due, if it covers the queue. -/
theorem expiredBlocks_covered {nowNs timeoutNs : Nat} (hcovered : Covered pool)
    (htimeout : pool.prefixCacheIdleTimeoutNs = some timeoutNs) : pool.expiredBlocks nowNs =
      pool.freeBlockQueue.filter fun b => Due nowNs timeoutNs (pool.blocks b) := by
  have hearly : (∀ next ∈ pool.nextPrefixCacheExpiryNs, nowNs < next) →
      [] = pool.freeBlockQueue.filter fun b => Due nowNs timeoutNs (pool.blocks b) := by
    intro hnext
    refine (List.filter_eq_nil_iff.2 fun b hb => ?_).symm
    rw [decide_eq_true_eq]
    rintro ⟨hhash, e, he, hle⟩
    obtain ⟨e', he', next, hn, hne⟩ := hcovered timeoutNs htimeout b hb hhash
    obtain rfl := Option.some.inj (he.symm.trans he')
    have hlt := hnext next hn
    omega
  rw [BlockPool.expiredBlocks, htimeout]
  cases hnext : pool.nextPrefixCacheExpiryNs with
  | none => exact hearly fun next hn => by rw [hnext] at hn; cases hn
  | some nextExpiryNs =>
    dsimp only
    split
    · rename_i hlt
      refine hearly fun next hn => ?_
      obtain rfl := Option.some.inj (hnext.symm.trans hn)
      exact hlt
    · rfl

/-- The entries of different blocks are different, and those of one block are. -/
theorem Coherent.entries_nodup (h : Coherent pool) {blocks : List Nat} (hnodup : blocks.Nodup) :
    (pool.entries blocks).Nodup := by
  refine List.nodup_flatMap.2 ⟨fun b _ => ?_, ?_⟩
  · refine (h.distinct b).map ?_
    intro k k' hkk
    exact (Prod.mk.inj hkk).1
  · refine hnodup.imp ?_
    intro b b' hne p hp hp'
    obtain ⟨k, -, hk⟩ := List.mem_map.1 hp
    obtain ⟨k', -, hk'⟩ := List.mem_map.1 hp'
    exact hne (Prod.mk.inj (hk.trans hk'.symm)).2

/-- **What is reported as removed** has left the map, and nothing else has. -/
theorem Coherent.removed_iff (h : Coherent pool) {map : BlockHashWithGroupId η → List Nat}
    {expired : List Nat}
    (hmap : ∀ key, map key = (pool.cachedBlockHashToBlock key).filter (· ∉ expired))
    (key : BlockHashWithGroupId η) (b : Nat) : (key, b) ∈ pool.entries expired ↔
      b ∈ pool.cachedBlockHashToBlock key ∧ b ∉ map key := by
  rw [hmap, List.mem_filter, h.mem_iff, ← mem_keys, BlockPool.entries, List.mem_flatMap]
  constructor
  · rintro ⟨x, hx, hpair⟩
    obtain ⟨k, hk, heq⟩ := List.mem_map.1 hpair
    obtain ⟨rfl, rfl⟩ := Prod.mk.inj heq
    exact ⟨hk, fun hleft => by simpa [hx] using hleft.2⟩
  · rintro ⟨hk, hnot⟩
    have hb : b ∈ expired := by
      by_contra hb
      exact hnot ⟨hk, by simpa using hb⟩
    exact ⟨b, hb, List.mem_map_of_mem hk⟩

/-- **Expiry in a coherent pool.** -/
theorem Coherent.expireCachedBlocks (h : Coherent pool) (hqueue : pool.freeBlockQueue.Nodup)
    {events : Bool} {nowNs n : Nat} {emitted : List (BlockHashWithGroupId η)}
    (hok : expireCachedBlocksEvents events nowNs pool = .ok (n, emitted, pool')) :
    CleanExpiry events nowNs pool (pool.expiredBlocks nowNs) n emitted pool' := by
  -- a call that expires nothing
  have hidle : pool.expiredBlocks nowNs = [] → (.ok (0, [], pool) : Except PoolError
      (Nat × List (BlockHashWithGroupId η) × BlockPool η)) = .ok (n, emitted, pool') →
      CleanExpiry events nowNs pool (pool.expiredBlocks nowNs) n emitted pool' := by
    intro hnone hsame
    obtain ⟨rfl, hrest⟩ := Prod.mk.inj (Except.ok.inj hsame)
    obtain ⟨rfl, rfl⟩ := Prod.mk.inj hrest
    rw [hnone]
    exact ⟨hnone.symm, fun hcovered timeoutNs htimeout =>
        hnone.symm.trans (expiredBlocks_covered hcovered htimeout), rfl, h, fun _ => by simp,
      fun b _ => .refl b _, by simp, .refl _, fun key b => by simp [BlockPool.entries],
      List.nodup_nil, by simp [BlockPool.entries], fun _ => rfl, fun _ => rfl⟩
  cases htimeout : pool.prefixCacheIdleTimeoutNs with
  | none =>
    rw [expireCachedBlocksEvents, htimeout] at hok
    exact hidle (by rw [BlockPool.expiredBlocks, htimeout]) hok
  | some timeoutNs =>
    cases hnext : pool.nextPrefixCacheExpiryNs with
    | none =>
      simp only [expireCachedBlocksEvents, htimeout, hnext] at hok
      exact hidle (by simp only [BlockPool.expiredBlocks, htimeout, hnext]) hok
    | some nextExpiryNs =>
      simp only [expireCachedBlocksEvents, htimeout, hnext] at hok
      split at hok
      · rename_i hearly
        exact hidle (by simp only [BlockPool.expiredBlocks, htimeout, hnext, if_pos hearly]) hok
      rename_i hcome
      have hall : pool.expiredBlocks nowNs = pool.freeBlockQueue.filter
          fun b => Due nowNs timeoutNs (pool.blocks b) := by
        simp only [BlockPool.expiredBlocks, htimeout, hnext, if_neg hcome]
      cases hscan : scan nowNs timeoutNs pool.blocks pool.freeBlockQueue [] none with
      | error e =>
        rw [hscan] at hok
        cases hok
      | ok found =>
        obtain ⟨expired, next⟩ := found
        have hfound : expired = pool.freeBlockQueue.filter
            fun b => Due nowNs timeoutNs (pool.blocks b) := scan_expired hscan
        have hexpired : expired.Nodup := hfound ▸ hqueue.filter _
        have hsame : pool.expiredBlocks nowNs = expired := hall.trans hfound.symm
        rw [hscan] at hok
        simp only [bind, Except.bind] at hok
        cases hdrop : Kv.dropExpiredHashes expired pool with
        | error e =>
          rw [hdrop] at hok
          cases hok
        | ok dropped =>
          obtain ⟨hashes, q⟩ := dropped
          rw [hdrop] at hok
          obtain ⟨rfl, hrest⟩ := Prod.mk.inj (Except.ok.inj hok)
          obtain ⟨rfl, rfl⟩ := Prod.mk.inj hrest
          have hd := h.dropExpiredHashes hexpired hqueue hdrop
          have hmem : ∀ b, b ∈ expired ↔ b ∈ pool.freeBlockQueue ∧
              Due nowNs timeoutNs (pool.blocks b) := fun b => by
            rw [hfound, List.mem_filter, decide_eq_true_iff]
          have hrest : pool.freeBlockQueue.filter (· ∉ expired) = pool.freeBlockQueue.filter
              fun b => !decide (Due nowNs timeoutNs (pool.blocks b)) := by
            refine List.filter_congr fun b hb => ?_
            simp [hmem, hb]
          have horder : prependN expired q.freeBlockQueue =
              expired ++ pool.freeBlockQueue.filter (· ∉ expired) := by
            rw [prependN, hd.queue]
          rw [hsame]
          refine ⟨hsame.symm, fun hcovered timeoutNs htimeout =>
              hsame.symm.trans (expiredBlocks_covered hcovered htimeout), rfl,
            hd.coherent.of_same rfl (fun _ => rfl) rfl rfl, hd.map, fun b hb => ?_, horder, ?_,
            fun key b => ?_, h.entries_nodup hexpired, ?_, hd.refCnt, hd.isNull⟩
          · obtain ⟨hblock, hby⟩ := hd.others b hb
            refine ⟨congrArg _ hblock, hby, fun key => ?_⟩
            change b ∈ q.cachedBlockHashToBlock key ↔ _
            rw [hd.map, List.mem_filter]
            simp [hb]
          · refine List.Perm.trans (List.Perm.of_eq horder) ?_
            rw [hrest, hfound]
            exact List.filter_append_perm _ _
          · exact h.removed_iff hd.map key b
          · have hfst : (pool.entries expired).map Prod.fst = hashes := by
              rw [hd.hashes, BlockPool.entries, List.map_flatMap]
              refine List.flatMap_congr fun b _ => ?_
              rw [List.map_map]
              exact List.map_id _
            rw [hfst]

/-! ### The queue -/

omit [DecidableEq η] in
/-- **The free queue** has blocks that nobody holds, each once. -/
structure Queued (pool : BlockPool η) : Prop where
  nodup : pool.freeBlockQueue.Nodup
  free : ∀ b ∈ pool.freeBlockQueue, (pool.blocks b).isNull = false ∧ (pool.blocks b).refCnt ≤ 0

omit [DecidableEq η] in
/-- The same blocks, with the same references. -/
theorem Queued.of_same (h : Queued pool) (hqueue : pool'.freeBlockQueue.Perm pool.freeBlockQueue)
    (href : ∀ x, (pool'.blocks x).refCnt = (pool.blocks x).refCnt)
    (hnull : ∀ x, (pool'.blocks x).isNull = (pool.blocks x).isNull) : Queued pool' := by
  refine ⟨hqueue.nodup_iff.2 h.nodup, fun b hb => ?_⟩
  rw [hnull, href]
  exact h.free b (hqueue.mem_iff.1 hb)

omit [DecidableEq η] in
theorem Queued.unhashed (h : Queued pool) (hu : Unhashed b pool pool') : Queued pool' := by
  refine h.of_same (List.Perm.of_eq hu.queue) (fun x => ?_) fun x => ?_
  all_goals
    by_cases hx : x = b
    · subst hx
      first | exact hu.refCnt | exact hu.isNull
    · rw [(hu.others x hx).1]

omit [DecidableEq η] in
theorem Queued.hashed (h : Queued pool) (hh : Hashed b pool pool') : Queued pool' := by
  refine h.of_same (List.Perm.of_eq hh.queue) (fun x => ?_) fun x => ?_
  all_goals
    by_cases hx : x = b
    · subst hx
      first | exact hh.refCnt | exact hh.isNull
    · rw [hh.others x hx]

omit [DecidableEq η] in
theorem Queued.allocated {ret : List Nat} (h : Queued pool) (ha : Allocated ret pool pool') :
    Queued pool' := by
  refine ⟨by rw [ha.queue]; exact h.nodup.filter _, fun b hb => ?_⟩
  rw [ha.queue, List.mem_filter] at hb
  rw [ha.others b (by simpa using hb.2)]
  exact h.free b hb.1

omit [DecidableEq η] in
theorem Queued.touched (h : Queued pool) (ht : Touched b pool pool') : Queued pool' := by
  rcases ht.queue with ⟨-, -, -, hqueue⟩ | ⟨hheld, hqueue, -⟩
  · refine ⟨by rw [hqueue]; exact h.nodup.erase b, fun x hx => ?_⟩
    rw [hqueue, h.nodup.mem_erase_iff] at hx
    rw [ht.others x hx.1]
    exact h.free x hx.2
  · refine ⟨by rw [hqueue]; exact h.nodup, fun x hx => ?_⟩
    rw [hqueue] at hx
    obtain ⟨hnull, href⟩ := h.free x hx
    by_cases hxb : x = b
    · -- a block in the queue whose references went below zero
      subst hxb
      have hne : (pool.blocks x).refCnt ≠ 0 := fun hzero => hheld ⟨hzero, hnull⟩
      rw [ht.isNull, ht.refCnt]
      exact ⟨hnull, by omega⟩
    · rw [ht.others x hxb]
      exact ⟨hnull, href⟩

omit [DecidableEq η] in
theorem Queued.freed {nowNs : Nat} {new : List Nat} (h : Queued pool)
    (hf : Freed nowNs new pool pool') : Queued pool' := by
  refine ⟨hf.queue.nodup_iff.2 (List.nodup_append.2 ⟨hf.nodup, h.nodup, ?_⟩), fun x hx => ?_⟩
  · rintro x hx y hy rfl
    have hheld := ((hf.mem x).1 hx).2.1
    have hfree := (h.free x hy).2
    omega
  · rw [hf.isNull]
    rcases List.mem_append.1 (hf.queue.mem_iff.1 hx) with hnew | hold
    · exact ⟨((hf.mem x).1 hnew).1, ((hf.mem x).1 hnew).2.2⟩
    · exact ⟨(h.free x hold).1, (hf.le x).trans (h.free x hold).2⟩

/-! ### Runs -/

/-- The operations of the pool, and the moving of keys. -/
inductive CacheOp (η : Type) where
  | pool (op : Op η)
  | moveBlockHashes (src dst : Nat)

/-- One operation, at a time. -/
def cacheStep (nowNs : Nat) : CacheOp η → BlockPool η → Except PoolError (BlockPool η)
  | .pool op, pool => step nowNs op pool
  | .moveBlockHashes src dst, pool => moveBlockHashes src dst pool

omit [DecidableEq η] in
/-- A block that gets keys is a block of the pool. -/
def CacheOp.Proper : CacheOp η → BlockPool η → Prop
  | .pool (.insertBlockHash _ b _), pool => b < pool.numGpuBlocks
  | .moveBlockHashes _ dst, pool => dst < pool.numGpuBlocks
  | _, _ => True

/-- A run of the operations, each at any time. An operation that raises ends it. -/
inductive CacheRun : BlockPool η → BlockPool η → Prop
  | refl (pool : BlockPool η) : CacheRun pool pool
  | step {p q r : BlockPool η} (nowNs : Nat) (op : CacheOp η) :
      CacheRun p q → op.Proper q → cacheStep nowNs op q = .ok r → CacheRun p r

/-- Moving keys changes no references. -/
theorem Queued.moveBlockHashes (h : Queued pool) {src dst : Nat}
    (hok : moveBlockHashes src dst pool = .ok pool') : Queued pool' := by
  have hloop : ∀ (keys : List (BlockHashWithGroupId η)) (p : BlockPool η) (n : Option Nat),
      Queued p → insertBlockHashes dst n keys p = .ok pool' → Queued pool' := by
    intro keys
    induction keys with
    | nil =>
      intro p n hp hok
      obtain rfl := Except.ok.inj hok
      exact hp
    | cons key keys ih =>
      intro p n hp hok
      rw [insertBlockHashes] at hok
      cases hinsert : insertBlockHash key dst n p with
      | error e =>
        rw [hinsert] at hok
        cases hok
      | ok q =>
        rw [hinsert] at hok
        exact ih q n (hp.hashed (insertBlockHash_spec hinsert)) hok
  rw [Kv.moveBlockHashes] at hok
  split at hok
  · cases hok
  split at hok
  · cases hok
  exact hloop _ _ _ (h.unhashed (removeCachedBlockHashes_spec src pool)) hok

/-- **Each operation keeps the cache coherent**, and the queue. -/
theorem cacheStep_coherent {nowNs : Nat} {op : CacheOp η} (hop : op.Proper pool)
    (hok : cacheStep nowNs op pool = .ok pool') (h : Coherent pool) (hq : Queued pool) :
    Coherent pool' ∧ Queued pool' := by
  cases op with
  | moveBlockHashes src dst => exact ⟨h.moveBlockHashes hop hok, hq.moveBlockHashes hok⟩
  | pool op =>
    cases op with
    | getNewBlocks numBlocks =>
      obtain ⟨⟨ret, q⟩, hget, rfl⟩ := except_map_eq_ok.1 hok
      exact ⟨h.getNewBlocks hget, hq.allocated (getNewBlocks_spec hq.nodup hget).2⟩
    | insertBlockHash key b numTokens =>
      exact ⟨(h.insertBlockHash hop hok).1, hq.hashed (insertBlockHash_spec hok)⟩
    | removeCachedBlockHashes b =>
      obtain rfl := Except.ok.inj hok
      exact ⟨(h.removeCachedBlockHashes b).coherent h,
        hq.unhashed (removeCachedBlockHashes_spec b pool)⟩
    | touch blocks =>
      exact ⟨h.touch hok, touch_induction (P := Queued) (fun _ _ _ ht hp => hp.touched ht) hok hq⟩
    | freeBlocks orderedBlocks =>
      obtain rfl := Except.ok.inj hok
      obtain ⟨new, hfreed⟩ := freeBlocks_spec nowNs orderedBlocks pool
      exact ⟨h.freeBlocks nowNs orderedBlocks, hq.freed hfreed⟩
    | evictBlocks blockIds =>
      exact ⟨h.evictBlocks hok,
        evictBlocks_induction (P := Queued) (fun _ _ _ hu hp => hp.unhashed hu) hok hq⟩
    | expireCachedBlocks =>
      obtain ⟨⟨n, q⟩, hexpire, rfl⟩ := except_map_eq_ok.1 hok
      -- the expiry that tells its events does the same to the pool
      rw [← expireCachedBlocksEvents_map true] at hexpire
      obtain ⟨⟨n', emitted, q'⟩, hevents, hsame⟩ := except_map_eq_ok.1 hexpire
      obtain ⟨rfl, rfl⟩ := Prod.mk.inj hsame
      have hclean := h.expireCachedBlocks hq.nodup hevents
      exact ⟨hclean.coherent, hq.of_same hclean.perm hclean.refCnt hclean.isNull⟩
    | resetPrefixCache =>
      obtain rfl := Except.ok.inj hok
      refine ⟨h.resetPrefixCache, hq.of_same ?_ (fun x => ?_) fun x => ?_⟩
      all_goals
        simp only [resetPrefixCache]
        split
        · rfl
        · first
          | rfl
          | (dsimp only; split <;> rfl)
    | stampSessionBlockProtection sessionId protectNs groups =>
      obtain rfl := Except.ok.inj hok
      refine ⟨h.stamp nowNs sessionId protectNs groups, ?_⟩
      rcases sessionId with - | sessionId
      · exact hq
      rcases protectNs with - | protectNs
      · exact hq
      rw [stamp_eq]
      refine hq.of_same (.refl _) (fun x => ?_) fun x => ?_
      all_goals
        dsimp only
        split <;> rfl

/-- **Runs keep the cache coherent.** -/
theorem cacheRun_coherent (hrun : CacheRun pool pool') (h : Coherent pool) (hq : Queued pool) :
    Coherent pool' ∧ Queued pool' := by
  induction hrun with
  | refl => exact ⟨h, hq⟩
  | step nowNs op _ hop hok ih => exact cacheStep_coherent hop hok ih.1 ih.2

/-- A new pool has nothing cached. -/
theorem new_coherent {roundNs : ℚ → Int} {numGpuBlocks : Nat} {enableCaching : Bool}
    {seconds : Option ℚ} (hnew : BlockPool.new roundNs numGpuBlocks enableCaching seconds =
      .ok pool) : Coherent pool ∧ Queued pool := by
  have hempty : pool.cachedBlockHashToBlock = (fun _ => []) ∧
      pool.cachedBlockHashesByBlock = fun _ => [] := by
    simp only [BlockPool.new] at hnew
    split at hnew
    · cases hnew
    · cases seconds with
      | none =>
        obtain rfl := Except.ok.inj hnew
        exact ⟨rfl, rfl⟩
      | some seconds =>
        simp only at hnew
        split at hnew
        · cases hnew
        · split at hnew
          · cases hnew
          · obtain rfl := Except.ok.inj hnew
            exact ⟨rfl, rfl⟩
  obtain ⟨-, -, -, hblocks⟩ := new_spec hnew
  have htidy := (new_inv hnew).1
  refine ⟨⟨fun key b => ?_, fun b _ => by rw [hempty.2], fun b => ?_, fun key => ?_,
    fun b _ => by rw [hblocks], [], hempty.1.symm⟩, htidy.nodup,
    fun b hb => ((htidy.mem b).1 hb).2⟩
  · rw [hempty.1, hempty.2, hblocks]
    simp
  · rw [BlockPool.keys, hempty.2, hblocks]
    exact List.nodup_nil
  · rw [hempty.1]
    exact List.nodup_nil

/-- What lookups find once blocks have expired. -/
structure LookupsKept (expired : List Nat) (cache cache' : BlockHashToBlockMap η) : Prop where
  gone : ∀ key, ∀ b ∈ expired, cache'.getOneBlock key ≠ some b ∧ cache'.contain key b = false
  kept : ∀ key b, b ∉ expired → cache'.contain key b = cache.contain key b
  resolves : ∀ key b, cache.getOneBlock key = some b → b ∉ expired →
    cache'.getOneBlock key = some b

omit [DecidableEq η] in
/-- **Lookups after an expiry**: no expired block, and the others as before, under a key that they
share with an expired one as well. -/
theorem CleanExpiry.lookups [DecidableEq η] {events : Bool} {nowNs n : Nat} {expired : List Nat}
    {emitted : List (BlockHashWithGroupId η)}
    (h : CleanExpiry events nowNs pool expired n emitted pool')
    {cache cache' : BlockHashToBlockMap η}
    (hc : Represents cache pool.cachedBlockHashToBlock)
    (hc' : Represents cache' pool'.cachedBlockHashToBlock) : LookupsKept expired cache cache' := by
  have hgone : ∀ key, ∀ b ∈ expired, b ∉ pool'.cachedBlockHashToBlock key := by
    intro key b hb hmem
    rw [h.map, List.mem_filter] at hmem
    simpa [hb] using hmem.2
  refine ⟨fun key b hb => ⟨fun hfound => ?_, ?_⟩, fun key b hb => ?_, fun key b hfound hb => ?_⟩
  · rw [hc'.getOneBlock] at hfound
    exact hgone key b hb (List.mem_of_mem_head? hfound)
  · rw [Bool.eq_false_iff]
    exact fun hcontain => hgone key b hb ((hc'.contain key b).1 hcontain)
  · rw [Bool.eq_iff_iff, hc'.contain, hc.contain, h.map, List.mem_filter]
    simp [hb]
  · rw [hc.getOneBlock] at hfound
    rw [hc'.getOneBlock, h.map]
    cases hlist : pool.cachedBlockHashToBlock key with
    | nil =>
      rw [hlist] at hfound
      cases hfound
    | cons x rest =>
      rw [hlist] at hfound
      obtain rfl := Option.some.inj hfound
      rw [List.filter_cons_of_pos (by simpa using hb)]
      rfl

/-- **The prefix cache stays coherent** over any sequence of the pool's operations, and its map has
come about by the operations of `BlockHashToBlockMap`. An eviction takes the keys of its block off,
and emits these. An expiry removes the entries of the expired blocks, emits each of them once, and
leaves what the others resolve to; the expired blocks are those of the queue that are due, once the
deadline has come, and all that are due under a deadline that covers the queue. -/
theorem cache_coherent {roundNs : ℚ → Int} {numGpuBlocks : Nat} {enableCaching : Bool}
    {seconds : Option ℚ} (hnew : BlockPool.new roundNs numGpuBlocks enableCaching seconds =
      .ok pool) (hrun : CacheRun pool pool') :
    Coherent pool' ∧
      (∃ ops : List (MapOp η), Represents (ops.foldl (fun cache op => op.apply cache) fun _ => none)
        pool'.cachedBlockHashToBlock) ∧
      (∀ b, Removed b (removeCachedBlockHashes b pool').1 pool'
        (removeCachedBlockHashes b pool').2) ∧
      ∀ (events : Bool) (nowNs n : Nat) (emitted : List (BlockHashWithGroupId η))
        (after : BlockPool η),
        expireCachedBlocksEvents events nowNs pool' = .ok (n, emitted, after) →
        CleanExpiry events nowNs pool' (pool'.expiredBlocks nowNs) n emitted after ∧
          ∀ cache cache' : BlockHashToBlockMap η,
            Represents cache pool'.cachedBlockHashToBlock →
            Represents cache' after.cachedBlockHashToBlock →
              LookupsKept (pool'.expiredBlocks nowNs) cache cache' := by
  obtain ⟨hcoherent, hqueued⟩ := new_coherent hnew
  obtain ⟨hcoherent', hqueued'⟩ := cacheRun_coherent hrun hcoherent hqueued
  refine ⟨hcoherent', hcoherent'.reached.represents,
    fun b => hcoherent'.removeCachedBlockHashes b, fun events nowNs n emitted after hok => ?_⟩
  have hclean := hcoherent'.expireCachedBlocks hqueued'.nodup hok
  exact ⟨hclean, fun _ _ hc hc' => hclean.lookups hc hc'⟩

/-! ### A key that moves -/

/-- A pool of three blocks and the null one, with a timeout of five nanoseconds. -/
def idlePool : BlockPool Unit :=
  ⟨4, true, some 5, none, fun b => { isNull := b = 0 }, [1, 2, 3], fun _ => [], fun _ => []⟩

/-- Two blocks have one key; those of the second are moved to a third one, and the first expires:
the key finds the third. -/
theorem cache_coherent_moved : ∃ pool' after : BlockPool Unit,
    CacheRun idlePool pool' ∧ Coherent pool' ∧
      pool'.cachedBlockHashToBlock ((), 0) = [1, 3] ∧
      expireCachedBlocksEvents true 10 pool' = .ok (1, [((), 0)], after) ∧
      pool'.expiredBlocks 10 = [1] ∧ CleanExpiry true 10 pool' [1] 1 [((), 0)] after ∧
      after.cachedBlockHashToBlock ((), 0) = [3] := by
  have hnew : BlockPool.new (fun _ => 5) 4 true (some 1) = .ok idlePool := by
    simp [BlockPool.new, idlePool]
    rfl
  have hrun := CacheRun.step 2 (.pool (.freeBlocks [1])) (.step 1 (.moveBlockHashes 2 3)
    (.step 1 (.pool (.insertBlockHash ((), 1) 2 (some 16)))
      (.step 1 (.pool (.insertBlockHash ((), 0) 2 (some 8)))
        (.step 1 (.pool (.insertBlockHash ((), 0) 1 (some 8)))
          (.step 1 (.pool (.getNewBlocks 3)) (.refl idlePool) trivial rfl)
          (by decide : 1 < 4) rfl)
        (by decide : 2 < 4) rfl)
      (by decide : 2 < 4) rfl)
    (by decide : 3 < 4) rfl)
    trivial rfl
  obtain ⟨hcoherent, -, -, hexpiry⟩ := cache_coherent hnew hrun
  obtain ⟨hclean, -⟩ := hexpiry true 10 1 [((), 0)] _ rfl
  exact ⟨_, _, hrun, hcoherent, rfl, rfl, rfl, hclean, rfl⟩

end Coherent

end Kv

end DgxSpark
