import DgxSpark.Kv.FreeQueue
import Mathlib.Data.Rat.Defs
import Mathlib.Logic.Function.Basic
import Mathlib.Tactic

/-!
# The block pool

`BlockPool` of `vllm/v1/core/block_pool.py`, with the idle expiry of cached blocks and the
session protection: blocks of the KV cache, counted references, the queue of those that nobody
holds, and the prefix cache, which finds a block by its hash.

A block that is freed stays in the cache until it is handed out again, evicted, reset, or
expired. Two fields decide over the last one: `cacheIdleSinceNs`, the time from which nobody has
held it, and `protectedUntilNs`, the time up to which a session wants it kept
(`DgxSpark.Kv.expireCachedBlocks`). So that a call with nothing to do can return at once, the
pool carries a deadline (`DgxSpark.Kv.BlockPool.nextPrefixCacheExpiryNs`).

The clock is an argument of each operation that reads it. The event queue and the metrics, which
no operation reads, are left out.
-/

namespace DgxSpark

namespace Kv

/-! ### Blocks -/

/-- `BlockHashWithGroupId`: the hash of a block, and the group of the cache it belongs to. -/
abbrev BlockHashWithGroupId (η : Type) : Type := η × Nat

/-- `KVCacheBlock`. -/
structure KVCacheBlock (η : Type) where
  refCnt : Int := 0
  /-- only while the block is full and cached -/
  blockHash : Option (BlockHashWithGroupId η) := none
  blockHashNumTokens : Option Nat := none
  cacheIdleSinceNs : Option Nat := none
  /-- `0` for a block that is not protected -/
  protectedUntilNs : Nat := 0
  isNull : Bool := false
deriving DecidableEq

/-- What an operation raises. -/
inductive PoolError where
  | valueError (message : String)
  | assertionError (message : String)
  /-- `remove()` on a block that is not in the queue -/
  | invalidBlock (blockId : Nat)
deriving DecidableEq, Repr

/-- `reset_hash`. -/
def KVCacheBlock.resetHash {η : Type} (block : KVCacheBlock η) : KVCacheBlock η :=
  { block with
    blockHash := none, blockHashNumTokens := none, cacheIdleSinceNs := none,
    protectedUntilNs := 0 }

/-- `set_block_hash`. -/
def KVCacheBlock.setBlockHash {η : Type} (key : BlockHashWithGroupId η)
    (numTokens : Option Nat) (block : KVCacheBlock η) : Except PoolError (KVCacheBlock η) :=
  if block.blockHash.isNone ∧ block.blockHashNumTokens.isNone then
    .ok { block with blockHash := some key, blockHashNumTokens := numTokens }
  else .error (.assertionError "The block already has a hash. This should not happen.")

/-! ### The pool -/

/-- `BlockPool`. -/
structure BlockPool (η : Type) where
  numGpuBlocks : Nat
  enableCaching : Bool
  prefixCacheIdleTimeoutNs : Option Nat
  nextPrefixCacheExpiryNs : Option Nat
  blocks : Nat → KVCacheBlock η
  freeBlockQueue : List Nat
  /-- `BlockHashToBlockMap`, the blocks under a key in the order in which they came -/
  cachedBlockHashToBlock : BlockHashWithGroupId η → List Nat
  /-- the keys of a block beyond its primary one -/
  cachedBlockHashesByBlock : Nat → List (BlockHashWithGroupId η)

namespace BlockPool

variable {η : Type}

/-- The constructor. The null block is the first one, and is taken out of the queue.

The timeout is the `round(seconds * 1e9)` of a floating point number; how it rounds is a
parameter. -/
def new (roundNs : ℚ → Int) (numGpuBlocks : Nat) (enableCaching : Bool)
    (prefixCacheIdleTimeoutSeconds : Option ℚ) : Except PoolError (BlockPool η) := do
  if numGpuBlocks = 0 then throw (.assertionError "num_gpu_blocks > 0")
  let timeoutNs ← match prefixCacheIdleTimeoutSeconds with
    | some seconds =>
      if enableCaching = false then
        throw (.valueError "prefix cache idle expiration requires prefix caching")
      else if seconds ≤ 0 then
        throw (.valueError "prefix_cache_idle_timeout_seconds must be greater than 0")
      else pure (some (max 1 (roundNs seconds)).toNat)
    | none => pure none
  return {
    numGpuBlocks := numGpuBlocks
    enableCaching := enableCaching
    prefixCacheIdleTimeoutNs := timeoutNs
    nextPrefixCacheExpiryNs := none
    blocks := fun b => { isNull := b = 0 }
    freeBlockQueue := (List.range numGpuBlocks).drop 1
    cachedBlockHashToBlock := fun _ => []
    cachedBlockHashesByBlock := fun _ => [] }

/-- One block, changed. -/
def setBlock (b : Nat) (block : KVCacheBlock η) (pool : BlockPool η) : BlockPool η :=
  { pool with blocks := Function.update pool.blocks b block }

end BlockPool

section Operations

variable {η : Type}

/-! ### The map from hashes to blocks -/

/-- `FreeKVCacheBlockQueue.remove`. -/
def remove (b : Nat) (queue : List Nat) : Except PoolError (List Nat) :=
  if b ∈ queue then .ok (queue.erase b) else .error (.invalidBlock b)

variable [DecidableEq η]

/-- `BlockHashToBlockMap.insert`. -/
def insertKey (key : BlockHashWithGroupId η) (b : Nat)
    (cache : BlockHashWithGroupId η → List Nat) : BlockHashWithGroupId η → List Nat :=
  Function.update cache key (if b ∈ cache key then cache key else cache key ++ [b])

/-- `BlockHashToBlockMap.pop`, for one block and one key after the other: the keys under which
the block was found, and the map without it there. -/
def popKeys (b : Nat) : List (BlockHashWithGroupId η) → (BlockHashWithGroupId η → List Nat) →
    List (BlockHashWithGroupId η) × (BlockHashWithGroupId η → List Nat)
  | [], cache => ([], cache)
  | key :: keys, cache =>
    let rest := popKeys b keys (Function.update cache key ((cache key).erase b))
    if b ∈ cache key then (key :: rest.1, rest.2) else rest

/-- `_remove_cached_block_hashes`: every key of the block goes, the primary one and the others. -/
def removeCachedBlockHashes (b : Nat) (pool : BlockPool η) :
    List (BlockHashWithGroupId η) × BlockPool η :=
  let keys := (pool.blocks b).blockHash.toList ++ pool.cachedBlockHashesByBlock b
  if keys = [] then ([], pool)
  else
    let popped := popKeys b keys pool.cachedBlockHashToBlock
    (popped.1,
      { pool.setBlock b (pool.blocks b).resetHash with
        cachedBlockHashToBlock := popped.2
        cachedBlockHashesByBlock := Function.update pool.cachedBlockHashesByBlock b [] })

/-- `_maybe_evict_cached_block`, for its effect on the pool. -/
def maybeEvictCachedBlock (b : Nat) (pool : BlockPool η) : BlockPool η :=
  (removeCachedBlockHashes b pool).2

/-- `_insert_block_hash`. -/
def insertBlockHash (key : BlockHashWithGroupId η) (b : Nat) (numTokens : Option Nat)
    (pool : BlockPool η) : Except PoolError (BlockPool η) :=
  if (pool.blocks b).blockHash = some key then .ok pool
  else if b ∈ pool.cachedBlockHashToBlock key then .ok pool
  else
    let cache := insertKey key b pool.cachedBlockHashToBlock
    match (pool.blocks b).blockHash with
    | none => do
      let block ← (pool.blocks b).setBlockHash key numTokens
      return { pool.setBlock b block with cachedBlockHashToBlock := cache }
    | some _ =>
      .ok { pool with
        cachedBlockHashToBlock := cache
        cachedBlockHashesByBlock := Function.update pool.cachedBlockHashesByBlock b
          (pool.cachedBlockHashesByBlock b ++ [key]) }

/-! ### Allocation -/

/-- The blocks of `get_new_blocks` that its first pop picks. -/
def unprotected (nowNs : Nat) (pool : BlockPool η) (b : Nat) : Bool :=
  (pool.blocks b).protectedUntilNs ≤ nowNs

/-- The loop of `get_new_blocks` over what was popped: each block leaves the cache and gets its
first reference. -/
def takeBlocks : List Nat → BlockPool η → Except PoolError (BlockPool η)
  | [], pool => .ok pool
  | b :: ret, pool =>
    let pool := if pool.enableCaching then maybeEvictCachedBlock b pool else pool
    if (pool.blocks b).refCnt = 0 then
      takeBlocks ret (pool.setBlock b { pool.blocks b with refCnt := (pool.blocks b).refCnt + 1 })
    else .error (.assertionError "block.ref_cnt == 0")

/-- The loop of `get_new_blocks` that takes the protection off. -/
def unprotectBlocks (ret : List Nat) (pool : BlockPool η) : BlockPool η :=
  ret.foldl (fun pool b => pool.setBlock b { pool.blocks b with protectedUntilNs := 0 }) pool

/-- `get_new_blocks`. -/
def getNewBlocks (nowNs numBlocks : Nat) (pool : BlockPool η) :
    Except PoolError (List Nat × BlockPool η) :=
  if pool.freeBlockQueue.length < numBlocks then
    .error (.valueError ("Cannot get " ++ toString numBlocks ++ " free blocks from the pool"))
  else
    let popped := popTwice (unprotected nowNs pool) numBlocks pool.freeBlockQueue
    do
      let pool ← takeBlocks popped.1
        (unprotectBlocks popped.1 { pool with freeBlockQueue := popped.2 })
      return (popped.1, pool)

/-! ### References -/

/-- `touch`: a block that nobody held leaves the queue. -/
def touch : List Nat → BlockPool η → Except PoolError (BlockPool η)
  | [], pool => .ok pool
  | b :: rest, pool => do
    let pool ←
      if (pool.blocks b).refCnt = 0 ∧ (pool.blocks b).isNull = false then do
        let queue ← remove b pool.freeBlockQueue
        pure ({ pool with freeBlockQueue := queue }.setBlock b
          { pool.blocks b with cacheIdleSinceNs := none })
      else pure pool
    touch rest (pool.setBlock b { pool.blocks b with refCnt := (pool.blocks b).refCnt + 1 })

/-- What the first loop of `free_blocks` has at its end. -/
structure Released (η : Type) where
  blocks : Nat → KVCacheBlock η
  withHash : List Nat
  withoutHash : List Nat

/-- The first loop of `free_blocks`: one reference less, and the blocks without any are told
apart by their hash. -/
def release (enableCaching : Bool) :
    List Nat → (Nat → KVCacheBlock η) → Released η
  | [], blocks => ⟨blocks, [], []⟩
  | b :: rest, blocks =>
    let block := { blocks b with refCnt := (blocks b).refCnt - 1 }
    let after := release enableCaching rest (Function.update blocks b block)
    if block.refCnt = 0 ∧ block.isNull = false then
      if block.blockHash = none ∧ enableCaching = true then
        { after with withoutHash := b :: after.withoutHash }
      else { after with withHash := b :: after.withHash }
    else after

/-- The loop of `free_blocks` that notes since when nobody holds the blocks. -/
def setIdle (idleSinceNs : Nat) (withHash : List Nat) (blocks : Nat → KVCacheBlock η) :
    Nat → KVCacheBlock η :=
  withHash.foldl
    (fun blocks b => Function.update blocks b
      { blocks b with cacheIdleSinceNs := some idleSinceNs }) blocks

/-- The smaller of a deadline, if there is one, and another. -/
def earlier (next : Option Nat) (expiryNs : Nat) : Option Nat :=
  match next with
  | none => some expiryNs
  | some nextNs => if expiryNs < nextNs then some expiryNs else some nextNs

/-- `free_blocks`. -/
def freeBlocks (nowNs : Nat) (orderedBlocks : List Nat) (pool : BlockPool η) : BlockPool η :=
  let released := release pool.enableCaching orderedBlocks pool.blocks
  let queue := appendN released.withHash (prependN released.withoutHash pool.freeBlockQueue)
  match pool.prefixCacheIdleTimeoutNs with
  | some timeoutNs =>
    if released.withHash = [] then
      { pool with blocks := released.blocks, freeBlockQueue := queue }
    else
      { pool with
        blocks := setIdle nowNs released.withHash released.blocks
        nextPrefixCacheExpiryNs := earlier pool.nextPrefixCacheExpiryNs (nowNs + timeoutNs)
        freeBlockQueue := queue }
  | none => { pool with blocks := released.blocks, freeBlockQueue := queue }

/-! ### Expiry, eviction, reset -/

/-- The scan of `expire_cached_blocks`, from the block that comes next: the expired blocks, and
the deadline for the others. -/
def scan (nowNs timeoutNs : Nat) (blocks : Nat → KVCacheBlock η) :
    List Nat → List Nat → Option Nat → Except PoolError (List Nat × Option Nat)
  | [], expired, next => .ok (expired, next)
  | b :: rest, expired, next =>
    if (blocks b).blockHash = none then scan nowNs timeoutNs blocks rest expired next
    else if nowNs < (blocks b).protectedUntilNs then
      -- session protection extends the idle life of the block
      scan nowNs timeoutNs blocks rest expired (earlier next (blocks b).protectedUntilNs)
    else
      match (blocks b).cacheIdleSinceNs with
      | none => .error (.assertionError "idle_since_ns is not None")
      | some idleSinceNs =>
        if idleSinceNs + timeoutNs ≤ nowNs then
          scan nowNs timeoutNs blocks rest (expired ++ [b]) next
        else scan nowNs timeoutNs blocks rest expired (earlier next (idleSinceNs + timeoutNs))

/-- The second loop of `expire_cached_blocks`: the expired blocks leave the queue and the cache,
and the keys that they had are collected. -/
def dropExpiredHashes : List Nat → BlockPool η →
    Except PoolError (List (BlockHashWithGroupId η) × BlockPool η)
  | [], pool => .ok ([], pool)
  | b :: rest, pool => do
    let queue ← remove b pool.freeBlockQueue
    let removed := removeCachedBlockHashes b { pool with freeBlockQueue := queue }
    let (hashes, pool) ← dropExpiredHashes rest removed.2
    return (removed.1 ++ hashes, pool)

/-- `expire_cached_blocks`: how many blocks have expired, the keys of the `BlockRemoved` events that
it emits, in their order, and the pool after. -/
def expireCachedBlocksEvents (enableKvCacheEvents : Bool) (nowNs : Nat) (pool : BlockPool η) :
    Except PoolError (Nat × List (BlockHashWithGroupId η) × BlockPool η) :=
  match pool.prefixCacheIdleTimeoutNs, pool.nextPrefixCacheExpiryNs with
  | some timeoutNs, some nextExpiryNs =>
    if nowNs < nextExpiryNs then .ok (0, [], pool)
    else do
      let (expired, next) ← scan nowNs timeoutNs pool.blocks pool.freeBlockQueue [] none
      let (hashes, pool) ← dropExpiredHashes expired pool
      return (expired.length, if enableKvCacheEvents then hashes else [],
        { pool with
          freeBlockQueue := prependN expired pool.freeBlockQueue
          nextPrefixCacheExpiryNs := next })
  | _, _ => .ok (0, [], pool)

/-- `expire_cached_blocks` without its events. -/
def expireCachedBlocks (nowNs : Nat) (pool : BlockPool η) : Except PoolError (Nat × BlockPool η) :=
  (expireCachedBlocksEvents false nowNs pool).map fun r => (r.1, r.2.2)

/-- `evict_blocks`, with the identifiers in the order in which the set gives them. -/
def evictBlocks : List Nat → BlockPool η → Except PoolError (BlockPool η)
  | [], pool => .ok pool
  | b :: rest, pool =>
    if b < pool.numGpuBlocks then evictBlocks rest (maybeEvictCachedBlock b pool)
    else .error (.assertionError ("Invalid block_id " ++ toString b ++ " >= " ++
      toString pool.numGpuBlocks ++ ". This indicates a bug in the KV connector - workers " ++
      "should only report block IDs that were allocated by the scheduler."))

/-- `reset_prefix_cache`: only with nothing but the null block in use. -/
def resetPrefixCache (pool : BlockPool η) : Bool × BlockPool η :=
  if (pool.numGpuBlocks : Int) - pool.freeBlockQueue.length ≠ 1 then (false, pool)
  else
    (true,
      { pool with
        cachedBlockHashToBlock := fun _ => []
        cachedBlockHashesByBlock := fun _ => []
        blocks := fun b => if b < pool.numGpuBlocks then (pool.blocks b).resetHash
          else pool.blocks b
        nextPrefixCacheExpiryNs := none })

/-! ### Sessions -/

/-- `_stamp_session_block_protection` of the scheduler, over the blocks of the groups of a
request. `protectNs` is `int(seconds * 1e9)`, and is missing when the seconds are not
positive. -/
def stampSessionBlockProtection (nowNs : Nat) (sessionId : Option String)
    (protectNs : Option Nat) (groups : List (List Nat)) (pool : BlockPool η) : BlockPool η :=
  match sessionId, protectNs with
  | some _, some protectNs =>
    groups.flatten.foldl
      (fun pool b => pool.setBlock b
        { pool.blocks b with
          protectedUntilNs := max (pool.blocks b).protectedUntilNs (nowNs + protectNs) })
      pool
  | _, _ => pool

end Operations

end Kv

end DgxSpark
