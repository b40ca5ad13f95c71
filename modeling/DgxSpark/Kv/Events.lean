import DgxSpark.Deploy.Config
import DgxSpark.Kv.BlockHashes
import DgxSpark.Kv.Coherence

/-!
# The events of the prefix cache

A block pool that is set up to do so tells of every change of its prefix cache: of keys that a
block gets, of keys that are taken off, and of a reset. Others read these events to know what is
cached without asking. This module has the operations of the pool with the events they emit –
`cache_full_blocks` and `cache_partial_block` in full, and the others on top of what
`DgxSpark.Kv.BlockPool` says they do – and a subscriber, who counts.

What is proved is that the events say enough: whatever order of operations the pool has gone
through, and however its queue was emptied in between, a subscriber who has read everything counts
for each hash and group exactly the blocks that are cached under it
(`DgxSpark.Kv.subscriber_exact`). Blocks that are moved to others (`move_block_hashes`) need no
event for this, and `cache_partial_block` emits none for a key that its block has already.
-/

namespace DgxSpark

namespace Kv

/-! ### Events -/

/-- `ExternalBlockHash`: the bytes, or an integer. -/
inductive ExternalBlockHash where
  | bytes (hash : Bytes)
  | int (n : Nat)
deriving DecidableEq, Repr

/-- `maybe_convert_block_hash`. -/
def maybeConvertBlockHash (useIntBlockHashes : Bool) (hash : Bytes) : ExternalBlockHash :=
  if useIntBlockHashes = false then .bytes hash
  else .int (hash.foldl (fun n byte => n * 256 + byte.toNat) 0 % 2 ^ 64)

/-- `BlockStored`. The medium is always that of the GPU. -/
structure BlockStored where
  blockHashes : List ExternalBlockHash
  parentBlockHash : Option ExternalBlockHash
  tokenIds : List Nat
  blockSize : Nat
  loraName : Option String
  extraKeys : List (Option (List ExtraKey))
  groupIdx : Nat
deriving DecidableEq, Repr

/-- `KVCacheEvent`. -/
inductive KVCacheEvent where
  | blockStored (event : BlockStored)
  | blockRemoved (blockHashes : List ExternalBlockHash) (groupIdx : Nat)
  | allBlocksCleared
deriving DecidableEq, Repr

/-- What an operation raises. -/
inductive EventError where
  | pool (error : PoolError)
  | hash (error : HashError)
  | assertionError
  | indexError
deriving DecidableEq, Repr

/-- What a pool with events is set up with. -/
structure EventSetup (ρ : Type) where
  hashing : Hashing ρ
  enableKvCacheEvents : Bool
  useIntBlockHashes : Bool

/-- A pool with its `kv_event_queue`. -/
structure EventPool where
  pool : BlockPool Bytes
  kvEventQueue : List KVCacheEvent

variable {ρ : Type} (setup : EventSetup ρ)

/-- What an operation of the pool raises, here. -/
def liftPool {α : Type} (result : Except PoolError α) : Except EventError α :=
  result.mapError EventError.pool

/-- The event for a key that is taken off. -/
def EventSetup.removedEvent (key : BlockHashWithGroupId Bytes) : KVCacheEvent :=
  .blockRemoved [maybeConvertBlockHash setup.useIntBlockHashes key.1] key.2

/-- `_emit_block_removed_events`. -/
def emitBlockRemovedEvents (hashes : List (BlockHashWithGroupId Bytes)) (s : EventPool) :
    EventPool :=
  if setup.enableKvCacheEvents then
    { s with kvEventQueue := s.kvEventQueue ++ hashes.map setup.removedEvent }
  else s

/-- `_maybe_evict_cached_block`, and the same steps where `cache_full_blocks` makes room. -/
def evictCachedBlock (b : Nat) (s : EventPool) : EventPool :=
  let removed := removeCachedBlockHashes b s.pool
  emitBlockRemovedEvents setup removed.1 { s with pool := removed.2 }

/-! ### Full blocks -/

/-- Whether the mask, if there is one, leaves a block out. -/
def masked (blockMask : Option (List Bool)) (i : Nat) : Bool :=
  match blockMask with
  | none => false
  | some mask => !mask.getD i true

/-- What `cache_full_blocks` does first with a block that has a hash: one of fewer tokens goes; one
of as many is that of another group, and stays. -/
def makeRoom (key : BlockHashWithGroupId Bytes) (numHashTokens b : Nat) (s : EventPool) :
    Except EventError EventPool :=
  match (s.pool.blocks b).blockHash with
  | none => .ok s
  | some primary =>
    match (s.pool.blocks b).blockHashNumTokens with
    | none => .error .assertionError
    | some numTokens =>
      if numTokens < numHashTokens then .ok (evictCachedBlock setup b s)
      else if numTokens = numHashTokens ∧ primary.1 = key.1 ∧ primary.2 ≠ key.2 then .ok s
      else .error .assertionError

/-- The loop of `cache_full_blocks` over the new blocks. -/
def cacheLoop (hashes : BlockHashList) (numCachedBlocks blockSize groupId : Nat)
    (blockMask : Option (List Bool)) :
    List Nat → Nat → EventPool → Except EventError (List ExternalBlockHash × EventPool)
  | [], _, s => .ok ([], s)
  | b :: rest, i, s =>
    if (s.pool.blocks b).isNull = true ∨ masked blockMask i = true then
      cacheLoop hashes numCachedBlocks blockSize groupId blockMask rest (i + 1) s
    else
      match hashes.getItem? (numCachedBlocks + i) with
      | none => .error .indexError
      | some hash => do
        let numHashTokens := (numCachedBlocks + i + 1) * blockSize
        let s ← makeRoom setup (hash, groupId) numHashTokens b s
        let pool ← liftPool (insertBlockHash (hash, groupId) b (some numHashTokens) s.pool)
        let (new, s) ← cacheLoop hashes numCachedBlocks blockSize groupId blockMask rest (i + 1)
          { s with pool := pool }
        return (maybeConvertBlockHash setup.useIntBlockHashes hash :: new, s)

/-- The loop of `cache_full_blocks` over the extra keys of the new blocks. -/
def extraKeysLoop (blocks : Nat → KVCacheBlock Bytes) (numCachedBlocks blockSize : Nat)
    (blockMask : Option (List Bool)) :
    List Nat → Nat → Int → Request ρ →
      Except EventError (List (Option (List ExtraKey)) × Request ρ)
  | [], _, _, request => .ok ([], request)
  | b :: rest, i, currMmIdx, request =>
    if (blocks b).isNull = true ∨ masked blockMask i = true then
      extraKeysLoop blocks numCachedBlocks blockSize blockMask rest (i + 1) currMmIdx request
    else do
      let blockStart := (numCachedBlocks + i) * blockSize
      let (keys, currMmIdx, request) ←
        (generateBlockHashExtraKeys setup.hashing request blockStart (blockStart + blockSize)
          currMmIdx).mapError EventError.hash
      let (more, request) ←
        extraKeysLoop blocks numCachedBlocks blockSize blockMask rest (i + 1) currMmIdx request
      return (keys :: more, request)

/-- The hash of the last block that was cached before. -/
def parentBlockHash (hashes : BlockHashList) (numCachedBlocks : Nat) :
    Except EventError (Option ExternalBlockHash) :=
  if numCachedBlocks = 0 then .ok none
  else
    match hashes.getItem? (numCachedBlocks - 1) with
    | none => .error .indexError
    | some hash => .ok (some (maybeConvertBlockHash setup.useIntBlockHashes hash))

/-- The arguments of `cache_full_blocks`. -/
structure FullBlocks (ρ : Type) where
  request : Request ρ
  blocks : List Nat
  numCachedBlocks : Nat
  numFullBlocks : Nat
  blockSize : Nat
  groupId : Nat
  blockMask : Option (List Bool)

/-- The blocks that are full and not cached yet. -/
def FullBlocks.newBlocks (full : FullBlocks ρ) : List Nat :=
  slice full.blocks full.numCachedBlocks full.numFullBlocks

/-- `cache_full_blocks`: the pool after, and the request with the digests that it keeps. -/
def cacheFullBlocks (full : FullBlocks ρ) (s : EventPool) :
    Except EventError (EventPool × Request ρ) :=
  if full.numFullBlocks ≤ full.numCachedBlocks then .ok (s, full.request)
  else if ¬ ∀ mask ∈ full.blockMask, mask.length = full.newBlocks.length then
    .error .assertionError
  else do
    let hashes ← (resolveBlockHashes (.hashes full.request.blockHashes)
      setup.hashing.hashBlockSize full.blockSize false none).mapError EventError.hash
    let (new, s) ← cacheLoop setup hashes full.numCachedBlocks full.blockSize full.groupId
      full.blockMask full.newBlocks 0 s
    if setup.enableKvCacheEvents = false then return (s, full.request)
    let parent ← parentBlockHash setup hashes full.numCachedBlocks
    let (keys, request) ← extraKeysLoop setup s.pool.blocks full.numCachedBlocks full.blockSize
      full.blockMask full.newBlocks 0 0 full.request
    return ({ s with kvEventQueue := s.kvEventQueue ++ [.blockStored {
      blockHashes := new, parentBlockHash := parent
      tokenIds := slice full.request.allTokenIds (full.numCachedBlocks * full.blockSize)
        (full.numFullBlocks * full.blockSize)
      blockSize := full.blockSize, loraName := full.request.loraName, extraKeys := keys
      groupIdx := full.groupId }] }, request)

/-! ### Partial blocks -/

/-- The arguments of `cache_partial_block`. -/
structure PartialBlock (ρ : Type) where
  request : Request ρ
  block : Nat
  numTokens : Nat
  groupId : Nat
  blockSize : Nat

/-- `_get_partial_block_hash`. -/
def getPartialBlockHash (request : Request ρ) (numTokens : Nat) : Except EventError Bytes :=
  if numTokens % setup.hashing.hashBlockSize ≠ 0 then .error .assertionError
  else
    let numHashBlocks := numTokens / setup.hashing.hashBlockSize
    if 0 < numHashBlocks ∧ numHashBlocks ≤ request.blockHashes.length then
      match request.blockHashes[numHashBlocks - 1]? with
      | some hash => .ok hash
      | none => .error .indexError
    else .error .assertionError

/-- Whether a block has a key already. -/
def alreadyCached (key : BlockHashWithGroupId Bytes) (b : Nat) (pool : BlockPool Bytes) : Bool :=
  (pool.blocks b).blockHash = some key ∨ b ∈ pool.cachedBlockHashToBlock key

/-- What `cache_partial_block` does first: a block whose hash is of fewer tokens loses it, and what
else it has. -/
def promote (key : BlockHashWithGroupId Bytes) (numHashTokens b : Nat) (s : EventPool) :
    EventPool :=
  if alreadyCached key b s.pool = false ∧ (s.pool.blocks b).blockHash ≠ none ∧
      ∃ numTokens ∈ (s.pool.blocks b).blockHashNumTokens, numTokens < numHashTokens then
    evictCachedBlock setup b s
  else s

/-- The event of a partial block: the hash block that it ends with. -/
def partialStored (part : PartialBlock ρ) (hash : Bytes) :
    Except EventError (BlockStored × Request ρ) := do
  let numHashBlocks := part.numTokens / setup.hashing.hashBlockSize
  let parent := if 1 < numHashBlocks then part.request.blockHashes[numHashBlocks - 2]? else none
  let blockStart := (numHashBlocks - 1) * setup.hashing.hashBlockSize
  let (keys, _, request) ← (generateBlockHashExtraKeys setup.hashing part.request blockStart
    part.numTokens (if 0 < blockStart then -1 else 0)).mapError EventError.hash
  return ({
    blockHashes := [maybeConvertBlockHash setup.useIntBlockHashes hash]
    parentBlockHash := parent.map (maybeConvertBlockHash setup.useIntBlockHashes)
    tokenIds := slice part.request.allTokenIds blockStart part.numTokens
    blockSize := part.numTokens - blockStart
    loraName := part.request.loraName, extraKeys := [keys], groupIdx := part.groupId }, request)

/-- `cache_partial_block`: the key, if there is one, the pool after, and the request. -/
def cachePartialBlock (part : PartialBlock ρ) (s : EventPool) :
    Except EventError (Option (BlockHashWithGroupId Bytes) × EventPool × Request ρ) :=
  if (s.pool.blocks part.block).isNull = true then .ok (none, s, part.request)
  else if ¬ (setup.hashing.hashBlockSize < part.blockSize ∧
      part.blockSize % setup.hashing.hashBlockSize = 0 ∧
      part.numTokens % part.blockSize ≠ 0) then .error .assertionError
  else do
    let hash ← getPartialBlockHash setup part.request part.numTokens
    let key := (hash, part.groupId)
    let numHashTokens :=
      part.numTokens / setup.hashing.hashBlockSize * setup.hashing.hashBlockSize
    let already := alreadyCached key part.block s.pool
    let s := promote setup key numHashTokens part.block s
    let pool ← liftPool (insertBlockHash key part.block (some numHashTokens) s.pool)
    if setup.enableKvCacheEvents = true ∧ already = false then do
      let (event, request) ← partialStored setup part hash
      return (some key, { pool := pool, kvEventQueue := s.kvEventQueue ++ [.blockStored event] },
        request)
    else return (some key, { s with pool := pool }, part.request)

/-! ### Blocks that are used again -/

/-- The arguments of `emit_cached_block_events`. -/
structure ReusedBlocks (ρ : Type) where
  request : Request ρ
  numCachedBlocks : Nat
  blockSize : Nat
  groupId : Nat

/-- The loop of `emit_cached_block_events`, over the blocks from `i` on. -/
def reusedLoop (hashes : BlockHashList) (blockSize : Nat) :
    Nat → Nat → Int → Request ρ →
      Except EventError (List ExternalBlockHash × List (Option (List ExtraKey)) × Request ρ)
  | 0, _, _, request => .ok ([], [], request)
  | rest + 1, i, currMmIdx, request =>
    match hashes.getItem? i with
    | none => .error .indexError
    | some hash => do
      let (keys, currMmIdx, request) ←
        (generateBlockHashExtraKeys setup.hashing request (i * blockSize)
          (i * blockSize + blockSize) currMmIdx).mapError EventError.hash
      let (more, moreKeys, request) ← reusedLoop hashes blockSize rest (i + 1) currMmIdx request
      return (maybeConvertBlockHash setup.useIntBlockHashes hash :: more, keys :: moreKeys, request)

/-- `emit_cached_block_events`: blocks that are cached already are told again. -/
def emitCachedBlockEvents (reused : ReusedBlocks ρ) (s : EventPool) :
    Except EventError (EventPool × Request ρ) :=
  if setup.enableKvCacheEvents = false ∨ reused.numCachedBlocks = 0 then .ok (s, reused.request)
  else do
    let hashes ← (resolveBlockHashes (.hashes reused.request.blockHashes)
      setup.hashing.hashBlockSize reused.blockSize false none).mapError EventError.hash
    let (cachedHashes, keys, request) ← reusedLoop setup hashes reused.blockSize
      reused.numCachedBlocks 0 0 reused.request
    return ({ s with kvEventQueue := s.kvEventQueue ++ [.blockStored {
      blockHashes := cachedHashes, parentBlockHash := none
      tokenIds := slice reused.request.allTokenIds 0 (reused.numCachedBlocks * reused.blockSize)
      blockSize := reused.blockSize, loraName := reused.request.loraName, extraKeys := keys
      groupIdx := reused.groupId }] }, request)

/-! ### The other operations -/

/-- The loop of `get_new_blocks` over what was popped, with its evictions. -/
def takeBlocksEvents : List Nat → EventPool → Except PoolError EventPool
  | [], s => .ok s
  | b :: ret, s =>
    let s := if s.pool.enableCaching then evictCachedBlock setup b s else s
    if (s.pool.blocks b).refCnt = 0 then
      let block := { s.pool.blocks b with refCnt := (s.pool.blocks b).refCnt + 1 }
      takeBlocksEvents ret { s with pool := s.pool.setBlock b block }
    else .error (.assertionError "block.ref_cnt == 0")

/-- `get_new_blocks`. -/
def getNewBlocksEvents (nowNs numBlocks : Nat) (s : EventPool) :
    Except PoolError (List Nat × EventPool) :=
  if s.pool.freeBlockQueue.length < numBlocks then
    .error (.valueError ("Cannot get " ++ toString numBlocks ++ " free blocks from the pool"))
  else
    let popped := popTwice (unprotected nowNs s.pool) numBlocks s.pool.freeBlockQueue
    do
      let s ← takeBlocksEvents setup popped.1 { s with
        pool := unprotectBlocks popped.1 { s.pool with freeBlockQueue := popped.2 } }
      return (popped.1, s)

/-- `evict_blocks`. -/
def evictBlocksEvents : List Nat → EventPool → Except PoolError EventPool
  | [], s => .ok s
  | b :: rest, s =>
    if b < s.pool.numGpuBlocks then evictBlocksEvents rest (evictCachedBlock setup b s)
    else .error (.assertionError ("Invalid block_id " ++ toString b ++ " >= " ++
      toString s.pool.numGpuBlocks ++ ". This indicates a bug in the KV connector - workers " ++
      "should only report block IDs that were allocated by the scheduler."))

/-- `reset_prefix_cache`. -/
def resetPrefixCacheEvents (s : EventPool) : Bool × EventPool :=
  let reset := resetPrefixCache s.pool
  (reset.1, { pool := reset.2, kvEventQueue :=
    if reset.1 = true ∧ setup.enableKvCacheEvents = true then
      s.kvEventQueue ++ [.allBlocksCleared] else s.kvEventQueue })

/-- `take_events`. -/
def takeEvents (s : EventPool) : List KVCacheEvent × EventPool :=
  if setup.enableKvCacheEvents = false then ([], s)
  else (s.kvEventQueue, { s with kvEventQueue := [] })

/-! ### A subscriber -/

/-- What an event is about: a hash, as it is told, and a group. -/
abbrev EventKey : Type := ExternalBlockHash × Nat

/-- How often a key is in a list. -/
def tally (keys : List EventKey) (k : EventKey) : Int := keys.count k

/-- What a subscriber makes of an event, who counts the blocks of each key. -/
def KVCacheEvent.read (event : KVCacheEvent) (counts : EventKey → Int) : EventKey → Int :=
  match event with
  | .blockStored stored =>
    fun k => counts k + tally (stored.blockHashes.map fun hash => (hash, stored.groupIdx)) k
  | .blockRemoved blockHashes groupIdx =>
    fun k => counts k - tally (blockHashes.map fun hash => (hash, groupIdx)) k
  | .allBlocksCleared => fun _ => 0

/-- What a subscriber makes of a batch of events. -/
def readAll (events : List KVCacheEvent) (counts : EventKey → Int) : EventKey → Int :=
  events.foldl (fun counts event => event.read counts) counts

/-- A key of the cache, as it is told. -/
def EventSetup.external (key : BlockHashWithGroupId Bytes) : EventKey :=
  (maybeConvertBlockHash setup.useIntBlockHashes key.1, key.2)

/-- **How many blocks are cached** under a hash and group, as they are told. -/
def held (pool : BlockPool Bytes) : EventKey → Int :=
  tally ((List.range pool.numGpuBlocks).flatMap fun b => (pool.keys b).map setup.external)

section Counting

@[simp] theorem tally_nil (k : EventKey) : tally [] k = 0 := rfl

@[simp] theorem tally_append (keys keys' : List EventKey) (k : EventKey) :
    tally (keys ++ keys') k = tally keys k + tally keys' k := by
  rw [tally, tally, tally, List.count_append, Int.natCast_add]

theorem tally_cons (key : EventKey) (keys : List EventKey) (k : EventKey) :
    tally (key :: keys) k = tally [key] k + tally keys k := tally_append [key] keys k

theorem readAll_append (events events' : List KVCacheEvent) (counts : EventKey → Int) :
    readAll (events ++ events') counts = readAll events' (readAll events counts) :=
  List.foldl_append

/-- Lists of lists of which one has changed. -/
theorem tally_flatMap_change {l : List Nat} (hnodup : l.Nodup) {f g : Nat → List EventKey}
    {b : Nat} (hb : b ∈ l) (h : ∀ x, x ≠ b → g x = f x) (k : EventKey) :
    tally (l.flatMap g) k + tally (f b) k = tally (l.flatMap f) k + tally (g b) k := by
  induction l with
  | nil => exact absurd hb List.not_mem_nil
  | cons a rest ih =>
    obtain ⟨ha, hrest⟩ := List.nodup_cons.1 hnodup
    rw [List.flatMap_cons, List.flatMap_cons, tally_append, tally_append]
    by_cases hab : a = b
    · subst hab
      have hsame : rest.flatMap g = rest.flatMap f :=
        List.flatMap_congr fun x hx => h x (ne_of_mem_of_not_mem hx ha)
      rw [hsame]
      omega
    · have hchange := ih hrest ((List.mem_cons.1 hb).resolve_left (Ne.symm hab))
      rw [h a hab]
      omega

/-- Reading the events of keys that are taken off. -/
theorem readAll_removed (keys : List (BlockHashWithGroupId Bytes)) (counts : EventKey → Int) :
    readAll (keys.map setup.removedEvent) counts =
      fun k => counts k - tally (keys.map setup.external) k := by
  induction keys generalizing counts with
  | nil =>
    funext k
    exact (Int.sub_zero _).symm
  | cons key keys ih =>
    rw [List.map_cons]
    show readAll _ ((setup.removedEvent key).read counts) = _
    rw [ih]
    funext k
    rw [List.map_cons, tally_cons]
    show counts k - tally [setup.external key] k - _ = _
    omega

variable {setup} {pool pool' : BlockPool Bytes} {b : Nat}

variable (setup) in
/-- **One block has other keys** than before. -/
theorem held_change (hnum : pool'.numGpuBlocks = pool.numGpuBlocks)
    (hb : b < pool.numGpuBlocks) (h : ∀ x, x ≠ b → pool'.keys x = pool.keys x) (k : EventKey) :
    held setup pool' k + tally ((pool.keys b).map setup.external) k =
      held setup pool k + tally ((pool'.keys b).map setup.external) k := by
  rw [held, held, hnum]
  refine tally_flatMap_change (f := fun x => (pool.keys x).map setup.external)
    (g := fun x => (pool'.keys x).map setup.external) List.nodup_range (List.mem_range.2 hb)
    (fun x hx => ?_) k
  rw [h x hx]

/-- No block has other keys than before. -/
theorem held_same (hnum : pool'.numGpuBlocks = pool.numGpuBlocks)
    (h : ∀ x, pool'.keys x = pool.keys x) : held setup pool' = held setup pool := by
  rw [held, held, hnum]
  congr 1
  exact List.flatMap_congr fun x _ => by rw [h x]

/-- A block that has changed, but for its hash. -/
theorem held_setBlock {block : KVCacheBlock Bytes}
    (hsame : block.blockHash = (pool.blocks b).blockHash) :
    held setup (pool.setBlock b block) = held setup pool := by
  refine held_same rfl fun x => ?_
  rw [BlockPool.keys, BlockPool.keys]
  by_cases hx : x = b
  · subst hx
    simp only [BlockPool.setBlock, Function.update_self, hsame]
  · simp only [BlockPool.setBlock, Function.update_of_ne hx]

/-- A block beyond the pool has no keys. -/
theorem Coherent.keys_outside (h : Coherent pool) (hb : pool.numGpuBlocks ≤ b) :
    pool.keys b = [] := by
  rw [BlockPool.keys, h.outside b hb, h.secondary b (h.outside b hb)]
  rfl

theorem Removed.keys {removed : List (BlockHashWithGroupId Bytes)}
    (hr : Removed b removed pool pool') (x : Nat) :
    pool'.keys x = if x = b then [] else pool.keys x := by
  rw [BlockPool.keys, hr.blockHash, hr.byBlock]
  split
  · rfl
  · rfl

variable (setup) in
/-- **The keys of a block are taken off.** -/
theorem Removed.held {removed : List (BlockHashWithGroupId Bytes)}
    (hr : Removed b removed pool pool') (h : Coherent pool) (k : EventKey) :
    held setup pool' k = held setup pool k - tally (removed.map setup.external) k := by
  by_cases hb : b < pool.numGpuBlocks
  · have hchange := held_change setup hr.numGpuBlocks hb
      (fun x hx => by rw [hr.keys, if_neg hx]) k
    rw [hr.keys b, if_pos rfl, List.map_nil, tally_nil, Int.add_zero] at hchange
    rw [hr.removed]
    omega
  · have hnone := h.keys_outside (not_lt.1 hb)
    rw [hr.removed, hnone, List.map_nil, tally_nil, Int.sub_zero, held_same hr.numGpuBlocks]
    intro x
    rw [hr.keys]
    split
    · rename_i hx
      rw [hx, hnone]
    · rfl

/-- What a new key leaves. -/
structure Keyed (key : BlockHashWithGroupId Bytes) (b : Nat) (pool pool' : BlockPool Bytes) :
    Prop where
  coherent : Coherent pool'
  hashed : Hashed b pool pool'
  keys : pool'.keys b = pool.keys b ++ [key]
  others : ∀ x, x ≠ b → pool'.keys x = pool.keys x

/-- **A key that a block does not have** is added to its keys. -/
theorem Coherent.keyed (h : Coherent pool) {key : BlockHashWithGroupId Bytes}
    (hb : b < pool.numGpuBlocks) (hnew : key ∉ pool.keys b) {numTokens : Option Nat}
    (hok : Kv.insertBlockHash key b numTokens pool = .ok pool') : Keyed key b pool pool' := by
  refine ⟨(h.insertBlockHash hb hok).1, insertBlockHash_spec hok, ?_, fun x hx => ?_⟩
  all_goals
    rw [mem_keys, not_or] at hnew
    have hmem : b ∉ pool.cachedBlockHashToBlock key := fun hin =>
      ((h.mem_iff key b).1 hin).elim hnew.1 hnew.2
    rw [Kv.insertBlockHash, if_neg hnew.1, if_neg hmem] at hok
    dsimp only at hok
    split at hok
    · rename_i hnone
      simp only [KVCacheBlock.setBlockHash] at hok
      split at hok
      · obtain rfl := Except.ok.inj hok
        simp [BlockPool.keys, BlockPool.setBlock, h.secondary b hnone, *]
      · cases hok
    · obtain rfl := Except.ok.inj hok
      simp [BlockPool.keys, *]

variable (setup) in
theorem Keyed.held {key : BlockHashWithGroupId Bytes} (hk : Keyed key b pool pool')
    (hb : b < pool.numGpuBlocks) (k : EventKey) :
    held setup pool' k = held setup pool k + tally [setup.external key] k := by
  have hchange := held_change setup hk.hashed.setup.numGpuBlocks hb hk.others k
  rw [hk.keys, List.map_append, tally_append, List.map_singleton] at hchange
  omega

end Counting

/-! ### What the operations emit -/

section Emission

variable {setup}

/-- What a pool of the run is like, whatever its events. -/
structure Sane (pool : BlockPool Bytes) : Prop where
  coherent : Coherent pool
  queued : Queued pool

/-- **Events tell of a change**: whatever a subscriber has counted, reading them adds what the
pool now holds of each key over what it held. -/
def Tells (setup : EventSetup ρ) (events : List KVCacheEvent) (pool pool' : BlockPool Bytes) :
    Prop :=
  ∀ counts k, readAll events counts k + held setup pool k = counts k + held setup pool' k

theorem Tells.nil {pool pool' : BlockPool Bytes} (h : held setup pool' = held setup pool) :
    Tells setup [] pool pool' := fun counts k => by rw [h]; rfl

theorem Tells.append {events events' : List KVCacheEvent} {pool pool' pool'' : BlockPool Bytes}
    (h : Tells setup events pool pool') (h' : Tells setup events' pool' pool'') :
    Tells setup (events ++ events') pool pool'' := by
  intro counts k
  have hfirst := h counts k
  have hsecond := h' (readAll events counts) k
  rw [readAll_append]
  omega

/-- Keys that are taken off. -/
theorem tells_removed {removed : List (BlockHashWithGroupId Bytes)} {pool pool' : BlockPool Bytes}
    (h : ∀ k, held setup pool' k = held setup pool k - tally (removed.map setup.external) k) :
    Tells setup (removed.map setup.removedEvent) pool pool' := by
  intro counts k
  rw [readAll_removed, h k]
  dsimp only
  omega

/-- Keys that are taken off, and then keys that are stored. -/
theorem tells_stored {removed : List (BlockHashWithGroupId Bytes)} {stored : BlockStored}
    {pool pool' : BlockPool Bytes}
    (h : ∀ k, held setup pool' k = held setup pool k - tally (removed.map setup.external) k +
      tally (stored.blockHashes.map fun hash => (hash, stored.groupIdx)) k) :
    Tells setup (removed.map setup.removedEvent ++ [.blockStored stored]) pool pool' := by
  intro counts k
  have hread : readAll [.blockStored stored]
      (readAll (removed.map setup.removedEvent) counts) k =
        readAll (removed.map setup.removedEvent) counts k +
          tally (stored.blockHashes.map fun hash => (hash, stored.groupIdx)) k := rfl
  rw [readAll_append, hread, readAll_removed, h k]
  dsimp only
  omega

/-- **An operation tells what it does.** -/
structure Emits (setup : EventSetup ρ) (s s' : EventPool) : Prop where
  sane : Sane s'.pool
  same : SameSetup s.pool s'.pool
  read : ∃ events, s'.kvEventQueue = s.kvEventQueue ++ events ∧ Tells setup events s.pool s'.pool

theorem Emits.trans {s s' s'' : EventPool} (h : Emits setup s s') (h' : Emits setup s' s'') :
    Emits setup s s'' := by
  obtain ⟨events, hqueue, hread⟩ := h.read
  obtain ⟨events', hqueue', hread'⟩ := h'.read
  refine ⟨h'.sane, h.same.trans h'.same, events ++ events', ?_, hread.append hread'⟩
  rw [hqueue', hqueue, List.append_assoc]

/-- Keys leave a block, and the events say so. -/
structure Drops (setup : EventSetup ρ) (b : Nat) (removed : List (BlockHashWithGroupId Bytes))
    (s s' : EventPool) : Prop where
  sane : Sane s'.pool
  same : SameSetup s.pool s'.pool
  queue : s'.kvEventQueue = s.kvEventQueue ++ removed.map setup.removedEvent
  held : ∀ k, held setup s'.pool k = held setup s.pool k - tally (removed.map setup.external) k
  others : ∀ x, x ≠ b → s'.pool.keys x = s.pool.keys x
  isNull : ∀ x, (s'.pool.blocks x).isNull = (s.pool.blocks x).isNull

theorem Drops.emits {b : Nat} {removed : List (BlockHashWithGroupId Bytes)} {s s' : EventPool}
    (h : Drops setup b removed s s') : Emits setup s s' :=
  ⟨h.sane, h.same, _, h.queue, tells_removed h.held⟩

theorem Unhashed.isNull_eq {pool pool' : BlockPool Bytes} {b : Nat} (h : Unhashed b pool pool')
    (x : Nat) : (pool'.blocks x).isNull = (pool.blocks x).isNull := by
  by_cases hx : x = b
  · rw [hx, h.isNull]
  · rw [(h.others x hx).1]

/-- **An eviction** takes all keys of the block off. -/
theorem evictCachedBlock_drops (henable : setup.enableKvCacheEvents = true) (b : Nat)
    {s : EventPool} (h : Sane s.pool) :
    Drops setup b (s.pool.keys b) s (evictCachedBlock setup b s) ∧
      (evictCachedBlock setup b s).pool = (removeCachedBlockHashes b s.pool).2 ∧
      (evictCachedBlock setup b s).pool.keys b = [] := by
  have hr := h.coherent.removeCachedBlockHashes b
  have hu := removeCachedBlockHashes_spec b s.pool
  have heq : evictCachedBlock setup b s =
      { pool := (removeCachedBlockHashes b s.pool).2
        kvEventQueue := s.kvEventQueue ++ (s.pool.keys b).map setup.removedEvent } := by
    rw [evictCachedBlock, emitBlockRemovedEvents, if_pos henable, hr.removed]
  rw [heq]
  refine ⟨⟨⟨hr.coherent h.coherent, h.queued.unhashed hu⟩, hu.setup, rfl, fun k => ?_,
    fun x hx => ?_, hu.isNull_eq⟩, rfl, ?_⟩
  · have hheld := hr.held setup h.coherent k
    rw [hr.removed] at hheld
    exact hheld
  · rw [hr.keys, if_neg hx]
  · rw [hr.keys, if_pos rfl]

/-- Room is made for a key that the block does not have. -/
theorem makeRoom_drops (henable : setup.enableKvCacheEvents = true) {s s' : EventPool}
    (h : Sane s.pool) {key : BlockHashWithGroupId Bytes} {numHashTokens b : Nat}
    (hnew : key ∉ s.pool.keys b) (hok : makeRoom setup key numHashTokens b s = .ok s') :
    ∃ removed, Drops setup b removed s s' ∧ key ∉ s'.pool.keys b := by
  have hstay : ∃ removed, Drops setup b removed s s ∧ key ∉ s.pool.keys b :=
    ⟨[], ⟨h, .refl _, (List.append_nil _).symm, fun k => (Int.sub_zero _).symm, fun _ _ => rfl,
      fun _ => rfl⟩, hnew⟩
  rw [makeRoom] at hok
  split at hok
  · obtain rfl := Except.ok.inj hok
    exact hstay
  · split at hok
    · cases hok
    · split at hok
      · obtain rfl := Except.ok.inj hok
        obtain ⟨hdrops, -, hempty⟩ := evictCachedBlock_drops henable b h
        refine ⟨_, hdrops, ?_⟩
        rw [hempty]
        exact List.not_mem_nil
      · split at hok
        · obtain rfl := Except.ok.inj hok
          exact hstay
        · cases hok

theorem liftPool_ok {α : Type} {result : Except PoolError α} {a : α} :
    liftPool result = .ok a ↔ result = .ok a := by
  cases result <;> simp [liftPool, Except.mapError]

/-- **What `cache_full_blocks` is called with**: blocks of the pool, each once, none of which has the
key that it gets. -/
structure FreshBlocks (hashes : BlockHashList) (numCachedBlocks groupId : Nat)
    (blockMask : Option (List Bool)) (blocks : List Nat) (i : Nat) (pool : BlockPool Bytes) :
    Prop where
  distinct : blocks.Pairwise fun b b' => b = b' → (pool.blocks b).isNull = true
  fresh : ∀ j b, blocks[j]? = some b → (pool.blocks b).isNull = false →
    masked blockMask (i + j) = false → b < pool.numGpuBlocks ∧
      ∀ hash ∈ hashes.getItem? (numCachedBlocks + (i + j)), (hash, groupId) ∉ pool.keys b

variable {hashes : BlockHashList} {numCachedBlocks blockSize groupId : Nat}
  {blockMask : Option (List Bool)}

/-- The blocks that come after one that has been dealt with. -/
theorem FreshBlocks.tail {b i : Nat} {rest : List Nat} {pool pool' : BlockPool Bytes}
    (h : FreshBlocks hashes numCachedBlocks groupId blockMask (b :: rest) i pool)
    (hnum : pool'.numGpuBlocks = pool.numGpuBlocks)
    (hnull : ∀ x, (pool'.blocks x).isNull = (pool.blocks x).isNull)
    (hkeys : ∀ x, x ≠ b → pool'.keys x = pool.keys x) :
    FreshBlocks hashes numCachedBlocks groupId blockMask rest (i + 1) pool' := by
  obtain ⟨hfirst, hrest⟩ := List.pairwise_cons.1 h.distinct
  refine ⟨hrest.imp fun {x y} hxy heq => (hnull x).trans (hxy heq), fun j x hx hn hm => ?_⟩
  rw [hnull] at hn
  rw [Nat.add_right_comm, Nat.add_assoc] at hm
  obtain ⟨hlt, hfresh⟩ := h.fresh (j + 1) x (by rw [List.getElem?_cons_succ]; exact hx) hn hm
  refine ⟨hnum ▸ hlt, fun hash hhash => ?_⟩
  have hne : x ≠ b := by
    rintro rfl
    rw [hfirst x (List.mem_of_getElem? hx) rfl] at hn
    cases hn
  rw [hkeys x hne]
  refine hfresh hash ?_
  rw [← Nat.add_assoc i j 1, Nat.add_right_comm i j 1]
  exact hhash

/-- What the loop of `cache_full_blocks` leaves, before its event: the keys that went are told, those
that came are listed. -/
structure LoopDone (setup : EventSetup ρ) (groupId : Nat) (new : List ExternalBlockHash)
    (s s' : EventPool) : Prop where
  sane : Sane s'.pool
  same : SameSetup s.pool s'.pool
  told : ∃ removed : List (BlockHashWithGroupId Bytes),
    s'.kvEventQueue = s.kvEventQueue ++ removed.map setup.removedEvent ∧ ∀ k,
      held setup s'.pool k = held setup s.pool k - tally (removed.map setup.external) k +
      tally (new.map fun hash => (hash, groupId)) k

/-- **The loop of `cache_full_blocks`.** -/
theorem cacheLoop_done (henable : setup.enableKvCacheEvents = true) (blocks : List Nat) (i : Nat)
    {s s' : EventPool} {new : List ExternalBlockHash} (h : Sane s.pool)
    (hfresh : FreshBlocks hashes numCachedBlocks groupId blockMask blocks i s.pool)
    (hok : cacheLoop setup hashes numCachedBlocks blockSize groupId blockMask blocks i s =
      .ok (new, s')) : LoopDone setup groupId new s s' := by
  induction blocks generalizing i s new with
  | nil =>
    obtain ⟨rfl, rfl⟩ := Prod.mk.inj (Except.ok.inj hok)
    refine ⟨h, .refl _, [], (List.append_nil _).symm, fun k => ?_⟩
    rw [List.map_nil, List.map_nil, tally_nil]
    omega
  | cons b rest ih =>
    rw [cacheLoop] at hok
    by_cases hskip : (s.pool.blocks b).isNull = true ∨ masked blockMask i = true
    · rw [if_pos hskip] at hok
      exact ih (i + 1) h (hfresh.tail rfl (fun _ => rfl) fun _ _ => rfl) hok
    · rw [if_neg hskip] at hok
      rw [not_or, Bool.not_eq_true, Bool.not_eq_true] at hskip
      obtain ⟨hlt, hkeys⟩ := hfresh.fresh 0 b rfl hskip.1 hskip.2
      cases hget : hashes.getItem? (numCachedBlocks + i) with
      | none =>
        rw [hget] at hok
        cases hok
      | some hash =>
        rw [hget] at hok
        dsimp only at hok
        -- a hash of fewer tokens goes first, and that is told
        have hnew : (hash, groupId) ∉ s.pool.keys b := hkeys hash hget
        cases hroom : makeRoom setup (hash, groupId)
            ((numCachedBlocks + i + 1) * blockSize) b s with
        | error e =>
          rw [hroom] at hok
          cases hok
        | ok s₁ =>
          rw [hroom] at hok
          obtain ⟨removed, hdrops, hnew₁⟩ := makeRoom_drops henable h hnew hroom
          have hlt₁ : b < s₁.pool.numGpuBlocks := hdrops.same.numGpuBlocks ▸ hlt
          cases hinsert : liftPool (insertBlockHash (hash, groupId) b
              (some ((numCachedBlocks + i + 1) * blockSize)) s₁.pool) with
          | error e =>
            simp only [bind, Except.bind, hinsert] at hok
            cases hok
          | ok pool₂ =>
            have hkeyed := hdrops.sane.coherent.keyed hlt₁ hnew₁ (liftPool_ok.1 hinsert)
            cases hloop : cacheLoop setup hashes numCachedBlocks blockSize groupId blockMask rest
                (i + 1) { s₁ with pool := pool₂ } with
            | error e =>
              simp only [bind, Except.bind, hinsert, hloop] at hok
              cases hok
            | ok done =>
              simp only [bind, Except.bind, hinsert, hloop] at hok
              obtain ⟨rfl, rfl⟩ := Prod.mk.inj (Except.ok.inj hok)
              have hnull₂ : ∀ x, (pool₂.blocks x).isNull = (s.pool.blocks x).isNull := by
                intro x
                rw [← hdrops.isNull]
                by_cases hx : x = b
                · rw [hx, hkeyed.hashed.isNull]
                · rw [hkeyed.hashed.others x hx]
              -- no key of the blocks behind this one has changed, so they are as fresh as before
              have htail : FreshBlocks hashes numCachedBlocks groupId blockMask rest (i + 1)
                  pool₂ := by
                refine hfresh.tail ?_ hnull₂ fun x hx => ?_
                · rw [hkeyed.hashed.setup.numGpuBlocks, hdrops.same.numGpuBlocks]
                · rw [hkeyed.others x hx, hdrops.others x hx]
              have hdone := ih (i + 1) ⟨hkeyed.coherent, hdrops.sane.queued.hashed hkeyed.hashed⟩
                htail hloop
              obtain ⟨removed', hqueue', hheld'⟩ := hdone.told
              refine ⟨hdone.sane, (hdrops.same.trans hkeyed.hashed.setup).trans hdone.same,
                removed ++ removed', ?_, fun k => ?_⟩
              · rw [hqueue', hdrops.queue, List.map_append, List.append_assoc]
              -- dropped, then keyed, then the rest: the three counts add up
              · have h1 := hdrops.held k
                have h2 := hkeyed.held setup hlt₁ k
                have h3 := hheld' k
                rw [List.map_append, tally_append, List.map_cons, tally_cons]
                dsimp only at h3
                show _ = _ + (tally [setup.external (hash, groupId)] k + _)
                omega

/-- Reading what the loop has told, and then of the blocks that it lists. -/
theorem LoopDone.read {new : List ExternalBlockHash} {s s' : EventPool}
    (h : LoopDone setup groupId new s s') (stored : BlockStored)
    (hstored : stored.blockHashes = new) (hgroup : stored.groupIdx = groupId) :
    ∃ events, s'.kvEventQueue ++ [.blockStored stored] = s.kvEventQueue ++ events ∧
      Tells setup events s.pool s'.pool := by
  obtain ⟨removed, hqueue, hheld⟩ := h.told
  refine ⟨removed.map setup.removedEvent ++ [.blockStored stored], ?_, tells_stored fun k => ?_⟩
  · rw [hqueue, List.append_assoc]
  · rw [hheld k, hstored, hgroup]

/-- What `cache_full_blocks` is called with, by the hashes of its request. -/
def FullBlocks.Proper (setup : EventSetup ρ) (full : FullBlocks ρ) (pool : BlockPool Bytes) :
    Prop :=
  ∀ hashes, resolveBlockHashes (.hashes full.request.blockHashes) setup.hashing.hashBlockSize
      full.blockSize false none = .ok hashes →
    FreshBlocks hashes full.numCachedBlocks full.groupId full.blockMask full.newBlocks 0 pool

theorem mapError_ok {ε δ α : Type} {f : ε → δ} {result : Except ε α} {a : α}
    (h : result.mapError f = .ok a) : result = .ok a := by
  cases result with
  | error e => cases h
  | ok x =>
    obtain rfl := Except.ok.inj h
    rfl

/-- **`cache_full_blocks`** tells what it does. -/
theorem cacheFullBlocks_emits (henable : setup.enableKvCacheEvents = true) {full : FullBlocks ρ}
    {s s' : EventPool} {request : Request ρ} (h : Sane s.pool) (hproper : full.Proper setup s.pool)
    (hok : cacheFullBlocks setup full s = .ok (s', request)) : Emits setup s s' := by
  rw [cacheFullBlocks] at hok
  split at hok
  · obtain ⟨rfl, -⟩ := Prod.mk.inj (Except.ok.inj hok)
    exact ⟨h, .refl _, [], (List.append_nil _).symm, .nil rfl⟩
  split at hok
  · cases hok
  obtain ⟨hashes, hhashes, hok⟩ := except_bind_eq_ok.1 hok
  obtain ⟨⟨new, s₁⟩, hloop, hok⟩ := except_bind_eq_ok.1 hok
  have hdone := cacheLoop_done henable full.newBlocks 0 h (hproper hashes (mapError_ok hhashes))
    hloop
  dsimp only at hok
  rw [if_neg (by rw [henable]; exact Bool.noConfusion)] at hok
  obtain ⟨parent, -, hok⟩ := except_bind_eq_ok.1 hok
  obtain ⟨⟨keys, request'⟩, -, hok⟩ := except_bind_eq_ok.1 hok
  obtain ⟨rfl, -⟩ := Prod.mk.inj (Except.ok.inj hok)
  exact ⟨hdone.sane, hdone.same, hdone.read _ rfl rfl⟩

/-- In a coherent pool a block has a key if the map says so. -/
theorem alreadyCached_iff {pool : BlockPool Bytes} (h : Coherent pool)
    {key : BlockHashWithGroupId Bytes} {b : Nat} :
    alreadyCached key b pool = true ↔ key ∈ pool.keys b := by
  rw [alreadyCached, decide_eq_true_eq, mem_keys, h.mem_iff]
  constructor
  · rintro (hprimary | hmem)
    · exact Or.inl hprimary
    · exact hmem
  · exact Or.inr

/-- **`cache_partial_block`** tells what it does: an event for a key that is new to its block, and
none for one that is not. -/
theorem cachePartialBlock_emits (henable : setup.enableKvCacheEvents = true)
    {part : PartialBlock ρ} {s s' : EventPool} {request : Request ρ}
    {key? : Option (BlockHashWithGroupId Bytes)} (h : Sane s.pool)
    (hlt : part.block < s.pool.numGpuBlocks)
    (hok : cachePartialBlock setup part s = .ok (key?, s', request)) : Emits setup s s' := by
  have hnothing : Emits setup s s := ⟨h, .refl _, [], (List.append_nil _).symm, .nil rfl⟩
  rw [cachePartialBlock] at hok
  split at hok
  · obtain ⟨-, hok⟩ := Prod.mk.inj (Except.ok.inj hok)
    obtain ⟨rfl, -⟩ := Prod.mk.inj hok
    exact hnothing
  split at hok
  · cases hok
  obtain ⟨hash, -, hok⟩ := except_bind_eq_ok.1 hok
  obtain ⟨pool, hinsert, hok⟩ := except_bind_eq_ok.1 hok
  have hinsert := liftPool_ok.1 hinsert
  cases halready : alreadyCached (hash, part.groupId) part.block s.pool with
  | true =>
    -- nothing is inserted, and nothing told
    rw [halready, if_neg (by simp)] at hok
    obtain ⟨-, hok⟩ := Prod.mk.inj (Except.ok.inj hok)
    obtain ⟨rfl, -⟩ := Prod.mk.inj hok
    have hsame : promote setup (hash, part.groupId)
        (part.numTokens / setup.hashing.hashBlockSize * setup.hashing.hashBlockSize)
        part.block s = s := by
      rw [promote, if_neg (by simp [halready])]
    have hpool : pool = s.pool := by
      rw [hsame, insertBlockHash] at hinsert
      rw [alreadyCached, decide_eq_true_eq] at halready
      split at hinsert
      · exact (Except.ok.inj hinsert).symm
      · rename_i hprimary
        rw [if_pos (halready.resolve_left hprimary)] at hinsert
        exact (Except.ok.inj hinsert).symm
    rw [hsame, hpool]
    exact hnothing
  | false =>
    have hnew : (hash, part.groupId) ∉ s.pool.keys part.block := fun hmem => by
      rw [(alreadyCached_iff h.coherent).2 hmem] at halready
      cases halready
    obtain ⟨removed, hdrops, hnew'⟩ : ∃ removed, Drops setup part.block removed s
        (promote setup (hash, part.groupId)
          (part.numTokens / setup.hashing.hashBlockSize * setup.hashing.hashBlockSize)
          part.block s) ∧
        (hash, part.groupId) ∉ (promote setup (hash, part.groupId)
          (part.numTokens / setup.hashing.hashBlockSize * setup.hashing.hashBlockSize)
          part.block s).pool.keys part.block := by
      rw [promote]
      split
      · obtain ⟨hdrops, -, hempty⟩ := evictCachedBlock_drops henable part.block h
        refine ⟨_, hdrops, ?_⟩
        rw [hempty]
        exact List.not_mem_nil
      · exact ⟨[], ⟨h, .refl _, (List.append_nil _).symm, fun k => (Int.sub_zero _).symm,
          fun _ _ => rfl, fun _ => rfl⟩, hnew⟩
    have hlt' := hdrops.same.numGpuBlocks ▸ hlt
    have hkeyed := hdrops.sane.coherent.keyed hlt' hnew' hinsert
    rw [halready, if_pos ⟨henable, rfl⟩] at hok
    obtain ⟨⟨event, request'⟩, hevent, hok⟩ := except_bind_eq_ok.1 hok
    obtain ⟨-, hok⟩ := Prod.mk.inj (Except.ok.inj hok)
    obtain ⟨rfl, -⟩ := Prod.mk.inj hok
    have hfields : event.blockHashes = [maybeConvertBlockHash setup.useIntBlockHashes hash] ∧
        event.groupIdx = part.groupId := by
      rw [partialStored] at hevent
      obtain ⟨generated, -, hstored⟩ := except_bind_eq_ok.1 hevent
      obtain ⟨rfl, -⟩ := Prod.mk.inj (Except.ok.inj hstored)
      exact ⟨rfl, rfl⟩
    refine ⟨⟨hkeyed.coherent, hdrops.sane.queued.hashed hkeyed.hashed⟩,
      hdrops.same.trans hkeyed.hashed.setup, removed.map setup.removedEvent ++
        [.blockStored event], ?_, tells_stored fun k => ?_⟩
    · rw [hdrops.queue, List.append_assoc]
    · have h1 := hdrops.held k
      have h2 := hkeyed.held setup hlt' k
      rw [hfields.1, hfields.2]
      show held setup pool k = _ - _ + tally [setup.external (hash, part.groupId)] k
      omega

variable (setup) in
/-- **Moved keys** need no event: as many blocks have them as before. -/
theorem moveBlockHashes_held {pool pool' : BlockPool Bytes} (h : Sane pool) {src dst : Nat}
    (hdst : dst < pool.numGpuBlocks) (hok : moveBlockHashes src dst pool = .ok pool') :
    SameSetup pool pool' ∧ held setup pool' = held setup pool := by
  -- each key goes to `dst` once: none of them is there, and the keys of a block differ
  have hloop : ∀ (keys : List (BlockHashWithGroupId Bytes)) (p : BlockPool Bytes) (n : Option Nat),
      Coherent p → dst < p.numGpuBlocks → keys.Nodup → (∀ key ∈ keys, key ∉ p.keys dst) →
      insertBlockHashes dst n keys p = .ok pool' →
      SameSetup p pool' ∧ ∀ k, held setup pool' k =
        held setup p k + tally (keys.map setup.external) k := by
    intro keys
    induction keys with
    | nil =>
      intro p n _ _ _ _ hok
      obtain rfl := Except.ok.inj hok
      exact ⟨.refl _, fun k => (Int.add_zero _).symm⟩
    | cons key keys ih =>
      intro p n hp hlt hnodup hnew hok
      obtain ⟨q, hinsert, hok⟩ := except_bind_eq_ok.1 hok
      obtain ⟨hkey, hkeys⟩ := List.nodup_cons.1 hnodup
      have hkeyed := hp.keyed hlt (hnew key List.mem_cons_self) hinsert
      have hnum := hkeyed.hashed.setup.numGpuBlocks
      obtain ⟨hsetup, hheld⟩ := ih q n hkeyed.coherent (hnum ▸ hlt) hkeys (fun other hmem => by
        rw [hkeyed.keys, List.mem_append, List.mem_singleton, not_or]
        exact ⟨hnew other (List.mem_cons_of_mem _ hmem), fun heq => hkey (heq ▸ hmem)⟩) hok
      refine ⟨hkeyed.hashed.setup.trans hsetup, fun k => ?_⟩
      have h1 := hkeyed.held setup hlt k
      rw [hheld, h1, List.map_cons, tally_cons _ (keys.map setup.external)]
      omega
  rw [Kv.moveBlockHashes] at hok
  split at hok
  · cases hok
  rename_i hprimary
  split at hok
  · cases hok
  rename_i hmore
  have hr := h.coherent.removeCachedBlockHashes src
  have hsetup := (removeCachedBlockHashes_spec src pool).setup
  have hempty : pool.keys dst = [] := by
    rw [BlockPool.keys, not_not.1 hprimary, not_not.1 hmore]
    rfl
  -- what `src` has lost is what `dst` gets, so the two tallies cancel
  obtain ⟨hsame, hheld⟩ := hloop _ _ _ (hr.coherent h.coherent) (hr.numGpuBlocks ▸ hdst)
    (hr.removed ▸ h.coherent.distinct src) (fun key _ => by
      rw [hr.keys]
      split
      · exact List.not_mem_nil
      · rw [hempty]
        exact List.not_mem_nil) hok
  refine ⟨hsetup.trans hsame, ?_⟩
  funext k
  have h1 := hr.held setup h.coherent k
  rw [hheld, h1]
  omega

/-- Operations that change no key. -/
theorem emits_of_same {s s' : EventPool} (hsane : Sane s'.pool)
    (hsetup : SameSetup s.pool s'.pool) (hqueue : s'.kvEventQueue = s.kvEventQueue)
    (hkeys : ∀ x, s'.pool.keys x = s.pool.keys x) : Emits setup s s' := by
  refine ⟨hsane, hsetup, [], ?_, .nil (held_same hsetup.numGpuBlocks hkeys)⟩
  rw [hqueue, List.append_nil]

/-- **The loop of `get_new_blocks`** tells of its evictions. -/
theorem takeBlocksEvents_emits (henable : setup.enableKvCacheEvents = true) (ret : List Nat)
    {s s' : EventPool} (h : Coherent s.pool)
    (hok : takeBlocksEvents setup ret s = .ok s') :
    takeBlocks ret s.pool = .ok s'.pool ∧ Coherent s'.pool ∧
      ∃ events, s'.kvEventQueue = s.kvEventQueue ++ events ∧
        Tells setup events s.pool s'.pool := by
  induction ret generalizing s with
  | nil =>
    obtain rfl := Except.ok.inj hok
    exact ⟨rfl, h, [], (List.append_nil _).symm, .nil rfl⟩
  | cons b ret ih =>
    -- the block is evicted, if there is a cache
    obtain ⟨s₁, hs₁, hpool₁, hcoherent₁, events, hqueue, hread⟩ : ∃ s₁,
        (if s.pool.enableCaching then evictCachedBlock setup b s else s) = s₁ ∧
        s₁.pool = (if s.pool.enableCaching then maybeEvictCachedBlock b s.pool else s.pool) ∧
        Coherent s₁.pool ∧ ∃ events, s₁.kvEventQueue = s.kvEventQueue ++ events ∧
          Tells setup events s.pool s₁.pool := by
      refine ⟨_, rfl, ?_⟩
      split
      · have hr := h.removeCachedBlockHashes b
        rw [evictCachedBlock, emitBlockRemovedEvents, if_pos henable]
        exact ⟨rfl, hr.coherent h, _, rfl, tells_removed (hr.held setup h)⟩
      · exact ⟨rfl, h, [], (List.append_nil _).symm, .nil rfl⟩
    rw [takeBlocksEvents, hs₁] at hok
    rw [takeBlocks, ← hpool₁]
    obtain ⟨block, hblock, hhash⟩ : ∃ block : KVCacheBlock Bytes,
        { s₁.pool.blocks b with refCnt := (s₁.pool.blocks b).refCnt + 1 } = block ∧
          block.blockHash = (s₁.pool.blocks b).blockHash := ⟨_, rfl, rfl⟩
    dsimp only at hok ⊢
    rw [hblock] at hok ⊢
    split at hok
    · rename_i hfree
      rw [if_pos hfree]
      have hheld₁ : Coherent (s₁.pool.setBlock b block) := hcoherent₁.setBlock hhash
      obtain ⟨htake, hcoherent, events', hqueue', hread'⟩ := ih hheld₁ hok
      refine ⟨htake, hcoherent, events ++ events', ?_, ?_⟩
      · rw [hqueue', hqueue, List.append_assoc]
      · exact hread.append ((Tells.nil (held_setBlock hhash)).append hread')
    · cases hok

/-- **`get_new_blocks`** is that of the pool, and tells what it does. -/
theorem getNewBlocksEvents_emits (henable : setup.enableKvCacheEvents = true)
    {nowNs numBlocks : Nat} {s s' : EventPool} {ret : List Nat} (h : Sane s.pool)
    (hok : getNewBlocksEvents setup nowNs numBlocks s = .ok (ret, s')) :
    getNewBlocks nowNs numBlocks s.pool = .ok (ret, s'.pool) ∧ Emits setup s s' := by
  rw [getNewBlocksEvents] at hok
  split at hok
  · cases hok
  · rename_i henough
    obtain ⟨s₁, htake, hok⟩ := except_bind_eq_ok.1 hok
    obtain ⟨rfl, rfl⟩ := Prod.mk.inj (Except.ok.inj hok)
    have hkeys : ∀ x, (unprotectBlocks (popTwice (unprotected nowNs s.pool) numBlocks
        s.pool.freeBlockQueue).1 { s.pool with freeBlockQueue :=
          (popTwice (unprotected nowNs s.pool) numBlocks s.pool.freeBlockQueue).2 }).keys x =
        s.pool.keys x := by
      intro x
      rw [unprotectBlocks_eq, BlockPool.keys, BlockPool.keys]
      dsimp only
      split
      · rfl
      · rfl
    have hcoherent : Coherent (unprotectBlocks (popTwice (unprotected nowNs s.pool) numBlocks
        s.pool.freeBlockQueue).1 { s.pool with freeBlockQueue :=
          (popTwice (unprotected nowNs s.pool) numBlocks s.pool.freeBlockQueue).2 }) := by
      rw [unprotectBlocks_eq]
      refine h.coherent.of_same rfl (fun x => ?_) rfl rfl
      dsimp only
      split
      · rfl
      · rfl
    obtain ⟨hpool, hcoherent', events, hqueue, hread⟩ :=
      takeBlocksEvents_emits henable _ hcoherent htake
    have hget : getNewBlocks nowNs numBlocks s.pool = .ok
        ((popTwice (unprotected nowNs s.pool) numBlocks s.pool.freeBlockQueue).1, s₁.pool) := by
      rw [getNewBlocks, if_neg henough]
      dsimp only
      rw [hpool]
      rfl
    -- the queue is not touched by the events, so what is known of the pool without them holds
    have hallocated := (getNewBlocks_spec h.queued.nodup hget).2
    refine ⟨hget, ⟨hcoherent', h.queued.allocated hallocated⟩, hallocated.setup, events, hqueue,
      (Tells.nil (held_same ?_ hkeys)).append hread⟩
    rw [unprotectBlocks_eq]

/-- **`evict_blocks`** tells what it does. -/
theorem evictBlocksEvents_emits (henable : setup.enableKvCacheEvents = true) (blockIds : List Nat)
    {s s' : EventPool} (h : Sane s.pool) (hok : evictBlocksEvents setup blockIds s = .ok s') :
    Emits setup s s' := by
  induction blockIds generalizing s with
  | nil =>
    obtain rfl := Except.ok.inj hok
    exact emits_of_same h (.refl _) rfl fun _ => rfl
  | cons b rest ih =>
    rw [evictBlocksEvents] at hok
    split at hok
    · obtain ⟨hdrops, -, -⟩ := evictCachedBlock_drops henable b h
      exact hdrops.emits.trans (ih hdrops.sane hok)
    · cases hok

variable (setup) in
/-- The keys that an expiry collects are those that its blocks lose. -/
theorem dropExpiredHashes_held {expired : List Nat} {pool pool' : BlockPool Bytes}
    {hashes : List (BlockHashWithGroupId Bytes)} (h : Coherent pool)
    (hok : dropExpiredHashes expired pool = .ok (hashes, pool')) (k : EventKey) :
    held setup pool' k = held setup pool k - tally (hashes.map setup.external) k ∧
      SameSetup pool pool' := by
  induction expired generalizing pool hashes with
  | nil =>
    obtain ⟨rfl, rfl⟩ := Prod.mk.inj (Except.ok.inj hok)
    exact ⟨(Int.sub_zero _).symm, .refl _⟩
  | cons b rest ih =>
    rw [dropExpiredHashes] at hok
    obtain ⟨queue, -, hok⟩ := except_bind_eq_ok.1 hok
    obtain ⟨⟨more, q⟩, hrest, hok⟩ := except_bind_eq_ok.1 hok
    obtain ⟨rfl, rfl⟩ := Prod.mk.inj (Except.ok.inj hok)
    -- the block leaves the queue, which changes no key, before it loses its own
    have hqueue : Coherent { pool with freeBlockQueue := queue } :=
      h.of_same rfl (fun _ => rfl) rfl rfl
    have hr := hqueue.removeCachedBlockHashes b
    obtain ⟨hheld, hsetup⟩ := ih (hr.coherent hqueue) hrest
    have hfirst := hr.held setup hqueue k
    have hsame : held setup { pool with freeBlockQueue := queue } = held setup pool :=
      held_same rfl fun _ => rfl
    have hstep := (removeCachedBlockHashes_spec b { pool with freeBlockQueue := queue }).setup
    have hfront : SameSetup pool (removeCachedBlockHashes b { pool with freeBlockQueue := queue }).2 :=
      ⟨hstep.numGpuBlocks, hstep.enableCaching, hstep.timeout⟩
    refine ⟨?_, hfront.trans hsetup⟩
    rw [hheld, hfirst, hsame, List.map_append, tally_append]
    omega

variable (setup) in
/-- **An expiry** tells what it does. -/
theorem expireCachedBlocksEvents_held {nowNs n : Nat} {pool pool' : BlockPool Bytes}
    {emitted : List (BlockHashWithGroupId Bytes)} (h : Coherent pool)
    (hok : expireCachedBlocksEvents true nowNs pool = .ok (n, emitted, pool')) (k : EventKey) :
    held setup pool' k = held setup pool k - tally (emitted.map setup.external) k ∧
      SameSetup pool pool' := by
  have hnothing : (.ok (0, [], pool) : Except PoolError
      (Nat × List (BlockHashWithGroupId Bytes) × BlockPool Bytes)) = .ok (n, emitted, pool') →
      held setup pool' k = held setup pool k - tally (emitted.map setup.external) k ∧
        SameSetup pool pool' := by
    intro hsame
    obtain ⟨-, hrest⟩ := Prod.mk.inj (Except.ok.inj hsame)
    obtain ⟨rfl, rfl⟩ := Prod.mk.inj hrest
    exact ⟨(Int.sub_zero _).symm, .refl _⟩
  rw [expireCachedBlocksEvents] at hok
  split at hok
  · split at hok
    · exact hnothing hok
    · obtain ⟨scanned, -, hok⟩ := except_bind_eq_ok.1 hok
      obtain ⟨⟨hashes, q⟩, hdrop, hok⟩ := except_bind_eq_ok.1 hok
      obtain ⟨-, hrest⟩ := Prod.mk.inj (Except.ok.inj hok)
      obtain ⟨rfl, rfl⟩ := Prod.mk.inj hrest
      obtain ⟨hheld, hsetup⟩ := dropExpiredHashes_held setup h hdrop k
      refine ⟨?_, hsetup.numGpuBlocks, hsetup.enableCaching, hsetup.timeout⟩
      rw [if_pos rfl, ← hheld]
      exact congrFun (held_same rfl fun _ => rfl) k
  · exact hnothing hok

/-- **A reset** is told as one event, if it is one, and then nothing is cached. -/
theorem resetPrefixCacheEvents_tells (henable : setup.enableKvCacheEvents = true) {s : EventPool}
    (h : Sane s.pool) : Sane (resetPrefixCacheEvents setup s).2.pool ∧
      SameSetup s.pool (resetPrefixCacheEvents setup s).2.pool ∧
      if (resetPrefixCacheEvents setup s).1 = true then
        (resetPrefixCacheEvents setup s).2.kvEventQueue = s.kvEventQueue ++ [.allBlocksCleared] ∧
          held setup (resetPrefixCacheEvents setup s).2.pool = fun _ => 0
      else (resetPrefixCacheEvents setup s).2 = s := by
  have hsane : Sane (resetPrefixCacheEvents setup s).2.pool := by
    have hstep : cacheStep 0 (.pool .resetPrefixCache) s.pool =
        .ok (resetPrefixCacheEvents setup s).2.pool := rfl
    have hproper : (CacheOp.pool .resetPrefixCache : CacheOp Bytes).Proper s.pool := trivial
    obtain ⟨hcoherent, hqueued⟩ := cacheStep_coherent hproper hstep h.coherent h.queued
    exact ⟨hcoherent, hqueued⟩
  refine ⟨hsane, ?_⟩
  rw [resetPrefixCacheEvents]
  dsimp only
  simp only [resetPrefixCache]
  split
  · exact ⟨.refl _, by simp⟩
  · refine ⟨⟨rfl, rfl, rfl⟩, ?_⟩
    rw [if_pos rfl, if_pos ⟨rfl, henable⟩]
    refine ⟨rfl, ?_⟩
    funext k
    have hkeys : ∀ x, (if x < s.pool.numGpuBlocks then (s.pool.blocks x).resetHash
        else s.pool.blocks x).blockHash = none := by
      intro x
      split
      · rfl
      · rename_i hx
        exact h.coherent.outside x (not_lt.1 hx)
    have hempty : ((List.range s.pool.numGpuBlocks).flatMap fun b => List.map setup.external
        ((if b < s.pool.numGpuBlocks then (s.pool.blocks b).resetHash
          else s.pool.blocks b).blockHash.toList ++ [])) = [] := by
      refine List.flatMap_eq_nil_iff.2 fun x _ => ?_
      rw [hkeys]
      rfl
    -- no block has a key left
    exact congrArg (fun keys => tally keys k) hempty

/-- Touching changes no key. -/
theorem touch_keys {blocks : List Nat} {pool pool' : BlockPool Bytes}
    (hok : touch blocks pool = .ok pool') :
    SameSetup pool pool' ∧ ∀ x, pool'.keys x = pool.keys x := by
  induction blocks generalizing pool with
  | nil =>
    obtain rfl := Except.ok.inj hok
    exact ⟨.refl _, fun _ => rfl⟩
  | cons b rest ih =>
    simp only [touch] at hok
    split at hok
    · obtain ⟨queue, -, hok⟩ := except_bind_eq_ok.1 hok
      obtain ⟨hsetup, hkeys⟩ := ih hok
      refine ⟨⟨hsetup.numGpuBlocks, hsetup.enableCaching, hsetup.timeout⟩, fun x => ?_⟩
      refine (hkeys x).trans ?_
      by_cases hx : x = b
      · subst hx
        simp [BlockPool.keys, BlockPool.setBlock]
      · simp [BlockPool.keys, BlockPool.setBlock, hx]
    · obtain ⟨hsetup, hkeys⟩ := ih hok
      refine ⟨⟨hsetup.numGpuBlocks, hsetup.enableCaching, hsetup.timeout⟩, fun x => ?_⟩
      refine (hkeys x).trans ?_
      by_cases hx : x = b
      · subst hx
        simp [BlockPool.keys, BlockPool.setBlock]
      · simp [BlockPool.keys, BlockPool.setBlock, hx]

end Emission

/-! ### Runs -/

/-- What is done with a pool. -/
inductive EventOp (ρ : Type) where
  | getNewBlocks (numBlocks : Nat)
  | cacheFullBlocks (full : FullBlocks ρ)
  | emitCachedBlockEvents (reused : ReusedBlocks ρ)
  | cachePartialBlock (part : PartialBlock ρ)
  | moveBlockHashes (src dst : Nat)
  | touch (blocks : List Nat)
  | freeBlocks (orderedBlocks : List Nat)
  | evictBlocks (blockIds : List Nat)
  | expireCachedBlocks
  | resetPrefixCache
  | stampSessionBlockProtection (sessionId : Option String) (protectNs : Option Nat)
      (groups : List (List Nat))

/-- One operation, at a time. -/
def eventStep (nowNs : Nat) : EventOp ρ → EventPool → Except EventError EventPool
  | .getNewBlocks numBlocks, s =>
    liftPool ((getNewBlocksEvents setup nowNs numBlocks s).map (·.2))
  | .cacheFullBlocks full, s => (cacheFullBlocks setup full s).map (·.1)
  | .emitCachedBlockEvents reused, s => (emitCachedBlockEvents setup reused s).map (·.1)
  | .cachePartialBlock part, s => (cachePartialBlock setup part s).map (·.2.1)
  | .moveBlockHashes src dst, s =>
    liftPool ((moveBlockHashes src dst s.pool).map fun pool => { s with pool := pool })
  | .touch blocks, s =>
    liftPool ((touch blocks s.pool).map fun pool => { s with pool := pool })
  | .freeBlocks orderedBlocks, s =>
    .ok { s with pool := freeBlocks nowNs orderedBlocks s.pool }
  | .evictBlocks blockIds, s => liftPool (evictBlocksEvents setup blockIds s)
  | .expireCachedBlocks, s =>
    liftPool ((expireCachedBlocksEvents setup.enableKvCacheEvents nowNs s.pool).map fun expired =>
      { pool := expired.2.2
        kvEventQueue := s.kvEventQueue ++ expired.2.1.map setup.removedEvent })
  | .resetPrefixCache, s => .ok (resetPrefixCacheEvents setup s).2
  | .stampSessionBlockProtection sessionId protectNs groups, s =>
    .ok { s with
      pool := stampSessionBlockProtection nowNs sessionId protectNs groups s.pool }

/-- What the callers see to: keys go to blocks of the pool, and `cache_full_blocks` is called for
blocks that do not have the key that they get. -/
def EventOp.Proper (op : EventOp ρ) (s : EventPool) : Prop :=
  match op with
  | .cacheFullBlocks full => full.Proper setup s.pool
  | .cachePartialBlock part => part.block < s.pool.numGpuBlocks
  | .moveBlockHashes _ dst => dst < s.pool.numGpuBlocks
  | _ => True

/-- The keys that `emit_cached_block_events` tells again. -/
def ReusedBlocks.keys (reused : ReusedBlocks ρ) : List EventKey :=
  match resolveBlockHashes (.hashes reused.request.blockHashes) setup.hashing.hashBlockSize
      reused.blockSize false none with
  | .ok hashes => ((List.range reused.numCachedBlocks).filterMap hashes.getItem?).map
      fun hash => setup.external (hash, reused.groupId)
  | .error _ => []

/-- How often each key has been told again since the last reset, after an operation. -/
def EventOp.again (op : EventOp ρ) (s : EventPool) (again : EventKey → Nat) : EventKey → Nat :=
  match op with
  | .emitCachedBlockEvents reused => fun k => again k + (reused.keys setup).count k
  | .resetPrefixCache => if (resetPrefixCacheEvents setup s).1 = true then fun _ => 0 else again
  | _ => again

/-- A pool, a subscriber, and how often each key has been told again. Batches are delivered at any
time. -/
inductive SubscribedRun : EventPool → (EventKey → Int) → (EventKey → Nat) → Prop
  | new {roundNs : ℚ → Int} {numGpuBlocks : Nat} {enableCaching : Bool} {seconds : Option ℚ}
      {pool : BlockPool Bytes} :
      BlockPool.new roundNs numGpuBlocks enableCaching seconds = .ok pool →
      SubscribedRun ⟨pool, []⟩ (fun _ => 0) fun _ => 0
  | step {s s' : EventPool} {counts : EventKey → Int} {again : EventKey → Nat} (nowNs : Nat)
      (op : EventOp ρ) : SubscribedRun s counts again → op.Proper setup s →
      eventStep setup nowNs op s = .ok s' → SubscribedRun s' counts (op.again setup s again)
  | deliver {s : EventPool} {counts : EventKey → Int} {again : EventKey → Nat} :
      SubscribedRun s counts again →
      SubscribedRun (takeEvents setup s).2 (readAll (takeEvents setup s).1 counts) again

variable {setup}

variable (setup) in
/-- **A subscriber follows a pool**: with what is waiting, it has counted the blocks of each key,
and how often the key was told again. -/
structure Follows (s : EventPool) (counts : EventKey → Int) (again : EventKey → Nat) : Prop where
  sane : Sane s.pool
  counted : ∀ k, readAll s.kvEventQueue counts k = held setup s.pool k + again k

theorem Emits.follows {s s' : EventPool} (hemits : Emits setup s s') {counts : EventKey → Int}
    {again : EventKey → Nat} (h : Follows setup s counts again) :
    Follows setup s' counts again := by
  obtain ⟨events, hqueue, htells⟩ := hemits.read
  refine ⟨hemits.sane, fun k => ?_⟩
  have hbefore := h.counted k
  have hread := htells (readAll s.kvEventQueue counts) k
  rw [hqueue, readAll_append]
  omega

theorem reusedLoop_hashes {hashes : BlockHashList} {blockSize n i : Nat} {idx : Int}
    {request request' : Request ρ} {new : List ExternalBlockHash}
    {keys : List (Option (List ExtraKey))}
    (hok : reusedLoop setup hashes blockSize n i idx request = .ok (new, keys, request')) :
    new = ((List.range' i n).filterMap hashes.getItem?).map
      (maybeConvertBlockHash setup.useIntBlockHashes) := by
  induction n generalizing i idx request request' new keys with
  | zero =>
    obtain ⟨rfl, -⟩ := Prod.mk.inj (Except.ok.inj hok)
    rfl
  | succ n ih =>
    rw [reusedLoop] at hok
    cases hget : hashes.getItem? i with
    | none =>
      rw [hget] at hok
      cases hok
    | some hash =>
      rw [hget] at hok
      obtain ⟨⟨_, idx', request₁⟩, -, hok⟩ := except_bind_eq_ok.1 hok
      obtain ⟨⟨more, moreKeys, request₂⟩, hmore, hok⟩ := except_bind_eq_ok.1 hok
      obtain ⟨rfl, -⟩ := Prod.mk.inj (Except.ok.inj hok)
      rw [List.range'_succ, List.filterMap_cons_some hget, List.map_cons, ih hmore]

/-- **Blocks that are told again** are counted again. -/
theorem emitCachedBlockEvents_follows (henable : setup.enableKvCacheEvents = true)
    {reused : ReusedBlocks ρ} {s s' : EventPool} {request : Request ρ} {counts : EventKey → Int}
    {again : EventKey → Nat} (h : Follows setup s counts again)
    (hok : emitCachedBlockEvents setup reused s = .ok (s', request)) :
    Follows setup s' counts fun k => again k + (reused.keys setup).count k := by
  rw [emitCachedBlockEvents] at hok
  split at hok
  · rename_i hnone
    obtain ⟨rfl, -⟩ := Prod.mk.inj (Except.ok.inj hok)
    have hzero := hnone.resolve_left (by rw [henable]; exact Bool.noConfusion)
    have hkeys : reused.keys setup = [] := by
      rw [ReusedBlocks.keys, hzero]
      split <;> rfl
    rw [hkeys]
    exact h
  · obtain ⟨hashes, hresolve, hok⟩ := except_bind_eq_ok.1 hok
    obtain ⟨⟨new, keys, request'⟩, hloop, hok⟩ := except_bind_eq_ok.1 hok
    obtain ⟨rfl, -⟩ := Prod.mk.inj (Except.ok.inj hok)
    refine ⟨h.sane, fun k => ?_⟩
    have hkeys : reused.keys setup = new.map fun hash => (hash, reused.groupId) := by
      rw [ReusedBlocks.keys, mapError_ok hresolve, reusedLoop_hashes hloop, List.map_map,
        ← List.range_eq_range']
      rfl
    rw [readAll_append]
    show readAll s.kvEventQueue counts k +
      tally (new.map fun hash => (hash, reused.groupId)) k = _
    rw [h.counted k, hkeys, Int.natCast_add, Int.add_assoc]
    rfl

/-- **Each operation** lets a subscriber follow. -/
theorem eventStep_follows (henable : setup.enableKvCacheEvents = true) {nowNs : Nat}
    {op : EventOp ρ} {s s' : EventPool} {counts : EventKey → Int} {again : EventKey → Nat}
    (hfollows : Follows setup s counts again) (hop : op.Proper setup s)
    (hok : eventStep setup nowNs op s = .ok s') :
    Follows setup s' counts (op.again setup s again) := by
  have h := hfollows.sane
  -- the operations that have no events are those of the pool
  have hsane : ∀ (plain : CacheOp Bytes) (pool : BlockPool Bytes), plain.Proper s.pool →
      cacheStep nowNs plain s.pool = .ok pool → Sane pool := by
    intro plain pool hproper hstep
    obtain ⟨hcoherent, hqueued⟩ := cacheStep_coherent hproper hstep h.coherent h.queued
    exact ⟨hcoherent, hqueued⟩
  cases op with
  | getNewBlocks numBlocks =>
    obtain ⟨⟨ret, s₁⟩, hget, rfl⟩ := except_map_eq_ok.1 (liftPool_ok.1 hok)
    exact (getNewBlocksEvents_emits henable h hget).2.follows hfollows
  | cacheFullBlocks full =>
    obtain ⟨⟨s₁, request⟩, hfull, rfl⟩ := except_map_eq_ok.1 hok
    exact (cacheFullBlocks_emits henable h hop hfull).follows hfollows
  | emitCachedBlockEvents reused =>
    obtain ⟨⟨s₁, request⟩, hreused, rfl⟩ := except_map_eq_ok.1 hok
    exact emitCachedBlockEvents_follows henable hfollows hreused
  | cachePartialBlock part =>
    obtain ⟨⟨key?, s₁, request⟩, hpart, rfl⟩ := except_map_eq_ok.1 hok
    exact (cachePartialBlock_emits henable h hop hpart).follows hfollows
  | moveBlockHashes src dst =>
    obtain ⟨pool, hmove, rfl⟩ := except_map_eq_ok.1 (liftPool_ok.1 hok)
    obtain ⟨hsetup, hheld⟩ := moveBlockHashes_held setup h hop hmove
    have hemits : Emits setup s { s with pool := pool } :=
      ⟨hsane (.moveBlockHashes src dst) pool hop hmove, hsetup, [], (List.append_nil _).symm,
        .nil hheld⟩
    exact hemits.follows hfollows
  | touch blocks =>
    obtain ⟨pool, htouch, rfl⟩ := except_map_eq_ok.1 (liftPool_ok.1 hok)
    obtain ⟨hsetup, hkeys⟩ := touch_keys htouch
    have hemits : Emits setup s { s with pool := pool } :=
      emits_of_same (hsane (.pool (.touch blocks)) pool trivial htouch) hsetup rfl hkeys
    exact hemits.follows hfollows
  | freeBlocks orderedBlocks =>
    obtain rfl := Except.ok.inj hok
    obtain ⟨new, hfreed⟩ := freeBlocks_spec nowNs orderedBlocks s.pool
    suffices hemits : Emits setup s { s with pool := freeBlocks nowNs orderedBlocks s.pool } from
      hemits.follows hfollows
    refine emits_of_same (hsane (.pool (.freeBlocks orderedBlocks)) _ trivial rfl) hfreed.setup rfl
      fun x => ?_
    have hby : (freeBlocks nowNs orderedBlocks s.pool).cachedBlockHashesByBlock =
        s.pool.cachedBlockHashesByBlock := by
      simp only [freeBlocks]
      split
      · split <;> rfl
      · rfl
    rw [BlockPool.keys, BlockPool.keys, hby, hfreed.blockHash]
  | evictBlocks blockIds =>
    exact (evictBlocksEvents_emits henable blockIds h (liftPool_ok.1 hok)).follows hfollows
  | expireCachedBlocks =>
    obtain ⟨⟨n, emitted, pool⟩, hexpire, rfl⟩ := except_map_eq_ok.1 (liftPool_ok.1 hok)
    rw [henable] at hexpire
    have hplain : expireCachedBlocks nowNs s.pool = .ok (n, pool) := by
      rw [← expireCachedBlocksEvents_map true, hexpire]
      rfl
    have hstep : cacheStep nowNs (.pool .expireCachedBlocks) s.pool = .ok pool := by
      show (expireCachedBlocks nowNs s.pool).map _ = _
      rw [hplain]
      rfl
    have hheld := expireCachedBlocksEvents_held setup h.coherent hexpire
    have hemits : Emits setup s
        { pool := pool, kvEventQueue := s.kvEventQueue ++ emitted.map setup.removedEvent } :=
      ⟨hsane (.pool .expireCachedBlocks) pool trivial hstep, (hheld (.int 0, 0)).2,
        emitted.map setup.removedEvent, rfl, tells_removed fun k => (hheld k).1⟩
    exact hemits.follows hfollows
  | resetPrefixCache =>
    obtain rfl := Except.ok.inj hok
    obtain ⟨hsane', -, htold⟩ := resetPrefixCacheEvents_tells henable h
    rw [EventOp.again]
    split at htold
    · rename_i hreset
      rw [if_pos hreset]
      refine ⟨hsane', fun k => ?_⟩
      rw [htold.1, htold.2, readAll_append]
      rfl
    · rename_i hkept
      rw [if_neg hkept, htold]
      exact hfollows
  | stampSessionBlockProtection sessionId protectNs groups =>
    obtain rfl := Except.ok.inj hok
    have hstamp := hsane (.pool (.stampSessionBlockProtection sessionId protectNs groups)) _
      trivial rfl
    rcases sessionId with - | sessionId
    · exact hfollows
    rcases protectNs with - | protectNs
    · exact hfollows
    suffices hemits : Emits setup s ⟨stampSessionBlockProtection nowNs (some sessionId)
        (some protectNs) groups s.pool, s.kvEventQueue⟩ from hemits.follows hfollows
    refine emits_of_same hstamp ?_ rfl fun x => ?_
    · rw [stamp_eq]
      exact ⟨rfl, rfl, rfl⟩
    · rw [stamp_eq, BlockPool.keys, BlockPool.keys]
      dsimp only
      split
      · rfl
      · rfl

/-- Where hashes are told as they are, what is held under one is what the map has there. -/
theorem held_eq_length (hbytes : setup.useIntBlockHashes = false) {pool : BlockPool Bytes}
    (h : Coherent pool) (hash : Bytes) (group : Nat) :
    held setup pool (.bytes hash, group) = (pool.cachedBlockHashToBlock (hash, group)).length := by
  have hexternal : ∀ key, setup.external key = (.bytes key.1, key.2) := fun key => by
    rw [EventSetup.external, maybeConvertBlockHash, if_pos hbytes]
  have hinj : Function.Injective setup.external := by
    intro key key' heq
    rw [hexternal, hexternal] at heq
    obtain ⟨hfst, hsnd⟩ := Prod.mk.inj heq
    exact Prod.ext (ExternalBlockHash.bytes.inj hfst) hsnd
  -- the blocks of the pool that have the key
  have hperm : (pool.cachedBlockHashToBlock (hash, group)).Perm
      ((List.range pool.numGpuBlocks).filter fun b => (hash, group) ∈ pool.keys b) := by
    refine (List.perm_ext_iff_of_nodup (h.nodup _) (List.nodup_range.filter _)).2 fun b => ?_
    rw [List.mem_filter, decide_eq_true_eq, h.mem_iff, ← mem_keys, List.mem_range]
    refine ⟨fun hmem => ⟨?_, hmem⟩, And.right⟩
    by_contra hb
    rw [h.keys_outside (not_lt.1 hb)] at hmem
    exact List.not_mem_nil hmem
  rw [hperm.length_eq, held, tally, ← hexternal (hash, group)]
  congr 1
  induction List.range pool.numGpuBlocks with
  | nil => rfl
  | cons b rest ih =>
    rw [List.flatMap_cons, List.count_append, ih, List.count_map_of_injective _ _ hinj,
      (h.distinct b).count]
    by_cases hmem : (hash, group) ∈ pool.keys b
    · rw [if_pos hmem, List.filter_cons_of_pos (by simpa using hmem), List.length_cons]
      omega
    · rw [if_neg hmem, List.filter_cons_of_neg (by simpa using hmem)]
      omega

/-- **The events are enough to know what is cached.** Over any run of the pool's operations, and
with its events delivered in batches at any times, a subscriber who also reads what is waiting has
counted for each key, as it is told, how many blocks have it and how often it was told again since
the last reset; where hashes are told as bytes, these are the blocks that a lookup chooses from. -/
theorem subscriber_exact (henable : setup.enableKvCacheEvents = true) {s : EventPool}
    {counts : EventKey → Int} {again : EventKey → Nat} (hrun : SubscribedRun setup s counts again) :
    (∀ k, readAll s.kvEventQueue counts k = held setup s.pool k + again k) ∧
      (setup.useIntBlockHashes = false → ∀ hash group,
        readAll s.kvEventQueue counts (.bytes hash, group) =
          (s.pool.cachedBlockHashToBlock (hash, group)).length + again (.bytes hash, group)) := by
  suffices hall : Follows setup s counts again by
    refine ⟨hall.counted, fun hbytes hash group => ?_⟩
    rw [hall.counted, held_eq_length hbytes hall.sane.coherent hash group]
  induction hrun with
  | @new roundNs numGpuBlocks enableCaching seconds pool hnew =>
    obtain ⟨hcoherent, hqueued⟩ := new_coherent hnew
    refine ⟨⟨hcoherent, hqueued⟩, fun k => ?_⟩
    obtain ⟨-, -, -, hblocks⟩ := new_spec hnew
    have hempty : ((List.range pool.numGpuBlocks).flatMap fun b =>
        (pool.keys b).map setup.external) = [] := by
      refine List.flatMap_eq_nil_iff.2 fun b _ => ?_
      have hnone : (pool.blocks b).blockHash = none := by rw [hblocks]
      rw [BlockPool.keys, hcoherent.secondary b hnone, hnone]
      rfl
    show 0 = tally _ k + 0
    rw [hempty]
    rfl
  | step nowNs op _ hop hok ih => exact eventStep_follows henable ih hop hok
  | @deliver s counts again _ ih =>
    rw [takeEvents, if_neg (by rw [henable]; exact Bool.noConfusion)]
    exact ⟨ih.sane, ih.counted⟩

/-- Events with the hashes as bytes. -/
def plainSetup : EventSetup Nat := ⟨plainHashing, true, false⟩

/-- A pool of two blocks and the null one. -/
def smallPool : BlockPool Bytes :=
  ⟨3, true, none, none, fun b => { isNull := b = 0 }, [1, 2], fun _ => [], fun _ => []⟩

/-- The two blocks of a prompt. -/
def promptBlocks : FullBlocks Nat where
  request := { allTokenIds := [7, 7, 8, 9], blockHashes := [[0, 7, 7], [0, 7, 7, 8, 9]] }
  blocks := [1, 2]
  numCachedBlocks := 0
  numFullBlocks := 2
  blockSize := 2
  groupId := 0
  blockMask := none

/-- Another request finds the blocks of the prompt. -/
def reusedPrompt : ReusedBlocks Nat where
  request := promptBlocks.request
  numCachedBlocks := 2
  blockSize := 2
  groupId := 0

/-- The blocks of a prompt are cached, the event is delivered, another request finds them, and one
of them is evicted: what the subscriber has read and what is waiting say together that the other
one is left, and that each was told once more. -/
theorem subscriber_exact_evicted : ∃ (s : EventPool) (counts : EventKey → Int)
    (again : EventKey → Nat), SubscribedRun plainSetup s counts again ∧
      again (.bytes [0, 7, 7], 0) = 1 ∧
      s.kvEventQueue.length = 2 ∧
      s.kvEventQueue.getLast? = some (.blockRemoved [.bytes [0, 7, 7]] 0) ∧
      s.pool.cachedBlockHashToBlock ([0, 7, 7], 0) = [] ∧
      s.pool.cachedBlockHashToBlock ([0, 7, 7, 8, 9], 0) = [2] ∧
      (∀ k, readAll s.kvEventQueue counts k = held plainSetup s.pool k + again k) ∧
      (plainSetup.useIntBlockHashes = false → ∀ hash group,
        readAll s.kvEventQueue counts (.bytes hash, group) =
          (s.pool.cachedBlockHashToBlock (hash, group)).length + again (.bytes hash, group)) := by
  have hnew : BlockPool.new (fun _ => 0) 3 true none = .ok smallPool := rfl
  have hstart : SubscribedRun plainSetup ⟨smallPool, []⟩ (fun _ => 0) fun _ => 0 := .new hnew
  obtain ⟨s₁, hget⟩ : ∃ s₁, eventStep plainSetup 1 (.getNewBlocks 2) ⟨smallPool, []⟩ = .ok s₁ :=
    ⟨_, rfl⟩
  have hheld := hstart.step 1 (.getNewBlocks 2) trivial hget
  have hproper : (EventOp.cacheFullBlocks promptBlocks).Proper plainSetup s₁ := by
    obtain rfl := Except.ok.inj hget
    intro hashes hhashes
    obtain rfl := Except.ok.inj hhashes
    refine ⟨by decide, fun j b hb _ _ => ?_⟩
    rcases j with - | - | j
    · obtain rfl := Option.some.inj hb
      exact ⟨by decide, fun hash _ => List.not_mem_nil⟩
    · obtain rfl := Option.some.inj hb
      exact ⟨by decide, fun hash _ => List.not_mem_nil⟩
    · cases hb
  obtain ⟨s₂, hcache⟩ : ∃ s₂, eventStep plainSetup 2 (.cacheFullBlocks promptBlocks) s₁ =
      .ok s₂ := by
    obtain rfl := Except.ok.inj hget
    exact ⟨_, rfl⟩
  have hcached := (hheld.step 2 (.cacheFullBlocks promptBlocks) hproper hcache).deliver
  obtain ⟨s₃, hreuse⟩ : ∃ s₃, eventStep plainSetup 3 (.emitCachedBlockEvents reusedPrompt)
      (takeEvents plainSetup s₂).2 = .ok s₃ := by
    obtain rfl := Except.ok.inj hget
    obtain rfl := Except.ok.inj hcache
    exact ⟨_, rfl⟩
  have hreused := hcached.step 3 (.emitCachedBlockEvents reusedPrompt) trivial hreuse
  obtain ⟨s₄, hevict⟩ : ∃ s₄, eventStep plainSetup 4 (.evictBlocks [1]) s₃ = .ok s₄ := by
    obtain rfl := Except.ok.inj hget
    obtain rfl := Except.ok.inj hcache
    obtain rfl := Except.ok.inj hreuse
    exact ⟨_, rfl⟩
  have hevicted := hreused.step 4 (.evictBlocks [1]) trivial hevict
  refine ⟨s₄, _, _, hevicted, rfl, ?_, ?_, ?_, ?_, subscriber_exact rfl hevicted⟩
  all_goals
    obtain rfl := Except.ok.inj hget
    obtain rfl := Except.ok.inj hcache
    obtain rfl := Except.ok.inj hreuse
    obtain rfl := Except.ok.inj hevict
    rfl

end Kv

end DgxSpark
