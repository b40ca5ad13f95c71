import Mathlib.Data.List.Basic
import Mathlib.Data.List.Perm.Basic
import Mathlib.Tactic

/-!
# A streamed retrieve

`retrieve` of `lmcache_driven_transfer.py` restores a prefix of `num_chunks` chunks into the
blocks of an engine. The objects of an object group are read from L1 in windows of chunks; each
window is copied to the device in batches, and its read locks are released by a callback that is
submitted to the stream after the copies.

Four coordinates are in use: the chunks of the request, the chunks of an object group's sliding
window, the chunks of a window of the stream, and the positions in the block ids that
`downsample_and_stage_block_ids` leaves of the engine's lists.

The cache context is not part of the repository: what it says about the groups is a parameter
(`DgxSpark.Lmcache.CacheContext`), and so is where something raises
(`DgxSpark.Lmcache.Outcomes`).

| | |
|---|---|
| the engine's lists, staged | `DgxSpark.Lmcache.CacheContext.stage` |
| one window, batch by batch | `DgxSpark.Lmcache.CacheContext.transfer` |
| all of it | `DgxSpark.Lmcache.Retrieve.trace` |
-/

namespace DgxSpark

namespace Lmcache

/-! ### The groups -/

/-- What the cache context knows of the groups. An object group is a list of kernel groups. -/
structure CacheContext where
  /-- `lmcache_tokens_per_chunk` -/
  chunkSize : Nat
  maxBatchSize : Nat
  objectGroups : List (List Nat)
  /-- `num_chunks_in_sw`, negative for full attention -/
  numChunksInSw : Nat → Int
  /-- `get_subchunk_sw_size_tokens` -/
  subchunkSwSizeTokens : Nat → Nat
  /-- `calculate_num_blocks`, of a number of tokens and a kernel group -/
  calculateNumBlocks : Nat → Nat → Nat

namespace CacheContext

variable {Key : Type}

/-- The blocks of a chunk. -/
def blocksPerChunk (ctx : CacheContext) (kg : Nat) : Nat :=
  ctx.calculateNumBlocks ctx.chunkSize kg

/-- The blocks that are kept of a chunk: those of the window in it, if the window is smaller. -/
def blocksPerWindow (ctx : CacheContext) (kg : Nat) : Nat :=
  ctx.calculateNumBlocks (min ctx.chunkSize (ctx.subchunkSwSizeTokens kg)) kg

/-- The object group of a kernel group. -/
def objectGroupOf (ctx : CacheContext) (kg : Nat) : Nat :=
  ctx.objectGroups.findIdx (kg ∈ ·)

/-- How many chunks lie before the sliding window of an object group. -/
def skipChunks (ctx : CacheContext) (numChunks g : Nat) : Nat :=
  if ctx.numChunksInSw g < 0 then 0 else numChunks - (ctx.numChunksInSw g).toNat

/-- `_kernel_group_window_layout`, for a kernel group: the chunks to skip, the blocks kept of a
chunk, and all blocks of one. -/
def windowLayout (ctx : CacheContext) (numChunks kg : Nat) : Nat × Nat × Nat :=
  (ctx.skipChunks numChunks (ctx.objectGroupOf kg), ctx.blocksPerWindow kg, ctx.blocksPerChunk kg)

/-- How many block ids there are if all blocks are listed. -/
def fullLen (ctx : CacheContext) (numChunks kg : Nat) : Nat :=
  numChunks * ctx.blocksPerChunk kg

/-- How many block ids there are if only the kept blocks in the window are. -/
def tailLen (ctx : CacheContext) (numChunks kg : Nat) : Nat :=
  (numChunks - ctx.skipChunks numChunks (ctx.objectGroupOf kg)) * ctx.blocksPerWindow kg

/-- The underflow check lets the list of a kernel group pass. -/
def Fits (ctx : CacheContext) (numChunks kg : Nat) (ids : List Nat) : Prop :=
  ids.length = ctx.fullLen numChunks kg ∨ ids.length = ctx.tailLen numChunks kg

instance (ctx : CacheContext) (numChunks kg : Nat) (ids : List Nat) :
    Decidable (ctx.Fits numChunks kg ids) :=
  inferInstanceAs (Decidable (_ ∨ _))

/-- The underflow check, from a kernel group on: whether all lists pass. It raises where the
number of lists is not the one of the kernel groups. -/
def checkBlockIds (ctx : CacheContext) (numChunks : Nat) :
    Nat → Nat → List (List Nat) → Option Bool
  | _, 0, [] => some true
  | _, 0, _ :: _ => none
  | _, _ + 1, [] => none
  | kg, n + 1, ids :: rest =>
    if ctx.Fits numChunks kg ids then ctx.checkBlockIds numChunks (kg + 1) n rest else some false

/-! ### Slices -/

/-- The slices of `n` elements of a list, each with its start. -/
def slicesFrom {α : Type} (n : Nat) : Nat → Nat → List α → List (Nat × List α)
  | 0, _, _ => []
  | _ + 1, _, [] => []
  | fuel + 1, start, x :: xs =>
    (start, (x :: xs).take n) :: slicesFrom n fuel (start + n) ((x :: xs).drop n)

/-- `range(0, len(xs), n)`, with the slices at it. -/
def slices {α : Type} (n : Nat) (xs : List α) : List (Nat × List α) :=
  slicesFrom n xs.length 0 xs

/-- `batched_iteration_with_skip`. -/
def batchedIterationWithSkip {α : Type} (xs : List α) (batchSize skipCount : Nat) :
    List (Nat × List α) :=
  slicesFrom batchSize xs.length skipCount (xs.drop skipCount)

/-- The last `n` of a list, as `xs[-n:]`: all of it for `n = 0`. -/
def lastBlocks (n : Nat) (xs : List Nat) : List Nat :=
  if n = 0 then xs else xs.drop (xs.length - n)

/-! ### Block ids -/

/-- `downsample_and_stage_block_ids`, for the list of a kernel group. -/
def stage (ctx : CacheContext) (numChunks kg : Nat) (ids : List Nat) : List Nat :=
  let expectedCut := ctx.tailLen numChunks kg
  if ids.length = expectedCut ∧ expectedCut ≠ ctx.fullLen numChunks kg then
    List.replicate (numChunks * ctx.blocksPerWindow kg - ids.length) 0 ++ ids
  else
    (slices (ctx.blocksPerChunk kg) ids).flatMap fun p => lastBlocks (ctx.blocksPerWindow kg) p.2

/-- `_slice_block_ids_for_window`, for a kernel group. -/
def sliceForWindow (ctx : CacheContext) (kg : Nat) (ids : List Nat) (startChunk numChunks : Nat) :
    List Nat :=
  (ids.drop (startChunk * ctx.blocksPerWindow kg)).take (numChunks * ctx.blocksPerWindow kg)

/-- `_recalculate_blocks_to_skip`. -/
def recalculateBlocksToSkip (blocksPerChunk blocksPerWindow blocksToSkip : Nat) : Nat :=
  if blocksPerChunk = blocksPerWindow then blocksToSkip
  else
    let tailBlocks := blocksToSkip % blocksPerChunk
    (blocksToSkip / blocksPerChunk) * blocksPerWindow +
      ((tailBlocks : Int) - (blocksPerChunk - blocksPerWindow)).toNat

end CacheContext

/-! ### A transfer -/

/-- A launch of the transfer kernel: block ids to write, and how many of them to skip. -/
structure Launch where
  kernelGroup : Nat
  blockIds : List Nat
  skipBlocks : Nat
deriving DecidableEq, Repr

/-- A batch: the objects that are copied to the buffers, and the launches that read these. -/
structure BatchStep (Key : Type) where
  staged : List Key
  launches : List Launch
deriving DecidableEq, Repr

namespace CacheContext

variable {Key : Type}

/-- A batch of objects, at its place among those of the transfer. -/
def batchStep (ctx : CacheContext) (blockIds : Nat → List Nat) (g skipTokens : Nat)
    (p : Nat × List Key) : Option (BatchStep Key) :=
  let batchStart := p.1 * ctx.chunkSize
  let batchEnd := batchStart + p.2.length * ctx.chunkSize
  let effectiveStart := max batchStart skipTokens
  if batchEnd ≤ effectiveStart then none
  else
    let skipTokensInChunk := effectiveStart - batchStart
    some
      { staged := p.2
        launches := (ctx.objectGroups.getD g []).map fun kg =>
          let n := ctx.blocksPerWindow kg
          { kernelGroup := kg
            blockIds := ((blockIds kg).drop (p.1 * n)).take (p.2.length * n)
            skipBlocks := recalculateBlocksToSkip (ctx.blocksPerChunk kg) n
              (ctx.calculateNumBlocks skipTokensInChunk kg) } }

/-- `transfer_kv_per_object_group`, to the device. The planner of the native path walks the same
batches. -/
def transfer (ctx : CacheContext) (blockIds : Nat → List Nat) (objs : List Key)
    (g skipTokens : Nat) : List (BatchStep Key) :=
  let skipObjs :=
    if ctx.numChunksInSw g < 0 then 0 else objs.length - (ctx.numChunksInSw g).toNat
  (batchedIterationWithSkip objs ctx.maxBatchSize skipObjs).filterMap
    (ctx.batchStep blockIds g skipTokens)

end CacheContext

/-! ### The windows -/

/-- A window of the stream: its object group, its first chunk, and the keys of its objects. -/
structure StreamWindow (Key : Type) where
  objectGroup : Nat
  startChunk : Nat
  keys : List Key
deriving DecidableEq, Repr

/-- What a retrieve is called with. `keys` are those of each object group, chunk by chunk. -/
structure Retrieve (Key : Type) where
  ctx : CacheContext
  keys : List (List Key)
  gpuBlockIds : List (List Nat)
  skipFirstNTokens : Nat
  numKernelGroups : Nat
  /-- `retrieve_window_chunks` -/
  windowSize : Nat

/-- What happens in a window once all its objects are read. -/
inductive WindowOutcome where
  | done
  /-- slicing the block ids raises -/
  | sliceRaises
  /-- the transfer raises after some batches, and some copies of the next one -/
  | transferRaises (batches copies : Nat)
  /-- submitting the callback raises -/
  | callbackRaises
deriving DecidableEq, Repr

/-- What the environment decides: which objects can be read, and where something raises. -/
structure Outcomes (Key : Type) where
  readable : Key → Bool
  window : StreamWindow Key → WindowOutcome

/-- What a retrieve does, in the order of the calls. -/
inductive Act (Key : Type) where
  /-- a batch is enqueued on the stream -/
  | batch (step : BatchStep Key)
  /-- `finish_read`, at once -/
  | finishRead (keys : List Key)
  /-- `finish_read_prefetched` is submitted to the stream -/
  | callback (keys : List Key)
deriving DecidableEq, Repr

namespace Retrieve

variable {Key : Type}

/-- `num_chunks`. -/
def numChunks (r : Retrieve Key) : Nat := (r.keys.headD []).length

/-- The staged block ids of a kernel group. -/
def staged (r : Retrieve Key) (kg : Nat) : List Nat :=
  r.ctx.stage r.numChunks kg (r.gpuBlockIds.getD kg [])

/-- The windows of an object group. -/
def groupWindows (r : Retrieve Key) (g : Nat) (keys : List Key) : List (StreamWindow Key) :=
  let skip := r.ctx.skipChunks r.numChunks g
  (CacheContext.slices (max 1 r.windowSize) (keys.drop skip)).map fun p =>
    ⟨g, skip + p.1, p.2⟩

/-- The windows, in the order in which they are streamed. -/
def windows (r : Retrieve Key) : List (StreamWindow Key) :=
  r.keys.zipIdx.flatMap fun p => r.groupWindows p.2 p.1

/-- The batches of a window. -/
def steps (r : Retrieve Key) (w : StreamWindow Key) : List (BatchStep Key) :=
  r.ctx.transfer
    (fun kg => r.ctx.sliceForWindow kg (r.staged kg) w.startChunk w.keys.length)
    w.keys w.objectGroup (r.skipFirstNTokens - w.startChunk * r.ctx.chunkSize)

/-- The batches that a transfer has enqueued when it raises. -/
def issued (steps : List (BatchStep Key)) (batches copies : Nat) : List (BatchStep Key) :=
  steps.take batches ++
    (steps[batches]?.toList.map fun step => ⟨step.staged.take copies, []⟩)

/-- One window, and whether the next one comes. `read_prefetched_results` releases what it has
read where its caller raises, and where an object is missing. -/
def windowActs (r : Retrieve Key) (o : Outcomes Key) (w : StreamWindow Key) :
    List (Act Key) × Bool :=
  if w.keys.all o.readable then
    match o.window w with
    | .done => ((r.steps w).map .batch ++ [.callback w.keys], true)
    | .sliceRaises => ([.finishRead w.keys], false)
    | .transferRaises batches copies =>
      ((issued (r.steps w) batches copies).map .batch ++ [.finishRead w.keys], false)
    | .callbackRaises => ((r.steps w).map .batch ++ [.finishRead w.keys], false)
  else ([.finishRead (w.keys.filter o.readable)], false)

/-- The loop over the windows. -/
def stream (r : Retrieve Key) (o : Outcomes Key) : List (StreamWindow Key) → List (Act Key) × Bool
  | [] => ([], true)
  | w :: ws =>
    match r.windowActs o w with
    | (acts, false) => (acts, false)
    | (acts, true) => (acts ++ (r.stream o ws).1, (r.stream o ws).2)

/-- Whether the underflow check lets the block ids pass. -/
def accepted (r : Retrieve Key) : Bool :=
  r.ctx.checkBlockIds r.numChunks 0 r.numKernelGroups r.gpuBlockIds = some true

/-- `retrieve`: what it does, and whether it succeeds. -/
def trace (r : Retrieve Key) (o : Outcomes Key) : List (Act Key) × Bool :=
  if r.accepted then r.stream o r.windows else ([], false)

end Retrieve

/-! ### What slices are -/

section Slices

open CacheContext

variable {α : Type} {n : Nat}

/-- The slices of a list make up the list. -/
theorem slicesFrom_flatMap (hn : 0 < n) {fuel start : Nat} {xs : List α}
    (hfuel : xs.length ≤ fuel) : (slicesFrom n fuel start xs).flatMap Prod.snd = xs := by
  induction fuel generalizing start xs with
  | zero =>
    rw [List.length_eq_zero_iff.1 (Nat.le_zero.1 hfuel)]
    rfl
  | succ fuel ih =>
    cases xs with
    | nil => rfl
    | cons x xs =>
      rw [slicesFrom, List.flatMap_cons, ih]
      · exact List.take_append_drop n (x :: xs)
      · rw [List.length_drop]
        omega

theorem slices_flatMap (hn : 0 < n) (xs : List α) : (slices n xs).flatMap Prod.snd = xs :=
  slicesFrom_flatMap hn le_rfl

/-- A slice is of elements of the list. -/
theorem mem_of_mem_slicesFrom {fuel start : Nat} {xs : List α} {p : Nat × List α} {x : α}
    (hp : p ∈ slicesFrom n fuel start xs) (hx : x ∈ p.2) : x ∈ xs := by
  induction fuel generalizing start xs with
  | zero => cases hp
  | succ fuel ih =>
    cases xs with
    | nil => cases hp
    | cons y ys =>
      rcases List.mem_cons.1 hp with rfl | hp
      · exact List.mem_of_mem_take hx
      · exact List.mem_of_mem_drop (ih hp)

/-- The slices of a list, each with the places of its elements, make up the list with its
places. -/
theorem slicesFrom_zipIdx (hn : 0 < n) {fuel start : Nat} {xs : List α}
    (hfuel : xs.length ≤ fuel) :
    (slicesFrom n fuel start xs).flatMap (fun p => p.2.zipIdx p.1) =
      xs.zipIdx start := by
  induction fuel generalizing start xs with
  | zero =>
    rw [List.length_eq_zero_iff.1 (Nat.le_zero.1 hfuel)]
    rfl
  | succ fuel ih =>
    cases xs with
    | nil => rfl
    | cons x xs =>
      rw [slicesFrom, List.flatMap_cons, ih]
      · dsimp only
        rcases Nat.lt_or_ge (x :: xs).length n with hlt | hge
        · rw [List.take_of_length_le (le_of_lt hlt), List.drop_of_length_le (le_of_lt hlt)]
          simp
        · conv_rhs => rw [← List.take_append_drop n (x :: xs), List.zipIdx_append]
          rw [List.length_take, Nat.min_eq_left hge]
      · rw [List.length_drop]
        omega

/-- A slice lies within the list, and is not empty. -/
theorem bounds_of_mem_slicesFrom {fuel start : Nat} (hn : 0 < n) {xs : List α}
    {p : Nat × List α} (hp : p ∈ slicesFrom n fuel start xs) :
    start ≤ p.1 ∧ p.1 + p.2.length ≤ start + xs.length ∧ 0 < p.2.length := by
  induction fuel generalizing start xs with
  | zero => cases hp
  | succ fuel ih =>
    cases xs with
    | nil => cases hp
    | cons x xs =>
      rcases List.mem_cons.1 hp with rfl | hp
      · rw [List.length_take, List.length_cons]
        omega
      · obtain ⟨hstart, hend, hpos⟩ := ih hp
        rw [List.length_drop] at hend
        omega

end Slices

/-! ### A small instance -/

/-- A group with full attention, of blocks as large as a chunk. -/
def CacheContext.full : CacheContext where
  chunkSize := 4
  maxBatchSize := 2
  objectGroups := [[0]]
  numChunksInSw := fun _ => -1
  subchunkSwSizeTokens := fun _ => 4
  calculateNumBlocks := fun tokens _ => tokens / 4

/-- Two chunks, in two windows. -/
def Retrieve.twoChunks : Retrieve Nat where
  ctx := CacheContext.full
  keys := [[1, 2]]
  gpuBlockIds := [[10, 11]]
  skipFirstNTokens := 0
  numKernelGroups := 1
  windowSize := 1

/-- A group with full attention, and one with a sliding window of half a chunk, of smaller blocks. -/
def CacheContext.mixed : CacheContext where
  chunkSize := 4
  maxBatchSize := 2
  objectGroups := [[0], [1]]
  numChunksInSw := fun g => if g = 0 then -1 else 1
  subchunkSwSizeTokens := fun kg => if kg = 0 then 4 else 2
  calculateNumBlocks := fun tokens kg => if kg = 0 then tokens / 4 else tokens / 2

/-- Three chunks for both groups, the first of them in the cache already. -/
def Retrieve.mixedChunks : Retrieve Nat where
  ctx := CacheContext.mixed
  keys := [[1, 2, 3], [11, 12, 13]]
  gpuBlockIds := [[20, 21, 22], [30, 31, 32, 33, 34, 35]]
  skipFirstNTokens := 4
  numKernelGroups := 2
  windowSize := 2

end Lmcache

end DgxSpark
