import DgxSpark.Lmcache.Transfer

/-!
# The blocks that a retrieve writes

What a successful retrieve is for, in the coordinates of the request: each kept block of each
chunk in the window of its object group goes to the block of the engine that the list of its
kernel group gives for it, unless it lies before `skip_first_n_tokens`
(`DgxSpark.Lmcache.Retrieve.reference`). The windows of the stream and the batches of a transfer
have no part in it, and `DgxSpark.Lmcache.Retrieve.retrieve_writes` says that they make no
difference.

The native transfer is a parameter: it fills the blocks of a launch object by object, except the
first ones, which it skips.
-/

namespace DgxSpark

namespace Lmcache

/-! ### The blocks of a launch -/

/-- A block that is written: the kernel group, the block of the engine, the object that it comes
from, and which of the object's blocks it is. -/
abbrev BlockWrite (Key : Type) : Type := Nat × Nat × Key × Nat

/-- The blocks of a launch without a skip: `n` of each object, in order. -/
def blocksOf {Key : Type} (n : Nat) (objs : List Key) (ids : List Nat) :
    List (Nat × Key × Nat) :=
  objs.zipIdx.flatMap fun p =>
    (List.range n).map fun j => (ids.getD (p.2 * n + j) 0, p.1, j)

section Blocks

variable {Key α : Type} {n : Nat}

theorem drop_range (s : Nat) : (List.range n).drop s = (List.range n).filter (s ≤ ·) := by
  induction n with
  | zero => simp
  | succ n ih =>
    rw [List.range_succ, List.filter_append, ← ih, List.drop_append, List.length_range]
    congr 1
    by_cases h : s ≤ n
    · simp [h]
    · simp [h]
      omega

/-- A skip, spread over the objects. -/
theorem drop_flatMap_zipIdx {f : Key → Nat → Nat → α} (objs : List Key) (start skip : Nat) :
    ((objs.zipIdx start).flatMap fun p => (List.range n).map (f p.1 p.2)).drop skip =
      (objs.zipIdx start).flatMap fun p =>
        ((List.range n).filter fun j => skip ≤ (p.2 - start) * n + j).map (f p.1 p.2) := by
  induction objs generalizing start skip with
  | nil => simp
  | cons o objs ih =>
    rw [List.zipIdx_cons, List.flatMap_cons, List.flatMap_cons, List.drop_append, ih]
    congr 1
    · rw [← List.map_drop, drop_range]
      simp
    · refine List.flatMap_congr fun p hp => ?_
      have hle := (List.mem_zipIdx hp).1
      congr 1
      refine List.filter_congr fun j _ => ?_
      obtain ⟨d, hd⟩ : ∃ d, p.2 = start + 1 + d := ⟨p.2 - (start + 1), by omega⟩
      rw [hd]
      have h1 : start + 1 + d - (start + 1) = d := by omega
      have h2 : start + 1 + d - start = d + 1 := by omega
      rw [h1, h2, Nat.succ_mul, List.length_map, List.length_range]
      simp only [decide_eq_decide]
      omega

/-- The blocks of a launch, its skip in terms of the objects. -/
theorem drop_blocksOf (objs : List Key) (ids : List Nat) (skip : Nat) :
    (blocksOf n objs ids).drop skip = objs.zipIdx.flatMap fun p =>
      ((List.range n).filter fun j => skip ≤ p.2 * n + j).map fun j =>
        (ids.getD (p.2 * n + j) 0, p.1, j) := by
  rw [blocksOf]
  exact drop_flatMap_zipIdx (f := fun o i j => (ids.getD (i * n + j) 0, o, j)) objs 0 skip

theorem flatMap_zipIdx_add {β : Type} (f : α × Nat → List β) (xs : List α) (s t : Nat) :
    (xs.zipIdx (s + t)).flatMap f = (xs.zipIdx t).flatMap fun p => f (p.1, s + p.2) := by
  induction xs generalizing t with
  | nil => rfl
  | cons x xs ih =>
    rw [List.zipIdx_cons, List.zipIdx_cons, List.flatMap_cons, List.flatMap_cons]
    rw [Nat.add_assoc, ih]

/-- Two loops can be exchanged. -/
theorem flatMap_flatMap_perm {β γ : Type} (xs : List α) (ys : List β) (f : α → β → List γ) :
    (xs.flatMap fun x => ys.flatMap (f x)).Perm (ys.flatMap fun y => xs.flatMap (f · y)) := by
  induction xs with
  | nil => simp
  | cons x xs ih =>
    simp only [List.flatMap_cons]
    exact (List.Perm.append_left _ ih).trans (List.flatMap_append_perm ys (f x) _)

end Blocks

/-! ### Where a block belongs -/

/-- What the groups of a cache context are like: a kernel group has blocks of `blockSize` tokens,
that many to a chunk, and `calculate_num_blocks` counts them. -/
structure CacheContext.Regular (ctx : CacheContext) (blockSize : Nat → Nat) : Prop where
  batch : 0 < ctx.maxBatchSize
  chunk : 0 < ctx.chunkSize
  divides : ∀ kg, blockSize kg ∣ ctx.chunkSize
  blocks : ∀ kg m, ctx.calculateNumBlocks (m * blockSize kg) kg = m
  mono : ∀ kg t t', t ≤ t' → ctx.calculateNumBlocks t kg ≤ ctx.calculateNumBlocks t' kg

section Recalculate

variable {ctx : CacheContext} {blockSize : Nat → Nat} {kg : Nat}

theorem CacheContext.Regular.chunk_eq (h : ctx.Regular blockSize) (kg : Nat) :
    ctx.blocksPerChunk kg * blockSize kg = ctx.chunkSize := by
  obtain ⟨m, hm⟩ := h.divides kg
  rw [CacheContext.blocksPerChunk, hm, Nat.mul_comm (blockSize kg), h.blocks]

theorem CacheContext.Regular.window_le (h : ctx.Regular blockSize) (kg : Nat) :
    ctx.blocksPerWindow kg ≤ ctx.blocksPerChunk kg :=
  h.mono kg _ _ (min_le_left _ _)

theorem CacheContext.Regular.blockSize_pos (h : ctx.Regular blockSize) (kg : Nat) :
    0 < blockSize kg := by
  refine Nat.pos_of_ne_zero fun hzero => ?_
  have hchunk := h.chunk_eq kg
  rw [hzero, Nat.mul_zero] at hchunk
  exact absurd hchunk (Nat.ne_of_lt h.chunk)

/-- **The skip of a launch**: a kept block is skipped exactly if its place in the chunk is. -/
theorem recalculate_le_iff {total n skip q j : Nat} (hn : n ≤ total) (hj : j < n) :
    CacheContext.recalculateBlocksToSkip total n skip ≤ q * n + j ↔
      skip ≤ q * total + (total - n) + j := by
  rw [CacheContext.recalculateBlocksToSkip]
  have hdiv : total * (skip / total) + skip % total = skip := Nat.div_add_mod skip total
  have hmod : skip % total < total := Nat.mod_lt _ (by omega)
  rw [Nat.mul_comm] at hdiv
  by_cases heq : total = n
  · rw [if_pos heq]
    subst heq
    omega
  · rw [if_neg heq]
    dsimp only
    have htail : (((skip % total : Nat) : Int) - ((total : Int) - (n : Int))).toNat =
        skip % total - (total - n) := by omega
    rw [htail]
    generalize skip % total = tail at hdiv hmod ⊢
    generalize skip / total = a at hdiv ⊢
    rcases Nat.lt_trichotomy q a with hlt | rfl | hgt
    · have h1 : (q + 1) * n ≤ a * n := Nat.mul_le_mul_right _ hlt
      have h2 : (q + 1) * total ≤ a * total := Nat.mul_le_mul_right _ hlt
      rw [Nat.succ_mul] at h1 h2
      omega
    · omega
    · have h1 : (a + 1) * n ≤ q * n := Nat.mul_le_mul_right _ hgt
      have h2 : (a + 1) * total ≤ q * total := Nat.mul_le_mul_right _ hgt
      rw [Nat.succ_mul] at h1 h2
      omega

end Recalculate

namespace Retrieve

section Reference

variable {Key : Type}

/-- The place of a kept block in the tokens of the request. -/
def position (r : Retrieve Key) (blockSize : Nat → Nat) (kg c j : Nat) : Nat :=
  (c * r.ctx.blocksPerChunk kg + (r.ctx.blocksPerChunk kg - r.ctx.blocksPerWindow kg) + j) *
    blockSize kg

/-- The block of the engine for a kept block: in the full list at its place, in the list of the
window at its place among the kept ones. -/
def destination (r : Retrieve Key) (kg c j : Nat) : Nat :=
  let ids := r.gpuBlockIds.getD kg []
  if ids.length = r.ctx.fullLen r.numChunks kg then
    ids.getD (c * r.ctx.blocksPerChunk kg +
      (r.ctx.blocksPerChunk kg - r.ctx.blocksPerWindow kg) + j) 0
  else
    ids.getD ((c - r.ctx.skipChunks r.numChunks (r.ctx.objectGroupOf kg)) *
      r.ctx.blocksPerWindow kg + j) 0

/-- The kept blocks of a chunk that are not to be skipped. -/
def chunkWrites (r : Retrieve Key) (blockSize : Nat → Nat) (kg : Nat) (p : Key × Nat) :
    List (BlockWrite Key) :=
  ((List.range (r.ctx.blocksPerWindow kg)).filter fun j =>
    r.skipFirstNTokens ≤ r.position blockSize kg p.2 j).map fun j =>
      (kg, r.destination kg p.2 j, p.1, j)

/-- **What is to be written**: of each chunk in the window of its group, each kept block at or
after the skipped tokens. -/
def reference (r : Retrieve Key) (blockSize : Nat → Nat) : List (BlockWrite Key) :=
  r.keys.zipIdx.flatMap fun p =>
    let skip := r.ctx.skipChunks r.numChunks p.2
    (r.ctx.objectGroups.getD p.2 []).flatMap fun kg =>
      ((p.1.drop skip).zipIdx skip).flatMap (r.chunkWrites blockSize kg)

/-- The blocks that the launches of a batch write; `kernel` is the native transfer. -/
def stepWrites (kernel : List Key → List Nat → Nat → List (Nat × Key × Nat))
    (step : BatchStep Key) : List (BlockWrite Key) :=
  step.launches.flatMap fun l =>
    (kernel step.staged l.blockIds l.skipBlocks).map fun b => (l.kernelGroup, b)

/-- The blocks that are written. -/
def written (kernel : List Key → List Nat → Nat → List (Nat × Key × Nat))
    (acts : List (Act Key)) : List (BlockWrite Key) :=
  acts.flatMap fun
    | .batch step => stepWrites kernel step
    | _ => []

/-- A retrieve that is well formed: all object groups have keys for the same chunks, each kernel
group belongs to one object group, and the skip is aligned to the blocks of every group. -/
structure WellFormed (r : Retrieve Key) (blockSize : Nat → Nat) : Prop where
  chunks : ∀ keys ∈ r.keys, keys.length = r.numChunks
  groups : ∀ g, ∀ kg ∈ r.ctx.objectGroups.getD g [],
    r.ctx.objectGroupOf kg = g ∧ kg < r.numKernelGroups
  aligned : ∀ kg, blockSize kg ∣ r.skipFirstNTokens

end Reference

end Retrieve

/-! ### Staging -/

section Stage

open CacheContext

variable {ctx : CacheContext} {numChunks kg : Nat} {ids : List Nat}

/-- The kept blocks of full chunks. -/
theorem getD_slices {total n : Nat} (hn : 0 < n) (hle : n ≤ total) {N fuel : Nat}
    {ids : List Nat} (start : Nat) (hlen : ids.length = N * total) (hfuel : ids.length ≤ fuel) :
    ((slicesFrom total fuel start ids).flatMap fun p => lastBlocks n p.2).length = N * n ∧
      ∀ c j, c < N → j < n →
        ((slicesFrom total fuel start ids).flatMap fun p => lastBlocks n p.2).getD (c * n + j) 0 =
          ids.getD (c * total + (total - n) + j) 0 := by
  induction N generalizing fuel start ids with
  | zero =>
    rw [Nat.zero_mul] at hlen
    rw [List.length_eq_zero_iff.1 hlen]
    refine ⟨?_, fun c j hc => absurd hc (Nat.not_lt_zero c)⟩
    cases fuel with
    | zero => simp [slicesFrom]
    | succ fuel => simp [slicesFrom]
  | succ N ih =>
    have htotal : 0 < total := lt_of_lt_of_le hn hle
    rw [Nat.succ_mul] at hlen
    have hge : total ≤ ids.length := by omega
    cases ids with
    | nil => simp only [List.length_nil] at hge; omega
    | cons x xs =>
      cases fuel with
      | zero => simp only [List.length_cons] at hfuel; omega
      | succ fuel =>
        rw [slicesFrom, List.flatMap_cons]
        have hdrop : ((x :: xs).drop total).length = N * total := by
          rw [List.length_drop]
          omega
        have hfuel' : ((x :: xs).drop total).length ≤ fuel := by
          rw [List.length_drop]
          omega
        obtain ⟨hlength, hget⟩ := ih (start + total) hdrop hfuel'
        have hlast : lastBlocks n ((x :: xs).take total) =
            ((x :: xs).take total).drop (total - n) := by
          rw [lastBlocks, if_neg (by omega), List.length_take, Nat.min_eq_left hge]
        have hfirst : (lastBlocks n ((x :: xs).take total)).length = n := by
          rw [hlast, List.length_drop, List.length_take, Nat.min_eq_left hge]
          omega
        dsimp only
        refine ⟨?_, fun c j hc hj => ?_⟩
        · rw [List.length_append, hfirst, hlength, Nat.succ_mul]
          omega
        · cases c with
          | zero =>
            rw [Nat.zero_mul, Nat.zero_add, Nat.zero_mul, Nat.zero_add]
            simp only [List.getD_eq_getElem?_getD]
            rw [List.getElem?_append_left (by omega), hlast, List.getElem?_drop,
              List.getElem?_take, if_pos (by omega)]
          | succ c =>
            have hplace : (c + 1) * n + j - n = c * n + j := by
              rw [Nat.succ_mul]
              omega
            have hrest := hget c j (by omega) hj
            simp only [List.getD_eq_getElem?_getD] at hrest ⊢
            rw [List.getElem?_append_right (by rw [hfirst, Nat.succ_mul]; omega), hfirst, hplace,
              hrest, List.getElem?_drop]
            congr 2
            rw [Nat.succ_mul]
            omega

/-- **The staged block ids** of a kernel group: the kept blocks of each chunk, the ones before
the window filled up. -/
theorem stage_getD (hle : ctx.blocksPerWindow kg ≤ ctx.blocksPerChunk kg)
    (hfits : ctx.Fits numChunks kg ids) (hn : 0 < ctx.blocksPerWindow kg) :
    (ctx.stage numChunks kg ids).length = numChunks * ctx.blocksPerWindow kg ∧
      ∀ c j, c < numChunks → ctx.skipChunks numChunks (ctx.objectGroupOf kg) ≤ c →
        j < ctx.blocksPerWindow kg →
          (ctx.stage numChunks kg ids).getD (c * ctx.blocksPerWindow kg + j) 0 =
            if ids.length = ctx.fullLen numChunks kg then
              ids.getD (c * ctx.blocksPerChunk kg +
                (ctx.blocksPerChunk kg - ctx.blocksPerWindow kg) + j) 0
            else
              ids.getD ((c - ctx.skipChunks numChunks (ctx.objectGroupOf kg)) *
                ctx.blocksPerWindow kg + j) 0 := by
  rw [CacheContext.stage]
  by_cases hfull : ids.length = ctx.fullLen numChunks kg
  · have hnot : ¬(ids.length = ctx.tailLen numChunks kg ∧
        ctx.tailLen numChunks kg ≠ ctx.fullLen numChunks kg) := by
      rintro ⟨htail, hne⟩
      exact hne (htail.symm.trans hfull)
    rw [if_neg hnot]
    obtain ⟨hlength, hget⟩ := getD_slices hn hle 0 hfull le_rfl
    refine ⟨hlength, fun c j hc _ hj => ?_⟩
    rw [if_pos hfull]
    exact hget c j hc hj
  · have htail := hfits.resolve_left hfull
    rw [if_pos ⟨htail, fun h => hfull (htail.trans h)⟩]
    generalize hskip : ctx.skipChunks numChunks (ctx.objectGroupOf kg) = skip
    have hskip_le : skip ≤ numChunks := by
      rw [← hskip, skipChunks]
      split
      · exact Nat.zero_le _
      · exact Nat.sub_le _ _
    have hlen : ids.length = numChunks * ctx.blocksPerWindow kg -
        skip * ctx.blocksPerWindow kg := by
      rw [htail, tailLen, hskip, Nat.sub_mul]
    have hmul : skip * ctx.blocksPerWindow kg ≤ numChunks * ctx.blocksPerWindow kg :=
      Nat.mul_le_mul_right _ hskip_le
    have hpad : numChunks * ctx.blocksPerWindow kg - ids.length =
        skip * ctx.blocksPerWindow kg := by omega
    rw [hpad]
    refine ⟨?_, fun c j _ hc hj => ?_⟩
    · rw [List.length_append, List.length_replicate]
      omega
    · rw [if_neg hfull]
      have hle' : skip * ctx.blocksPerWindow kg ≤ c * ctx.blocksPerWindow kg :=
        Nat.mul_le_mul_right _ hc
      simp only [List.getD_eq_getElem?_getD]
      rw [List.getElem?_append_right (by rw [List.length_replicate]; omega),
        List.length_replicate, Nat.sub_mul]
      congr 2
      omega

end Stage

namespace Retrieve

section Writes

variable {Key : Type} {r : Retrieve Key} {blockSize : Nat → Nat}
  {kernel : List Key → List Nat → Nat → List (Nat × Key × Nat)}

/-- The lists that the underflow check lets pass. -/
theorem fits_of_check {ctx : CacheContext} {numChunks : Nat} {n first : Nat}
    {lists : List (List Nat)} (h : ctx.checkBlockIds numChunks first n lists = some true) {kg : Nat}
    (hkg : kg < n) : ctx.Fits numChunks (first + kg) (lists.getD kg []) := by
  induction n generalizing first lists kg with
  | zero => exact absurd hkg (Nat.not_lt_zero kg)
  | succ n ih =>
    cases lists with
    | nil => cases h
    | cons ids rest =>
      rw [CacheContext.checkBlockIds] at h
      split at h
      · rename_i hfits
        cases kg with
        | zero => exact hfits
        | succ kg =>
          have hrest := ih h (Nat.lt_of_succ_lt_succ hkg)
          rw [Nat.add_assoc, Nat.add_comm 1 kg] at hrest
          exact hrest
      · cases h

theorem skipChunks_le (ctx : CacheContext) (numChunks g : Nat) :
    ctx.skipChunks numChunks g ≤ numChunks := by
  rw [CacheContext.skipChunks]
  split
  · exact Nat.zero_le _
  · exact Nat.sub_le _ _

/-- **A launch of a batch writes the blocks of its chunks** that are not to be skipped. -/
theorem launch_writes (hctx : r.ctx.Regular blockSize) (hr : r.WellFormed blockSize)
    (haccepted : r.accepted = true)
    (hkernel : ∀ objs ids n skip, ids.length = objs.length * n →
      kernel objs ids skip = (blocksOf n objs ids).drop skip)
    {g kg : Nat} (hkg : kg ∈ r.ctx.objectGroups.getD g []) {c0 len start : Nat}
    (hc0 : r.ctx.skipChunks r.numChunks g ≤ c0) (hlen : c0 + len ≤ r.numChunks)
    {objs : List Key} (hobjs : start + objs.length ≤ len) :
    (kernel objs ((((r.ctx.sliceForWindow kg (r.staged kg) c0 len).drop
          (start * r.ctx.blocksPerWindow kg)).take (objs.length * r.ctx.blocksPerWindow kg)))
        (CacheContext.recalculateBlocksToSkip (r.ctx.blocksPerChunk kg)
          (r.ctx.blocksPerWindow kg) (r.ctx.calculateNumBlocks
            (r.skipFirstNTokens - (c0 + start) * r.ctx.chunkSize) kg))).map (fun b => (kg, b)) =
      (objs.zipIdx (c0 + start)).flatMap (r.chunkWrites blockSize kg) := by
  obtain ⟨hgroup, hlt⟩ := hr.groups g kg hkg
  have hle := hctx.window_le kg
  have hfits : r.ctx.Fits r.numChunks kg (r.gpuBlockIds.getD kg []) := by
    have h := fits_of_check (of_decide_eq_true haccepted) hlt
    rwa [Nat.zero_add] at h
  generalize hm : objs.length = m at hobjs ⊢
  generalize hn : r.ctx.blocksPerWindow kg = n
  have hmul1 : (c0 + len) * n ≤ r.numChunks * n := Nat.mul_le_mul_right _ hlen
  have hmul2 : (start + m) * n ≤ len * n := Nat.mul_le_mul_right _ hobjs
  rw [Nat.add_mul] at hmul1 hmul2
  have hids : (((r.ctx.sliceForWindow kg (r.staged kg) c0 len).drop (start * n)).take
      (m * n)).length = objs.length * n := by
    rw [hm]
    rcases Nat.eq_zero_or_pos n with rfl | hpos
    · simp
    · have hstaged := (stage_getD hle hfits (hn ▸ hpos)).1
      rw [CacheContext.sliceForWindow, hn, List.length_take, List.length_drop, List.length_take,
        List.length_drop, staged, hstaged, hn]
      omega
  rw [hkernel objs _ n _ hids, drop_blocksOf, List.map_flatMap, ← Nat.add_zero (c0 + start),
    flatMap_zipIdx_add]
  refine List.flatMap_congr fun p hp => ?_
  have hq : p.2 < m := by
    have h := (List.mem_zipIdx hp).2.1
    omega
  rw [List.map_map, chunkWrites, hn]
  dsimp only [Nat.add_zero]
  have hfilter : ((List.range n).filter fun j => CacheContext.recalculateBlocksToSkip
      (r.ctx.blocksPerChunk kg) n (r.ctx.calculateNumBlocks
        (r.skipFirstNTokens - (c0 + start) * r.ctx.chunkSize) kg) ≤ p.2 * n + j) =
      (List.range n).filter fun j =>
        r.skipFirstNTokens ≤ r.position blockSize kg (c0 + start + p.2) j := by
    refine List.filter_congr fun j hj => ?_
    rw [decide_eq_decide, recalculate_le_iff (hn ▸ hle) (List.mem_range.1 hj), position, hn]
    obtain ⟨s, hs⟩ := hr.aligned kg
    have hskip : r.skipFirstNTokens - (c0 + start) * r.ctx.chunkSize =
        (s - (c0 + start) * r.ctx.blocksPerChunk kg) * blockSize kg := by
      rw [hs, ← hctx.chunk_eq kg, Nat.sub_mul, Nat.mul_comm (blockSize kg), Nat.mul_assoc]
    rw [hskip, hctx.blocks, hs, Nat.mul_comm (blockSize kg),
      Nat.mul_le_mul_right_iff (hctx.blockSize_pos kg), Nat.add_mul (c0 + start)]
    omega
  rw [hfilter]
  refine List.map_congr_left fun j hj => ?_
  have hj : j < n := List.mem_range.1 (List.mem_filter.1 hj).1
  have hpos : 0 < r.ctx.blocksPerWindow kg := hn ▸ Nat.lt_of_le_of_lt (Nat.zero_le j) hj
  -- the place in the launch, in the window, and in what was staged
  have hplace : (p.2 + 1) * n ≤ m * n := Nat.mul_le_mul_right _ hq
  rw [Nat.succ_mul] at hplace
  have hget : ((((r.ctx.sliceForWindow kg (r.staged kg) c0 len).drop (start * n)).take
      (m * n)).getD (p.2 * n + j) 0) = r.destination kg (c0 + start + p.2) j := by
    have hchunk : c0 + start + p.2 < r.numChunks := by omega
    have hwindow : r.ctx.skipChunks r.numChunks (r.ctx.objectGroupOf kg) ≤ c0 + start + p.2 := by
      rw [hgroup]
      omega
    have hstaged := (stage_getD hle hfits hpos).2 _ j hchunk hwindow (hn ▸ hj)
    rw [destination, ← hstaged, hn]
    simp only [List.getD_eq_getElem?_getD]
    rw [List.getElem?_take, if_pos (by omega), List.getElem?_drop, CacheContext.sliceForWindow, hn,
      List.getElem?_take, if_pos (by omega), List.getElem?_drop, staged]
    congr 2
    rw [Nat.add_mul, Nat.add_mul]
    omega
  rw [Function.comp_apply, hget]

/-- A chunk that lies before the tokens to write has no writes. -/
theorem chunkWrites_skipped (hctx : r.ctx.Regular blockSize) {kg : Nat} {p : Key × Nat}
    (h : (p.2 + 1) * r.ctx.chunkSize ≤ r.skipFirstNTokens) :
    r.chunkWrites blockSize kg p = [] := by
  rw [chunkWrites, List.map_eq_nil_iff, List.filter_eq_nil_iff]
  intro j hj hle
  have hj := List.mem_range.1 hj
  have hwindow := hctx.window_le kg
  have hplace : p.2 * r.ctx.blocksPerChunk kg +
      (r.ctx.blocksPerChunk kg - r.ctx.blocksPerWindow kg) + j + 1 ≤
        (p.2 + 1) * r.ctx.blocksPerChunk kg := by
    rw [Nat.succ_mul]
    omega
  have htokens := Nat.mul_le_mul_right (blockSize kg) hplace
  rw [Nat.mul_assoc, hctx.chunk_eq, Nat.succ_mul] at htokens
  have hblock := hctx.blockSize_pos kg
  have hpos : r.skipFirstNTokens ≤ r.position blockSize kg p.2 j := of_decide_eq_true hle
  rw [position] at hpos
  omega

/-- **A batch writes the blocks of its chunks**, kernel group after kernel group. -/
theorem batch_writes (hctx : r.ctx.Regular blockSize) (hr : r.WellFormed blockSize)
    (haccepted : r.accepted = true)
    (hkernel : ∀ objs ids n skip, ids.length = objs.length * n →
      kernel objs ids skip = (blocksOf n objs ids).drop skip)
    {g c0 len : Nat} (hc0 : r.ctx.skipChunks r.numChunks g ≤ c0) (hlen : c0 + len ≤ r.numChunks)
    {p : Nat × List Key} (hp : p.1 + p.2.length ≤ len) (hpos : 0 < p.2.length) :
    (r.ctx.batchStep (fun kg => r.ctx.sliceForWindow kg (r.staged kg) c0 len) g
        (r.skipFirstNTokens - c0 * r.ctx.chunkSize) p).toList.flatMap (stepWrites kernel) =
      (r.ctx.objectGroups.getD g []).flatMap fun kg =>
        (p.2.zipIdx (c0 + p.1)).flatMap (r.chunkWrites blockSize kg) := by
  have hchunk : 0 < p.2.length * r.ctx.chunkSize := Nat.mul_pos hpos hctx.chunk
  rw [CacheContext.batchStep]
  dsimp only
  split
  · rename_i hskipped
    symm
    refine List.flatMap_eq_nil_iff.2 fun kg _ => List.flatMap_eq_nil_iff.2 fun q hq => ?_
    refine chunkWrites_skipped hctx ?_
    have hlast : q.2 + 1 ≤ c0 + p.1 + p.2.length := by
      have h := (List.mem_zipIdx hq).2.1
      omega
    refine (Nat.mul_le_mul_right _ hlast).trans ?_
    rw [Nat.add_mul, Nat.add_mul]
    omega
  · rw [Option.toList_some, List.flatMap_cons, List.flatMap_nil, List.append_nil, stepWrites,
      List.flatMap_map]
    refine List.flatMap_congr fun kg hkg => ?_
    have hskip : max (p.1 * r.ctx.chunkSize) (r.skipFirstNTokens - c0 * r.ctx.chunkSize) -
        p.1 * r.ctx.chunkSize = r.skipFirstNTokens - (c0 + p.1) * r.ctx.chunkSize := by
      rw [Nat.add_mul]
      omega
    dsimp only
    rw [hskip]
    exact launch_writes hctx hr haccepted hkernel hkg hc0 hlen hp

/-- The slices of a list, with a loop over the places of their elements. -/
theorem slicesFrom_flatMap_zipIdx {α β : Type} {n : Nat} (hn : 0 < n) (xs : List α)
    (s : Nat) (f : α × Nat → List β) :
    ((CacheContext.slicesFrom n xs.length 0 xs).flatMap fun p =>
        (p.2.zipIdx (s + p.1)).flatMap f) = (xs.zipIdx s).flatMap f := by
  have hshift : ∀ p : Nat × List α, (p.2.zipIdx (s + p.1)).flatMap f =
      (p.2.zipIdx p.1).flatMap fun q => f (q.1, s + q.2) :=
    fun p => flatMap_zipIdx_add f p.2 s p.1
  simp only [hshift]
  rw [← List.flatMap_assoc, slicesFrom_zipIdx hn le_rfl]
  exact (flatMap_zipIdx_add f xs s 0).symm

/-- **A window writes the blocks of its chunks**, in some order. -/
theorem window_writes (hctx : r.ctx.Regular blockSize) (hr : r.WellFormed blockSize)
    (haccepted : r.accepted = true)
    (hkernel : ∀ objs ids n skip, ids.length = objs.length * n →
      kernel objs ids skip = (blocksOf n objs ids).drop skip)
    {w : StreamWindow Key} (hc0 : r.ctx.skipChunks r.numChunks w.objectGroup ≤ w.startChunk)
    (hlen : w.startChunk + w.keys.length ≤ r.numChunks) :
    ((r.steps w).flatMap (stepWrites kernel)).Perm
      ((r.ctx.objectGroups.getD w.objectGroup []).flatMap fun kg =>
        (w.keys.zipIdx w.startChunk).flatMap (r.chunkWrites blockSize kg)) := by
  have hskip : (if r.ctx.numChunksInSw w.objectGroup < 0 then 0
      else w.keys.length - (r.ctx.numChunksInSw w.objectGroup).toNat) = 0 := by
    rw [CacheContext.skipChunks] at hc0
    split
    · rfl
    · rename_i hwindow
      rw [if_neg hwindow] at hc0
      omega
  rw [steps, CacheContext.transfer, hskip, CacheContext.batchedIterationWithSkip, List.drop_zero,
    List.filterMap_eq_flatMap_toList, List.flatMap_assoc]
  have hbatches : ∀ p ∈ CacheContext.slicesFrom r.ctx.maxBatchSize w.keys.length 0 w.keys,
      (r.ctx.batchStep (fun kg => r.ctx.sliceForWindow kg (r.staged kg) w.startChunk
        w.keys.length) w.objectGroup (r.skipFirstNTokens - w.startChunk * r.ctx.chunkSize)
          p).toList.flatMap (stepWrites kernel) =
      (r.ctx.objectGroups.getD w.objectGroup []).flatMap fun kg =>
        (p.2.zipIdx (w.startChunk + p.1)).flatMap (r.chunkWrites blockSize kg) := by
    intro p hp
    obtain ⟨-, hend, hpos⟩ := bounds_of_mem_slicesFrom hctx.batch hp
    rw [Nat.zero_add] at hend
    exact batch_writes hctx hr haccepted hkernel hc0 hlen hend hpos
  rw [List.flatMap_congr hbatches]
  refine (flatMap_flatMap_perm _ _ _).trans (List.Perm.of_eq ?_)
  refine List.flatMap_congr fun kg _ => ?_
  exact slicesFrom_flatMap_zipIdx hctx.batch w.keys w.startChunk _

/-- **The windows of an object group write the blocks of the chunks in its window.** -/
theorem group_writes (hctx : r.ctx.Regular blockSize) (hr : r.WellFormed blockSize)
    (haccepted : r.accepted = true)
    (hkernel : ∀ objs ids n skip, ids.length = objs.length * n →
      kernel objs ids skip = (blocksOf n objs ids).drop skip)
    {g : Nat} {keys : List Key} (hkeys : keys.length = r.numChunks) :
    ((r.groupWindows g keys).flatMap fun w => (r.steps w).flatMap (stepWrites kernel)).Perm
      ((r.ctx.objectGroups.getD g []).flatMap fun kg =>
        ((keys.drop (r.ctx.skipChunks r.numChunks g)).zipIdx
          (r.ctx.skipChunks r.numChunks g)).flatMap (r.chunkWrites blockSize kg)) := by
  have hwindow : 0 < max 1 r.windowSize := lt_of_lt_of_le Nat.zero_lt_one (le_max_left _ _)
  have hle := skipChunks_le r.ctx r.numChunks g
  rw [groupWindows, List.flatMap_map, CacheContext.slices]
  generalize hskip : r.ctx.skipChunks r.numChunks g = skip at hle ⊢
  have hslices : ∀ p ∈ CacheContext.slicesFrom (max 1 r.windowSize) (keys.drop skip).length 0
      (keys.drop skip),
      ((r.steps ⟨g, skip + p.1, p.2⟩).flatMap (stepWrites kernel)).Perm
        ((r.ctx.objectGroups.getD g []).flatMap fun kg =>
          (p.2.zipIdx (skip + p.1)).flatMap (r.chunkWrites blockSize kg)) := by
    intro p hp
    obtain ⟨-, hend, -⟩ := bounds_of_mem_slicesFrom hwindow hp
    rw [List.length_drop, hkeys] at hend
    refine window_writes hctx hr haccepted hkernel (w := ⟨g, skip + p.1, p.2⟩) ?_ ?_
    · rw [hskip]
      exact Nat.le_add_right _ _
    · dsimp only
      omega
  refine (List.Perm.flatMap_left _ hslices).trans ((flatMap_flatMap_perm _ _ _).trans
    (List.Perm.of_eq ?_))
  refine List.flatMap_congr fun kg _ => ?_
  exact slicesFrom_flatMap_zipIdx hwindow _ skip _

/-- A stream that succeeds enqueues the batches of all its windows. -/
theorem written_stream {o : Outcomes Key} (ws : List (StreamWindow Key))
    (h : (r.stream o ws).2 = true) :
    written kernel (r.stream o ws).1 =
      ws.flatMap fun w => (r.steps w).flatMap (stepWrites kernel) := by
  induction ws with
  | nil => rfl
  | cons w ws ih =>
    rw [stream] at h ⊢
    rcases hacts : r.windowActs o w with ⟨acts, more⟩
    rw [hacts] at h
    cases more with
    | false => cases h
    | true =>
      have hdone : acts = (r.steps w).map Act.batch ++ [.callback w.keys] := by
        rw [windowActs] at hacts
        split at hacts
        · split at hacts
          · cases hacts
            rfl
          · cases hacts
          · cases hacts
          · cases hacts
        · cases hacts
      dsimp only at h ⊢
      rw [List.flatMap_cons, written, List.flatMap_append, ← written, ← written, ih h, hdone]
      congr 1
      rw [written, List.flatMap_append, List.flatMap_map]
      exact List.append_nil _

/-- **A successful retrieve writes exactly the kept blocks of the chunks in the windows of their
groups**, at or after the skipped tokens, each once, whatever the sizes of windows and batches. -/
theorem retrieve_writes {o : Outcomes Key} (hctx : r.ctx.Regular blockSize)
    (hr : r.WellFormed blockSize)
    (hkernel : ∀ objs ids n skip, ids.length = objs.length * n →
      kernel objs ids skip = (blocksOf n objs ids).drop skip)
    (hsuccess : (r.trace o).2 = true) :
    (written kernel (r.trace o).1).Perm (r.reference blockSize) := by
  rw [trace] at hsuccess ⊢
  by_cases haccepted : r.accepted = true
  · rw [if_pos haccepted] at hsuccess ⊢
    rw [written_stream _ hsuccess, windows, List.flatMap_assoc]
    refine List.Perm.flatMap_left _ fun p hp => ?_
    exact group_writes hctx hr haccepted hkernel (hr.chunks p.1 (List.fst_mem_of_mem_zipIdx hp))
  · rw [if_neg haccepted] at hsuccess
    cases hsuccess

/-- A transfer that fills as many blocks from each object. -/
def evenKernel {Key : Type} (objs : List Key) (ids : List Nat) (skip : Nat) :
    List (Nat × Key × Nat) :=
  (blocksOf (ids.length / objs.length) objs ids).drop skip

theorem evenKernel_eq {Key : Type} {objs : List Key} {ids : List Nat} {n skip : Nat}
    (h : ids.length = objs.length * n) :
    evenKernel objs ids skip = (blocksOf n objs ids).drop skip := by
  cases objs with
  | nil => rfl
  | cons o objs =>
    have hpos : 0 < (o :: objs).length := List.length_pos_of_ne_nil (List.cons_ne_nil o objs)
    rw [evenKernel, h, Nat.mul_div_cancel_left n hpos]

/-- The block sizes of the two groups. -/
def mixedBlockSize (kg : Nat) : Nat := if kg = 0 then 4 else 2

theorem regular_mixed : CacheContext.mixed.Regular mixedBlockSize where
  batch := Nat.zero_lt_two
  chunk := Nat.zero_lt_succ 3
  divides kg := by
    rw [mixedBlockSize]
    split <;> decide
  blocks kg m := by
    simp only [CacheContext.mixed, mixedBlockSize]
    split
    · exact Nat.mul_div_cancel m (Nat.zero_lt_succ 3)
    · exact Nat.mul_div_cancel m Nat.zero_lt_two
  mono kg t t' h := by
    simp only [CacheContext.mixed]
    split <;> exact Nat.div_le_div_right h

theorem wellFormed_mixedChunks : mixedChunks.WellFormed mixedBlockSize where
  chunks := by decide
  groups g kg hkg := by
    match g with
    | 0 =>
      cases List.mem_singleton.1 hkg
      exact ⟨rfl, Nat.zero_lt_two⟩
    | 1 =>
      cases List.mem_singleton.1 hkg
      exact ⟨rfl, Nat.one_lt_two⟩
    | g + 2 => cases hkg
  aligned kg := by
    rw [mixedBlockSize]
    split <;> decide

/-- Both chunks behind the skipped one are written in full attention, and of the window the second
half of the last. -/
theorem retrieve_writes_mixedChunks :
    (written evenKernel (mixedChunks.trace ⟨fun _ => true, fun _ => .done⟩).1).Perm
        (mixedChunks.reference mixedBlockSize) ∧
      mixedChunks.reference mixedBlockSize =
        [(0, 21, 2, 0), (0, 22, 3, 0), (1, 35, 13, 0)] :=
  ⟨retrieve_writes regular_mixed wellFormed_mixedChunks (fun _ _ _ _ h => evenKernel_eq h)
    (by decide), by decide⟩

end Writes

end Retrieve

end Lmcache

end DgxSpark
