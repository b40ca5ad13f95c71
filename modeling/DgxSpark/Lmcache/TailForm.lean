import DgxSpark.Lmcache.RetrieveWrites

/-!
# The two forms of a block list

An engine that allocates only what lies in a sliding window hands a retrieve the kept blocks of the
chunks in the window, and not all blocks of all chunks. Which of the two a list is, is told by its
length alone (`DgxSpark.Lmcache.CacheContext.stage`), and four computations have to agree on where
the window begins: the underflow check, the padding, the slicing, and the skipping of objects.

They do. A retrieve does the same with the lists of any kernel groups in the short form
(`DgxSpark.Lmcache.Retrieve.forms_agree`), and whatever lists the check lets pass, a slice
is as long as its window and has nothing of the padding.
-/

namespace DgxSpark

namespace Lmcache

/-! ### The short form -/

namespace CacheContext

/-- The last `n` blocks of a chunk, and none of it for `n = 0`. -/
def keptBlocks (n : Nat) (chunk : List Nat) : List Nat := chunk.drop (chunk.length - n)

/-- **The tail of a full list**: the kept blocks of the chunks in the window. -/
def inWindowTail (ctx : CacheContext) (numChunks kg : Nat) (full : List Nat) : List Nat :=
  (slices (ctx.blocksPerChunk kg)
    (full.drop (ctx.skipChunks numChunks (ctx.objectGroupOf kg) * ctx.blocksPerChunk kg))).flatMap
      fun p => keptBlocks (ctx.blocksPerWindow kg) p.2

/-- The list is taken for a tail. -/
def TakenForTail (ctx : CacheContext) (numChunks kg : Nat) (ids : List Nat) : Prop :=
  ids.length = ctx.tailLen numChunks kg ∧ ctx.tailLen numChunks kg ≠ ctx.fullLen numChunks kg

/-- What a number of blocks is like: more tokens do not have fewer blocks, and a chunk has some. -/
structure Counts (ctx : CacheContext) : Prop where
  mono : ∀ kg t t', t ≤ t' → ctx.calculateNumBlocks t kg ≤ ctx.calculateNumBlocks t' kg
  pos : ∀ kg, 0 < ctx.blocksPerChunk kg

end CacheContext

section Tail

open CacheContext

variable {ctx : CacheContext} {numChunks kg : Nat} {full ids : List Nat}

theorem CacheContext.Counts.window_le (h : ctx.Counts) (kg : Nat) :
    ctx.blocksPerWindow kg ≤ ctx.blocksPerChunk kg :=
  h.mono kg _ _ (min_le_left _ _)

/-- A slice has at most its length. -/
theorem length_le_of_mem_slicesFrom {n fuel start : Nat} {xs : List Nat} {p : Nat × List Nat}
    (hp : p ∈ slicesFrom n fuel start xs) : p.2.length ≤ n := by
  induction fuel generalizing start xs with
  | zero => cases hp
  | succ fuel ih =>
    cases xs with
    | nil => cases hp
    | cons x xs =>
      rcases List.mem_cons.1 hp with rfl | hp
      · exact List.length_take_le _ _
      · exact ih hp

/-- Kept blocks, as they are staged. -/
theorem flatMap_keptBlocks {n : Nat} (hn : 0 < n) (chunks : List (Nat × List Nat)) :
    (chunks.flatMap fun p => keptBlocks n p.2) = chunks.flatMap fun p => lastBlocks n p.2 := by
  refine List.flatMap_congr fun p _ => ?_
  rw [keptBlocks, lastBlocks, if_neg (by omega)]

/-- **The entries of the tail**, and how many there are. -/
theorem inWindowTail_spec (h : ctx.Counts) (hfull : full.length = ctx.fullLen numChunks kg) :
    (ctx.inWindowTail numChunks kg full).length = ctx.tailLen numChunks kg ∧
      ∀ c j, c < numChunks → ctx.skipChunks numChunks (ctx.objectGroupOf kg) ≤ c →
        j < ctx.blocksPerWindow kg → (ctx.inWindowTail numChunks kg full).getD
          ((c - ctx.skipChunks numChunks (ctx.objectGroupOf kg)) * ctx.blocksPerWindow kg + j) 0 =
            full.getD (c * ctx.blocksPerChunk kg +
              (ctx.blocksPerChunk kg - ctx.blocksPerWindow kg) + j) 0 := by
  rw [tailLen, inWindowTail]
  generalize ctx.skipChunks numChunks (ctx.objectGroupOf kg) = skip
  rcases Nat.eq_zero_or_pos (ctx.blocksPerWindow kg) with hzero | hn
  · -- nothing is kept of a chunk
    refine ⟨?_, fun c j _ _ hj => absurd hj (by omega)⟩
    rw [hzero, Nat.mul_zero, List.length_eq_zero_iff, List.flatMap_eq_nil_iff]
    intro p _
    rw [keptBlocks, Nat.sub_zero, List.drop_length]
  have hle := h.window_le kg
  have hlen : (full.drop (skip * ctx.blocksPerChunk kg)).length =
      (numChunks - skip) * ctx.blocksPerChunk kg := by
    rw [List.length_drop, hfull, fullLen, Nat.sub_mul]
  rw [flatMap_keptBlocks hn]
  obtain ⟨hlength, hget⟩ := getD_slices hn hle 0 hlen le_rfl
  refine ⟨hlength, fun c j hc hwindow hj => ?_⟩
  have hplace := hget (c - skip) j (by omega) hj
  rw [slices, hplace]
  simp only [List.getD_eq_getElem?_getD, List.getElem?_drop]
  congr 2
  have hsplit : c * ctx.blocksPerChunk kg = skip * ctx.blocksPerChunk kg +
      (c - skip) * ctx.blocksPerChunk kg := by
    rw [← Nat.add_mul]
    congr 1
    omega
  omega

/-- **Where the two lengths are the same, the two forms are**: nothing lies before the window, and
every block is kept. -/
theorem inWindowTail_eq_self (h : ctx.Counts) (hfull : full.length = ctx.fullLen numChunks kg)
    (hsame : ctx.tailLen numChunks kg = ctx.fullLen numChunks kg) :
    ctx.inWindowTail numChunks kg full = full := by
  rcases Nat.eq_zero_or_pos numChunks with rfl | hchunks
  · -- there are no chunks
    rw [fullLen, Nat.zero_mul] at hfull
    rw [List.length_eq_zero_iff.1 hfull, inWindowTail, List.drop_nil]
    rfl
  · have hle := h.window_le kg
    have hpos := h.pos kg
    rw [tailLen, fullLen] at hsame
    rw [inWindowTail]
    generalize ctx.skipChunks numChunks (ctx.objectGroupOf kg) = skip at hsame ⊢
    have hbound : (numChunks - skip) * ctx.blocksPerWindow kg ≤
        (numChunks - skip) * ctx.blocksPerChunk kg := Nat.mul_le_mul_left _ hle
    have hskip : skip = 0 := by
      by_contra hne
      have hlt : (numChunks - skip) * ctx.blocksPerChunk kg <
          numChunks * ctx.blocksPerChunk kg :=
        (Nat.mul_lt_mul_right hpos).2 (by omega)
      omega
    subst hskip
    rw [Nat.sub_zero] at hsame
    have hkeep : ctx.blocksPerWindow kg = ctx.blocksPerChunk kg :=
      Nat.eq_of_mul_eq_mul_left hchunks hsame
    have hlast : ∀ p ∈ slices (ctx.blocksPerChunk kg) full,
        keptBlocks (ctx.blocksPerWindow kg) p.2 = p.2 := by
      intro p hp
      have hlen := length_le_of_mem_slicesFrom hp
      rw [hkeep, keptBlocks, Nat.sub_eq_zero_of_le hlen, List.drop_zero]
    rw [Nat.zero_mul, List.drop_zero, List.flatMap_congr hlast]
    exact slices_flatMap hpos full

/-- **A list that passes is taken for one form**, and not for the other. -/
theorem takenForTail_iff (hfits : ctx.Fits numChunks kg ids) :
    ctx.TakenForTail numChunks kg ids ↔ ids.length ≠ ctx.fullLen numChunks kg := by
  rw [TakenForTail]
  constructor
  · rintro ⟨htail, hne⟩ hfull
    exact hne (htail.symm.trans hfull)
  · intro hne
    have htail := hfits.resolve_left hne
    exact ⟨htail, fun hsame => hne (htail.trans hsame)⟩

end Tail

namespace Retrieve

variable {Key : Type} {r : Retrieve Key}

/-- The retrieve, with the lists of some kernel groups in the short form. -/
def withTails (r : Retrieve Key) (short : Nat → Bool) : Retrieve Key :=
  { r with gpuBlockIds := r.gpuBlockIds.zipIdx.map fun p =>
      if short p.2 then r.ctx.inWindowTail r.numChunks p.2 p.1 else p.1 }

/-- All object groups have keys for the same chunks, and each kernel group belongs to one object
group. -/
structure Grouped (r : Retrieve Key) : Prop where
  chunks : ∀ keys ∈ r.keys, keys.length = r.numChunks
  groups : ∀ g, ∀ kg ∈ r.ctx.objectGroups.getD g [],
    r.ctx.objectGroupOf kg = g ∧ kg < r.numKernelGroups

/-- The block ids that a transfer has of a window. -/
def slice (r : Retrieve Key) (w : StreamWindow Key) (kg : Nat) : List Nat :=
  r.ctx.sliceForWindow kg (r.staged kg) w.startChunk w.keys.length

/-! ### Windows -/

/-- **A window lies in the window of its group**, and none of its objects is skipped. -/
theorem bounds_of_mem_windows (hr : r.Grouped) {w : StreamWindow Key} (hw : w ∈ r.windows) :
    r.ctx.skipChunks r.numChunks w.objectGroup ≤ w.startChunk ∧
      w.startChunk + w.keys.length ≤ r.numChunks ∧
      (0 ≤ r.ctx.numChunksInSw w.objectGroup →
        w.keys.length ≤ (r.ctx.numChunksInSw w.objectGroup).toNat) := by
  obtain ⟨p, hp, hw⟩ := List.mem_flatMap.1 hw
  obtain ⟨q, hq, rfl⟩ := List.mem_map.1 hw
  obtain ⟨-, hend, -⟩ := bounds_of_mem_slicesFrom (by omega) hq
  rw [List.length_drop, hr.chunks p.1 (List.fst_mem_of_mem_zipIdx hp)] at hend
  have hskip := skipChunks_le r.ctx r.numChunks p.2
  refine ⟨Nat.le_add_right _ _, ?_, fun hwindow => ?_⟩
  · dsimp only
    omega
  · dsimp only at hwindow ⊢
    rw [CacheContext.skipChunks, if_neg (by omega)] at hend
    omega

/-- What the underflow check has let pass. -/
theorem fits_of_accepted (haccepted : r.accepted = true) {kg : Nat} (hkg : kg < r.numKernelGroups) :
    r.ctx.Fits r.numChunks kg (r.gpuBlockIds.getD kg []) := by
  have h := fits_of_check (of_decide_eq_true haccepted) hkg
  rwa [Nat.zero_add] at h

/-- **A slice is as long as its window.** -/
theorem length_slice (hcounts : r.ctx.Counts) (hr : r.Grouped) (haccepted : r.accepted = true)
    {w : StreamWindow Key} (hw : w ∈ r.windows) {kg : Nat} (hkg : kg < r.numKernelGroups) :
    (r.slice w kg).length = w.keys.length * r.ctx.blocksPerWindow kg := by
  obtain ⟨-, hend, -⟩ := bounds_of_mem_windows hr hw
  rw [slice, CacheContext.sliceForWindow]
  rcases Nat.eq_zero_or_pos (r.ctx.blocksPerWindow kg) with hzero | hpos
  · simp [hzero]
  · have hstaged := (stage_getD (hcounts.window_le kg) (fits_of_accepted haccepted hkg) hpos).1
    have hmul : (w.startChunk + w.keys.length) * r.ctx.blocksPerWindow kg ≤
        r.numChunks * r.ctx.blocksPerWindow kg := Nat.mul_le_mul_right _ hend
    rw [Nat.add_mul] at hmul
    rw [List.length_take, List.length_drop, staged, hstaged]
    omega

/-- **A slice has nothing of the padding**: of a list that is taken for a tail, it is a part of the
list itself. -/
theorem slice_of_tail (hr : r.Grouped) {w : StreamWindow Key} (hw : w ∈ r.windows) {kg : Nat}
    (hkg : kg ∈ r.ctx.objectGroups.getD w.objectGroup [])
    (htail : r.ctx.TakenForTail r.numChunks kg (r.gpuBlockIds.getD kg [])) :
    r.slice w kg = (((r.gpuBlockIds.getD kg []).drop
      ((w.startChunk - r.ctx.skipChunks r.numChunks w.objectGroup) * r.ctx.blocksPerWindow kg)).take
        (w.keys.length * r.ctx.blocksPerWindow kg)) := by
  obtain ⟨hstart, -, -⟩ := bounds_of_mem_windows hr hw
  obtain ⟨hgroup, -⟩ := hr.groups _ kg hkg
  have hskip := skipChunks_le r.ctx r.numChunks w.objectGroup
  have hlen := htail.1
  rw [CacheContext.tailLen, hgroup, Nat.sub_mul] at hlen
  have hmul : r.ctx.skipChunks r.numChunks w.objectGroup * r.ctx.blocksPerWindow kg ≤
      r.numChunks * r.ctx.blocksPerWindow kg := Nat.mul_le_mul_right _ hskip
  have hmul' : r.ctx.skipChunks r.numChunks w.objectGroup * r.ctx.blocksPerWindow kg ≤
      w.startChunk * r.ctx.blocksPerWindow kg := Nat.mul_le_mul_right _ hstart
  -- the padding ends where the window begins
  have hpad : r.numChunks * r.ctx.blocksPerWindow kg - (r.gpuBlockIds.getD kg []).length =
      r.ctx.skipChunks r.numChunks w.objectGroup * r.ctx.blocksPerWindow kg := by omega
  have hstaged : r.staged kg = List.replicate
      (r.ctx.skipChunks r.numChunks w.objectGroup * r.ctx.blocksPerWindow kg) 0 ++
        r.gpuBlockIds.getD kg [] := by
    have hcond := htail
    rw [CacheContext.TakenForTail] at hcond
    rw [staged, CacheContext.stage, if_pos hcond, hpad]
  rw [slice, CacheContext.sliceForWindow, hstaged, List.drop_append,
    List.drop_eq_nil_of_le (by rw [List.length_replicate]; exact hmul'), List.nil_append,
    List.length_replicate, Nat.sub_mul]

/-! ### Short lists in the place of full ones -/

/-- All lists are full. -/
structure Full (r : Retrieve Key) : Prop where
  groups : r.gpuBlockIds.length = r.numKernelGroups
  lists : ∀ kg < r.numKernelGroups,
    (r.gpuBlockIds.getD kg []).length = r.ctx.fullLen r.numChunks kg

theorem getD_withTails (short : Nat → Bool) {kg : Nat} (hkg : kg < r.gpuBlockIds.length) :
    (r.withTails short).gpuBlockIds.getD kg [] =
      if short kg then r.ctx.inWindowTail r.numChunks kg (r.gpuBlockIds.getD kg [])
      else r.gpuBlockIds.getD kg [] := by
  simp [withTails, List.getD_eq_getElem?_getD, List.getElem?_eq_getElem hkg]

/-- Lists that fit pass the check. -/
theorem check_of_fits {ctx : CacheContext} {numChunks n first : Nat} {lists : List (List Nat)}
    (hlength : lists.length = n)
    (hfits : ∀ i < n, ctx.Fits numChunks (first + i) (lists.getD i [])) :
    ctx.checkBlockIds numChunks first n lists = some true := by
  induction n generalizing first lists with
  | zero =>
    rw [List.length_eq_zero_iff.1 hlength]
    rfl
  | succ n ih =>
    cases lists with
    | nil => cases hlength
    | cons ids lists =>
      have hfirst : ctx.Fits numChunks first ids := hfits 0 (Nat.succ_pos n)
      rw [CacheContext.checkBlockIds, if_pos hfirst]
      refine ih (Nat.succ.inj hlength) fun i hi => ?_
      have hnext := hfits (i + 1) (by omega)
      rwa [← Nat.add_assoc, Nat.add_right_comm] at hnext

/-- **The short lists are accepted.** -/
theorem accepted_withTails (hcounts : r.ctx.Counts) (hfull : r.Full) (short : Nat → Bool) :
    (r.withTails short).accepted = true := by
  refine decide_eq_true (check_of_fits ?_ fun kg hkg => ?_)
  · rw [withTails, List.length_map, List.length_zipIdx]
    exact hfull.groups
  · rw [Nat.zero_add, getD_withTails short (hfull.groups ▸ hkg)]
    have hlength := hfull.lists kg hkg
    split
    · exact .inr (inWindowTail_spec hcounts hlength).1
    · exact .inl hlength

/-- The entries of a slice, in what was staged. -/
theorem getD_slice {w : StreamWindow Key} {kg i : Nat}
    (hi : i < w.keys.length * r.ctx.blocksPerWindow kg) :
    (r.slice w kg).getD i 0 =
      (r.staged kg).getD (w.startChunk * r.ctx.blocksPerWindow kg + i) 0 := by
  simp only [slice, CacheContext.sliceForWindow, List.getD_eq_getElem?_getD]
  rw [List.getElem?_take, if_pos hi, List.getElem?_drop]

/-- **The transfer of a window reads the same** from the short list of a group as from the full
one. -/
theorem slice_withTails (hcounts : r.ctx.Counts) (hr : r.Grouped) (hfull : r.Full)
    (short : Nat → Bool) {w : StreamWindow Key} (hw : w ∈ r.windows) {kg : Nat}
    (hkg : kg ∈ r.ctx.objectGroups.getD w.objectGroup []) :
    (r.withTails short).slice w kg = r.slice w kg := by
  obtain ⟨hgroup, hlt⟩ := hr.groups _ kg hkg
  obtain ⟨hstart, hend, -⟩ := bounds_of_mem_windows hr hw
  have hlength := hfull.lists kg hlt
  have hlists := getD_withTails short (hfull.groups ▸ hlt)
  have hr' : (r.withTails short).Grouped := ⟨hr.chunks, hr.groups⟩
  have haccepted' := accepted_withTails hcounts hfull short
  have hfits' := fits_of_accepted haccepted' hlt
  have hlen' : ((r.withTails short).slice w kg).length =
      w.keys.length * r.ctx.blocksPerWindow kg :=
    length_slice (r := r.withTails short) hcounts hr' haccepted' hw hlt
  have haccepted : r.accepted = true := decide_eq_true
    (check_of_fits hfull.groups fun i hi => .inl (by rw [Nat.zero_add]; exact hfull.lists i hi))
  have hlen := length_slice hcounts hr haccepted hw hlt
  refine List.ext_getElem (hlen'.trans hlen.symm) fun i hi' hi => ?_
  have hbound : i < w.keys.length * r.ctx.blocksPerWindow kg := hlen ▸ hi
  have hn : 0 < r.ctx.blocksPerWindow kg := by
    refine Nat.pos_of_ne_zero fun hzero => ?_
    rw [hzero, Nat.mul_zero] at hbound
    exact absurd hbound (Nat.not_lt_zero i)
  -- the place in the window: a chunk, and a block of it
  have hsplit := Nat.div_add_mod i (r.ctx.blocksPerWindow kg)
  have hmod := Nat.mod_lt i hn
  have hdiv : i / r.ctx.blocksPerWindow kg < w.keys.length :=
    (Nat.div_lt_iff_lt_mul hn).2 hbound
  generalize i / r.ctx.blocksPerWindow kg = c at hsplit hdiv
  generalize i % r.ctx.blocksPerWindow kg = j at hsplit hmod
  have hplace : w.startChunk * r.ctx.blocksPerWindow kg + i =
      (w.startChunk + c) * r.ctx.blocksPerWindow kg + j := by
    rw [← hsplit, Nat.add_mul, Nat.mul_comm c]
    omega
  have hstagedEntry : (r.staged kg).getD ((w.startChunk + c) * r.ctx.blocksPerWindow kg + j) 0 =
      (r.gpuBlockIds.getD kg []).getD ((w.startChunk + c) * r.ctx.blocksPerChunk kg +
        (r.ctx.blocksPerChunk kg - r.ctx.blocksPerWindow kg) + j) 0 := by
    have hentry := (stage_getD (hcounts.window_le kg) (.inl hlength) hn).2 (w.startChunk + c) j
      (by omega) (by rw [hgroup]; omega) hmod
    rw [if_pos hlength] at hentry
    exact hentry
  have hstagedEntry' : ((r.withTails short).staged kg).getD
      ((w.startChunk + c) * r.ctx.blocksPerWindow kg + j) 0 =
        (r.staged kg).getD ((w.startChunk + c) * r.ctx.blocksPerWindow kg + j) 0 := by
    rw [hstagedEntry]
    have hentry := (stage_getD (hcounts.window_le kg) hfits' hn).2 (w.startChunk + c) j
      (show _ < r.numChunks by omega) (show r.ctx.skipChunks r.numChunks _ ≤ _ by
        rw [hgroup]; omega) hmod
    refine hentry.trans ?_
    rw [hlists]
    by_cases hshort : short kg = true
    · rw [if_pos hshort]
      split
      · -- the two forms have one length, and are the same
        rename_i hsame
        have htail := (inWindowTail_spec hcounts hlength).1
        rw [inWindowTail_eq_self hcounts hlength (htail.symm.trans hsame)]
      · exact (inWindowTail_spec hcounts hlength).2 _ _ (by omega) (by rw [hgroup]; omega) hmod
    · rw [if_neg hshort]
      exact if_pos hlength
  have hget : ∀ (l : List Nat) (h : i < l.length), l[i] = l.getD i 0 := fun l h => by
    rw [List.getD_eq_getElem?_getD, List.getElem?_eq_getElem h]
    rfl
  rw [hget _ hi', hget _ hi, getD_slice hbound, getD_slice (r := r.withTails short) hbound]
  rw [show (r.withTails short).ctx = r.ctx from rfl, hplace]
  exact hstagedEntry'

/-- A transfer reads the lists of the kernel groups of its object group. -/
theorem transfer_congr {ctx : CacheContext} {f f' : Nat → List Nat} {g : Nat}
    (h : ∀ kg ∈ ctx.objectGroups.getD g [], f kg = f' kg) (objs : List Key) (skipTokens : Nat) :
    ctx.transfer f objs g skipTokens = ctx.transfer f' objs g skipTokens := by
  have hstep : (ctx.batchStep f g skipTokens : Nat × List Key → Option (BatchStep Key)) =
      ctx.batchStep f' g skipTokens := by
    funext p
    rw [CacheContext.batchStep, CacheContext.batchStep]
    dsimp only
    split
    · rfl
    · congr 2
      exact List.map_congr_left fun kg hkg => by rw [h kg hkg]
  rw [CacheContext.transfer, CacheContext.transfer, hstep]

/-- **A retrieve does the same** with the short lists. -/
theorem trace_withTails (hcounts : r.ctx.Counts) (hr : r.Grouped) (hfull : r.Full)
    (short : Nat → Bool) (o : Outcomes Key) : (r.withTails short).trace o = r.trace o := by
  have hsteps : ∀ w ∈ r.windows, (r.withTails short).steps w = r.steps w := fun w hw =>
    transfer_congr (fun kg hkg => slice_withTails hcounts hr hfull short hw hkg) _ _
  have hstream : ∀ ws : List (StreamWindow Key), ws ⊆ r.windows →
      (r.withTails short).stream o ws = r.stream o ws := by
    intro ws
    induction ws with
    | nil => exact fun _ => rfl
    | cons w ws ih =>
      intro hsub
      have hacts : (r.withTails short).windowActs o w = r.windowActs o w := by
        rw [windowActs, windowActs, hsteps w (hsub List.mem_cons_self)]
      rw [stream, stream, hacts, ih fun x hx => hsub (List.mem_cons_of_mem _ hx)]
  have haccepted : r.accepted = true := decide_eq_true
    (check_of_fits hfull.groups fun i hi => .inl (by rw [Nat.zero_add]; exact hfull.lists i hi))
  rw [trace, trace, if_pos haccepted, if_pos (accepted_withTails hcounts hfull short)]
  exact hstream r.windows (List.Subset.refl _)

/-- **The two forms of a block list are equivalent**, and told apart. -/
structure FormsAgree (r : Retrieve Key) : Prop where
  /-- short lists in the place of full ones pass the check -/
  accepted : r.Full → ∀ short, (r.withTails short).accepted = true
  /-- and are read as the full ones are -/
  slices : r.Full → ∀ short, ∀ w ∈ r.windows, ∀ kg ∈ r.ctx.objectGroups.getD w.objectGroup [],
    (r.withTails short).slice w kg = r.slice w kg
  trace : r.Full → ∀ short o, (r.withTails short).trace o = r.trace o
  /-- a list that passes is taken for a tail exactly if it is not as long as a full one -/
  oneForm : r.accepted = true → ∀ kg < r.numKernelGroups,
    (r.ctx.TakenForTail r.numChunks kg (r.gpuBlockIds.getD kg []) ↔
      (r.gpuBlockIds.getD kg []).length ≠ r.ctx.fullLen r.numChunks kg)
  /-- a tail that is as long as a full list is the full list -/
  coincide : ∀ kg full, full.length = r.ctx.fullLen r.numChunks kg →
    (r.ctx.inWindowTail r.numChunks kg full).length = r.ctx.fullLen r.numChunks kg →
      r.ctx.inWindowTail r.numChunks kg full = full
  /-- a slice is as long as its window -/
  length : r.accepted = true → ∀ w ∈ r.windows, ∀ kg < r.numKernelGroups,
    (r.slice w kg).length = w.keys.length * r.ctx.blocksPerWindow kg
  /-- what is read of a tail is in the tail, and not in the padding before it -/
  unpadded : ∀ w ∈ r.windows, ∀ kg ∈ r.ctx.objectGroups.getD w.objectGroup [],
      r.ctx.TakenForTail r.numChunks kg (r.gpuBlockIds.getD kg []) →
        r.slice w kg = ((r.gpuBlockIds.getD kg []).drop
          ((w.startChunk - r.ctx.skipChunks r.numChunks w.objectGroup) *
            r.ctx.blocksPerWindow kg)).take (w.keys.length * r.ctx.blocksPerWindow kg)
  /-- a window lies in the window of its group, so that no object of it is skipped -/
  unskipped : ∀ w ∈ r.windows, 0 ≤ r.ctx.numChunksInSw w.objectGroup →
    w.keys.length ≤ (r.ctx.numChunksInSw w.objectGroup).toNat

/-- **Tail and full lists agree**, for any groups and any number of chunks. -/
theorem forms_agree (hcounts : r.ctx.Counts) (hr : r.Grouped) : r.FormsAgree where
  accepted hfull short := accepted_withTails hcounts hfull short
  slices hfull short _ hw _ hkg := slice_withTails hcounts hr hfull short hw hkg
  trace hfull short o := trace_withTails hcounts hr hfull short o
  oneForm haccepted _ hkg := takenForTail_iff (fits_of_accepted haccepted hkg)
  coincide _ _ hfull hsame := inWindowTail_eq_self hcounts hfull
    ((inWindowTail_spec hcounts hfull).1.symm.trans hsame)
  length haccepted _ hw _ hkg := length_slice hcounts hr haccepted hw hkg
  unpadded _ hw _ hkg htail := slice_of_tail hr hw hkg htail
  unskipped _ hw := (bounds_of_mem_windows hr hw).2.2

/-! ### A sliding window of one chunk -/

/-- Two chunks of a group with full attention and of one with a window of half a chunk, in blocks
of four tokens. -/
def slidingChunks : Retrieve Nat where
  ctx :=
    { chunkSize := 8
      maxBatchSize := 2
      objectGroups := [[0], [1]]
      numChunksInSw := fun g => if g = 1 then 1 else -1
      subchunkSwSizeTokens := fun kg => if kg = 1 then 4 else 8
      calculateNumBlocks := fun tokens _ => tokens / 4 }
  keys := [[1, 2], [3, 4]]
  gpuBlockIds := [[10, 11, 12, 13], [20, 21, 22, 23]]
  skipFirstNTokens := 0
  numKernelGroups := 2
  windowSize := 1

example : (slidingChunks.withTails (· = 1)).gpuBlockIds = [[10, 11, 12, 13], [23]] := by decide

theorem slidingChunks_grouped : slidingChunks.Grouped where
  chunks := by decide
  groups := by
    intro g kg hkg
    match g with
    | 0 =>
      cases List.mem_singleton.1 hkg
      exact ⟨rfl, Nat.zero_lt_two⟩
    | 1 =>
      cases List.mem_singleton.1 hkg
      exact ⟨rfl, Nat.one_lt_two⟩
    | g + 2 => cases hkg

theorem forms_agree_slidingChunks : slidingChunks.FormsAgree :=
  forms_agree ⟨fun _ _ _ h => Nat.div_le_div_right h, fun _ => Nat.zero_lt_two⟩
    slidingChunks_grouped

end Retrieve

end Lmcache

end DgxSpark
