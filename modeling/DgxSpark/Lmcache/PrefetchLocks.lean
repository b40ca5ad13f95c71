import DgxSpark.Lmcache.Prefetch

/-!
# What a prefetch holds when it is complete

Three kinds of lock are taken on two tiers, and given back at six places along several ways out:
nothing to load, nothing reserved, contention, a truncated load, loads that fail.
`DgxSpark.Lmcache.Accounted` says what the fields of a request have to do with what it holds; each
step keeps it, and at the only way to complete it comes to
`DgxSpark.Lmcache.Conserved` (`DgxSpark.Lmcache.prefetch_conserves`).

The hit that is reported with the loads is that of the union of what was found. What is found at
the end is less: the plan and the locks have been trimmed to what was retained of the union, and
`DgxSpark.Lmcache.Folds.hit_between` says that this leaves the hit.
-/

namespace DgxSpark

namespace Lmcache

/-! ### Bitmaps, key by key -/

namespace Bitmap

variable {n : Nat} {Key : Type}

@[simp] theorem empty_apply (i : Fin n) : (empty : Bitmap n) i = false := rfl

@[simp] theorem and_apply (a b : Bitmap n) (i : Fin n) : a.and b i = (a i && b i) := rfl

@[simp] theorem or_apply (a b : Bitmap n) (i : Fin n) : a.or b i = (a i || b i) := rfl

@[simp] theorem not_apply (a : Bitmap n) (i : Fin n) : a.not i = !a i := rfl

@[simp] theorem mem_indices {b : Bitmap n} {i : Fin n} : i ∈ b.indices ↔ b i = true := by
  simp [indices]

theorem popcount_eq_zero {b : Bitmap n} : b.popcount = 0 ↔ ∀ i, b i = false := by
  rw [popcount, List.length_eq_zero_iff, List.eq_nil_iff_forall_not_mem]
  simp

theorem merge_iff {plan : Plan n} {i : Fin n} :
    merge plan i = true ↔ ∃ p ∈ plan, p.2 i = true := by
  simp [merge]

/-- Trimming a plan trims what it loads. -/
@[simp] theorem merge_trim (plan : Plan n) (mask : Bitmap n) (i : Fin n) :
    merge (trimLoadPlanWithMask plan mask) i = (merge plan i && mask i) := by
  rw [Bool.eq_iff_iff, Bool.and_eq_true, merge_iff, merge_iff]
  constructor
  · rintro ⟨p, hp, hi⟩
    obtain ⟨q, hq, rfl⟩ := List.mem_map.1 (List.mem_of_mem_filter hp)
    obtain ⟨hqi, hmask⟩ := Bool.and_eq_true_iff.1 hi
    exact ⟨⟨q, hq, hqi⟩, hmask⟩
  · rintro ⟨⟨p, hp, hi⟩, hmask⟩
    have hboth : p.2.and mask i = true := by rw [and_apply, hi, hmask]; rfl
    refine ⟨(p.1, p.2.and mask), List.mem_filter.2 ⟨List.mem_map.2 ⟨p, hp, rfl⟩, ?_⟩, hboth⟩
    refine decide_eq_true fun hzero => ?_
    cases hboth.symm.trans (popcount_eq_zero.1 hzero i)

variable {keys : Fin n → Key} (hkeys : Function.Injective keys)

include hkeys in
theorem gather_nodup (b : Bitmap n) : (b.gather keys).Nodup :=
  ((List.nodup_finRange n).filter _).map hkeys

include hkeys in
theorem mem_gather {b : Bitmap n} {i : Fin n} : keys i ∈ b.gather keys ↔ b i = true := by
  rw [gather, List.mem_map_of_injective hkeys, mem_indices]

theorem exists_of_mem_gather {b : Bitmap n} {k : Key} (h : k ∈ b.gather keys) :
    ∃ i, keys i = k ∧ b i = true := by
  obtain ⟨i, hi, rfl⟩ := List.mem_map.1 h
  exact ⟨i, rfl, mem_indices.1 hi⟩

variable [DecidableEq Key]

include hkeys in
theorem count_gather (b : Bitmap n) (i : Fin n) :
    (b.gather keys).count (keys i) = if b i = true then 1 else 0 := by
  rw [(gather_nodup hkeys b).count]
  simp only [mem_gather hkeys]

theorem count_gather_other (b : Bitmap n) {k : Key} (hk : ∀ i, keys i ≠ k) :
    (b.gather keys).count k = 0 := by
  refine List.count_eq_zero.2 fun hmem => ?_
  obtain ⟨i, hi, -⟩ := exists_of_mem_gather hmem
  exact hk i hi

include hkeys in
/-- What is kept and what is not make up the whole. -/
theorem count_gather_split (held keep : Bitmap n) (k : Key) :
    ((held.and keep.not).gather keys).count k + ((held.and keep).gather keys).count k =
      (held.gather keys).count k := by
  by_cases hk : ∃ i, keys i = k
  · obtain ⟨i, rfl⟩ := hk
    rw [count_gather hkeys, count_gather hkeys, count_gather hkeys]
    cases hheld : held i <;> cases hkeep : keep i <;> simp [hheld, hkeep]
  · have hnot : ∀ i, keys i ≠ k := fun i hi => hk ⟨i, hi⟩
    rw [count_gather_other _ hnot, count_gather_other _ hnot, count_gather_other _ hnot]

end Bitmap

/-! ### What the adapters still have to get back -/

section Releasing

variable {Key : Type} [DecidableEq Key] {n : Nat}

/-- The lookup locks on a key that a request holds. -/
def owed (keys : Fin n → Key) (held : Plan n) (adapter : Nat) (k : Key) : Nat :=
  (held.map fun p => if adapter = p.1 then (p.2.gather keys).count k else 0).sum

theorem owed_cons (keys : Fin n → Key) (p : Nat × Bitmap n) (held : Plan n) (adapter : Nat)
    (k : Key) : owed keys (p :: held) adapter k =
      (if adapter = p.1 then (p.2.gather keys).count k else 0) + owed keys held adapter k := by
  rw [owed, List.map_cons, List.sum_cons]
  rfl

theorem owed_append (keys : Fin n → Key) (held held' : Plan n) (adapter : Nat) (k : Key) :
    owed keys (held ++ held') adapter k = owed keys held adapter k + owed keys held' adapter k := by
  rw [owed, List.map_append, List.sum_append]
  rfl

/-- Locks are returned, and nothing else happens. -/
structure Returned (keys : Fin n → Key) (held held' : Plan n) (b b' : Books Key) : Prop where
  writes : b'.writes = b.writes
  reads : b'.reads = b.reads
  granted : b'.granted = b.granted
  readable : b'.readable = b.readable
  acquired : b'.acquired = b.acquired
  returned : ∀ a k, b'.returned a k + owed keys held' a k = b.returned a k + owed keys held a k

variable (spec : PrefetchRequestSpec Key n)

/-- **Each lock is returned once**: what is returned is no longer held. -/
theorem returned_releaseL2Locks (keep held : Plan n) (b : Books Key) :
    Returned spec.keys held (spec.releaseL2Locks keep held b).1 b
      (spec.releaseL2Locks keep held b).2 := by
  induction held generalizing b with
  | nil => exact ⟨rfl, rfl, rfl, rfl, rfl, fun _ _ => rfl⟩
  | cons p held ih =>
    obtain ⟨adapter, bits⟩ := p
    rw [PrefetchRequestSpec.releaseL2Locks]
    dsimp only
    set keepBits := (keep.lookup adapter).getD Bitmap.empty with hkeep
    set b' := b.submitUnlock adapter ((bits.and keepBits.not).gather spec.keys) with hb'
    have hrest := ih b'
    refine ⟨hrest.writes, hrest.reads, hrest.granted, hrest.readable, hrest.acquired,
      fun a k => ?_⟩
    have hreturned : (spec.releaseL2Locks keep held b').2.returned a k +
        owed spec.keys (spec.releaseL2Locks keep held b').1 a k =
        (b.returned a k +
          if a = adapter then ((bits.and keepBits.not).gather spec.keys).count k else 0) +
        owed spec.keys held a k := hrest.returned a k
    have hsplit := Bitmap.count_gather_split spec.distinct bits keepBits k
    rw [owed_cons]
    dsimp only
    split
    · rename_i hzero
      -- nothing of this adapter's is left
      have hnone : ((bits.and keepBits).gather spec.keys).count k = 0 := by
        rw [Bitmap.gather, List.length_eq_zero_iff.1 hzero]
        rfl
      by_cases ha : a = adapter
      · rw [if_pos ha] at hreturned ⊢
        omega
      · rw [if_neg ha] at hreturned ⊢
        omega
    · rw [owed_cons]
      dsimp only
      by_cases ha : a = adapter
      · rw [if_pos ha] at hreturned ⊢
        rw [if_pos ha]
        omega
      · rw [if_neg ha] at hreturned ⊢
        rw [if_neg ha]
        omega

/-- With nothing to keep, nothing is held any longer. -/
theorem releaseL2Locks_nil (held : Plan n) (b : Books Key) :
    (spec.releaseL2Locks [] held b).1 = [] := by
  induction held generalizing b with
  | nil => rfl
  | cons p held ih =>
    obtain ⟨adapter, bits⟩ := p
    rw [PrefetchRequestSpec.releaseL2Locks]
    dsimp only
    rw [if_pos, ih]
    refine Bitmap.popcount_eq_zero.2 fun i => ?_
    exact Bool.and_false _

end Releasing

/-! ### Trimming -/

/-- What `fold_unfold_ranked` is trusted with: it retains some of what was found, more found is
no smaller a hit, and what it retains is enough for the hit. -/
structure Folds {n : Nat} (fold : Bitmap n → Nat × Bitmap n) : Prop where
  subset : ∀ found, (fold found).2.Within found
  mono : ∀ found found', found.Within found' → (fold found).1 ≤ (fold found').1
  serves : ∀ found, (fold (fold found).2).1 = (fold found).1

section Trimming

variable {Key : Type} {n : Nat} {spec : PrefetchRequestSpec Key n}

theorem Folds.retained_within (spec : PrefetchRequestSpec Key n) (h : Folds spec.fold)
    (found : Bitmap n) :
    (spec.buildTrimMask found).2.Within found := by
  rw [PrefetchRequestSpec.buildTrimMask]
  split
  · exact h.subset found
  · exact fun _ hi => hi

/-- What is retained is enough for the hit. -/
theorem Folds.hit_retained (h : Folds spec.fold) (found : Bitmap n) :
    (spec.buildTrimMask (spec.buildTrimMask found).2).1 = (spec.buildTrimMask found).1 := by
  cases hpolicy : spec.policy with
  | prefixRun =>
    simp only [PrefetchRequestSpec.buildTrimMask, hpolicy]
    exact h.serves found
  | segmentedPrefix => simp only [PrefetchRequestSpec.buildTrimMask, hpolicy]
  | sparse => simp only [PrefetchRequestSpec.buildTrimMask, hpolicy]

/-- **The hit does not depend on what is not retained.** -/
theorem Folds.hit_between (h : Folds spec.fold) {found found' : Bitmap n}
    (hlow : (spec.buildTrimMask found).2.Within found') (hhigh : found'.Within found) :
    (spec.buildTrimMask found').1 = (spec.buildTrimMask found).1 := by
  have hall : spec.policy ≠ .prefixRun → found' = found := by
    intro hpolicy
    have hmask : (spec.buildTrimMask found).2 = found := by
      rw [PrefetchRequestSpec.buildTrimMask]
      split
      · exact absurd ‹_› hpolicy
      · rfl
    rw [hmask] at hlow
    funext i
    exact Bool.eq_iff_iff.2 ⟨hhigh i, hlow i⟩
  cases hpolicy : spec.policy with
  | prefixRun =>
    simp only [PrefetchRequestSpec.buildTrimMask, hpolicy] at hlow ⊢
    refine le_antisymm (h.mono _ _ hhigh) ?_
    rw [← h.serves found]
    exact h.mono _ _ hlow
  | segmentedPrefix => rw [hall (by rw [hpolicy]; exact nofun)]
  | sparse => rw [hall (by rw [hpolicy]; exact nofun)]

end Trimming

/-! ### The balance of a request -/

section Balance

variable {Key : Type} [DecidableEq Key] {n : Nat}

/-- **What a request holds is what its fields say.** -/
structure Accounted (spec : PrefetchRequestSpec Key n) (r : InFlightPrefetchRequest Key n)
    (b : Books Key) : Prop where
  writes : ∀ k, b.writes k = r.writeReservedKeys.count k
  nodup : r.writeReservedKeys.Nodup
  reads : ∀ i, b.reads (spec.keys i) = if r.l1Readlocks i = true then 1 + spec.extraCount else 0
  others : ∀ k, (∀ i, spec.keys i ≠ k) → b.reads k = 0
  locks : ∀ a k, b.acquired a k = b.returned a k + owed spec.keys r.l2Readlocks a k
  unreadable : ∀ k ∈ b.granted, k ∈ r.writeReservedKeys ∨ b.readable k = false
  planned : ∀ i, Bitmap.merge r.loadPlan i = true →
    r.l1Readlocks i = false ∧ spec.keys i ∈ r.writeReservedKeys
  /-- the hit that was reported is that of something found of which the plan and the locks leave
  all that is retained -/
  hit : ∀ h ∈ r.reportedHit, ∃ found, h = (spec.buildTrimMask found).1 ∧
    (spec.buildTrimMask found).2.Within ((Bitmap.merge r.loadPlan).or r.l1Readlocks) ∧
    ((Bitmap.merge r.loadPlan).or r.l1Readlocks).Within found

/-- Every load that was submitted has succeeded. -/
def AllLoaded (r : InFlightPrefetchRequest Key n) : Prop :=
  ∀ p ∈ r.loadPlan, ∃ loaded, r.loadResults.lookup p.1 = some loaded ∧
    ∀ j < p.2.popcount, loaded j = true

/-- **What must hold of a request that is complete.** -/
structure Conserved (spec : PrefetchRequestSpec Key n) (r : InFlightPrefetchRequest Key n)
    (b : Books Key) (retained : Bitmap n) : Prop where
  /-- no write reservation is left -/
  writes : ∀ k, b.writes k = 0
  /-- each lookup lock has been returned exactly once -/
  returned : ∀ a k, b.returned a k = b.acquired a k
  /-- the keys that are retained are locked for each reader, and no others -/
  reads : ∀ i, b.reads (spec.keys i) =
    if spec.mode = .lookup ∧ retained i = true then 1 + spec.extraCount else 0
  others : ∀ k, (∀ i, spec.keys i ≠ k) → b.reads k = 0
  /-- an object that was reserved and can be read has been loaded -/
  readable : ∀ k ∈ b.granted, b.readable k = true →
    ∃ i, spec.keys i = k ∧ scatter r.loadPlan r.loadResults i = true
  /-- the hit of what is retained is the one that was reported -/
  hit : AllLoaded r → r.reportedHit = some (spec.buildTrimMask retained).1

/-- A request that has reserved nothing yet. -/
structure Fresh (r : InFlightPrefetchRequest Key n) : Prop where
  hit : r.reportedHit = none
  plan : r.loadPlan = []
  reserved : r.writeReservedKeys = []

/-- What holds of a request on its way, and of one that is complete. Before the load phase
nothing is reserved. -/
def Prefetch.Sound (spec : PrefetchRequestSpec Key n) : Prefetch Key n → Prop
  | .running r b => Accounted spec r b ∧ (r.phase = .lookup → Fresh r)
  | .completed r b retained => Conserved spec r b retained

variable {spec : PrefetchRequestSpec Key n} {r : InFlightPrefetchRequest Key n} {b : Books Key}

/-- Only what was planned is loaded. -/
theorem merge_of_scatter {plan : Plan n} {results : List (Nat × (Nat → Bool))} {i : Fin n}
    (h : scatter plan results i = true) : Bitmap.merge plan i = true := by
  obtain ⟨p, hp, hi⟩ := List.any_eq_true.1 h
  refine Bitmap.merge_iff.2 ⟨p, hp, ?_⟩
  split at hi
  · cases hi
  · obtain ⟨q, hq, hboth⟩ := List.any_eq_true.1 hi
    have hqi : q.1 = i := of_decide_eq_true (Bool.and_eq_true_iff.1 hboth).1
    rw [← hqi]
    exact Bitmap.mem_indices.1 (List.fst_mem_of_mem_zipIdx hq)

omit [DecidableEq Key] in
/-- Where all loads have succeeded, what was planned is loaded. -/
theorem AllLoaded.scatter_eq (h : AllLoaded r) :
    scatter r.loadPlan r.loadResults = Bitmap.merge r.loadPlan := by
  funext i
  refine Bool.eq_iff_iff.2 ⟨merge_of_scatter, fun hi => ?_⟩
  obtain ⟨p, hp, hpi⟩ := Bitmap.merge_iff.1 hi
  obtain ⟨loaded, hlookup, hall⟩ := h p hp
  refine List.any_eq_true.2 ⟨p, hp, ?_⟩
  rw [hlookup]
  obtain ⟨j, hj, hget⟩ := List.getElem_of_mem (Bitmap.mem_indices.2 hpi)
  refine List.any_eq_true.2 ⟨(i, j), ?_, ?_⟩
  · exact List.mem_zipIdx_iff_getElem?.2 (List.getElem?_eq_some_iff.2 ⟨hj, hget⟩)
  · rw [hall j hj]
    simp

end Balance

/-! ### The windows of a reservation -/

section Windows

variable {Key : Type} {n : Nat}

/-- The windows make up the keys. -/
theorem windows_perm (c : PrefetchController Key n) (keys : List Key) :
    List.Perm (c.windows keys).flatten keys := by
  rw [PrefetchController.windows, List.flatten_eq_flatMap, List.flatMap_assoc]
  have hslices : ∀ group : List Key,
      ((CacheContext.slices (max 1 c.l1ReserveBatchKeys) group).map Prod.snd).flatMap id =
        group := by
    intro group
    rw [List.flatMap_map]
    exact slices_flatMap (lt_of_lt_of_le Nat.zero_lt_one (le_max_left _ _)) group
  simp only [hslices]
  change List.Perm (List.flatMap id _) keys
  rw [List.flatMap_id, List.flatten_splitBy]
  exact List.perm_insertionSort _ keys

/-- There is one result for each key. -/
theorem reserveLoadBuffers_perm (c : PrefetchController Key n) (turn : Turn Key n)
    (keys : List Key) :
    List.Perm ((c.reserveLoadBuffers turn keys).map Prod.fst) keys := by
  refine List.Perm.trans (List.Perm.of_eq ?_) (windows_perm c keys)
  rw [PrefetchController.reserveLoadBuffers, List.map_flatMap, List.flatten_eq_flatMap]
  refine List.flatMap_congr fun window _ => ?_
  rw [List.map_map]
  exact List.map_id _

theorem keysWith_sublist (results : List (Key × WriteResult)) (result : WriteResult) :
    (keysWith results result).Sublist (results.map Prod.fst) :=
  List.filter_sublist.map _

variable {c : PrefetchController Key n} {turn : Turn Key n} {keys : List Key}

theorem reserved_nodup (h : keys.Nodup) (result : WriteResult) :
    (keysWith (c.reserveLoadBuffers turn keys) result).Nodup :=
  ((reserveLoadBuffers_perm c turn keys).nodup_iff.2 h).sublist (keysWith_sublist _ _)

theorem reserved_subset (result : WriteResult) :
    keysWith (c.reserveLoadBuffers turn keys) result ⊆ keys := fun _ hk =>
  (reserveLoadBuffers_perm c turn keys).mem_iff.1 ((keysWith_sublist _ _).subset hk)

/-- A reservation that is not short has all the keys. -/
theorem subset_reserved {result : WriteResult}
    (h : keys.length ≤ (keysWith (c.reserveLoadBuffers turn keys) result).length) :
    keys ⊆ keysWith (c.reserveLoadBuffers turn keys) result := by
  have hperm := reserveLoadBuffers_perm c turn keys
  have heq := (keysWith_sublist (c.reserveLoadBuffers turn keys) result).eq_of_length_le
    (hperm.length_eq.trans_le h)
  intro k hk
  rw [heq]
  exact hperm.mem_iff.2 hk

end Windows

section Steps

variable {Key : Type} [DecidableEq Key] {n : Nat}
variable {spec : PrefetchRequestSpec Key n} {r : InFlightPrefetchRequest Key n} {b : Books Key}

/-- **The only way to complete leaves nothing behind.** -/
theorem Accounted.finish (h : Accounted spec r b) (hfold : Folds spec.fold) :
    (spec.finishRequest r b).Sound spec := by
  have hreleased := returned_releaseL2Locks spec [] r.l2Readlocks b
  have hnothing := releaseL2Locks_nil spec r.l2Readlocks b
  rw [PrefetchRequestSpec.finishRequest]
  rcases hrelease : spec.releaseL2Locks [] r.l2Readlocks b with ⟨held, b'⟩
  rw [hrelease] at hreleased hnothing
  dsimp only at hnothing ⊢
  obtain ⟨hwrites, hreads, hgranted, hreadable, hacquired, hreturned⟩ := hreleased
  set loadedBitmap := scatter r.loadPlan r.loadResults with hloaded
  set loadedKeys := loadedBitmap.gather spec.keys with hloadedKeys
  set failedKeys := r.writeReservedKeys.filter fun k => k ∉ loadedKeys with hfailed
  have hplanned : ∀ i, loadedBitmap i = true →
      r.l1Readlocks i = false ∧ spec.keys i ∈ r.writeReservedKeys :=
    fun i hi => h.planned i (merge_of_scatter hi)
  have hloadedReserved : ∀ k ∈ loadedKeys, k ∈ r.writeReservedKeys := by
    intro k hk
    obtain ⟨i, rfl, hi⟩ := Bitmap.exists_of_mem_gather hk
    exact (hplanned i hi).2
  -- what was reserved is loaded or has failed
  have hcounts : ∀ k, (loadedKeys.count k : Int) + failedKeys.count k =
      r.writeReservedKeys.count k := by
    intro k
    have hperm : List.Perm (r.writeReservedKeys.filter fun k => decide (k ∈ loadedKeys))
        loadedKeys := by
      refine (List.perm_ext_iff_of_nodup (h.nodup.filter _)
        (Bitmap.gather_nodup spec.distinct _)).2 fun k => ?_
      rw [List.mem_filter, decide_eq_true_iff]
      exact ⟨fun hk => hk.2, fun hk => ⟨hloadedReserved k hk, hk⟩⟩
    have hsplit := (List.filter_append_perm (fun k => decide (k ∈ loadedKeys))
      r.writeReservedKeys).count_eq k
    rw [List.count_append, hperm.count_eq] at hsplit
    have hfailed' : failedKeys =
        r.writeReservedKeys.filter fun k => !decide (k ∈ loadedKeys) := by
      rw [hfailed]
      refine List.filter_congr fun k _ => ?_
      simp
    rw [hfailed', ← hsplit]
    push_cast
    rfl
  have hbalance : ∀ k, b'.writes k - loadedKeys.count k - failedKeys.count k = 0 := by
    intro k
    have hk := hcounts k
    rw [hwrites, h.writes k]
    omega
  have hback : ∀ a k, b'.returned a k = b'.acquired a k := by
    intro a k
    have hk := hreturned a k
    rw [hnothing] at hk
    rw [hacquired, h.locks a k]
    exact hk
  have hkept : ∀ k ∈ b'.granted, ((b'.readable k || decide (k ∈ loadedKeys) ||
      decide (k ∈ failedKeys)) && decide (k ∉ failedKeys)) = true →
      ∃ i, spec.keys i = k ∧ loadedBitmap i = true := by
    intro k hk hread
    rw [hgranted] at hk
    obtain ⟨hany, hnot⟩ := Bool.and_eq_true_iff.1 hread
    have hnot := of_decide_eq_true hnot
    by_cases hin : k ∈ loadedKeys
    · obtain ⟨i, hi, hbit⟩ := Bitmap.exists_of_mem_gather hin
      exact ⟨i, hi, hbit⟩
    · rcases h.unreadable k hk with hreserved | hunreadable
      · exact absurd (List.mem_filter.2 ⟨hreserved, decide_eq_true hin⟩) hnot
      · rw [hreadable, hunreadable, decide_eq_false hin, decide_eq_false hnot] at hany
        cases hany
  have hhit : AllLoaded r → some (r.reportedHit.getD
      (spec.buildTrimMask (loadedBitmap.or r.l1Readlocks)).1) =
      some (spec.buildTrimMask (spec.buildTrimMask (loadedBitmap.or r.l1Readlocks)).2).1 := by
    intro hall
    rw [hfold.hit_retained]
    cases hreported : r.reportedHit with
    | none => rfl
    | some hit =>
      obtain ⟨found, rfl, hlow, hhigh⟩ := h.hit hit hreported
      rw [hloaded, hall.scatter_eq, hfold.hit_between hlow hhigh]
      rfl
  have hsubset := hfold.retained_within spec (loadedBitmap.or r.l1Readlocks)
  cases hmode : spec.mode with
  | warm =>
    refine ⟨hbalance, hback, fun i => ?_, fun k hk => ?_, hkept, hhit⟩
    · dsimp only [Books.finishRead, Books.delete, Books.finishWrite]
      rw [hreads, h.reads i, Bitmap.count_gather spec.distinct]
      cases r.l1Readlocks i <;> simp [hmode]
    · dsimp only [Books.finishRead, Books.delete, Books.finishWrite]
      rw [hreads, h.others k hk, Bitmap.count_gather_other _ hk]
      simp
  | lookup =>
    refine ⟨hbalance, hback, fun i => ?_, fun k hk => ?_, hkept, hhit⟩
    · dsimp only [Books.finishRead, Books.delete, Books.finishWrite,
        Books.finishWriteAndReserveRead, Books.reserveRead]
      rw [hreads, h.reads i, hloadedKeys, Bitmap.count_gather spec.distinct,
        Bitmap.count_gather spec.distinct]
      have hi := hsubset i
      have hdisjoint := hplanned i
      cases hl : loadedBitmap i <;> cases hr : r.l1Readlocks i <;>
        cases hm : (spec.buildTrimMask (loadedBitmap.or r.l1Readlocks)).2 i <;>
        simp_all
    · dsimp only [Books.finishRead, Books.delete, Books.finishWrite,
        Books.finishWriteAndReserveRead, Books.reserveRead]
      rw [hreads, h.others k hk, hloadedKeys, Bitmap.count_gather_other _ hk,
        Bitmap.count_gather_other _ hk]
      simp

/-- The loads are submitted. -/
theorem Accounted.submit (h : Accounted spec r b) (hphase : r.phase = .planAndLoad)
    {plan : Plan n} {hitLength : Nat}
    (hplanned : ∀ i, Bitmap.merge plan i = true →
      r.l1Readlocks i = false ∧ spec.keys i ∈ r.writeReservedKeys)
    (hhit : ∃ found, hitLength = (spec.buildTrimMask found).1 ∧
      (spec.buildTrimMask found).2.Within ((Bitmap.merge plan).or r.l1Readlocks) ∧
      ((Bitmap.merge plan).or r.l1Readlocks).Within found) :
    (spec.submitLoads r b plan hitLength).Sound spec := by
  have hreleased := returned_releaseL2Locks spec plan r.l2Readlocks b
  rw [PrefetchRequestSpec.submitLoads]
  rcases hrelease : spec.releaseL2Locks plan r.l2Readlocks b with ⟨held, b'⟩
  rw [hrelease] at hreleased
  obtain ⟨hwrites, hreads, hgranted, hreadable, hacquired, hreturned⟩ := hreleased
  dsimp only at hwrites hreads hgranted hreadable hacquired hreturned ⊢
  refine ⟨⟨fun k => ?_, h.nodup, fun i => ?_, fun k hk => ?_, fun a k => ?_, fun k hk => ?_,
    hplanned, fun hit hsome => ?_⟩, fun hlookup => ?_⟩
  · rw [hwrites]
    exact h.writes k
  · rw [hreads]
    exact h.reads i
  · rw [hreads]
    exact h.others k hk
  · rw [hacquired, h.locks a k]
    exact (hreturned a k).symm
  · rw [hgranted] at hk
    rw [hreadable]
    exact h.unreadable k hk
  · obtain rfl := Option.some.inj hsome
    exact hhit
  · cases hphase.symm.trans hlookup

/-- Where nothing is planned yet, the other fields say it all. -/
theorem Accounted.ofFresh {r' : InFlightPrefetchRequest Key n} {b' : Books Key}
    (hplan : r'.loadPlan = []) (hhit : r'.reportedHit = none)
    (hwrites : ∀ k, b'.writes k = r'.writeReservedKeys.count k)
    (hnodup : r'.writeReservedKeys.Nodup)
    (hreads : ∀ i, b'.reads (spec.keys i) =
      if r'.l1Readlocks i = true then 1 + spec.extraCount else 0)
    (hothers : ∀ k, (∀ i, spec.keys i ≠ k) → b'.reads k = 0)
    (hlocks : ∀ a k, b'.acquired a k = b'.returned a k + owed spec.keys r'.l2Readlocks a k)
    (hunreadable : ∀ k ∈ b'.granted, k ∈ r'.writeReservedKeys ∨ b'.readable k = false) :
    Accounted spec r' b' := by
  refine ⟨hwrites, hnodup, hreads, hothers, hlocks, hunreadable, fun i hi => ?_,
    fun hit hsome => ?_⟩
  · rw [hplan] at hi
    cases hi
  · rw [hhit] at hsome
    cases hsome

/-- What was reserved and is not planned any longer is dropped. -/
theorem Accounted.drop (h : Accounted spec r b) (hplan : r.loadPlan = [])
    (hhit : r.reportedHit = none) (planned : List Key) :
    Accounted spec
      { r with writeReservedKeys := r.writeReservedKeys.filter fun k => k ∈ planned }
      ((b.finishWrite (r.writeReservedKeys.filter fun k => k ∉ planned)).delete
        (r.writeReservedKeys.filter fun k => k ∉ planned)) := by
  have hdropped : (r.writeReservedKeys.filter fun k => decide (k ∉ planned)) =
      r.writeReservedKeys.filter fun k => !decide (k ∈ planned) :=
    List.filter_congr fun k _ => by simp
  refine .ofFresh hplan hhit (fun k => ?_) (h.nodup.filter _) h.reads h.others h.locks
    fun k hk => ?_
  · have hsplit := (List.filter_append_perm (fun k => decide (k ∈ planned))
      r.writeReservedKeys).count_eq k
    rw [List.count_append, ← hdropped] at hsplit
    have hwrites := h.writes k
    dsimp only [Books.delete, Books.finishWrite]
    omega
  · dsimp only [Books.delete, Books.finishWrite]
    by_cases hin : k ∈ r.writeReservedKeys
    · by_cases hkept : k ∈ planned
      · exact .inl (List.mem_filter.2 ⟨hin, decide_eq_true hkept⟩)
      · right
        have hmem : k ∈ r.writeReservedKeys.filter fun k => decide (k ∉ planned) :=
          List.mem_filter.2 ⟨hin, decide_eq_true hkept⟩
        rw [decide_eq_false (not_not.2 hmem), Bool.and_false]
    · right
      have hnot : k ∉ r.writeReservedKeys.filter fun k => decide (k ∉ planned) :=
        fun hmem => hin (List.mem_of_mem_filter hmem)
      rw [(h.unreadable k hk).resolve_left hin, decide_eq_false hnot]
      rfl

/-- The load is truncated to what was reserved. -/
theorem Accounted.truncate (h : Accounted spec r b) (hfold : Folds spec.fold)
    (hphase : r.phase = .planAndLoad) (hplan : r.loadPlan = []) (hhit : r.reportedHit = none)
    {plan : Plan n}
    (hdisjoint : ∀ i, Bitmap.merge plan i = true → r.l1Readlocks i = false)
    (hreserved : ∀ i, spec.keys i ∈ r.writeReservedKeys → Bitmap.merge plan i = true) :
    (spec.truncate r b plan r.writeReservedKeys).Sound spec := by
  rw [PrefetchRequestSpec.truncate]
  dsimp only
  set found : Bitmap n :=
    Bitmap.or (fun i => decide (spec.keys i ∈ r.writeReservedKeys)) r.l1Readlocks with hfound
  set plan' := trimLoadPlanWithMask plan (spec.buildTrimMask found).2 with hplan'
  have hdropped := h.drop hplan hhit ((Bitmap.merge plan').gather spec.keys)
  split
  · exact hdropped.finish hfold
  · have hwithin := hfold.retained_within spec found
    have hmerge : ∀ i, Bitmap.merge plan' i =
        (Bitmap.merge plan i && (spec.buildTrimMask found).2 i) := Bitmap.merge_trim _ _
    refine hdropped.submit hphase (fun i hi => ?_) ⟨found, rfl, fun i hi => ?_, fun i hi => ?_⟩
    · have hboth := Bool.and_eq_true_iff.1 ((hmerge i).symm.trans hi)
      have hfree := hdisjoint i hboth.1
      refine ⟨hfree, List.mem_filter.2 ⟨?_, ?_⟩⟩
      · have hin := hwithin i hboth.2
        rw [hfound, Bitmap.or_apply, hfree, Bool.or_false] at hin
        exact of_decide_eq_true hin
      · exact decide_eq_true ((Bitmap.mem_gather spec.distinct).2 hi)
    · rw [Bitmap.or_apply, Bool.or_eq_true, hmerge, Bool.and_eq_true]
      have hin := hwithin i hi
      rw [hfound, Bitmap.or_apply, Bool.or_eq_true] at hin
      exact hin.imp_left fun hin => ⟨hreserved i (of_decide_eq_true hin), hi⟩
    · rw [Bitmap.or_apply, Bool.or_eq_true, hmerge, Bool.and_eq_true] at hi
      rcases hi with hi | hi
      · exact hwithin i hi.2
      · rw [hfound, Bitmap.or_apply, hi, Bool.or_true]

variable {c : PrefetchController Key n} {turn : Turn Key n}

/-- The buffers are reserved, and whatever becomes of it is accounted for. -/
theorem Accounted.reserve (h : Accounted spec r b) (hfold : Folds spec.fold) (hfresh : Fresh r)
    (hphase : r.phase = .planAndLoad) {plan : Plan n} {hitLength : Nat}
    (hdisjoint : ∀ i, Bitmap.merge plan i = true → r.l1Readlocks i = false)
    (hhit : ∃ found, hitLength = (spec.buildTrimMask found).1 ∧
      (spec.buildTrimMask found).2.Within ((Bitmap.merge plan).or r.l1Readlocks) ∧
      ((Bitmap.merge plan).or r.l1Readlocks).Within found) :
    (spec.reserveAndSubmit c turn r b plan hitLength).Sound spec := by
  rw [PrefetchRequestSpec.reserveAndSubmit]
  set keysToReserve := (Bitmap.merge plan).gather spec.keys with hkeys
  set reserved := keysWith (c.reserveLoadBuffers turn keysToReserve) .success with hreserved
  have hnodup : reserved.Nodup := reserved_nodup (Bitmap.gather_nodup spec.distinct _) _
  have hsubset : reserved ⊆ keysToReserve := reserved_subset _
  have haccounted : Accounted spec
      { r with writeReservedKeys := r.writeReservedKeys ++ reserved } (b.reserveWrite reserved) := by
    refine .ofFresh hfresh.plan hfresh.hit (fun k => ?_) ?_ h.reads h.others h.locks fun k hk => ?_
    · dsimp only [Books.reserveWrite]
      rw [h.writes k, List.count_append]
      push_cast
      rfl
    · dsimp only
      rw [hfresh.reserved]
      exact hnodup
    · dsimp only [Books.reserveWrite] at hk ⊢
      rcases List.mem_append.1 hk with hold | hnew
      · have hunreadable := (h.unreadable k hold).resolve_left (by rw [hfresh.reserved]; exact nofun)
        right
        rw [hunreadable]
        rfl
      · exact .inl (List.mem_append_right _ hnew)
  have hall : r.writeReservedKeys ++ reserved = reserved := by rw [hfresh.reserved]; rfl
  rw [hall] at haccounted ⊢
  split
  · exact haccounted.finish hfold
  · split
    · split
      · exact haccounted.finish hfold
      · refine haccounted.truncate hfold hphase hfresh.plan hfresh.hit hdisjoint fun i hi => ?_
        exact (Bitmap.mem_gather spec.distinct).1 (hsubset hi)
    · rename_i hnot
      refine haccounted.submit hphase (fun i hi => ⟨hdisjoint i hi, ?_⟩) hhit
      exact subset_reserved (Nat.le_of_not_lt hnot) ((Bitmap.mem_gather spec.distinct).2 hi)

/-- Some of the read locks are given back. -/
theorem Accounted.unlock (h : Accounted spec r b) (hfresh : Fresh r) (released kept : Bitmap n)
    (hsplit : ∀ i, r.l1Readlocks i = true →
      (released i = true ∧ kept i = false ∨ released i = false ∧ kept i = true))
    (hnone : ∀ i, r.l1Readlocks i = false → released i = false ∧ kept i = false) :
    Accounted spec { r with l1Readlocks := kept }
      (b.finishRead (released.gather spec.keys) spec.extraCount) := by
  refine .ofFresh hfresh.plan hfresh.hit h.writes h.nodup (fun i => ?_) (fun k hk => ?_) h.locks
    h.unreadable
  · dsimp only [Books.finishRead]
    rw [h.reads i, Bitmap.count_gather spec.distinct]
    cases hlocked : r.l1Readlocks i with
    | true =>
      rcases hsplit i hlocked with ⟨hr, hk⟩ | ⟨hr, hk⟩
      · simp [hr, hk]
      · simp [hr, hk]
    | false =>
      obtain ⟨hr, hk⟩ := hnone i hlocked
      simp [hr, hk]
  · dsimp only [Books.finishRead]
    rw [h.others k hk, Bitmap.count_gather_other _ hk]
    simp

/-- **The transition to the load phase**, with each of its exits. -/
theorem Accounted.transition (h : Accounted spec r b) (hfold : Folds spec.fold) (hfresh : Fresh r) :
    (spec.transitionToLoadPhase c turn r b).Sound spec := by
  rw [PrefetchRequestSpec.transitionToLoadPhase]
  dsimp only
  set loadPlan := trimLoadPlanWithMask (c.selectLoadPlan r.lookupResults turn.routing)
    r.l1Readlocks.not with hloadPlan
  set found := (Bitmap.merge loadPlan).or r.l1Readlocks with hfound
  have hphase : Accounted spec { r with phase := .planAndLoad } b :=
    ⟨h.writes, h.nodup, h.reads, h.others, h.locks, h.unreadable, h.planned, h.hit⟩
  split
  · exact hphase.finish hfold
  · set retained := (spec.buildTrimMask found).2 with hretained
    set fallback := (spec.buildTrimMask r.l1Readlocks).2 with hfallback
    have hfree : ∀ i, Bitmap.merge loadPlan i = true → r.l1Readlocks i = false := by
      intro i hi
      rw [hloadPlan, Bitmap.merge_trim] at hi
      have hnot := (Bool.and_eq_true_iff.1 hi).2
      rwa [Bitmap.not_apply, Bool.not_eq_true'] at hnot
    have hmerge : ∀ i, Bitmap.merge (trimLoadPlanWithMask loadPlan retained) i =
        (Bitmap.merge loadPlan i && retained i) := Bitmap.merge_trim _ _
    have hunlocked : Accounted spec
        { r with
          phase := .planAndLoad
          l1Readlocks := r.l1Readlocks.and (retained.or fallback) }
        (b.finishRead (((r.l1Readlocks.and retained.not).and fallback.not).gather spec.keys)
          spec.extraCount) := by
      refine hphase.unlock ⟨hfresh.hit, hfresh.plan, hfresh.reserved⟩ _ _ (fun i hi => ?_)
        fun i hi => ?_
      · have hi : r.l1Readlocks i = true := hi
        simp only [Bitmap.and_apply, Bitmap.or_apply, Bitmap.not_apply, hi]
        cases retained i <;> cases fallback i <;> simp
      · have hi : r.l1Readlocks i = false := hi
        simp [hi]
    refine hunlocked.reserve hfold ⟨hfresh.hit, hfresh.plan, hfresh.reserved⟩ rfl (fun i hi => ?_)
      ⟨found, rfl, fun i hi => ?_, fun i hi => ?_⟩
    · rw [hmerge] at hi
      dsimp only
      rw [Bitmap.and_apply, hfree i (Bool.and_eq_true_iff.1 hi).1, Bool.false_and]
    · have hin := hfold.retained_within spec found i hi
      rw [hfound, Bitmap.or_apply, Bool.or_eq_true] at hin
      have hi : retained i = true := hi
      change (Bitmap.merge (trimLoadPlanWithMask loadPlan retained) i ||
        (r.l1Readlocks i && (retained i || fallback i))) = true
      rw [hmerge, hi, Bool.and_true, Bool.true_or, Bool.and_true, Bool.or_eq_true]
      exact hin
    · have hi : (Bitmap.merge (trimLoadPlanWithMask loadPlan retained) i ||
        (r.l1Readlocks i && (retained i || fallback i))) = true := hi
      rw [hmerge, Bool.or_eq_true, Bool.and_eq_true, Bool.and_eq_true] at hi
      rw [hfound, Bitmap.or_apply, Bool.or_eq_true]
      exact hi.imp And.left And.left

/-- A turn in which lookups arrive. -/
theorem Accounted.pollLookup (turn : Turn Key n) (pending : List Nat) (h : Accounted spec r b)
    (hfresh : Fresh r) :
    Accounted spec (spec.pollLookupResults turn pending r b).1
        (spec.pollLookupResults turn pending r b).2 ∧
      Fresh (spec.pollLookupResults turn pending r b).1 := by
  induction pending generalizing r b with
  | nil => exact ⟨h, hfresh⟩
  | cons adapter pending ih =>
    rw [PrefetchRequestSpec.pollLookupResults]
    split
    · exact ih h hfresh
    · rename_i result _
      refine ih ?_ ⟨hfresh.hit, hfresh.plan, hfresh.reserved⟩
      refine .ofFresh hfresh.plan hfresh.hit h.writes h.nodup h.reads h.others (fun a k => ?_)
        h.unreadable
      dsimp only [Books.lookedUp]
      have hnil : owed spec.keys [] a k = 0 := rfl
      rw [h.locks a k, owed_append, owed_cons, hnil]
      dsimp only
      omega

omit [DecidableEq Key] in
/-- Loads that arrive change only the results. -/
theorem pollLoadResults_eq (turn : Turn Key n) (pending : List Nat)
    (r : InFlightPrefetchRequest Key n) : ∃ results tasks, pollLoadResults turn pending r =
      { r with loadResults := results, pendingLoadTasks := tasks } := by
  induction pending generalizing r with
  | nil => exact ⟨_, _, rfl⟩
  | cons adapter pending ih =>
    rw [pollLoadResults]
    split
    · exact ih r
    · obtain ⟨results, tasks, heq⟩ := ih _
      exact ⟨results, tasks, heq⟩

/-- **The L1 lock pass.** -/
theorem accounted_lockL1Keys (spec : PrefetchRequestSpec Key n) (readable : Key → Bool)
    (pending : List Nat) :
    Accounted spec
      { phase := .lookup
        pendingLookupTasks := pending
        lookupResults := []
        l2Readlocks := []
        reportedHit := none
        loadPlan := []
        pendingLoadTasks := []
        loadResults := []
        writeReservedKeys := []
        l1Readlocks := (spec.lockL1Keys (.start readable)).1 }
      (spec.lockL1Keys (.start readable)).2 := by
  set resident : Bitmap n := fun i => readable (spec.keys i) with hresident
  have hall : Accounted spec
      { phase := .lookup
        pendingLookupTasks := pending
        lookupResults := []
        l2Readlocks := []
        reportedHit := none
        loadPlan := []
        pendingLoadTasks := []
        loadResults := []
        writeReservedKeys := []
        l1Readlocks := resident }
      ((Books.start readable).reserveRead (resident.gather spec.keys) spec.extraCount) := by
    refine .ofFresh rfl rfl (fun k => rfl) List.nodup_nil (fun i => ?_) (fun k hk => ?_)
      (fun a k => rfl) nofun
    · dsimp only [Books.reserveRead, Books.start]
      rw [Bitmap.count_gather spec.distinct]
      rcases Bool.eq_false_or_eq_true (resident i) with hbit | hbit
      · simp [hbit]
      · simp [hbit]
    · dsimp only [Books.reserveRead, Books.start]
      rw [Bitmap.count_gather_other _ hk]
      simp
  rw [PrefetchRequestSpec.lockL1Keys]
  split
  · refine hall.unlock ⟨rfl, rfl, rfl⟩ _ _ (fun i hi => ?_) fun i hi => ?_
    · have hi : readable (spec.keys i) = true := hi
      simp only [Bitmap.and_apply, Bitmap.not_apply, Books.start, hi, Bool.true_and]
      generalize (!(spec.buildTrimMask _).2 i && Bitmap.leading _ i) = bit
      cases bit <;> simp
    · have hi : readable (spec.keys i) = false := hi
      simp [Books.start, hi]
  · exact hall

/-- The lock pass, with what follows it where no adapter is there. -/
theorem sound_startLookupPhase (hfold : Folds spec.fold) (readable : Key → Bool)
    (routing : List Nat) : (spec.startLookupPhase readable routing).Sound spec := by
  have hlocked := accounted_lockL1Keys spec readable routing
  rw [PrefetchRequestSpec.startLookupPhase]
  rcases hlock : spec.lockL1Keys (.start readable) with ⟨l1Readlocks, b⟩
  rw [hlock] at hlocked
  dsimp only at hlocked ⊢
  split
  · exact hlocked.finish hfold
  · exact ⟨hlocked, fun _ => ⟨rfl, rfl, rfl⟩⟩

/-- **A turn of the loop.** -/
theorem Prefetch.Sound.advance (hfold : Folds spec.fold) (turn : Turn Key n) {p : Prefetch Key n}
    (h : p.Sound spec) : (spec.advanceRequest c turn p).Sound spec := by
  cases p with
  | completed r b retained => exact h
  | running r b =>
    obtain ⟨haccounted, hfresh⟩ := h
    rw [PrefetchRequestSpec.advanceRequest]
    split
    · rename_i hphase
      split
      · exact ⟨haccounted, hfresh⟩
      · obtain ⟨hpolled, hstill⟩ :=
          haccounted.pollLookup turn r.pendingLookupTasks (hfresh hphase)
        dsimp only
        split
        · exact hpolled.transition hfold hstill
        · exact ⟨hpolled, fun _ => hstill⟩
    · rename_i hphase
      split
      · exact ⟨haccounted, hfresh⟩
      · obtain ⟨results, tasks, heq⟩ := pollLoadResults_eq turn r.pendingLoadTasks r
        dsimp only
        rw [heq]
        have hpolled : Accounted spec { r with loadResults := results, pendingLoadTasks := tasks } b :=
          ⟨haccounted.writes, haccounted.nodup, haccounted.reads, haccounted.others, haccounted.locks,
            haccounted.unreadable, haccounted.planned, haccounted.hit⟩
        split
        · exact hpolled.finish hfold
        · exact ⟨hpolled, fun hlookup => by cases hphase.symm.trans hlookup⟩

/-- **Whatever a request meets, it is accounted for**, and conserves what it took when it is complete. -/
theorem sound_run (c : PrefetchController Key n) (hfold : Folds spec.fold)
    (readable : Key → Bool) (routing : List Nat) (turns : List (Turn Key n)) :
    (spec.run c readable routing turns).Sound spec := by
  have hstart := sound_startLookupPhase hfold readable routing
  rw [PrefetchRequestSpec.run]
  generalize spec.startLookupPhase readable routing = p at hstart
  induction turns generalizing p with
  | nil => exact hstart
  | cons turn turns ih => exact ih _ (hstart.advance hfold turn)

/-- **A prefetch conserves its locks**, in every run that completes. -/
theorem prefetch_conserves (spec : PrefetchRequestSpec Key n) (c : PrefetchController Key n)
    (hfold : Folds spec.fold) (readable : Key → Bool) (routing : List Nat)
    (turns : List (Turn Key n)) (r : InFlightPrefetchRequest Key n) (b : Books Key)
    (retained : Bitmap n) (hrun : spec.run c readable routing turns = .completed r b retained) :
    Conserved spec r b retained := by
  have hsound := sound_run c hfold readable routing turns
  rw [hrun] at hsound
  exact hsound

/-- **A request that is stopped** gives back everything it knows of. -/
theorem cleanup_conserves (h : Accounted spec r b) (hfresh : r.phase = .lookup → Fresh r) :
    (∀ k, (spec.cleanupInFlight r b).writes k = 0) ∧
      (∀ k, (spec.cleanupInFlight r b).reads k = 0) ∧
      ∀ a k, (spec.cleanupInFlight r b).returned a k = (spec.cleanupInFlight r b).acquired a k := by
  have hgiven : ∃ b', b'.reads = b.reads ∧ b'.acquired = b.acquired ∧ b'.returned = b.returned ∧
      (∀ k, b'.writes k = 0) ∧ spec.cleanupInFlight r b =
        (spec.releaseL2Locks [] r.l2Readlocks b').2.finishRead
          (r.l1Readlocks.gather spec.keys) spec.extraCount := by
    cases hphase : r.phase with
    | lookup =>
      refine ⟨b, rfl, rfl, rfl, fun k => ?_, ?_⟩
      · rw [h.writes k, (hfresh hphase).reserved]
        rfl
      · rw [PrefetchRequestSpec.cleanupInFlight, hphase]
    | planAndLoad =>
      refine ⟨(b.finishWrite r.writeReservedKeys).delete r.writeReservedKeys, rfl, rfl, rfl,
        fun k => ?_, ?_⟩
      · exact sub_eq_zero.2 (h.writes k)
      · rw [PrefetchRequestSpec.cleanupInFlight, hphase]
  obtain ⟨b', hreads, hacquired, hreturned, hwrites, heq⟩ := hgiven
  rw [heq]
  have hreleased := returned_releaseL2Locks spec [] r.l2Readlocks b'
  rw [releaseL2Locks_nil] at hreleased
  refine ⟨fun k => ?_, fun k => ?_, fun a k => ?_⟩
  · dsimp only [Books.finishRead]
    rw [hreleased.writes, hwrites]
  · dsimp only [Books.finishRead]
    rw [hreleased.reads, hreads]
    by_cases hk : ∃ i, spec.keys i = k
    · obtain ⟨i, rfl⟩ := hk
      rw [h.reads i, Bitmap.count_gather spec.distinct]
      cases r.l1Readlocks i <;> simp
    · have hnot : ∀ i, spec.keys i ≠ k := fun i hi => hk ⟨i, hi⟩
      rw [h.others k hnot, Bitmap.count_gather_other _ hnot]
      simp
  · dsimp only [Books.finishRead]
    rw [hreleased.acquired, hacquired, h.locks a k, ← hreturned]
    exact hreleased.returned a k

end Steps

/-! ### Two keys -/

/-- `fold_unfold_ranked` for full attention and one key a chunk: the run of keys at the start. -/
def leadingRun {n : Nat} (found : Bitmap n) : Nat × Bitmap n :=
  (found.countLeadingOnes, fun i => i.val < found.countLeadingOnes)

/-- A fold that counts what was found, and does not retain the last key. -/
def allButLast (found : Bitmap 2) : Nat × Bitmap 2 :=
  (found.popcount, fun i => found i && i.val < 1)

/-- A request of two keys, both of them only in L2. -/
def twoKeys (fold : Bitmap 2 → Nat × Bitmap 2) : PrefetchRequestSpec Nat 2 where
  keys i := i.val
  distinct := Fin.val_injective
  extraCount := 1
  policy := .prefixRun
  mode := .lookup
  stride := 1
  fold := fold

/-- A controller that loads whatever the lookups have found. -/
def loadsAll : PrefetchController Nat 2 where
  selectLoadPlan results _ := results
  objectGroupId _ := 0
  l1ReserveBatchKeys := 32

/-- A turn in which everything succeeds. -/
def goodTurn : Turn Nat 2 where
  lookupSignals := [0]
  queryLookup _ := some fun _ => true
  loadSignals := [0]
  queryLoad _ := some fun _ => true
  routing := [0]
  reserveWrite _ _ := .success

/-- **More than a subset and more than monotone is needed**: this fold is both, and where both
loads of the plan succeed the hit of what is retained is not the one that was reported. -/
theorem allButLast_not_conserved :
    (∀ found, (allButLast found).2.Within found) ∧
      (∀ found found', found.Within found' → (allButLast found).1 ≤ (allButLast found').1 ∧
        (allButLast found).2.Within (allButLast found').2) ∧
      ∃ r b retained, (twoKeys allButLast).run loadsAll (fun _ => false) [0] [goodTurn, goodTurn] =
          .completed r b retained ∧ AllLoaded r ∧
        r.reportedHit ≠ some ((twoKeys allButLast).buildTrimMask retained).1 := by
  refine ⟨fun found i hi => (Bool.and_eq_true_iff.1 hi).1, fun found found' h => ⟨?_, ?_⟩,
    _, _, _, rfl, ?_, ?_⟩
  · exact (List.monotone_filter_right _ h).length_le
  · intro i hi
    obtain ⟨hfound, hfirst⟩ := Bool.and_eq_true_iff.1 hi
    exact Bool.and_eq_true_iff.2 ⟨h i hfound, hfirst⟩
  · intro p hp
    exact ⟨fun _ => true, by rw [List.mem_singleton.1 hp]; rfl, fun _ _ => rfl⟩
  · -- two keys were found, and one is retained
    exact fun h => by cases h

theorem folds_leadingRun : Folds (leadingRun : Bitmap 2 → Nat × Bitmap 2) := by
  constructor
  · unfold Bitmap.Within
    decide
  · unfold Bitmap.Within
    decide
  · decide

/-- Both keys are loaded, and locked for two readers. -/
theorem twoKeys_conserved : ∃ r b retained,
    (twoKeys leadingRun).run loadsAll (fun _ => false) [0] [goodTurn, goodTurn] =
      .completed r b retained ∧ Conserved (twoKeys leadingRun) r b retained ∧ b.reads 1 = 2 :=
  ⟨_, _, _, rfl, prefetch_conserves (twoKeys leadingRun) loadsAll folds_leadingRun
    (fun _ => false) [0] [goodTurn, goodTurn] _ _ _ rfl, rfl⟩

end Lmcache

end DgxSpark
