import DgxSpark.Lmcache.SharedBlocks

/-!
# The places of a request's blocks

The scan for invalid blocks goes through the block table of a request group by group, and marks
each block that it finds invalid. A block that it has marked it passes over, whether the mark is of
an earlier request or of an earlier place in the same table: groups in lockstep have the same block
ids. So what truncates a request is the first place of a block only, among those that begin before
the end of its computed tokens (`DgxSpark.Lmcache.Scheduler.Foremost`), and
`DgxSpark.Lmcache.Scheduler.updateRequests_truncates` says what one scan over any requests leaves
of one of them.
-/

namespace DgxSpark

namespace Lmcache

/-! ### Where a block stands -/

/-- A block of a request: the position of its first token, and whether it stands for one. -/
structure Place where
  block : Nat
  start : Nat
  prefixIndexed : Bool
deriving DecidableEq, Repr

/-- How many tokens are valid when the block is not. -/
def Place.validTokens (p : Place) : Nat := if p.prefixIndexed then p.start else 0

theorem Place.validTokens_indexed {p : Place} (h : p.prefixIndexed = true) :
    p.validTokens = p.start := if_pos h

theorem le_foldl_min {l : List Nat} {a k : Nat} : k ≤ l.foldl min a ↔ k ≤ a ∧ ∀ x ∈ l, k ≤ x := by
  induction l generalizing a with
  | nil => simp
  | cons x l ih =>
    rw [List.foldl_cons, ih, le_min_iff, List.forall_mem_cons, and_assoc]

namespace Scheduler

/-- The places of a group. -/
def groupPlaces (p : KvCacheGroup × List Nat) : List Place :=
  p.2.zipIdx.map fun q => ⟨q.1, q.2 * p.1.blockSize, p.1.prefixIndexed⟩

/-- The places of a request, in its block table. -/
def blockPlaces (cfg : SchedulerConfig) (blocks : List (List Nat)) : List Place :=
  (cfg.kvCacheGroups.zip blocks).flatMap groupPlaces

instance (cfg : SchedulerConfig) (invalid : Finset Nat) (b : Nat) :
    Decidable (Hits cfg invalid b) :=
  inferInstanceAs (Decidable (_ ∧ _))

/-- A block that is reported, is not the null block, and was not marked before. -/
def Fails (cfg : SchedulerConfig) (invalid marked : Finset Nat) (b : Nat) : Prop :=
  Hits cfg invalid b ∧ b ∉ marked

instance (cfg : SchedulerConfig) (invalid marked : Finset Nat) (b : Nat) :
    Decidable (Fails cfg invalid marked b) :=
  inferInstanceAs (Decidable (_ ∧ _))

/-- **The first place of its block**, among those that begin before the end of `n` tokens. -/
def Foremost (n : Nat) (places : List Place) (p : Place) : Prop :=
  places.find? (fun q => q.start < n ∧ q.block = p.block) = some p

instance (n : Nat) (places : List Place) (p : Place) : Decidable (Foremost n places p) :=
  inferInstanceAs (Decidable (_ = _))

/-- **The truncation of a scan**: the least number of valid tokens, over the first places of the
blocks that fail. -/
def truncate (cfg : SchedulerConfig) (invalid marked : Finset Nat) (places : List Place)
    (n : Nat) : Nat :=
  ((places.filter fun p => Fails cfg invalid marked p.block ∧ Foremost n places p).map
    Place.validTokens).foldl min n

section Places

variable {cfg : SchedulerConfig} {invalid marked : Finset Nat} {places : List Place} {n k : Nat}
  {p : Place}

theorem Foremost.mem (h : Foremost n places p) : p ∈ places := List.mem_of_find?_eq_some h

theorem Foremost.lt (h : Foremost n places p) : p.start < n := by
  have hsome := List.find?_some h
  exact (of_decide_eq_true hsome).1

/-- A block with a place among the first `n` tokens has a first one. -/
theorem exists_foremost (hp : p ∈ places) (hlt : p.start < n) :
    ∃ q, Foremost n places q ∧ q.block = p.block := by
  cases hfind : places.find? (fun q => q.start < n ∧ q.block = p.block) with
  | none => exact absurd (decide_eq_true ⟨hlt, rfl⟩) (List.find?_eq_none.1 hfind p hp)
  | some q =>
    have hsome := List.find?_some hfind
    have hblock : q.block = p.block := (of_decide_eq_true hsome).2
    refine ⟨q, ?_, hblock⟩
    rw [Foremost, hblock]
    exact hfind

/-- The first place stays the first one when fewer tokens are computed, as long as it is one of
theirs. -/
theorem Foremost.anti {m : Nat} (h : Foremost n places p) (hmn : m ≤ n) (hlt : p.start < m) :
    Foremost m places p := by
  obtain ⟨-, before, behind, rfl, hbefore⟩ := List.find?_eq_some_iff_append.1 h
  refine List.find?_eq_some_iff_append.2 ⟨decide_eq_true ⟨hlt, rfl⟩, before, behind, rfl,
    fun q hq => ?_⟩
  have hnot := hbefore q hq
  rw [Bool.not_eq_true', decide_eq_false_iff_not] at hnot ⊢
  exact fun h => hnot ⟨h.1.trans_le hmn, h.2⟩

theorem le_truncate : k ≤ truncate cfg invalid marked places n ↔
    k ≤ n ∧ ∀ p, Foremost n places p → Fails cfg invalid marked p.block → k ≤ p.validTokens := by
  rw [truncate, le_foldl_min]
  refine and_congr_right fun _ => ?_
  simp only [List.forall_mem_map, List.mem_filter, decide_eq_true_eq, and_imp]
  exact ⟨fun h p hfirst hfails => h p hfirst.mem hfails hfirst,
    fun h p _ hfails hfirst => h p hfirst hfails⟩

theorem truncate_le : truncate cfg invalid marked places n ≤ n := (le_truncate.1 le_rfl).1

theorem truncate_le_of_foremost (hfirst : Foremost n places p)
    (hfails : Fails cfg invalid marked p.block) :
    truncate cfg invalid marked places n ≤ p.validTokens :=
  (le_truncate.1 le_rfl).2 p hfirst hfails

/-- A truncation is the number of tokens that it began with, or the position of a first place. -/
theorem truncate_attained (h : truncate cfg invalid marked places n < n) :
    ∃ p, Foremost n places p ∧ Fails cfg invalid marked p.block ∧
      p.validTokens = truncate cfg invalid marked places n := by
  by_contra hnone
  push Not at hnone
  have hle : truncate cfg invalid marked places n + 1 ≤ truncate cfg invalid marked places n := by
    refine le_truncate.2 ⟨h, fun p hfirst hfails => ?_⟩
    have hle := truncate_le_of_foremost hfirst hfails
    have hne := hnone p hfirst hfails
    omega
  omega

/-! ### What a scan comes to -/

/-- A block of a group, as the scan comes to it. -/
def scanAt (cfg : SchedulerConfig) (invalid : Finset Nat) (scan : Scan)
    (x : (KvCacheGroup × List Nat) × Nat × Nat) : Scan :=
  scanBlock cfg invalid x.1.1 x.1.2 scan x.2

/-- The place of it. -/
def placeAt (x : (KvCacheGroup × List Nat) × Nat × Nat) : Place :=
  ⟨x.2.1, x.2.2 * x.1.1.blockSize, x.1.1.prefixIndexed⟩

/-- What the scan of a request comes to. -/
def scanned (cfg : SchedulerConfig) (n : Nat) (blocks : List (List Nat)) :
    List ((KvCacheGroup × List Nat) × Nat × Nat) :=
  (cfg.kvCacheGroups.zip blocks).flatMap fun p =>
    (p.2.take ((n + p.1.blockSize - 1) / p.1.blockSize)).zipIdx.map fun q => (p, q)

theorem scanRequest_eq_foldl (n : Nat) (blocks : List (List Nat)) (marked evict : Finset Nat) :
    scanRequest cfg invalid n blocks marked evict =
      (scanned cfg n blocks).foldl (scanAt cfg invalid) ⟨false, false, n, marked, evict⟩ := by
  rw [scanRequest, scanned, List.foldl_flatMap]
  refine congrArg (fun f => (cfg.kvCacheGroups.zip blocks).foldl f _) ?_
  funext scan p
  rw [List.foldl_map]
  rfl

/-- The first blocks of a list, with their indices. -/
theorem zipIdx_take_eq_filter (l : List Nat) (i m : Nat) :
    (l.take m).zipIdx i = (l.zipIdx i).filter fun q => q.2 < i + m := by
  induction l generalizing i m with
  | nil => simp
  | cons b l ih =>
    cases m with
    | zero =>
      refine (List.filter_eq_nil_iff.2 fun q hq => ?_).symm
      have hle := List.le_snd_of_mem_zipIdx hq
      simp only [decide_eq_true_eq]
      omega
    | succ m =>
      rw [List.take_succ_cons, List.zipIdx_cons, List.zipIdx_cons, List.filter_cons,
        if_pos (decide_eq_true (by dsimp only; omega)), ih]
      refine congrArg _ (List.filter_congr fun q _ => decide_eq_decide.2 ?_)
      omega

/-- **The scan comes to the places that begin before the end of the computed tokens**, in the order
of the table. -/
theorem scanned_places (hpos : ∀ g ∈ cfg.kvCacheGroups, 0 < g.blockSize)
    (blocks : List (List Nat)) : (scanned cfg n blocks).map placeAt =
      (blockPlaces cfg blocks).filter fun p => p.start < n := by
  rw [scanned, blockPlaces, List.map_flatMap, List.filter_flatMap]
  refine List.flatMap_congr fun p hp => ?_
  have hbs := hpos p.1 (List.of_mem_zip hp).1
  rw [groupPlaces, List.filter_map, zipIdx_take_eq_filter, List.map_map]
  refine congrArg (List.map _) (List.filter_congr fun q _ => decide_eq_decide.2 ?_)
  show q.2 < 0 + (n + p.1.blockSize - 1) / p.1.blockSize ↔ q.2 * p.1.blockSize < n
  rw [Nat.zero_add, Nat.lt_iff_add_one_le, Nat.le_div_iff_mul_le hbs, Nat.add_mul]
  omega

/-- The blocks of the computed tokens, by their places. -/
theorem mem_coveredBlocks (hpos : ∀ g ∈ cfg.kvCacheGroups, 0 < g.blockSize)
    {blocks : List (List Nat)} {b : Nat} : b ∈ coveredBlocks cfg n blocks ↔
      ∃ p ∈ blockPlaces cfg blocks, p.start < n ∧ p.block = b := by
  have hblocks : coveredBlocks cfg n blocks = ((scanned cfg n blocks).map placeAt).map
      Place.block := by
    rw [coveredBlocks, scanned, List.map_flatMap, List.map_flatMap]
    refine List.flatMap_congr fun p _ => ?_
    rw [List.map_map, List.map_map]
    exact (List.zipIdx_map_fst 0 _).symm
  rw [hblocks, scanned_places hpos, List.mem_map]
  simp only [List.mem_filter, decide_eq_true_eq, and_assoc]

end Places

/-! ### Where a scan truncates -/

section Truncation

variable {cfg : SchedulerConfig} {invalid : Finset Nat} {numScheduled : String → Nat} {n k : Nat}

/-- The scan has found the request affected, by a block of its own. -/
def Scan.Own (scan : Scan) : Prop := scan.affected = true ∧ scan.markedOwnInvalid = true

/-- Either the scan truncates nothing, or the request is affected by a block of its own. -/
theorem foldl_scanAt_own (l : List ((KvCacheGroup × List Nat) × Nat × Nat)) (scan : Scan) :
    (scan.Own → (l.foldl (scanAt cfg invalid) scan).Own) ∧
      ((l.foldl (scanAt cfg invalid) scan).Own ∨
        (l.foldl (scanAt cfg invalid) scan).minValidTokens = scan.minValidTokens) := by
  induction l generalizing scan with
  | nil => exact ⟨fun h => h, .inr rfl⟩
  | cons x l ih =>
    have hstep : (scan.Own → (scanAt cfg invalid scan x).Own) ∧
        ((scanAt cfg invalid scan x).Own ∨
          (scanAt cfg invalid scan x).minValidTokens = scan.minValidTokens) := by
      rw [scanAt, scanBlock]
      split
      · exact ⟨fun h => h, .inr rfl⟩
      · split
        · exact ⟨fun h => h, .inr rfl⟩
        · split
          · exact ⟨fun h => ⟨rfl, h.2⟩, .inr rfl⟩
          · exact ⟨fun _ => ⟨rfl, rfl⟩, .inl ⟨rfl, rfl⟩⟩
    obtain ⟨hkeeps, hrest⟩ := ih (scanAt cfg invalid scan x)
    refine ⟨fun h => hkeeps (hstep.1 h), ?_⟩
    rcases hstep.2 with hown | hsame
    · exact .inl (hkeeps hown)
    · exact hrest.imp_right fun h => h.trans hsame

/-- A block that fails is marked, and truncates the scan at its place. -/
theorem scanAt_fails {scan : Scan} {x : (KvCacheGroup × List Nat) × Nat × Nat}
    (h : Fails cfg invalid scan.markedInvalidBlockIds (placeAt x).block) :
    (scanAt cfg invalid scan x).minValidTokens =
        min scan.minValidTokens (placeAt x).validTokens ∧
      (scanAt cfg invalid scan x).markedInvalidBlockIds =
        insert (placeAt x).block scan.markedInvalidBlockIds := by
  have hin : x.2.1 ∈ invalid := h.1.1
  have hnull : x.2.1 ≠ cfg.nullBlockId := h.1.2
  have hnew : x.2.1 ∉ scan.markedInvalidBlockIds := h.2
  rw [scanAt, scanBlock, if_neg (not_not.2 hin), if_neg hnull, if_neg hnew]
  exact ⟨rfl, rfl⟩

/-- A block that does not fail changes neither. -/
theorem scanAt_not_fails {scan : Scan} {x : (KvCacheGroup × List Nat) × Nat × Nat}
    (h : ¬Fails cfg invalid scan.markedInvalidBlockIds (placeAt x).block) :
    (scanAt cfg invalid scan x).minValidTokens = scan.minValidTokens ∧
      (scanAt cfg invalid scan x).markedInvalidBlockIds = scan.markedInvalidBlockIds := by
  rw [scanAt, scanBlock]
  split
  · exact ⟨rfl, rfl⟩
  · rename_i hmem
    split
    · exact ⟨rfl, rfl⟩
    · rename_i hnull
      split
      · exact ⟨rfl, rfl⟩
      · rename_i hnot
        exact absurd ⟨⟨not_not.1 hmem, hnull⟩, hnot⟩ h

/-- **The scan takes the least number of valid tokens**, over the first places of the blocks that
fail: at a later place the block is marked. -/
theorem le_foldl_scanAt (l : List ((KvCacheGroup × List Nat) × Nat × Nat)) (scan : Scan) :
    k ≤ (l.foldl (scanAt cfg invalid) scan).minValidTokens ↔
      k ≤ scan.minValidTokens ∧ ∀ p : Place,
        (l.map placeAt).find? (fun q => q.block = p.block) = some p →
          Fails cfg invalid scan.markedInvalidBlockIds p.block → k ≤ p.validTokens := by
  induction l generalizing scan with
  | nil => simp
  | cons x l ih =>
    have hother : ∀ p : Place, (placeAt x).block ≠ p.block →
        ((x :: l).map placeAt).find? (fun q => q.block = p.block) =
          (l.map placeAt).find? fun q => q.block = p.block := fun p hne => by
      rw [List.map_cons, List.find?_cons_of_neg (by simpa using hne)]
    have hown : ∀ p : Place, (placeAt x).block = p.block →
        ((x :: l).map placeAt).find? (fun q => q.block = p.block) = some (placeAt x) :=
      fun p heq => by rw [List.map_cons, List.find?_cons_of_pos (by simpa using heq)]
    rw [List.foldl_cons, ih]
    by_cases hfails : Fails cfg invalid scan.markedInvalidBlockIds (placeAt x).block
    · obtain ⟨hmin, hmarked⟩ := scanAt_fails hfails
      rw [hmin, hmarked, le_min_iff]
      constructor
      · rintro ⟨⟨hk, hx⟩, hrest⟩
        refine ⟨hk, fun p hp hfails' => ?_⟩
        -- the block of this place is marked from here on, so that its later places do not count
        by_cases heq : (placeAt x).block = p.block
        · rw [hown p heq] at hp
          obtain rfl := Option.some.inj hp
          exact hx
        · rw [hother p heq] at hp
          refine hrest p hp ⟨hfails'.1, fun hmem => ?_⟩
          exact (Finset.mem_insert.1 hmem).elim (fun h => heq h.symm) hfails'.2
      · rintro ⟨hk, hall⟩
        refine ⟨⟨hk, hall _ (hown _ rfl) hfails⟩, fun p hp hfails' => ?_⟩
        -- a block that still counts behind this place is another one
        have hne : (placeAt x).block ≠ p.block := fun heq =>
          hfails'.2 (heq ▸ Finset.mem_insert_self _ _)
        exact hall p (by rw [hother p hne, hp])
          ⟨hfails'.1, fun hmem => hfails'.2 (Finset.mem_insert_of_mem hmem)⟩
    · obtain ⟨hmin, hmarked⟩ := scanAt_not_fails hfails
      rw [hmin, hmarked]
      refine and_congr_right fun _ => forall_congr' fun p => ?_
      by_cases heq : (placeAt x).block = p.block
      · have hnot : ¬Fails cfg invalid scan.markedInvalidBlockIds p.block := heq ▸ hfails
        exact ⟨fun _ _ h => absurd h hnot, fun _ _ h => absurd h hnot⟩
      · rw [hother p heq]

/-- **What the scan of a request finds.** -/
theorem scanRequest_min (hpos : ∀ g ∈ cfg.kvCacheGroups, 0 < g.blockSize)
    (blocks : List (List Nat)) (marked evict : Finset Nat) :
    (scanRequest cfg invalid n blocks marked evict).minValidTokens =
      truncate cfg invalid marked (blockPlaces cfg blocks) n := by
  refine eq_of_forall_le_iff fun k => ?_
  rw [scanRequest_eq_foldl, le_foldl_scanAt, le_truncate, scanned_places hpos]
  refine and_congr_right fun _ => forall_congr' fun p => ?_
  rw [List.find?_filter, Foremost]
  simp only [Bool.decide_and, decide_eq_true_eq]

/-- **What a scan leaves of a request** for which no tokens are scheduled. -/
theorem updateRequest_truncates (hpos : ∀ g ∈ cfg.kvCacheGroups, 0 < g.blockSize) {t : Scanned}
    {id : String} {r : Request} (hrequest : t.scheduler.requests id = some r)
    (hparked : numScheduled id = 0) :
    (updateRequestWithInvalidBlocks cfg invalid numScheduled t id).scheduler.requests id =
      some { r with
        numComputedTokens := truncate cfg invalid t.marked
          (blockPlaces cfg (t.scheduler.blocks id)) r.numComputedTokens } := by
  rw [updateRequestWithInvalidBlocks, hrequest, hparked]
  dsimp only
  rw [Nat.sub_zero]
  have hmin := @scanRequest_min cfg invalid r.numComputedTokens hpos (t.scheduler.blocks id)
    t.marked t.blocksToEvict
  have hown := (@foldl_scanAt_own cfg invalid
    (scanned cfg r.numComputedTokens (t.scheduler.blocks id))
    ⟨false, false, r.numComputedTokens, t.marked, t.blocksToEvict⟩).2
  rw [← scanRequest_eq_foldl] at hown
  generalize scanRequest cfg invalid r.numComputedTokens (t.scheduler.blocks id) t.marked
    t.blocksToEvict = scan at hmin hown
  split
  · refine put_requests_self.trans ?_
    split
    · rw [hmin]
    · rename_i hnot
      rcases hown with hown | hsame
      · exact absurd hown.2 hnot
      · rw [← hmin, hsame]
  · rename_i hnot
    rcases hown with hown | hsame
    · exact absurd hown.1 hnot
    · rw [hrequest, ← hmin, hsame]

/-! ### What a scan marks -/

theorem scanBlock_marked (group : KvCacheGroup) (ids : List Nat) (scan : Scan) (p : Nat × Nat)
    (b : Nat) : b ∈ (scanBlock cfg invalid group ids scan p).markedInvalidBlockIds ↔
      b ∈ scan.markedInvalidBlockIds ∨ p.1 = b ∧ Hits cfg invalid b := by
  rw [scanBlock, Hits]
  by_cases hmem : p.1 ∈ invalid
  · rw [if_neg (not_not.2 hmem)]
    by_cases hnull : p.1 = cfg.nullBlockId
    · rw [if_pos hnull]
      exact ⟨.inl, fun h => h.resolve_right fun h => h.2.2 (h.1 ▸ hnull)⟩
    · rw [if_neg hnull]
      split
      · rename_i hmarked
        refine ⟨.inl, ?_⟩
        rintro (h | ⟨rfl, -⟩)
        · exact h
        · exact hmarked
      · rw [Finset.mem_insert]
        constructor
        · rintro (rfl | h)
          · exact .inr ⟨rfl, hmem, hnull⟩
          · exact .inl h
        · rintro (h | ⟨rfl, -⟩)
          · exact .inr h
          · exact .inl rfl
  · rw [if_pos hmem]
    exact ⟨.inl, fun h => h.resolve_right fun h => hmem (h.1 ▸ h.2.1)⟩
/-- A scan marks what its pieces do. -/
theorem foldl_marked {α : Type} {f : Scan → α → Scan} {P : α → Prop} {b : Nat}
    (hf : ∀ scan a, b ∈ (f scan a).markedInvalidBlockIds ↔
      b ∈ scan.markedInvalidBlockIds ∨ P a) (l : List α) (scan : Scan) :
    b ∈ (l.foldl f scan).markedInvalidBlockIds ↔
      b ∈ scan.markedInvalidBlockIds ∨ ∃ a ∈ l, P a := by
  induction l generalizing scan with
  | nil => simp
  | cons a l ih =>
    rw [List.foldl_cons, ih, hf]
    simp [or_assoc]

theorem scanGroup_marked (n : Nat) (scan : Scan) (p : KvCacheGroup × List Nat) (b : Nat) :
    b ∈ (scanGroup cfg invalid n scan p).markedInvalidBlockIds ↔
      b ∈ scan.markedInvalidBlockIds ∨
        b ∈ p.2.take ((n + p.1.blockSize - 1) / p.1.blockSize) ∧ Hits cfg invalid b := by
  rw [scanGroup, foldl_marked fun scan q => scanBlock_marked p.1 p.2 scan q b]
  refine or_congr_right ⟨?_, ?_⟩
  · rintro ⟨q, hq, rfl, hhits⟩
    exact ⟨List.fst_mem_of_mem_zipIdx hq, hhits⟩
  · rintro ⟨hb, hhits⟩
    obtain ⟨i, hi, rfl⟩ := List.mem_iff_getElem.1 hb
    exact ⟨(_, i), List.mk_mem_zipIdx_iff_getElem?.2 (List.getElem?_eq_getElem hi), rfl, hhits⟩

theorem scanRequest_marked (n : Nat) (blocks : List (List Nat)) (marked evict : Finset Nat)
    (b : Nat) :
    b ∈ (scanRequest cfg invalid n blocks marked evict).markedInvalidBlockIds ↔
      b ∈ marked ∨ b ∈ coveredBlocks cfg n blocks ∧ Hits cfg invalid b := by
  rw [scanRequest, foldl_marked fun scan p => scanGroup_marked n scan p b]
  refine or_congr_right ⟨?_, ?_⟩
  · rintro ⟨p, hp, hb, hhits⟩
    exact ⟨List.mem_flatMap.2 ⟨p, hp, hb⟩, hhits⟩
  · rintro ⟨hb, hhits⟩
    obtain ⟨p, hp, hb⟩ := List.mem_flatMap.1 hb
    exact ⟨p, hp, hb, hhits⟩

/-- The blocks of a request that are reported. -/
def reportedBlocks (cfg : SchedulerConfig) (invalid : Finset Nat) (numScheduled : String → Nat)
    (s : Scheduler) (id : String) : List Nat :=
  match s.requests id with
  | none => []
  | some r => (coveredBlocks cfg (r.numComputedTokens - numScheduled id) (s.blocks id)).filter
      fun b => b ∈ invalid ∧ b ≠ cfg.nullBlockId

/-- The blocks that are marked once some requests have been scanned. -/
def markedBefore (cfg : SchedulerConfig) (invalid : Finset Nat) (numScheduled : String → Nat)
    (s : Scheduler) (earlier : List String) : Finset Nat :=
  (earlier.flatMap (reportedBlocks cfg invalid numScheduled s)).toFinset

theorem updateRequest_marked (t : Scanned) (id : String) :
    (updateRequestWithInvalidBlocks cfg invalid numScheduled t id).marked =
      t.marked ∪ (reportedBlocks cfg invalid numScheduled t.scheduler id).toFinset := by
  rw [updateRequestWithInvalidBlocks, reportedBlocks]
  cases hreq : t.scheduler.requests id with
  | none => exact (Finset.union_empty _).symm
  | some r =>
    have hscan : (scanRequest cfg invalid (r.numComputedTokens - numScheduled id)
        (t.scheduler.blocks id) t.marked t.blocksToEvict).markedInvalidBlockIds =
        t.marked ∪ ((coveredBlocks cfg (r.numComputedTokens - numScheduled id)
          (t.scheduler.blocks id)).filter
            fun b => b ∈ invalid ∧ b ≠ cfg.nullBlockId).toFinset := by
      ext b
      rw [scanRequest_marked, Finset.mem_union, List.mem_toFinset, List.mem_filter,
        decide_eq_true_iff]
      exact Iff.rfl
    dsimp only
    split
    · exact hscan
    · exact hscan

/-- What the requests that are scanned first mark, and what they leave of another. -/
theorem foldl_markedBefore (cfg : SchedulerConfig) (invalid : Finset Nat)
    (numScheduled : String → Nat) (s : Scheduler) (earlier : List String) (hnodup : earlier.Nodup)
    (t : Scanned) (hsame : ∀ id ∈ earlier, t.scheduler.requests id = s.requests id ∧
      t.scheduler.blocks id = s.blocks id) :
    (earlier.foldl (updateRequestWithInvalidBlocks cfg invalid numScheduled) t).marked =
      t.marked ∪ markedBefore cfg invalid numScheduled s earlier := by
  induction earlier generalizing t with
  | nil => exact (Finset.union_empty _).symm
  | cons id earlier ih =>
    obtain ⟨hnot, hnodup⟩ := List.nodup_cons.1 hnodup
    rw [List.foldl_cons, ih hnodup, updateRequest_marked]
    · have hid := hsame id List.mem_cons_self
      have hreported : reportedBlocks cfg invalid numScheduled t.scheduler id =
          reportedBlocks cfg invalid numScheduled s id := by
        rw [reportedBlocks, reportedBlocks, hid.1, hid.2]
      rw [hreported, markedBefore, markedBefore, List.flatMap_cons, List.toFinset_append,
        Finset.union_assoc]
    · intro other hother
      have hne : id ≠ other := fun heq => hnot (heq ▸ hother)
      have hstep : Unmoved other t (updateRequestWithInvalidBlocks cfg invalid numScheduled t id) :=
        updateRequest_unmoved fun heq => absurd heq hne
      obtain ⟨hrequest, hblocks⟩ := hsame other (List.mem_cons_of_mem _ hother)
      exact ⟨hstep.request.trans hrequest, hstep.blocks.trans hblocks⟩

/-- **What one scan over some requests leaves of one of them**, whichever come before it and
behind. -/
theorem updateRequests_truncates (hpos : ∀ g ∈ cfg.kvCacheGroups, 0 < g.blockSize) {s : Scheduler}
    {earlier later : List String} {id : String} {r : Request}
    (hnodup : (earlier ++ id :: later).Nodup) (hrequest : s.requests id = some r)
    (hparked : numScheduled id = 0) :
    (updateRequestsWithInvalidBlocks cfg invalid numScheduled (earlier ++ id :: later)
        s).scheduler.requests id =
      some { r with
        numComputedTokens := truncate cfg invalid
          (markedBefore cfg invalid numScheduled s earlier) (blockPlaces cfg (s.blocks id))
            r.numComputedTokens } := by
  obtain ⟨hearlier, hrest, hdisjoint⟩ := List.nodup_append.1 hnodup
  have hnotEarlier : id ∉ earlier := fun hmem => hdisjoint id hmem id List.mem_cons_self rfl
  have hnotLater : id ∉ later := (List.nodup_cons.1 hrest).1
  rw [updateRequestsWithInvalidBlocks, List.foldl_append, List.foldl_cons]
  have hbefore : Unmoved id ⟨[], ∅, ∅, s⟩
      (earlier.foldl (updateRequestWithInvalidBlocks cfg invalid numScheduled) ⟨[], ∅, ∅, s⟩) :=
    foldl_unmoved earlier fun hmem => absurd hmem hnotEarlier
  have hmarked := foldl_markedBefore cfg invalid numScheduled s earlier hearlier ⟨[], ∅, ∅, s⟩
    fun _ _ => ⟨rfl, rfl⟩
  rw [Finset.empty_union] at hmarked
  generalize earlier.foldl (updateRequestWithInvalidBlocks cfg invalid numScheduled)
    ⟨[], ∅, ∅, s⟩ = t at hbefore hmarked
  have hafter : Unmoved id (updateRequestWithInvalidBlocks cfg invalid numScheduled t id)
      (later.foldl (updateRequestWithInvalidBlocks cfg invalid numScheduled)
        (updateRequestWithInvalidBlocks cfg invalid numScheduled t id)) :=
    foldl_unmoved later fun hmem => absurd hmem hnotLater
  rw [hafter.request, updateRequest_truncates hpos (hbefore.request.trans hrequest) hparked,
    hmarked, hbefore.blocks]

end Truncation

end Scheduler

end Lmcache

end DgxSpark
