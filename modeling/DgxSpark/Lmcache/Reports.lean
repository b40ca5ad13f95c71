import DgxSpark.Lmcache.Resume

/-!
# Reports of invalid blocks, one after the other

The workers report the blocks that they could not load in the steps in which they find out, and
each report truncates the requests whose blocks it names
(`DgxSpark.Lmcache.Scheduler.updateRequestsWithInvalidBlocks`). A report scans what the ones before
it have left: the blocks of the tokens that still count as computed.

For a block that has one place, in an attention group, that is no loss, since a block beyond the
truncation would not truncate any further. A block of a state group, which stands for no position
and takes all the tokens with it, is missed when it lies beyond the truncation, and of a block that
several groups share only the first place counts, which may stand for a later position than
another. `DgxSpark.Lmcache.Scheduler.reports_agree_iff` says when the order and the split of the
reports make no difference.
-/

namespace DgxSpark

namespace Lmcache

namespace Scheduler

/-! ### What a sequence of reports leaves -/

section Sequence

variable {cfg : SchedulerConfig} {places : List Place} {n : Nat}

/-- One report after the other, of blocks that no other request has marked. -/
def truncateAll (cfg : SchedulerConfig) (places : List Place) (reports : List (Finset Nat))
    (n : Nat) : Nat :=
  reports.foldl (fun n invalid => truncate cfg invalid ∅ places n) n

/-- All that is reported. -/
def reportedIds (reports : List (Finset Nat)) : Finset Nat :=
  reports.foldr (fun invalid ids => invalid ∪ ids) ∅

theorem hits_reportedIds {reports : List (Finset Nat)} {b : Nat} :
    Hits cfg (reportedIds reports) b ↔ ∃ invalid ∈ reports, Hits cfg invalid b := by
  induction reports with
  | nil => simp [reportedIds, Hits]
  | cons invalid reports ih =>
    have hunion : Hits cfg (reportedIds (invalid :: reports)) b ↔
        Hits cfg invalid b ∨ Hits cfg (reportedIds reports) b := by
      rw [Hits, Hits, Hits, reportedIds, List.foldr_cons, Finset.mem_union, or_and_right]
      rfl
    rw [hunion, ih]
    simp

/-- **The minimum over the groups** of the earliest position of an invalid block, where a block of
a state group counts as position zero. -/
def minimumOverGroups (cfg : SchedulerConfig) (invalid : Finset Nat) (places : List Place)
    (n : Nat) : Nat :=
  ((places.filter fun p => Hits cfg invalid p.block).map Place.validTokens).foldl min n

/-- A block of a state group is reported. -/
def StateReported (cfg : SchedulerConfig) (invalid : Finset Nat) (places : List Place) : Prop :=
  ∃ p ∈ places, p.prefixIndexed = false ∧ Hits cfg invalid p.block

/-- **The minimum is at a first place**: of the blocks that stand for the least position, or take
all with them, one does so at the first of its places among the computed tokens. -/
def MinimumForemost (cfg : SchedulerConfig) (invalid : Finset Nat) (places : List Place)
    (n : Nat) : Prop :=
  minimumOverGroups cfg invalid places n = n ∨
    ∃ p, Foremost n places p ∧ Hits cfg invalid p.block ∧
      p.validTokens = minimumOverGroups cfg invalid places n

/-- What some reports leave of the attention groups, by themselves. -/
def indexedLeft (cfg : SchedulerConfig) (places : List Place) (reports : List (Finset Nat))
    (n : Nat) : Nat :=
  truncateAll cfg (places.filter Place.prefixIndexed) reports n

/-- **The transfer is invalidated as a whole**: nothing was computed, or a report comes to a first
place that takes all the tokens with it, while it lies before what the reports so far have left of
the attention groups. -/
def Invalidated (cfg : SchedulerConfig) (places : List Place) (reports : List (Finset Nat))
    (n : Nat) : Prop :=
  n = 0 ∨ ∃ before invalid behind, reports = before ++ invalid :: behind ∧
    ∃ p, Foremost (indexedLeft cfg places before n) places p ∧ Hits cfg invalid p.block ∧
      p.validTokens = 0

theorem fails_empty {invalid : Finset Nat} {b : Nat} :
    Fails cfg invalid ∅ b ↔ Hits cfg invalid b :=
  and_iff_left (Finset.notMem_empty b)

theorem le_minimumOverGroups {invalid : Finset Nat} {k : Nat} :
    k ≤ minimumOverGroups cfg invalid places n ↔
      k ≤ n ∧ ∀ p ∈ places, Hits cfg invalid p.block → k ≤ p.validTokens := by
  rw [minimumOverGroups, le_foldl_min]
  refine and_congr_right fun _ => ?_
  simp only [List.forall_mem_map, List.mem_filter, decide_eq_true_eq, and_imp]

/-- The minimum is zero as soon as a block of a state group is reported. -/
theorem minimumOverGroups_state {invalid : Finset Nat} (h : StateReported cfg invalid places) :
    minimumOverGroups cfg invalid places n = 0 := by
  obtain ⟨p, hp, hstate, hhits⟩ := h
  have hle := (le_minimumOverGroups.1
    (le_refl (minimumOverGroups cfg invalid places n))).2 p hp hhits
  rw [Place.validTokens, hstate] at hle
  exact Nat.le_zero.1 hle

/-- A report leaves no less than the minimum. -/
theorem minimumOverGroups_le_truncate (invalid : Finset Nat) :
    minimumOverGroups cfg invalid places n ≤ truncate cfg invalid ∅ places n := by
  obtain ⟨hn, hall⟩ := le_minimumOverGroups.1 (le_refl (minimumOverGroups cfg invalid places n))
  exact le_truncate.2 ⟨hn, fun p hp hfails => hall p hp.mem hfails.1⟩

/-- **When one report leaves the minimum.** -/
theorem truncate_eq_minimum_iff (invalid : Finset Nat) :
    truncate cfg invalid ∅ places n = minimumOverGroups cfg invalid places n ↔
      MinimumForemost cfg invalid places n := by
  have hle := @minimumOverGroups_le_truncate cfg places n invalid
  constructor
  · intro heq
    rcases Nat.lt_or_ge (truncate cfg invalid ∅ places n) n with hlt | hge
    · obtain ⟨p, hp, hfails, hvalid⟩ := truncate_attained hlt
      exact .inr ⟨p, hp, hfails.1, hvalid.trans heq⟩
    · exact .inl (heq.symm.trans (Nat.le_antisymm truncate_le hge))
  · rintro (hnone | ⟨p, hp, hhits, hvalid⟩)
    · exact Nat.le_antisymm (truncate_le.trans hnone.ge) hle
    · refine Nat.le_antisymm ?_ hle
      exact hvalid ▸ truncate_le_of_foremost hp (fails_empty.2 hhits)

/-- **What one report leaves**, when it comes to no place that takes all with it: what it leaves of
the attention groups. -/
theorem truncate_indexed {invalid : Finset Nat}
    (h : ¬∃ p, Foremost n places p ∧ Hits cfg invalid p.block ∧ p.validTokens = 0) :
    truncate cfg invalid ∅ places n =
      truncate cfg invalid ∅ (places.filter Place.prefixIndexed) n := by
  -- a first place that is reported is in an attention group, and the first one there
  have hfirst : ∀ p, Foremost n places p → Hits cfg invalid p.block →
      Foremost n (places.filter Place.prefixIndexed) p := by
    intro p hp hhits
    have hindexed : p.prefixIndexed = true := by
      by_contra hstate
      exact h ⟨p, hp, hhits, if_neg hstate⟩
    obtain ⟨hat, before, behind, hsplit, hbefore⟩ := List.find?_eq_some_iff_append.1 hp
    refine List.find?_eq_some_iff_append.2 ⟨hat, before.filter Place.prefixIndexed,
      behind.filter Place.prefixIndexed, ?_, fun q hq => hbefore q (List.mem_of_mem_filter hq)⟩
    rw [hsplit, List.filter_append, List.filter_cons, if_pos hindexed]
  refine eq_of_forall_le_iff fun k => ?_
  rw [le_truncate, le_truncate]
  refine and_congr_right fun _ => ⟨fun hall p hp hfails => ?_, fun hall p hp hfails => ?_⟩
  · obtain ⟨q, hq, hblock⟩ := exists_foremost (List.mem_of_mem_filter hp.mem) hp.lt
    have hhits : Hits cfg invalid q.block := hblock ▸ hfails.1
    have hsame := hfirst q hq hhits
    rw [Foremost, hblock] at hsame
    obtain rfl := Option.some.inj (hsame.symm.trans hp)
    exact hall q hq hfails
  · exact hall p (hfirst p hp hfails.1) hfails

theorem truncateAll_append (reports : List (Finset Nat)) (invalid : Finset Nat) :
    truncateAll cfg places (reports ++ [invalid]) n =
      truncate cfg invalid ∅ places (truncateAll cfg places reports n) := by
  rw [truncateAll, List.foldl_append]
  rfl

/-- **What a sequence of reports leaves**: nothing, if the transfer is invalidated as a whole, and
else what is left of the attention groups. -/
theorem truncateAll_eq (reports : List (Finset Nat)) :
    (Invalidated cfg places reports n → truncateAll cfg places reports n = 0) ∧
      (¬Invalidated cfg places reports n → 0 < truncateAll cfg places reports n ∧
        truncateAll cfg places reports n = indexedLeft cfg places reports n) := by
  induction reports using List.reverseRecOn with
  | nil =>
    refine ⟨?_, fun hnot => ⟨Nat.pos_of_ne_zero fun hzero => hnot (.inl hzero), rfl⟩⟩
    rintro (hzero | ⟨before, invalid, behind, hsplit, -⟩)
    · exact hzero
    · cases before <;> cases hsplit
  | append_singleton reports invalid ih =>
    have hlast := @truncateAll_append cfg places n reports invalid
    by_cases hbefore : Invalidated cfg places reports n
    · -- it was invalidated before, and stays so
      have hzero : truncateAll cfg places (reports ++ [invalid]) n = 0 := by
        rw [hlast, ih.1 hbefore]
        exact Nat.le_zero.1 truncate_le
      refine ⟨fun _ => hzero, fun hnot => absurd ?_ hnot⟩
      rcases hbefore with hnothing | ⟨before, first, behind, rfl, hstate⟩
      · exact .inl hnothing
      · exact .inr ⟨before, first, behind ++ [invalid], by simp, hstate⟩
    · obtain ⟨hpos, hleft⟩ := ih.2 hbefore
      by_cases hstate : ∃ p, Foremost (truncateAll cfg places reports n) places p ∧
          Hits cfg invalid p.block ∧ p.validTokens = 0
      · have hzero : truncateAll cfg places (reports ++ [invalid]) n = 0 := by
          obtain ⟨p, hp, hhits, hvalid⟩ := hstate
          rw [hlast]
          exact Nat.le_zero.1 (hvalid ▸ truncate_le_of_foremost hp (fails_empty.2 hhits))
        refine ⟨fun _ => hzero, fun hnot => absurd (.inr ⟨reports, invalid, [], rfl, ?_⟩) hnot⟩
        rw [← hleft]
        exact hstate
      · have hrest : truncateAll cfg places (reports ++ [invalid]) n =
            indexedLeft cfg places (reports ++ [invalid]) n := by
          rw [hlast, truncate_indexed hstate, indexedLeft, truncateAll_append, hleft]
          rfl
        have hkept : 0 < truncateAll cfg places (reports ++ [invalid]) n := by
          refine Nat.pos_of_ne_zero fun hzero => ?_
          rw [hlast] at hzero
          obtain ⟨p, hp, hfails, hvalid⟩ := truncate_attained (hzero.trans_lt hpos)
          exact hstate ⟨p, hp, hfails.1, hvalid.trans hzero⟩
        refine ⟨?_, fun _ => ⟨hkept, hrest⟩⟩
        rintro (hnothing | ⟨before, first, behind, hsplit, hfirst⟩)
        · exact absurd (.inl hnothing) hbefore
        · -- the report that invalidates is neither the last one nor one before it
          rcases List.eq_nil_or_concat behind with rfl | ⟨behind, last, rfl⟩
          · obtain ⟨rfl, hsame⟩ := List.append_inj' hsplit rfl
            cases hsame
            rw [hleft] at hstate
            exact absurd hfirst hstate
          · rw [List.concat_eq_append, ← List.cons_append, ← List.append_assoc] at hsplit
            obtain ⟨rfl, -⟩ := List.append_inj' hsplit rfl
            exact absurd (.inr ⟨before, first, behind, rfl, hfirst⟩) hbefore

/-- A sequence of reports leaves no less than the minimum. -/
theorem minimumOverGroups_le_truncateAll (reports : List (Finset Nat)) :
    minimumOverGroups cfg (reportedIds reports) places n ≤ truncateAll cfg places reports n := by
  have hall : ∀ k ≤ n, (∀ p ∈ places, Hits cfg (reportedIds reports) p.block →
      k ≤ p.validTokens) → k ≤ truncateAll cfg places reports n := by
    intro k
    induction reports generalizing n with
    | nil => exact fun hk _ => hk
    | cons invalid reports ih =>
      intro hk hplaces
      refine ih (le_truncate.2 ⟨hk, fun p hp hfails => ?_⟩) fun p hp hhits => ?_
      · exact hplaces p hp.mem (hits_reportedIds.2 ⟨invalid, List.mem_cons_self, hfails.1⟩)
      · obtain ⟨other, hother, hhits⟩ := hits_reportedIds.1 hhits
        exact hplaces p hp (hits_reportedIds.2 ⟨other, List.mem_cons_of_mem _ hother, hhits⟩)
  obtain ⟨hn, hplaces⟩ := le_minimumOverGroups.1
    (le_refl (minimumOverGroups cfg (reportedIds reports) places n))
  exact hall _ hn hplaces

theorem truncateAll_le (reports : List (Finset Nat)) : truncateAll cfg places reports n ≤ n := by
  induction reports generalizing n with
  | nil => exact le_rfl
  | cons invalid reports ih => exact (ih (n := truncate cfg invalid ∅ places n)).trans truncate_le

/-- **A first place in an attention group is not missed**, whichever report names its block: it
stays the first one, and lies before whatever the reports have left, or they have left no more. -/
theorem truncateAll_le_start {reports : List (Finset Nat)} {p : Place} (hp : Foremost n places p)
    (hindexed : p.prefixIndexed = true) (hhits : Hits cfg (reportedIds reports) p.block) :
    truncateAll cfg places reports n ≤ p.start := by
  induction reports generalizing n with
  | nil => exact absurd hhits.1 (Finset.notMem_empty _)
  | cons invalid reports ih =>
    show truncateAll cfg places reports (truncate cfg invalid ∅ places n) ≤ p.start
    rcases Nat.lt_or_ge p.start (truncate cfg invalid ∅ places n) with hlt | hge
    · refine ih (hp.anti truncate_le hlt) ?_
      obtain ⟨other, hother, hother'⟩ := hits_reportedIds.1 hhits
      rcases List.mem_cons.1 hother with rfl | hother
      · have hle := truncate_le_of_foremost hp (fails_empty.2 hother')
        rw [Place.validTokens_indexed hindexed] at hle
        exact absurd hlt (not_lt.2 hle)
      · exact hits_reportedIds.2 ⟨other, hother, hother'⟩
    · exact (truncateAll_le reports).trans hge

/-- **When the sequence leaves the minimum, as one report does**: the minimum is at a first place,
and if a block of a state group is reported at all, the transfer is invalidated as a whole. -/
theorem truncateAll_eq_minimum_iff (reports : List (Finset Nat)) :
    truncateAll cfg places reports n = minimumOverGroups cfg (reportedIds reports) places n ∧
        truncate cfg (reportedIds reports) ∅ places n =
          minimumOverGroups cfg (reportedIds reports) places n ↔
      MinimumForemost cfg (reportedIds reports) places n ∧
        (StateReported cfg (reportedIds reports) places → Invalidated cfg places reports n) := by
  rw [truncate_eq_minimum_iff, and_comm]
  refine and_congr_right fun hforemost => ?_
  obtain ⟨hgone, hleft⟩ := @truncateAll_eq cfg places n reports
  constructor
  · intro heq hstate
    by_contra hnot
    rw [minimumOverGroups_state hstate] at heq
    exact absurd (hleft hnot).1 (by omega)
  · intro h
    by_cases hstate : StateReported cfg (reportedIds reports) places
    · rw [hgone (h hstate), minimumOverGroups_state hstate]
    · refine Nat.le_antisymm ?_ (minimumOverGroups_le_truncateAll reports)
      rcases hforemost with hnone | ⟨p, hp, hhits, hvalid⟩
      · exact (truncateAll_le reports).trans hnone.ge
      · have hindexed : p.prefixIndexed = true := by
          by_contra hnot
          exact hstate ⟨p, hp.mem, by simpa using hnot, hhits⟩
        rw [← hvalid, Place.validTokens_indexed hindexed]
        exact truncateAll_le_start hp hindexed hhits

end Sequence

/-! ### Reports to the scheduler -/

/-- A report: the invalid blocks, the requests in the order in which the scan comes to them, and
the tokens that are scheduled in its step. -/
structure InvalidReport where
  invalid : Finset Nat
  order : List String
  numScheduled : String → Nat

/-- A report to the scheduler. -/
def applyReport (cfg : SchedulerConfig) (s : Scheduler) (report : InvalidReport) : Scanned :=
  updateRequestsWithInvalidBlocks cfg report.invalid report.numScheduled report.order s

/-- What the reports leave, one after the other. -/
def afterReports (cfg : SchedulerConfig) (s : Scheduler) (reports : List InvalidReport) :
    Scheduler :=
  reports.foldl (fun s report => (applyReport cfg s report).scheduler) s

/-- The requests that one report or another finds affected. -/
def affectedBy (cfg : SchedulerConfig) : Scheduler → List InvalidReport → List String
  | _, [] => []
  | s, report :: reports =>
    (applyReport cfg s report).affectedReqIds ++
      affectedBy cfg (applyReport cfg s report).scheduler reports

/-- All that the reports name. -/
def allInvalid (reports : List InvalidReport) : Finset Nat :=
  reportedIds (reports.map InvalidReport.invalid)

/-- The report scans the requests that load, in some order; for none of them are tokens
scheduled. -/
structure InvalidReport.Scans (report : InvalidReport) (ids : List String) : Prop where
  order : report.order.Perm ids
  parked : ∀ id ∈ ids, report.numScheduled id = 0

/-- **The requests share no blocks.** The groups of one request may. -/
def Apart (cfg : SchedulerConfig) (s : Scheduler) (ids : List String) : Prop :=
  ∀ id ∈ ids, ∀ other ∈ ids, id ≠ other → ∀ p ∈ blockPlaces cfg (s.blocks id),
    ∀ q ∈ blockPlaces cfg (s.blocks other), p.block = q.block → p.block = cfg.nullBlockId

section Reporting

variable {cfg : SchedulerConfig} {s : Scheduler} {ids : List String} {id : String} {r : Request}

/-- A report changes no block table. -/
theorem applyReport_blocks (report : InvalidReport) (id : String) :
    (applyReport cfg s report).scheduler.blocks id = s.blocks id :=
  ((updateRequestsWithInvalidBlocks_scanning cfg report.invalid report.numScheduled s
    report.order).recomputed id).blocks

theorem Apart.applyReport (h : Apart cfg s ids) (report : InvalidReport) :
    Apart cfg (applyReport cfg s report).scheduler ids := by
  intro id hid other hother hne
  rw [applyReport_blocks, applyReport_blocks]
  exact h id hid other hother hne

/-- Marks of other requests do not matter to blocks that are not theirs. -/
theorem truncate_unmarked {invalid marked : Finset Nat} {places : List Place} {n : Nat}
    (h : ∀ p ∈ places, p.block ≠ cfg.nullBlockId → p.block ∉ marked) :
    truncate cfg invalid marked places n = truncate cfg invalid ∅ places n := by
  refine eq_of_forall_le_iff fun k => ?_
  rw [le_truncate, le_truncate]
  refine and_congr_right fun _ => forall_congr' fun p => imp_congr_right fun hp => ?_
  rw [fails_empty, Fails, and_iff_left_of_imp fun hhits => h p hp.mem hhits.2]

/-- **What a report leaves of a request that loads.** -/
theorem applyReport_request (hpos : ∀ g ∈ cfg.kvCacheGroups, 0 < g.blockSize)
    (hnodup : ids.Nodup) (hapart : Apart cfg s ids) {report : InvalidReport}
    (hscans : report.Scans ids) (hid : id ∈ ids) (hr : s.requests id = some r) :
    (applyReport cfg s report).scheduler.requests id = some { r with
      numComputedTokens :=
        truncate cfg report.invalid ∅ (blockPlaces cfg (s.blocks id)) r.numComputedTokens } := by
  obtain ⟨earlier, later, horder⟩ := List.append_of_mem (hscans.order.mem_iff.2 hid)
  have hnodup : (earlier ++ id :: later).Nodup := horder ▸ hscans.order.nodup_iff.2 hnodup
  have hnotEarlier : id ∉ earlier := fun hmem =>
    (List.nodup_append.1 hnodup).2.2 id hmem id List.mem_cons_self rfl
  rw [applyReport, horder, updateRequests_truncates hpos hnodup hr (hscans.parked id hid),
    truncate_unmarked]
  -- no block of this request was marked for one that the scan came to before
  intro p hp hnull hmem
  rw [markedBefore, List.mem_toFinset, List.mem_flatMap] at hmem
  obtain ⟨other, hother, hmem⟩ := hmem
  rw [reportedBlocks] at hmem
  split at hmem
  · cases hmem
  · obtain ⟨q, hq, -, hsame⟩ := (mem_coveredBlocks hpos).1 (List.mem_filter.1 hmem).1
    have hothers : other ∈ ids := hscans.order.mem_iff.1 (horder ▸ List.mem_append_left _ hother)
    exact hnull (hapart id hid other hothers
      (fun heq => hnotEarlier (heq ▸ hother)) p hp q hq hsame.symm)

/-- **Which requests a report finds affected.** -/
theorem applyReport_affected (hpos : ∀ g ∈ cfg.kvCacheGroups, 0 < g.blockSize)
    {report : InvalidReport} (hscans : report.Scans ids) (hid : id ∈ ids)
    (hr : s.requests id = some r) : id ∈ (applyReport cfg s report).affectedReqIds ↔
      ∃ p ∈ blockPlaces cfg (s.blocks id), p.start < r.numComputedTokens ∧
        Hits cfg report.invalid p.block := by
  have hhit : IsHit cfg report.invalid report.numScheduled s id ↔
      ∃ p ∈ blockPlaces cfg (s.blocks id), p.start < r.numComputedTokens ∧
        Hits cfg report.invalid p.block := by
    rw [IsHit]
    constructor
    · rintro ⟨r', hr', b, hb, hhits⟩
      rw [hr] at hr'
      cases hr'
      rw [hscans.parked id hid, Nat.sub_zero] at hb
      obtain ⟨p, hp, hstart, rfl⟩ := (mem_coveredBlocks hpos).1 hb
      exact ⟨p, hp, hstart, hhits⟩
    · rintro ⟨p, hp, hstart, hhits⟩
      refine ⟨r, hr, p.block, ?_, hhits⟩
      rw [hscans.parked id hid, Nat.sub_zero]
      exact (mem_coveredBlocks hpos).2 ⟨p, hp, hstart, rfl⟩
  rw [← hhit]
  constructor
  · intro hmem
    by_contra hnot
    have hunmoved : Unmoved id ⟨[], ∅, ∅, s⟩ (applyReport cfg s report) :=
      foldl_unmoved report.order fun _ => hnot
    exact List.not_mem_nil (hunmoved.affected.1 hmem)
  · intro hhit
    rw [applyReport, updateRequestsWithInvalidBlocks]
    exact foldl_hit (hscans.order.mem_iff.2 hid) hhit

/-- **What a sequence of reports leaves of a request that loads**, and when one of them finds it
affected: the first one that names a block of its computed tokens finds them all. -/
theorem afterReports_spec (hpos : ∀ g ∈ cfg.kvCacheGroups, 0 < g.blockSize)
    (hnodup : ids.Nodup) (hid : id ∈ ids) (reports : List InvalidReport)
    (hscans : ∀ report ∈ reports, report.Scans ids) (hapart : Apart cfg s ids)
    (hr : s.requests id = some r) :
    (afterReports cfg s reports).requests id = some { r with
        numComputedTokens := truncateAll cfg (blockPlaces cfg (s.blocks id))
          (reports.map InvalidReport.invalid) r.numComputedTokens } ∧
      (id ∈ affectedBy cfg s reports ↔ ∃ p ∈ blockPlaces cfg (s.blocks id),
        p.start < r.numComputedTokens ∧ Hits cfg (allInvalid reports) p.block) := by
  induction reports generalizing s r with
  | nil =>
    refine ⟨hr, iff_of_false List.not_mem_nil ?_⟩
    rintro ⟨p, -, -, hhits⟩
    exact Finset.notMem_empty _ hhits.1
  | cons report reports ih =>
    have hfirst := hscans report List.mem_cons_self
    have hrequest := applyReport_request hpos hnodup hapart hfirst hid hr
    obtain ⟨hrest, haffected⟩ := ih
      (fun other hother => hscans other (List.mem_cons_of_mem _ hother))
      (hapart.applyReport report) hrequest
    rw [applyReport_blocks] at hrest haffected
    refine ⟨hrest, ?_⟩
    rw [affectedBy, List.mem_append, applyReport_affected hpos hfirst hid hr, haffected]
    have hall : ∀ p : Place, Hits cfg (allInvalid (report :: reports)) p.block ↔
        Hits cfg report.invalid p.block ∨ Hits cfg (allInvalid reports) p.block := by
      intro p
      rw [allInvalid, allInvalid, hits_reportedIds, hits_reportedIds]
      simp
    constructor
    · rintro (⟨p, hp, hstart, hhits⟩ | ⟨p, hp, hstart, hhits⟩)
      · exact ⟨p, hp, hstart, (hall p).2 (.inl hhits)⟩
      · exact ⟨p, hp, hstart.trans_le truncate_le, (hall p).2 (.inr hhits)⟩
    · rintro ⟨p, hp, hstart, hhits⟩
      by_cases hhit : ∃ q ∈ blockPlaces cfg (s.blocks id), q.start < r.numComputedTokens ∧
          Hits cfg report.invalid q.block
      · exact .inl hhit
      · -- the first report does not touch the request, and the others see all of it
        have hsame : r.numComputedTokens ≤
            truncate cfg report.invalid ∅ (blockPlaces cfg (s.blocks id)) r.numComputedTokens :=
          le_truncate.2 ⟨le_rfl, fun q hq hfails => absurd ⟨q, hq.mem, hq.lt, hfails.1⟩ hhit⟩
        refine .inr ⟨p, hp, hstart.trans_le hsame, ?_⟩
        exact ((hall p).1 hhits).resolve_left fun h => hhit ⟨p, hp, hstart, h⟩

theorem affectedBy_subset (reports : List InvalidReport)
    (hscans : ∀ report ∈ reports, report.Scans ids) : affectedBy cfg s reports ⊆ ids := by
  induction reports generalizing s with
  | nil => exact List.nil_subset _
  | cons report reports ih =>
    rw [affectedBy]
    refine List.append_subset.2 ⟨fun other hother => ?_,
      ih fun other hother => hscans other (List.mem_cons_of_mem _ hother)⟩
    have hmem := ((updateRequestsWithInvalidBlocks_scanning cfg report.invalid report.numScheduled
      s report.order).affected other hother).1
    exact (hscans report List.mem_cons_self).order.mem_iff.1 hmem

/-- **It makes no difference how the failures are reported**: each request that loads is left with
the minimum over its groups, which is not more than it had; one report of them all leaves the same,
and finds the same requests affected. -/
structure ReportsAgree (cfg : SchedulerConfig) (s : Scheduler) (reports : List InvalidReport) :
    Prop where
  request : ∀ id ∈ s.asyncLoadReqs, ∀ r, s.requests id = some r →
    (afterReports cfg s reports).requests id = some { r with
      numComputedTokens := minimumOverGroups cfg (allInvalid reports)
        (blockPlaces cfg (s.blocks id)) r.numComputedTokens }
  notAbove : ∀ id ∈ s.asyncLoadReqs, ∀ r, s.requests id = some r →
    minimumOverGroups cfg (allInvalid reports) (blockPlaces cfg (s.blocks id))
      r.numComputedTokens ≤ r.numComputedTokens
  once : ∀ report : InvalidReport, report.Scans s.asyncLoadReqs →
    report.invalid = allInvalid reports → ∀ id ∈ s.asyncLoadReqs,
      (applyReport cfg s report).scheduler.requests id = (afterReports cfg s reports).requests id
  affected : ∀ report : InvalidReport, report.Scans s.asyncLoadReqs →
    report.invalid = allInvalid reports → ∀ id,
      id ∈ (applyReport cfg s report).affectedReqIds ↔ id ∈ affectedBy cfg s reports

theorem exists_of_mem_asyncLoadReqs (h : id ∈ s.asyncLoadReqs) : ∃ r, s.requests id = some r := by
  have hloading := (List.mem_filter.1 h).2
  cases hr : s.requests id with
  | none =>
    rw [hr] at hloading
    cases hloading
  | some r => exact ⟨r, rfl⟩

/-- **When the order and the split of the reports make no difference**: of each request, the
minimum over its groups is at a first place, and if a block of a state group is reported at all,
nothing was computed, or a report comes to a first place that takes all with it while it lies before
what the reports so far have left of the attention groups. -/
theorem reports_agree_iff (cfg : SchedulerConfig)
    (hpos : ∀ g ∈ cfg.kvCacheGroups, 0 < g.blockSize) (s : Scheduler)
    (hnodup : s.asyncLoadReqs.Nodup) (hapart : Apart cfg s s.asyncLoadReqs)
    (reports : List InvalidReport)
    (hscans : ∀ report ∈ reports, report.Scans s.asyncLoadReqs) :
    ReportsAgree cfg s reports ↔ ∀ id ∈ s.asyncLoadReqs, ∀ r, s.requests id = some r →
      MinimumForemost cfg (allInvalid reports) (blockPlaces cfg (s.blocks id))
          r.numComputedTokens ∧
        (StateReported cfg (allInvalid reports) (blockPlaces cfg (s.blocks id)) →
          Invalidated cfg (blockPlaces cfg (s.blocks id)) (reports.map InvalidReport.invalid)
            r.numComputedTokens) := by
  constructor
  · intro h id hid r hr
    have hafter := (afterReports_spec hpos hnodup hid reports hscans hapart hr).1
    rw [h.request id hid r hr] at hafter
    -- one report of them all, in the order of the requests
    have hall : InvalidReport.Scans ⟨allInvalid reports, s.asyncLoadReqs, fun _ => 0⟩
        s.asyncLoadReqs := ⟨.refl _, fun _ _ => rfl⟩
    have honce := applyReport_request hpos hnodup hapart hall hid hr
    rw [h.once _ hall rfl id hid, h.request id hid r hr] at honce
    refine (truncateAll_eq_minimum_iff _).1 ⟨?_, ?_⟩
    · exact (congrArg Request.numComputedTokens (Option.some.inj hafter)).symm
    · exact (congrArg Request.numComputedTokens (Option.some.inj honce)).symm
  · intro h
    have hrequest : ∀ id ∈ s.asyncLoadReqs, ∀ r, s.requests id = some r →
        (afterReports cfg s reports).requests id = some { r with
          numComputedTokens := minimumOverGroups cfg (allInvalid reports)
            (blockPlaces cfg (s.blocks id)) r.numComputedTokens } := by
      intro id hid r hr
      rw [(afterReports_spec hpos hnodup hid reports hscans hapart hr).1,
        ((truncateAll_eq_minimum_iff _).2 (h id hid r hr)).1]
      rfl
    refine ⟨hrequest, fun id _ r _ => (le_minimumOverGroups.1 le_rfl).1,
      fun report hreport hall id hid => ?_, fun report hreport hall id => ?_⟩
    · obtain ⟨r, hr⟩ := exists_of_mem_asyncLoadReqs hid
      rw [hrequest id hid r hr, applyReport_request hpos hnodup hapart hreport hid hr, hall,
        allInvalid, ((truncateAll_eq_minimum_iff _).2 (h id hid r hr)).2]
    · by_cases hid : id ∈ s.asyncLoadReqs
      · obtain ⟨r, hr⟩ := exists_of_mem_asyncLoadReqs hid
        rw [applyReport_affected hpos hreport hid hr,
          (afterReports_spec hpos hnodup hid reports hscans hapart hr).2, hall]
      · refine iff_of_false (fun hmem => hid ?_)
          fun hmem => hid (affectedBy_subset reports hscans hmem)
        refine affectedBy_subset [report] (fun other hother => ?_) (List.mem_append_left _ hmem)
        rw [List.mem_singleton.1 hother]
        exact hreport

end Reporting

/-! ### An attention group and a state group -/

/-- Blocks of two tokens in both groups. -/
def mixedConfig : SchedulerConfig := { recomputeConfig [] with
  kvCacheGroups := [⟨true, 2⟩, ⟨false, 2⟩] }

/-- A request that is parked on a load of eight tokens, with the state after them. -/
def mixedScheduler : Scheduler := { parkedOn [] with blocks := fun _ => [[1, 2, 3, 4], [0, 0, 0, 5]] }

/-- A report of one block. -/
def reportOf (b : Nat) : InvalidReport := ⟨{b}, ["a"], fun _ => 0⟩

theorem mixedScheduler_apart :
    Apart mixedConfig mixedScheduler mixedScheduler.asyncLoadReqs := by
  have hids : mixedScheduler.asyncLoadReqs = ["a"] := by decide
  rw [hids]
  exact fun id hid other hother hne =>
    absurd ((List.mem_singleton.1 hid).trans (List.mem_singleton.1 hother).symm) hne

theorem reportOf_scans (b : Nat) : (reportOf b).Scans mixedScheduler.asyncLoadReqs :=
  ⟨by
    have hids : mixedScheduler.asyncLoadReqs = ["a"] := by decide
    rw [hids]
    exact List.Perm.refl _, fun _ _ => rfl⟩

/-- The state is reported first. -/
theorem reports_agree_iff_mixed :
    ReportsAgree mixedConfig mixedScheduler [reportOf 5, reportOf 2] ↔
      ∀ id ∈ mixedScheduler.asyncLoadReqs, ∀ r, mixedScheduler.requests id = some r →
        MinimumForemost mixedConfig (allInvalid [reportOf 5, reportOf 2])
            (blockPlaces mixedConfig (mixedScheduler.blocks id)) r.numComputedTokens ∧
          (StateReported mixedConfig (allInvalid [reportOf 5, reportOf 2])
              (blockPlaces mixedConfig (mixedScheduler.blocks id)) →
            Invalidated mixedConfig (blockPlaces mixedConfig (mixedScheduler.blocks id))
              ([reportOf 5, reportOf 2].map InvalidReport.invalid) r.numComputedTokens) :=
  reports_agree_iff mixedConfig (by decide) mixedScheduler (by decide) mixedScheduler_apart
    [reportOf 5, reportOf 2] fun report hreport => by
      rcases List.mem_pair.1 hreport with rfl | rfl
      · exact reportOf_scans 5
      · exact reportOf_scans 2

/-- **The state is reported second**: the first report truncates the request to two tokens, and the
second one does not come to the state, with which the request keeps the two. -/
theorem state_reported_late :
    ¬ReportsAgree mixedConfig mixedScheduler [reportOf 2, reportOf 5] := by
  intro h
  have hrequest := h.request "a" (by decide) parkedRequest rfl
  revert hrequest
  decide

end Scheduler

end Lmcache

end DgxSpark
