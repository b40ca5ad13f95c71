import DgxSpark.Lmcache.Transfer

/-!
# The read locks of a retrieve

A retrieve is called with a read lock on every object in the windows of its groups. The lock of
an object is released by the callback of its window, or at once by `read_prefetched_results`
where the window is not complete or its caller raises; the windows after that one are left as
they are.

`DgxSpark.Lmcache.Retrieve.retrieve_balanced_iff` says when each lock is released once, and none
before the copies from its object are done.
-/

namespace DgxSpark

namespace Lmcache

/-! ### What is released -/

/-- The keys whose objects an act copies. -/
def Act.copies {Key : Type} : Act Key → List Key
  | .batch step => step.staged
  | _ => []

/-- The keys that an act releases at once. -/
def Act.frees {Key : Type} : Act Key → List Key
  | .finishRead keys => keys
  | _ => []

/-- The keys that an act releases when the stream has come to it. -/
def Act.defers {Key : Type} : Act Key → List Key
  | .callback keys => keys
  | _ => []

section Releases

variable {Key : Type}

/-- The keys from whose objects something is copied. -/
def copied (acts : List (Act Key)) : List Key := acts.flatMap Act.copies

/-- The keys that are released at once. -/
def freed (acts : List (Act Key)) : List Key := acts.flatMap Act.frees

/-- The keys that are released, once the callbacks have run. -/
def released (acts : List (Act Key)) : List Key :=
  acts.flatMap fun a => a.frees ++ a.defers

/-- A callback releases a key, and comes before a copy from its object. -/
def DefersEarly (k : Key) : List (Act Key) → Prop
  | [] => False
  | a :: acts => (k ∈ a.defers ∧ k ∈ copied acts) ∨ DefersEarly k acts

/-- A key is released before what was enqueued from its object has been copied: at once, or in
the order of the stream. -/
def ReleasedEarly (acts : List (Act Key)) (k : Key) : Prop :=
  (k ∈ freed acts ∧ k ∈ copied acts) ∨ DefersEarly k acts

variable [DecidableEq Key]

/-- **Each of `keys` that is held is released once**, none twice, and none early. -/
structure Balanced (keys : List Key) (held : Key → Bool) (acts : List (Act Key)) : Prop where
  held : ∀ k ∈ keys, held k = true → (released acts).count k = 1
  once : ∀ k, (released acts).count k ≤ 1
  late : ∀ k, ¬ReleasedEarly acts k

end Releases

namespace Retrieve

variable {Key : Type}

/-- The keys that are locked for a retrieve: of each object group, those in its window. -/
def retained (r : Retrieve Key) : List Key :=
  r.keys.zipIdx.flatMap fun p => p.1.drop (r.ctx.skipChunks r.numChunks p.2)

/-- All of a window is read, and nothing raises. -/
def IsDone (o : Outcomes Key) (w : StreamWindow Key) : Prop :=
  w.keys.all o.readable = true ∧ o.window w = .done

instance (o : Outcomes Key) (w : StreamWindow Key) : Decidable (IsDone o w) :=
  inferInstanceAs (Decidable (_ ∧ _))

/-- The batches that are enqueued of a window that is not done. -/
def partialSteps (r : Retrieve Key) (o : Outcomes Key) (w : StreamWindow Key) :
    List (BatchStep Key) :=
  if w.keys.all o.readable then
    match o.window w with
    | .transferRaises batches copies => issued (r.steps w) batches copies
    | .callbackRaises => r.steps w
    | _ => []
  else []

/-- The stream ends with the last window, or at one of which nothing was copied and after which
nothing is held. -/
def EndsClean (r : Retrieve Key) (o : Outcomes Key) (held : Key → Bool) :
    List (StreamWindow Key) → Prop
  | [] => True
  | w :: ws =>
    if IsDone o w then r.EndsClean o held ws
    else (r.partialSteps o w).flatMap BatchStep.staged = [] ∧
      ∀ k ∈ ws.flatMap StreamWindow.keys, held k = false

end Retrieve

namespace Retrieve

section Windows

variable {Key : Type} {r : Retrieve Key} {w : StreamWindow Key}

/-- The windows hold the retained keys. -/
theorem windows_keys (r : Retrieve Key) :
    r.windows.flatMap StreamWindow.keys = r.retained := by
  rw [windows, retained, List.flatMap_assoc]
  congr 1
  funext p
  rw [groupWindows, List.flatMap_map]
  exact slices_flatMap (lt_of_lt_of_le Nat.zero_lt_one (le_max_left _ _)) _

/-- The objects of a batch are those of its window. -/
theorem mem_keys_of_mem_steps {step : BatchStep Key} (hstep : step ∈ r.steps w) {k : Key}
    (hk : k ∈ step.staged) : k ∈ w.keys := by
  rw [steps, CacheContext.transfer, List.mem_filterMap] at hstep
  obtain ⟨p, hp, hsome⟩ := hstep
  rw [CacheContext.batchStep] at hsome
  dsimp only at hsome
  split at hsome
  · cases hsome
  · cases hsome
    exact List.mem_of_mem_drop (mem_of_mem_slicesFrom hp hk)

theorem mem_keys_of_mem_issued {batches copies : Nat} {step : BatchStep Key}
    (hstep : step ∈ issued (r.steps w) batches copies) {k : Key} (hk : k ∈ step.staged) :
    k ∈ w.keys := by
  rw [issued, List.mem_append] at hstep
  rcases hstep with hstep | hstep
  · exact mem_keys_of_mem_steps (List.mem_of_mem_take hstep) hk
  · obtain ⟨step', hstep', rfl⟩ := List.mem_map.1 hstep
    have hmem : step' ∈ r.steps w :=
      List.mem_of_getElem? (Option.mem_toList.1 hstep')
    exact mem_keys_of_mem_steps hmem (List.mem_of_mem_take hk)

theorem mem_keys_of_mem_partialSteps {o : Outcomes Key} {step : BatchStep Key}
    (hstep : step ∈ r.partialSteps o w) {k : Key} (hk : k ∈ step.staged) : k ∈ w.keys := by
  rw [partialSteps] at hstep
  split at hstep
  · split at hstep
    · exact mem_keys_of_mem_issued hstep hk
    · exact mem_keys_of_mem_steps hstep hk
    · cases hstep
  · cases hstep

/-- A window that is done. -/
theorem windowActs_done {o : Outcomes Key} (h : IsDone o w) :
    r.windowActs o w = ((r.steps w).map .batch ++ [.callback w.keys], true) := by
  rw [windowActs, if_pos h.1, h.2]

/-- **A window that is not done** releases at once what it has read. -/
theorem windowActs_not_done {o : Outcomes Key} (h : ¬IsDone o w) : ∃ keys : List Key,
    r.windowActs o w = ((r.partialSteps o w).map .batch ++ [.finishRead keys], false) ∧
      keys.Sublist w.keys ∧ (∀ k ∈ w.keys, o.readable k = true → k ∈ keys) ∧
      ∀ step ∈ r.partialSteps o w, ∀ k ∈ step.staged, k ∈ keys := by
  by_cases hread : w.keys.all o.readable = true
  · have hstaged : ∀ step ∈ r.partialSteps o w, ∀ k ∈ step.staged, k ∈ w.keys :=
      fun step hstep k hk => mem_keys_of_mem_partialSteps hstep hk
    refine ⟨w.keys, ?_, List.Sublist.refl _, fun k hk _ => hk, hstaged⟩
    rw [windowActs, partialSteps, if_pos hread, if_pos hread]
    cases hw : o.window w with
    | done => exact absurd ⟨hread, hw⟩ h
    | sliceRaises => rfl
    | transferRaises batches copies => rfl
    | callbackRaises => rfl
  · refine ⟨w.keys.filter o.readable, ?_, List.filter_sublist, fun k hk hr => ?_, ?_⟩
    · rw [windowActs, partialSteps, if_neg hread, if_neg hread]
      rfl
    · exact List.mem_filter.2 ⟨hk, hr⟩
    · rw [partialSteps, if_neg hread]
      nofun

end Windows

/-! ### The balance -/

section Balance

variable {Key : Type} {steps : List (BatchStep Key)} {acts : List (Act Key)} {k : Key}

theorem copied_batches : copied (steps.map .batch ++ acts) =
    steps.flatMap BatchStep.staged ++ copied acts := by
  rw [copied, List.flatMap_append, List.flatMap_map]
  rfl

theorem freed_batches : freed (steps.map .batch ++ acts) = freed acts := by
  induction steps with
  | nil => rfl
  | cons step steps ih => exact ih

theorem released_batches : released (steps.map .batch ++ acts) = released acts := by
  induction steps with
  | nil => rfl
  | cons step steps ih => exact ih

theorem defersEarly_batches : DefersEarly k (steps.map .batch ++ acts) ↔ DefersEarly k acts := by
  induction steps with
  | nil => rfl
  | cons step steps ih =>
    rw [List.map_cons, List.cons_append, DefersEarly, ih]
    exact or_iff_right fun h => List.not_mem_nil h.1

/-- What is freed or deferred is released. -/
theorem mem_released_of_mem_freed (h : k ∈ freed acts) : k ∈ released acts := by
  obtain ⟨a, ha, hk⟩ := List.mem_flatMap.1 h
  exact List.mem_flatMap.2 ⟨a, ha, List.mem_append_left _ hk⟩

variable {r : Retrieve Key} {o : Outcomes Key}

/-- The stream is about the keys of its windows. -/
theorem mem_keys_of_stream (ws : List (StreamWindow Key))
    (hk : k ∈ released (r.stream o ws).1 ∨ k ∈ copied (r.stream o ws).1) :
    k ∈ ws.flatMap StreamWindow.keys := by
  induction ws with
  | nil =>
    rcases hk with hk | hk
    · cases hk
    · cases hk
  | cons w ws ih =>
    rw [List.flatMap_cons, List.mem_append]
    by_cases hdone : IsDone o w
    · rw [stream, windowActs_done hdone] at hk
      dsimp only at hk
      rw [List.append_assoc, released_batches, copied_batches, List.mem_append] at hk
      rcases hk with hk | hk | hk
      · rcases List.mem_append.1 hk with hk | hk
        · exact .inl hk
        · exact .inr (ih (.inl hk))
      · obtain ⟨step, hstep, hk⟩ := List.mem_flatMap.1 hk
        exact .inl (mem_keys_of_mem_steps hstep hk)
      · exact .inr (ih (.inr hk))
    · obtain ⟨keys, hacts, hsub, -, hstaged⟩ := windowActs_not_done (r := r) hdone
      rw [stream, hacts] at hk
      dsimp only at hk
      rw [released_batches, copied_batches, List.mem_append] at hk
      left
      rcases hk with hk | hk | hk
      · refine hsub.subset ?_
        simpa [released, Act.frees, Act.defers] using hk
      · obtain ⟨step, hstep, hk⟩ := List.mem_flatMap.1 hk
        exact hsub.subset (hstaged step hstep k hk)
      · simp [copied, Act.copies] at hk

variable [DecidableEq Key] {held : Key → Bool}

/-- **The stream is balanced exactly if it ends clean.** -/
theorem balanced_stream_iff (ws : List (StreamWindow Key))
    (hnodup : (ws.flatMap StreamWindow.keys).Nodup)
    (hread : ∀ k ∈ ws.flatMap StreamWindow.keys, held k = true → o.readable k = true) :
    Balanced (ws.flatMap StreamWindow.keys) held (r.stream o ws).1 ↔ r.EndsClean o held ws := by
  induction ws with
  | nil =>
    refine ⟨fun _ => trivial, fun _ => ⟨nofun, fun k => Nat.zero_le _, fun k h => ?_⟩⟩
    rcases h with h | h
    · cases h.1
    · cases h
  | cons w ws ih =>
    rw [List.flatMap_cons] at hnodup hread ⊢
    obtain ⟨hw, hws, hapart⟩ := List.nodup_append'.1 hnodup
    have ih := ih hws fun k hk => hread k (List.mem_append_right _ hk)
    rw [EndsClean]
    by_cases hdone : IsDone o w
    · rw [if_pos hdone, ← ih, stream, windowActs_done hdone]
      dsimp only
      have hreleased : released ((r.steps w).map Act.batch ++ [.callback w.keys] ++
          (r.stream o ws).1) = w.keys ++ released (r.stream o ws).1 := by
        rw [List.append_assoc, released_batches]
        rfl
      have hrest : ∀ k ∈ w.keys, (released (r.stream o ws).1).count k = 0 := by
        intro k hk
        refine List.count_eq_zero.2 fun h => hapart hk ?_
        exact mem_keys_of_stream ws (.inl h)
      have hcount : ∀ k, (w.keys ++ released (r.stream o ws).1).count k =
          if k ∈ w.keys then 1 else (released (r.stream o ws).1).count k := by
        intro k
        rw [List.count_append]
        split
        · rename_i hk
          rw [hrest k hk, List.count_eq_one_of_mem hw hk]
        · rename_i hk
          rw [List.count_eq_zero.2 hk, Nat.zero_add]
      have hearly : ∀ k, ReleasedEarly ((r.steps w).map Act.batch ++ [.callback w.keys] ++
          (r.stream o ws).1) k ↔ ReleasedEarly (r.stream o ws).1 k := by
        intro k
        rw [List.append_assoc, ReleasedEarly, freed_batches, copied_batches, defersEarly_batches]
        have hfreed : freed ([Act.callback w.keys] ++ (r.stream o ws).1) =
            freed (r.stream o ws).1 := rfl
        have hcopied : copied ([Act.callback w.keys] ++ (r.stream o ws).1) =
            copied (r.stream o ws).1 := rfl
        rw [hfreed, hcopied]
        constructor
        · rintro (⟨hfree, hcopy⟩ | ⟨hdefer, hcopy⟩ | hdefer)
          · refine .inl ⟨hfree, (List.mem_append.1 hcopy).resolve_left fun hstaged => ?_⟩
            obtain ⟨step, hstep, hk⟩ := List.mem_flatMap.1 hstaged
            exact hapart (mem_keys_of_mem_steps hstep hk)
              (mem_keys_of_stream ws (.inl (mem_released_of_mem_freed hfree)))
          · exact absurd (mem_keys_of_stream ws (.inr hcopy)) (hapart hdefer)
          · exact .inr hdefer
        · rintro (⟨hfree, hcopy⟩ | hdefer)
          · exact .inl ⟨hfree, List.mem_append_right _ hcopy⟩
          · exact .inr (.inr hdefer)
      constructor
      · intro h
        refine ⟨fun k hk hheld => ?_, fun k => ?_, fun k => ?_⟩
        · have hone := h.held k (List.mem_append_right _ hk) hheld
          rw [hreleased, hcount, if_neg fun h => hapart h hk] at hone
          exact hone
        · have honce := h.once k
          rw [hreleased, hcount] at honce
          split at honce
          · rename_i hk
            rw [hrest k hk]
            exact Nat.zero_le 1
          · exact honce
        · rw [← hearly]
          exact h.late k
      · intro h
        refine ⟨fun k hk hheld => ?_, fun k => ?_, fun k => ?_⟩
        · rw [hreleased, hcount]
          split
          · rfl
          · rename_i hnot
            exact h.held k ((List.mem_append.1 hk).resolve_left hnot) hheld
        · rw [hreleased, hcount]
          split
          · exact le_rfl
          · exact h.once k
        · rw [hearly]
          exact h.late k
    · rw [if_neg hdone]
      obtain ⟨keys, hacts, hsub, hkept, hstaged⟩ := windowActs_not_done (r := r) hdone
      rw [stream, hacts]
      dsimp only
      have hreleased : released ((r.partialSteps o w).map Act.batch ++ [.finishRead keys]) =
          keys := by
        rw [released_batches]
        simp [released, Act.frees, Act.defers]
      have hearly : ∀ k, ReleasedEarly ((r.partialSteps o w).map Act.batch ++
          [.finishRead keys]) k ↔ k ∈ (r.partialSteps o w).flatMap BatchStep.staged := by
        intro k
        rw [ReleasedEarly, freed_batches, copied_batches, defersEarly_batches]
        simp only [freed, copied, Act.frees, Act.copies, DefersEarly, Act.defers,
          List.flatMap_cons, List.flatMap_nil, List.append_nil, List.not_mem_nil, false_and,
          or_false]
        refine ⟨And.right, fun hk => ⟨?_, hk⟩⟩
        obtain ⟨step, hstep, hk⟩ := List.mem_flatMap.1 hk
        exact hstaged step hstep k hk
      have hkeys : keys.Nodup := hsub.nodup hw
      constructor
      · intro h
        refine ⟨List.eq_nil_iff_forall_not_mem.2 fun k hk => h.late k ((hearly k).2 hk),
          fun k hk => Bool.eq_false_iff.2 fun hheld => ?_⟩
        have hone := h.held k (List.mem_append_right _ hk) hheld
        rw [hreleased] at hone
        have hmem : k ∈ keys := List.count_pos_iff.1 (hone ▸ Nat.zero_lt_one)
        exact hapart (hsub.subset hmem) hk
      · rintro ⟨hnone, hrest⟩
        refine ⟨fun k hk hheld => ?_, fun k => ?_, fun k => ?_⟩
        · rw [hreleased]
          rcases List.mem_append.1 hk with hmem | hmem
          · exact List.count_eq_one_of_mem hkeys (hkept k hmem (hread k hk hheld))
          · rw [hrest k hmem] at hheld
            cases hheld
        · rw [hreleased]
          exact List.nodup_iff_count_le_one.1 hkeys k
        · rw [hearly, hnone]
          exact List.not_mem_nil

end Balance

end Retrieve

namespace Retrieve

section Main

variable {Key : Type} [DecidableEq Key]

/-- **A retrieve releases exactly what it holds** if its stream ends clean, where the underflow
check lets it begin; otherwise only if nothing is held. -/
theorem retrieve_balanced_iff {r : Retrieve Key} {o : Outcomes Key} {held : Key → Bool}
    (hnodup : r.retained.Nodup)
    (hread : ∀ k ∈ r.retained, held k = true → o.readable k = true) :
    Balanced r.retained held (r.trace o).1 ↔
      if r.accepted then r.EndsClean o held r.windows else ∀ k ∈ r.retained, held k = false := by
  rw [trace]
  by_cases haccepted : r.accepted = true
  · rw [if_pos haccepted, if_pos haccepted]
    rw [← windows_keys] at hnodup hread ⊢
    exact balanced_stream_iff r.windows hnodup hread
  · rw [if_neg haccepted, if_neg haccepted]
    constructor
    · intro h k hk
      refine Bool.eq_false_iff.2 fun hheld => ?_
      have hone := h.held k hk hheld
      cases hone
    · intro h
      refine ⟨fun k hk hheld => ?_, fun k => Nat.zero_le _, fun k hearly => ?_⟩
      · rw [h k hk] at hheld
        cases hheld
      · rcases hearly with hearly | hearly
        · cases hearly.1
        · cases hearly

theorem retrieve_balanced_iff_mixedChunks :
    Balanced mixedChunks.retained (fun _ => true)
        (mixedChunks.trace ⟨fun _ => true, fun _ => .done⟩).1 ↔
      if mixedChunks.accepted then
        mixedChunks.EndsClean ⟨fun _ => true, fun _ => .done⟩ (fun _ => true) mixedChunks.windows
      else ∀ k ∈ mixedChunks.retained, (fun _ => true) k = false :=
  retrieve_balanced_iff (by decide) fun _ _ _ => rfl

/-- The object of the first window is missing: the key of the second stays locked. -/
theorem missing_object_leaks :
    ¬Balanced twoChunks.retained (fun k => k = 2)
      (twoChunks.trace ⟨fun k => k = 2, fun _ => .done⟩).1 := by
  intro h
  have hone := h.held 2 (by decide) (by decide)
  revert hone
  decide

end Main

end Retrieve

end Lmcache

end DgxSpark
