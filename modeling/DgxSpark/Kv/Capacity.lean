import DgxSpark.Lib.Search
import DgxSpark.Kv.Layout

/-!
# How long a request may be

The planner of `vllm/v1/core/kv_cache_utils.py` computes what one request of the maximal length
takes of the memory of a worker (`_max_memory_usage_bytes_from_groups`), and refuses to start when
that is more than there is (`_check_enough_kv_cache_memory`). With `max_model_len = -1` it looks
for the length itself: by bisection for each worker, and the smallest of the results for all
(`_auto_fit_max_model_len`).

What a specification needs grows with the length, and with it what the groups need
(`DgxSpark.Kv.maxMemory_grows`); so the length that is found is the greatest one that fits all
workers, and the check that follows has nothing to refuse (`DgxSpark.Kv.auto_fit_greatest`).
-/

namespace DgxSpark

namespace Kv

variable {σ : Type}

/-! ### What a request needs -/

section Needs

variable (api : SpecClass σ)

/-- `_pool_bytes_per_block`. -/
def poolBytesPerBlock (config : PlannerConfig) (groups : List (KVCacheGroupSpec σ)) :
    Except PlanError Nat :=
  if useLockstepMlaAllocation api groups config.decodeContextParallelSize then do
    let tensorSlots ← getLockstepMlaTensorSlots api groups
    pure (tensorSlots.map Prod.fst).sum
  else if isSingleUniformType groups then
    pure (groups.map fun group => group.kvCacheSpec.pageSizeBytes api).sum
  else if usePackedKvCacheConfig api config groups then do
    let layout ← getPackedKvCacheLayout api groups
    pure layout.1
  else do
    let pageSize ← getUniformPageSize api (groups.map fun group => group.kvCacheSpec)
    pure (pageSize * groupSize groups)

/-- Division, rounded up. -/
def cdiv (a b : Nat) : Except PlanError Nat :=
  if b = 0 then .error .zeroDivision else .ok ((a + b - 1) / b)

/-- The specifications of a group that has one for each layer. -/
def KVCacheSpec.kvCacheSpecs : KVCacheSpec σ → List (String × σ)
  | .layer _ => []
  | .uniformType _ specs => specs

/-- `_max_memory_usage_bytes_from_groups`, for a maximal model length. -/
def maxMemoryUsageBytesFromGroups (config : PlannerConfig) (groups : List (KVCacheGroupSpec σ))
    (maxModelLen : Nat) : Except PlanError Nat :=
  match groups with
  | [] => .ok 0
  | group :: _ =>
    if useLockstepMlaAllocation api groups config.decodeContextParallelSize then do
      let requestBlocks ← groups.mapM fun group =>
        cdiv (group.kvCacheSpec.maxMemoryUsageBytes api maxModelLen)
          (group.kvCacheSpec.pageSizeBytes api)
      let bytesPerBlock ← poolBytesPerBlock api config groups
      pure (requestBlocks.foldr max 0 * bytesPerBlock)
    else if isSingleUniformType groups then
      pure (group.kvCacheSpec.kvCacheSpecs.map fun entry =>
        api.maxMemoryUsageBytes maxModelLen entry.2).sum
    else if groups.all fun group => group.kvCacheSpec.isUniformType then
      let layerTupleBytes := (api.pageSizes group.kvCacheSpec.kvCacheSpecs).sum
      let numLayerTuples := (groups.map fun group =>
        api.numLayerTuples group.kvCacheSpec.kvCacheSpecs).foldr max 0
      pure (groups.map fun group =>
        numLayerTuples * api.uniformMaxMemoryUsagePages maxModelLen group.kvCacheSpec.kvCacheSpecs *
          layerTupleBytes).sum
    else do
      let pageSize ← getUniformPageSize api (groups.map fun group => group.kvCacheSpec)
      let blocksNeeded ← groups.mapM fun group =>
        cdiv (group.kvCacheSpec.maxMemoryUsageBytes api maxModelLen) pageSize
      pure (groupSize groups * pageSize * blocksNeeded.sum)

/-- Whether a request of some length fits. -/
def fits (config : PlannerConfig) (groups : List (KVCacheGroupSpec σ)) (availableMemory : Int)
    (modelLen : Nat) : Except PlanError Bool := do
  let needed ← maxMemoryUsageBytesFromGroups api config groups modelLen
  pure (decide ((needed : Int) ≤ availableMemory))

/-- `_estimate_max_model_len_from_groups`. -/
def estimateMaxModelLenFromGroups (config : PlannerConfig) (groups : List (KVCacheGroupSpec σ))
    (availableMemory : Int) : Except PlanError Nat := do
  if ← fits api config groups availableMemory 1 then
    Search.bisect (fits api config groups availableMemory) config.maxModelLen 1 config.maxModelLen 1
  else pure 0

/-- The smallest of the lengths that the workers can serve, and of `best`. -/
def smallestEstimate (config : PlannerConfig) :
    List (List (KVCacheGroupSpec σ) × Int) → Nat → Except PlanError Nat
  | [], best => .ok best
  | worker :: workers, best =>
    if worker.1.isEmpty then smallestEstimate config workers best
    else do
      let workerMax ← estimateMaxModelLenFromGroups api config worker.1 worker.2
      smallestEstimate config workers (if workerMax < best then workerMax else best)

/-- `_auto_fit_max_model_len`, for the groups of each worker and its memory. -/
def autoFitMaxModelLen (config : PlannerConfig)
    (projectedGroupsPerWorker : List (List (KVCacheGroupSpec σ))) (availableMemory : List Int) :
    Except PlanError PlannerConfig :=
  if projectedGroupsPerWorker.all fun groups => groups.isEmpty then .ok config
  else if availableMemory.isEmpty then .error .indexError
  else do
    let autoFitMax ← smallestEstimate api config
      (projectedGroupsPerWorker.zip availableMemory) config.maxModelLen
    if autoFitMax ≤ 0 then
      throw (.valueError ("Cannot auto-fit max_model_len: not enough GPU memory available " ++
        "to serve even a single token. Try increasing `gpu_memory_utilization`."))
    else if config.maxModelLen ≤ autoFitMax then pure config
    else pure { config with maxModelLen := autoFitMax }

/-- `_check_enough_kv_cache_memory`, with the needs and the estimate that the planner passes. -/
def checkEnoughKvCacheMemory (config : PlannerConfig) (groups : List (KVCacheGroupSpec σ))
    (availableMemory : Int) : Except PlanError Unit :=
  if availableMemory ≤ 0 then
    .error (.valueError ("No available memory for the cache blocks. " ++
      "Try increasing `gpu_memory_utilization` when initializing the engine " ++
      "(this flag also controls CPU memory reservation on the CPU " ++
      "backend, despite its name). " ++
      "See https://docs.vllm.ai/en/latest/configuration/conserving_memory/ " ++
      "for more details."))
  else do
    let neededMemory ← maxMemoryUsageBytesFromGroups api config groups config.maxModelLen
    if availableMemory < neededMemory then
      let estimatedMaxLen ← estimateMaxModelLenFromGroups api config groups availableMemory
      let estimatedMsg := if 0 < estimatedMaxLen then
        "Based on the available memory, the estimated maximum model length is " ++
          toString estimatedMaxLen ++ ". " else ""
      throw (.valueError ("To serve at least one request with the model's max seq len " ++
        "(" ++ toString config.maxModelLen ++ "), (" ++ api.formatGib neededMemory ++
        " GiB KV cache is needed, which is larger than the available KV cache " ++
        "memory (" ++ api.formatGib availableMemory ++ " GiB). " ++ estimatedMsg ++
        "Try increasing `gpu_memory_utilization` (which also controls " ++
        "CPU memory on the CPU backend) or decreasing `max_model_len` " ++
        "when initializing the engine. " ++
        "See https://docs.vllm.ai/en/latest/configuration/conserving_memory/ " ++
        "for more details."))
    else pure ()

end Needs

/-! ### The needs grow with the length -/

/-- A computation that grows with the length, or fails for every length alike. -/
def Grows (f : Nat → Except PlanError Nat) : Prop :=
  (∃ g : Nat → Nat, Monotone g ∧ ∀ n, f n = .ok (g n)) ∨ ∃ e, ∀ n, f n = .error e

/-- The needs of each specification grow with the length. -/
structure SpecClass.GrowsWithLength (api : SpecClass σ) : Prop where
  layer : ∀ spec, Monotone fun len => api.maxMemoryUsageBytes len spec
  uniform : ∀ specs, Monotone fun len => api.uniformMaxMemoryUsageBytes len specs
  pages : ∀ specs, Monotone fun len => api.uniformMaxMemoryUsagePages len specs

theorem Grows.of_monotone {g : Nat → Nat} (h : Monotone g) : Grows fun n => .ok (g n) :=
  .inl ⟨g, h, fun _ => rfl⟩

/-- What is computed from what does not depend on the length. -/
theorem Grows.bind_const {α : Type} {x : Except PlanError α} {f : α → Nat → Except PlanError Nat}
    (h : ∀ a, Grows (f a)) : Grows fun n => x >>= fun a => f a n := by
  rcases x with e | a
  · exact .inr ⟨e, fun _ => rfl⟩
  · exact h a

/-- One computation that grows after another. -/
theorem Grows.bind {f k : Nat → Except PlanError Nat} (hf : Grows f) (hk : Grows k) :
    Grows fun n => f n >>= k := by
  rcases hf with ⟨g, hg, hf⟩ | ⟨e, hf⟩
  · rcases hk with ⟨v, hv, hk⟩ | ⟨e, hk⟩
    · refine .inl ⟨fun n => v (g n), hv.comp hg, fun n => ?_⟩
      show (f n >>= k) = _
      rw [hf n]
      exact hk (g n)
    · refine .inr ⟨e, fun n => ?_⟩
      show (f n >>= k) = _
      rw [hf n]
      exact hk (g n)
  · refine .inr ⟨e, fun n => ?_⟩
    show (f n >>= k) = _
    rw [hf n]
    rfl

theorem cdiv_grows {g : Nat → Nat} (hg : Monotone g) (b : Nat) : Grows fun n => cdiv (g n) b := by
  by_cases hb : b = 0
  · refine .inr ⟨.zeroDivision, fun n => ?_⟩
    show (if b = 0 then _ else _) = _
    rw [if_pos hb]
  · refine .inl ⟨fun n => (g n + b - 1) / b, fun m n hmn => ?_, fun n => ?_⟩
    · have := hg hmn
      exact Nat.div_le_div_right (by omega)
    · show (if b = 0 then _ else _) = _
      rw [if_neg hb]

/-- A fold of computations that grow, with an operation that grows in both arguments. -/
theorem mapM_grows {α : Type} (op : Nat → Nat → Nat)
    (hop : ∀ a a' b b', a ≤ a' → b ≤ b' → op a b ≤ op a' b') {f : α → Nat → Except PlanError Nat}
    (xs : List α) (h : ∀ x ∈ xs, Grows (f x)) :
    Grows fun n => (xs.mapM fun x => f x n) >>= fun values => pure (values.foldr op 0) := by
  induction xs with
  | nil => exact .inl ⟨fun _ => 0, monotone_const, fun _ => rfl⟩
  | cons x xs ih =>
    have ih := ih fun y hy => h y (List.mem_cons_of_mem _ hy)
    have hsplit : ∀ n, ((x :: xs).mapM fun x => f x n) >>=
          (fun values => pure (values.foldr op 0)) =
        f x n >>= fun a => ((xs.mapM fun x => f x n) >>= fun values =>
          pure (values.foldr op 0)) >>= fun b => pure (op a b) := by
      intro n
      rw [List.mapM_cons]
      cases f x n with
      | error e => rfl
      | ok a =>
        cases xs.mapM fun x => f x n <;> rfl
    rcases h x List.mem_cons_self with ⟨g, hg, hf⟩ | ⟨e, hf⟩
    · rcases ih with ⟨v, hv, hrest⟩ | ⟨e, hrest⟩ <;> beta_reduce at hrest
      · refine .inl ⟨fun n => op (g n) (v n), fun m n hmn => hop _ _ _ _ (hg hmn) (hv hmn), ?_⟩
        intro n
        refine (hsplit n).trans ?_
        rw [hf, hrest]
        rfl
      · refine .inr ⟨e, fun n => (hsplit n).trans ?_⟩
        rw [hf, hrest]
        rfl
    · refine .inr ⟨e, fun n => (hsplit n).trans ?_⟩
      rw [hf]
      rfl

/-- A sum of values that grow. -/
theorem sum_monotone {α : Type} {f : α → Nat → Nat} (xs : List α) (h : ∀ x, Monotone (f x)) :
    Monotone fun n => (xs.map fun x => f x n).sum := by
  intro m n hmn
  induction xs with
  | nil => exact le_rfl
  | cons x xs ih => exact Nat.add_le_add (h x hmn) ih

section Growth

variable {api : SpecClass σ}

theorem spec_grows (hapi : api.GrowsWithLength) (spec : KVCacheSpec σ) :
    Monotone fun len => spec.maxMemoryUsageBytes api len := by
  cases spec with
  | layer spec => exact hapi.layer spec
  | uniformType _ specs => exact hapi.uniform specs

/-- **The needs of the groups grow with the length.** -/
theorem maxMemory_grows (hapi : api.GrowsWithLength) (config : PlannerConfig)
    (groups : List (KVCacheGroupSpec σ)) :
    Grows (maxMemoryUsageBytesFromGroups api config groups) := by
  rcases groups with - | ⟨group, more⟩
  · exact Grows.of_monotone (monotone_const (c := 0))
  · unfold maxMemoryUsageBytesFromGroups
    by_cases hlock : useLockstepMlaAllocation api (group :: more) config.decodeContextParallelSize
    · simp only [if_pos hlock]
      have hblocks := mapM_grows max (fun _ _ _ _ h h' => max_le_max h h')
        (f := fun (g : KVCacheGroupSpec σ) n => cdiv (g.kvCacheSpec.maxMemoryUsageBytes api n)
          (g.kvCacheSpec.pageSizeBytes api)) (group :: more)
        fun g _ => cdiv_grows (spec_grows hapi g.kvCacheSpec) _
      have hbytes : Grows fun blocks => poolBytesPerBlock api config (group :: more) >>=
          fun bytesPerBlock => pure (blocks * bytesPerBlock) :=
        Grows.bind_const fun bytesPerBlock =>
          Grows.of_monotone fun _ _ h => Nat.mul_le_mul_right bytesPerBlock h
      simpa only [bind_assoc, pure_bind] using hblocks.bind hbytes
    · simp only [if_neg hlock]
      by_cases hsingle : isSingleUniformType (group :: more) = true
      · simp only [if_pos hsingle]
        exact Grows.of_monotone (sum_monotone _ fun entry => hapi.layer entry.2)
      · simp only [if_neg hsingle]
        by_cases hall : ((group :: more).all fun group => group.kvCacheSpec.isUniformType) = true
        · simp only [if_pos hall]
          refine Grows.of_monotone (sum_monotone _ fun g m n hmn => ?_)
          exact Nat.mul_le_mul_right _ (Nat.mul_le_mul_left _ (hapi.pages _ hmn))
        · simp only [if_neg hall]
          refine Grows.bind_const fun pageSize => ?_
          have hblocks := mapM_grows (· + ·) (fun _ _ _ _ h h' => Nat.add_le_add h h')
            (f := fun (g : KVCacheGroupSpec σ) n => cdiv (g.kvCacheSpec.maxMemoryUsageBytes api n)
              pageSize) (group :: more) fun g _ => cdiv_grows (spec_grows hapi g.kvCacheSpec) _
          have hbytes : Grows fun blocks => pure (groupSize (group :: more) * pageSize * blocks) :=
            Grows.of_monotone fun _ _ h => Nat.mul_le_mul_left _ h
          simpa only [bind_assoc, pure_bind, List.sum_eq_foldr] using hblocks.bind hbytes

end Growth

/-! ### The greatest length -/

section AutoFit

variable {api : SpecClass σ} {config : PlannerConfig} {groups : List (KVCacheGroupSpec σ)}

/-- Where the needs are defined for one length they are for all, and a shorter request fits where
a longer one does. -/
theorem fits_eq (hapi : api.GrowsWithLength) (availableMemory : Int)
    (hone : ∃ needed, maxMemoryUsageBytesFromGroups api config groups 1 = .ok needed) :
    ∃ p : Nat → Bool, (∀ n, fits api config groups availableMemory n = .ok (p n)) ∧
      ∀ m n, m ≤ n → p n = true → p m = true := by
  rcases maxMemory_grows hapi config groups with ⟨needs, hmono, hneeds⟩ | ⟨e, herror⟩
  · refine ⟨fun n => decide ((needs n : Int) ≤ availableMemory), fun n => ?_,
      fun m n hmn hn => ?_⟩
    · rw [fits, hneeds]
      rfl
    · have := hmono hmn
      exact decide_eq_true (by have := of_decide_eq_true hn; omega)
  · obtain ⟨needed, hneeded⟩ := hone
    exact absurd ((herror 1).symm.trans hneeded) (by simp)

/-- **The estimate of a worker** separates the lengths that fit from those that do not. -/
theorem estimate_exact (hapi : api.GrowsWithLength) (availableMemory : Int)
    (hone : ∃ needed, maxMemoryUsageBytesFromGroups api config groups 1 = .ok needed)
    (hmax : 1 ≤ config.maxModelLen) :
    ∃ best, estimateMaxModelLenFromGroups api config groups availableMemory = .ok best ∧
      best ≤ config.maxModelLen ∧ ∀ n, 1 ≤ n → n ≤ config.maxModelLen →
        (fits api config groups availableMemory n = .ok true ↔ n ≤ best) := by
  obtain ⟨p, hfits, hanti⟩ := fits_eq hapi availableMemory hone
  have hok : ∀ n, fits api config groups availableMemory n = .ok true ↔ p n = true := fun n => by
    rw [hfits, Except.ok.injEq]
  cases hfirst : p 1 with
  | false =>
    refine ⟨0, ?_, Nat.zero_le _, fun n hn _ => ?_⟩
    · rw [estimateMaxModelLenFromGroups, hfits, hfirst]
      rfl
    · rw [hok]
      refine ⟨fun hpn => absurd (hanti 1 n hn hpn) ?_, fun hle => by omega⟩
      rw [hfirst]
      exact Bool.false_ne_true
  | true =>
    obtain ⟨best, hbest, hpbest, hle, hgreatest⟩ : ∃ best,
        Search.bisect (fits api config groups availableMemory) config.maxModelLen 1
          config.maxModelLen 1 = .ok best ∧ p best = true ∧ best ≤ config.maxModelLen ∧
          ∀ n ≤ config.maxModelLen, p n = true → n ≤ best :=
      Search.bisect_greatest hfits hanti config.maxModelLen le_rfl (by omega) (by omega) hfirst
        hmax le_rfl fun n hlt hn => absurd hn (Nat.not_le.2 hlt)
    refine ⟨best, ?_, hle, fun n _ hn => ?_⟩
    · rw [estimateMaxModelLenFromGroups, hfits, hfirst]
      exact hbest
    · rw [hok]
      exact ⟨hgreatest n hn, fun hnbest => hanti n best hnbest hpbest⟩

/-- A request of some length fits every worker that has groups. -/
def FitsAll (api : SpecClass σ) (config : PlannerConfig)
    (workers : List (List (KVCacheGroupSpec σ) × Int)) (modelLen : Nat) : Prop :=
  ∀ worker ∈ workers, worker.1 ≠ [] → fits api config worker.1 worker.2 modelLen = .ok true

/-- What the workers need can be computed. -/
def Computable (api : SpecClass σ) (config : PlannerConfig)
    (workers : List (List (KVCacheGroupSpec σ) × Int)) : Prop :=
  ∀ worker ∈ workers, worker.1 ≠ [] →
    ∃ needed, maxMemoryUsageBytesFromGroups api config worker.1 1 = .ok needed

/-- **The smallest estimate** separates the lengths that fit all workers from the others. -/
theorem smallestEstimate_exact (hapi : api.GrowsWithLength) (hmax : 1 ≤ config.maxModelLen)
    {workers : List (List (KVCacheGroupSpec σ) × Int)} (hall : Computable api config workers)
    {best : Nat} (hbest : best ≤ config.maxModelLen) :
    ∃ least, smallestEstimate api config workers best = .ok least ∧ least ≤ best ∧
      ∀ n, 1 ≤ n → n ≤ best → (FitsAll api config workers n ↔ n ≤ least) := by
  induction workers generalizing best with
  | nil =>
    exact ⟨best, rfl, le_rfl, fun n _ hn =>
      ⟨fun _ => hn, fun _ _ hmem => absurd hmem List.not_mem_nil⟩⟩
  | cons worker workers ih =>
    have hrest : Computable api config workers := fun w hw => hall w (List.mem_cons_of_mem _ hw)
    have hcons : ∀ n, FitsAll api config (worker :: workers) n ↔
        (worker.1 ≠ [] → fits api config worker.1 worker.2 n = .ok true) ∧
          FitsAll api config workers n := fun n => List.forall_mem_cons
    by_cases hempty : worker.1 = []
    · obtain ⟨least, hok, hle, hiff⟩ := ih hrest hbest
      refine ⟨least, ?_, hle, fun n hn hnbest => ?_⟩
      · rw [smallestEstimate, hempty]
        exact hok
      · rw [hcons, ← hiff n hn hnbest]
        exact and_iff_right fun hne => absurd hempty hne
    · obtain ⟨own, hown, -, hexact⟩ := estimate_exact hapi worker.2
        (hall worker List.mem_cons_self hempty) hmax
      have hmin : (if own < best then own else best) ≤ config.maxModelLen := by split <;> omega
      obtain ⟨least, hok, hle, hiff⟩ := ih hrest hmin
      refine ⟨least, ?_, hle.trans (by split <;> omega), fun n hn hnbest => ?_⟩
      · rw [smallestEstimate, if_neg (by rwa [List.isEmpty_iff]), hown]
        exact hok
      · rw [hcons]
        constructor
        · rintro ⟨hfirst, hothers⟩
          have hnown := (hexact n hn (hnbest.trans hbest)).1 (hfirst hempty)
          exact (hiff n hn (by split <;> omega)).1 hothers
        · intro hnleast
          have hnmin : n ≤ if own < best then own else best := hnleast.trans hle
          refine ⟨fun _ => (hexact n hn (hnbest.trans hbest)).2 ?_, (hiff n hn hnmin).2 hnleast⟩
          split at hnmin <;> omega

/-- What is estimated can be computed. -/
theorem computable_of_smallestEstimate {workers : List (List (KVCacheGroupSpec σ) × Int)}
    {best least : Nat} (h : smallestEstimate api config workers best = .ok least) :
    Computable api config workers := by
  induction workers generalizing best with
  | nil => exact fun _ hmem => absurd hmem List.not_mem_nil
  | cons worker workers ih =>
    rw [smallestEstimate] at h
    split at h
    · rename_i hempty
      exact List.forall_mem_cons.2 ⟨fun hne => absurd (List.isEmpty_iff.1 hempty) hne, ih h⟩
    · obtain ⟨workerMax, hworker, h⟩ := except_bind_eq_ok.1 h
      refine List.forall_mem_cons.2 ⟨fun _ => ?_, ih h⟩
      obtain ⟨_, hfits, -⟩ := except_bind_eq_ok.1 hworker
      obtain ⟨needed, hneeded, -⟩ := except_bind_eq_ok.1 hfits
      exact ⟨needed, hneeded⟩

/-- So can what fits. -/
theorem computable_of_fitsAll {workers : List (List (KVCacheGroupSpec σ) × Int)}
    (h : FitsAll api config workers 1) : Computable api config workers := by
  intro worker hworker hne
  obtain ⟨needed, hneeded, -⟩ := except_bind_eq_ok.1 (h worker hworker hne)
  exact ⟨needed, hneeded⟩

/-- Where something has groups, what is found was estimated. -/
theorem estimate_of_autoFit {projected : List (List (KVCacheGroupSpec σ))} {memory : List Int}
    (hsome : ∃ groups ∈ projected, groups ≠ []) {config' : PlannerConfig}
    (h : autoFitMaxModelLen api config projected memory = .ok config') :
    ∃ least, smallestEstimate api config (projected.zip memory) config.maxModelLen = .ok least := by
  rw [autoFitMaxModelLen] at h
  split at h
  · rename_i hempty
    obtain ⟨groups, hgroups, hne⟩ := hsome
    exact absurd (List.isEmpty_iff.1 (List.all_eq_true.1 hempty groups hgroups)) hne
  · split at h
    · cases h
    · obtain ⟨least, hleast, -⟩ := except_bind_eq_ok.1 h
      exact ⟨least, hleast⟩

/-- The length that is found, where the needs can be computed. -/
theorem autoFit_computable (hapi : api.GrowsWithLength) (hmax : 1 ≤ config.maxModelLen)
    {projected : List (List (KVCacheGroupSpec σ))} {memory : List Int} (hmemory : memory ≠ [])
    (hsome : ∃ groups ∈ projected, groups ≠ [])
    (hall : Computable api config (projected.zip memory)) :
    (FitsAll api config (projected.zip memory) 1 ↔
      ∃ config', autoFitMaxModelLen api config projected memory = .ok config') ∧
    ∀ config', autoFitMaxModelLen api config projected memory = .ok config' →
      config' = { config with maxModelLen := config'.maxModelLen } ∧
      1 ≤ config'.maxModelLen ∧ config'.maxModelLen ≤ config.maxModelLen ∧
      (∀ n, 1 ≤ n → n ≤ config.maxModelLen →
        (FitsAll api config (projected.zip memory) n ↔ n ≤ config'.maxModelLen)) ∧
      ∀ worker ∈ projected.zip memory, worker.1 ≠ [] → 0 < worker.2 →
        checkEnoughKvCacheMemory api config' worker.1 worker.2 = .ok () := by
  obtain ⟨least, hok, hle, hiff⟩ := smallestEstimate_exact hapi hmax hall le_rfl
  have hnotall : ¬ (projected.all fun groups => groups.isEmpty) = true := by
    obtain ⟨groups, hgroups, hne⟩ := hsome
    intro hempty
    exact hne (List.isEmpty_iff.1 (List.all_eq_true.1 hempty groups hgroups))
  have hrun : autoFitMaxModelLen api config projected memory =
      if least ≤ 0 then
        .error (.valueError ("Cannot auto-fit max_model_len: not enough GPU memory available " ++
          "to serve even a single token. Try increasing `gpu_memory_utilization`."))
      else .ok { config with maxModelLen := least } := by
    rw [autoFitMaxModelLen, if_neg hnotall, if_neg (by rwa [List.isEmpty_iff]), hok]
    show (if least ≤ 0 then _ else if config.maxModelLen ≤ least then _ else _) = _
    by_cases hzero : least ≤ 0
    · rw [if_pos hzero, if_pos hzero]
      rfl
    · rw [if_neg hzero, if_neg hzero]
      by_cases hfull : config.maxModelLen ≤ least
      · rw [if_pos hfull, show least = config.maxModelLen by omega]
        rfl
      · rw [if_neg hfull]
        rfl
  rw [hrun]
  by_cases hzero : least ≤ 0
  · rw [if_pos hzero]
    refine ⟨iff_of_false (fun hfits => ?_) ?_, fun config' hconfig => ?_⟩
    · have := (hiff 1 le_rfl hmax).1 hfits
      omega
    · rintro ⟨config', hconfig⟩
      exact absurd hconfig (by simp)
    · exact absurd hconfig (by simp)
  · rw [if_neg hzero]
    refine ⟨iff_of_true ((hiff 1 le_rfl hmax).2 (by omega)) ⟨_, rfl⟩, fun config' hconfig => ?_⟩
    obtain rfl := Except.ok.inj hconfig
    refine ⟨rfl, by show 1 ≤ least; omega, hle, hiff, fun worker hworker hne hpos => ?_⟩
    have hfit := (hiff least (by omega) hle).2 le_rfl worker hworker hne
    obtain ⟨needed, hneeded, hdecide⟩ := except_bind_eq_ok.1 hfit
    have hneeds : maxMemoryUsageBytesFromGroups api { config with maxModelLen := least }
        worker.1 least = .ok needed := hneeded
    have henough : ¬ worker.2 < needed := by
      have := of_decide_eq_true (Except.ok.inj hdecide)
      omega
    rw [checkEnoughKvCacheMemory, if_neg (by omega), hneeds]
    show (if worker.2 < needed then _ else _) = _
    rw [if_neg henough]
    rfl

/-- **The length that is found** is the greatest that fits all workers, it is found exactly when
one token fits them, and the check of the workers that have memory has nothing to refuse. -/
theorem auto_fit_greatest (hapi : api.GrowsWithLength) (hmax : 1 ≤ config.maxModelLen)
    {projected : List (List (KVCacheGroupSpec σ))} {memory : List Int} (hmemory : memory ≠ [])
    (hsome : ∃ groups ∈ projected, groups ≠ []) :
    (FitsAll api config (projected.zip memory) 1 ↔
      ∃ config', autoFitMaxModelLen api config projected memory = .ok config') ∧
    ∀ config', autoFitMaxModelLen api config projected memory = .ok config' →
      config' = { config with maxModelLen := config'.maxModelLen } ∧
      1 ≤ config'.maxModelLen ∧ config'.maxModelLen ≤ config.maxModelLen ∧
      (∀ n, 1 ≤ n → n ≤ config.maxModelLen →
        (FitsAll api config (projected.zip memory) n ↔ n ≤ config'.maxModelLen)) ∧
      ∀ worker ∈ projected.zip memory, worker.1 ≠ [] → 0 < worker.2 →
        checkEnoughKvCacheMemory api config' worker.1 worker.2 = .ok () := by
  by_cases hall : Computable api config (projected.zip memory)
  · exact autoFit_computable hapi hmax hmemory hsome hall
  · -- needs that cannot be computed fit nothing, and the estimate of them fails
    have hfails : ∀ config', autoFitMaxModelLen api config projected memory ≠ .ok config' := by
      intro config' hfound
      obtain ⟨least, hleast⟩ := estimate_of_autoFit hsome hfound
      exact hall (computable_of_smallestEstimate hleast)
    refine ⟨iff_of_false (fun hfits => hall (computable_of_fitsAll hfits)) ?_, fun config' hfound =>
      absurd hfound (hfails config')⟩
    exact fun ⟨config', hfound⟩ => hfails config' hfound

/-- Specifications with a page size, that are those of a sliding window or not, in blocks of 16
tokens. -/
def plainSpecs : SpecClass (Bool × Nat) where
  pageSizeBytes := Prod.snd
  blockSize := fun _ => 16
  isMlaAttention := fun _ => true
  kvCacheDcpShardCount := fun _ _ => 1
  maxMemoryUsageBytes := fun maxModelLen spec => (maxModelLen + 15) / 16 * spec.2
  uniformPageSizeBytes := fun specs => (specs.map fun entry => entry.2.2).sum
  uniformMaxMemoryUsageBytes := fun maxModelLen specs =>
    (maxModelLen + 15) / 16 * (specs.map fun entry => entry.2.2).sum
  uniformMaxMemoryUsagePages := fun maxModelLen _ => (maxModelLen + 15) / 16
  numLayerTuples := fun specs => specs.length
  pageSizes := fun specs => (specs.map fun entry => entry.2.2).dedup
  formatGib := fun bytes => toString bytes

theorem plainSpecs_grows : plainSpecs.GrowsWithLength := by
  have hblocks : ∀ m n : Nat, m ≤ n → (m + 15) / 16 ≤ (n + 15) / 16 := fun m n h => by omega
  exact ⟨fun _ m n h => Nat.mul_le_mul_right _ (hblocks m n h),
    fun _ m n h => Nat.mul_le_mul_right _ (hblocks m n h), fun _ m n h => hblocks m n h⟩

/-- A worker with three blocks of memory serves 48 tokens. -/
theorem auto_fit_greatest_blocks :
    ∃ config', autoFitMaxModelLen plainSpecs { maxModelLen := 100, originalMaxModelLen := -1 }
        [[⟨["a"], .layer (false, 4), false⟩]] [12] = .ok config' ∧ config'.maxModelLen = 48 ∧
      ∀ n, 1 ≤ n → n ≤ 100 →
        (FitsAll plainSpecs { maxModelLen := 100, originalMaxModelLen := -1 }
          [([⟨["a"], .layer (false, 4), false⟩], 12)] n ↔ n ≤ 48) := by
  obtain ⟨-, hgreatest⟩ := @auto_fit_greatest _ plainSpecs
    { maxModelLen := 100, originalMaxModelLen := -1 } plainSpecs_grows (by decide)
    [[⟨["a"], .layer (false, 4), false⟩]] [12] (List.cons_ne_nil 12 [])
    ⟨_, List.mem_singleton_self _, List.cons_ne_nil _ _⟩
  exact ⟨_, rfl, rfl, (hgreatest _ rfl).2.2.2.1⟩

end AutoFit

end Kv

end DgxSpark
