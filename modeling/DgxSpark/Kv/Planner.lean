import DgxSpark.Kv.Grouping

/-!
# The plans of all workers

`get_kv_cache_configs` of `vllm/v1/core/kv_cache_utils.py` plans the cache of a whole model. The
groups are made once for all layers and projected to the layers of each worker; each worker is
planned with its own memory; then every plan is shrunk to the smallest number of blocks, since one
scheduler numbers the blocks for all.

The result is `DgxSpark.Kv.worker_plans_safe`: the workers agree on the number of blocks, every
layer of a worker has a page for every block, pages coincide only where groups take turns, and the
tensors do not exceed the memory. How the groups are made is a parameter here; what is asked of it
is `DgxSpark.Kv.WellGrouped`.
-/

namespace DgxSpark

namespace Kv

variable {σ : Type}

/-! ### The planner -/

section Planner

/-- The specifications of all workers, the first of each name; another one must be equal. -/
def mergeSpecs [DecidableEq σ] : List (String × σ) → List (String × σ) →
    Except PlanError (List (String × σ))
  | [], merged => .ok merged
  | entry :: entries, merged =>
    match merged.lookup entry.1 with
    | none => mergeSpecs entries (merged ++ [entry])
    | some spec => if spec = entry.2 then mergeSpecs entries merged else .error .assertion

/-- The specification of a group for the layers of a worker. -/
def projectSpec (workerLayerNames : List String) :
    KVCacheSpec σ → Except PlanError (KVCacheSpec σ)
  | .layer spec => .ok (.layer spec)
  | .uniformType blockSize specs =>
    if workerLayerNames.isEmpty then .ok (.uniformType blockSize specs)
    else do
      let own ← workerLayerNames.mapM (specOf specs)
      pure (.uniformType blockSize own)

/-- One group, with the layers of a worker. -/
def projectGroup (workerSpec : List (String × σ)) (group : KVCacheGroupSpec σ) :
    Except PlanError (KVCacheGroupSpec σ) := do
  let workerLayerNames := group.layerNames.filter fun name =>
    decide (name ∈ workerSpec.map Prod.fst)
  let groupSpec ← projectSpec workerLayerNames group.kvCacheSpec
  pure ⟨workerLayerNames, groupSpec, group.isEagleGroup && !workerLayerNames.isEmpty⟩

/-- `_project_kv_cache_groups_to_worker`. -/
def projectKvCacheGroupsToWorker (groups : List (KVCacheGroupSpec σ))
    (workerSpec : List (String × σ)) : Except PlanError (List (KVCacheGroupSpec σ)) :=
  groups.mapM (projectGroup workerSpec)

variable (api : SpecClass σ)

/-- The memory that a given number of blocks takes. -/
def overrideMemory (config : PlannerConfig) (override : Nat)
    (worker : List (KVCacheGroupSpec σ) × Int) : Except PlanError Int :=
  if worker.1.isEmpty then .ok worker.2
  else do
    let bytesPerBlock ← poolBytesPerBlock api config worker.1
    let _profiledNumBlocks ← floorDiv worker.2 bytesPerBlock
    pure (override * bytesPerBlock)

/-- The memory to plan with. -/
def adjustMemory (config : PlannerConfig) (projected : List (List (KVCacheGroupSpec σ)))
    (availableMemory : List Int) : Except PlanError (List Int) :=
  match config.numGpuBlocksOverride with
  | none => .ok availableMemory
  | some override => (projected.zip availableMemory).mapM (overrideMemory api config override)

/-- The length is looked for when none is given. -/
def fitMaxModelLen (config : PlannerConfig) (projected : List (List (KVCacheGroupSpec σ)))
    (memory : List Int) : Except PlanError PlannerConfig :=
  if config.originalMaxModelLen = -1 then autoFitMaxModelLen api config projected memory
  else .ok config

/-- A worker without groups is not checked. -/
def checkWorker (config : PlannerConfig) (worker : List (KVCacheGroupSpec σ) × Int) :
    Except PlanError Unit :=
  if worker.1.isEmpty then .ok () else checkEnoughKvCacheMemory api config worker.1 worker.2

/-- The plan of one worker: every layer must be in some group. -/
def planWorker (config : PlannerConfig)
    (worker : List (KVCacheGroupSpec σ) × List (String × σ) × Int) :
    Except PlanError (KVCacheConfig σ) :=
  if (worker.1.map fun group => group.layerNames.length).sum = worker.2.1.length then
    getKvCacheConfigFromGroups api config worker.1 worker.2.2
  else .error .assertion

/-- The smallest number of blocks. -/
def minNumBlocks : List (KVCacheConfig σ) → Except PlanError Int
  | [] => .error (.valueError "min() iterable argument is empty")
  | first :: rest => .ok ((rest.map KVCacheConfig.numBlocks).foldl min first.numBlocks)

/-- A tensor for fewer blocks. -/
def shrinkTensor (numBlocksOld numBlocks : Int) (tensor : KVCacheTensor) :
    Except PlanError KVCacheTensor :=
  if numBlocksOld = 0 then .error .zeroDivision
  else if tensor.size % numBlocksOld ≠ 0 then .error .assertion
  else .ok { tensor with size := tensor.size / numBlocksOld * numBlocks }

/-- A plan for fewer blocks. -/
def shrinkConfig (numBlocks : Int) (planned : KVCacheConfig σ) :
    Except PlanError (KVCacheConfig σ) := do
  let tensors ← planned.kvCacheTensors.mapM (shrinkTensor planned.numBlocks numBlocks)
  pure ⟨numBlocks, tensors, planned.kvCacheGroups⟩

/-- `get_kv_cache_configs`, for a way of grouping the layers and the check of their classes. The
configuration is returned with the length that was found. -/
def getKvCacheConfigs [DecidableEq σ] (check : List (String × σ) → Except PlanError Unit)
    (getKvCacheGroups : PlannerConfig → List (String × σ) →
      Except PlanError (List (KVCacheGroupSpec σ)))
    (config : PlannerConfig) (kvCacheSpecs : List (List (String × σ)))
    (availableMemory : List Int) : Except PlanError (PlannerConfig × List (KVCacheConfig σ)) := do
  let merged ← mergeSpecs kvCacheSpecs.flatten []
  check merged
  let groups ← getKvCacheGroups config merged
  let projected ← kvCacheSpecs.mapM (projectKvCacheGroupsToWorker groups)
  let memory ← adjustMemory api config projected availableMemory
  let fitted ← fitMaxModelLen api config projected memory
  let _ ← (projected.zip memory).mapM (checkWorker api fitted)
  let planned ← (projected.zip (kvCacheSpecs.zip memory)).mapM (planWorker api fitted)
  let numBlocks ← minNumBlocks planned
  let shrunk ← planned.mapM (shrinkConfig numBlocks)
  pure (fitted, shrunk)

end Planner

/-! ### Projecting keeps what the groups promise -/

section Projection

theorem mergeSpecs_nodup [DecidableEq σ] {entries merged result : List (String × σ)}
    (h : (merged.map Prod.fst).Nodup) (hok : mergeSpecs entries merged = .ok result) :
    (result.map Prod.fst).Nodup := by
  induction entries generalizing merged with
  | nil =>
    obtain rfl := Except.ok.inj hok
    exact h
  | cons entry entries ih =>
    rw [mergeSpecs] at hok
    cases hfound : merged.lookup entry.1 with
    | none =>
      rw [hfound] at hok
      refine ih ?_ hok
      rw [List.map_append, List.nodup_append]
      refine ⟨h, List.nodup_singleton _, ?_⟩
      rintro name hname _ hsingle rfl
      obtain rfl := List.mem_singleton.1 hsingle
      obtain ⟨spec, hspec⟩ := lookup_of_mem hname
      exact absurd (hfound.symm.trans hspec) (by simp)
    | some spec =>
      rw [hfound] at hok
      by_cases heq : spec = entry.2
      · exact ih h ((if_pos heq).symm.trans hok)
      · exact absurd ((if_neg heq).symm.trans hok) (by simp)

variable {workerSpec : List (String × σ)} {groups projected : List (KVCacheGroupSpec σ)}
  {group group' : KVCacheGroupSpec σ}

/-- The layers of a projected group. -/
theorem projectGroup_names (h : projectGroup workerSpec group = .ok group') :
    group'.layerNames = group.layerNames.filter fun name =>
      decide (name ∈ workerSpec.map Prod.fst) := by
  obtain ⟨spec, -, hgroup⟩ := except_bind_eq_ok.1 h
  rw [← Except.ok.inj hgroup]

/-- The specification of a projected group: of the same kind, and of its layers. -/
theorem projectGroup_spec (h : projectGroup workerSpec group = .ok group') :
    group'.kvCacheSpec.isUniformType = group.kvCacheSpec.isUniformType ∧
      ∀ blockSize specs', group'.kvCacheSpec = .uniformType blockSize specs' →
        group'.layerNames = specs'.map Prod.fst ∨ group'.layerNames = [] ∧
          group.kvCacheSpec = .uniformType blockSize specs' := by
  have hnames := projectGroup_names h
  obtain ⟨spec, hspec, hgroup⟩ := except_bind_eq_ok.1 h
  rw [← hnames] at hspec
  obtain rfl : group'.kvCacheSpec = spec := by rw [← Except.ok.inj hgroup]
  cases hkind : group.kvCacheSpec with
  | layer single =>
    rw [hkind] at hspec
    rw [← Except.ok.inj hspec]
    exact ⟨rfl, fun _ _ heq => absurd heq (by simp)⟩
  | uniformType size specs =>
    rw [hkind, projectSpec] at hspec
    by_cases hempty : group'.layerNames = []
    · rw [if_pos (List.isEmpty_iff.2 hempty)] at hspec
      rw [← Except.ok.inj hspec]
      exact ⟨rfl, fun _ _ heq => .inr ⟨hempty, heq⟩⟩
    · rw [if_neg (by rwa [List.isEmpty_iff])] at hspec
      obtain ⟨own, hown, hspec⟩ := except_bind_eq_ok.1 hspec
      rw [← Except.ok.inj hspec]
      refine ⟨rfl, fun _ _ heq => .inl ?_⟩
      obtain ⟨-, rfl⟩ := KVCacheSpec.uniformType.inj heq
      exact (specOf_names hown).symm

/-- The layers of the projected groups are those of the groups that the worker has. -/
theorem project_names (h : projectKvCacheGroupsToWorker groups workerSpec = .ok projected) :
    (projected.flatMap fun group => group.layerNames) =
      (groups.flatMap fun group => group.layerNames).filter fun name =>
        decide (name ∈ workerSpec.map Prod.fst) := by
  have hall := except_mapM_eq_ok.1 h
  clear h
  induction hall with
  | nil => rfl
  | cons hfirst _ ih =>
    rw [List.flatMap_cons, List.flatMap_cons, List.filter_append, ih, projectGroup_names hfirst]

/-- **Projected groups** keep what the groups promise. -/
theorem project_wellGrouped (hw : WellGrouped groups)
    (h : projectKvCacheGroupsToWorker groups workerSpec = .ok projected) :
    WellGrouped projected := by
  have hfrom : ∀ g' ∈ projected, ∃ g ∈ groups, projectGroup workerSpec g = .ok g' := by
    intro g' hg'
    obtain ⟨i, hi⟩ := List.mem_iff_getElem?.1 hg'
    obtain ⟨g, hg, hok⟩ := mapM_getElem? h hi
    exact ⟨g, List.mem_of_getElem? hg, hok⟩
  refine ⟨?_, fun g' hg' blockSize specs hspec => ?_, ?_⟩
  · rw [project_names h]
    exact hw.nodup.filter _
  · obtain ⟨g, hg, hok⟩ := hfrom g' hg'
    rcases (projectGroup_spec hok).2 blockSize specs hspec with hnames | ⟨hempty, hsame⟩
    · refine ⟨?_, .inl hnames⟩
      rw [← hnames, projectGroup_names hok]
      exact (hw.group_nodup hg).filter _
    · exact ⟨(hw.named g hg blockSize specs hsame).1, .inr hempty⟩
  · refine hw.kind.imp (fun hall g' hg' => ?_) fun hall g' hg' => ?_ <;>
    · obtain ⟨g, hg, hok⟩ := hfrom g' hg'
      rw [(projectGroup_spec hok).1]
      exact hall g hg

/-- Groups with as many layers as the worker has hold all of them. -/
theorem assigned_of_length (hw : WellGrouped groups)
    (h : projectKvCacheGroupsToWorker groups workerSpec = .ok projected)
    (hlength : (projected.map fun group => group.layerNames.length).sum = workerSpec.length)
    {name : String} (hname : name ∈ workerSpec.map Prod.fst) :
    ∃ group ∈ projected, name ∈ group.layerNames := by
  have hnodup := (project_wellGrouped hw h).nodup
  have hsubset : (projected.flatMap fun group => group.layerNames) ⊆ workerSpec.map Prod.fst := by
    rw [project_names h]
    exact fun n hn => of_decide_eq_true (List.mem_filter.1 hn).2
  have hperm := (List.subperm_of_subset hnodup hsubset).perm_of_length_le
    (by rw [List.length_flatMap, hlength, List.length_map])
  exact List.mem_flatMap.1 (hperm.mem_iff.2 hname)

end Projection

/-! ### Shrinking -/

section Shrinking

variable {numBlocks : Int} {planned shrunk : KVCacheConfig σ}

/-- A plan for fewer blocks has tensors of the same shapes. -/
theorem shrinkConfig_ok {slots : List Slot}
    (htensors : planned.kvCacheTensors = slots.map (Slot.tensor planned.numBlocks))
    (h : shrinkConfig numBlocks planned = .ok shrunk) :
    shrunk = ⟨numBlocks, slots.map (Slot.tensor numBlocks), planned.kvCacheGroups⟩ := by
  obtain ⟨tensors, hmap, hok⟩ := except_bind_eq_ok.1 h
  rw [← Except.ok.inj hok]
  congr 1
  rw [htensors] at hmap
  have hall := List.forall₂_map_left_iff.1 (except_mapM_eq_ok.1 hmap)
  clear hok hmap htensors
  induction hall with
  | nil => rfl
  | cons hfirst _ ih =>
    rw [List.map_cons, ih]
    congr 1
    rw [shrinkTensor] at hfirst
    by_cases hzero : planned.numBlocks = 0
    · rw [if_pos hzero] at hfirst
      exact absurd hfirst (by simp)
    · rw [if_neg hzero, Slot.tensor, if_neg (not_not.2 (Int.mul_emod_left _ _)),
        Int.mul_ediv_cancel _ hzero] at hfirst
      exact (Except.ok.inj hfirst).symm

theorem minNumBlocks_le {plans : List (KVCacheConfig σ)} (h : minNumBlocks plans = .ok numBlocks) :
    (∃ plan ∈ plans, plan.numBlocks = numBlocks) ∧
      ∀ plan ∈ plans, numBlocks ≤ plan.numBlocks := by
  rcases plans with - | ⟨first, rest⟩
  · exact absurd h (by simp [minNumBlocks])
  · obtain rfl := Except.ok.inj h
    clear h
    suffices hfold : ∀ (start : Int), ((rest.map KVCacheConfig.numBlocks).foldl min start = start ∨
        ∃ plan ∈ rest, plan.numBlocks = (rest.map KVCacheConfig.numBlocks).foldl min start) ∧
        (rest.map KVCacheConfig.numBlocks).foldl min start ≤ start ∧
        ∀ plan ∈ rest, (rest.map KVCacheConfig.numBlocks).foldl min start ≤ plan.numBlocks by
      obtain ⟨hattained, hstart, hrest⟩ := hfold first.numBlocks
      refine ⟨?_, List.forall_mem_cons.2 ⟨hstart, hrest⟩⟩
      rcases hattained with heq | ⟨plan, hplan, heq⟩
      · exact ⟨first, List.mem_cons_self, heq.symm⟩
      · exact ⟨plan, List.mem_cons_of_mem _ hplan, heq⟩
    induction rest with
    | nil => exact fun start => ⟨.inl rfl, le_rfl, fun _ h => absurd h List.not_mem_nil⟩
    | cons second rest ih =>
      intro start
      rw [List.map_cons, List.foldl_cons]
      obtain ⟨hattained, hstart, hrest⟩ := ih (min start second.numBlocks)
      refine ⟨?_, hstart.trans (min_le_left _ _),
        List.forall_mem_cons.2 ⟨hstart.trans (min_le_right _ _), hrest⟩⟩
      rcases hattained with heq | ⟨plan, hplan, heq⟩
      · rcases min_choice start second.numBlocks with hmin | hmin
        · exact .inl (heq.trans hmin)
        · exact .inr ⟨second, List.mem_cons_self, (heq.trans hmin).symm⟩
      · exact .inr ⟨plan, List.mem_cons_of_mem _ hplan, heq⟩

end Shrinking

/-! ### What every worker is given -/

/-- A plan that a worker can run with: every layer has a group, every page its bytes, and pages
that share a byte are of the same layer and block, or of layers whose groups take turns. -/
structure SafePlan (api : SpecClass σ) (config : PlannerConfig) (workerSpec : List (String × σ))
    (planned : KVCacheConfig σ) : Prop where
  assigned : ∀ name ∈ workerSpec.map Prod.fst,
    ∃ group ∈ planned.kvCacheGroups, name ∈ group.layerNames
  room : ∀ group ∈ planned.kvCacheGroups, ∀ name ∈ group.layerNames, ∀ block : Nat,
    (block : Int) < planned.numBlocks →
      ∃ page i start tensor, group.kvCacheSpec.layerPageSize api name = .ok page ∧
        planned.kvCacheTensors[i]? = some tensor ∧ ((start + page : Nat) : Int) ≤ tensor.size ∧
        ∀ k < page, Stores api planned name block (regionOf tensor.blockStride i) (start + k)
  apart : ∀ {name name' block block' region x}, Stores api planned name block region x →
    Stores api planned name' block' region x →
      block = block' ∧ (name = name' ∨
        useLockstepMlaAllocation api planned.kvCacheGroups config.decodeContextParallelSize =
            false ∧
          ∀ group ∈ planned.kvCacheGroups, name ∈ group.layerNames → name' ∉ group.layerNames)

section Workers

variable {api : SpecClass σ} {check : List (String × σ) → Except PlanError Unit}
  {getKvCacheGroups : PlannerConfig → List (String × σ) →
    Except PlanError (List (KVCacheGroupSpec σ))}
  {config : PlannerConfig}

/-- Finding the length changes nothing else. -/
theorem fitted_fields {projected : List (List (KVCacheGroupSpec σ))} {memory : List Int}
    {fitted : PlannerConfig}
    (h : fitMaxModelLen api config projected memory = .ok fitted) :
    fitted.numGpuBlocksOverride = config.numGpuBlocksOverride := by
  rw [fitMaxModelLen] at h
  split at h
  · rw [autoFitMaxModelLen] at h
    split at h
    · rw [Except.ok.inj h]
    · split at h
      · exact absurd h (by simp)
      · obtain ⟨least, -, h⟩ := except_bind_eq_ok.1 h
        split at h
        · exact absurd h (by simp [throw, throwThe, MonadExceptOf.throw])
        · split at h <;> rw [← Except.ok.inj h]
  · rw [Except.ok.inj h]

/-- The memory of a worker is what it has, unless the number of blocks is given. -/
theorem adjustMemory_getElem? {projected : List (List (KVCacheGroupSpec σ))}
    {memory memory' : List Int} (h : adjustMemory api config projected memory = .ok memory')
    {w : Nat} {available : Int} (hw : memory'[w]? = some available) :
    ∃ given, memory[w]? = some given ∧
      (config.numGpuBlocksOverride = none → available = given) := by
  rw [adjustMemory] at h
  split at h
  · rw [Except.ok.inj h]
    exact ⟨available, hw, fun _ => rfl⟩
  · rename_i override hsome
    obtain ⟨⟨groups, given⟩, hzip, -⟩ := mapM_getElem? h hw
    exact ⟨given, (List.getElem?_zip_eq_some.1 hzip).2, fun hnone =>
      absurd (hnone.symm.trans hsome) (by simp)⟩

/-- A worker that passes the check has memory, or no groups and one block. -/
theorem planWorker_nonneg {worker : List (KVCacheGroupSpec σ)} {spec : List (String × σ)}
    {memory : Int} {planned : KVCacheConfig σ} {fitted : PlannerConfig} {slots : List Slot}
    (hplanned : Planned api fitted worker memory slots (planned.numBlocks, planned.kvCacheTensors))
    (hcheck : checkWorker api fitted (worker, memory) = .ok ())
    (hok : planWorker api fitted (worker, spec, memory) = .ok planned) : 0 ≤ planned.numBlocks := by
  by_cases hempty : worker = []
  · subst hempty
    rw [planWorker] at hok
    split at hok
    · rw [← Except.ok.inj hok]
      exact Int.one_nonneg
    · exact absurd hok (by simp)
  · rw [checkWorker, if_neg (by rwa [List.isEmpty_iff]), checkEnoughKvCacheMemory] at hcheck
    by_cases hneg : memory ≤ 0
    · rw [if_pos hneg] at hcheck
      exact absurd hcheck (by simp)
    · exact hplanned.nonneg (by omega)

/-- **The plans of all workers are safe**: they agree on a number of blocks, and, unless it is
given, it is the smallest that the workers can have by themselves, and no worker allocates more
than it has. -/
theorem worker_plans_safe [DecidableEq σ] (hsum : api.SumsPages)
    (hgroups : ∀ merged groups, (merged.map Prod.fst).Nodup →
      getKvCacheGroups config merged = .ok groups → WellGrouped groups)
    {specs : List (List (String × σ))} {memory : List Int} {fitted : PlannerConfig}
    {plans : List (KVCacheConfig σ)}
    (hok : getKvCacheConfigs api check getKvCacheGroups config specs memory =
      .ok (fitted, plans)) :
    ∃ numBlocks : Int, 0 ≤ numBlocks ∧
      (∀ (w : Nat) plan, plans[w]? = some plan → plan.numBlocks = numBlocks ∧
        ∃ workerSpec available, specs[w]? = some workerSpec ∧ memory[w]? = some available ∧
          SafePlan api fitted workerSpec plan ∧
          (config.numGpuBlocksOverride = none → plan.allocatedBytes ≤ max available 0 ∧
            ∃ own, getKvCacheConfigFromGroups api fitted plan.kvCacheGroups available = .ok own ∧
              numBlocks ≤ own.numBlocks)) ∧
      (config.numGpuBlocksOverride = none → ∃ (w : Nat) (plan own : KVCacheConfig σ)
        (available : Int), plans[w]? = some plan ∧ memory[w]? = some available ∧
          getKvCacheConfigFromGroups api fitted plan.kvCacheGroups available = .ok own ∧
          own.numBlocks = numBlocks) := by
  obtain ⟨merged, hmerged, hok⟩ := except_bind_eq_ok.1 hok
  obtain ⟨_, -, hok⟩ := except_bind_eq_ok.1 hok
  obtain ⟨groups, hgrouped, hok⟩ := except_bind_eq_ok.1 hok
  obtain ⟨projected, hprojected, hok⟩ := except_bind_eq_ok.1 hok
  obtain ⟨memory', hmemory, hok⟩ := except_bind_eq_ok.1 hok
  obtain ⟨fitted', hfitted, hok⟩ := except_bind_eq_ok.1 hok
  obtain ⟨checked, hchecked, hok⟩ := except_bind_eq_ok.1 hok
  obtain ⟨planned, hplanned, hok⟩ := except_bind_eq_ok.1 hok
  obtain ⟨numBlocks, hmin, hok⟩ := except_bind_eq_ok.1 hok
  obtain ⟨shrunk, hshrunk, hok⟩ := except_bind_eq_ok.1 hok
  obtain ⟨rfl, rfl⟩ := Prod.mk.inj (Except.ok.inj hok)
  have hw := hgroups merged groups (mergeSpecs_nodup (by exact List.nodup_nil) hmerged) hgrouped
  have hoverride := fitted_fields hfitted
  obtain ⟨⟨least, hleast, rfl⟩, hle⟩ := minNumBlocks_le hmin
  -- what is known of the plan of one worker before it is shrunk
  have hworker : ∀ {w : Nat} {plan : KVCacheConfig σ}, planned[w]? = some plan →
      ∃ worker workerSpec available slots, specs[w]? = some workerSpec ∧
        memory'[w]? = some available ∧ WellGrouped worker ∧ plan.kvCacheGroups = worker ∧
        (∀ name ∈ workerSpec.map Prod.fst, ∃ group ∈ worker, name ∈ group.layerNames) ∧
        Planned api fitted' worker available slots (plan.numBlocks, plan.kvCacheTensors) ∧
        0 ≤ plan.numBlocks ∧
        getKvCacheConfigFromGroups api fitted' worker available = .ok plan := by
    intro w plan hplan
    obtain ⟨⟨worker, workerSpec, available⟩, hzip, hplan⟩ := mapM_getElem? hplanned hplan
    obtain ⟨hworker, hzip⟩ := List.getElem?_zip_eq_some.1 hzip
    obtain ⟨hspec, havailable⟩ := List.getElem?_zip_eq_some.1 hzip
    obtain ⟨workerSpec', hspec', hproject⟩ := mapM_getElem? hprojected hworker
    obtain rfl := Option.some.inj (hspec'.symm.trans hspec)
    have hwell := project_wellGrouped hw hproject
    have hrun := hplan
    rw [planWorker] at hrun
    split at hrun
    · rename_i hlength
      obtain ⟨hgroups, slots, hslots⟩ := config_planned hwell hsum hrun
      obtain ⟨_, -, hcheck⟩ := mapM_getElem?_of_entry hchecked
        (List.getElem?_zip_eq_some.2 ⟨hworker, havailable⟩ :
          (projected.zip memory')[w]? = some (worker, available))
      exact ⟨worker, workerSpec', available, slots, hspec', havailable, hwell, hgroups,
        fun name hname => assigned_of_length hw hproject hlength hname, hslots,
        planWorker_nonneg hslots hcheck hplan, hrun⟩
    · exact absurd hrun (by simp)
  -- the number of blocks is that of the worker with the least, which every other can afford
  obtain ⟨w₀, hw₀⟩ := List.mem_iff_getElem?.1 hleast
  obtain ⟨_, _, available₀, slots₀, _, havailable₀, _, hgroups₀, _, hslots₀, hnonneg, hown₀⟩ :=
    hworker hw₀
  refine ⟨least.numBlocks, hnonneg, fun w plan hplan => ?_, fun hnone => ?_⟩
  · obtain ⟨old, hold, hshrink⟩ := mapM_getElem? hshrunk hplan
    obtain ⟨worker, workerSpec, available, slots, hspec, havailable, hwell, hgroups, hassigned,
      hslots, -, hown⟩ := hworker hold
    -- shrinking keeps the slots and only shortens them, so layers stay apart
    obtain rfl := shrinkConfig_ok hslots.tensors hshrink
    subst hgroups
    have hshaped : Shaped api
        (useLockstepMlaAllocation api old.kvCacheGroups fitted'.decodeContextParallelSize) slots
        ⟨least.numBlocks, slots.map (Slot.tensor least.numBlocks), old.kvCacheGroups⟩ :=
      ⟨hwell, rfl, hslots.layout⟩
    obtain ⟨given, hgiven, hsame⟩ := adjustMemory_getElem? hmemory havailable
    have hless := hle old (List.mem_of_getElem? hold)
    refine ⟨rfl, workerSpec, given, hspec, hgiven, ⟨hassigned, fun _ hg _ hname _ hblock =>
      hshaped.room hg hname hblock, fun hx hx' => hshaped.apart hx hx'⟩, fun hnone => ⟨?_, ?_⟩⟩
    · rw [allocatedBytes_tensors _ _ hnonneg, ← hsame hnone]
      refine le_trans ?_ (hslots.budget (hoverride.trans hnone))
      exact Int.mul_le_mul_of_nonneg_left hless (Int.natCast_nonneg _)
    · exact ⟨old, hsame hnone ▸ hown, hless⟩
  · obtain ⟨plan, hplan, hshrink⟩ := mapM_getElem?_of_entry hshrunk hw₀
    obtain ⟨given, hgiven, hsame⟩ := adjustMemory_getElem? hmemory havailable₀
    obtain rfl := shrinkConfig_ok hslots₀.tensors hshrink
    subst hgroups₀
    exact ⟨w₀, _, least, given, hplan, hgiven, hsame hnone ▸ hown₀, rfl⟩

/-- Two stages of a pipeline with 25 and 15 blocks of memory are both planned with 15. -/
theorem worker_plans_safe_stages :
    ∃ (fitted : PlannerConfig) (first second : KVCacheConfig (Bool × Nat)),
      getKvCacheConfigs plainSpecs (fun _ => .ok ())
          (fun _ => getKvCacheGroupsUniformPageSize mergeEqual none)
          { maxModelLen := 16, originalMaxModelLen := 16 }
          [[("full.0", (false, 4)), ("sw.0", (true, 4)), ("sw.1", (true, 4))],
            [("full.1", (false, 4)), ("sw.2", (true, 4)), ("sw.3", (true, 4))]] [100, 60] =
        .ok (fitted, [first, second]) ∧
      first.kvCacheTensors = [{ size := 60, sharedBy := ["full.0", "sw.0", "sw.1"] }] ∧
      first.numBlocks = second.numBlocks ∧
      SafePlan plainSpecs fitted
        [("full.0", (false, 4)), ("sw.0", (true, 4)), ("sw.1", (true, 4))] first := by
  have hsum : plainSpecs.SumsPages := fun _ => rfl
  obtain ⟨fitted, first, second, hrun, hfirst⟩ :
      ∃ (fitted : PlannerConfig) (first second : KVCacheConfig (Bool × Nat)),
        getKvCacheConfigs plainSpecs (fun _ => .ok ())
            (fun _ => getKvCacheGroupsUniformPageSize mergeEqual none)
            { maxModelLen := 16, originalMaxModelLen := 16 }
            [[("full.0", (false, 4)), ("sw.0", (true, 4)), ("sw.1", (true, 4))],
              [("full.1", (false, 4)), ("sw.2", (true, 4)), ("sw.3", (true, 4))]] [100, 60] =
          .ok (fitted, [first, second]) ∧
        first.kvCacheTensors = [{ size := 60, sharedBy := ["full.0", "sw.0", "sw.1"] }] :=
    ⟨_, _, _, rfl, rfl⟩
  obtain ⟨numBlocks, -, hall, -⟩ :=
    worker_plans_safe hsum (fun _ _ h hok => uniform_page_size_wellGrouped h hok) hrun
  obtain ⟨hnum, _, _, hspec, -, hsafe, -⟩ := hall 0 first rfl
  obtain rfl := Option.some.inj hspec
  exact ⟨fitted, first, second, hrun, hfirst, hnum.trans (hall 1 second rfl).1.symm, hsafe⟩

end Workers

end Kv

end DgxSpark
