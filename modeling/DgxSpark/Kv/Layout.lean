import DgxSpark.Deploy.Config
import DgxSpark.Lib.Packing
import Mathlib.Data.List.Dedup

/-!
# The layout of the KV cache memory

`get_kv_cache_config_from_groups` of `vllm/v1/core/kv_cache_utils.py` turns the cache groups of a
worker into tensors. A layer keeps one page for each block, and the groups draw their blocks from
one pool, so the plan has to say which pages may share bytes:

* a single group with layers of different sizes has one tensor for each layer;
* **lockstep** groups use the same block at the same time, and have one tensor for each layer too;
* **packed** groups overlay each other in one slab: the layers of a group are placed one after the
  other (`DgxSpark.Kv.packGroup`), and each group starts again at the beginning of the block;
* otherwise the `i`-th layers of all groups share the `i`-th tensor.

A block belongs to one group at a time in the last two, so pages of different groups may coincide
there, but only in the same block. `DgxSpark.Kv.Layout` says this of the shapes of the tensors,
before the number of blocks is known, and `DgxSpark.Kv.Layout.apart` of the bytes.

The specification classes are those of the serving library; what the planner reads of one is in
`DgxSpark.Kv.SpecClass`.
-/

namespace DgxSpark

namespace Kv

variable {σ : Type}

/-! ### Specifications, groups, tensors -/

/-- What ends the planning. -/
inductive PlanError where
  | assertion
  | zeroDivision
  | keyError (name : String)
  | valueError (text : String)
  | indexError
  deriving DecidableEq, Repr

/-- What the planner asks of the specifications of single layers, and of the specification that
holds several layers of one type. -/
structure SpecClass (σ : Type) where
  pageSizeBytes : σ → Nat
  blockSize : σ → Nat
  isMlaAttention : σ → Bool
  /-- `get_kv_cache_dcp_shard_count`, for a number of ranks -/
  kvCacheDcpShardCount : σ → Nat → Nat
  /-- for a maximal model length -/
  maxMemoryUsageBytes : Nat → σ → Nat
  uniformPageSizeBytes : List (String × σ) → Nat
  uniformMaxMemoryUsageBytes : Nat → List (String × σ) → Nat
  uniformMaxMemoryUsagePages : Nat → List (String × σ) → Nat
  numLayerTuples : List (String × σ) → Nat
  pageSizes : List (String × σ) → List Nat
  formatGib : Int → String

/-- The specification of a group: one for all its layers, or one for each
(`UniformTypeKVCacheSpecs`). -/
inductive KVCacheSpec (σ : Type) where
  | layer (spec : σ)
  | uniformType (blockSize : Nat) (kvCacheSpecs : List (String × σ))
  deriving DecidableEq, Repr

structure KVCacheGroupSpec (σ : Type) where
  layerNames : List String
  kvCacheSpec : KVCacheSpec σ
  isEagleGroup : Bool := false
  deriving DecidableEq, Repr

/-- A tensor; one with a stride is a view of the slab that all of them share. -/
structure KVCacheTensor where
  size : Int
  sharedBy : List String
  offset : Nat := 0
  blockStride : Option Nat := none
  deriving DecidableEq, Repr

structure KVCacheConfig (σ : Type) where
  numBlocks : Int
  kvCacheTensors : List KVCacheTensor
  kvCacheGroups : List (KVCacheGroupSpec σ)
  deriving DecidableEq, Repr

/-- What the planner reads of the configuration. -/
structure PlannerConfig where
  decodeContextParallelSize : Nat := 1
  prefillContextParallelSize : Nat := 1
  /-- the text of `enable_cross_layers_blocks` in the connector's extra configuration -/
  enableCrossLayersBlocks : Option String := none
  numGpuBlocksOverride : Option Nat := none
  maxModelLen : Nat
  originalMaxModelLen : Int
  deriving DecidableEq, Repr

namespace KVCacheSpec

def isUniformType : KVCacheSpec σ → Bool
  | layer _ => false
  | uniformType _ _ => true

variable (api : SpecClass σ)

def pageSizeBytes : KVCacheSpec σ → Nat
  | layer spec => api.pageSizeBytes spec
  | uniformType _ specs => api.uniformPageSizeBytes specs

def maxMemoryUsageBytes (maxModelLen : Nat) : KVCacheSpec σ → Nat
  | layer spec => api.maxMemoryUsageBytes maxModelLen spec
  | uniformType _ specs => api.uniformMaxMemoryUsageBytes maxModelLen specs

/-- The specifications of the layers. -/
def layerSpecs : KVCacheSpec σ → List σ
  | layer spec => [spec]
  | uniformType _ specs => specs.map Prod.snd

/-- The page size of one layer of a group. -/
def layerPageSize (name : String) : KVCacheSpec σ → Except PlanError Nat
  | layer spec => .ok (api.pageSizeBytes spec)
  | uniformType _ specs =>
    match specs.lookup name with
    | some spec => .ok (api.pageSizeBytes spec)
    | none => .error (.keyError name)

/-- The page size of one layer of a group, where it has one. -/
def pageOf (spec : KVCacheSpec σ) (name : String) : Nat :=
  (spec.layerPageSize api name).toOption.getD 0

variable {api}

theorem pageOf_eq {spec : KVCacheSpec σ} {name : String} {page : Nat}
    (h : spec.layerPageSize api name = .ok page) : spec.pageOf api name = page := by
  rw [pageOf, h]
  rfl

end KVCacheSpec

/-! ### Which layout -/

section Choice

variable (api : SpecClass σ)

/-- `_is_lockstep_mla_spec_layout`: several shard counts, but one number of tokens for each
block. -/
def isLockstepMlaSpecLayout (specs : List σ) (dcpWorldSize : Nat) : Bool :=
  if specs.length < 2 then false
  else if dcpWorldSize ≤ 1 then false
  else if !specs.all api.isMlaAttention then false
  else
    let shardCounts := (specs.map fun spec => api.kvCacheDcpShardCount spec dcpWorldSize).dedup
    let globalBlockSizes := (specs.map fun spec =>
      api.blockSize spec * api.kvCacheDcpShardCount spec dcpWorldSize).dedup
    decide (1 < shardCounts.length) && decide (globalBlockSizes.length = 1)

/-- `_use_lockstep_mla_allocation`. -/
def useLockstepMlaAllocation (groups : List (KVCacheGroupSpec σ)) (dcpWorldSize : Nat) : Bool :=
  if groups.length < 2 then false
  else if groups.any fun group => (group.kvCacheSpec.layerSpecs.map fun spec =>
      api.kvCacheDcpShardCount spec dcpWorldSize).dedup.length != 1 then false
  else isLockstepMlaSpecLayout api (groups.flatMap fun group => group.kvCacheSpec.layerSpecs)
    dcpWorldSize

/-- `_use_packed_kv_cache_config`. -/
def usePackedKvCacheConfig (config : PlannerConfig) (groups : List (KVCacheGroupSpec σ)) : Bool :=
  if useLockstepMlaAllocation api groups config.decodeContextParallelSize then true
  else
    let isDsv4 := groups.all fun group => group.kvCacheSpec.isUniformType
    let enableCrossLayers := decide
      ((config.enableCrossLayersBlocks.getD "False").toList.map Char.toLower = "true".toList)
    isDsv4 || (enableCrossLayers && decide (1 < groups.length))

end Choice

/-! ### The layouts -/

/-- Integer division, which fails for a divisor of zero. -/
def floorDiv (a : Int) (b : Nat) : Except PlanError Int :=
  if b = 0 then .error .zeroDivision else .ok (a / b)

/-- `may_override_num_blocks`. -/
def mayOverrideNumBlocks (config : PlannerConfig) (numBlocks : Int) : Int :=
  match config.numGpuBlocksOverride with
  | some override => override
  | none => numBlocks

/-- `table[key].append(name)`, for a dictionary that starts with empty lists. -/
def addLayer {κ : Type} [DecidableEq κ] (key : κ) (name : String) :
    List (κ × List String) → List (κ × List String)
  | [] => [(key, [name])]
  | entry :: table =>
    if entry.1 = key then (entry.1, entry.2 ++ [name]) :: table
    else entry :: addLayer key name table

section Layouts

variable (api : SpecClass σ)

/-- The layers of a group, one after the other: where the last one ends, and the layers at each
offset. -/
def packGroup (spec : KVCacheSpec σ) : List String → Nat → List (Nat × List String) →
    Except PlanError (Nat × List (Nat × List String))
  | [], byteOffset, layersByOffset => .ok (byteOffset, layersByOffset)
  | name :: names, byteOffset, layersByOffset => do
    let pageSize ← spec.layerPageSize api name
    packGroup spec names (byteOffset + pageSize) (addLayer byteOffset name layersByOffset)

/-- The groups, each from the beginning of the block. -/
def packGroups : List (KVCacheGroupSpec σ) → Nat → List (Nat × List String) →
    Except PlanError (Nat × List (Nat × List String))
  | [], blockStride, layersByOffset => .ok (blockStride, layersByOffset)
  | group :: groups, blockStride, layersByOffset => do
    let packed ← packGroup api group.kvCacheSpec group.layerNames 0 layersByOffset
    packGroups groups (max blockStride packed.1) packed.2

/-- `_get_packed_kv_cache_layout`. -/
def getPackedKvCacheLayout (groups : List (KVCacheGroupSpec σ)) :
    Except PlanError (Nat × List (Nat × List String)) := do
  let layout ← packGroups api groups 0 []
  if 0 < layout.1 then pure layout else throw .assertion

/-- The page size and the name of each layer of a group. -/
def layerPages (group : KVCacheGroupSpec σ) : Except PlanError (List (Nat × String)) :=
  group.layerNames.mapM fun name => do
    let pageSize ← group.kvCacheSpec.layerPageSize api name
    pure (pageSize, name)

/-- `_get_lockstep_mla_tensor_slots`. -/
def getLockstepMlaTensorSlots (groups : List (KVCacheGroupSpec σ)) :
    Except PlanError (List (Nat × List String)) := do
  let slots ← groups.mapM (layerPages api)
  pure (slots.flatten.map fun slot => (slot.1, [slot.2]))

/-- `_get_kv_cache_config_packed`. -/
def getKvCacheConfigPacked (config : PlannerConfig) (groups : List (KVCacheGroupSpec σ))
    (availableMemory : Int) : Except PlanError (Int × List KVCacheTensor) := do
  if useLockstepMlaAllocation api groups config.decodeContextParallelSize then
    let tensorSlots ← getLockstepMlaTensorSlots api groups
    let numBlocks ← floorDiv availableMemory (tensorSlots.map Prod.fst).sum
    let numBlocks := mayOverrideNumBlocks config numBlocks
    pure (numBlocks, tensorSlots.map fun slot =>
      { size := slot.1 * numBlocks, sharedBy := slot.2 })
  else
    let layout ← getPackedKvCacheLayout api groups
    let numBlocks ← floorDiv availableMemory layout.1
    let numBlocks := mayOverrideNumBlocks config numBlocks
    pure (numBlocks, (layout.2.mergeSort fun a b => decide (a.1 ≤ b.1)).map fun entry =>
      { size := layout.1 * numBlocks, sharedBy := entry.2, offset := entry.1,
        blockStride := some layout.1 })

/-- `get_num_blocks`. -/
def getNumBlocks (config : PlannerConfig) (numLayers : Nat) (availableMemory : Int)
    (pageSize : Nat) : Except PlanError Int := do
  let perPage ← floorDiv availableMemory pageSize
  let numBlocks ← floorDiv perPage numLayers
  pure (mayOverrideNumBlocks config (max numBlocks 0))

/-- `get_uniform_page_size`. -/
def getUniformPageSize (specs : List (KVCacheSpec σ)) : Except PlanError Nat :=
  match (specs.map fun spec => spec.pageSizeBytes api).dedup with
  | [pageSize] => .ok pageSize
  | _ => .error .assertion

/-- The number of layers of the largest group. -/
def groupSize (groups : List (KVCacheGroupSpec σ)) : Nat :=
  (groups.map fun group => group.layerNames.length).foldr max 0

/-- The tensors of a single group with a specification for each layer. -/
def uniformTypeTensors (config : PlannerConfig) (group : KVCacheGroupSpec σ)
    (availableMemory : Int) : Except PlanError (Int × List KVCacheTensor) := do
  let numBlocks ← floorDiv availableMemory (group.kvCacheSpec.pageSizeBytes api)
  let numBlocks := mayOverrideNumBlocks config numBlocks
  let pages ← layerPages api group
  pure (numBlocks, pages.map fun page => { size := page.1 * numBlocks, sharedBy := [page.2] })

/-- The tensors of the general case: the `i`-th layers of all groups share the `i`-th tensor. -/
def pooledTensors (config : PlannerConfig) (groups : List (KVCacheGroupSpec σ))
    (availableMemory : Int) : Except PlanError (Int × List KVCacheTensor) := do
  let pageSize ← getUniformPageSize api (groups.map fun group => group.kvCacheSpec)
  if groupSize groups = 0 then throw .assertion
  let numBlocks ← getNumBlocks config (groupSize groups) availableMemory pageSize
  pure (numBlocks, (List.range (groupSize groups)).map fun i =>
    { size := pageSize * numBlocks,
      sharedBy := groups.filterMap fun group => group.layerNames[i]? })

/-- Whether there is a single group, with a specification for each layer. -/
def isSingleUniformType : List (KVCacheGroupSpec σ) → Bool
  | [group] => group.kvCacheSpec.isUniformType
  | _ => false

/-- The number of blocks and the tensors of some groups, the first of which is `group`. -/
def planTensors (config : PlannerConfig) (group : KVCacheGroupSpec σ)
    (groups : List (KVCacheGroupSpec σ)) (availableMemory : Int) :
    Except PlanError (Int × List KVCacheTensor) :=
  if isSingleUniformType groups then uniformTypeTensors api config group availableMemory
  else if usePackedKvCacheConfig api config groups then
    getKvCacheConfigPacked api config groups availableMemory
  else pooledTensors api config groups availableMemory

/-- `get_kv_cache_config_from_groups`. -/
def getKvCacheConfigFromGroups (config : PlannerConfig) (groups : List (KVCacheGroupSpec σ))
    (availableMemory : Int) : Except PlanError (KVCacheConfig σ) :=
  match groups with
  | [] => .ok ⟨1, [], groups⟩
  | group :: _ => do
    let planned ← planTensors api config group groups availableMemory
    pure ⟨planned.1, planned.2, groups⟩

end Layouts

/-! ### What the groups promise -/

/-- Every layer is in one group, a specification for several layers is that of the group's layers,
and either all groups have such a specification or none has. -/
structure WellGrouped (groups : List (KVCacheGroupSpec σ)) : Prop where
  nodup : (groups.flatMap fun group => group.layerNames).Nodup
  named : ∀ group ∈ groups, ∀ blockSize specs,
    group.kvCacheSpec = .uniformType blockSize specs →
      (specs.map Prod.fst).Nodup ∧ (group.layerNames = specs.map Prod.fst ∨ group.layerNames = [])
  kind : (∀ group ∈ groups, group.kvCacheSpec.isUniformType = true) ∨
    ∀ group ∈ groups, group.kvCacheSpec.isUniformType = false

/-- A specification that is found under its name. -/
theorem lookup_of_mem {specs : List (String × σ)} {name : String}
    (h : name ∈ specs.map Prod.fst) : ∃ spec, specs.lookup name = some spec := by
  induction specs with
  | nil => exact absurd h List.not_mem_nil
  | cons entry specs ih =>
    rw [List.lookup_cons]
    by_cases hname : name = entry.1
    · exact ⟨entry.2, by rw [hname, beq_self_eq_true]⟩
    · rw [beq_false_of_ne hname]
      refine ih ?_
      rw [List.map_cons] at h
      exact (List.mem_cons.1 h).resolve_left hname

/-- A loop none of whose steps fails. -/
theorem mapM_eq_map {α β ε : Type} {f : α → Except ε β} {g : α → β} {xs : List α}
    (h : ∀ x ∈ xs, f x = .ok (g x)) : xs.mapM f = .ok (xs.map g) := by
  refine except_mapM_eq_ok.2 (List.forall₂_map_right_iff.2 (List.forall₂_same.2 h))

/-- The result of a loop at an index is that of the entry there. -/
theorem mapM_getElem? {α β ε : Type} {f : α → Except ε β} {xs : List α} {ys : List β}
    (h : xs.mapM f = .ok ys) {i : Nat} {y : β} (hy : ys[i]? = some y) :
    ∃ x, xs[i]? = some x ∧ f x = .ok y := by
  have hall := except_mapM_eq_ok.1 h
  induction hall generalizing i with
  | nil => exact absurd hy (by simp)
  | cons hxy hrest ih =>
    rcases i with - | i
    · exact ⟨_, rfl, by rw [hxy, Option.some.inj hy]⟩
    · exact ih (except_mapM_eq_ok.2 hrest) hy

/-- A loop that ends has a result for every entry. -/
theorem mapM_getElem?_of_entry {α β ε : Type} {f : α → Except ε β} {xs : List α} {ys : List β}
    (h : xs.mapM f = .ok ys) {i : Nat} {x : α} (hx : xs[i]? = some x) :
    ∃ y, ys[i]? = some y ∧ f x = .ok y := by
  have hlt : i < ys.length := by
    rw [← (except_mapM_eq_ok.1 h).length_eq]
    exact (List.getElem?_eq_some_iff.1 hx).1
  obtain ⟨x', hx', hok⟩ := mapM_getElem? h (List.getElem?_eq_getElem hlt)
  rw [Option.some.inj (hx.symm.trans hx')]
  exact ⟨_, List.getElem?_eq_getElem hlt, hok⟩

/-- The specification of one layer, with its name. -/
def specOf (specs : List (String × σ)) (name : String) : Except PlanError (String × σ) :=
  match specs.lookup name with
  | some spec => .ok (name, spec)
  | none => .error (.keyError name)

/-- Specifications that are found are those of the names. -/
theorem specOf_names {specs own : List (String × σ)} {names : List String}
    (h : names.mapM (specOf specs) = .ok own) : own.map Prod.fst = names := by
  have hall := except_mapM_eq_ok.1 h
  clear h
  induction hall with
  | nil => rfl
  | @cons name entry _ _ hentry _ ih =>
    have hfirst : entry.1 = name := by
      rw [specOf] at hentry
      cases hfound : specs.lookup name with
      | none =>
        rw [hfound] at hentry
        exact absurd hentry (by simp)
      | some spec =>
        rw [hfound] at hentry
        rw [← Except.ok.inj hentry]
    rw [List.map_cons, ih, hfirst]

namespace WellGrouped

variable {api : SpecClass σ} {groups : List (KVCacheGroupSpec σ)} {g g' : KVCacheGroupSpec σ}
  {name : String}

theorem group_nodup (h : WellGrouped groups) (hg : g ∈ groups) : g.layerNames.Nodup :=
  (List.nodup_flatMap.1 h.nodup).1 g hg

/-- A layer has one group. -/
theorem same_group (h : WellGrouped groups) (hg : g ∈ groups) (hg' : g' ∈ groups)
    (hname : name ∈ g.layerNames) (hname' : name ∈ g'.layerNames) : g = g' := by
  by_contra hne
  have : Std.Symm (Function.onFun List.Disjoint fun g : KVCacheGroupSpec σ => g.layerNames) :=
    ⟨fun _ _ hd => hd.symm⟩
  have hdisjoint := (List.nodup_flatMap.1 h.nodup).2.forall hg hg' hne
  exact hdisjoint hname hname'

/-- A layer of a group has a page. -/
theorem hasPage (h : WellGrouped groups) (hg : g ∈ groups) (hname : name ∈ g.layerNames) :
    g.kvCacheSpec.layerPageSize api name = .ok (g.kvCacheSpec.pageOf api name) := by
  obtain ⟨page, hpage⟩ : ∃ page, g.kvCacheSpec.layerPageSize api name = .ok page := by
    cases hspec : g.kvCacheSpec with
    | layer spec => exact ⟨_, rfl⟩
    | uniformType blockSize specs =>
      obtain ⟨-, hnames | hnone⟩ := h.named g hg blockSize specs hspec
      · obtain ⟨spec, hspec⟩ := lookup_of_mem (hnames ▸ hname)
        exact ⟨api.pageSizeBytes spec, by rw [KVCacheSpec.layerPageSize, hspec]⟩
      · rw [hnone] at hname
        exact absurd hname List.not_mem_nil
  rw [hpage, KVCacheSpec.pageOf_eq hpage]

end WellGrouped

/-! ### The shapes of the tensors -/

/-- A tensor before the number of blocks is known: what it has for each block. -/
structure Slot where
  unit : Nat
  sharedBy : List String
  offset : Nat := 0
  blockStride : Option Nat := none

/-- The tensor for a number of blocks. -/
def Slot.tensor (numBlocks : Int) (slot : Slot) : KVCacheTensor :=
  ⟨slot.unit * numBlocks, slot.sharedBy, slot.offset, slot.blockStride⟩

/-- A piece of memory: that of a tensor of its own, or the slab. -/
inductive Region where
  | tensor (index : Nat)
  | slab

/-- The memory of a tensor, from its stride and its index. -/
def regionOf (blockStride : Option Nat) (index : Nat) : Region :=
  match blockStride with
  | none => .tensor index
  | some _ => .slab

/-- Layer `name` of `group` has its pages in the tensor `i`. -/
structure Placed (groups : List (KVCacheGroupSpec σ)) (slots : List Slot)
    (group : KVCacheGroupSpec σ) (name : String) (i : Nat) (slot : Slot) : Prop where
  group_mem : group ∈ groups
  name_mem : name ∈ group.layerNames
  slot_get : slots[i]? = some slot
  shared : name ∈ slot.sharedBy

theorem Placed.slot_mem {groups : List (KVCacheGroupSpec σ)} {slots : List Slot}
    {group : KVCacheGroupSpec σ} {name : String} {i : Nat} {slot : Slot}
    (h : Placed groups slots group name i slot) : slot ∈ slots :=
  List.mem_of_getElem? h.slot_get

/-- **What a plan has to meet**: every layer has a tensor, a layer's page lies within what the
tensor has for a block, and pages that share a byte of a block are of different groups, which
lockstep groups may not do either. -/
structure Layout (api : SpecClass σ) (groups : List (KVCacheGroupSpec σ)) (lockstep : Bool)
    (slots : List Slot) : Prop where
  covered : ∀ group ∈ groups, ∀ name ∈ group.layerNames, ∃ i slot,
    Placed groups slots group name i slot
  fits : ∀ {group name i slot}, Placed groups slots group name i slot →
    slot.offset + group.kvCacheSpec.pageOf api name ≤ slot.unit ∧
      slot.blockStride.getD (group.kvCacheSpec.pageOf api name) = slot.unit
  slab : ∃ stride, ∀ slot ∈ slots, slot.blockStride ≠ none → slot.unit = stride
  apart : ∀ {group group' name name' i i' slot slot' x},
    Placed groups slots group name i slot → Placed groups slots group' name' i' slot' →
    regionOf slot.blockStride i = regionOf slot'.blockStride i' →
    slot.offset ≤ x → x < slot.offset + group.kvCacheSpec.pageOf api name →
    slot'.offset ≤ x → x < slot'.offset + group'.kvCacheSpec.pageOf api name' →
      name = name' ∨ lockstep = false ∧ group ≠ group'

section Shapes

variable {api : SpecClass σ} {groups : List (KVCacheGroupSpec σ)}

/-- The tensors of one layer each. -/
def singleSlots (api : SpecClass σ) (groups : List (KVCacheGroupSpec σ)) : List Slot :=
  groups.flatMap fun group => group.layerNames.map fun name =>
    { unit := group.kvCacheSpec.pageOf api name, sharedBy := [name] }

theorem mem_singleSlots {slot : Slot} : slot ∈ singleSlots api groups ↔ ∃ group ∈ groups,
    ∃ name ∈ group.layerNames,
      (⟨group.kvCacheSpec.pageOf api name, [name], 0, none⟩ : Slot) = slot := by
  simp only [singleSlots, List.mem_flatMap, List.mem_map]

/-- **One tensor for each layer** meets every plan. -/
theorem layout_single (h : WellGrouped groups) (lockstep : Bool) :
    Layout api groups lockstep (singleSlots api groups) := by
  refine ⟨fun group hgroup name hname => ?_, fun {group name i slot} hp => ?_, ⟨0, ?_⟩, ?_⟩
  · have hmem : (⟨group.kvCacheSpec.pageOf api name, [name], 0, none⟩ : Slot) ∈
        singleSlots api groups := mem_singleSlots.2 ⟨group, hgroup, name, hname, rfl⟩
    obtain ⟨i, hi⟩ := List.mem_iff_getElem?.1 hmem
    exact ⟨i, _, hgroup, hname, hi, List.mem_singleton_self name⟩
  · obtain ⟨g, hg, n, hn, hslot⟩ := mem_singleSlots.1 hp.slot_mem
    have hshared := hp.shared
    subst hslot
    obtain rfl := List.mem_singleton.1 hshared
    obtain rfl := h.same_group hp.group_mem hg hp.name_mem hn
    exact ⟨(Nat.zero_add _).le, rfl⟩
  · rintro slot hslot hstride
    obtain ⟨_, _, _, _, rfl⟩ := mem_singleSlots.1 hslot
    exact absurd rfl hstride
  · rintro group group' name name' i i' slot slot' x hp hp' hregion - - - -
    obtain ⟨_, _, n, _, rfl⟩ := mem_singleSlots.1 hp.slot_mem
    obtain ⟨_, _, n', _, rfl⟩ := mem_singleSlots.1 hp'.slot_mem
    obtain rfl : i = i' := Region.tensor.inj hregion
    have hsame := hp.slot_get.symm.trans hp'.slot_get
    rw [Option.some.injEq, Slot.mk.injEq] at hsame
    rw [List.mem_singleton.1 hp.shared, List.mem_singleton.1 hp'.shared]
    exact .inl (List.cons.inj hsame.2.1).1

/-- The tensors of a slab, from the layers at each offset. -/
def packedSlots (stride : Nat) (layersByOffset : List (Nat × List String)) : List Slot :=
  layersByOffset.map fun entry => ⟨stride, entry.2, entry.1, some stride⟩

/-- The layers of all groups, each group placed from the beginning of the block. -/
def groupPlaces (api : SpecClass σ) (groups : List (KVCacheGroupSpec σ)) : List (Nat × String) :=
  groups.flatMap fun group => Packing.place (group.kvCacheSpec.pageOf api) group.layerNames 0

/-- A layer that is listed at an offset. -/
def Listed (layersByOffset : List (Nat × List String)) (offset : Nat) (name : String) : Prop :=
  ∃ names, (offset, names) ∈ layersByOffset ∧ name ∈ names

theorem addLayer_listed {table : List (Nat × List String)} {byteOffset offset : Nat}
    {name name' : String} : Listed (addLayer byteOffset name table) offset name' ↔
      Listed table offset name' ∨ (offset, name') = (byteOffset, name) := by
  induction table with
  | nil =>
    simp only [Listed, addLayer, List.mem_singleton, Prod.mk.injEq, List.not_mem_nil, false_and,
      exists_false, false_or]
    constructor
    · rintro ⟨_, ⟨rfl, rfl⟩, hname⟩
      exact ⟨rfl, List.mem_singleton.1 hname⟩
    · rintro ⟨rfl, rfl⟩
      exact ⟨_, ⟨rfl, rfl⟩, List.mem_singleton_self _⟩
  | cons entry table ih =>
    have hcons : ∀ (entry : Nat × List String) (table : List (Nat × List String)),
        Listed (entry :: table) offset name' ↔
          (entry.1 = offset ∧ name' ∈ entry.2) ∨ Listed table offset name' := by
      rintro ⟨o, names⟩ table
      simp only [Listed, List.mem_cons, Prod.mk.injEq]
      constructor
      · rintro ⟨_, ⟨rfl, rfl⟩ | hmem, hname⟩
        · exact .inl ⟨rfl, hname⟩
        · exact .inr ⟨_, hmem, hname⟩
      · rintro (⟨rfl, hname⟩ | ⟨names', hmem, hname⟩)
        · exact ⟨_, .inl ⟨rfl, rfl⟩, hname⟩
        · exact ⟨names', .inr hmem, hname⟩
    rw [addLayer]
    by_cases heq : entry.1 = byteOffset
    · rw [if_pos heq, hcons, hcons, List.mem_append, List.mem_singleton, Prod.mk.injEq, heq]
      constructor
      · rintro (⟨rfl, hname | rfl⟩ | hrest)
        · exact .inl (.inl ⟨rfl, hname⟩)
        · exact .inr ⟨rfl, rfl⟩
        · exact .inl (.inr hrest)
      · rintro ((⟨rfl, hname⟩ | hrest) | ⟨rfl, rfl⟩)
        · exact .inl ⟨rfl, .inl hname⟩
        · exact .inr hrest
        · exact .inl ⟨rfl, .inr rfl⟩
    · rw [if_neg heq, hcons, hcons, ih, or_assoc]

/-- What is placed, and nothing else, is listed. -/
theorem foldl_addLayer_listed {places : List (Nat × String)} {table : List (Nat × List String)}
    {offset : Nat} {name : String} :
    Listed (places.foldl (fun table place => addLayer place.1 place.2 table) table) offset name ↔
      Listed table offset name ∨ (offset, name) ∈ places := by
  induction places generalizing table with
  | nil => simp only [List.foldl_nil, List.not_mem_nil, or_false]
  | cons place places ih =>
    rw [List.foldl_cons, ih, addLayer_listed, List.mem_cons, or_assoc]

variable (api) in
/-- Packing a group places its layers one after the other. -/
theorem packGroup_eq {spec : KVCacheSpec σ} {names : List String}
    (h : ∀ name ∈ names, spec.layerPageSize api name = .ok (spec.pageOf api name)) (start : Nat)
    (table : List (Nat × List String)) :
    packGroup api spec names start table = .ok (start + (names.map (spec.pageOf api)).sum,
      (Packing.place (spec.pageOf api) names start).foldl
        (fun table place => addLayer place.1 place.2 table) table) := by
  induction names generalizing start table with
  | nil => rfl
  | cons name names ih =>
    have hfirst := h name List.mem_cons_self
    have hrest := ih (fun n hn => h n (List.mem_cons_of_mem _ hn))
      (start + spec.pageOf api name) (addLayer start name table)
    rw [packGroup, hfirst]
    show packGroup api spec names (start + spec.pageOf api name) _ = _
    rw [hrest, List.map_cons, List.sum_cons, Nat.add_assoc]
    rfl

variable (api) in
/-- Packing the groups places each of them from the beginning, and the stride covers them all. -/
theorem packGroups_eq (h : ∀ group ∈ groups, ∀ name ∈ group.layerNames,
      group.kvCacheSpec.layerPageSize api name = .ok (group.kvCacheSpec.pageOf api name))
    (start : Nat) (table : List (Nat × List String)) :
    ∃ stride, packGroups api groups start table = .ok (stride,
        (groupPlaces api groups).foldl (fun table place => addLayer place.1 place.2 table) table) ∧
      start ≤ stride ∧ ∀ group ∈ groups,
        (group.layerNames.map (group.kvCacheSpec.pageOf api)).sum ≤ stride := by
  induction groups generalizing start table with
  | nil => exact ⟨start, rfl, le_rfl, fun _ hmem => absurd hmem List.not_mem_nil⟩
  | cons group groups ih =>
    have hfirst := packGroup_eq api (h group List.mem_cons_self) 0 table
    obtain ⟨stride, hpack, hstart, hall⟩ := ih (fun g hg => h g (List.mem_cons_of_mem _ hg))
      (max start (0 + (group.layerNames.map (group.kvCacheSpec.pageOf api)).sum))
      ((Packing.place (group.kvCacheSpec.pageOf api) group.layerNames 0).foldl
        (fun table place => addLayer place.1 place.2 table) table)
    refine ⟨stride, ?_, (le_max_left _ _).trans hstart, fun g hg => ?_⟩
    · rw [packGroups, hfirst, groupPlaces, List.flatMap_cons, List.foldl_append]
      exact hpack
    · rcases List.mem_cons.1 hg with rfl | hrest
      · rw [Nat.zero_add] at hstart
        exact (le_max_right _ _).trans hstart
      · exact hall g hrest

/-- **A slab** keeps the pages of one group apart. -/
theorem layout_packed (h : WellGrouped groups) {stride : Nat}
    {layersByOffset : List (Nat × List String)}
    (hstride : ∀ group ∈ groups,
      (group.layerNames.map (group.kvCacheSpec.pageOf api)).sum ≤ stride)
    (hlisted : ∀ offset name,
      Listed layersByOffset offset name ↔ (offset, name) ∈ groupPlaces api groups) :
    Layout api groups false (packedSlots stride layersByOffset) := by
  -- what is shared at an offset is placed there, by the group of the layer
  have hplace : ∀ {group name i slot}, Placed groups (packedSlots stride layersByOffset) group name
      i slot → slot.unit = stride ∧ slot.blockStride = some stride ∧
        (slot.offset, name) ∈
          Packing.place (group.kvCacheSpec.pageOf api) group.layerNames 0 := by
    rintro group name i slot hp
    obtain ⟨entry, hentry, rfl⟩ := List.mem_map.1 hp.slot_mem
    obtain ⟨g, hg, hmem⟩ := List.mem_flatMap.1
      ((hlisted entry.1 name).1 ⟨entry.2, hentry, hp.shared⟩)
    obtain rfl := h.same_group hp.group_mem hg hp.name_mem (Packing.mem_of_mem_place _ hmem)
    exact ⟨rfl, rfl, hmem⟩
  refine ⟨fun group hgroup name hname => ?_, fun {group name i slot} hp => ?_, ⟨stride, ?_⟩, ?_⟩
  · obtain ⟨offset, hmem⟩ := Packing.exists_place (group.kvCacheSpec.pageOf api) 0 hname
    obtain ⟨names, hentry, hin⟩ := (hlisted offset name).2
      (List.mem_flatMap.2 ⟨group, hgroup, hmem⟩)
    obtain ⟨i, hi⟩ := List.mem_iff_getElem?.1 hentry
    refine ⟨i, ⟨stride, names, offset, some stride⟩, hgroup, hname, ?_, hin⟩
    rw [packedSlots, List.getElem?_map, hi]
    rfl
  · obtain ⟨hunit, hslot, hmem⟩ := hplace hp
    have hend := (Packing.place_bounds _ hmem).2
    have hsum := hstride group hp.group_mem
    rw [hunit, hslot]
    exact ⟨by omega, rfl⟩
  · rintro slot hslot -
    obtain ⟨entry, -, rfl⟩ := List.mem_map.1 hslot
    rfl
  · rintro group group' name name' i i' slot slot' x hp hp' - hlo hhi hlo' hhi'
    by_cases hsame : group = group'
    · subst hsame
      exact .inl (Prod.mk.inj (Packing.place_apart _ (hplace hp).2.2 (hplace hp').2.2 hlo hhi
        hlo' hhi')).2
    · exact .inr ⟨rfl, hsame⟩

/-- The tensors of the general case. -/
def pooledSlots (pageSize : Nat) (groups : List (KVCacheGroupSpec σ)) : List Slot :=
  (List.range (groupSize groups)).map fun i =>
    { unit := pageSize, sharedBy := groups.filterMap fun group => group.layerNames[i]? }

theorem le_groupSize {group : KVCacheGroupSpec σ} (h : group ∈ groups) :
    group.layerNames.length ≤ groupSize groups := by
  induction groups with
  | nil => exact absurd h List.not_mem_nil
  | cons g groups ih =>
    show _ ≤ max _ (groupSize groups)
    rcases List.mem_cons.1 h with rfl | hrest
    · exact le_max_left _ _
    · exact (ih hrest).trans (le_max_right _ _)

/-- **Shared tensors** hold one layer of each group. -/
theorem layout_pooled (h : WellGrouped groups) {pageSize : Nat}
    (hpage : ∀ group ∈ groups, ∀ name ∈ group.layerNames,
      group.kvCacheSpec.pageOf api name = pageSize) :
    Layout api groups false (pooledSlots pageSize groups) := by
  have hslot : ∀ {i : Nat} {slot : Slot}, (pooledSlots pageSize groups)[i]? = some slot →
      slot = ⟨pageSize, groups.filterMap fun group => group.layerNames[i]?, 0, none⟩ := by
    intro i slot hget
    rw [pooledSlots, List.getElem?_map, Option.map_eq_some_iff] at hget
    obtain ⟨j, hj, rfl⟩ := hget
    rw [(List.getElem?_eq_some_iff.1 hj).2.symm, List.getElem_range]
  -- a layer is at one index of its group
  have hindex : ∀ {group name i slot}, Placed groups (pooledSlots pageSize groups) group name i
      slot → group.layerNames[i]? = some name := by
    intro group name i slot hp
    have hshared := hp.shared
    rw [hslot hp.slot_get, List.mem_filterMap] at hshared
    obtain ⟨g, hg, hget⟩ := hshared
    obtain rfl := h.same_group hp.group_mem hg hp.name_mem (List.mem_of_getElem? hget)
    exact hget
  refine ⟨fun group hgroup name hname => ?_, fun {group name i slot} hp => ?_, ⟨0, ?_⟩, ?_⟩
  · obtain ⟨i, hi⟩ := List.mem_iff_getElem?.1 hname
    have hlt : i < groupSize groups :=
      (List.getElem?_eq_some_iff.1 hi).1.trans_le (le_groupSize hgroup)
    refine ⟨i, ⟨pageSize, groups.filterMap fun group => group.layerNames[i]?, 0, none⟩, hgroup,
      hname, ?_, List.mem_filterMap.2 ⟨group, hgroup, hi⟩⟩
    rw [pooledSlots, List.getElem?_map, List.getElem?_range hlt]
    rfl
  · rw [hslot hp.slot_get, hpage group hp.group_mem name hp.name_mem]
    exact ⟨(Nat.zero_add _).le, rfl⟩
  · rintro slot hmem hstride
    obtain ⟨i, -, rfl⟩ := List.mem_map.1 hmem
    exact absurd rfl hstride
  · rintro group group' name name' i i' slot slot' x hp hp' hregion - - - -
    rw [hslot hp.slot_get, hslot hp'.slot_get] at hregion
    obtain rfl : i = i' := Region.tensor.inj hregion
    by_cases hsame : group = group'
    · subst hsame
      exact .inl (Option.some.inj ((hindex hp).symm.trans (hindex hp')))
    · exact .inr ⟨rfl, hsame⟩

end Shapes

/-! ### From the groups to the tensors -/

section Memory

/-- The bytes that tensors take for each block: each of them what it has, and the slab once. -/
def unitBytes (slots : List Slot) : Nat :=
  ((slots.filter fun slot => slot.blockStride.isNone).map Slot.unit).sum +
    ((slots.filter fun slot => slot.blockStride.isSome).map Slot.unit).foldr max 0

/-- The bytes that a configuration allocates. -/
def KVCacheConfig.allocatedBytes (config : KVCacheConfig σ) : Int :=
  ((config.kvCacheTensors.filter fun tensor => tensor.blockStride.isNone).map
      KVCacheTensor.size).sum +
    ((config.kvCacheTensors.filter fun tensor => tensor.blockStride.isSome).map
      KVCacheTensor.size).foldr max 0

theorem sum_units (units : List Nat) (n : Int) :
    (units.map fun unit : Nat => (unit : Int) * n).sum = (units.sum : Nat) * n := by
  induction units with
  | nil => exact (Int.zero_mul n).symm
  | cons unit units ih =>
    rw [List.map_cons, List.sum_cons, ih, List.sum_cons, Nat.cast_add, Int.add_mul]

theorem max_units (units : List Nat) {n : Int} (hn : 0 ≤ n) :
    (units.map fun unit : Nat => (unit : Int) * n).foldr max 0 =
      (units.foldr max 0 : Nat) * n := by
  induction units with
  | nil => exact (Int.zero_mul n).symm
  | cons unit units ih =>
    rw [List.map_cons, List.foldr_cons, ih, List.foldr_cons, Nat.cast_max]
    exact (max_mul_of_nonneg _ _ hn).symm

/-- Tensors take as many times the bytes for a block as there are blocks. -/
theorem allocatedBytes_tensors (groups : List (KVCacheGroupSpec σ)) (slots : List Slot) {n : Int}
    (hn : 0 ≤ n) :
    (⟨n, slots.map (Slot.tensor n), groups⟩ : KVCacheConfig σ).allocatedBytes =
      unitBytes slots * n := by
  have hunits : ∀ p : Option Nat → Bool,
      ((slots.map (Slot.tensor n)).filter fun tensor => p tensor.blockStride).map
          KVCacheTensor.size =
        (((slots.filter fun slot => p slot.blockStride).map Slot.unit).map
          fun unit : Nat => (unit : Int) * n) := by
    intro p
    rw [List.filter_map, List.map_map, List.map_map]
    rfl
  rw [KVCacheConfig.allocatedBytes, hunits fun stride => stride.isNone,
    hunits fun stride => stride.isSome, sum_units, max_units _ hn, unitBytes, Nat.cast_add,
    Int.add_mul]

/-- Tensors of their own take what they have. -/
theorem unitBytes_own {slots : List Slot} (h : ∀ slot ∈ slots, slot.blockStride = none) :
    unitBytes slots = (slots.map Slot.unit).sum := by
  have hown : (slots.filter fun slot => slot.blockStride.isNone) = slots :=
    List.filter_eq_self.2 fun slot hslot => by rw [h slot hslot]; rfl
  have hslab : (slots.filter fun slot => slot.blockStride.isSome) = [] :=
    List.filter_eq_nil_iff.2 fun slot hslot => by rw [h slot hslot]; exact Bool.false_ne_true
  rw [unitBytes, hown, hslab]
  rfl

/-- A slab takes its stride at most. -/
theorem unitBytes_packed (stride : Nat) (table : List (Nat × List String)) :
    unitBytes (packedSlots stride table) ≤ stride := by
  induction table with
  | nil => exact Nat.zero_le _
  | cons entry table ih =>
    show _ + max stride _ ≤ stride
    have hown : ((packedSlots stride (entry :: table)).filter
        fun slot => slot.blockStride.isNone) = [] := by
      refine List.filter_eq_nil_iff.2 fun slot hslot => ?_
      obtain ⟨_, -, rfl⟩ := List.mem_map.1 hslot
      exact Bool.false_ne_true
    rw [hown, List.map_nil, List.sum_nil, Nat.zero_add]
    exact max_le le_rfl ((Nat.le_add_left _ _).trans ih)

end Memory

section Planning

variable {api : SpecClass σ} {config : PlannerConfig} {groups : List (KVCacheGroupSpec σ)}
  {availableMemory : Int}

/-- The page of a specification for several layers is the pages of the layers. -/
def SpecClass.SumsPages (api : SpecClass σ) : Prop :=
  ∀ specs, api.uniformPageSizeBytes specs = (specs.map fun entry => api.pageSizeBytes entry.2).sum

/-- A planned configuration: tensors of certain shapes, that fit in the memory unless the number
of blocks is given. -/
structure Planned (api : SpecClass σ) (config : PlannerConfig)
    (groups : List (KVCacheGroupSpec σ)) (availableMemory : Int) (slots : List Slot)
    (planned : Int × List KVCacheTensor) : Prop where
  tensors : planned.2 = slots.map (Slot.tensor planned.1)
  layout : Layout api groups
    (useLockstepMlaAllocation api groups config.decodeContextParallelSize) slots
  budget : config.numGpuBlocksOverride = none →
    unitBytes slots * planned.1 ≤ max availableMemory 0
  nonneg : 0 ≤ availableMemory → 0 ≤ planned.1

theorem floorDiv_ok {a c : Int} {b : Nat} (h : floorDiv a b = .ok c) : b ≠ 0 ∧ c = a / b := by
  rw [floorDiv] at h
  by_cases hb : b = 0
  · rw [if_pos hb] at h
    exact absurd h (by simp)
  · rw [if_neg hb] at h
    exact ⟨hb, (Except.ok.inj h).symm⟩

theorem mayOverrideNumBlocks_none (h : config.numGpuBlocksOverride = none) (n : Int) :
    mayOverrideNumBlocks config n = n := by
  rw [mayOverrideNumBlocks, h]

theorem mayOverrideNumBlocks_nonneg {n : Int} (h : 0 ≤ n) : 0 ≤ mayOverrideNumBlocks config n := by
  rw [mayOverrideNumBlocks]
  split
  · exact Int.natCast_nonneg _
  · exact h

theorem mayOverrideNumBlocks_div_nonneg (b : Nat) (h : 0 ≤ availableMemory) :
    0 ≤ mayOverrideNumBlocks config (availableMemory / b) :=
  mayOverrideNumBlocks_nonneg (Int.ediv_nonneg h (Int.natCast_nonneg b))

/-- What is divided among the blocks is not exceeded by them. -/
theorem unit_budget (h : config.numGpuBlocksOverride = none) {unit b : Nat} (hb : b ≠ 0)
    (hunit : unit ≤ b) :
    (unit : Int) * mayOverrideNumBlocks config (availableMemory / b) ≤ max availableMemory 0 := by
  rw [mayOverrideNumBlocks_none h]
  have hb' : (b : Int) ≠ 0 := by omega
  have hle := Int.mul_ediv_self_le (x := availableMemory) hb'
  by_cases hneg : 0 ≤ availableMemory / b
  · have : (unit : Int) * (availableMemory / b) ≤ b * (availableMemory / b) :=
      mul_le_mul_of_nonneg_right (by omega) hneg
    omega
  · have : (unit : Int) * (availableMemory / b) ≤ 0 :=
      mul_nonpos_of_nonneg_of_nonpos (by omega) (by omega)
    omega

/-- The pages of the layers. -/
def singlePages (api : SpecClass σ) (groups : List (KVCacheGroupSpec σ)) : List (Nat × String) :=
  groups.flatMap fun group => group.layerNames.map fun name =>
    (group.kvCacheSpec.pageOf api name, name)

theorem singleSlots_eq : singleSlots api groups =
    (singlePages api groups).map fun page => ⟨page.1, [page.2], 0, none⟩ := by
  rw [singlePages, List.map_flatMap, singleSlots]
  refine List.flatMap_congr fun group _ => ?_
  rw [List.map_map]
  rfl

theorem unitBytes_single :
    unitBytes (singleSlots api groups) = ((singlePages api groups).map Prod.fst).sum := by
  rw [unitBytes_own, singleSlots_eq, List.map_map]
  · rfl
  · rintro slot hslot
    obtain ⟨_, _, _, _, rfl⟩ := mem_singleSlots.1 hslot
    rfl

theorem layerPages_eq (h : WellGrouped groups) {group : KVCacheGroupSpec σ} (hg : group ∈ groups) :
    layerPages api group = .ok (group.layerNames.map fun name =>
      (group.kvCacheSpec.pageOf api name, name)) := by
  refine mapM_eq_map fun name hname => ?_
  rw [h.hasPage hg hname]
  rfl

theorem lookup_entry {specs : List (String × σ)} (h : (specs.map Prod.fst).Nodup)
    {entry : String × σ} (hmem : entry ∈ specs) : specs.lookup entry.1 = some entry.2 := by
  induction specs with
  | nil => exact absurd hmem List.not_mem_nil
  | cons first specs ih =>
    obtain ⟨hfirst, hrest⟩ := List.nodup_cons.1 (List.map_cons ▸ h)
    rw [List.lookup_cons]
    rcases List.mem_cons.1 hmem with rfl | hmem
    · rw [beq_self_eq_true]
    · have hne : entry.1 ≠ first.1 := fun heq =>
        hfirst (heq ▸ List.mem_map.2 ⟨entry, hmem, rfl⟩)
      rw [beq_false_of_ne hne]
      exact ih hrest hmem

/-- The pages of a group with a specification for each layer add up to the group's page. -/
theorem uniform_pages_le (h : WellGrouped groups) (hsum : api.SumsPages)
    {group : KVCacheGroupSpec σ} (hg : group ∈ groups)
    (hkind : group.kvCacheSpec.isUniformType = true) :
    (group.layerNames.map (group.kvCacheSpec.pageOf api)).sum ≤
      group.kvCacheSpec.pageSizeBytes api := by
  cases hspec : group.kvCacheSpec with
  | layer spec =>
    rw [hspec] at hkind
    exact absurd hkind Bool.false_ne_true
  | uniformType blockSize specs =>
    obtain ⟨hkeys, hnames | hnone⟩ := h.named group hg blockSize specs hspec
    · refine le_of_eq ?_
      rw [KVCacheSpec.pageSizeBytes, hsum, hnames, List.map_map]
      refine congrArg List.sum (List.map_congr_left fun entry hentry => ?_)
      refine KVCacheSpec.pageOf_eq ?_
      rw [KVCacheSpec.layerPageSize, lookup_entry hkeys hentry]
    · rw [hnone]
      exact Nat.zero_le _

/-- A single group with a specification for each layer. -/
theorem uniformType_planned {group : KVCacheGroupSpec σ} (h : WellGrouped [group])
    (hsum : api.SumsPages) (hkind : group.kvCacheSpec.isUniformType = true)
    {planned : Int × List KVCacheTensor}
    (hok : uniformTypeTensors api config group availableMemory = .ok planned) :
    Planned api config [group] availableMemory (singleSlots api [group]) planned := by
  have hg : group ∈ [group] := List.mem_singleton_self group
  obtain ⟨numBlocks, hdiv, hok⟩ := except_bind_eq_ok.1 hok
  obtain ⟨pages, hpages, hok⟩ := except_bind_eq_ok.1 hok
  obtain ⟨hne, rfl⟩ := floorDiv_ok hdiv
  obtain rfl := Except.ok.inj ((layerPages_eq h hg).symm.trans hpages)
  obtain rfl := Except.ok.inj hok
  refine ⟨?_, layout_single h _, fun hnone => ?_, mayOverrideNumBlocks_div_nonneg _⟩
  · rw [singleSlots, List.flatMap_singleton, List.map_map, List.map_map]
    rfl
  · refine unit_budget hnone hne ?_
    rw [unitBytes_single, singlePages, List.flatMap_singleton, List.map_map]
    exact uniform_pages_le h hsum hg hkind

/-- Lockstep groups, and groups that overlay each other. -/
theorem packed_planned (h : WellGrouped groups) {planned : Int × List KVCacheTensor}
    (hok : getKvCacheConfigPacked api config groups availableMemory = .ok planned) :
    ∃ slots, Planned api config groups availableMemory slots planned := by
  rw [getKvCacheConfigPacked] at hok
  by_cases hlock : useLockstepMlaAllocation api groups config.decodeContextParallelSize
  · rw [if_pos hlock] at hok
    obtain ⟨tensorSlots, hslots, hok⟩ := except_bind_eq_ok.1 hok
    obtain ⟨numBlocks, hdiv, hok⟩ := except_bind_eq_ok.1 hok
    obtain ⟨hne, rfl⟩ := floorDiv_ok hdiv
    obtain ⟨pages, hpages, hslots⟩ := except_bind_eq_ok.1 hslots
    obtain rfl := Except.ok.inj ((mapM_eq_map fun g hg => layerPages_eq h hg).symm.trans hpages)
    obtain rfl := Except.ok.inj hslots
    obtain rfl := Except.ok.inj hok
    have hflat : (groups.map fun group => group.layerNames.map fun name =>
        (group.kvCacheSpec.pageOf api name, name)).flatten = singlePages api groups :=
      List.flatMap_def.symm
    refine ⟨singleSlots api groups, ?_, layout_single h _, fun hnone => ?_,
      mayOverrideNumBlocks_div_nonneg _⟩
    · simp only [hflat, singleSlots_eq, List.map_map]
      rfl
    · refine unit_budget hnone hne ?_
      rw [unitBytes_single, hflat, List.map_map]
      exact le_rfl
  · rw [if_neg hlock] at hok
    obtain ⟨layout, hlayout, hok⟩ := except_bind_eq_ok.1 hok
    obtain ⟨numBlocks, hdiv, hok⟩ := except_bind_eq_ok.1 hok
    obtain ⟨hne, rfl⟩ := floorDiv_ok hdiv
    obtain ⟨packed, hpacked, hlayout⟩ := except_bind_eq_ok.1 hlayout
    -- the table lists each layer at its place within its group; groups overlay each other
    obtain ⟨stride, heq, -, hstride⟩ :=
      packGroups_eq api (fun g hg name hname => h.hasPage hg hname) 0 []
    obtain rfl := Except.ok.inj (heq.symm.trans hpacked)
    obtain rfl : (stride, (groupPlaces api groups).foldl
        (fun table place => addLayer place.1 place.2 table) []) = layout := by
      by_cases hpos : 0 < stride
      · rw [if_pos hpos] at hlayout
        exact Except.ok.inj hlayout
      · rw [if_neg hpos] at hlayout
        exact absurd hlayout (by simp [throw, throwThe, MonadExceptOf.throw])
    obtain rfl := Except.ok.inj hok
    refine ⟨packedSlots stride (((groupPlaces api groups).foldl
      (fun table place => addLayer place.1 place.2 table) []).mergeSort
        fun a b => decide (a.1 ≤ b.1)), ?_, ?_, fun hnone => ?_,
      mayOverrideNumBlocks_div_nonneg _⟩
    · rw [packedSlots, List.map_map]
      rfl
    -- sorting the table by offset changes the order of the tensors, not where a layer is
    · rw [Bool.not_eq_true] at hlock
      rw [hlock]
      refine layout_packed h hstride fun offset name => ?_
      have hsort : ∀ table : List (Nat × List String),
          Listed (table.mergeSort fun a b => decide (a.1 ≤ b.1)) offset name ↔
            Listed table offset name := fun table => by
        simp only [Listed, List.mem_mergeSort]
      rw [hsort, foldl_addLayer_listed]
      exact or_iff_right fun ⟨_, hmem, _⟩ => List.not_mem_nil hmem
    · exact unit_budget hnone hne (unitBytes_packed _ _)

theorem getUniformPageSize_ok {specs : List (KVCacheSpec σ)} {pageSize : Nat}
    (h : getUniformPageSize api specs = .ok pageSize) :
    ∀ spec ∈ specs, spec.pageSizeBytes api = pageSize := by
  rw [getUniformPageSize] at h
  split at h
  · rename_i p hp
    obtain rfl := Except.ok.inj h
    intro spec hspec
    have hmem : spec.pageSizeBytes api ∈ (specs.map fun spec => spec.pageSizeBytes api).dedup :=
      List.mem_dedup.2 (List.mem_map.2 ⟨spec, hspec, rfl⟩)
    rw [hp] at hmem
    exact List.mem_singleton.1 hmem
  · exact absurd h (by simp)

/-- The general case, for groups with one specification each. -/
theorem pooled_planned (h : WellGrouped groups)
    (hkind : ∀ group ∈ groups, group.kvCacheSpec.isUniformType = false)
    (hlock : useLockstepMlaAllocation api groups config.decodeContextParallelSize = false)
    {planned : Int × List KVCacheTensor}
    (hok : pooledTensors api config groups availableMemory = .ok planned) :
    ∃ slots, Planned api config groups availableMemory slots planned := by
  obtain ⟨pageSize, hpage, hok⟩ := except_bind_eq_ok.1 hok
  by_cases hzero : groupSize groups = 0
  · rw [if_pos hzero] at hok
    exact absurd hok (by simp [throw, throwThe, MonadExceptOf.throw, bind, Except.bind])
  · rw [if_neg hzero] at hok
    obtain ⟨numBlocks, hnum, hok⟩ := except_bind_eq_ok.1 hok
    obtain ⟨perPage, hper, hnum⟩ := except_bind_eq_ok.1 hnum
    obtain ⟨perLayer, hlayer, hnum⟩ := except_bind_eq_ok.1 hnum
    obtain ⟨hpagePos, rfl⟩ := floorDiv_ok hper
    obtain ⟨-, rfl⟩ := floorDiv_ok hlayer
    obtain rfl := Except.ok.inj hnum
    obtain rfl := Except.ok.inj hok
    refine ⟨pooledSlots pageSize groups, ?_, ?_, fun hnone => ?_,
      fun _ => mayOverrideNumBlocks_nonneg (le_max_right _ _)⟩
    · rw [pooledSlots, List.map_map]
      rfl
    · rw [hlock]
      refine layout_pooled h fun group hg name hname => ?_
      have hsize := getUniformPageSize_ok hpage group.kvCacheSpec
        (List.mem_map.2 ⟨group, hg, rfl⟩)
      have hnot := hkind group hg
      cases hspec : group.kvCacheSpec with
      | layer spec =>
        rw [hspec] at hsize
        exact hsize
      | uniformType blockSize specs =>
        rw [hspec] at hnot
        exact absurd hnot Bool.noConfusion
    · rw [mayOverrideNumBlocks_none hnone, unitBytes_own]
      · have hunits : ((pooledSlots pageSize groups).map Slot.unit).sum =
            groupSize groups * pageSize := by
          rw [pooledSlots, List.map_map]
          show ((List.range (groupSize groups)).map fun _ => pageSize).sum = _
          rw [List.map_const', List.sum_replicate, List.length_range, smul_eq_mul]
        have hsize : (groupSize groups : Int) ≠ 0 := by omega
        have hpage' : (pageSize : Int) ≠ 0 := by omega
        have hper := Int.mul_ediv_self_le (x := availableMemory) hpage'
        have hlayer := Int.mul_ediv_self_le (x := availableMemory / pageSize) hsize
        rw [hunits, Nat.cast_mul]
        -- with less than no memory the number of blocks is cut at zero
        by_cases hneg : 0 ≤ availableMemory / pageSize / groupSize groups
        · rw [max_eq_left hneg]
          have : (pageSize : Int) * (groupSize groups *
              (availableMemory / pageSize / groupSize groups)) ≤
                pageSize * (availableMemory / pageSize) :=
            mul_le_mul_of_nonneg_left hlayer (by omega)
          refine le_trans ?_ (le_max_left _ _)
          calc (groupSize groups : Int) * pageSize *
                (availableMemory / pageSize / groupSize groups)
              = pageSize * (groupSize groups *
                  (availableMemory / pageSize / groupSize groups)) := by ring
            _ ≤ pageSize * (availableMemory / pageSize) := this
            _ ≤ availableMemory := hper
        · rw [max_eq_right (by omega), Int.mul_zero]
          exact le_max_right _ _
      · rintro slot hslot
        obtain ⟨_, -, rfl⟩ := List.mem_map.1 hslot
        rfl

/-- **Every configuration is a plan.** -/
theorem config_planned (h : WellGrouped groups) (hsum : api.SumsPages)
    {planned : KVCacheConfig σ}
    (hok : getKvCacheConfigFromGroups api config groups availableMemory = .ok planned) :
    planned.kvCacheGroups = groups ∧ ∃ slots, Planned api config groups availableMemory slots
      (planned.numBlocks, planned.kvCacheTensors) := by
  rcases groups with - | ⟨group, more⟩
  · obtain rfl := Except.ok.inj hok
    refine ⟨rfl, [], rfl, layout_single h _, fun _ => ?_, fun _ => Int.one_nonneg⟩
    rw [show unitBytes [] = 0 from rfl, Nat.cast_zero, Int.zero_mul]
    exact le_max_right _ _
  · rw [getKvCacheConfigFromGroups] at hok
    obtain ⟨tensors, htensors, hok⟩ := except_bind_eq_ok.1 hok
    obtain rfl := Except.ok.inj hok
    refine ⟨rfl, ?_⟩
    rw [planTensors] at htensors
    by_cases hsingle : isSingleUniformType (group :: more) = true
    · rw [if_pos hsingle] at htensors
      rcases more with - | ⟨second, more⟩
      · exact ⟨_, uniformType_planned h hsum hsingle htensors⟩
      · exact absurd hsingle Bool.false_ne_true
    · rw [if_neg hsingle] at htensors
      by_cases hpack : usePackedKvCacheConfig api config (group :: more) = true
      · rw [if_pos hpack] at htensors
        exact packed_planned h htensors
      · rw [if_neg hpack] at htensors
        have hlock : useLockstepMlaAllocation api (group :: more)
            config.decodeContextParallelSize = false := by
          rw [← Bool.not_eq_true]
          intro hlock
          rw [usePackedKvCacheConfig, if_pos hlock] at hpack
          exact hpack rfl
        refine pooled_planned h (h.kind.resolve_left fun hall => hpack ?_) hlock htensors
        rw [usePackedKvCacheConfig, hlock, if_neg Bool.false_ne_true, List.all_eq_true.2 hall]
        rfl

end Planning

/-! ### Bytes -/

section Bytes

variable {api : SpecClass σ} {lockstep : Bool} {slots : List Slot} {config : KVCacheConfig σ}

/-- Byte `x` of a piece of memory is of the page that a layer has in a block: blocks follow each
other at the stride of the tensor, or with no space between the pages. -/
def Stores (api : SpecClass σ) (config : KVCacheConfig σ) (name : String) (block : Nat)
    (region : Region) (x : Nat) : Prop :=
  ∃ group ∈ config.kvCacheGroups, name ∈ group.layerNames ∧
    ∃ i tensor, config.kvCacheTensors[i]? = some tensor ∧ name ∈ tensor.sharedBy ∧
      region = regionOf tensor.blockStride i ∧
      block * tensor.blockStride.getD (group.kvCacheSpec.pageOf api name) + tensor.offset ≤ x ∧
      x < block * tensor.blockStride.getD (group.kvCacheSpec.pageOf api name) + tensor.offset +
        group.kvCacheSpec.pageOf api name

/-- Tensors of the shapes of a plan. -/
structure Shaped (api : SpecClass σ) (lockstep : Bool) (slots : List Slot)
    (config : KVCacheConfig σ) : Prop where
  groups : WellGrouped config.kvCacheGroups
  tensors : config.kvCacheTensors = slots.map (Slot.tensor config.numBlocks)
  layout : Layout api config.kvCacheGroups lockstep slots

/-- A byte of a page is in a slot, and the slot is that of the block. -/
theorem Shaped.stores (h : Shaped api lockstep slots config) {name : String} {block : Nat}
    {region : Region} {x : Nat} (hx : Stores api config name block region x) :
    ∃ group i slot, Placed config.kvCacheGroups slots group name i slot ∧
      region = regionOf slot.blockStride i ∧ x / slot.unit = block ∧
      slot.offset ≤ x % slot.unit ∧
      x % slot.unit < slot.offset + group.kvCacheSpec.pageOf api name := by
  obtain ⟨group, hg, hname, i, tensor, hi, hshared, hregion, hlo, hhi⟩ := hx
  rw [h.tensors, List.getElem?_map, Option.map_eq_some_iff] at hi
  obtain ⟨slot, hi, rfl⟩ := hi
  have hp : Placed config.kvCacheGroups slots group name i slot := ⟨hg, hname, hi, hshared⟩
  obtain ⟨hfit, hstride⟩ := h.layout.fits hp
  simp only [Slot.tensor, hstride] at hlo hhi
  exact ⟨group, i, slot, hp, hregion, Packing.slot_of_address hfit hlo hhi⟩

/-- **Pages that share a byte** are of one block, and of one layer, or of layers of different
groups that are not in lockstep. -/
theorem Shaped.apart (h : Shaped api lockstep slots config) {name name' : String}
    {block block' : Nat} {region : Region} {x : Nat} (hx : Stores api config name block region x)
    (hx' : Stores api config name' block' region x) :
    block = block' ∧ (name = name' ∨ lockstep = false ∧
      ∀ group ∈ config.kvCacheGroups, name ∈ group.layerNames → name' ∉ group.layerNames) := by
  obtain ⟨group, i, slot, hp, hregion, hblock, hlo, hhi⟩ := h.stores hx
  obtain ⟨group', i', slot', hp', hregion', hblock', hlo', hhi'⟩ := h.stores hx'
  have hsame : regionOf slot.blockStride i = regionOf slot'.blockStride i' :=
    hregion.symm.trans hregion'
  have hunit : slot.unit = slot'.unit := by
    obtain ⟨stride, hstride⟩ := h.layout.slab
    cases hs : slot.blockStride with
    | none =>
      cases hs' : slot'.blockStride with
      | none =>
        rw [hs, hs'] at hsame
        obtain rfl : i = i' := Region.tensor.inj hsame
        rw [Option.some.inj (hp.slot_get.symm.trans hp'.slot_get)]
      | some s' =>
        rw [hs, hs'] at hsame
        exact absurd hsame Region.noConfusion
    | some s =>
      cases hs' : slot'.blockStride with
      | none =>
        rw [hs, hs'] at hsame
        exact absurd hsame Region.noConfusion
      | some s' =>
        rw [hstride slot hp.slot_mem (by simp [hs]), hstride slot' hp'.slot_mem (by simp [hs'])]
  rw [← hunit] at hblock' hlo' hhi'
  refine ⟨hblock.symm.trans hblock', ?_⟩
  rcases h.layout.apart hp hp' hsame hlo hhi hlo' hhi' with hname | ⟨hlock, hgroups⟩
  · exact .inl hname
  · refine .inr ⟨hlock, fun g hg hname hname' => hgroups ?_⟩
    rw [h.groups.same_group hp.group_mem hg hp.name_mem hname,
      h.groups.same_group hp'.group_mem hg hp'.name_mem hname']

/-- **Every page has its bytes**, within the tensor. -/
theorem Shaped.room (h : Shaped api lockstep slots config) {group : KVCacheGroupSpec σ}
    (hg : group ∈ config.kvCacheGroups) {name : String} (hname : name ∈ group.layerNames)
    {block : Nat} (hblock : (block : Int) < config.numBlocks) :
    ∃ page i start tensor, group.kvCacheSpec.layerPageSize api name = .ok page ∧
      config.kvCacheTensors[i]? = some tensor ∧ ((start + page : Nat) : Int) ≤ tensor.size ∧
      ∀ k < page, Stores api config name block (regionOf tensor.blockStride i) (start + k) := by
  obtain ⟨i, slot, hp⟩ := h.layout.covered group hg name hname
  obtain ⟨hfit, hstride⟩ := h.layout.fits hp
  have hget : config.kvCacheTensors[i]? = some (slot.tensor config.numBlocks) := by
    rw [h.tensors, List.getElem?_map, hp.slot_get]
    rfl
  refine ⟨group.kvCacheSpec.pageOf api name, i, block * slot.unit + slot.offset, _,
    h.groups.hasPage hg hname, hget, ?_, fun k hk => ?_⟩
  · have hend := Packing.slot_end hfit (show block < config.numBlocks.toNat by omega)
    have hnum : ((slot.unit * config.numBlocks.toNat : Nat) : Int) =
        slot.unit * config.numBlocks := by
      rw [Nat.cast_mul, Int.toNat_of_nonneg (by omega)]
    show _ ≤ (slot.unit : Int) * config.numBlocks
    rw [← hnum]
    exact Int.ofNat_le.2 hend
  · refine ⟨group, hg, hname, i, _, hget, hp.shared, rfl, ?_⟩
    simp only [Slot.tensor, hstride]
    omega

end Bytes

end Kv

end DgxSpark
