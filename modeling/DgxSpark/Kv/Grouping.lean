import DgxSpark.Kv.Capacity
import DgxSpark.Lib.Slices

/-!
# Grouping the layers

How `vllm/v1/core/kv_cache_utils.py` makes the cache groups of a hybrid model, in the two cases
with more than one group. Layers whose specifications merge are put in one bucket and each bucket
is split into groups of one size (`_get_kv_cache_groups_uniform_page_size`); in the other case the
layers of each specification are arranged in tuples, one layer of each page size, and the tuples
are split (`_get_kv_cache_groups_uniform_groups`), with a number of tuples for each group that
costs the least padding (`_approximate_gcd`).

Both deal the layers out in turn, so that the layers of a pipeline stage, which are consecutive,
come to all groups evenly (`DgxSpark.Kv.uniform_page_size_groups`). Both put every layer in one
group, and are what the planner asks for (`DgxSpark.Kv.WellGrouped`).

Merging specifications, and finding one for several layers, are functions of the specification
classes and parameters here.
-/

namespace DgxSpark

namespace Kv

variable {σ : Type}

/-! ### Layers with pages of one size -/

section Definitions

/-- The specifications of some layers. -/
def specsOf (kvCacheSpec : List (String × σ)) (names : List String) :
    Except PlanError (List (String × σ)) :=
  names.mapM (specOf kvCacheSpec)

variable (merge : List σ → Option σ)

/-- `layer_specs[0].merge(layer_specs)`. -/
def mergeLayerSpecs (layerSpecs : List σ) : Except PlanError σ :=
  if layerSpecs.isEmpty then .error .indexError
  else
    match merge layerSpecs with
    | some merged => .ok merged
    | none => .error .assertion

/-- One group of `create_kv_cache_group_specs`. -/
def createGroup (kvCacheSpec : List (String × σ)) (layerNames : List String) :
    Except PlanError (KVCacheGroupSpec σ) := do
  let layerSpecs ← specsOf kvCacheSpec layerNames
  let merged ← mergeLayerSpecs merge (layerSpecs.map Prod.snd)
  pure ⟨layerNames, .layer merged, false⟩

/-- `create_kv_cache_group_specs`. -/
def createKvCacheGroupSpecs (kvCacheSpec : List (String × σ))
    (groupedLayerNames : List (List String)) : Except PlanError (List (KVCacheGroupSpec σ)) :=
  groupedLayerNames.mapM (createGroup merge kvCacheSpec)

/-- The layers of each specification. -/
def sameTypeLayers [DecidableEq σ] (kvCacheSpec : List (String × σ)) : List (σ × List String) :=
  kvCacheSpec.foldl (fun table entry => addLayer entry.2 entry.1 table) []

/-- The layers of a specification go to the first bucket they can be merged with. -/
def addToBuckets (spec : σ) (names : List String) :
    List (List String × List σ) → List (List String × List σ)
  | [] => [(names, [spec])]
  | bucket :: buckets =>
    if (merge (bucket.2 ++ [spec])).isSome then
      (bucket.1 ++ names, bucket.2 ++ [spec]) :: buckets
    else bucket :: addToBuckets spec names buckets

/-- The buckets of layers. -/
def layerBuckets [DecidableEq σ] (kvCacheSpec : List (String × σ)) : List (List String) :=
  ((sameTypeLayers kvCacheSpec).foldl
    (fun buckets entry => addToBuckets merge entry.1 entry.2 buckets) []).map Prod.fst

/-- The number of layers for each group: that of the smallest bucket, or of the largest when it is
not much larger. -/
def chooseGroupSize (groupSizeOverride : Option Int) : List Nat → Except PlanError Nat
  | [] => .error (.valueError "min() iterable argument is empty")
  | size :: sizes =>
    let minNumLayers := sizes.foldl min size
    let maxNumLayers := sizes.foldl max size
    match groupSizeOverride with
    | some override =>
      if override ≤ 0 then
        .error (.valueError ("KV cache group size override must be positive, got " ++
          toString override ++ "."))
      else .ok override.toNat
    -- `max_num_layers < min_num_layers * 1.5`
    | none => .ok (if 2 * maxNumLayers < 3 * minNumLayers then maxNumLayers else minNumLayers)

/-- The groups of a bucket: `layers[i::num_groups]`. -/
def splitBucket (groupSize : Nat) (layers : List String) :
    Except PlanError (List (List String)) := do
  let numGroups ← cdiv layers.length groupSize
  pure (Slices.slices numGroups layers)

/-- `_get_kv_cache_groups_uniform_page_size`. -/
def getKvCacheGroupsUniformPageSize [DecidableEq σ] (groupSizeOverride : Option Int)
    (kvCacheSpec : List (String × σ)) : Except PlanError (List (KVCacheGroupSpec σ)) := do
  let buckets := layerBuckets merge kvCacheSpec
  let groupSize ← chooseGroupSize groupSizeOverride (buckets.map List.length)
  let groupedLayers ← buckets.mapM (splitBucket groupSize)
  createKvCacheGroupSpecs merge kvCacheSpec groupedLayers.flatten

end Definitions

section Buckets

/-- Appending under a key adds one name. -/
theorem addLayer_perm {κ : Type} [DecidableEq κ] (key : κ) (name : String)
    (table : List (κ × List String)) :
    ((addLayer key name table).flatMap Prod.snd).Perm (table.flatMap Prod.snd ++ [name]) := by
  induction table with
  | nil => exact List.Perm.refl _
  | cons entry table ih =>
    rw [addLayer]
    split
    · rw [List.flatMap_cons, List.flatMap_cons, List.append_assoc, List.append_assoc]
      exact (List.perm_append_comm).append_left _
    · rw [List.flatMap_cons, List.flatMap_cons, List.append_assoc]
      exact ih.append_left _

/-- What is put in a table by key is in it. -/
theorem foldl_addLayer_perm {κ ι : Type} [DecidableEq κ] (key : ι → κ) (name : ι → String)
    (entries : List ι) (table : List (κ × List String)) :
    ((entries.foldl (fun table entry => addLayer (key entry) (name entry) table) table).flatMap
      Prod.snd).Perm (table.flatMap Prod.snd ++ entries.map name) := by
  induction entries generalizing table with
  | nil => rw [List.foldl_nil, List.map_nil, List.append_nil]
  | cons entry entries ih =>
    rw [List.foldl_cons, List.map_cons]
    refine (ih _).trans ?_
    have h := (addLayer_perm (key entry) (name entry) table).append_right (entries.map name)
    rwa [List.append_assoc] at h

variable {merge : List σ → Option σ}

variable (merge) in
theorem addToBuckets_perm (spec : σ) (names : List String) (buckets : List (List String × List σ)) :
    ((addToBuckets merge spec names buckets).flatMap Prod.fst).Perm
      (buckets.flatMap Prod.fst ++ names) := by
  induction buckets with
  | nil => rw [addToBuckets, List.flatMap_singleton]; exact List.Perm.refl _
  | cons bucket buckets ih =>
    rw [addToBuckets]
    split
    · rw [List.flatMap_cons, List.flatMap_cons, List.append_assoc, List.append_assoc]
      exact (List.perm_append_comm).append_left _
    · rw [List.flatMap_cons, List.flatMap_cons, List.append_assoc]
      exact ih.append_left _

/-- **The buckets hold every layer once.** -/
theorem layerBuckets_perm [DecidableEq σ] (kvCacheSpec : List (String × σ)) :
    (layerBuckets merge kvCacheSpec).flatten.Perm (kvCacheSpec.map Prod.fst) := by
  have hbuckets : ∀ (entries : List (σ × List String)) (buckets : List (List String × List σ)),
      ((entries.foldl (fun buckets entry => addToBuckets merge entry.1 entry.2 buckets)
        buckets).flatMap Prod.fst).Perm
        (buckets.flatMap Prod.fst ++ entries.flatMap Prod.snd) := by
    intro entries
    induction entries with
    | nil => exact fun buckets => by rw [List.foldl_nil, List.flatMap_nil, List.append_nil]
    | cons entry entries ih =>
      intro buckets
      rw [List.foldl_cons, List.flatMap_cons]
      refine (ih _).trans ?_
      have h := (addToBuckets_perm merge entry.1 entry.2 buckets).append_right
        (entries.flatMap Prod.snd)
      rwa [List.append_assoc] at h
  rw [layerBuckets, ← List.flatMap_def]
  exact (hbuckets _ []).trans (foldl_addLayer_perm Prod.snd Prod.fst kvCacheSpec [])

theorem createGroup_ok {kvCacheSpec : List (String × σ)} {names : List String}
    {group : KVCacheGroupSpec σ} (h : createGroup merge kvCacheSpec names = .ok group) :
    group.layerNames = names ∧ ∃ specs merged, specsOf kvCacheSpec names = .ok specs ∧
      merge (specs.map Prod.snd) = some merged ∧ group.kvCacheSpec = .layer merged := by
  obtain ⟨specs, hspecs, h⟩ := except_bind_eq_ok.1 h
  obtain ⟨merged, hmerge, h⟩ := except_bind_eq_ok.1 h
  rw [← Except.ok.inj h]
  refine ⟨rfl, specs, merged, hspecs, ?_, rfl⟩
  rw [mergeLayerSpecs] at hmerge
  split at hmerge
  · exact absurd hmerge (by simp)
  · cases hsome : merge (specs.map Prod.snd) with
    | none =>
      rw [hsome] at hmerge
      exact absurd hmerge (by simp)
    | some found =>
      rw [hsome] at hmerge
      rw [Except.ok.inj hmerge]

/-- The groups have the layers they are made for. -/
theorem create_names {kvCacheSpec : List (String × σ)} {grouped : List (List String)}
    {groups : List (KVCacheGroupSpec σ)}
    (h : createKvCacheGroupSpecs merge kvCacheSpec grouped = .ok groups) :
    groups.map KVCacheGroupSpec.layerNames = grouped := by
  have hall := except_mapM_eq_ok.1 h
  clear h
  induction hall with
  | nil => rfl
  | cons hfirst _ ih => rw [List.map_cons, ih, (createGroup_ok hfirst).1]

end Buckets

/-! ### Even groups -/

section Even

theorem cdiv_ok {a b n : Nat} (h : cdiv a b = .ok n) : b ≠ 0 ∧ a ≤ n * b ∧ (n = 0 → a = 0) := by
  rw [cdiv] at h
  by_cases hb : b = 0
  · rw [if_pos hb] at h
    exact absurd h (by simp)
  · rw [if_neg hb] at h
    obtain rfl := Except.ok.inj h
    have hdiv := Nat.div_add_mod (a + b - 1) b
    have hmod := Nat.mod_lt (a + b - 1) (Nat.pos_of_ne_zero hb)
    refine ⟨hb, ?_, fun hzero => ?_⟩
    · rw [Nat.mul_comm]
      omega
    · rw [hzero] at hdiv
      omega

/-- Splitting deals the layers out. -/
theorem splitBucket_ok {groupSize : Nat} {layers : List String} {split : List (List String)}
    (h : splitBucket groupSize layers = .ok split) :
    groupSize ≠ 0 ∧ ∃ n, cdiv layers.length groupSize = .ok n ∧ split = Slices.slices n layers := by
  obtain ⟨n, hdiv, h⟩ := except_bind_eq_ok.1 h
  exact ⟨(cdiv_ok hdiv).1, n, hdiv, (Except.ok.inj h).symm⟩

theorem slices_cdiv_perm {groupSize n : Nat} {α : Type} {l : List α}
    (h : cdiv l.length groupSize = .ok n) : (Slices.slices n l).flatten.Perm l := by
  rcases Nat.eq_zero_or_pos n with rfl | hn
  · rw [List.eq_nil_of_length_eq_zero ((cdiv_ok h).2.2 rfl)]
    exact List.Perm.refl _
  · exact Slices.slices_perm hn l

theorem slices_cdiv_le {groupSize n : Nat} {α : Type} {l part : List α}
    (h : cdiv l.length groupSize = .ok n) (hpart : part ∈ Slices.slices n l) :
    part.length ≤ groupSize := by
  obtain ⟨i, hi, rfl⟩ := List.mem_map.1 hpart
  exact Slices.slice_le (List.mem_range.1 hi) l (cdiv_ok h).2.1

theorem slices_sublist {n : Nat} {α : Type} {l part : List α} (hpart : part ∈ Slices.slices n l) :
    part.Sublist l := by
  obtain ⟨i, -, rfl⟩ := List.mem_map.1 hpart
  exact Slices.slice_sublist n i l

theorem splitBuckets_perm {groupSize : Nat} {buckets : List (List String)}
    {split : List (List (List String))} (h : buckets.mapM (splitBucket groupSize) = .ok split) :
    split.flatten.flatten.Perm buckets.flatten := by
  have hall := except_mapM_eq_ok.1 h
  clear h
  induction hall with
  | nil => exact List.Perm.refl _
  | cons hfirst _ ih =>
    obtain ⟨-, n, hdiv, rfl⟩ := splitBucket_ok hfirst
    rw [List.flatten_cons, List.flatten_append, List.flatten_cons]
    exact (slices_cdiv_perm hdiv).append ih

variable {merge : List σ → Option σ}

/-- How the groups are made. -/
theorem uniform_page_size_ok [DecidableEq σ] {groupSizeOverride : Option Int}
    {kvCacheSpec : List (String × σ)} {groups : List (KVCacheGroupSpec σ)}
    (hok : getKvCacheGroupsUniformPageSize merge groupSizeOverride kvCacheSpec = .ok groups) :
    ∃ size split,
      chooseGroupSize groupSizeOverride ((layerBuckets merge kvCacheSpec).map List.length) =
        .ok size ∧
      (layerBuckets merge kvCacheSpec).mapM (splitBucket size) = .ok split ∧
      groups.map KVCacheGroupSpec.layerNames = split.flatten ∧
      (groups.flatMap fun group => group.layerNames).Perm (kvCacheSpec.map Prod.fst) ∧
      ∀ group ∈ groups, ∃ specs merged, specsOf kvCacheSpec group.layerNames = .ok specs ∧
        merge (specs.map Prod.snd) = some merged ∧ group.kvCacheSpec = .layer merged := by
  obtain ⟨size, hsize, hok⟩ := except_bind_eq_ok.1 hok
  obtain ⟨split, hsplit, hok⟩ := except_bind_eq_ok.1 hok
  have hnames := create_names hok
  refine ⟨size, split, hsize, hsplit, hnames, ?_, fun group hg => ?_⟩
  · rw [List.flatMap_def, hnames]
    exact (splitBuckets_perm hsplit).trans (layerBuckets_perm kvCacheSpec)
  · obtain ⟨i, hi⟩ := List.mem_iff_getElem?.1 hg
    obtain ⟨names, -, hcreate⟩ := mapM_getElem? hok hi
    obtain ⟨rfl, hspecs⟩ := createGroup_ok hcreate
    exact hspecs

/-- The groups are what the planner asks for. -/
theorem uniform_page_size_wellGrouped [DecidableEq σ] {groupSizeOverride : Option Int}
    {kvCacheSpec : List (String × σ)} (hkeys : (kvCacheSpec.map Prod.fst).Nodup)
    {groups : List (KVCacheGroupSpec σ)}
    (hok : getKvCacheGroupsUniformPageSize merge groupSizeOverride kvCacheSpec = .ok groups) :
    WellGrouped groups := by
  obtain ⟨_, _, -, -, -, hperm, hspecs⟩ := uniform_page_size_ok hok
  refine ⟨hperm.nodup_iff.2 hkeys, fun group hg _ _ hspec => ?_, .inr fun group hg => ?_⟩ <;>
    obtain ⟨_, merged, -, -, hlayer⟩ := hspecs group hg
  · exact absurd (hlayer.symm.trans hspec) (by simp)
  · rw [hlayer]
    rfl

/-- Specifications that are equal merge. -/
def mergeEqual : List (Bool × Nat) → Option (Bool × Nat)
  | [] => none
  | spec :: specs => if specs.all fun other => decide (other = spec) then some spec else none

end Even

/-! ### The number of tuples for each group -/

section ApproximateGcd

/-- What rounding some numbers up to multiples of `d` adds to them. -/
def padding (values : List Nat) (d : Nat) : Nat :=
  (values.map fun x => (d - x % d) % d).sum

/-- The loop over the candidates, with the best one and its padding so far. -/
def bestDivisor (values : List Nat) : List Nat → Nat → Option Nat → Nat
  | [], bestD, _ => bestD
  | d :: candidates, _, none => bestDivisor values candidates d (some (padding values d))
  | d :: candidates, bestD, some bestPad =>
    if padding values d < bestPad ∨ padding values d = bestPad ∧ bestD < d then
      bestDivisor values candidates d (some (padding values d))
    else bestDivisor values candidates bestD (some bestPad)

/-- `_approximate_gcd`. -/
def approximateGcd (values : List Nat) (lowerBound : Option Nat) : Except PlanError Nat :=
  if values.isEmpty then .error (.valueError "values must be non-empty")
  else if values.any fun x => decide (x = 0) then
    .error (.valueError ("values must be positive, got: " ++ toString values))
  else
    let minD := max 1 (lowerBound.getD 1)
    let maxD := values.foldr max 0
    if maxD < minD then .ok minD
    else .ok (bestDivisor values (List.range' minD (maxD + 1 - minD)) minD none)

/-- `d` pads less than `d'`, or as much and is not smaller. -/
def PadsLess (values : List Nat) (d d' : Nat) : Prop :=
  padding values d < padding values d' ∨ padding values d = padding values d' ∧ d' ≤ d

theorem PadsLess.trans {values : List Nat} {a b c : Nat} (h : PadsLess values a b)
    (h' : PadsLess values b c) : PadsLess values a c := by
  unfold PadsLess at *
  omega

/-- The loop keeps the best of what it has seen. -/
theorem bestDivisor_best (values candidates : List Nat) (bestD : Nat) :
    bestDivisor values candidates bestD (some (padding values bestD)) ∈ bestD :: candidates ∧
      ∀ d ∈ bestD :: candidates,
        PadsLess values (bestDivisor values candidates bestD (some (padding values bestD))) d := by
  induction candidates generalizing bestD with
  | nil =>
    refine ⟨List.mem_singleton_self _, fun d hd => ?_⟩
    rw [List.mem_singleton.1 hd]
    exact .inr ⟨rfl, le_rfl⟩
  | cons d candidates ih =>
    rw [bestDivisor]
    split
    · rename_i hbetter
      obtain ⟨hmem, hbest⟩ := ih d
      refine ⟨List.mem_cons_of_mem _ hmem, List.forall_mem_cons.2 ⟨?_, hbest⟩⟩
      exact (hbest d List.mem_cons_self).trans (by unfold PadsLess; omega)
    · rename_i hworse
      obtain ⟨hmem, hbest⟩ := ih bestD
      obtain ⟨hfirst, hrest⟩ := List.forall_mem_cons.1 hbest
      refine ⟨?_, List.forall_mem_cons.2 ⟨hfirst, List.forall_mem_cons.2
        ⟨hfirst.trans (by unfold PadsLess; omega), hrest⟩⟩⟩
      rcases List.mem_cons.1 hmem with heq | hmem
      · rw [heq]
        exact List.mem_cons_self
      · exact List.mem_cons_of_mem _ (List.mem_cons_of_mem _ hmem)

/-- **The divisor with the least padding**: of the numbers from the lower bound to the greatest
value it pads least, and it is the greatest of those that do. -/
theorem approximateGcd_best {values : List Nat} {lowerBound : Option Nat} {d : Nat}
    (h : approximateGcd values lowerBound = .ok d) :
    max 1 (lowerBound.getD 1) ≤ d ∧ d ≤ max (max 1 (lowerBound.getD 1)) (values.foldr max 0) ∧
      ∀ d', max 1 (lowerBound.getD 1) ≤ d' → d' ≤ values.foldr max 0 → PadsLess values d d' := by
  rw [approximateGcd] at h
  split at h
  · exact absurd h (by simp)
  split at h
  · exact absurd h (by simp)
  dsimp only at h
  generalize max 1 (lowerBound.getD 1) = minD at *
  generalize values.foldr max 0 = maxD at *
  split at h
  · rw [← Except.ok.inj h]
    exact ⟨le_rfl, le_max_left _ _, fun d' hlo hhi => by omega⟩
  · obtain rfl := Except.ok.inj h
    rw [show maxD + 1 - minD = (maxD - minD) + 1 by omega, List.range'_succ, bestDivisor]
    obtain ⟨hmem, hbest⟩ := bestDivisor_best values (List.range' (minD + 1) (maxD - minD)) minD
    have hrange : ∀ n, n ∈ minD :: List.range' (minD + 1) (maxD - minD) ↔
        minD ≤ n ∧ n ≤ maxD := by
      intro n
      rw [List.mem_cons, List.mem_range'_1]
      omega
    refine ⟨((hrange _).1 hmem).1, ((hrange _).1 hmem).2.trans (le_max_right _ _),
      fun d' hlo hhi => hbest d' ((hrange d').2 ⟨hlo, hhi⟩)⟩

end ApproximateGcd

/-! ### Groups of layer tuples -/

section Tuples

variable (api : SpecClass σ)

/-- `zip_longest`: the entries at each position, none where a list has ended. -/
def zipLongest (columns : List (List String)) : List (List (Option String)) :=
  (List.range ((columns.map List.length).foldr max 0)).map fun i =>
    columns.map fun column => column[i]?

/-- The names in some tuples. -/
def tupleNames (tuples : List (List (Option String))) : List String :=
  tuples.flatMap fun layerTuple => layerTuple.filterMap id

/-- The layers with pages of each size. -/
def layersPerSize (specs : List (String × σ)) : List (Nat × List String) :=
  specs.foldl (fun table entry => addLayer (api.pageSizeBytes entry.2) entry.1 table) []

/-- `layer_tuples`, of one specification: one layer with pages of each size. -/
def layerTuples (specs : List (String × σ)) : List (List (Option String)) :=
  zipLongest ((layersPerSize api specs).map Prod.snd)

/-- What an assertion requires. -/
def require (condition : Bool) : Except PlanError Unit :=
  if condition then .ok () else .error .assertion

variable (fromSpecs : List (String × σ) → Option Nat)

/-- The group of some tuples, where a common specification for them is found. -/
def createTupleGroup (specs : List (String × σ)) (tuples : List (List (Option String))) :
    Except PlanError (KVCacheGroupSpec σ) := do
  let own ← specsOf specs (tupleNames tuples)
  match fromSpecs own with
  | some blockSize => .ok ⟨tupleNames tuples, .uniformType blockSize own, false⟩
  | none => .error .assertion

/-- The groups of the layers of one specification. -/
def splitSpecs (numLayerTuples : Nat) (specs : List (String × σ)) :
    Except PlanError (List (KVCacheGroupSpec σ)) :=
  let columns := (layersPerSize api specs).map Prod.snd
  if columns.isEmpty then .error (.valueError "max() iterable argument is empty")
  else do
    let numTupleGroups ← cdiv ((columns.map List.length).foldr max 0) numLayerTuples
    (Slices.slices numTupleGroups (layerTuples api specs)).mapM (createTupleGroup fromSpecs specs)

/-- `_get_kv_cache_groups_uniform_groups`, for specifications of several layers with their block
sizes. The first is that of the full attention layers and stays one group. -/
def getKvCacheGroupsUniformGroups (isPackable : σ → Bool) :
    List (Nat × List (String × σ)) → Except PlanError (List (KVCacheGroupSpec σ))
  | [] => .error .assertion
  | full :: others => do
    require (full.2.all fun entry => api.isMlaAttention entry.2)
    let numLayerTuples ← approximateGcd ((full :: others).map fun spec => api.numLayerTuples spec.2)
      (some (api.numLayerTuples full.2))
    require (others.all fun spec => spec.2.all fun entry => isPackable entry.2)
    let split ← others.mapM fun spec => splitSpecs api fromSpecs numLayerTuples spec.2
    pure (⟨full.2.map Prod.fst, .uniformType full.1 full.2, false⟩ :: split.flatten)

end Tuples

section UniformGroups

theorem range_getElem?_toList {l : List String} {m : Nat} (h : l.length ≤ m) :
    ((List.range m).flatMap fun i => (l[i]?).toList) = l := by
  induction m generalizing l with
  | zero => rw [List.eq_nil_of_length_eq_zero (Nat.le_zero.1 h)]; rfl
  | succ m ih =>
    rw [List.range_succ_eq_map, List.flatMap_cons, List.flatMap_map]
    rcases l with - | ⟨a, l⟩
    · exact ih (l := []) (Nat.zero_le m)
    · rw [List.length_cons] at h
      show a :: ((List.range m).flatMap fun i => (l[i]?).toList) = _
      rw [ih (by omega)]

/-- The tuples hold what the columns hold. -/
theorem tupleNames_perm (columns : List (List String)) :
    (tupleNames (zipLongest columns)).Perm columns.flatten := by
  have h : ∀ (columns : List (List String)) (m : Nat), (∀ column ∈ columns, column.length ≤ m) →
      ((List.range m).flatMap fun i => columns.filterMap fun column => column[i]?).Perm
        columns.flatten := by
    intro columns m
    induction columns with
    | nil =>
      exact fun _ => List.Perm.of_eq (List.flatMap_eq_nil_iff.2 fun _ _ => rfl)
    | cons first columns ih =>
      intro hm
      rw [List.flatten_cons]
      have hsplit : (fun i : Nat => (first :: columns).filterMap fun column => column[i]?) =
          fun i : Nat => (first[i]?).toList ++ columns.filterMap fun column => column[i]? := by
        funext i
        rw [List.filterMap_cons]
        cases first[i]? <;> rfl
      rw [hsplit]
      refine (List.flatMap_append_perm _ _ _).symm.trans ?_
      rw [range_getElem?_toList (hm first List.mem_cons_self)]
      exact (ih fun column hmem => hm column (List.mem_cons_of_mem _ hmem)).append_left first
  have hmax : ∀ (columns : List (List String)), ∀ column ∈ columns,
      column.length ≤ (columns.map List.length).foldr max 0 := by
    intro columns
    induction columns with
    | nil => exact fun _ hmem => absurd hmem List.not_mem_nil
    | cons first columns ih =>
      exact List.forall_mem_cons.2 ⟨le_max_left _ _, fun column hmem =>
        (ih column hmem).trans (le_max_right _ _)⟩
  refine List.Perm.trans (List.Perm.of_eq ?_) (h columns _ (hmax columns))
  rw [tupleNames, zipLongest, List.flatMap_map]
  refine List.flatMap_congr fun i _ => ?_
  rw [List.filterMap_map]
  rfl

variable {api : SpecClass σ} {fromSpecs : List (String × σ) → Option Nat}

theorem createTupleGroup_ok {specs : List (String × σ)} {tuples : List (List (Option String))}
    {group : KVCacheGroupSpec σ} (h : createTupleGroup fromSpecs specs tuples = .ok group) :
    group.layerNames = tupleNames tuples ∧ ∃ blockSize own,
      group.kvCacheSpec = .uniformType blockSize own ∧ own.map Prod.fst = tupleNames tuples := by
  obtain ⟨own, hown, h⟩ := except_bind_eq_ok.1 h
  cases hfrom : fromSpecs own with
  | none =>
    rw [hfrom] at h
    exact absurd h (by simp)
  | some blockSize =>
    rw [hfrom] at h
    rw [← Except.ok.inj h]
    exact ⟨rfl, blockSize, own, rfl, specOf_names hown⟩

theorem createTupleGroups_names {specs : List (String × σ)}
    {parts : List (List (List (Option String)))} {groups : List (KVCacheGroupSpec σ)}
    (h : parts.mapM (createTupleGroup fromSpecs specs) = .ok groups) :
    groups.map KVCacheGroupSpec.layerNames = parts.map tupleNames := by
  have hall := except_mapM_eq_ok.1 h
  clear h
  induction hall with
  | nil => rfl
  | cons hfirst _ ih => rw [List.map_cons, List.map_cons, ih, (createTupleGroup_ok hfirst).1]

theorem tupleNames_flatten (parts : List (List (List (Option String)))) :
    tupleNames parts.flatten = (parts.map tupleNames).flatten := by
  induction parts with
  | nil => rfl
  | cons part parts ih =>
    rw [List.flatten_cons, List.map_cons, List.flatten_cons, ← ih]
    exact List.flatMap_append

/-- Splitting a specification puts each of its layers in one group, of few of its tuples. -/
theorem splitSpecs_ok {numLayerTuples : Nat} {specs : List (String × σ)}
    {groups : List (KVCacheGroupSpec σ)}
    (h : splitSpecs api fromSpecs numLayerTuples specs = .ok groups) :
    (groups.flatMap fun group => group.layerNames).Perm (specs.map Prod.fst) ∧
      ∀ group ∈ groups, ∃ tuples, tuples.Sublist (layerTuples api specs) ∧
        tuples.length ≤ numLayerTuples ∧ createTupleGroup fromSpecs specs tuples = .ok group := by
  rw [splitSpecs] at h
  split at h
  · exact absurd h (by simp)
  · obtain ⟨n, hdiv, h⟩ := except_bind_eq_ok.1 h
    have hlength : (layerTuples api specs).length =
        (((layersPerSize api specs).map Prod.snd).map List.length).foldr max 0 := by
      rw [layerTuples, zipLongest, List.length_map, List.length_range]
    rw [← hlength] at hdiv
    refine ⟨?_, fun group hg => ?_⟩
    · rw [List.flatMap_def, createTupleGroups_names h, ← tupleNames_flatten]
      refine ((slices_cdiv_perm hdiv).flatMap_right _).trans ((tupleNames_perm _).trans ?_)
      rw [← List.flatMap_def]
      exact foldl_addLayer_perm (fun entry => api.pageSizeBytes entry.2) Prod.fst specs []
    · obtain ⟨i, hi⟩ := List.mem_iff_getElem?.1 hg
      obtain ⟨tuples, htuples, hcreate⟩ := mapM_getElem? h hi
      have hmem := List.mem_of_getElem? htuples
      exact ⟨tuples, slices_sublist hmem, slices_cdiv_le hdiv hmem, hcreate⟩

theorem splitAll_perm {numLayerTuples : Nat} {specs : List (Nat × List (String × σ))}
    {split : List (List (KVCacheGroupSpec σ))}
    (h : specs.mapM (fun spec => splitSpecs api fromSpecs numLayerTuples spec.2) = .ok split) :
    (split.flatten.flatMap fun group => group.layerNames).Perm
      (specs.flatMap fun spec => spec.2.map Prod.fst) := by
  have hall := except_mapM_eq_ok.1 h
  clear h
  induction hall with
  | nil => exact List.Perm.refl _
  | cons hfirst _ ih =>
    rw [List.flatten_cons, List.flatMap_append, List.flatMap_cons]
    exact (splitSpecs_ok hfirst).1.append ih

/-- **Groups of layer tuples**: every layer is in one group, the full attention layers in the
first. Each other group is made of layer tuples of one specification, not more than
`_approximate_gcd` picks for these specifications, and this number costs the least padding of all
from that of the full attention layers on. -/
theorem uniform_groups {isPackable : σ → Bool} {full : Nat × List (String × σ)}
    {others : List (Nat × List (String × σ))}
    (hkeys : ((full :: others).flatMap fun spec => spec.2.map Prod.fst).Nodup)
    {groups : List (KVCacheGroupSpec σ)}
    (hok : getKvCacheGroupsUniformGroups api fromSpecs isPackable (full :: others) = .ok groups) :
    WellGrouped groups ∧
    (groups.flatMap fun group => group.layerNames).Perm
      ((full :: others).flatMap fun spec => spec.2.map Prod.fst) ∧
    (groups.map KVCacheGroupSpec.layerNames).head? = some (full.2.map Prod.fst) ∧
    ∃ numLayerTuples,
      approximateGcd ((full :: others).map fun spec => api.numLayerTuples spec.2)
        (some (api.numLayerTuples full.2)) = .ok numLayerTuples ∧
      (∀ group ∈ groups.tail, ∃ spec ∈ others, ∃ tuples,
        tuples.Sublist (layerTuples api spec.2) ∧ tuples.length ≤ numLayerTuples ∧
          group.layerNames = tupleNames tuples) ∧
      api.numLayerTuples full.2 ≤ numLayerTuples ∧
      ∀ d, max 1 (api.numLayerTuples full.2) ≤ d →
        d ≤ ((full :: others).map fun spec => api.numLayerTuples spec.2).foldr max 0 →
          PadsLess ((full :: others).map fun spec => api.numLayerTuples spec.2)
            numLayerTuples d := by
  obtain ⟨_, -, hok⟩ := except_bind_eq_ok.1 hok
  obtain ⟨numLayerTuples, hgcd, hok⟩ := except_bind_eq_ok.1 hok
  obtain ⟨_, -, hok⟩ := except_bind_eq_ok.1 hok
  obtain ⟨split, hsplit, hok⟩ := except_bind_eq_ok.1 hok
  obtain rfl := Except.ok.inj hok
  obtain ⟨hlo, -, hbest⟩ := approximateGcd_best hgcd
  -- each group but the first is a slice of the layer tuples of one specification
  have hfrom : ∀ group ∈ split.flatten, ∃ spec ∈ others, ∃ tuples,
      tuples.Sublist (layerTuples api spec.2) ∧ tuples.length ≤ numLayerTuples ∧
        createTupleGroup fromSpecs spec.2 tuples = .ok group := by
    intro group hg
    obtain ⟨part, hpart, hin⟩ := List.mem_flatten.1 hg
    obtain ⟨i, hi⟩ := List.mem_iff_getElem?.1 hpart
    obtain ⟨spec, hspec, hfirst⟩ := mapM_getElem? hsplit hi
    exact ⟨spec, List.mem_of_getElem? hspec, (splitSpecs_ok hfirst).2 group hin⟩
  have hperm : (((⟨full.2.map Prod.fst, .uniformType full.1 full.2, false⟩ : KVCacheGroupSpec σ) ::
      split.flatten).flatMap fun group => group.layerNames).Perm
        ((full :: others).flatMap fun spec => spec.2.map Prod.fst) := by
    rw [List.flatMap_cons, List.flatMap_cons]
    exact (splitAll_perm hsplit).append_left _
  have hnodup := hperm.nodup_iff.2 hkeys
  refine ⟨⟨hnodup, fun group hg blockSize specs hspec => ?_, .inl fun group hg => ?_⟩, hperm, rfl,
    numLayerTuples, hgcd, fun group hg => ?_, (le_max_right _ _).trans hlo, hbest⟩
  · have hgroup := (List.nodup_flatMap.1 hnodup).1 group hg
    rcases List.mem_cons.1 hg with rfl | hg
    · obtain ⟨-, rfl⟩ := KVCacheSpec.uniformType.inj hspec
      exact ⟨hgroup, .inl rfl⟩
    · obtain ⟨_, -, tuples, -, -, hcreate⟩ := hfrom group hg
      obtain ⟨hnames, size, own, hsame, hown⟩ := createTupleGroup_ok hcreate
      obtain ⟨-, rfl⟩ := KVCacheSpec.uniformType.inj (hsame.symm.trans hspec)
      rw [hown, ← hnames]
      exact ⟨hgroup, .inl rfl⟩
  · rcases List.mem_cons.1 hg with rfl | hg
    · rfl
    · obtain ⟨_, -, tuples, -, -, hcreate⟩ := hfrom group hg
      obtain ⟨-, _, _, hsame, -⟩ := createTupleGroup_ok hcreate
      rw [hsame]
      rfl
  · obtain ⟨spec, hspec, tuples, hsub, hle, hcreate⟩ := hfrom group hg
    exact ⟨spec, hspec, tuples, hsub, hle, (createTupleGroup_ok hcreate).1⟩

/-- Two full attention layers and three of a sliding window: as two tuples and three cost the
same padding, the groups have three. -/
theorem uniform_groups_layers : ∃ groups,
    getKvCacheGroupsUniformGroups plainSpecs (fun _ => some 16) (fun _ => true)
      [(16, [("mla.0", (false, 4)), ("mla.1", (false, 4))]),
        (16, [("sw.0", (true, 8)), ("sw.1", (true, 8)), ("sw.2", (true, 8))])] = .ok groups ∧
    groups.map KVCacheGroupSpec.layerNames =
      [["mla.0", "mla.1"], ["sw.0", "sw.1", "sw.2"]] ∧ WellGrouped groups := by
  obtain ⟨groups, hrun, hnames⟩ : ∃ groups,
      getKvCacheGroupsUniformGroups plainSpecs (fun _ => some 16) (fun _ => true)
        [(16, [("mla.0", (false, 4)), ("mla.1", (false, 4))]),
          (16, [("sw.0", (true, 8)), ("sw.1", (true, 8)), ("sw.2", (true, 8))])] = .ok groups ∧
      groups.map KVCacheGroupSpec.layerNames = [["mla.0", "mla.1"], ["sw.0", "sw.1", "sw.2"]] :=
    ⟨_, rfl, rfl⟩
  exact ⟨groups, hrun, hnames, (uniform_groups (by decide) hrun).1⟩

end UniformGroups

end Kv

end DgxSpark
