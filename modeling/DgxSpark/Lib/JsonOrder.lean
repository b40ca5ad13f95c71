import DgxSpark.Lib.JsonRoundTrip

/-!
# Key order does not matter

A document that went through text comes back with its keys sorted
(`DgxSpark.Json.loads_dumps`). A program that then looks keys up does not notice: a lookup
in the sorted document finds the sorted value (`DgxSpark.Json.find?_sortKeys`), sorting
twice is sorting once (`DgxSpark.Json.sortKeys_sortKeys`), and the canonical text of a
selection of keys is the same before and after
(`DgxSpark.Json.canonical_selectKeys_sortKeys`).
-/

namespace DgxSpark

namespace Json

/-! ### Sorting, member by member -/

theorem sortMembers_eq_map (kvs : List (String × Json)) :
    sortMembers kvs = kvs.map fun p => (p.1, p.2.sortKeys) := by
  induction kvs with
  | nil => rfl
  | cons p kvs ih =>
    obtain ⟨k, x⟩ := p
    rw [sortMembers, ih, List.map_cons]

/-- Values can be sorted before or after the members are. -/
theorem sortMembers_insertionSort (kvs : List (String × Json)) :
    sortMembers (kvs.insertionSort keyLe) = (sortMembers kvs).insertionSort keyLe := by
  rw [sortMembers_eq_map, sortMembers_eq_map]
  exact List.map_insertionSort keyLe keyLe _ _ fun _ _ _ _ => Iff.rfl

mutual

/-- Sorting twice is sorting once. -/
theorem sortKeys_sortKeys : ∀ j : Json, j.sortKeys.sortKeys = j.sortKeys
  | .arr xs => by rw [sortKeys, sortKeys, sortItems_sortItems xs]
  | .obj kvs => by
    rw [sortKeys, sortKeys, sortMembers_insertionSort, sortMembers_sortMembers kvs,
      (List.pairwise_insertionSort keyLe (sortMembers kvs)).insertionSort_eq]
  | .null => rfl
  | .bool _ => rfl
  | .int _ => rfl
  | .float _ => rfl
  | .str _ => rfl

theorem sortItems_sortItems : ∀ xs : List Json, sortItems (sortItems xs) = sortItems xs
  | [] => rfl
  | x :: xs => by rw [sortItems, sortItems, sortKeys_sortKeys x, sortItems_sortItems xs]

theorem sortMembers_sortMembers :
    ∀ xs : List (String × Json), sortMembers (sortMembers xs) = sortMembers xs
  | [] => rfl
  | (k, x) :: xs => by
    rw [sortMembers, sortMembers, sortKeys_sortKeys x, sortMembers_sortMembers xs]

end

/-- Sorting does not change the canonical text. -/
theorem canonical_sortKeys (j : Json) : canonical j.sortKeys = canonical j := by
  rw [canonical, dumps, sortKeys_sortKeys]
  rfl

/-! ### Lookups -/

/-- Without repeated keys, a lookup finds exactly the members. -/
theorem lookup_eq_some_iff {β : Type} {kvs : List (String × β)} (h : (kvs.map Prod.fst).Nodup)
    (k : String) (v : β) : kvs.lookup k = some v ↔ (k, v) ∈ kvs := by
  induction kvs with
  | nil => simp
  | cons p kvs ih =>
    obtain ⟨l, w⟩ := p
    obtain ⟨hl, hn⟩ := List.nodup_cons.mp h
    by_cases hk : k = l
    · subst hk
      have hnot : (k, v) ∉ kvs := fun hm => hl (List.mem_map.mpr ⟨_, hm, rfl⟩)
      simp [hnot, eq_comm]
    · have hb : (k == l) = false := by simpa using hk
      simp [List.lookup, hb, ih hn, hk]

/-- A lookup does not see the order of members. -/
theorem lookup_perm {β : Type} {kvs kvs' : List (String × β)} (h : (kvs.map Prod.fst).Nodup)
    (hp : kvs.Perm kvs') (k : String) : kvs.lookup k = kvs'.lookup k := by
  have h' : (kvs'.map Prod.fst).Nodup := (hp.map Prod.fst).nodup_iff.mp h
  refine Option.ext fun v => ?_
  rw [lookup_eq_some_iff h, lookup_eq_some_iff h', hp.mem_iff]

theorem lookup_sortMembers (kvs : List (String × Json)) (k : String) :
    (sortMembers kvs).lookup k = (kvs.lookup k).map sortKeys := by
  induction kvs with
  | nil => rfl
  | cons p kvs ih =>
    obtain ⟨l, x⟩ := p
    by_cases hk : (k == l) = true
    · simp [sortMembers, List.lookup, hk]
    · simp only [Bool.not_eq_true] at hk
      simp [sortMembers, List.lookup, hk, ih]

theorem hasKey_iff (j : Json) (key : String) : j.hasKey key = true ↔ key ∈ keys j.members := by
  rw [hasKey, find?, List.lookup_isSome_iff]
  simp [keys]

/-- **A lookup in the sorted document finds the sorted value.** -/
theorem find?_sortKeys {j : Json} (h : WF j) (k : String) :
    j.sortKeys.find? k = (j.find? k).map sortKeys := by
  rcases j with - | - | - | - | - | - | kvs
  case obj =>
    have hn : ((sortMembers kvs).map Prod.fst).Nodup := by
      have := keys_sortMembers kvs
      simp only [keys] at this
      rw [this]
      exact h.1
    change ((sortMembers kvs).insertionSort keyLe).lookup k = _
    rw [← lookup_perm hn (List.perm_insertionSort keyLe _).symm, lookup_sortMembers]
    rfl
  all_goals rfl

theorem get_sortKeys {j : Json} (h : WF j) (k : String) :
    j.sortKeys.get k = (j.get k).sortKeys := by
  rw [get, get, find?_sortKeys h]
  cases j.find? k <;> rfl

@[simp] theorem isMapping_sortKeys (j : Json) : j.sortKeys.isMapping = j.isMapping := by
  cases j <;> rfl

theorem hasKey_sortKeys {j : Json} (h : WF j) (k : String) :
    j.sortKeys.hasKey k = j.hasKey k := by
  rw [hasKey, hasKey, find?_sortKeys h, Option.isSome_map]

/-! ### Assignments -/

/-- A lookup after an assignment. -/
theorem lookup_setKey (key k : String) (v : Json) (kvs : List (String × Json)) :
    (setKey key v kvs).lookup k = if k = key then some v else kvs.lookup k := by
  induction kvs with
  | nil =>
    by_cases hk : k = key
    · simp [setKey, hk]
    · have hb : (k == key) = false := by simpa using hk
      simp [setKey, List.lookup, hb, hk]
  | cons p kvs ih =>
    obtain ⟨l, x⟩ := p
    rw [setKey]
    split_ifs with hl hk hk
    · simp [hk]
    · have hb : (k == key) = false := by simpa using hk
      simp [List.lookup, hb, hl]
    · have hb : (k == l) = false := by simpa [hk] using Ne.symm hl
      rw [List.lookup_cons, hb, ih, if_pos hk]
    · rw [List.lookup_cons, List.lookup_cons, ih, if_neg hk]

/-- Assigning what is there changes nothing. -/
theorem setKey_of_lookup {key : String} {v : Json} {kvs : List (String × Json)}
    (h : kvs.lookup key = some v) : setKey key v kvs = kvs := by
  induction kvs with
  | nil => exact absurd h (by simp)
  | cons p kvs ih =>
    obtain ⟨l, x⟩ := p
    rw [setKey]
    by_cases hl : l = key
    · subst hl
      simp_all
    · have hb : (key == l) = false := by simpa using Ne.symm hl
      rw [List.lookup_cons, hb] at h
      rw [if_neg hl, ih h]

/-- A mapping in which the value under a key went through a function. -/
def update (key : String) (f : Json → Json) : Json → Json
  | .obj kvs => .obj (kvs.map fun p => if p.1 = key then (p.1, f p.2) else p)
  | j => j

theorem update_of_fixed {key : String} {f : Json → Json} (h : ∀ v, f v = v) (j : Json) :
    update key f j = j := by
  cases j <;> simp [update, h]

/-- A lookup after an update. -/
theorem find?_update (key k : String) (f : Json → Json) (j : Json) :
    (update key f j).find? k = if k = key then (j.find? k).map f else j.find? k := by
  cases j with
  | obj kvs =>
    simp only [update, find?, members]
    induction kvs with
    | nil => simp
    | cons p kvs ih =>
      obtain ⟨l, x⟩ := p
      rw [List.map_cons]
      by_cases hkl : k = l
      · subst hkl
        by_cases hk : k = key <;> simp [hk]
      · have hb : (k == l) = false := by simpa using hkl
        by_cases hl : l = key
        · simp only [hl, if_true]
          rw [List.lookup_cons, List.lookup_cons, ← hl, hb]
          exact hl ▸ ih
        · simp only [hl, if_false]
          rw [List.lookup_cons, List.lookup_cons, hb]
          exact ih
  | _ => simp [update, find?, members]

theorem get_update {f : Json → Json} (h : f .null = .null) (key k : String) (j : Json) :
    (update key f j).get k = if k = key then f (j.get k) else j.get k := by
  rw [get, get, find?_update]
  split_ifs
  · cases j.find? k with
    | none => exact h.symm
    | some v => rfl
  · rfl

/-! ### Selections -/

theorem selectKeys_cons (k : String) (ks : List String) (j : Json) :
    selectKeys (k :: ks) j =
      match j.find? k with
      | none => selectKeys ks j
      | some v => (k, v) :: selectKeys ks j := by
  simp only [selectKeys, List.filterMap_cons]
  cases j.find? k <;> rfl

theorem find?_obj_cons (l : String) (v : Json) (kvs : List (String × Json)) (k : String) :
    (obj ((l, v) :: kvs)).find? k = if k = l then some v else (obj kvs).find? k := by
  by_cases h : k = l
  · simp [find?, members, h]
  · have hb : (k == l) = false := by simpa using h
    simp [find?, members, List.lookup, hb, h]

theorem sortMembers_selectKeys_sortKeys {j : Json} (h : WF j) (ks : List String) :
    sortMembers (selectKeys ks j.sortKeys) = sortMembers (selectKeys ks j) := by
  induction ks with
  | nil => rfl
  | cons k ks ih =>
    rw [selectKeys_cons, selectKeys_cons, find?_sortKeys h]
    cases j.find? k with
    | none => exact ih
    | some v =>
      change (k, v.sortKeys.sortKeys) :: sortMembers (selectKeys ks j.sortKeys) = _
      rw [sortKeys_sortKeys, ih]
      rfl

/-- **The canonical text of a selection of keys does not see the order of keys.** -/
theorem canonical_selectKeys_sortKeys {j : Json} (h : WF j) (ks : List String) :
    canonical (.obj (selectKeys ks j.sortKeys)) = canonical (.obj (selectKeys ks j)) := by
  simp only [canonical, dumps, sortKeys, sortMembers_selectKeys_sortKeys h]

/-- A selection has the selected keys and no other. -/
theorem find?_selectKeys (ks : List String) (j : Json) (k : String) :
    (obj (selectKeys ks j)).find? k = if k ∈ ks then j.find? k else none := by
  induction ks with
  | nil => rfl
  | cons l ks ih =>
    rw [selectKeys_cons]
    by_cases hk : k = l
    · subst hk
      cases hv : j.find? k with
      | none => simp [ih, hv]
      | some v => simp [find?_obj_cons]
    · cases j.find? l <;> simp [find?_obj_cons, hk, ih]

theorem keys_selectKeys (ks : List String) (j : Json) :
    keys (selectKeys ks j) = ks.filter fun k => j.hasKey k := by
  induction ks with
  | nil => rfl
  | cons k ks ih =>
    simp only [keys, selectKeys] at ih ⊢
    cases hv : j.find? k <;> simp [hasKey, hv, ih]

/-- A value found in a well-formed document is well formed. -/
theorem wf_of_find? {j v : Json} {k : String} (h : WF j) (hv : j.find? k = some v) : WF v := by
  cases j with
  | obj kvs => exact (wfMembers_iff kvs).mp h.2 _ ((lookup_eq_some_iff h.1 k v).mp hv)
  | null | bool | int | float | str | arr => simp [find?, members] at hv

theorem wf_selectKeys {ks : List String} {j : Json} (h : WF j) (hk : ks.Nodup) :
    WF (obj (selectKeys ks j)) := by
  refine ⟨?_, (wfMembers_iff _).mpr fun p hp => ?_⟩
  · rw [keys_selectKeys]
    exact hk.filter _
  · obtain ⟨k, -, hv⟩ := List.mem_filterMap.mp hp
    obtain ⟨v, hfind, rfl⟩ := Option.map_eq_some_iff.mp hv
    exact wf_of_find? h hfind

/-- Two well-formed documents with one canonical text are equal up to key order. -/
theorem sortKeys_eq_of_canonical_eq {a b : Json} (ha : WF a) (hb : WF b)
    (h : canonical a = canonical b) : a.sortKeys = b.sortKeys := by
  have hla := loads_dumps compact_blank ha
  have hlb := loads_dumps compact_blank hb
  rw [canonical, canonical] at h
  rw [h, hlb] at hla
  exact (Option.some.inj hla).symm

/-! ### Text with a final line break -/

/-- A written document with a line break after it is read back too. -/
theorem loads_dumps_newline {l : Layout} (hl : l.Blank) {j : Json} (hw : WF j) :
    loads (dumps l j ++ "\n") = some j.sortKeys := by
  have hs := wf_sortKeys j hw
  have hlen := need_le_length l j.sortKeys 0 hs
  have hp := parseValue_print hl j.sortKeys 0 ((print l 0 j.sortKeys).length + 2) ['\n'] hs
    (by omega) (stops_cons (c := '\n') (by decide) [])
  have hchars : (dumps l j ++ "\n").toList = print l 0 j.sortKeys ++ ['\n'] := by
    simp [dumps]
  simp only [loads, Text.chars_eq, hchars, List.length_append, List.length_singleton, hp]
  rfl

end Json

end DgxSpark
