import DgxSpark.Lib.JsonOrder
import DgxSpark.Model.Verify

/-!
# The roles of the locked files

A lock names six files by what they are for, and the shards of the weights. `validate_lock` is to
see to it that the files of the lock are these, each in its role
(`DgxSpark.Verify.ModelLock.RolesMatch`).

It compares the roles of the files with a mapping from the named paths to their roles, and builds
that mapping entry by entry. A path that is named twice has one entry, that of the role which
comes last, and a file for the other role is missed by nobody. It is missed in the number of the
files: the roles match if and only if there are six more files than shards
(`DgxSpark.Verify.roles_match_iff`).
-/

namespace DgxSpark

namespace Verify

variable {rt : Runtime}

/-! ### A mapping that is built entry by entry -/

/-- With different keys the entry that comes last is the only one. -/
theorem lookup_reverse_of_mem {l : List (String × String)} (hnodup : (l.map Prod.fst).Nodup)
    {key value : String} (h : (key, value) ∈ l) : l.reverse.lookup key = some value := by
  induction l with
  | nil => cases h
  | cons p l ih =>
    obtain ⟨hp, hnodup⟩ := List.nodup_cons.1 hnodup
    rw [List.reverse_cons, List.lookup_append]
    rcases List.mem_cons.1 h with rfl | hmem
    · have hnone : l.reverse.lookup key = none := by
        rw [List.lookup_eq_none_iff]
        intro q hq
        have hne : key ≠ q.1 := fun heq =>
          hp (List.mem_map.2 ⟨q, List.mem_reverse.1 hq, heq.symm⟩)
        simpa using hne
      rw [hnone]
      simp
    · rw [ih hnodup hmem]
      rfl

/-- What is looked up is an entry. -/
theorem mem_of_lookup_eq_some {l : List (String × String)} {key value : String}
    (h : l.lookup key = some value) : (key, value) ∈ l := by
  obtain ⟨before, behind, rfl, -⟩ := List.lookup_eq_some_iff.1 h
  simp

/-- Two lists of the same members, one of them without repetition: they are of the same length if
and only if the other is without repetition as well. -/
theorem nodup_iff_length {a b : List String} (ha : a.Nodup) (hmem : ∀ x, x ∈ a ↔ x ∈ b) :
    b.Nodup ↔ a.length = b.length := by
  constructor
  · intro hb
    exact ((List.perm_ext_iff_of_nodup ha hb).2 hmem).length_eq
  · intro hlength
    have hsub : a.Subperm b := List.subperm_of_subset ha fun x hx => (hmem x).1 hx
    exact (hsub.perm_of_length_le hlength.ge).nodup_iff.1 ha

/-! ### What the lock is to say -/

/-- The paths that a lock names. -/
def ModelLock.namedPaths (lock : ModelLock rt) : List String :=
  [lock.configPath, lock.licensePath, lock.generationPath, lock.tokenizerPath,
    lock.tokenizerConfigPath, lock.indexPath] ++ lock.shards

theorem ModelLock.map_fst_expectedRoles (lock : ModelLock rt) :
    lock.expectedRoles.map Prod.fst = lock.namedPaths := by
  simp [expectedRoles, namedPaths, Function.comp_def]

/-- **The roles match the metadata**: the named paths are all different, no two files have a path
in common, each named path has one file, which has its role, every file is named, and the totals
are the sums over the files. -/
structure ModelLock.RolesMatch (lock : ModelLock rt) (fileCount selectedSize weightSize : Nat) :
    Prop where
  distinct : lock.namedPaths.Nodup
  paths : (lock.files.map FileEntry.path).Nodup
  role : ∀ p ∈ lock.expectedRoles,
    (lock.files.filter fun file => file.path = p.1).map FileEntry.role = [p.2]
  named : ∀ file ∈ lock.files, (file.path, file.role) ∈ lock.expectedRoles
  fileCount : fileCount = lock.files.length
  selectedSize : selectedSize = totalSize lock.files
  weightSize : weightSize = totalSize (lock.files.filter fun file => file.role = "weight")

/-- What the checks of the inventory say. -/
theorem checkInventory_spec {lock : ModelLock rt} {fileCount selectedSize weightSize : Nat}
    (h : checkInventory lock fileCount selectedSize weightSize = .ok ()) :
    (lock.files.map FileEntry.path).Nodup ∧
      (∀ path, path ∈ lock.files.map FileEntry.path ↔ path ∈ lock.namedPaths) ∧
      fileCount = lock.files.length ∧ selectedSize = totalSize lock.files ∧
      weightSize = totalSize (lock.files.filter fun file => file.role == "weight") ∧
      ∀ file ∈ lock.files, lock.expectedRoles.reverse.lookup file.path = some file.role := by
  obtain ⟨_, hpaths, h⟩ := except_bind_eq_ok.1 h
  obtain ⟨_, hset, h⟩ := except_bind_eq_ok.1 h
  obtain ⟨_, htotals, h⟩ := except_bind_eq_ok.1 h
  obtain ⟨_, hweight, hroles⟩ := except_bind_eq_ok.1 h
  rw [raiseIf_eq_ok] at hpaths hset htotals hweight hroles
  rw [Bool.or_eq_false_iff, bne_eq_false_iff_eq, bne_eq_false_iff_eq] at htotals
  rw [bne_eq_false_iff_eq] at hweight
  refine ⟨by simpa using hpaths, ?_, htotals.1, htotals.2, hweight, fun file hfile => ?_⟩
  · rw [← lock.map_fst_expectedRoles]
    exact sameSet_iff.1 (by simpa using hset)
  · have hrole := List.any_eq_false.1 hroles file hfile
    simpa using hrole

/-- What an accepted lock is made of. -/
theorem validateLock_spec {schema : Option Bytes} {json : Json} {lock : ModelLock rt}
    (h : validateLock rt schema json = .ok lock) :
    ∃ fileCount selectedSize weightSize,
      validateTotals json = .ok (fileCount, selectedSize, weightSize) ∧
      checkInventory lock fileCount selectedSize weightSize = .ok () := by
  obtain ⟨_, -, h⟩ := except_bind_eq_ok.1 h
  obtain ⟨mapping, hmapping, h⟩ := except_bind_eq_ok.1 h
  obtain ⟨_, -, h⟩ := except_bind_eq_ok.1 h
  obtain ⟨_, -, h⟩ := except_bind_eq_ok.1 h
  obtain ⟨⟨repoId, revision, modelType, architecture, configPath⟩, -, h⟩ := except_bind_eq_ok.1 h
  obtain ⟨_, -, h⟩ := except_bind_eq_ok.1 h
  obtain ⟨licensePath, -, h⟩ := except_bind_eq_ok.1 h
  obtain ⟨⟨generationPath, doSample, temperature, topP⟩, -, h⟩ := except_bind_eq_ok.1 h
  obtain ⟨_, -, h⟩ := except_bind_eq_ok.1 h
  obtain ⟨⟨tokenizerPath, tokenizerConfigPath, tokenizerClass⟩, -, h⟩ := except_bind_eq_ok.1 h
  obtain ⟨⟨indexPath, shardCount, shards⟩, -, h⟩ := except_bind_eq_ok.1 h
  obtain ⟨marker, -, h⟩ := except_bind_eq_ok.1 h
  obtain ⟨⟨fileCount, selectedSize, weightSize⟩, htotals, h⟩ := except_bind_eq_ok.1 h
  obtain ⟨files, -, h⟩ := except_bind_eq_ok.1 h
  obtain ⟨_, hinventory, h⟩ := except_bind_eq_ok.1 h
  cases h
  have hsame : mapping = json := by
    obtain ⟨_, -, hmapping⟩ := except_bind_eq_ok.1 hmapping
    exact (Except.ok.inj hmapping).symm
  subst hsame
  exact ⟨fileCount, selectedSize, weightSize, htotals, hinventory⟩

/-- **The roles of an accepted lock match its metadata** if and only if it has six more files
than shards. -/
theorem roles_match_iff {schema : Option Bytes} {json : Json} {lock : ModelLock rt}
    (h : validateLock rt schema json = .ok lock) :
    (∃ fileCount selectedSize weightSize,
      validateTotals json = .ok (fileCount, selectedSize, weightSize) ∧
        lock.RolesMatch fileCount selectedSize weightSize) ↔
      lock.files.length = lock.shards.length + 6 := by
  obtain ⟨fileCount, selectedSize, weightSize, htotals, hinventory⟩ := validateLock_spec h
  obtain ⟨hpaths, hset, hcount, hselected, hweight, hroles⟩ := checkInventory_spec hinventory
  have hlength : lock.namedPaths.length = lock.shards.length + 6 := by
    simp [ModelLock.namedPaths]
  have hdistinct : lock.namedPaths.Nodup ↔ lock.files.length = lock.shards.length + 6 := by
    rw [nodup_iff_length hpaths hset, List.length_map, hlength]
  constructor
  · rintro ⟨_, _, _, -, hmatch⟩
    exact hdistinct.1 hmatch.distinct
  · intro hsix
    have hnamed := hdistinct.2 hsix
    have hkeys : (lock.expectedRoles.map Prod.fst).Nodup := by
      rw [lock.map_fst_expectedRoles]
      exact hnamed
    refine ⟨fileCount, selectedSize, weightSize, htotals, hnamed, hpaths, ?_, ?_, hcount,
      hselected, ?_⟩
    · -- the file of a named path is there, alone, and in its role
      rintro ⟨path, role⟩ hp
      have hmem : path ∈ lock.files.map FileEntry.path := by
        rw [hset, ← lock.map_fst_expectedRoles]
        exact List.mem_map_of_mem hp
      obtain ⟨file, hfile, rfl⟩ := List.mem_map.1 hmem
      have hrole : file.role = role :=
        Option.some.inj ((hroles file hfile).symm.trans (lookup_reverse_of_mem hkeys hp))
      have halone : lock.files.filter (fun f => f.path = file.path) = [file] := by
        obtain ⟨before, behind, hsplit⟩ := List.append_of_mem hfile
        rw [hsplit, List.map_append, List.map_cons] at hpaths
        have hother := (List.nodup_middle.1 hpaths)
        obtain ⟨hnot, -⟩ := List.nodup_cons.1 hother
        rw [← List.map_append] at hnot
        have hne : ∀ f ∈ before ++ behind, ¬f.path = file.path := fun f hf heq =>
          hnot (heq ▸ List.mem_map_of_mem hf)
        rw [hsplit, List.filter_append, List.filter_cons_of_pos (by simp),
          List.filter_eq_nil_iff.2 fun f hf => by
            simpa using hne f (List.mem_append_left _ hf),
          List.filter_eq_nil_iff.2 fun f hf => by
            simpa using hne f (List.mem_append_right _ hf), List.nil_append]
      rw [halone, List.map_cons, List.map_nil, hrole]
    · intro file hfile
      have hlookup := hroles file hfile
      exact List.mem_reverse.1 (mem_of_lookup_eq_some hlookup)
    · rw [hweight]
      congr 1

theorem validateLock_smallLock : (validateLock asciiRuntime none smallLock).toOption.isSome := by
  decide +kernel

theorem roles_match_iff_smallLock :
    (∃ fileCount selectedSize weightSize,
      validateTotals smallLock = .ok (fileCount, selectedSize, weightSize) ∧
        ((validateLock asciiRuntime none smallLock).toOption.get validateLock_smallLock).RolesMatch
          fileCount selectedSize weightSize) ↔
      ((validateLock asciiRuntime none smallLock).toOption.get
        validateLock_smallLock).files.length =
      ((validateLock asciiRuntime none smallLock).toOption.get
        validateLock_smallLock).shards.length + 6 :=
  roles_match_iff (except_eq_ok_get validateLock_smallLock)

/-! ### A path with two roles -/

/-- The small lock, with the licence in the file of the configuration. -/
def sharedPathLock : Json :=
  let files := smallFiles.filter fun file => file.1 != "LICENSE"
  ((smallLock.update "license" fun _ =>
      .obj [("spdx", .str "MIT"), ("file_path", .str "config.json")]).update "totals" fun _ =>
    .obj [
      ("file_count", .int 6),
      ("selected_size_bytes", .int (files.map fun file => (Text.bytes file.2.2.1).length).sum),
      ("weight_size_bytes", .int 7)])
    |>.update "files" fun _ => .arr (files.map fun file =>
      smallEntry (file.1, if file.1 = "config.json" then "license" else file.2.1, file.2.2))

/-- The lock is accepted, and no file has the role of a configuration. -/
theorem shared_path_accepted :
    ∃ lock, validateLock asciiRuntime none sharedPathLock = .ok lock ∧
      lock.configPath = lock.licensePath ∧ ∀ file ∈ lock.files, file.role ≠ "config" := by
  have hcheck : (validateLock asciiRuntime none sharedPathLock).toOption.any (fun lock =>
      lock.configPath = lock.licensePath ∧ ∀ file ∈ lock.files, file.role ≠ "config") = true := by
    decide +kernel
  cases h : validateLock asciiRuntime none sharedPathLock with
  | error _ =>
    rw [h] at hcheck
    cases hcheck
  | ok lock =>
    rw [h] at hcheck
    exact ⟨lock, rfl, of_decide_eq_true hcheck⟩

end Verify

end DgxSpark
