import Mathlib.Data.List.Sort
import Mathlib.Data.List.Perm.Basic
import Mathlib.Algebra.BigOperators.Group.List.Basic
import Mathlib.Tactic

/-!
# Sweeping the second-level cache

`L2Lifecycle.scan_once` of `lmcache_lifecycle.py`: one pass over a cache directory that removes
what has not been touched for too long, and then, if what is left is still too large, removes
the least recently touched files until a low watermark is reached.

The system calls are parameters (`DgxSpark.Cache.Os`): each may fail, and each may find the
world changed since the last one, so every branch of the source is here. The result is about
the quiet case, a tree that nothing else writes to and calls that succeed
(`DgxSpark.Cache.Quiescent`): the files are then split into expired, evicted and retained ones
exactly as the two rules say (`DgxSpark.Cache.sweep_quiescent`), and the counters of the
metrics add up over any number of passes (`DgxSpark.Cache.totals_scans`).

| | |
|---|---|
| the traversal | `DgxSpark.Cache.iterFiles` |
| the first phase, by age | `DgxSpark.Cache.sweepFile` |
| the second phase, by size | `DgxSpark.Cache.trim` |
-/

namespace DgxSpark

namespace Cache

/-! ### Files and system calls -/

/-- A path below the cache root, as its names. -/
abbrev Path : Type := List String

/-- What `stat` reports. -/
structure Stat where
  isReg : Bool
  dev : Nat
  ino : Nat
  mtimeNs : Int
  size : Nat
deriving DecidableEq, Repr

/-- `FileNotFoundError`, and the other `OSError`s. -/
inductive OsError where
  | notFound
  | other
deriving DecidableEq, Repr

/-- The system calls of a scan, over a state of the world. -/
structure Os (σ : Type) where
  stat : Path → σ → Except OsError Stat × σ
  unlink : Path → σ → Except OsError Unit × σ

/-- A directory entry, with what a traversal finds below it. -/
inductive Node where
  | file
  /-- its entries, in the order in which `scandir` gives them -/
  | dir (entries : List (String × Node))
  /-- a directory that cannot be listed -/
  | unreadable
  /-- a link, a socket, a device -/
  | special

/-! ### The traversal -/

/-- `MARKER_NAME`. -/
def markerName : String := ".dgx-spark-lmcache-l2"

/-- `TEMP_DIR_NAME`. -/
def tempDirName : String := ".tmp"

/-- What listing one directory adds: the files it yields, the directories it leaves pending,
and whether it raised. -/
structure Listing where
  files : List Path
  pending : List (Path × Node)
  raised : Bool

/-- The entries of one directory, up to the first that is unsafe. -/
def listEntries (directory : Path) : List (String × Node) → Listing
  | [] => ⟨[], [], false⟩
  | (name, node) :: entries =>
    if directory = [] ∧ (name = markerName ∨ name = tempDirName) then listEntries directory entries
    else
      let rest := listEntries directory entries
      match node with
      | .file => { rest with files := (directory ++ [name]) :: rest.files }
      | .dir below => { rest with pending := (directory ++ [name], .dir below) :: rest.pending }
      | .unreadable => { rest with pending := (directory ++ [name], .unreadable) :: rest.pending }
      | .special => ⟨[], [], true⟩

mutual

/-- The number of nodes of a tree. -/
def Node.count : Node → Nat
  | .dir entries => countEntries entries + 1
  | _ => 1

/-- The number of nodes below a directory. -/
def countEntries : List (String × Node) → Nat
  | [] => 0
  | (_, node) :: entries => node.count + countEntries entries

end

/-- The nodes that are still to be visited. -/
def countPending (pending : List (Path × Node)) : Nat :=
  (pending.map fun p => p.2.count).sum

theorem countPending_append (a b : List (Path × Node)) :
    countPending (a ++ b) = countPending a + countPending b := by
  simp [countPending]

/-- Listing a directory leaves no more pending than there is below it. -/
theorem countPending_listEntries (directory : Path) (entries : List (String × Node)) :
    countPending (listEntries directory entries).pending ≤ countEntries entries := by
  induction entries with
  | nil => simp [listEntries, countPending, countEntries]
  | cons p entries ih =>
    obtain ⟨name, node⟩ := p
    rw [countEntries]
    cases node with
    | file =>
      rw [listEntries]
      split
      · exact le_trans ih (by omega)
      · exact le_trans ih (by omega)
    | special =>
      rw [listEntries]
      split
      · exact le_trans ih (by omega)
      · simp [countPending]
    | unreadable =>
      rw [listEntries]
      split
      · exact le_trans ih (by omega)
      · simp only [countPending, List.map_cons, List.sum_cons] at ih ⊢
        omega
    | dir entries' =>
      rw [listEntries]
      split
      · exact le_trans ih (by omega)
      · simp only [countPending, List.map_cons, List.sum_cons] at ih ⊢
        omega

/-- `_iter_files`: the files in the order in which they are yielded, and whether the
generator raised at the end. The directory that was found last is visited first. -/
def iterFiles (pending : List (Path × Node)) : List Path × Bool :=
  match _h : pending.getLast? with
  | none => ([], false)
  | some (directory, .dir entries) =>
    let listing := listEntries directory entries
    if listing.raised then (listing.files, true)
    else
      let rest := iterFiles (pending.dropLast ++ listing.pending)
      (listing.files ++ rest.1, rest.2)
  | some _ => ([], true)
termination_by countPending pending
decreasing_by
  have hsplit : pending = pending.dropLast ++ [(directory, .dir entries)] :=
    (List.dropLast_append_getLast? _ _h).symm
  have hcount := congrArg countPending hsplit
  rw [countPending_append] at hcount ⊢
  have hle := countPending_listEntries directory entries
  simp only [countPending, List.map_cons, List.map_nil, List.sum_cons, List.sum_nil,
    Node.count] at hcount hle ⊢
  omega

/-! ### One scan -/

/-- What a scan keeps track of. -/
structure Scan (σ : Type) where
  world : σ
  entries : Int
  bytesUsed : Int
  expiredEntries : Nat
  expiredBytes : Nat
  capacityEvictedEntries : Nat
  capacityEvictedBytes : Nat
  errors : Nat
  retained : List (Path × Stat)

/-- `L2Lifecycle`'s limits. The trim target is `int(max_bytes * capacity_trim_ratio)`, where
the ratio is below one. -/
structure Limits where
  ttlNs : Int
  maxBytes : Option Nat
  trimTarget : Nat
  trim_le : ∀ m ∈ maxBytes, trimTarget ≤ m

variable {σ : Type}

/-- The same regular file as before, not written since. -/
def Stat.unchanged (current before : Stat) : Bool :=
  current.isReg && current.dev == before.dev && current.ino == before.ino &&
    current.mtimeNs == before.mtimeNs

/-- A file that stays, for now. -/
def Scan.keep (s : Scan σ) (path : Path) (before : Stat) : Scan σ :=
  { s with
    entries := s.entries + 1
    bytesUsed := s.bytesUsed + before.size
    retained := s.retained ++ [(path, before)] }

/-- A failed call of the first phase: a file that is gone is none of the scan's business. -/
def Scan.failed (s : Scan σ) : OsError → Scan σ
  | .notFound => s
  | .other => { s with errors := s.errors + 1 }

/-- The body of the first loop. -/
def sweepFile (os : Os σ) (limits : Limits) (nowNs : Int) (s : Scan σ) (path : Path) : Scan σ :=
  match os.stat path s.world with
  | (.error e, world) => { s with world := world }.failed e
  | (.ok before, world) =>
    if limits.ttlNs ≤ nowNs - before.mtimeNs then
      match os.stat path world with
      | (.error e, world) => { s with world := world }.failed e
      | (.ok current, world) =>
        if current.unchanged before then
          match os.unlink path world with
          | (.error e, world) => { s with world := world }.failed e
          | (.ok _, world) =>
            { s with
              world := world
              expiredEntries := s.expiredEntries + 1
              expiredBytes := s.expiredBytes + current.size }
        else { s with world := world }.keep path current
    else { s with world := world }.keep path before

/-- A failed call of the second phase: a file that is gone no longer counts. -/
def Scan.lost (s : Scan σ) (before : Stat) : OsError → Scan σ
  | .notFound => { s with entries := s.entries - 1, bytesUsed := s.bytesUsed - before.size }
  | .other => { s with errors := s.errors + 1 }

/-- The body of the second loop. -/
def evictFile (os : Os σ) (s : Scan σ) (path : Path) (before : Stat) : Scan σ :=
  match os.stat path s.world with
  | (.error e, world) => { s with world := world }.lost before e
  | (.ok current, world) =>
    if current.unchanged before then
      match os.unlink path world with
      | (.error e, world) => { s with world := world }.lost before e
      | (.ok _, world) =>
        { s with
          world := world
          entries := s.entries - 1
          bytesUsed := s.bytesUsed - current.size
          capacityEvictedEntries := s.capacityEvictedEntries + 1
          capacityEvictedBytes := s.capacityEvictedBytes + current.size }
    else { s with world := world }

/-- The second loop: it stops when the target is reached. -/
def trim (os : Os σ) (target : Nat) : List (Path × Stat) → Scan σ → Scan σ
  | [], s => s
  | (path, before) :: rest, s =>
    if s.bytesUsed ≤ target then s else trim os target rest (evictFile os s path before)

/-- Order by modification time. -/
def mtimeLe (a b : Path × Stat) : Bool :=
  decide (a.2.mtimeNs ≤ b.2.mtimeNs)

/-- `sorted(retained, key=…)`: a stable sort. -/
def byMtime (files : List (Path × Stat)) : List (Path × Stat) :=
  files.mergeSort mtimeLe

/-- A scan that has seen nothing. -/
def Scan.start (world : σ) : Scan σ :=
  ⟨world, 0, 0, 0, 0, 0, 0, 0, []⟩

/-- `scan_once`, up to the bookkeeping of the totals. -/
def scanOnce (os : Os σ) (limits : Limits) (root : List (String × Node)) (nowNs : Int)
    (world : σ) : Scan σ :=
  let walked := iterFiles [([], .dir root)]
  let swept := walked.1.foldl (sweepFile os limits nowNs) (Scan.start world)
  let swept := if walked.2 then { swept with errors := swept.errors + 1 } else swept
  match limits.maxBytes with
  | some maxBytes =>
    if swept.bytesUsed > maxBytes then trim os limits.trimTarget (byMtime swept.retained) swept
    else swept
  | none => swept

/-! ### The totals -/

/-- The metrics: the state of the last scan, and sums over all scans. -/
structure Totals where
  entries : Int
  bytes : Int
  expiredEntriesTotal : Nat
  expiredBytesTotal : Nat
  capacityEvictedEntriesTotal : Nat
  capacityEvictedBytesTotal : Nat
  scanErrorsTotal : Nat
  healthy : Bool

/-- The metrics before the first scan. -/
def Totals.zero : Totals :=
  ⟨0, 0, 0, 0, 0, 0, 0, false⟩

/-- The update of the metrics at the end of `scan_once`. -/
def Totals.add (t : Totals) (s : Scan σ) : Totals where
  entries := s.entries
  bytes := s.bytesUsed
  expiredEntriesTotal := t.expiredEntriesTotal + s.expiredEntries
  expiredBytesTotal := t.expiredBytesTotal + s.expiredBytes
  capacityEvictedEntriesTotal := t.capacityEvictedEntriesTotal + s.capacityEvictedEntries
  capacityEvictedBytesTotal := t.capacityEvictedBytesTotal + s.capacityEvictedBytes
  scanErrorsTotal := t.scanErrorsTotal + s.errors
  healthy := s.errors == 0

/-! ### What the traversal yields -/

/-- An entry that the traversal leaves out: the marker and the staging directory of the root. -/
def skipped (directory : Path) (name : String) : Prop :=
  directory = [] ∧ (name = markerName ∨ name = tempDirName)

instance (directory : Path) (name : String) : Decidable (skipped directory name) :=
  inferInstanceAs (Decidable (_ ∧ _))

mutual

/-- The files of a node at a path. -/
def filesAt (path : Path) : Node → List Path
  | .file => [path]
  | .dir entries => filesBelow path entries
  | _ => []

/-- **The files of a tree**, what is left out at the root excluded. -/
def filesBelow (directory : Path) : List (String × Node) → List Path
  | [] => []
  | (name, node) :: entries =>
    if skipped directory name then filesBelow directory entries
    else filesAt (directory ++ [name]) node ++ filesBelow directory entries

end

mutual

/-- Nothing but files and directories. -/
def Node.Plain : Node → Prop
  | .file => True
  | .dir entries => PlainEntries entries
  | _ => False

/-- Every entry is plain. -/
def PlainEntries : List (String × Node) → Prop
  | [] => True
  | (_, node) :: entries => node.Plain ∧ PlainEntries entries

end

theorem plainEntries_iff (entries : List (String × Node)) :
    PlainEntries entries ↔ ∀ p ∈ entries, p.2.Plain := by
  induction entries with
  | nil => simp [PlainEntries]
  | cons p entries ih =>
    obtain ⟨name, node⟩ := p
    simp [PlainEntries, ih]

/-- The entries of a directory that are not left out are plain. -/
def PlainBelow (directory : Path) (entries : List (String × Node)) : Prop :=
  ∀ p ∈ entries, ¬skipped directory p.1 → p.2.Plain

/-- A plain directory that is still to be visited. -/
def PlainDir (p : Path × Node) : Prop :=
  ∃ entries, p.2 = .dir entries ∧ PlainBelow p.1 entries

/-- What is still to be found under pending nodes. -/
def filesPending (pending : List (Path × Node)) : List Path :=
  pending.flatMap fun p => filesAt p.1 p.2

/-- Listing a plain directory raises nothing, and splits its files into those that it yields
and those under what it leaves pending. -/
theorem listEntries_plain {directory : Path} {entries : List (String × Node)}
    (h : PlainBelow directory entries) :
    (listEntries directory entries).raised = false ∧
      (∀ p ∈ (listEntries directory entries).pending, PlainDir p) ∧
      ((listEntries directory entries).files ++
        filesPending (listEntries directory entries).pending).Perm
          (filesBelow directory entries) := by
  induction entries with
  | nil => simp [listEntries, filesBelow, filesPending]
  | cons p entries ih =>
    obtain ⟨name, node⟩ := p
    obtain ⟨hraised, hpending, hperm⟩ := ih fun p hp => h p (by simp [hp])
    by_cases hskip : skipped directory name
    · have hlist : listEntries directory ((name, node) :: entries) =
          listEntries directory entries := by
        rw [listEntries]
        exact if_pos hskip
      rw [hlist, filesBelow, if_pos hskip]
      exact ⟨hraised, hpending, hperm⟩
    · have hplain : node.Plain := h (name, node) (by simp) hskip
      rw [filesBelow, if_neg hskip, listEntries]
      rw [if_neg (show ¬(directory = [] ∧ (name = markerName ∨ name = tempDirName)) from hskip)]
      cases node with
      | file =>
        refine ⟨hraised, hpending, ?_⟩
        simpa [filesAt] using hperm
      | dir below =>
        refine ⟨hraised, ?_, ?_⟩
        · rintro q (- | ⟨-, hq⟩)
          · exact ⟨below, rfl, fun q hq _ => (plainEntries_iff below).1 hplain q hq⟩
          · exact hpending q hq
        · have hswap : ((listEntries directory entries).files ++
              filesPending ((directory ++ [name], .dir below) ::
                (listEntries directory entries).pending)).Perm
              (filesAt (directory ++ [name]) (.dir below) ++
                ((listEntries directory entries).files ++
                  filesPending (listEntries directory entries).pending)) := by
            simp only [filesPending, List.flatMap_cons]
            rw [← List.append_assoc, ← List.append_assoc]
            exact List.perm_append_comm.append_right _
          exact hswap.trans (hperm.append_left _)
      | unreadable => exact absurd hplain (by simp [Node.Plain])
      | special => exact absurd hplain (by simp [Node.Plain])

theorem filesPending_append (a b : List (Path × Node)) :
    filesPending (a ++ b) = filesPending a ++ filesPending b :=
  List.flatMap_append

/-- **The traversal yields every file once**, in some order, and does not raise. -/
theorem iterFiles_plain (pending : List (Path × Node)) (h : ∀ p ∈ pending, PlainDir p) :
    (iterFiles pending).2 = false ∧ (iterFiles pending).1.Perm (filesPending pending) := by
  fun_induction iterFiles pending with
  | case1 pending hlast =>
    rw [List.getLast?_eq_none_iff.1 hlast]
    simp [filesPending]
  | case2 pending directory entries hlast listing hraised =>
    obtain ⟨_, heq, hplain⟩ := h _ (List.mem_of_getLast? hlast)
    cases heq
    rw [(listEntries_plain hplain).1] at hraised
    exact absurd hraised Bool.false_ne_true
  | case3 pending directory entries hlast listing hraised rest ih =>
    obtain ⟨_, heq, hplain⟩ := h _ (List.mem_of_getLast? hlast)
    cases heq
    obtain ⟨-, hpending, hperm⟩ := listEntries_plain hplain
    have hrest : ∀ p ∈ pending.dropLast ++ listing.pending, PlainDir p := by
      intro p hp
      rcases List.mem_append.1 hp with hp | hp
      · exact h p (List.dropLast_subset _ hp)
      · exact hpending p hp
    obtain ⟨hok, hfiles⟩ := ih hrest
    refine ⟨hok, ?_⟩
    have hsplit : filesPending pending =
        filesPending pending.dropLast ++ filesBelow directory entries := by
      conv_lhs => rw [← List.dropLast_append_getLast? _ hlast, filesPending_append]
      simp [filesPending, filesAt]
    rw [hsplit]
    calc listing.files ++ rest.1
        |>.Perm (listing.files ++
          (filesPending pending.dropLast ++ filesPending listing.pending)) := by
          rw [← filesPending_append]
          exact hfiles.append_left _
      _ |>.Perm (filesPending pending.dropLast ++
          (listing.files ++ filesPending listing.pending)) := List.perm_append_comm_assoc _ _ _
      _ |>.Perm (filesPending pending.dropLast ++ filesBelow directory entries) :=
          hperm.append_left _
  | case4 pending p hp hlast =>
    obtain ⟨entries, heq, -⟩ := h _ (List.mem_of_getLast? hlast)
    exact absurd (Prod.ext rfl heq : p = (p.1, .dir entries)) (hp _ _)

/-! ### A quiet world -/

/-- **Calls that succeed, on files that nothing else touches**: `files` are the files of a
world. -/
structure Quiescent (os : Os σ) (files : σ → Path → Option Stat) : Prop where
  stat : ∀ path world st, files world path = some st →
    ∃ world', os.stat path world = (.ok st, world') ∧ files world' = files world
  unlink : ∀ path world st, files world path = some st →
    ∃ world', os.unlink path world = (.ok (), world') ∧
      files world' = Function.update (files world) path none

/-- The files that are left when some are removed. -/
def without (files : Path → Option Stat) (removed : List Path) : Path → Option Stat := fun path =>
  if path ∈ removed then none else files path

theorem without_nil (files : Path → Option Stat) : without files [] = files := by
  funext p
  simp [without]

theorem without_update (files : Path → Option Stat) (path : Path) (removed : List Path) :
    without (Function.update files path none) removed = without files (path :: removed) := by
  funext p
  by_cases hp : p = path
  · simp [without, hp]
  · simp [without, hp]

theorem without_append (files : Path → Option Stat) (a b : List Path) :
    without (without files a) b = without files (a ++ b) := by
  funext p
  by_cases ha : p ∈ a
  · simp [without, ha]
  · by_cases hb : p ∈ b
    · simp [without, hb]
    · simp [without, ha, hb]

/-- The bytes that files take. -/
def bytesOf (files : List (Path × Stat)) : Nat :=
  (files.map fun f => f.2.size).sum

@[simp] theorem bytesOf_nil : bytesOf [] = 0 := rfl

@[simp] theorem bytesOf_cons (f : Path × Stat) (files : List (Path × Stat)) :
    bytesOf (f :: files) = f.2.size + bytesOf files := rfl

@[simp] theorem bytesOf_append (a b : List (Path × Stat)) :
    bytesOf (a ++ b) = bytesOf a + bytesOf b := by
  simp [bytesOf]

theorem bytesOf_perm {a b : List (Path × Stat)} (h : a.Perm b) : bytesOf a = bytesOf b :=
  (h.map _).sum_eq

/-- The files are there, are regular, and have the recorded status. -/
def Present (files : Path → Option Stat) (recorded : List (Path × Stat)) : Prop :=
  ∀ f ∈ recorded, files f.1 = some f.2 ∧ f.2.isReg

/-- Removing one file leaves the others. -/
theorem Present.update {files : Path → Option Stat} {recorded : List (Path × Stat)}
    (h : Present files recorded) {path : Path} (hpath : path ∉ recorded.map Prod.fst) :
    Present (Function.update files path none) recorded := by
  intro f hf
  have hne : f.1 ≠ path := fun heq => hpath (heq ▸ List.mem_map_of_mem hf)
  rw [Function.update_of_ne hne]
  exact h f hf

theorem Stat.unchanged_self {st : Stat} (h : st.isReg) : st.unchanged st := by
  simp [Stat.unchanged, h]

/-! ### The first phase -/

/-- A file that has not been touched for the whole time to live. -/
def Limits.expired (limits : Limits) (nowNs : Int) (f : Path × Stat) : Bool :=
  decide (limits.ttlNs ≤ nowNs - f.2.mtimeNs)

/-- A scan after its first phase. -/
def Scan.afterSweep (s : Scan σ) (world : σ) (expired live : List (Path × Stat)) : Scan σ :=
  { s with
    world := world
    entries := s.entries + live.length
    bytesUsed := s.bytesUsed + bytesOf live
    expiredEntries := s.expiredEntries + expired.length
    expiredBytes := s.expiredBytes + bytesOf expired
    retained := s.retained ++ live }

/-- One file, in a quiet world: it is removed when it is expired, and kept otherwise. -/
theorem sweepFile_quiescent {os : Os σ} {files : σ → Path → Option Stat}
    (quiet : Quiescent os files) (limits : Limits) (nowNs : Int) (s : Scan σ)
    {f : Path × Stat} (hf : files s.world f.1 = some f.2) (hreg : f.2.isReg) :
    ∃ world, sweepFile os limits nowNs s f.1 =
        s.afterSweep world ([f].filter (limits.expired nowNs))
          ([f].filter fun f => !limits.expired nowNs f) ∧
      files world =
        without (files s.world) (([f].filter (limits.expired nowNs)).map Prod.fst) := by
  obtain ⟨w₁, hstat, hw₁⟩ := quiet.stat _ _ _ hf
  by_cases hold : limits.ttlNs ≤ nowNs - f.2.mtimeNs
  · obtain ⟨w₂, hstat', hw₂⟩ := quiet.stat f.1 w₁ f.2 (by rw [hw₁, hf])
    obtain ⟨w₃, hunlink, hw₃⟩ := quiet.unlink f.1 w₂ f.2 (by rw [hw₂, hw₁, hf])
    refine ⟨w₃, ?_, ?_⟩
    · simp [sweepFile, hstat, hstat', hunlink, hold, Stat.unchanged_self hreg, Limits.expired,
        Scan.afterSweep]
    · rw [hw₃, hw₂, hw₁]
      simp only [Limits.expired, hold, decide_true, List.filter_cons_of_pos, List.filter_nil,
        List.map_cons, List.map_nil]
      rw [← without_update, without_nil]
  · refine ⟨w₁, ?_, ?_⟩
    · simp [sweepFile, hstat, hold, Limits.expired, Scan.afterSweep, Scan.keep]
    · rw [hw₁]
      simp [Limits.expired, hold, without_nil]

theorem Scan.afterSweep_afterSweep (s : Scan σ) (w₁ w₂ : σ) (e₁ l₁ e₂ l₂ : List (Path × Stat)) :
    (s.afterSweep w₁ e₁ l₁).afterSweep w₂ e₂ l₂ = s.afterSweep w₂ (e₁ ++ e₂) (l₁ ++ l₂) := by
  simp [Scan.afterSweep, add_assoc]

/-- **The first phase**: exactly the expired files are removed. -/
theorem sweep_quiescent_fold {os : Os σ} {files : σ → Path → Option Stat}
    (quiet : Quiescent os files) (limits : Limits) (nowNs : Int)
    (recorded : List (Path × Stat)) (hnodup : (recorded.map Prod.fst).Nodup) (s : Scan σ)
    (hpresent : Present (files s.world) recorded) :
    ∃ world, (recorded.map Prod.fst).foldl (sweepFile os limits nowNs) s =
        s.afterSweep world (recorded.filter (limits.expired nowNs))
          (recorded.filter fun f => !limits.expired nowNs f) ∧
      files world =
        without (files s.world) ((recorded.filter (limits.expired nowNs)).map Prod.fst) := by
  induction recorded generalizing s with
  | nil => exact ⟨s.world, by simp [Scan.afterSweep], by simp [without_nil]⟩
  | cons f recorded ih =>
    obtain ⟨hf, hreg⟩ := hpresent f (by simp)
    obtain ⟨w₁, hstep, hw₁⟩ := sweepFile_quiescent quiet limits nowNs s hf hreg
    rw [List.map_cons, List.nodup_cons] at hnodup
    have hrest : Present (files w₁) recorded := by
      rw [hw₁]
      intro g hg
      have hne : g.1 ∉ ([f].filter (limits.expired nowNs)).map Prod.fst := by
        intro hmem
        obtain ⟨f', hf', heq⟩ := List.mem_map.1 hmem
        rw [List.mem_singleton.1 (List.mem_of_mem_filter hf')] at heq
        exact hnodup.1 (heq ▸ List.mem_map_of_mem hg)
      rw [without, if_neg hne]
      exact hpresent g (by simp [hg])
    obtain ⟨w₂, hrun, hw₂⟩ := ih hnodup.2 (s.afterSweep w₁ _ _) hrest
    refine ⟨w₂, ?_, ?_⟩
    · rw [List.map_cons, List.foldl_cons, hstep, hrun, Scan.afterSweep_afterSweep,
        ← List.filter_append, ← List.filter_append]
      rfl
    · rw [hw₂]
      change without (files w₁) _ = _
      rw [hw₁, without_append, ← List.map_append, ← List.filter_append]
      rfl

/-! ### The second phase -/

/-- A scan after its second phase. -/
def Scan.afterTrim (s : Scan σ) (world : σ) (evicted : List (Path × Stat)) : Scan σ :=
  { s with
    world := world
    entries := s.entries - evicted.length
    bytesUsed := s.bytesUsed - bytesOf evicted
    capacityEvictedEntries := s.capacityEvictedEntries + evicted.length
    capacityEvictedBytes := s.capacityEvictedBytes + bytesOf evicted }

theorem evictFile_quiescent {os : Os σ} {files : σ → Path → Option Stat}
    (quiet : Quiescent os files) (s : Scan σ) {f : Path × Stat}
    (hf : files s.world f.1 = some f.2) (hreg : f.2.isReg) :
    ∃ world, evictFile os s f.1 f.2 = s.afterTrim world [f] ∧
      files world = Function.update (files s.world) f.1 none := by
  obtain ⟨w₁, hstat, hw₁⟩ := quiet.stat _ _ _ hf
  obtain ⟨w₂, hunlink, hw₂⟩ := quiet.unlink f.1 w₁ f.2 (by rw [hw₁, hf])
  refine ⟨w₂, ?_, by rw [hw₂, hw₁]⟩
  simp [evictFile, hstat, hunlink, Stat.unchanged_self hreg, Scan.afterTrim]

/-- The shortest prefix whose removal brings the total to the target, with what it leaves. -/
structure Trims (target : Nat) (files evicted retained : List (Path × Stat)) : Prop where
  split : files = evicted ++ retained
  enough : bytesOf retained ≤ target
  shortest : ∀ earlier rest, evicted = earlier ++ rest → rest ≠ [] →
    target < bytesOf files - bytesOf earlier

/-- **The second phase**: the loop removes the shortest prefix that brings the total to the
target. -/
theorem trim_quiescent {os : Os σ} {files : σ → Path → Option Stat}
    (quiet : Quiescent os files) (target : Nat) (recorded : List (Path × Stat))
    (hnodup : (recorded.map Prod.fst).Nodup) (s : Scan σ)
    (hpresent : Present (files s.world) recorded) (hbytes : s.bytesUsed = bytesOf recorded) :
    ∃ world evicted retained, Trims target recorded evicted retained ∧
      trim os target recorded s = s.afterTrim world evicted ∧
      files world = without (files s.world) (evicted.map Prod.fst) := by
  induction recorded generalizing s with
  | nil =>
    refine ⟨s.world, [], [], ⟨rfl, by simp, ?_⟩, by simp [trim, Scan.afterTrim],
      by simp [without_nil]⟩
    rintro earlier rest heq hrest
    exact absurd (List.append_eq_nil_iff.1 heq.symm).2 hrest
  | cons f recorded ih =>
    by_cases hdone : s.bytesUsed ≤ target
    · refine ⟨s.world, [], f :: recorded, ⟨rfl, by omega, ?_⟩, ?_, by simp [without_nil]⟩
      · rintro earlier rest heq hrest
        exact absurd (List.append_eq_nil_iff.1 heq.symm).2 hrest
      · simp [trim, hdone, Scan.afterTrim]
    · obtain ⟨hf, hreg⟩ := hpresent f (by simp)
      obtain ⟨w₁, hstep, hw₁⟩ := evictFile_quiescent quiet s hf hreg
      rw [List.map_cons, List.nodup_cons] at hnodup
      have hrest : Present (files w₁) recorded := by
        rw [hw₁]
        exact Present.update (fun g hg => hpresent g (by simp [hg])) hnodup.1
      have hbytes' : (s.afterTrim w₁ [f]).bytesUsed = bytesOf recorded := by
        simp only [Scan.afterTrim, hbytes, bytesOf_cons, bytesOf_nil]
        omega
      obtain ⟨w₂, evicted, retained, htrims, hrun, hw₂⟩ := ih hnodup.2 _ hrest hbytes'
      refine ⟨w₂, f :: evicted, retained, ⟨by rw [htrims.split, List.cons_append],
        htrims.enough, ?_⟩, ?_, ?_⟩
      · -- a shorter prefix is empty, or is the file with a shorter prefix of what follows
        rintro (- | ⟨g, earlier⟩) rest heq hrest
        · simp only [bytesOf_nil]
          omega
        · rw [List.cons_append, List.cons.injEq] at heq
          have := htrims.shortest earlier rest heq.2 hrest
          rw [← heq.1]
          simp only [bytesOf_cons]
          omega
      · rw [trim, if_neg hdone, hstep, hrun]
        simp [Scan.afterTrim]
        omega
      · rw [hw₂]
        change without (files w₁) _ = _
        rw [hw₁, without_update]
        rfl

/-! ### A pass over a quiet tree -/

variable {files : σ → Path → Option Stat}

/-- **A pass over a quiet tree**: the tree that is found below the root, the time of the pass,
and the status that every file of the tree has. -/
structure Pass (files : σ → Path → Option Stat) where
  root : List (String × Node)
  nowNs : Int
  world : σ
  status : Path → Stat
  plain : PlainBelow [] root
  nodup : (filesBelow [] root).Nodup
  present : ∀ path ∈ filesBelow [] root,
    files world path = some (status path) ∧ (status path).isReg

/-- The files, in the order of the traversal. -/
def Pass.scanned (p : Pass files) : List Path :=
  (iterFiles [([], .dir p.root)]).1

/-- The files with their status. -/
def Pass.recorded (p : Pass files) : List (Path × Stat) :=
  p.scanned.map fun path => (path, p.status path)

theorem Pass.iterFiles_eq (p : Pass files) :
    (iterFiles [([], .dir p.root)]).2 = false ∧ p.scanned.Perm (filesBelow [] p.root) := by
  have h := iterFiles_plain [([], .dir p.root)] fun q hq =>
    ⟨p.root, by rw [List.mem_singleton.1 hq], by rw [List.mem_singleton.1 hq]; exact p.plain⟩
  simpa [filesPending, filesAt, Pass.scanned] using h

theorem Pass.map_fst_recorded (p : Pass files) : p.recorded.map Prod.fst = p.scanned := by
  simp [Pass.recorded, Function.comp_def]

theorem Pass.nodup_scanned (p : Pass files) : p.scanned.Nodup :=
  p.iterFiles_eq.2.nodup_iff.2 p.nodup

theorem Pass.present_recorded (p : Pass files) : Present (files p.world) p.recorded := by
  intro f hf
  obtain ⟨path, hpath, rfl⟩ := List.mem_map.1 hf
  exact p.present path (p.iterFiles_eq.2.mem_iff.1 hpath)

/-- Before, in the order of the eviction: touched earlier, or touched at the same time and
found earlier. -/
def Pass.Before (p : Pass files) (a b : Path × Stat) : Prop :=
  a.2.mtimeNs < b.2.mtimeNs ∨
    a.2.mtimeNs = b.2.mtimeNs ∧ p.scanned.idxOf a.1 < p.scanned.idxOf b.1

/-- A split of the files of a tree. -/
structure Split where
  expired : List (Path × Stat)
  evicted : List (Path × Stat)
  retained : List (Path × Stat)

/-- The files that did not expire. -/
def Split.live (split : Split) : List (Path × Stat) :=
  split.evicted ++ split.retained

/-- **How a pass must split the files.** -/
structure Split.Divides (split : Split) (limits : Limits) (p : Pass files) : Prop where
  perm : (split.expired ++ split.live).Perm
    ((filesBelow [] p.root).map fun path => (path, p.status path))
  expired_old : ∀ f ∈ split.expired, limits.ttlNs ≤ p.nowNs - f.2.mtimeNs
  live_young : ∀ f ∈ split.live, p.nowNs - f.2.mtimeNs < limits.ttlNs
  roomy : (∀ m ∈ limits.maxBytes, bytesOf split.live ≤ m) → split.evicted = []
  trims : ∀ m ∈ limits.maxBytes, m < bytesOf split.live →
    split.live.Pairwise p.Before ∧
      Trims limits.trimTarget split.live split.evicted split.retained

/-- **What a pass must report, and leave behind.** -/
structure Split.Accounts (split : Split) (limits : Limits) (p : Pass files) (s : Scan σ) :
    Prop where
  entries : s.entries = split.retained.length
  bytesUsed : s.bytesUsed = bytesOf split.retained
  expiredEntries : s.expiredEntries = split.expired.length
  expiredBytes : s.expiredBytes = bytesOf split.expired
  capacityEvictedEntries : s.capacityEvictedEntries = split.evicted.length
  capacityEvictedBytes : s.capacityEvictedBytes = bytesOf split.evicted
  errors : s.errors = 0
  below : ∀ m ∈ limits.maxBytes, s.bytesUsed ≤ m
  world : files s.world = without (files p.world) ((split.expired ++ split.evicted).map Prod.fst)

theorem mtimeLe_trans (a b c : Path × Stat) (hab : mtimeLe a b) (hbc : mtimeLe b c) :
    mtimeLe a c := by
  simp only [mtimeLe, decide_eq_true_eq] at *
  omega

theorem mtimeLe_total (a b : Path × Stat) : mtimeLe a b || mtimeLe b a := by
  simp only [mtimeLe, Bool.or_eq_true, decide_eq_true_eq]
  omega

/-- Two distinct members stand in one order or the other. -/
theorem pair_sublist_or {α : Type} {l : List α} {a b : α} (ha : a ∈ l) (hb : b ∈ l)
    (hne : a ≠ b) : [a, b].Sublist l ∨ [b, a].Sublist l := by
  induction l with
  | nil => exact absurd ha List.not_mem_nil
  | cons c l ih =>
    rcases List.mem_cons.1 ha with rfl | hal
    · rcases List.mem_cons.1 hb with rfl | hbl
      · exact absurd rfl hne
      · exact .inl ((List.singleton_sublist.2 hbl).cons_cons _)
    · rcases List.mem_cons.1 hb with rfl | hbl
      · exact .inr ((List.singleton_sublist.2 hal).cons_cons _)
      · exact (ih hal hbl).imp (.cons c) (.cons c)

/-- Without repetition, two members stand in one order only. -/
theorem not_pair_sublist {α : Type} {l : List α} (hnodup : l.Nodup) {a b : α}
    (hab : [a, b].Sublist l) : ¬[b, a].Sublist l := by
  induction l with
  | nil => exact absurd hab (by simp)
  | cons c l ih =>
    obtain ⟨hc, hnodup⟩ := List.nodup_cons.1 hnodup
    intro hba
    rw [List.cons_sublist_cons'] at hab hba
    rcases hab with hab | ⟨rfl, hb⟩
    · rcases hba with hba | ⟨rfl, ha⟩
      · exact ih hnodup hab hba
      · exact hc (hab.subset (by simp))
    · rcases hba with hba | ⟨rfl, ha⟩
      · exact hc (hba.subset (by simp))
      · exact hc (List.singleton_sublist.1 ha)

/-- The members of a list without repetition stand in the order of their indices. -/
theorem idxOf_lt_of_pair_sublist {α : Type} [BEq α] [LawfulBEq α] {l : List α}
    (hnodup : l.Nodup) {a b : α} (hab : [a, b].Sublist l) : l.idxOf a < l.idxOf b := by
  induction l with
  | nil => exact absurd hab (by simp)
  | cons c l ih =>
    obtain ⟨hc, hnodup⟩ := List.nodup_cons.1 hnodup
    rw [List.cons_sublist_cons'] at hab
    rcases hab with hab | ⟨rfl, hb⟩
    · have ha : a ≠ c := fun h => hc (h ▸ hab.subset (by simp))
      have hb : b ≠ c := fun h => hc (h ▸ hab.subset (by simp))
      rw [List.idxOf_cons_ne _ ha.symm, List.idxOf_cons_ne _ hb.symm]
      exact Nat.succ_lt_succ (ih hnodup hab)
    · have hb' : b ≠ a := fun h => hc (h ▸ List.singleton_sublist.1 hb)
      rw [List.idxOf_cons_self, List.idxOf_cons_ne _ hb'.symm]
      exact Nat.succ_pos _

/-- **The order of the eviction**: by time, and in the order of the traversal at one time. -/
theorem Pass.pairwise_byMtime (p : Pass files) {live : List (Path × Stat)}
    (hlive : live.Sublist p.recorded) : (byMtime live).Pairwise p.Before := by
  have hpaths : (live.map Prod.fst).Nodup :=
    (p.map_fst_recorded ▸ hlive.map Prod.fst).nodup p.nodup_scanned
  have hnodup : live.Nodup := hpaths.of_map _
  have hsorted : (byMtime live).Nodup := (List.mergeSort_perm live mtimeLe).nodup_iff.2 hnodup
  rw [List.pairwise_iff_forall_sublist]
  intro a b hab
  have hle : mtimeLe a b :=
    (List.pairwise_mergeSort mtimeLe_trans mtimeLe_total live).forall_sublist hab
  have hmem : ∀ x ∈ [a, b], x ∈ live := fun x hx =>
    (List.mem_mergeSort).1 (hab.subset hx)
  have hne : a ≠ b := by
    rintro rfl
    exact absurd (hab.nodup hsorted) (by simp)
  rcases lt_or_eq_of_le (of_decide_eq_true hle) with hlt | heq
  · exact .inl hlt
  · -- at one time, the other order would have been kept by the sort
    refine .inr ⟨heq, ?_⟩
    rcases pair_sublist_or (hmem a (by simp)) (hmem b (by simp)) hne with h | h
    · have hfst : [a.1, b.1].Sublist p.scanned := by
        rw [← p.map_fst_recorded]
        exact (h.trans hlive).map Prod.fst
      exact idxOf_lt_of_pair_sublist p.nodup_scanned hfst
    · have hba : mtimeLe b a := decide_eq_true heq.ge
      exact absurd (List.pair_sublist_mergeSort mtimeLe_trans mtimeLe_total hba h)
        (not_pair_sublist hsorted hab)

/-- The files of a pass that have expired. -/
def Pass.expired (p : Pass files) (limits : Limits) : List (Path × Stat) :=
  p.recorded.filter (limits.expired p.nowNs)

/-- The files of a pass that have not, in the order of the traversal. -/
def Pass.young (p : Pass files) (limits : Limits) : List (Path × Stat) :=
  p.recorded.filter fun f => !limits.expired p.nowNs f

theorem Pass.expired_append_young (p : Pass files) (limits : Limits) :
    (p.expired limits ++ p.young limits).Perm p.recorded :=
  List.filter_append_perm _ _

theorem Pass.old_of_mem_expired {p : Pass files} {limits : Limits} {f : Path × Stat}
    (hf : f ∈ p.expired limits) : limits.ttlNs ≤ p.nowNs - f.2.mtimeNs :=
  of_decide_eq_true (List.mem_filter.1 hf).2

theorem Pass.young_of_mem_young {p : Pass files} {limits : Limits} {f : Path × Stat}
    (hf : f ∈ p.young limits) : p.nowNs - f.2.mtimeNs < limits.ttlNs := by
  have hnot := (List.mem_filter.1 hf).2
  simp only [Limits.expired, Bool.not_eq_true', decide_eq_false_iff_not] at hnot
  omega

/-- What remains of a pass over a quiet tree after its first phase. -/
def Pass.swept (p : Pass files) (limits : Limits) (world : σ) : Scan σ :=
  (Scan.start p.world).afterSweep world (p.expired limits) (p.young limits)

/-- A scan of a quiet tree is a trim of what its first phase leaves. -/
theorem Pass.scanOnce_eq (p : Pass files) {os : Os σ} (quiet : Quiescent os files)
    (limits : Limits) :
    ∃ world, files world = without (files p.world) ((p.expired limits).map Prod.fst) ∧
      scanOnce os limits p.root p.nowNs p.world =
        match limits.maxBytes with
        | some maxBytes =>
          if bytesOf (p.young limits) > maxBytes then
            trim os limits.trimTarget (byMtime (p.young limits)) (p.swept limits world)
          else p.swept limits world
        | none => p.swept limits world := by
  have hnodup : (p.recorded.map Prod.fst).Nodup := by
    rw [p.map_fst_recorded]
    exact p.nodup_scanned
  obtain ⟨world, hswept, hworld⟩ := sweep_quiescent_fold quiet limits p.nowNs p.recorded hnodup
    (Scan.start p.world) p.present_recorded
  refine ⟨world, hworld, ?_⟩
  rw [p.map_fst_recorded, Pass.scanned] at hswept
  simp only [scanOnce, p.iterFiles_eq.1, hswept, Bool.false_eq_true, if_false]
  simp [Scan.afterSweep, Scan.start, Pass.swept, Pass.expired, Pass.young]

/-- **One pass over a quiet tree** splits the files as it must, and reports the split. -/
theorem Pass.splits (p : Pass files) {os : Os σ} (quiet : Quiescent os files)
    (limits : Limits) :
    ∃ split : Split, split.Divides limits p ∧
      split.Accounts limits p (scanOnce os limits p.root p.nowNs p.world) := by
  obtain ⟨w₁, hw₁, hscan⟩ := p.scanOnce_eq quiet limits
  have hparts : (p.expired limits ++ p.young limits).Perm
      ((filesBelow [] p.root).map fun path => (path, p.status path)) :=
    (p.expired_append_young limits).trans (p.iterFiles_eq.2.map _)
  by_cases hroom : ∀ m ∈ limits.maxBytes, bytesOf (p.young limits) ≤ m
  · have hstay : scanOnce os limits p.root p.nowNs p.world = p.swept limits w₁ := by
      rw [hscan]
      cases hmax : limits.maxBytes with
      | none => rfl
      | some m => exact if_neg (Nat.not_lt_of_le (hroom m hmax))
    rw [hstay]
    refine ⟨⟨p.expired limits, [], p.young limits⟩, ⟨hparts, fun _ => Pass.old_of_mem_expired,
      fun _ => Pass.young_of_mem_young, fun _ => rfl, ?_⟩, ?_⟩
    · intro m hm hlt
      exact absurd (hroom m hm) (Nat.not_le_of_lt hlt)
    · constructor <;> simp [Pass.swept, Scan.afterSweep, Scan.start]
      · exact hroom
      · exact hw₁
  · obtain ⟨m, hm, hlt⟩ : ∃ m, limits.maxBytes = some m ∧ m < bytesOf (p.young limits) := by
      simpa using hroom
    have hmoved : (byMtime (p.young limits)).Perm (p.young limits) := List.mergeSort_perm _ _
    have hyoung : (p.young limits).Sublist p.recorded := List.filter_sublist
    have hnodup : ((p.expired limits ++ p.young limits).map Prod.fst).Nodup := by
      rw [((p.expired_append_young limits).map _).nodup_iff, p.map_fst_recorded]
      exact p.nodup_scanned
    rw [List.map_append, List.nodup_append] at hnodup
    have hpresent : Present (files w₁) (byMtime (p.young limits)) := by
      intro f hf
      have hf' := hmoved.mem_iff.1 hf
      rw [hw₁, without, if_neg fun h => hnodup.2.2 _ h _ (List.mem_map_of_mem hf') rfl]
      exact p.present_recorded f (hyoung.subset hf')
    have hbytes : (p.swept limits w₁).bytesUsed = bytesOf (byMtime (p.young limits)) := by
      rw [bytesOf_perm hmoved]
      simp [Pass.swept, Scan.afterSweep, Scan.start]
    obtain ⟨w₂, evicted, retained, htrims, hrun, hw₂⟩ :=
      trim_quiescent quiet limits.trimTarget (byMtime (p.young limits))
        ((hmoved.map _).nodup_iff.2 hnodup.2.1) (p.swept limits w₁) hpresent hbytes
    have hlive : (evicted ++ retained).Perm (p.young limits) := htrims.split ▸ hmoved
    have hsplit : bytesOf (p.young limits) = bytesOf evicted + bytesOf retained := by
      rw [← bytesOf_perm hlive, bytesOf_append]
    have hcount : (p.young limits).length = evicted.length + retained.length := by
      rw [← hlive.length_eq, List.length_append]
    have hdone : scanOnce os limits p.root p.nowNs p.world =
        (p.swept limits w₁).afterTrim w₂ evicted := by
      rw [hscan, hm]
      exact (if_pos hlt).trans hrun
    rw [hdone]
    refine ⟨⟨p.expired limits, evicted, retained⟩, ⟨(hlive.append_left _).trans hparts,
      fun _ => Pass.old_of_mem_expired, fun f hf => Pass.young_of_mem_young (hlive.mem_iff.1 hf),
      ?_, ?_⟩, ?_⟩
    · intro hroomy
      have := hroomy m hm
      rw [Split.live, bytesOf_perm hlive] at this
      omega
    · rintro m' hm' -
      rw [Split.live, ← htrims.split]
      exact ⟨p.pairwise_byMtime hyoung, htrims⟩
    · have hle := limits.trim_le m hm
      have henough := htrims.enough
      constructor <;>
        simp only [Pass.swept, Scan.afterSweep, Scan.start, Scan.afterTrim] <;> try omega
      · intro m' hm'
        obtain rfl : m = m' := Option.some.inj (hm.symm.trans hm')
        omega
      · rw [hw₂]
        change without (files w₁) _ = _
        rw [hw₁, without_append, List.map_append]

/-! ### The totals of many passes -/

/-- **The totals add up**, over any list of scans. -/
theorem totals_scans (scans : List (Scan σ)) (t : Totals) :
    let total := scans.foldl Totals.add t
    total.expiredEntriesTotal = t.expiredEntriesTotal + (scans.map Scan.expiredEntries).sum ∧
      total.expiredBytesTotal = t.expiredBytesTotal + (scans.map Scan.expiredBytes).sum ∧
      total.capacityEvictedEntriesTotal =
        t.capacityEvictedEntriesTotal + (scans.map Scan.capacityEvictedEntries).sum ∧
      total.capacityEvictedBytesTotal =
        t.capacityEvictedBytesTotal + (scans.map Scan.capacityEvictedBytes).sum ∧
      total.scanErrorsTotal = t.scanErrorsTotal + (scans.map Scan.errors).sum := by
  induction scans generalizing t with
  | nil => simp
  | cons s scans ih =>
    obtain ⟨h₁, h₂, h₃, h₄, h₅⟩ := ih (t.add s)
    simp only [List.foldl_cons, List.map_cons, List.sum_cons]
    refine ⟨h₁.trans ?_, h₂.trans ?_, h₃.trans ?_, h₄.trans ?_, h₅.trans ?_⟩
    all_goals exact Nat.add_assoc _ _ _

/-- **The sweep of a quiet tree.** Every pass splits the files into expired, evicted and
retained ones by the two rules and reports the sizes of the three parts, and over any sequence
of passes the counters of the metrics are the sums of what the passes removed. -/
theorem sweep_quiescent {os : Os σ} (quiet : Quiescent os files) (limits : Limits) :
    ∃ split : Pass files → Split,
      (∀ p, (split p).Divides limits p ∧
        (split p).Accounts limits p (scanOnce os limits p.root p.nowNs p.world)) ∧
      ∀ passes : List (Pass files),
        let total := (passes.map fun p => scanOnce os limits p.root p.nowNs p.world).foldl
          Totals.add Totals.zero
        total.expiredEntriesTotal = (passes.map fun p => (split p).expired.length).sum ∧
          total.expiredBytesTotal = (passes.map fun p => bytesOf (split p).expired).sum ∧
          total.capacityEvictedEntriesTotal =
            (passes.map fun p => (split p).evicted.length).sum ∧
          total.capacityEvictedBytesTotal =
            (passes.map fun p => bytesOf (split p).evicted).sum ∧
          total.scanErrorsTotal = 0 := by
  choose split hdivides haccounts using fun p : Pass files => p.splits quiet limits
  refine ⟨split, fun p => ⟨hdivides p, haccounts p⟩, fun passes => ?_⟩
  obtain ⟨h₁, h₂, h₃, h₄, h₅⟩ := totals_scans
    (passes.map fun p => scanOnce os limits p.root p.nowNs p.world) Totals.zero
  simp only [List.map_map, Function.comp_def, (haccounts _).expiredEntries,
    (haccounts _).expiredBytes, (haccounts _).capacityEvictedEntries,
    (haccounts _).capacityEvictedBytes, (haccounts _).errors] at h₁ h₂ h₃ h₄ h₅
  refine ⟨h₁.trans (Nat.zero_add _), h₂.trans (Nat.zero_add _), h₃.trans (Nat.zero_add _),
    h₄.trans (Nat.zero_add _), h₅.trans ?_⟩
  simp [Totals.zero]

/-- The calls on a world that is a table of files. -/
def tableOs : Os (Path → Option Stat) where
  stat path world :=
    match world path with
    | some st => (.ok st, world)
    | none => (.error .notFound, world)
  unlink path world :=
    match world path with
    | some _ => (.ok (), Function.update world path none)
    | none => (.error .notFound, world)

/-- A table of files is quiet. -/
theorem tableOs_quiescent : Quiescent tableOs id where
  stat path world st h := ⟨world, by simp only [tableOs, show world path = some st from h], rfl⟩
  unlink path world st h :=
    ⟨Function.update world path none,
      by simp only [tableOs, show world path = some st from h], rfl⟩

/-- A pass over two cached blocks, one of them in a directory, and the marker. -/
def twoBlocks : Pass (σ := Path → Option Stat) id where
  root := [(markerName, .file), ("a", .file), ("d", .dir [("b", .file)])]
  nowNs := 10
  world := fun path =>
    if path = ["a"] then some ⟨true, 1, 1, 9, 4⟩
    else if path = ["d", "b"] then some ⟨true, 1, 2, 8, 4⟩ else none
  status := fun path => if path = ["a"] then ⟨true, 1, 1, 9, 4⟩ else ⟨true, 1, 2, 8, 4⟩
  plain := by simp [PlainBelow, Node.Plain, PlainEntries]
  nodup := by decide
  present := by decide

theorem sweep_quiescent_twoBlocks :
    ∃ split : Split, split.Divides ⟨5, some 6, 4, by decide⟩ twoBlocks ∧
      split.Accounts ⟨5, some 6, 4, by decide⟩ twoBlocks
        (scanOnce tableOs ⟨5, some 6, 4, by decide⟩ twoBlocks.root twoBlocks.nowNs
          twoBlocks.world) := by
  obtain ⟨split, hsplit, -⟩ := sweep_quiescent tableOs_quiescent ⟨5, some 6, 4, by decide⟩
  exact ⟨split twoBlocks, hsplit twoBlocks⟩

end Cache

end DgxSpark
