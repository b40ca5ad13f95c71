import DgxSpark.Cache.Sweep
import Mathlib.Data.List.Infix

/-!
# A sweep among other processes

`scan_once` looks at paths, and between any two of its calls other processes may create, rename,
touch, delete and replace what the paths lead to. Here every call finds a world of its own
(`DgxSpark.Cache.Environment`), and the traversal is interleaved with the removals as it is in
the source, where `_iter_files` is a generator.

A directory is judged by its entry, without following links, but listed by its path later, which
follows whatever is there by then; and so does the `unlink` of a file below it.
`DgxSpark.Cache.sweep_confined` is about the runs in which nobody puts a link, or anything else
that is neither a file nor a directory, in a place that the scan has read.
-/

namespace DgxSpark

namespace Cache

/-! ### Worlds -/

/-- What is at a place. -/
inductive EntryKind where
  | file
  | dir
  /-- a symbolic link, to an absolute path -/
  | link (target : Path)
  /-- a socket, a pipe, a device -/
  | special
deriving DecidableEq, Repr

/-- An entry of a directory, with its inode. -/
structure Entry where
  kind : EntryKind
  dev : Nat
  ino : Nat
  mtimeNs : Int
  size : Nat
deriving DecidableEq, Repr

/-- What `lstat` reports of an entry. -/
def Entry.stat (e : Entry) : Stat where
  isReg := e.kind = .file
  dev := e.dev
  ino := e.ino
  mtimeNs := e.mtimeNs
  size := e.size

/-- A file system, by its real places. -/
abbrev World : Type := Path → Option Entry

/-- The real place of a directory, links followed; `fuel` bounds how many names are looked up. -/
def World.realDir (w : World) : Nat → Path → List String → Option Path
  | _, place, [] => some place
  | 0, _, _ :: _ => none
  | fuel + 1, place, name :: rest =>
    match (w (place ++ [name])).map Entry.kind with
    | some .dir => w.realDir fuel (place ++ [name]) rest
    | some (.link target) => w.realDir fuel [] (target ++ rest)
    | _ => none

/-! ### The environment -/

/-- What a directory entry says of itself, without following links. -/
inductive EntryType where
  | dir
  | file
  | other
deriving DecidableEq, Repr

/-- What a scan meets. Every call finds a world of its own, in which its own calls have done
their work and other processes theirs. An open directory may be renamed and changed while it is
read, so that what it lists is a parameter too. -/
structure Environment where
  /-- the real place of the directory of the cache root -/
  parent : Path
  rootName : String
  world : Nat → World
  /-- a call fails for reasons of its own -/
  fails : Nat → Option OsError
  /-- what the directory that a call has opened lists -/
  lists : Nat → List (String × EntryType)
  maxLookups : Nat

namespace Environment

/-- A path, from the directory of the cache root. -/
def full (env : Environment) (path : Path) : Path := env.rootName :: path

/-- What is at the place itself of a path, no link followed. -/
def at? (env : Environment) (i : Nat) (path : Path) : Option Entry :=
  env.world i (env.parent ++ env.full path)

/-- What `lstat` finds at a path: links are followed on the way to it. -/
def lookup (env : Environment) (i : Nat) (path : Path) : Option Entry :=
  ((env.world i).realDir env.maxLookups env.parent (env.full path).dropLast).bind fun place =>
    (env.full path).getLast?.bind fun name => env.world i (place ++ [name])

end Environment

/-! ### The calls -/

/-- What a scan has done. -/
inductive Event where
  /-- an entry was read, as a directory or as a file -/
  | read (i : Nat) (path : Path)
  | stat (i : Nat) (path : Path) (result : Except OsError Stat)
  | unlink (i : Nat) (path : Path) (result : Except OsError Unit)

/-- The number of the next call, and what was done before it. -/
abbrev Progress : Type := Nat × List Event

namespace Environment

variable (env : Environment)

/-- `os.stat(path, follow_symlinks=False)`. -/
def lstat (i : Nat) (path : Path) : Except OsError Stat :=
  match env.fails i with
  | some e => .error e
  | none =>
    match env.lookup i path with
    | none => .error .notFound
    | some e => .ok e.stat

/-- `os.unlink(path)`. -/
def unlink (i : Nat) (path : Path) : Except OsError Unit :=
  match env.fails i with
  | some e => .error e
  | none =>
    match env.lookup i path with
    | none => .error .notFound
    | some e => if e.kind = .dir then .error .other else .ok ()

/-- The calls on files. -/
def os : Os Progress where
  stat path w := (env.lstat w.1 path, (w.1 + 1, w.2 ++ [.stat w.1 path (env.lstat w.1 path)]))
  unlink path w :=
    (env.unlink w.1 path, (w.1 + 1, w.2 ++ [.unlink w.1 path (env.unlink w.1 path)]))

/-- `os.scandir(directory)`, which follows links. -/
def scandir (directory : Path) (w : Progress) :
    Except OsError (List (String × EntryType)) × Progress :=
  let next := (w.1 + 1, w.2)
  match env.fails w.1 with
  | some e => (.error e, next)
  | none =>
    match (env.world w.1).realDir env.maxLookups env.parent (env.full directory) with
    | none => (.error .other, next)
    | some _ => (.ok (env.lists w.1), next)

end Environment

/-! ### The scan -/

/-- An entry was read. -/
def Scan.read (s : Scan Progress) (path : Path) : Scan Progress :=
  { s with world := (s.world.1, s.world.2 ++ [.read s.world.1 path]) }

section Scanning

variable (env : Environment) (limits : Limits) (nowNs : Int)

/-- The entries of a directory, each file with its turn in the loop: the directories that are
left pending, and whether an unsafe entry was found. -/
def readEntries (directory : Path) :
    List (String × EntryType) → Scan Progress → Scan Progress × List Path × Bool
  | [], s => (s, [], false)
  | (name, type) :: entries, s =>
    if skipped directory name then readEntries directory entries s
    else
      let path := directory ++ [name]
      match type with
      | .dir =>
        let (s, pending, raised) := readEntries directory entries (s.read path)
        (s, path :: pending, raised)
      | .file => readEntries directory entries (sweepFile env.os limits nowNs (s.read path) path)
      | .other => (s, [], true)

/-- How a traversal ends. -/
inductive Traversal where
  | done
  | raised
  /-- it is still going on -/
  | running
deriving DecidableEq, Repr

/-- The first loop, up to `fuel` directories. -/
def sweepTree : Nat → List Path → Scan Progress → Scan Progress × Traversal
  | 0, _, s => (s, .running)
  | fuel + 1, pending, s =>
    match pending.getLast? with
    | none => (s, .done)
    | some directory =>
      match env.scandir directory s.world with
      | (.error _, world) => ({ s with world := world }, .raised)
      | (.ok entries, world) =>
        match readEntries env limits nowNs directory entries { s with world := world } with
        | (s, _, true) => (s, .raised)
        | (s, found, false) => sweepTree fuel (pending.dropLast ++ found) s

/-- `scan_once`, up to `fuel` directories. -/
def sweepAmong (fuel : Nat) : Scan Progress :=
  match sweepTree env limits nowNs fuel [[]] (.start (0, [])) with
  | (s, .running) => s
  | (s, ended) =>
    let s := if ended = .raised then { s with errors := s.errors + 1 } else s
    match limits.maxBytes with
    | some maxBytes =>
      if s.bytesUsed > maxBytes then trim env.os limits.trimTarget (byMtime s.retained) s else s
    | none => s

end Scanning

/-! ### What a removal must be -/

/-- **A removal within the root**: of a regular file, reached through directories only, that is
neither the marker nor below the staging directory, and was found as it was judged. -/
structure Confined (env : Environment) (limits : Limits) (nowNs : Int) (s : Scan Progress)
    (i : Nat) (path : Path) : Prop where
  file : ∃ e, env.at? i path = some e ∧ e.kind = .file
  real : ∀ q, q <+: path → q ≠ path → ∃ e, env.at? i q = some e ∧ e.kind = .dir
  spared : path ≠ [markerName] ∧ path.head? ≠ some tempDirName
  unchanged : ∃ earlier later k j current before,
    s.world.2 = earlier ++ .stat k path (.ok current) :: .unlink i path (.ok ()) :: later ∧
      .stat j path (.ok before) ∈ earlier ∧ current.unchanged before = true ∧
      (limits.ttlNs ≤ nowNs - before.mtimeNs ∨ (path, before) ∈ s.retained)

/-- Nobody puts anything but files and directories in the place of the root, or in one that the
scan has read. -/
structure Untampered (env : Environment) (s : Scan Progress) : Prop where
  root : ∀ j < s.world.1, ∀ e, env.at? j [] = some e → e.kind = .file ∨ e.kind = .dir
  read : ∀ i path, .read i path ∈ s.world.2 → ∀ j < s.world.1, i ≤ j → ∀ e,
    env.at? j path = some e → e.kind = .file ∨ e.kind = .dir

/-! ### What was read before a removal -/

/-- A path below the root whose names have all been read, none of them left out. -/
structure Seen (w : Progress) (path : Path) : Prop where
  ne : path ≠ []
  spared : path ≠ [markerName] ∧ path.head? ≠ some tempDirName
  read : ∀ q, q ≠ [] → q <+: path → ∃ k ≤ w.1, .read k q ∈ w.2

/-- What a removal is based on. -/
structure Justified (env : Environment) (limits : Limits) (nowNs : Int) (s : Scan Progress)
    (i : Nat) (path : Path) : Prop where
  ne : path ≠ []
  spared : path ≠ [markerName] ∧ path.head? ≠ some tempDirName
  read : ∀ q, q ≠ [] → q <+: path → ∃ k ≤ i, .read k q ∈ s.world.2
  bound : i < s.world.1
  done : env.unlink i path = .ok ()
  unchanged : ∃ earlier later k j current before,
    s.world.2 = earlier ++ .stat k path (.ok current) :: .unlink i path (.ok ()) :: later ∧
      .stat j path (.ok before) ∈ earlier ∧ current.unchanged before = true ∧
      (limits.ttlNs ≤ nowNs - before.mtimeNs ∨ (path, before) ∈ s.retained)

/-- What the traversal keeps: the files that it retains have been read, and the removals are
justified. -/
structure Kept (env : Environment) (limits : Limits) (nowNs : Int) (s : Scan Progress) :
    Prop where
  retained : ∀ p ∈ s.retained, Seen s.world p.1 ∧ ∃ j, .stat j p.1 (.ok p.2) ∈ s.world.2
  unlinks : ∀ i path, .unlink i path (.ok ()) ∈ s.world.2 → Justified env limits nowNs s i path

section Keeping

variable {env : Environment} {limits : Limits} {nowNs : Int} {s s' : Scan Progress}

theorem Seen.mono {w w' : Progress} {path : Path} (h : Seen w path) (hi : w.1 ≤ w'.1)
    {added : List Event} (hlog : w'.2 = w.2 ++ added) : Seen w' path := by
  refine ⟨h.ne, h.spared, fun q hne hq => ?_⟩
  obtain ⟨k, hk, hmem⟩ := h.read q hne hq
  exact ⟨k, hk.trans hi, hlog ▸ List.mem_append_left _ hmem⟩

theorem Justified.mono {i : Nat} {path : Path} (h : Justified env limits nowNs s i path)
    (hi : s.world.1 ≤ s'.world.1) {added : List Event}
    (hlog : s'.world.2 = s.world.2 ++ added) (hretained : s.retained ⊆ s'.retained) :
    Justified env limits nowNs s' i path := by
  refine ⟨h.ne, h.spared, fun q hne hq => ?_, h.bound.trans_le hi, h.done, ?_⟩
  · obtain ⟨k, hk, hmem⟩ := h.read q hne hq
    exact ⟨k, hk, hlog ▸ List.mem_append_left _ hmem⟩
  · obtain ⟨earlier, later, k, j, current, before, hsplit, hbefore, hsame, hwhy⟩ := h.unchanged
    refine ⟨earlier, later ++ added, k, j, current, before, ?_, hbefore, hsame, ?_⟩
    · rw [hlog, hsplit]
      simp
    · exact hwhy.imp_right fun hmem => hretained hmem

/-- A scan goes on: it keeps what it has, and each removal that is added is justified. -/
theorem Kept.extend (h : Kept env limits nowNs s) (hi : s.world.1 ≤ s'.world.1)
    (added : List Event) (hlog : s'.world.2 = s.world.2 ++ added)
    (hretained : s.retained ⊆ s'.retained)
    (hnew : ∀ p ∈ s'.retained, p ∈ s.retained ∨
      Seen s.world p.1 ∧ ∃ j, .stat j p.1 (.ok p.2) ∈ added)
    (hunlinks : ∀ i path, .unlink i path (.ok ()) ∈ added → Justified env limits nowNs s' i path) :
    Kept env limits nowNs s' := by
  refine ⟨fun p hp => ?_, fun i path hmem => ?_⟩
  · rcases hnew p hp with hold | ⟨hseen, j, hstat⟩
    · obtain ⟨hseen, j, hstat⟩ := h.retained p hold
      exact ⟨hseen.mono hi hlog, j, hlog ▸ List.mem_append_left _ hstat⟩
    · exact ⟨hseen.mono hi hlog, j, hlog ▸ List.mem_append_right _ hstat⟩
  · rw [hlog, List.mem_append] at hmem
    rcases hmem with hmem | hmem
    · exact (h.unlinks i path hmem).mono hi hlog hretained
    · exact hunlinks i path hmem

/-- A successful removal right after a matching `stat`. -/
theorem justified_of_log {path : Path} (hseen : Seen s.world path) (earlier : List Event)
    (k j : Nat) {i : Nat} {current before : Stat} (hki : s.world.1 ≤ i)
    (hlog : s'.world.2 = s.world.2 ++ earlier ++
      [.stat k path (.ok current), .unlink i path (.ok ())])
    (hbound : i < s'.world.1) (hdone : env.unlink i path = .ok ())
    (hbefore : .stat j path (.ok before) ∈ s.world.2 ++ earlier)
    (hsame : current.unchanged before = true)
    (hwhy : limits.ttlNs ≤ nowNs - before.mtimeNs ∨ (path, before) ∈ s'.retained) :
    Justified env limits nowNs s' i path := by
  refine ⟨hseen.ne, hseen.spared, fun q hne hq => ?_, hbound, hdone, ?_⟩
  · obtain ⟨m, hm, hmem⟩ := hseen.read q hne hq
    refine ⟨m, hm.trans hki, ?_⟩
    rw [hlog, List.append_assoc]
    exact List.mem_append_left _ hmem
  · exact ⟨_, [], k, j, current, before, hlog, hbefore, hsame, hwhy⟩

@[simp] theorem failed_world (s : Scan Progress) (e : OsError) :
    (s.failed e).world = s.world := by
  cases e <;> rfl

@[simp] theorem failed_retained (s : Scan Progress) (e : OsError) :
    (s.failed e).retained = s.retained := by
  cases e <;> rfl

@[simp] theorem lost_world (s : Scan Progress) (before : Stat) (e : OsError) :
    (s.lost before e).world = s.world := by
  cases e <;> rfl

@[simp] theorem lost_retained (s : Scan Progress) (before : Stat) (e : OsError) :
    (s.lost before e).retained = s.retained := by
  cases e <;> rfl

/-- Calls that remove nothing. -/
theorem Kept.goesOn (h : Kept env limits nowNs s) (n : Nat) (added : List Event)
    (hworld : s'.world = (s.world.1 + n, s.world.2 ++ added))
    (hretained : s'.retained = s.retained)
    (hnone : ∀ i path, .unlink i path (.ok ()) ∉ added) : Kept env limits nowNs s' := by
  refine h.extend ?_ added ?_ ?_ ?_ fun i path hmem => absurd hmem (hnone i path)
  · rw [hworld]
    exact Nat.le_add_right _ _
  · rw [hworld]
  · rw [hretained]
    exact List.Subset.refl _
  · rw [hretained]
    exact fun p hp => .inl hp

/-- Calls that find a file, which is retained. -/
theorem Kept.keeps (h : Kept env limits nowNs s) (n j : Nat) {path : Path} {st : Stat}
    (added : List Event) (hseen : Seen s.world path)
    (hworld : s'.world = (s.world.1 + n, s.world.2 ++ added))
    (hretained : s'.retained = s.retained ++ [(path, st)])
    (hstat : .stat j path (.ok st) ∈ added)
    (hnone : ∀ i path, .unlink i path (.ok ()) ∉ added) : Kept env limits nowNs s' := by
  refine h.extend ?_ added ?_ ?_ ?_ fun i path hmem => absurd hmem (hnone i path)
  · rw [hworld]
    exact Nat.le_add_right _ _
  · rw [hworld]
  · rw [hretained]
    exact List.subset_append_left _ _
  · rw [hretained]
    intro p hp
    refine (List.mem_append.1 hp).imp_right fun hmem => ?_
    cases List.mem_singleton.1 hmem
    exact ⟨hseen, j, hstat⟩

/-- **A file's turn in the first loop.** -/
theorem Kept.sweepFile (h : Kept env limits nowNs s) {path : Path} (hseen : Seen s.world path) :
    Kept env limits nowNs (sweepFile env.os limits nowNs s path) := by
  rw [Cache.sweepFile]
  simp only [Environment.os]
  cases hbefore : env.lstat s.world.1 path with
  | error e =>
    refine h.goesOn 1 [.stat s.world.1 path (.error e)] ?_ ?_ ?_
    · simp
    · simp
    · simp
  | ok before =>
    dsimp only
    split
    · rename_i hexpired
      cases hcurrent : env.lstat (s.world.1 + 1) path with
      | error e =>
        refine h.goesOn 2 [.stat s.world.1 path (.ok before),
          .stat (s.world.1 + 1) path (.error e)] ?_ ?_ ?_
        · simp
        · simp
        · simp
      | ok current =>
        dsimp only
        split
        · rename_i hsame
          cases hgone : env.unlink (s.world.1 + 1 + 1) path with
          | error e =>
            refine h.goesOn 3 [.stat s.world.1 path (.ok before),
              .stat (s.world.1 + 1) path (.ok current),
              .unlink (s.world.1 + 1 + 1) path (.error e)] ?_ ?_ ?_
            · simp
            · simp
            · simp
          | ok u =>
            cases u
            refine h.extend ?_ [.stat s.world.1 path (.ok before),
              .stat (s.world.1 + 1) path (.ok current),
              .unlink (s.world.1 + 1 + 1) path (.ok ())] ?_ ?_ ?_ ?_
            · dsimp only
              omega
            · simp
            · exact List.Subset.refl _
            · exact fun p hp => .inl hp
            · intro i path' hmem
              have hi : i = s.world.1 + 1 + 1 ∧ path' = path := by simpa using hmem
              obtain ⟨rfl, rfl⟩ := hi
              refine justified_of_log hseen [.stat s.world.1 path' (.ok before)] (s.world.1 + 1)
                s.world.1 (by omega) ?_ ?_ hgone ?_ hsame (.inl hexpired)
              · simp
              · exact Nat.lt_succ_self _
              · simp
        · refine h.keeps 2 (s.world.1 + 1) [.stat s.world.1 path (.ok before),
              .stat (s.world.1 + 1) path (.ok current)] hseen ?_ rfl ?_ ?_
          · simp [Scan.keep]
          · simp
          · simp
    · refine h.keeps 1 (s.world.1) [.stat s.world.1 path (.ok before)] hseen ?_ rfl ?_ ?_
      · simp [Scan.keep]
      · simp
      · simp

/-- **A file's turn in the second loop.** -/
theorem Kept.evictFile (h : Kept env limits nowNs s) {path : Path} {before : Stat}
    (hmem : (path, before) ∈ s.retained) :
    Kept env limits nowNs (evictFile env.os s path before) ∧
      (evictFile env.os s path before).retained = s.retained := by
  obtain ⟨hseen, j, hstat⟩ := h.retained _ hmem
  rw [Cache.evictFile]
  simp only [Environment.os]
  cases hcurrent : env.lstat s.world.1 path with
  | error e =>
    refine ⟨?_, by simp⟩
    refine h.goesOn 1 [.stat s.world.1 path (.error e)] ?_ ?_ ?_
    · simp
    · simp
    · simp
  | ok current =>
    dsimp only
    split
    · rename_i hsame
      cases hgone : env.unlink (s.world.1 + 1) path with
      | error e =>
        refine ⟨?_, by simp⟩
        refine h.goesOn 2 [.stat s.world.1 path (.ok current),
          .unlink (s.world.1 + 1) path (.error e)] ?_ ?_ ?_
        · simp
        · simp
        · simp
      | ok u =>
        cases u
        refine ⟨?_, rfl⟩
        refine h.extend ?_ [.stat s.world.1 path (.ok current),
          .unlink (s.world.1 + 1) path (.ok ())] ?_ ?_ ?_ ?_
        · dsimp only
          omega
        · simp
        · exact List.Subset.refl _
        · exact fun p hp => .inl hp
        · intro i path' hunlink
          have hi : i = s.world.1 + 1 ∧ path' = path := by simpa using hunlink
          obtain ⟨rfl, rfl⟩ := hi
          refine justified_of_log hseen [] s.world.1 j (Nat.le_succ _) ?_ ?_ hgone ?_ hsame
            (.inr hmem)
          · simp
          · exact Nat.lt_succ_self _
          · simpa using hstat
    · refine ⟨?_, rfl⟩
      refine h.goesOn 1 [.stat s.world.1 path (.ok current)] ?_ ?_ ?_
      · simp
      · rfl
      · simp

theorem Kept.trim (h : Kept env limits nowNs s) (target : Nat) {files : List (Path × Stat)}
    (hfiles : files ⊆ s.retained) : Kept env limits nowNs (trim env.os target files s) := by
  induction files generalizing s with
  | nil => exact h
  | cons p files ih =>
    obtain ⟨path, before⟩ := p
    rw [Cache.trim]
    split
    · exact h
    · obtain ⟨hkept, hretained⟩ := h.evictFile (hfiles List.mem_cons_self)
      refine ih hkept fun p hp => ?_
      rw [hretained]
      exact hfiles (List.mem_cons_of_mem _ hp)

/-- The root, or a directory below it that has been read. -/
def SeenDir (w : Progress) (directory : Path) : Prop := directory = [] ∨ Seen w directory

theorem SeenDir.mono {w w' : Progress} {path : Path} (h : SeenDir w path) (hi : w.1 ≤ w'.1)
    {added : List Event} (hlog : w'.2 = w.2 ++ added) : SeenDir w' path :=
  h.imp_right fun h => h.mono hi hlog

/-- An entry of a directory that is not left out has been read. -/
theorem seen_read {directory : Path} {name : String} (h : SeenDir s.world directory)
    (hkept : ¬skipped directory name) : Seen (s.read (directory ++ [name])).world
      (directory ++ [name]) := by
  refine ⟨List.append_ne_nil_of_right_ne_nil _ (List.cons_ne_nil _ _), ?_, fun q hne hq => ?_⟩
  · rcases h with rfl | h
    · have hname := not_or.1 fun hor => hkept ⟨rfl, hor⟩
      refine ⟨fun heq => hname.1 (List.cons.inj heq).1, fun heq => hname.2 ?_⟩
      exact Option.some.inj heq
    · obtain ⟨x, xs, rfl⟩ := List.exists_cons_of_ne_nil h.ne
      refine ⟨fun heq => ?_, h.spared.2⟩
      have hlength := congrArg List.length heq
      simp at hlength
  · rcases List.prefix_concat_iff.1 hq with rfl | hq
    · exact ⟨s.world.1, le_rfl, List.mem_append_right _ List.mem_cons_self⟩
    · rcases h with rfl | h
      · exact absurd (List.prefix_nil.1 hq) hne
      · obtain ⟨k, hk, hmem⟩ := h.read q hne hq
        exact ⟨k, hk, List.mem_append_left _ hmem⟩

theorem Kept.read (h : Kept env limits nowNs s) (path : Path) :
    Kept env limits nowNs (s.read path) := by
  refine h.goesOn 0 [.read s.world.1 path] rfl rfl ?_
  simp

/-- A scan has gone on. -/
def Later (w w' : Progress) : Prop := w.1 ≤ w'.1 ∧ ∃ added, w'.2 = w.2 ++ added

theorem Later.refl (w : Progress) : Later w w := ⟨le_rfl, [], (List.append_nil _).symm⟩

theorem Later.trans {w w' w'' : Progress} (h : Later w w') (h' : Later w' w'') :
    Later w w'' := by
  obtain ⟨hi, added, hlog⟩ := h
  obtain ⟨hi', added', hlog'⟩ := h'
  exact ⟨hi.trans hi', added ++ added', by rw [hlog', hlog, List.append_assoc]⟩

theorem SeenDir.later {w w' : Progress} {path : Path} (h : SeenDir w path) (hw : Later w w') :
    SeenDir w' path := by
  obtain ⟨hi, added, hlog⟩ := hw
  exact h.mono hi hlog

theorem Seen.later {w w' : Progress} {path : Path} (h : Seen w path) (hw : Later w w') :
    Seen w' path := by
  obtain ⟨hi, added, hlog⟩ := hw
  exact h.mono hi hlog

theorem later_stat (env : Environment) (w : Progress) (path : Path) :
    Later w (env.os.stat path w).2 :=
  ⟨Nat.le_succ _, _, rfl⟩

theorem later_unlink (env : Environment) (w : Progress) (path : Path) :
    Later w (env.os.unlink path w).2 :=
  ⟨Nat.le_succ _, _, rfl⟩

theorem later_sweepFile (env : Environment) (limits : Limits) (nowNs : Int)
    {s : Scan Progress} (path : Path) :
    Later s.world (sweepFile env.os limits nowNs s path).world := by
  rw [Cache.sweepFile]
  have hstat := later_stat env s.world path
  rcases hfirst : env.os.stat path s.world with ⟨_ | before, w⟩
  · rw [hfirst] at hstat
    rw [failed_world]
    exact hstat
  · rw [hfirst] at hstat
    dsimp only at hstat ⊢
    split
    · have hagain := hstat.trans (later_stat env w path)
      rcases hsecond : env.os.stat path w with ⟨_ | current, w'⟩
      · rw [hsecond] at hagain
        rw [failed_world]
        exact hagain
      · rw [hsecond] at hagain
        dsimp only at hagain ⊢
        split
        · have hgone := hagain.trans (later_unlink env w' path)
          rcases hthird : env.os.unlink path w' with ⟨_ | _, w''⟩
          · rw [hthird] at hgone
            rw [failed_world]
            exact hgone
          · rw [hthird] at hgone
            exact hgone
        · exact hagain
    · exact hstat

/-- **The entries of a directory.** -/
theorem Kept.readEntries (h : Kept env limits nowNs s) {directory : Path}
    (hdirectory : SeenDir s.world directory) (entries : List (String × EntryType)) :
    Kept env limits nowNs (readEntries env limits nowNs directory entries s).1 ∧
      Later s.world (readEntries env limits nowNs directory entries s).1.world ∧
      ∀ path ∈ (readEntries env limits nowNs directory entries s).2.1,
        Seen (readEntries env limits nowNs directory entries s).1.world path := by
  induction entries generalizing s with
  | nil => exact ⟨h, Later.refl _, nofun⟩
  | cons entry entries ih =>
    obtain ⟨name, type⟩ := entry
    rw [Cache.readEntries]
    split
    · exact ih h hdirectory
    · rename_i hkept
      have hseen := seen_read hdirectory hkept
      have hread : Later s.world (s.read (directory ++ [name])).world := ⟨le_rfl, _, rfl⟩
      cases type with
      | dir =>
        obtain ⟨hkept', hlater, hfound⟩ := ih (h.read (directory ++ [name]))
          (hdirectory.later hread)
        refine ⟨hkept', hread.trans hlater, fun path hpath => ?_⟩
        rcases List.mem_cons.1 hpath with rfl | hpath
        · exact hseen.later hlater
        · exact hfound path hpath
      | file =>
        have hstep := (h.read (directory ++ [name])).sweepFile hseen
        have hlater := hread.trans (later_sweepFile env limits nowNs (directory ++ [name]))
        obtain ⟨hkept', hlater', hfound⟩ := ih hstep (hdirectory.later hlater)
        exact ⟨hkept', hlater.trans hlater', hfound⟩
      | other => exact ⟨h, Later.refl _, nofun⟩

/-- **The first loop.** -/
theorem Kept.sweepTree (fuel : Nat) {pending : List Path} (h : Kept env limits nowNs s)
    (hpending : ∀ directory ∈ pending, SeenDir s.world directory) :
    Kept env limits nowNs (sweepTree env limits nowNs fuel pending s).1 := by
  induction fuel generalizing s pending with
  | zero => exact h
  | succ fuel ih =>
    rw [Cache.sweepTree]
    cases hlast : pending.getLast? with
    | none => exact h
    | some directory =>
      dsimp only
      have hdirectory := hpending directory (List.mem_of_getLast? hlast)
      have hworld : (env.scandir directory s.world).2 = (s.world.1 + 1, s.world.2 ++ []) := by
        rw [Environment.scandir, List.append_nil]
        split
        · rfl
        · split
          · rfl
          · rfl
      have hnext : ∀ w, w = (s.world.1 + 1, s.world.2 ++ []) →
          Kept env limits nowNs { s with world := w } ∧ Later s.world w := by
        rintro w rfl
        exact ⟨h.goesOn 1 [] rfl rfl nofun, Nat.le_succ _, [], rfl⟩
      rcases hscan : env.scandir directory s.world with ⟨result, w⟩
      rw [hscan] at hworld
      obtain ⟨hkept, hlater⟩ := hnext w hworld
      cases result with
      | error e => exact hkept
      | ok entries =>
        dsimp only
        have hentries := hkept.readEntries (hdirectory.later hlater) entries
        rcases hread : Cache.readEntries env limits nowNs directory entries
          { s with world := w } with ⟨s', found, raised⟩
        rw [hread] at hentries
        obtain ⟨hkept', hlater', hfound⟩ := hentries
        cases raised with
        | true => exact hkept'
        | false =>
          refine ih hkept' fun d hd => ?_
          rcases List.mem_append.1 hd with hd | hd
          · exact (hpending d (List.mem_of_mem_dropLast hd)).later (hlater.trans hlater')
          · exact .inr (hfound d hd)

/-- **A scan keeps what it must**, whatever others do. -/
theorem kept_sweepAmong (fuel : Nat) :
    Kept env limits nowNs (sweepAmong env limits nowNs fuel) := by
  have hstart : Kept env limits nowNs (.start (0, [])) := ⟨nofun, nofun⟩
  have hroot : ∀ directory ∈ ([[]] : List Path),
      SeenDir (Scan.start ((0, []) : Progress)).world directory :=
    fun directory hd => .inl (List.mem_singleton.1 hd)
  have htree := hstart.sweepTree fuel hroot
  rw [sweepAmong]
  rcases hended : Cache.sweepTree env limits nowNs fuel [[]] (.start (0, [])) with ⟨s, ended⟩
  rw [hended] at htree
  have hmore : ∀ s' : Scan Progress, s'.world = s.world → s'.retained = s.retained →
      Kept env limits nowNs s' := by
    intro s' hworld hretained
    refine Kept.goesOn htree 0 [] ?_ hretained nofun
    rw [hworld, List.append_nil]
    rfl
  have htrim : ∀ s' : Scan Progress, Kept env limits nowNs s' → Kept env limits nowNs
      (match limits.maxBytes with
        | some maxBytes =>
          if s'.bytesUsed > maxBytes then trim env.os limits.trimTarget (byMtime s'.retained) s'
          else s'
        | none => s') := by
    intro s' hs'
    cases limits.maxBytes with
    | none => exact hs'
    | some maxBytes =>
      dsimp only
      split
      · refine hs'.trim _ fun p hp => ?_
        exact (List.mergeSort_perm s'.retained mtimeLe).mem_iff.1 hp
      · exact hs'
  cases ended with
  | running => exact htree
  | done => exact htrim s htree
  | raised => exact htrim _ (hmore { s with errors := s.errors + 1 } rfl rfl)

end Keeping

/-! ### Where a path leads -/

section Places

variable {env : Environment} {limits : Limits} {nowNs : Int} {s : Scan Progress}

/-- Where no link is on the way, a directory is at the place of its path. -/
theorem realDir_plain {w : World} {fuel : Nat} {place rest found : Path}
    (hplain : ∀ q, q ≠ [] → q <+: rest → ∀ e, w (place ++ q) = some e →
      e.kind = .file ∨ e.kind = .dir)
    (h : w.realDir fuel place rest = some found) : found = place ++ rest ∧
      ∀ q, q ≠ [] → q <+: rest → ∃ e, w (place ++ q) = some e ∧ e.kind = .dir := by
  induction rest generalizing fuel place with
  | nil =>
    refine ⟨?_, fun q hne hq => absurd (List.prefix_nil.1 hq) hne⟩
    cases fuel <;> exact (Option.some.inj h).symm.trans (List.append_nil _).symm
  | cons name rest ih =>
    cases fuel with
    | zero => cases h
    | succ fuel =>
      rw [World.realDir] at h
      cases hentry : w (place ++ [name]) with
      | none =>
        rw [hentry] at h
        cases h
      | some e =>
        rw [hentry, Option.map_some] at h
        have hfirst : [name] <+: name :: rest := ⟨rest, rfl⟩
        rcases hplain [name] (List.cons_ne_nil _ _) hfirst e hentry with hfile | hdir
        · rw [hfile] at h
          cases h
        · rw [hdir] at h
          dsimp only at h
          have hnext : ∀ q, q ≠ [] → q <+: rest → ∀ e, w (place ++ [name] ++ q) = some e →
              e.kind = .file ∨ e.kind = .dir := by
            intro q _ hq e he
            refine hplain (name :: q) (List.cons_ne_nil _ _) (List.cons_prefix_cons.2 ⟨rfl, hq⟩) e ?_
            rwa [List.append_assoc] at he
          obtain ⟨hfound, hdirs⟩ := ih hnext h
          refine ⟨by rw [hfound, List.append_assoc]; rfl, fun q hne hq => ?_⟩
          obtain ⟨x, q', rfl⟩ := List.exists_cons_of_ne_nil hne
          obtain ⟨rfl, hq'⟩ := List.cons_prefix_cons.1 hq
          rcases eq_or_ne q' [] with rfl | hq'ne
          · exact ⟨e, hentry, hdir⟩
          · have hd := hdirs q' hq'ne hq'
            rwa [List.append_assoc] at hd

/-- **A justified removal is confined**, if nobody tampers. -/
theorem Justified.confined {i : Nat} {path : Path} (h : Justified env limits nowNs s i path)
    (huntampered : Untampered env s) : Confined env limits nowNs s i path := by
  have hplain : ∀ q, q <+: path → ∀ e, env.at? i q = some e → e.kind = .file ∨ e.kind = .dir := by
    intro q hq e he
    rcases eq_or_ne q [] with rfl | hne
    · exact huntampered.root i h.bound e he
    · obtain ⟨k, hk, hmem⟩ := h.read q hne hq
      exact huntampered.read k q hmem i h.bound hk e he
  -- the removal has found something that is no directory
  have hdone := h.done
  rw [Environment.unlink] at hdone
  split at hdone
  · cases hdone
  · cases hlookup : env.lookup i path with
    | none =>
      rw [hlookup] at hdone
      cases hdone
    | some e =>
      rw [hlookup] at hdone
      dsimp only at hdone
      split at hdone
      · cases hdone
      · rename_i hnotdir
        obtain ⟨directory, name, rfl⟩ : ∃ directory name, path = directory ++ [name] :=
          ⟨path.dropLast, path.getLast h.ne, (List.dropLast_append_getLast h.ne).symm⟩
        have hfull : env.full (directory ++ [name]) = env.full directory ++ [name] := rfl
        rw [Environment.lookup, hfull, List.dropLast_concat, List.getLast?_concat] at hlookup
        cases hreal : (env.world i).realDir env.maxLookups env.parent (env.full directory) with
        | none =>
          rw [hreal] at hlookup
          cases hlookup
        | some place =>
          rw [hreal] at hlookup
          have hentry : env.world i (place ++ [name]) = some e := hlookup
          have hway : ∀ q, q ≠ [] → q <+: env.full directory → ∀ e,
              env.world i (env.parent ++ q) = some e → e.kind = .file ∨ e.kind = .dir := by
            intro q hne hq e he
            obtain ⟨x, q', rfl⟩ := List.exists_cons_of_ne_nil hne
            obtain ⟨rfl, hq'⟩ := List.cons_prefix_cons.1 hq
            exact hplain q' (hq'.trans (List.prefix_append _ _)) e he
          obtain ⟨hplace, hdirs⟩ := realDir_plain hway hreal
          have hat : env.at? i (directory ++ [name]) = some e := by
            rw [hplace, List.append_assoc] at hentry
            exact hentry
          refine ⟨⟨e, hat, ?_⟩, fun q hq hne => ?_, h.spared, h.unchanged⟩
          · exact (hplain _ (List.prefix_refl _) e hat).resolve_right hnotdir
          · have hq' := (List.prefix_concat_iff.1 hq).resolve_left hne
            exact hdirs (env.rootName :: q) (List.cons_ne_nil _ _)
              (List.cons_prefix_cons.2 ⟨rfl, hq'⟩)

/-- **A scan removes only files within its root**, each found as it was judged, in every run in
which nobody puts anything but files and directories in the places that it has read. -/
theorem sweep_confined {env : Environment} {limits : Limits} {nowNs : Int} {fuel : Nat}
    (huntampered : Untampered env (sweepAmong env limits nowNs fuel)) (i : Nat) (path : Path)
    (hunlinked : .unlink i path (.ok ()) ∈ (sweepAmong env limits nowNs fuel).world.2) :
    Confined env limits nowNs (sweepAmong env limits nowNs fuel) i path :=
  ((kept_sweepAmong fuel).unlinks i path hunlinked).confined huntampered

end Places

/-! ### A directory that is replaced while it waits -/

/-- An entry that was written long ago. -/
def oldEntry (kind : EntryKind) : Option Entry :=
  some { kind := kind, dev := 1, ino := 1, mtimeNs := 0, size := 5 }

/-- A cache with one file, in a directory. -/
def oneOldFile : World
  | ["cache"] => oldEntry .dir
  | ["cache", "a"] => oldEntry .dir
  | ["cache", "a", "f"] => oldEntry .file
  | _ => none

/-- The directory is now a link to one outside the cache. -/
def linkedAway : World
  | ["cache"] => oldEntry .dir
  | ["cache", "a"] => oldEntry (.link ["out"])
  | ["out"] => oldEntry .dir
  | ["out", "f"] => oldEntry .file
  | _ => none

/-- A scan of the one directory, whose calls after the first find `later`. -/
def scanThen (later : World) : Environment where
  parent := []
  rootName := "cache"
  world i := if i = 0 then oneOldFile else later
  fails _ := none
  lists i := if i = 0 then [("a", .dir)] else [("f", .file)]
  maxLookups := 10

/-- Without a limit on the bytes, any target is below it. -/
theorem trim_le_of_no_limit : ∀ m ∈ (none : Option Nat), 0 ≤ m :=
  fun m _ => Nat.zero_le m

/-- Files live for ten nanoseconds. -/
def shortLived : Limits where
  ttlNs := 10
  maxBytes := none
  trimTarget := 0
  trim_le := trim_le_of_no_limit

/-- **The scan lists the directory by its path**: it follows the link, and removes the file that
it finds there. -/
theorem linkedAway_not_confined :
    .unlink 4 ["a", "f"] (.ok ()) ∈
        (sweepAmong (scanThen linkedAway) shortLived 100 5).world.2 ∧
      ¬Confined (scanThen linkedAway) shortLived 100
        (sweepAmong (scanThen linkedAway) shortLived 100 5) 4 ["a", "f"] := by
  refine ⟨?_, fun h => ?_⟩
  · have hlog : (sweepAmong (scanThen linkedAway) shortLived 100 5).world.2 =
        [.read 1 ["a"], .read 2 ["a", "f"],
          .stat 2 ["a", "f"] (.ok ⟨true, 1, 1, 0, 5⟩), .stat 3 ["a", "f"] (.ok ⟨true, 1, 1, 0, 5⟩),
          .unlink 4 ["a", "f"] (.ok ())] := rfl
    rw [hlog]
    simp
  · -- the removal went through what is a link by now
    obtain ⟨e, he, hdir⟩ := h.real ["a"] ⟨["f"], rfl⟩ (by decide)
    cases he
    cases hdir

theorem oneOldFile_plain (place : Path) (e : Entry) (h : oneOldFile place = some e) :
    e.kind = .file ∨ e.kind = .dir := by
  unfold oneOldFile at h
  split at h
  · cases h
    exact .inr rfl
  · cases h
    exact .inr rfl
  · cases h
    exact .inl rfl
  · cases h

/-- Where the directory stays, the file in it is removed. -/
theorem oneOldFile_confined :
    Confined (scanThen oneOldFile) shortLived 100
      (sweepAmong (scanThen oneOldFile) shortLived 100 5) 4 ["a", "f"] := by
  have hplain : ∀ j path e, (scanThen oneOldFile).at? j path = some e →
      e.kind = .file ∨ e.kind = .dir := by
    intro j path e h
    have hworld : (scanThen oneOldFile).world j = oneOldFile := ite_self _
    rw [Environment.at?, hworld] at h
    exact oneOldFile_plain _ e h
  have hlog : (sweepAmong (scanThen oneOldFile) shortLived 100 5).world.2 =
      [.read 1 ["a"], .read 2 ["a", "f"],
        .stat 2 ["a", "f"] (.ok ⟨true, 1, 1, 0, 5⟩), .stat 3 ["a", "f"] (.ok ⟨true, 1, 1, 0, 5⟩),
        .unlink 4 ["a", "f"] (.ok ())] := rfl
  refine sweep_confined ⟨fun j _ e => hplain j [] e, fun i path _ j _ _ e => hplain j path e⟩
    4 ["a", "f"] ?_
  rw [hlog]
  simp

end Cache

end DgxSpark
