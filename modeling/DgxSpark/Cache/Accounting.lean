import DgxSpark.Cache.Sweep
import Mathlib.Algebra.BigOperators.Group.Finset.Basic

/-!
# What a scan accounts for

Whether `scan_once` reports at least what is there, whatever its calls find. A file passes
through two loops, each with an iteration of its own, and what the scan reports of it is what
these iterations add to the counters. So each iteration is recorded here with its calls and its
additions (`DgxSpark.Cache.Turn`), over any system calls at all.

The scan does not always account for what survives: a file that it fails to remove for its age
is left out, and a file that has grown between the loops counts with its old size. The exact
condition is `DgxSpark.Cache.Steady` (`DgxSpark.Cache.neverUnderReports_iff`).
-/

namespace DgxSpark

namespace Cache

/-! ### Recorded calls -/

/-- A system call, with what it gave back. -/
inductive Call where
  | stat (result : Except OsError Stat)
  | unlink (result : Except OsError Unit)

/-- The size that a call observed. -/
def Call.size? : Call → Option Nat
  | .stat (.ok st) => some st.size
  | _ => none

/-- An `OSError` other than `FileNotFoundError`. -/
def Call.failed : Call → Bool
  | .stat (.error .other) => true
  | .unlink (.error .other) => true
  | _ => false

/-- A call that leaves no file: it removed it, or did not find it. -/
def Call.gone : Call → Bool
  | .stat (.error .notFound) => true
  | .unlink (.error .notFound) => true
  | .unlink (.ok _) => true
  | _ => false

/-- A call that removed a file. -/
def Call.removed : Call → Bool
  | .unlink (.ok _) => true
  | _ => false

/-- The size that was observed last. -/
def lastSize (calls : List Call) : Option Nat := (calls.filterMap Call.size?).getLast?

/-- The last call leaves no file. -/
def gone (calls : List Call) : Bool := calls.getLast?.any Call.gone

variable {σ : Type}

/-- The system calls, with a record of them. -/
def Os.logged (os : Os σ) : Os (σ × List Call) where
  stat path w := ((os.stat path w.1).1,
    ((os.stat path w.1).2, w.2 ++ [.stat (os.stat path w.1).1]))
  unlink path w := ((os.unlink path w.1).1,
    ((os.unlink path w.1).2, w.2 ++ [.unlink (os.unlink path w.1).1]))

/-- One iteration of a loop: its file, its calls, and what it adds to the counters. -/
structure Turn where
  path : Path
  calls : List Call
  entries : Int
  bytes : Int

/-- The iteration between two states of a scan. -/
def Turn.between (path : Path) (s s' : Scan (σ × List Call)) : Turn where
  path := path
  calls := s'.world.2.drop s.world.2.length
  entries := s'.entries - s.entries
  bytes := s'.bytesUsed - s.bytesUsed

section Recording

variable (os : Os σ) (limits : Limits) (nowNs : Int)

/-- The iterations of the first loop. -/
def sweepTurns : List Path → Scan (σ × List Call) → List Turn
  | [], _ => []
  | path :: paths, s =>
    let s' := sweepFile os.logged limits nowNs s path
    .between path s s' :: sweepTurns paths s'

/-- The iterations of the second loop. -/
def trimTurns (target : Nat) : List (Path × Stat) → Scan (σ × List Call) → List Turn
  | [], _ => []
  | (path, before) :: rest, s =>
    if s.bytesUsed ≤ target then []
    else
      let s' := evictFile os.logged s path before
      .between path s s' :: trimTurns target rest s'

variable (root : List (String × Node)) (world : σ)

/-- The files that the traversal of a scan yields. -/
def yielded (root : List (String × Node)) : List Path := (iterFiles [([], .dir root)]).1

/-- A scan after its first loop. -/
def sweptScan : Scan (σ × List Call) :=
  let swept := (yielded root).foldl (sweepFile os.logged limits nowNs) (.start (world, []))
  if (iterFiles [([], .dir root)]).2 then { swept with errors := swept.errors + 1 } else swept

/-- The iterations of the first loop of a scan. -/
def sweepOf : List Turn := sweepTurns os limits nowNs (yielded root) (.start (world, []))

/-- The iterations of the second loop of a scan. -/
def trimOf : List Turn :=
  let swept := sweptScan os limits nowNs root world
  match limits.maxBytes with
  | some maxBytes =>
    if swept.bytesUsed > maxBytes then
      trimTurns os limits.trimTarget (byMtime swept.retained) swept
    else []
  | none => []

end Recording

/-- The calls on a file. -/
def callsOn (turns : List Turn) (path : Path) : List Call :=
  (turns.filter (·.path = path)).flatMap Turn.calls

/-- What is reported of a file: how many entries, and how many bytes. -/
def entriesOf (turns : List Turn) (path : Path) : Int :=
  ((turns.filter (·.path = path)).map Turn.entries).sum

/-- The bytes that are reported of a file. -/
def fileBytes (turns : List Turn) (path : Path) : Int :=
  ((turns.filter (·.path = path)).map Turn.bytes).sum

/-- **A scan does not under-report**: each file that is still there counts as one entry of the
size that was observed last, no other file takes away from that, and so there are at most as many
of them as the reported entries, and they occupy at most the reported bytes. -/
structure NeverUnderReports (files : List Path) (turns : List Turn) (alive : Finset Path)
    (entries bytesUsed : Int) : Prop where
  counted : ∀ path ∈ files, path ∈ alive → entriesOf turns path = 1 ∧
    (lastSize (callsOn turns path)).map Int.ofNat = some (fileBytes turns path)
  others : ∀ path ∈ files, path ∉ alive →
    0 ≤ entriesOf turns path ∧ 0 ≤ fileBytes turns path
  enough : ((files.filter (· ∈ alive)).length : Int) ≤ entries
  bounded : ((files.filter (· ∈ alive)).map fun path =>
    (((lastSize (callsOn turns path)).getD 0 : Nat) : Int)).sum ≤ bytesUsed

/-- **When a scan accounts for everything**: no call of the first loop fails on a file that is
still there, but for not finding it; the second loop finds each of these in the size in which
the first loop left it; and what the second loop removes has not grown in between. -/
structure Steady (files : List Path) (sweep trim : List Turn) (alive : Finset Path) : Prop where
  swept : ∀ path ∈ files, path ∈ alive → ∀ c ∈ callsOn sweep path, c.failed = false
  kept : ∀ path ∈ files, path ∈ alive → ∀ c ∈ callsOn trim path, ∀ n, c.size? = some n →
    lastSize (callsOn sweep path) = some n
  evicted : ∀ path ∈ files, (∃ c ∈ callsOn trim path, c.removed = true) →
    ∀ c ∈ callsOn trim path, ∀ n, c.size? = some n →
      ∃ m, lastSize (callsOn sweep path) = some m ∧ n ≤ m

/-! ### The record is one of the scan -/

/-- A scan without the record of its calls. -/
def Scan.forget (s : Scan (σ × List Call)) : Scan σ := { s with world := s.world.1 }

section Turns

variable {os : Os σ} {limits : Limits} {nowNs : Int}

theorem forget_sweepFile (s : Scan (σ × List Call)) (path : Path) :
    (sweepFile os.logged limits nowNs s path).forget =
      sweepFile os limits nowNs s.forget path := by
  rw [sweepFile, sweepFile]
  dsimp only [Os.logged, Scan.forget]
  rcases os.stat path s.world.1 with ⟨before | before, world⟩
  · cases before <;> rfl
  · dsimp only
    split
    · rcases os.stat path world with ⟨current | current, world⟩
      · cases current <;> rfl
      · dsimp only
        split
        · rcases os.unlink path world with ⟨removed | removed, world⟩
          · cases removed <;> rfl
          · rfl
        · rfl
    · rfl

theorem forget_evictFile (s : Scan (σ × List Call)) (path : Path) (before : Stat) :
    (evictFile os.logged s path before).forget = evictFile os s.forget path before := by
  rw [evictFile, evictFile]
  dsimp only [Os.logged, Scan.forget]
  rcases os.stat path s.world.1 with ⟨current | current, world⟩
  · cases current <;> rfl
  · dsimp only
    split
    · rcases os.unlink path world with ⟨removed | removed, world⟩
      · cases removed <;> rfl
      · rfl
    · rfl

theorem forget_sweep (paths : List Path) (s : Scan (σ × List Call)) :
    (paths.foldl (sweepFile os.logged limits nowNs) s).forget =
      paths.foldl (sweepFile os limits nowNs) s.forget := by
  induction paths generalizing s with
  | nil => rfl
  | cons path paths ih => rw [List.foldl_cons, ih, forget_sweepFile, List.foldl_cons]

theorem forget_trim (target : Nat) (files : List (Path × Stat)) (s : Scan (σ × List Call)) :
    (trim os.logged target files s).forget = trim os target files s.forget := by
  induction files generalizing s with
  | nil => rfl
  | cons file files ih =>
    obtain ⟨path, before⟩ := file
    rw [trim, trim]
    by_cases hle : s.bytesUsed ≤ target
    · rw [if_pos hle]
      exact (if_pos hle).symm
    · rw [if_neg hle, ih, forget_evictFile]
      exact (if_neg hle).symm

/-- **Recording changes nothing**: the scan is the one without it. -/
theorem forget_scanOnce (root : List (String × Node)) (world : σ) :
    (scanOnce os.logged limits root nowNs (world, [])).forget =
      scanOnce os limits root nowNs world := by
  have hsweep : ((iterFiles [([], .dir root)]).1.foldl (sweepFile os.logged limits nowNs)
      (.start (world, []))).forget =
        (iterFiles [([], .dir root)]).1.foldl (sweepFile os limits nowNs) (.start world) :=
    forget_sweep _ _
  rw [scanOnce, scanOnce, ← hsweep]
  generalize (iterFiles [([], .dir root)]).1.foldl (sweepFile os.logged limits nowNs)
    (.start (world, [])) = swept
  have hsecond : ∀ (s : Scan (σ × List Call)) (maxBytes : Nat),
      (if s.bytesUsed > maxBytes then
          trim os.logged limits.trimTarget (byMtime s.retained) s else s).forget =
        if s.forget.bytesUsed > maxBytes then
          trim os limits.trimTarget (byMtime s.forget.retained) s.forget else s.forget := by
    intro s maxBytes
    rw [apply_ite Scan.forget, forget_trim]
    rfl
  cases (iterFiles [([], .dir root)]).2 with
  | false =>
    cases limits.maxBytes with
    | none => rfl
    | some maxBytes => exact hsecond swept maxBytes
  | true =>
    cases limits.maxBytes with
    | none => rfl
    | some maxBytes => exact hsecond { swept with errors := swept.errors + 1 } maxBytes

/-! ### What one iteration does -/

/-- An iteration of the first loop that counts its file. -/
structure Turn.Counts (t : Turn) (st : Stat) : Prop where
  entries : t.entries = 1
  bytes : t.bytes = st.size
  size : lastSize t.calls = some st.size
  succeeds : ∀ c ∈ t.calls, c.failed = false
  there : gone t.calls = false

/-- An iteration of the first loop that leaves its file out. -/
structure Turn.Skips (t : Turn) : Prop where
  entries : t.entries = 0
  bytes : t.bytes = 0
  why : gone t.calls = true ∨ ∃ c ∈ t.calls, c.failed = true

/-- An iteration whose last call failed leaves its file out. -/
theorem skips_failed {s : Scan (σ × List Call)} {path : Path} {world : σ}
    (calls : List Call) {log : List Call} {c : Call} {e : OsError}
    (hlog : log = s.world.2 ++ calls ++ [c])
    (hc : c = .stat (.error e) ∨ c = .unlink (.error e)) :
    (Turn.between path s ({ s with world := (world, log) }.failed e)).Skips := by
  have hcalls : log.drop s.world.2.length = calls ++ [c] := by
    rw [hlog, List.append_assoc, List.drop_left]
  have hwhy : gone (calls ++ [c]) = true ∨ ∃ d ∈ calls ++ [c], d.failed = true := by
    rw [gone, List.getLast?_concat]
    cases e with
    | notFound =>
      left
      rcases hc with rfl | rfl <;> rfl
    | other =>
      right
      refine ⟨c, by simp, ?_⟩
      rcases hc with rfl | rfl <;> rfl
  rw [← hcalls] at hwhy
  cases e with
  | notFound => exact ⟨sub_self _, sub_self _, hwhy⟩
  | other => exact ⟨sub_self _, sub_self _, hwhy⟩

/-- An iteration that keeps its file counts it, in the size of its last call. -/
theorem counts_keep {s : Scan (σ × List Call)} {path : Path} {world : σ}
    (calls : List Call) {log : List Call} {st : Stat} (hlog : log = s.world.2 ++ (calls ++ [.stat (.ok st)]))
    (hcalls : ∀ c ∈ calls, c.failed = false) :
    (Turn.between path s ({ s with world := (world, log) }.keep path st)).Counts st := by
  have hdrop : log.drop s.world.2.length = calls ++ [.stat (.ok st)] := by
    rw [hlog, List.drop_left]
  refine ⟨?_, ?_, ?_, ?_, ?_⟩
  · exact add_sub_cancel_left _ _
  · exact add_sub_cancel_left _ _
  · change lastSize (log.drop s.world.2.length) = _
    rw [hdrop, lastSize, List.filterMap_append]
    exact List.getLast?_concat
  · change ∀ c ∈ log.drop s.world.2.length, _
    rw [hdrop]
    intro c hc
    rcases List.mem_append.1 hc with hc | hc
    · exact hcalls c hc
    · rw [List.mem_singleton.1 hc]
      rfl
  · change gone (log.drop s.world.2.length) = _
    rw [hdrop, gone, List.getLast?_concat]
    rfl

variable (os limits nowNs) in
/-- The iteration of the first loop counts its file or leaves it out. -/
theorem sweepFile_turn (s : Scan (σ × List Call)) (path : Path) :
    (∃ st, (sweepFile os.logged limits nowNs s path).retained = s.retained ++ [(path, st)] ∧
        (Turn.between path s (sweepFile os.logged limits nowNs s path)).Counts st) ∨
      ((sweepFile os.logged limits nowNs s path).retained = s.retained ∧
        (Turn.between path s (sweepFile os.logged limits nowNs s path)).Skips) := by
  have hfailed : ∀ (s : Scan (σ × List Call)) e, (s.failed e).retained = s.retained := by
    intro s e
    cases e <;> rfl
  rw [sweepFile]
  dsimp only [Os.logged]
  rcases os.stat path s.world.1 with ⟨before | before, world⟩
  · exact .inr ⟨hfailed _ _, skips_failed [] (by simp) (.inl rfl)⟩
  · dsimp only
    split
    · rcases os.stat path world with ⟨current | current, world⟩
      · exact .inr ⟨hfailed _ _, skips_failed _ rfl (.inl rfl)⟩
      · dsimp only
        split
        · rcases os.unlink path world with ⟨removed | removed, world⟩
          · refine .inr ⟨hfailed _ _, skips_failed (c := .unlink (.error removed))
              [.stat (.ok before), .stat (.ok current)] (by simp) (.inr rfl)⟩
          · refine .inr ⟨rfl, sub_self _, sub_self _, .inl ?_⟩
            simp [Turn.between, gone, Call.gone]
        · refine .inl ⟨current, rfl, counts_keep [.stat (.ok before)] (by simp) ?_⟩
          intro c hc
          rw [List.mem_singleton.1 hc]
          rfl
    · exact .inl ⟨before, rfl, counts_keep [] (by simp) (by simp)⟩

/-- What an iteration of the second loop does to a file that counts in the size of `before`. -/
inductive Turn.Trims (t : Turn) (before : Stat) : Prop
  /-- it stays as it is -/
  | stays (entries : t.entries = 0) (bytes : t.bytes = 0) (there : gone t.calls = false)
      (unremoved : ∀ c ∈ t.calls, c.removed = false)
      (size : ∀ c ∈ t.calls, ∀ n, c.size? = some n → lastSize t.calls = some n)
  /-- it is not there any more -/
  | vanishes (entries : t.entries = -1) (bytes : t.bytes = -before.size)
      (gone : gone t.calls = true) (unremoved : ∀ c ∈ t.calls, c.removed = false)
  /-- it is removed -/
  | evicts (current : Stat) (entries : t.entries = -1) (bytes : t.bytes = -current.size)
      (calls : t.calls = [.stat (.ok current), .unlink (.ok ())])

theorem trims_lost {s : Scan (σ × List Call)} {path : Path} {world : σ} {before : Stat}
    (calls : List Call) {log : List Call} {c : Call} {e : OsError}
    (hlog : log = s.world.2 ++ calls ++ [c])
    (hc : c = .stat (.error e) ∨ c = .unlink (.error e))
    (hcalls : ∀ d ∈ calls, d.removed = false)
    (hsize : ∀ d ∈ calls, ∀ n, d.size? = some n → lastSize calls = some n) :
    (Turn.between path s ({ s with world := (world, log) }.lost before e)).Trims before := by
  have hdrop : log.drop s.world.2.length = calls ++ [c] := by
    rw [hlog, List.append_assoc, List.drop_left]
  have hunremoved : ∀ d ∈ calls ++ [c], d.removed = false := by
    intro d hd
    rcases List.mem_append.1 hd with hd | hd
    · exact hcalls d hd
    · rw [List.mem_singleton.1 hd]
      rcases hc with rfl | rfl <;> rfl
  rw [← hdrop] at hunremoved
  cases e with
  | notFound =>
    refine .vanishes ?_ ?_ ?_ hunremoved
    · change s.entries - 1 - s.entries = -1
      omega
    · change s.bytesUsed - before.size - s.bytesUsed = _
      omega
    · change Cache.gone (log.drop s.world.2.length) = true
      rw [hdrop, Cache.gone, List.getLast?_concat]
      rcases hc with rfl | rfl <;> rfl
  | other =>
    have hnone : c.size? = none := by
      rcases hc with rfl | rfl <;> rfl
    refine .stays (sub_self _) (sub_self _) ?_ hunremoved ?_
    · change Cache.gone (log.drop s.world.2.length) = false
      rw [hdrop, Cache.gone, List.getLast?_concat]
      rcases hc with rfl | rfl <;> rfl
    · change ∀ d ∈ log.drop s.world.2.length, ∀ n, d.size? = some n →
        lastSize (log.drop s.world.2.length) = some n
      rw [hdrop, lastSize, List.filterMap_append, List.filterMap_cons_none hnone,
        List.filterMap_nil, List.append_nil]
      intro d hd n hn
      rcases List.mem_append.1 hd with hd | hd
      · exact hsize d hd n hn
      · rw [List.mem_singleton.1 hd, hnone] at hn
        cases hn

/-- The iteration of the second loop. -/
theorem evictFile_turn (s : Scan (σ × List Call)) (path : Path) (before : Stat) :
    (Turn.between path s (evictFile os.logged s path before)).Trims before := by
  rw [evictFile]
  dsimp only [Os.logged]
  rcases os.stat path s.world.1 with ⟨current | current, world⟩
  · exact trims_lost [] (by simp) (.inl rfl) (by simp) (by simp)
  · dsimp only
    split
    · rcases os.unlink path world with ⟨removed | removed, world⟩
      · refine trims_lost _ rfl (.inr rfl) (fun d hd => ?_) fun d hd n hn => ?_
        · rw [List.mem_singleton.1 hd]
          rfl
        · rw [List.mem_singleton.1 hd] at hn
          exact hn
      · refine .evicts current ?_ ?_ (by simp [Turn.between])
        · change s.entries - 1 - s.entries = -1
          omega
        · change s.bytesUsed - current.size - s.bytesUsed = _
          omega
    · exact .stays (sub_self _) (sub_self _) (by simp [Turn.between, gone, Call.gone])
        (by simp [Turn.between, Call.removed]) (by simp [Turn.between, lastSize])

/-! ### What the loops do -/

/-- The additions of all iterations. -/
def Adds (s s' : Scan (σ × List Call)) (turns : List Turn) : Prop :=
  s'.entries = s.entries + (turns.map Turn.entries).sum ∧
    s'.bytesUsed = s.bytesUsed + (turns.map Turn.bytes).sum

theorem Adds.cons {s s' s'' : Scan (σ × List Call)} {turns : List Turn} {path : Path}
    (h : Adds s' s'' turns) : Adds s s'' (.between path s s' :: turns) := by
  obtain ⟨hentries, hbytes⟩ := h
  constructor
  · rw [hentries, List.map_cons, List.sum_cons]
    change _ = s.entries + (s'.entries - s.entries + _)
    omega
  · rw [hbytes, List.map_cons, List.sum_cons]
    change _ = s.bytesUsed + (s'.bytesUsed - s.bytesUsed + _)
    omega

variable (os limits nowNs) in
theorem sweepTurns_paths (paths : List Path) (s : Scan (σ × List Call)) :
    (sweepTurns os limits nowNs paths s).map Turn.path = paths := by
  induction paths generalizing s with
  | nil => rfl
  | cons path paths ih =>
    rw [sweepTurns, List.map_cons, ih]
    rfl

variable (os limits nowNs) in
/-- **The first loop**: each file is counted and retained, in one size, or left out. -/
theorem sweepTurns_spec (paths : List Path) (hnodup : paths.Nodup)
    (s : Scan (σ × List Call)) :
    ∃ records : List (Path × Stat),
      (paths.foldl (sweepFile os.logged limits nowNs) s).retained = s.retained ++ records ∧
      (records.map Prod.fst).Sublist paths ∧
      Adds s (paths.foldl (sweepFile os.logged limits nowNs) s)
        (sweepTurns os limits nowNs paths s) ∧
      ∀ t ∈ sweepTurns os limits nowNs paths s,
        (∃ st, (t.path, st) ∈ records ∧ t.Counts st) ∨
          (t.path ∉ records.map Prod.fst ∧ t.Skips) := by
  induction paths generalizing s with
  | nil => exact ⟨[], by simp, List.Sublist.refl _, by simp [Adds, sweepTurns], by simp [sweepTurns]⟩
  | cons path paths ih =>
    obtain ⟨hpath, hnodup⟩ := List.nodup_cons.1 hnodup
    obtain ⟨records, hretained, hsub, hadds, hturns⟩ :=
      ih hnodup (sweepFile os.logged limits nowNs s path)
    have hother : ∀ t ∈ sweepTurns os limits nowNs paths
        (sweepFile os.logged limits nowNs s path), t.path ≠ path := by
      intro t ht heq
      have hmem := List.mem_map_of_mem (f := Turn.path) ht
      rw [sweepTurns_paths, heq] at hmem
      exact hpath hmem
    rw [sweepTurns]
    rcases sweepFile_turn os limits nowNs s path with
      ⟨st, hkept, hcounts⟩ | ⟨hkept, hskips⟩
    · refine ⟨(path, st) :: records, ?_, hsub.cons_cons path, hadds.cons, ?_⟩
      · rw [List.foldl_cons, hretained, hkept, List.append_assoc]
        rfl
      · intro t ht
        rcases List.mem_cons.1 ht with rfl | ht
        · exact .inl ⟨st, List.mem_cons_self, hcounts⟩
        · rcases hturns t ht with ⟨st', hmem, hc⟩ | ⟨hnot, hskips⟩
          · exact .inl ⟨st', List.mem_cons_of_mem _ hmem, hc⟩
          · refine .inr ⟨?_, hskips⟩
            rw [List.map_cons, List.mem_cons, not_or]
            exact ⟨hother t ht, hnot⟩
    · refine ⟨records, ?_, hsub.cons path, hadds.cons, ?_⟩
      · rw [List.foldl_cons, hretained, hkept]
      · intro t ht
        rcases List.mem_cons.1 ht with rfl | ht
        · exact .inr ⟨fun hmem => hpath (hsub.subset hmem), hskips⟩
        · exact hturns t ht

variable (os) in
/-- **The second loop**: each of the files that it comes to stays, has vanished, or is
removed. -/
theorem trimTurns_spec (target : Nat) (files : List (Path × Stat)) (s : Scan (σ × List Call)) :
    ((trimTurns os target files s).map Turn.path).Sublist (files.map Prod.fst) ∧
      Adds s (trim os.logged target files s) (trimTurns os target files s) ∧
      ∀ t ∈ trimTurns os target files s, ∃ before, (t.path, before) ∈ files ∧
        t.Trims before := by
  induction files generalizing s with
  | nil => exact ⟨List.Sublist.refl _, by simp [Adds, trimTurns, trim], by simp [trimTurns]⟩
  | cons file files ih =>
    obtain ⟨path, before⟩ := file
    rw [trimTurns, trim]
    split
    · exact ⟨List.nil_sublist _, by simp [Adds], by simp⟩
    · obtain ⟨hsub, hadds, hturns⟩ := ih (evictFile os.logged s path before)
      refine ⟨hsub.cons_cons path, hadds.cons, fun t ht => ?_⟩
      rcases List.mem_cons.1 ht with rfl | ht
      · exact ⟨before, List.mem_cons_self, evictFile_turn s path before⟩
      · obtain ⟨before', hmem, htrims⟩ := hturns t ht
        exact ⟨before', List.mem_cons_of_mem _ hmem, htrims⟩

end Turns

/-! ### One file -/

section File

variable {sweep trim : List Turn} {path : Path} {t t' : Turn}

/-- The iteration of a file, where no two iterations are of one. -/
theorem filter_path (hnodup : (sweep.map Turn.path).Nodup) (ht : t ∈ sweep) :
    sweep.filter (·.path = t.path) = [t] := by
  induction sweep with
  | nil => cases ht
  | cons u sweep ih =>
    obtain ⟨hu, hnodup⟩ := List.nodup_cons.1 hnodup
    rcases List.mem_cons.1 ht with rfl | ht
    · rw [List.filter_cons_of_pos (by simp), List.filter_eq_nil_iff.2]
      intro v hv
      rw [decide_eq_true_eq]
      exact fun heq => hu (heq ▸ List.mem_map_of_mem hv)
    · rw [List.filter_cons_of_neg, ih hnodup ht]
      rw [decide_eq_true_eq]
      exact fun heq => hu (heq ▸ List.mem_map_of_mem ht)

theorem filter_path_nil (hnot : path ∉ sweep.map Turn.path) :
    sweep.filter (·.path = path) = [] := by
  rw [List.filter_eq_nil_iff]
  intro v hv
  rw [decide_eq_true_eq]
  exact fun heq => hnot (heq ▸ List.mem_map_of_mem hv)

/-- What is reported of a file that has not changed hands since the first loop, or that has. -/
structure Fate (sweep trim : List Turn) (path : Path) (alive : Prop) : Prop where
  counted : alive → ((entriesOf (sweep ++ trim) path = 1 ∧
      (lastSize (callsOn (sweep ++ trim) path)).map Int.ofNat =
        some (fileBytes (sweep ++ trim) path)) ↔
    (∀ c ∈ callsOn sweep path, c.failed = false) ∧
      ∀ c ∈ callsOn trim path, ∀ n, c.size? = some n → lastSize (callsOn sweep path) = some n)
  others : ¬alive → ((0 ≤ entriesOf (sweep ++ trim) path ∧
      0 ≤ fileBytes (sweep ++ trim) path) ↔
    ((∃ c ∈ callsOn trim path, c.removed = true) →
      ∀ c ∈ callsOn trim path, ∀ n, c.size? = some n →
        ∃ m, lastSize (callsOn sweep path) = some m ∧ n ≤ m))
  unevicted : alive → ∀ c ∈ callsOn trim path, c.removed = false

variable {alive : Prop}

/-- A file that the first loop leaves out. -/
theorem fate_skips (hsweep : sweep.filter (·.path = path) = [t])
    (htrim : trim.filter (·.path = path) = []) (hskips : t.Skips)
    (halive : alive → gone (callsOn (sweep ++ trim) path) = false) :
    Fate sweep trim path alive := by
  have hall : (sweep ++ trim).filter (·.path = path) = [t] := by
    rw [List.filter_append, hsweep, htrim]
    rfl
  have hcalls : callsOn trim path = [] := by rw [callsOn, htrim]; rfl
  refine ⟨fun h => ?_, fun _ => ?_, fun _ c hc => ?_⟩
  · have hthere := halive h
    rw [callsOn, hall, List.flatMap_singleton] at hthere
    obtain ⟨c, hc, hfailed⟩ := hskips.why.resolve_left (Bool.eq_false_iff.1 hthere)
    constructor
    · rintro ⟨hone, -⟩
      rw [entriesOf, hall, List.map_singleton, List.sum_singleton, hskips.entries] at hone
      cases hone
    · rintro ⟨hswept, -⟩
      have hmem : c ∈ callsOn sweep path := by
        rw [callsOn, hsweep, List.flatMap_singleton]
        exact hc
      rw [hswept c hmem] at hfailed
      cases hfailed
  · rw [entriesOf, fileBytes, hall, List.map_singleton, List.map_singleton, List.sum_singleton,
      List.sum_singleton, hskips.entries, hskips.bytes, hcalls]
    simp
  · rw [hcalls] at hc
    cases hc

theorem lastSize_append (a b : List Call) :
    lastSize (a ++ b) = (lastSize b).or (lastSize a) := by
  rw [lastSize, List.filterMap_append, List.getLast?_append]
  rfl

theorem gone_append {a b : List Call} (h : gone b = true) : gone (a ++ b) = true := by
  rw [gone, List.getLast?_append]
  rw [gone] at h
  cases hb : b.getLast? with
  | none => rw [hb] at h; cases h
  | some c => rw [hb] at h; exact h

/-- What was observed last was observed. -/
theorem exists_of_lastSize {calls : List Call} {n : Nat} (h : lastSize calls = some n) :
    ∃ c ∈ calls, c.size? = some n :=
  List.mem_filterMap.1 (List.mem_of_getLast? h)

/-- A file that counts, and to which the second loop does not come. -/
theorem fate_counts {st : Stat} (hsweep : sweep.filter (·.path = path) = [t])
    (htrim : trim.filter (·.path = path) = []) (hcounts : t.Counts st) :
    Fate sweep trim path alive := by
  have hall : (sweep ++ trim).filter (·.path = path) = [t] := by
    rw [List.filter_append, hsweep, htrim]
    rfl
  have hcalls : callsOn trim path = [] := by rw [callsOn, htrim]; rfl
  have hfirst : callsOn sweep path = t.calls := by rw [callsOn, hsweep, List.flatMap_singleton]
  have hentries : entriesOf (sweep ++ trim) path = 1 := by
    rw [entriesOf, hall, List.map_singleton, List.sum_singleton, hcounts.entries]
  have hbytes : fileBytes (sweep ++ trim) path = st.size := by
    rw [fileBytes, hall, List.map_singleton, List.sum_singleton, hcounts.bytes]
  have hsize : lastSize (callsOn (sweep ++ trim) path) = some st.size := by
    rw [callsOn, hall, List.flatMap_singleton, hcounts.size]
  refine ⟨fun _ => ⟨fun _ => ⟨?_, ?_⟩, fun _ => ⟨hentries, ?_⟩⟩, fun _ => ⟨fun _ => ?_, fun _ => ?_⟩,
    fun _ c hc => ?_⟩
  · rw [hfirst]
    exact hcounts.succeeds
  · rw [hcalls]
    exact nofun
  · rw [hsize, hbytes]
    rfl
  · rw [hcalls]
    rintro ⟨c, hc, -⟩
    cases hc
  · rw [hentries, hbytes]
    omega
  · rw [hcalls] at hc
    cases hc

/-- A file that counts, and to which the second loop comes. -/
theorem fate_trims {st : Stat} (hsweep : sweep.filter (·.path = path) = [t])
    (htrim : trim.filter (·.path = path) = [t']) (hcounts : t.Counts st) (htrims : t'.Trims st)
    (halive : alive → gone (callsOn (sweep ++ trim) path) = false) :
    Fate sweep trim path alive := by
  have hall : (sweep ++ trim).filter (·.path = path) = [t, t'] := by
    rw [List.filter_append, hsweep, htrim]
    rfl
  have hfirst : callsOn sweep path = t.calls := by rw [callsOn, hsweep, List.flatMap_singleton]
  have hsecond : callsOn trim path = t'.calls := by rw [callsOn, htrim, List.flatMap_singleton]
  have hboth : callsOn (sweep ++ trim) path = t.calls ++ t'.calls := by
    rw [callsOn, hall, List.flatMap_cons, List.flatMap_singleton]
  have hentries : entriesOf (sweep ++ trim) path = 1 + t'.entries := by
    rw [entriesOf, hall, List.map_cons, List.map_singleton, List.sum_cons, List.sum_singleton,
      hcounts.entries]
  have hbytes : fileBytes (sweep ++ trim) path = st.size + t'.bytes := by
    rw [fileBytes, hall, List.map_cons, List.map_singleton, List.sum_cons, List.sum_singleton,
      hcounts.bytes]
  -- a file that the second loop does not leave there is not alive
  have hdead : gone t'.calls = true → ¬alive := by
    intro hgone hal
    have hthere := halive hal
    rw [hboth, gone_append hgone] at hthere
    cases hthere
  cases htrims with
  | stays entries bytes there unremoved size =>
    rw [entries, add_zero] at hentries
    rw [bytes, add_zero] at hbytes
    refine ⟨fun _ => ?_, fun _ => ⟨fun _ => ?_, fun _ => ?_⟩, fun _ => hsecond ▸ unremoved⟩
    · rw [hfirst, hsecond, hentries, hbytes, hboth, lastSize_append, hcounts.size]
      constructor
      · rintro ⟨-, hlast⟩
        refine ⟨hcounts.succeeds, fun c hc n hn => ?_⟩
        rw [size c hc n hn] at hlast
        have heq : (n : Int) = st.size := Option.some.inj hlast
        rw [Int.ofNat_inj.1 heq]
      · rintro ⟨-, hkept⟩
        refine ⟨rfl, ?_⟩
        cases hlast : lastSize t'.calls with
        | none => rfl
        | some n =>
          obtain ⟨c, hc, hn⟩ := exists_of_lastSize hlast
          rw [← hkept c hc n hn]
          rfl
    · rintro ⟨c, hc, hremoved⟩
      rw [hsecond] at hc
      rw [unremoved c hc] at hremoved
      cases hremoved
    · rw [hentries, hbytes]
      omega
  | vanishes entries bytes gone unremoved =>
    refine ⟨fun h => absurd h (hdead gone), fun _ => ⟨fun _ => ?_, fun _ => ?_⟩,
      fun h => absurd h (hdead gone)⟩
    · rintro ⟨c, hc, hremoved⟩
      rw [hsecond] at hc
      rw [unremoved c hc] at hremoved
      cases hremoved
    · rw [hentries, hbytes, entries, bytes]
      omega
  | evicts current entries bytes calls =>
    have hgone : gone t'.calls = true := by
      rw [calls]
      rfl
    refine ⟨fun h => absurd h (hdead hgone), fun _ => ?_, fun h => absurd h (hdead hgone)⟩
    rw [hentries, hbytes, entries, bytes, hfirst, hsecond, hcounts.size, calls]
    constructor
    · rintro ⟨-, hle⟩ - c hc n hn
      refine ⟨st.size, rfl, ?_⟩
      rcases List.mem_cons.1 hc with rfl | hc
      · have heq : current.size = n := Option.some.inj hn
        omega
      · rw [List.mem_singleton.1 hc] at hn
        cases hn
    · intro hall
      obtain ⟨m, hm, hle⟩ := hall ⟨.unlink (.ok ()), by simp, rfl⟩ (.stat (.ok current))
        (by simp) current.size rfl
      have heq : st.size = m := Option.some.inj hm
      omega

end File

/-! ### One scan -/

section Scan

variable {os : Os σ} {limits : Limits} {nowNs : Int} {root : List (String × Node)} {world : σ}

variable (os limits nowNs root world) in
theorem sweptScan_eq :
    (sweptScan os limits nowNs root world).retained =
        ((yielded root).foldl (sweepFile os.logged limits nowNs) (.start (world, []))).retained ∧
      (sweptScan os limits nowNs root world).entries =
        ((yielded root).foldl (sweepFile os.logged limits nowNs) (.start (world, []))).entries ∧
      (sweptScan os limits nowNs root world).bytesUsed =
        ((yielded root).foldl (sweepFile os.logged limits nowNs)
          (.start (world, []))).bytesUsed := by
  rw [sweptScan]
  split
  · exact ⟨rfl, rfl, rfl⟩
  · exact ⟨rfl, rfl, rfl⟩

variable (os limits nowNs world) in
/-- The iterations of the second loop are of different files, each retained by the first. -/
theorem trimOf_spec (hnodup : (yielded root).Nodup) :
    ((trimOf os limits nowNs root world).map Turn.path).Nodup ∧
      (∀ t ∈ trimOf os limits nowNs root world, ∃ before,
        (t.path, before) ∈ (sweptScan os limits nowNs root world).retained ∧
          t.Trims before) ∧
      (scanOnce os limits root nowNs world).entries =
        (((sweepOf os limits nowNs root world) ++
          trimOf os limits nowNs root world).map Turn.entries).sum ∧
      (scanOnce os limits root nowNs world).bytesUsed =
        (((sweepOf os limits nowNs root world) ++
          trimOf os limits nowNs root world).map Turn.bytes).sum := by
  obtain ⟨records, hretained, hsub, hadds, -⟩ := sweepTurns_spec os limits nowNs
    (yielded root) hnodup (.start (world, []))
  obtain ⟨hkept, hentries, hbytes⟩ := sweptScan_eq os limits nowNs root world
  have hrecords : (sweptScan os limits nowNs root world).retained = records := by
    rw [hkept, hretained]
    rfl
  have hpaths : ((byMtime (sweptScan os limits nowNs root world).retained).map
      Prod.fst).Nodup := by
    refine (((List.mergeSort_perm _ _).map Prod.fst).nodup_iff).2 ?_
    rw [hrecords]
    exact hsub.nodup hnodup
  have hswept : (sweptScan os limits nowNs root world).bytesUsed =
      ((sweepOf os limits nowNs root world).map Turn.bytes).sum := by
    rw [hbytes, hadds.2]
    exact zero_add _
  have hsweptEntries : (sweptScan os limits nowNs root world).entries =
      ((sweepOf os limits nowNs root world).map Turn.entries).sum := by
    rw [hentries, hadds.1]
    exact zero_add _
  have hscan : scanOnce os limits root nowNs world =
      (match limits.maxBytes with
        | some maxBytes =>
          if (sweptScan os limits nowNs root world).bytesUsed > maxBytes then
            trim os.logged limits.trimTarget
              (byMtime (sweptScan os limits nowNs root world).retained)
              (sweptScan os limits nowNs root world)
          else sweptScan os limits nowNs root world
        | none => sweptScan os limits nowNs root world).forget := by
    rw [← forget_scanOnce]
    rfl
  rw [hscan, trimOf]
  cases limits.maxBytes with
  | none =>
    rw [List.append_nil]
    exact ⟨List.nodup_nil, nofun, hsweptEntries, hswept⟩
  | some maxBytes =>
    dsimp only
    split
    · obtain ⟨htrims, hadded, hturns⟩ := trimTurns_spec os limits.trimTarget
        (byMtime (sweptScan os limits nowNs root world).retained)
        (sweptScan os limits nowNs root world)
      refine ⟨htrims.nodup hpaths, fun t ht => ?_, ?_, ?_⟩
      · obtain ⟨before, hmem, ht⟩ := hturns t ht
        exact ⟨before, (List.mergeSort_perm _ _).mem_iff.1 hmem, ht⟩
      · rw [List.map_append, List.sum_append, ← hsweptEntries]
        exact hadded.1
      · rw [List.map_append, List.sum_append, ← hswept]
        exact hadded.2
    · rw [List.append_nil]
      exact ⟨List.nodup_nil, nofun, hsweptEntries, hswept⟩

/-- What the first loop retains is of the traversal. -/
theorem retained_subset (hnodup : (yielded root).Nodup) {record : Path × Stat}
    (h : record ∈ (sweptScan os limits nowNs root world).retained) :
    record.1 ∈ yielded root := by
  obtain ⟨records, hretained, hsub, -, -⟩ := sweepTurns_spec os limits nowNs
    (yielded root) hnodup (.start (world, []))
  rw [(sweptScan_eq _ _ _ _ _).1, hretained] at h
  exact hsub.subset (List.mem_map_of_mem (f := Prod.fst) h)

/-- **The fate of a file**, over both loops. -/
theorem fate_of_yielded (hnodup : (yielded root).Nodup) {path : Path} (hpath : path ∈ yielded root)
    {alive : Prop} (halive : alive → gone (callsOn (sweepOf os limits nowNs root world ++
      trimOf os limits nowNs root world) path) = false) :
    Fate (sweepOf os limits nowNs root world) (trimOf os limits nowNs root world) path
      alive := by
  obtain ⟨records, hretained, hsub, -, hturns⟩ := sweepTurns_spec os limits nowNs
    (yielded root) hnodup (.start (world, []))
  have hrecords : (sweptScan os limits nowNs root world).retained = records := by
    rw [(sweptScan_eq _ _ _ _ _).1, hretained]
    rfl
  obtain ⟨htrimmed, htrims, -, -⟩ := trimOf_spec os limits nowNs world
    hnodup
  have hpaths := sweepTurns_paths os limits nowNs (yielded root)
    (.start (world, []))
  obtain ⟨t, ht, rfl⟩ : ∃ t ∈ sweepOf os limits nowNs root world, t.path = path := by
    rw [← hpaths] at hpath
    exact List.mem_map.1 hpath
  have hsweep : (sweepOf os limits nowNs root world).filter (·.path = t.path) = [t] := by
    refine filter_path ?_ ht
    rw [sweepOf, hpaths]
    exact hnodup
  rcases hturns t ht with ⟨st, hmem, hcounts⟩ | ⟨hnot, hskips⟩
  · by_cases hcome : t.path ∈ (trimOf os limits nowNs root world).map Turn.path
    · obtain ⟨t', ht', heq⟩ := List.mem_map.1 hcome
      have htrim := filter_path htrimmed ht'
      rw [heq] at htrim
      obtain ⟨before, hbefore, hb⟩ := htrims t' ht'
      rw [heq, hrecords] at hbefore
      -- a file is retained in one size
      have hsame : (t.path, before) = (t.path, st) :=
        List.inj_on_of_nodup_map (hsub.nodup hnodup) hbefore hmem rfl
      cases hsame
      exact fate_trims hsweep htrim hcounts hb halive
    · exact fate_counts hsweep (filter_path_nil hcome) hcounts
  · refine fate_skips hsweep (filter_path_nil fun hcome => hnot ?_) hskips halive
    obtain ⟨t', ht', heq⟩ := List.mem_map.1 hcome
    obtain ⟨before, hbefore, -⟩ := htrims t' ht'
    rw [heq, hrecords] at hbefore
    exact List.mem_map_of_mem (f := Prod.fst) hbefore

/-- What the files share out is what the iterations add. -/
theorem sum_share {files : List Path} (hnodup : files.Nodup) (f : Turn → Int)
    {turns : List Turn} (hturns : ∀ t ∈ turns, t.path ∈ files) :
    (turns.map f).sum =
      (files.map fun path => ((turns.filter (·.path = path)).map f).sum).sum := by
  induction turns with
  | nil => simp
  | cons t turns ih =>
    have hone : (files.map fun path => if t.path = path then f t else 0).sum = f t := by
      rw [← List.sum_toFinset _ hnodup, Finset.sum_ite_eq,
        if_pos (List.mem_toFinset.2 (hturns t List.mem_cons_self))]
    rw [List.map_cons, List.sum_cons, ih fun u hu => hturns u (List.mem_cons_of_mem _ hu)]
    conv_lhs => rw [← hone, ← List.sum_map_add]
    refine congrArg List.sum (List.map_congr_left fun path _ => ?_)
    by_cases hpath : t.path = path
    · rw [if_pos hpath, List.filter_cons_of_pos (by simpa using hpath), List.map_cons,
        List.sum_cons]
    · rw [if_neg hpath, List.filter_cons_of_neg (by simpa using hpath), zero_add]

/-- A bound on each share of the files of a class, and none below zero elsewhere. -/
theorem sum_filter_le {files : List Path} {alive : Finset Path} {f g : Path → Int}
    (halive : ∀ path ∈ files, path ∈ alive → f path ≤ g path)
    (hothers : ∀ path ∈ files, path ∉ alive → 0 ≤ g path) :
    ((files.filter (· ∈ alive)).map f).sum ≤ (files.map g).sum := by
  induction files with
  | nil => exact le_refl _
  | cons path files ih =>
    have ih := ih (fun p hp => halive p (List.mem_cons_of_mem _ hp))
      fun p hp => hothers p (List.mem_cons_of_mem _ hp)
    rw [List.map_cons, List.sum_cons]
    by_cases hmem : path ∈ alive
    · rw [List.filter_cons_of_pos (by simpa using hmem), List.map_cons, List.sum_cons]
      have hle := halive path List.mem_cons_self hmem
      omega
    · rw [List.filter_cons_of_neg (by simpa using hmem)]
      have hle := hothers path List.mem_cons_self hmem
      omega

end Scan

/-- **A scan accounts for what is still there exactly when its calls are steady**, for any
calls, any tree, and any of its files as the ones that are still there. -/
theorem neverUnderReports_iff (os : Os σ) (limits : Limits) (nowNs : Int)
    (root : List (String × Node)) (world : σ) (alive : Finset Path)
    (hnodup : (yielded root).Nodup)
    (halive : ∀ path ∈ alive, gone (callsOn (sweepOf os limits nowNs root world ++
      trimOf os limits nowNs root world) path) = false) :
    NeverUnderReports (yielded root)
        (sweepOf os limits nowNs root world ++ trimOf os limits nowNs root world) alive
        (scanOnce os limits root nowNs world).entries
        (scanOnce os limits root nowNs world).bytesUsed ↔
      Steady (yielded root) (sweepOf os limits nowNs root world)
        (trimOf os limits nowNs root world) alive := by
  have hfate : ∀ path ∈ yielded root, Fate (sweepOf os limits nowNs root world)
      (trimOf os limits nowNs root world) path (path ∈ alive) :=
    fun path hpath => fate_of_yielded hnodup hpath (halive path)
  constructor
  · intro h
    refine ⟨fun path hpath hmem => ?_, fun path hpath hmem => ?_, fun path hpath hremoved => ?_⟩
    · exact (((hfate path hpath).counted hmem).1 (h.counted path hpath hmem)).1
    · exact (((hfate path hpath).counted hmem).1 (h.counted path hpath hmem)).2
    · by_cases hmem : path ∈ alive
      · obtain ⟨c, hc, hr⟩ := hremoved
        rw [(hfate path hpath).unevicted hmem c hc] at hr
        cases hr
      · exact ((hfate path hpath).others hmem).1 (h.others path hpath hmem) hremoved
  · intro h
    have hcounted := fun path hpath hmem => ((hfate path hpath).counted hmem).2
      ⟨h.swept path hpath hmem, h.kept path hpath hmem⟩
    have hothers := fun path hpath hmem => ((hfate path hpath).others hmem).2
      (h.evicted path hpath)
    obtain ⟨-, htrims, hentries, hbytes⟩ := trimOf_spec os limits nowNs world
      hnodup
    have hpaths := sweepTurns_paths os limits nowNs
      (yielded root) (.start (world, []))
    have hturns : ∀ t ∈ sweepOf os limits nowNs root world ++
        trimOf os limits nowNs root world, t.path ∈ yielded root := by
      intro t ht
      rcases List.mem_append.1 ht with ht | ht
      · rw [← hpaths]
        exact List.mem_map_of_mem ht
      · obtain ⟨before, hmem, -⟩ := htrims t ht
        exact retained_subset hnodup hmem
    refine ⟨hcounted, hothers, ?_, ?_⟩
    · rw [hentries, sum_share hnodup Turn.entries hturns]
      have hle := sum_filter_le (f := fun _ => 1) (fun path hpath hmem =>
          (hcounted path hpath hmem).1.ge) (fun path hpath hmem => (hothers path hpath hmem).1)
      rw [List.map_const', List.sum_replicate, nsmul_eq_mul, mul_one] at hle
      exact hle
    · rw [hbytes, sum_share hnodup Turn.bytes hturns]
      refine sum_filter_le (fun path hpath hmem => ?_)
        (fun path hpath hmem => (hothers path hpath hmem).2)
      have hlast := (hcounted path hpath hmem).2
      cases hsize : lastSize (callsOn (sweepOf os limits nowNs root world ++
        trimOf os limits nowNs root world) path) with
      | none =>
        rw [hsize] at hlast
        cases hlast
      | some n =>
        rw [hsize] at hlast
        exact (Option.some.inj hlast).le

/-! ### A file that cannot be removed -/

/-- Calls under which nothing can be removed. -/
def readOnlyOs : Os (Path → Option Stat) where
  stat := tableOs.stat
  unlink _ world := (.error .other, world)

/-- An old file of four bytes. -/
def oneBlock : Path → Option Stat := fun path =>
  if path = ["a"] then some ⟨true, 1, 1, 0, 4⟩ else none

/-- Limits without a second phase. -/
def ageOnly : Limits := ⟨5, none, 0, nofun⟩

theorem iterFiles_oneBlock : iterFiles [([], .dir [("a", .file)])] = ([["a"]], false) := by
  rw [iterFiles]
  simp only [List.getLast?_singleton]
  rw [iterFiles]
  decide

/-- **An expired file that cannot be removed is left out**: it is there, and the scan reports
neither an entry nor a byte. -/
theorem readOnly_not_neverUnderReports :
    gone (callsOn (sweepOf readOnlyOs ageOnly 10 [("a", .file)] oneBlock ++
        trimOf readOnlyOs ageOnly 10 [("a", .file)] oneBlock) ["a"]) = false ∧
      ¬NeverUnderReports (yielded [("a", .file)])
        (sweepOf readOnlyOs ageOnly 10 [("a", .file)] oneBlock ++
          trimOf readOnlyOs ageOnly 10 [("a", .file)] oneBlock) {["a"]}
        (scanOnce readOnlyOs ageOnly [("a", .file)] 10 oneBlock).entries
        (scanOnce readOnlyOs ageOnly [("a", .file)] 10 oneBlock).bytesUsed := by
  have hyielded : yielded [("a", .file)] = [["a"]] := by rw [yielded, iterFiles_oneBlock]
  have hentries : entriesOf (sweepOf readOnlyOs ageOnly 10 [("a", .file)] oneBlock ++
      trimOf readOnlyOs ageOnly 10 [("a", .file)] oneBlock) ["a"] = 0 := by
    rw [sweepOf, hyielded]
    rfl
  refine ⟨?_, fun h => ?_⟩
  · rw [sweepOf, hyielded]
    rfl
  · have hone := (h.counted ["a"] (by rw [hyielded]; decide) (by decide)).1
    rw [hentries] at hone
    cases hone

/-- The same file where it is young. -/
theorem neverUnderReports_oneBlock :
    NeverUnderReports (yielded [("a", .file)])
        (sweepOf tableOs ageOnly 3 [("a", .file)] oneBlock ++
          trimOf tableOs ageOnly 3 [("a", .file)] oneBlock) {["a"]}
        (scanOnce tableOs ageOnly [("a", .file)] 3 oneBlock).entries
        (scanOnce tableOs ageOnly [("a", .file)] 3 oneBlock).bytesUsed ↔
      Steady (yielded [("a", .file)]) (sweepOf tableOs ageOnly 3 [("a", .file)] oneBlock)
        (trimOf tableOs ageOnly 3 [("a", .file)] oneBlock) {["a"]} := by
  have hyielded : yielded [("a", .file)] = [["a"]] := by rw [yielded, iterFiles_oneBlock]
  refine neverUnderReports_iff tableOs ageOnly 3 [("a", .file)] oneBlock {["a"]} ?_ ?_
  · rw [hyielded]
    decide
  · intro path hpath
    obtain rfl := Finset.mem_singleton.1 hpath
    rw [sweepOf, hyielded]
    rfl

end Cache

end DgxSpark
