import DgxSpark.Deploy.Fabric
import DgxSpark.Deploy.Validate

/-!
# Reading back the profiles of NetworkManager

`nmcli -t` writes a table of profiles: a line for each, its fields joined by colons, with a
backslash before every colon and backslash of a field (`DgxSpark.terse`). The parser cuts the
lines at every colon, trims the fields and takes no backslash away.

A field with a colon is refused, since it makes one field too many. A backslash or white space
around a name is not seen, and the profile is read under another name. What is read is the truth
(`DgxSpark.ReadBack`) exactly for the tables in which the profiles that matter have fields that
are shown as they are: `DgxSpark.readBack_iff`. Two profiles that make the answer ambiguous are
always refused.
-/

namespace DgxSpark

/-! ### The table -/

/-- A character of a field in terse output. -/
def terseChar (c : Char) : List Char :=
  if c = ':' ∨ c = '\\' then ['\\', c] else [c]

/-- A field in terse output. -/
def terseField (field : List Char) : List Char :=
  field.flatMap terseChar

/-- The fields of a profile. -/
def terseFields (profile : NmProfile) : List (List Char) :=
  [terseField profile.name.toList, terseField profile.uuid.toList,
    terseField profile.device.toList, if profile.active then ['y', 'e', 's'] else ['n', 'o']]

/-- The line of a profile. -/
def terseLine (profile : NmProfile) : List Char :=
  [':'].intercalate (terseFields profile)

/-- The output for a list of profiles. -/
def terse (profiles : List NmProfile) : String :=
  String.ofList (profiles.flatMap fun profile => terseLine profile ++ ['\n'])

/-! ### The truth -/

/-- Whether a profile is the target. -/
def isTarget (spec : FabricSpec) (profile : NmProfile) : Bool :=
  profile.name == strOption spec.connection

/-- Whether a profile is active on the interface. -/
def isActive (spec : FabricSpec) (profile : NmProfile) : Bool :=
  profile.active && profile.device == spec.interface

/-- **What is read is the truth** about the target and the interface. -/
structure ReadBack (spec : FabricSpec) (profiles : List NmProfile) (state : NmState) : Prop where
  target_existed : state.targetExisted = (profiles.find? (isTarget spec)).isSome
  target_uuid : state.targetUuid = (profiles.find? (isTarget spec)).map NmProfile.uuid
  target_device : state.targetDevice = (profiles.find? (isTarget spec)).map NmProfile.device
  target_active : state.targetActive =
    ((profiles.find? (isTarget spec)).map NmProfile.active).getD false
  active_connection : state.activeConnection =
    (profiles.find? (isActive spec)).map NmProfile.name
  active_uuid : state.activeUuid = (profiles.find? (isActive spec)).map NmProfile.uuid

/-- Two profiles are the target, or two are active on the interface. -/
def Ambiguous (spec : FabricSpec) (profiles : List NmProfile) : Prop :=
  1 < (profiles.filter (isTarget spec)).length ∨ 1 < (profiles.filter (isActive spec)).length

/-- A field that is shown as it is. -/
structure Verbatim (s : String) : Prop where
  colon : ':' ∉ s.toList
  backslash : '\\' ∉ s.toList
  unbroken : ∀ c ∈ s.toList, Text.isLineBreak c = false
  stripped : Text.strip s = s

/-- A profile whose line says what it is. -/
structure VerbatimProfile (profile : NmProfile) : Prop where
  name : Verbatim profile.name
  uuid : Verbatim profile.uuid
  device : Verbatim profile.device

/-- A row of a profile's line is taken for the target or for the active profile. -/
def Concerned (spec : FabricSpec) (profile : NmProfile) : Prop :=
  ∃ line ∈ Text.splitLinesChars (terseLine profile), ∃ row,
    parseNmLine spec.role (String.ofList line) = .ok row ∧
      (isTarget spec row = true ∨ isActive spec row = true)

/-! ### Trimming -/

/-- Trimming takes white space from both ends. -/
theorem stripChars_eq (cs : List Char) : ∃ before after, cs = before ++ (Text.stripChars cs ++ after) ∧
    (∀ c ∈ before, Text.isSpace c = true) ∧ ∀ c ∈ after, Text.isSpace c = true := by
  obtain ⟨after, hafter, hspaces⟩ :=
    rstripWhile_eq_dropRight Text.isSpace (cs.dropWhile Text.isSpace)
  refine ⟨cs.takeWhile Text.isSpace, after, ?_, fun c hc => List.mem_takeWhile_imp hc, hspaces⟩
  rw [Text.stripChars, Text.rstripWhile, ← hafter, List.takeWhile_append_dropWhile]

/-- Trimming loses nothing but white space. -/
theorem count_stripChars {c : Char} (h : Text.isSpace c = false) (cs : List Char) :
    (Text.stripChars cs).count c = cs.count c := by
  obtain ⟨before, after, hcs, hbefore, hafter⟩ := stripChars_eq cs
  have hnone : ∀ spaces : List Char, (∀ d ∈ spaces, Text.isSpace d = true) →
      spaces.count c = 0 := by
    intro spaces hspaces
    refine List.count_eq_zero.2 fun hmem => ?_
    rw [hspaces c hmem] at h
    exact absurd h (by decide)
  conv_rhs => rw [hcs]
  rw [List.count_append, List.count_append, hnone before hbefore, hnone after hafter]
  omega

theorem subset_stripChars (cs : List Char) : Text.stripChars cs ⊆ cs := by
  obtain ⟨before, after, hcs, -, -⟩ := stripChars_eq cs
  intro c hc
  rw [hcs]
  simp [hc]

theorem toList_strip (cs : List Char) :
    (Text.strip (String.ofList cs)).toList = Text.stripChars cs := by
  rw [Text.strip, Text.chars_eq, String.toList_ofList, String.toList_ofList]

/-- A text with a colon is not blank. -/
theorem strip_ne_empty {cs : List Char} (h : ':' ∈ cs) : Text.strip (String.ofList cs) ≠ "" := by
  intro hempty
  have hcount := count_stripChars (c := ':') (by decide) cs
  rw [← toList_strip, hempty] at hcount
  exact absurd (List.count_pos_iff.2 h) (by rw [← hcount]; simp)

/-! ### Lines -/

theorem splitLinesAux_cons {c : Char} (h : Text.isLineBreak c = false) (acc cs : List Char) :
    Text.splitLinesAux acc (c :: cs) = Text.splitLinesAux (c :: acc) cs := by
  have hne : c ≠ '\r' := by
    rintro rfl
    exact absurd h (by decide)
  rw [Text.splitLinesAux.eq_3 _ _ _ (fun _ hr => absurd hr hne), h]
  rfl

theorem splitLinesAux_unbroken {w : List Char} (h : ∀ c ∈ w, Text.isLineBreak c = false)
    (acc cs : List Char) :
    Text.splitLinesAux acc (w ++ cs) = Text.splitLinesAux (w.reverse ++ acc) cs := by
  induction w generalizing acc with
  | nil => rfl
  | cons c w ih =>
    obtain ⟨hc, hw⟩ := List.forall_mem_cons.1 h
    rw [List.cons_append, splitLinesAux_cons hc, ih hw, List.reverse_cons, List.append_assoc,
      List.singleton_append]

theorem splitLinesAux_end {w : List Char} (h : ∀ c ∈ w, Text.isLineBreak c = false)
    (hne : w ≠ []) (acc : List Char) : Text.splitLinesAux acc w = [acc.reverse ++ w] := by
  have hread := splitLinesAux_unbroken h acc []
  rw [List.append_nil] at hread
  rw [hread, Text.splitLinesAux, if_neg (by simp [hne]), List.reverse_append, List.reverse_reverse]

/-- A line has no line break. -/
theorem unbroken_of_mem_splitLinesAux {acc cs line : List Char}
    (hacc : ∀ c ∈ acc, Text.isLineBreak c = false) (h : line ∈ Text.splitLinesAux acc cs) :
    ∀ c ∈ line, Text.isLineBreak c = false := by
  have hreverse : ∀ {acc : List Char}, (∀ c ∈ acc, Text.isLineBreak c = false) →
      ∀ c ∈ acc.reverse, Text.isLineBreak c = false :=
    fun hacc c hc => hacc c (List.mem_reverse.1 hc)
  fun_induction Text.splitLinesAux acc cs with
  | case1 => exact absurd h List.not_mem_nil
  | case2 acc =>
    obtain rfl := List.mem_singleton.1 h
    exact hreverse hacc
  | case3 acc cs ih =>
    rcases List.mem_cons.1 h with rfl | h
    · exact hreverse hacc
    · exact ih (by simp) h
  | case4 acc c cs hne hbreak ih =>
    rcases List.mem_cons.1 h with rfl | h
    · exact hreverse hacc
    · exact ih (by simp) h
  | case5 acc c cs hne hbreak ih =>
    exact ih (List.forall_mem_cons.2 ⟨Bool.not_eq_true _ ▸ hbreak, hacc⟩) h

/-- The first line begins with what was read of it. -/
theorem splitLinesAux_first {acc : List Char} (hne : acc ≠ []) (cs : List Char) :
    ∃ line rest, Text.splitLinesAux acc cs = (acc.reverse ++ line) :: rest := by
  fun_induction Text.splitLinesAux acc cs with
  | case1 acc hempty => exact absurd (List.isEmpty_iff.1 hempty) hne
  | case2 acc => exact ⟨[], [], by rw [List.append_nil]⟩
  | case3 acc cs => exact ⟨[], _, by rw [List.append_nil]⟩
  | case4 acc c cs => exact ⟨[], _, by rw [List.append_nil]⟩
  | case5 acc c cs hne' hbreak ih =>
    obtain ⟨line, rest, hread⟩ := ih (by simp)
    exact ⟨c :: line, rest, by rw [hread, List.reverse_cons, List.append_assoc]; rfl⟩

/-- The last line ends as the text does, and a line feed ends it. -/
theorem splitLinesAux_last {w : List Char} (hw : ∀ c ∈ w, Text.isLineBreak c = false)
    (hne : w ≠ []) (acc cs : List Char) :
    ∃ init line, Text.splitLinesAux acc (cs ++ w) = init ++ [line ++ w] ∧
      ∀ rest, Text.splitLinesAux acc (cs ++ w ++ '\n' :: rest) =
        init ++ [line ++ w] ++ Text.splitLinesAux [] rest := by
  obtain ⟨d, w', rfl⟩ := List.exists_cons_of_ne_nil hne
  have hd : d ≠ '\n' := by
    rintro rfl
    exact absurd (hw '\n' List.mem_cons_self) (by decide)
  have hstart : ∀ acc, ∃ init line, Text.splitLinesAux acc ([] ++ d :: w') = init ++ [line ++ d :: w'] ∧
      ∀ rest, Text.splitLinesAux acc ([] ++ d :: w' ++ '\n' :: rest) =
        init ++ [line ++ d :: w'] ++ Text.splitLinesAux [] rest := fun acc =>
    ⟨[], acc.reverse, splitLinesAux_end hw hne acc, fun rest =>
      Text.splitLinesAux_append (d :: w') acc rest hw⟩
  fun_induction Text.splitLinesAux acc cs with
  | case1 acc => exact hstart acc
  | case2 acc => exact hstart acc
  | case3 acc cs ih =>
    obtain ⟨init, line, hread, hrest⟩ := ih
    refine ⟨acc.reverse :: init, line, ?_, fun rest => ?_⟩
    · rw [List.cons_append, List.cons_append, Text.splitLinesAux, hread, List.cons_append]
    · rw [List.cons_append, List.cons_append, List.cons_append, List.cons_append,
        Text.splitLinesAux, hrest]
      rfl
  | case4 acc c cs hpair hbreak ih =>
    obtain ⟨init, line, hread, hrest⟩ := ih
    have hpair' : ∀ tail tail', c = '\r' → cs ++ d :: w' ++ tail = '\n' :: tail' → False := by
      intro tail tail' hc htail
      cases cs with
      | nil => exact hd (List.cons.inj htail).1
      | cons e cs => exact hpair cs hc (by rw [(List.cons.inj htail).1])
    refine ⟨acc.reverse :: init, line, ?_, fun rest => ?_⟩
    · rw [List.cons_append, Text.splitLinesAux.eq_3 _ _ _ fun tail' hc htail =>
        hpair' [] tail' hc (by rwa [List.append_nil]), if_pos hbreak, hread, List.cons_append]
    · rw [List.cons_append, List.cons_append,
        Text.splitLinesAux.eq_3 _ _ _ fun tail' => hpair' _ tail', if_pos hbreak, hrest]
      rfl
  | case5 acc c cs hpair hbreak ih =>
    obtain ⟨init, line, hread, hrest⟩ := ih
    have hc : Text.isLineBreak c = false := Bool.not_eq_true _ ▸ hbreak
    refine ⟨init, line, ?_, fun rest => ?_⟩
    · rw [List.cons_append, splitLinesAux_cons hc, hread]
    · rw [List.cons_append, List.cons_append, splitLinesAux_cons hc, hrest]

/-! ### Rows -/

/-- The rows of some lines. -/
def readRows (role : Role) (lines : List (List Char)) : Except Exn (List NmProfile) :=
  ((lines.map String.ofList).filter fun line => Text.strip line != "").mapM (parseNmLine role)

/-- The rows of a profile's line, if they can be read. -/
def rowsOf (role : Role) (profile : NmProfile) : List NmProfile :=
  (readRows role (Text.splitLinesChars (terseLine profile))).toOption.getD []

theorem parseNmProfiles_ofList (role : Role) (cs : List Char) :
    parseNmProfiles role (String.ofList cs) = readRows role (Text.splitLinesChars cs) := by
  rw [parseNmProfiles, readRows, Text.splitLines, Text.chars_eq, String.toList_ofList]

theorem readRows_append_ok {role : Role} {a b : List (List Char)} {rows : List NmProfile}
    (h : readRows role (a ++ b) = .ok rows) :
    ∃ x y, readRows role a = .ok x ∧ readRows role b = .ok y ∧ rows = x ++ y := by
  rw [readRows, List.map_append, List.filter_append, List.mapM_append] at h
  obtain ⟨x, hx, h⟩ := except_bind_eq_ok.1 h
  obtain ⟨y, hy, h⟩ := except_bind_eq_ok.1 h
  exact ⟨x, y, hx, hy, (Except.ok.inj h).symm⟩

/-- A row is the four fields of a line, trimmed. -/
theorem parseNmLine_ok {role : Role} {line : List Char} {row : NmProfile}
    (h : parseNmLine role (String.ofList line) = .ok row) :
    ∃ name uuid device active : List Char, line.splitOn ':' = [name, uuid, device, active] ∧
      row = ⟨Text.strip (String.ofList name), Text.strip (String.ofList uuid),
        Text.strip (String.ofList device), ["yes", "true", "activated"].contains
          (Text.lower (Text.strip (String.ofList active)))⟩ := by
  rw [parseNmLine, Text.splitOn, Text.chars_eq, String.toList_ofList] at h
  -- any other number of fields is refused
  rcases hfields : line.splitOn ':' with
    _ | ⟨name, _ | ⟨uuid, _ | ⟨device, _ | ⟨active, _ | ⟨extra, rest⟩⟩⟩⟩⟩ <;> rw [hfields] at h
  case cons.cons.cons.cons.nil =>
    obtain ⟨-, -, h⟩ := except_bind_eq_ok.1 h
    exact ⟨name, uuid, device, active, rfl, (Except.ok.inj h).symm⟩
  all_goals cases h

theorem colon_mem_of_ok {role : Role} {line : List Char} {row : NmProfile}
    (h : parseNmLine role (String.ofList line) = .ok row) : ':' ∈ line := by
  by_contra hnone
  obtain ⟨name, uuid, device, active, hfields, -⟩ := parseNmLine_ok h
  have hone := Text.splitOn_intercalate ':' [line] (by simp) (by simpa using hnone)
  rw [List.intercalate_singleton, hfields] at hone
  simp at hone

/-- Every item of a loop has a result. -/
theorem exists_result_of_mapM {α β ε : Type} {f : α → Except ε β} {xs : List α} {ys : List β}
    (h : xs.mapM f = .ok ys) {x : α} (hx : x ∈ xs) : ∃ y ∈ ys, f x = .ok y := by
  have hall := except_mapM_eq_ok.1 h
  clear h
  induction hall with
  | nil => exact absurd hx List.not_mem_nil
  | cons hhead htail ih =>
    rcases List.mem_cons.1 hx with rfl | hx
    · exact ⟨_, List.mem_cons_self, hhead⟩
    · obtain ⟨y, hy, hf⟩ := ih hx
      exact ⟨y, List.mem_cons_of_mem _ hy, hf⟩

theorem mem_readRows {role : Role} {lines : List (List Char)} {rows : List NmProfile}
    (h : readRows role lines = .ok rows) (row : NmProfile) :
    row ∈ rows ↔ ∃ line ∈ lines, parseNmLine role (String.ofList line) = .ok row := by
  constructor
  · intro hrow
    obtain ⟨line, hline, hread⟩ := exists_of_mem_mapM h hrow
    obtain ⟨chars, hchars, rfl⟩ := List.mem_map.1 (List.mem_of_mem_filter hline)
    exact ⟨chars, hchars, hread⟩
  · rintro ⟨line, hline, hread⟩
    have hmem : String.ofList line ∈
        (lines.map String.ofList).filter fun line => Text.strip line != "" :=
      List.mem_filter.2 ⟨List.mem_map_of_mem hline,
        bne_iff_ne.2 (strip_ne_empty (colon_mem_of_ok hread))⟩
    obtain ⟨other, hother, hread'⟩ := exists_result_of_mapM h hmem
    rwa [Except.ok.inj (hread.symm.trans hread')]

/-- Every line that is not blank gives a row. -/
theorem exists_row {role : Role} {lines : List (List Char)} {rows : List NmProfile}
    (h : readRows role lines = .ok rows) {line : List Char} (hline : line ∈ lines)
    (hcolon : ':' ∈ line) :
    ∃ row ∈ rows, parseNmLine role (String.ofList line) = .ok row := by
  have hmem : String.ofList line ∈
      (lines.map String.ofList).filter fun line => Text.strip line != "" :=
    List.mem_filter.2 ⟨List.mem_map_of_mem hline, bne_iff_ne.2 (strip_ne_empty hcolon)⟩
  exact exists_result_of_mapM h hmem

/-- A profile's line ends with its flag. -/
theorem terseLine_eq (profile : NmProfile) :
    terseLine profile = terseField profile.name.toList ++ ':' :: (terseField profile.uuid.toList ++
      ':' :: (terseField profile.device.toList ++ ':' ::
        if profile.active then ['y', 'e', 's'] else ['n', 'o'])) := by
  simp [terseLine, terseFields]

/-- A text without line breaks, from the check of its characters one by one. -/
theorem unbroken_of_all {cs : List Char} (h : (cs.all fun c => !Text.isLineBreak c) = true) :
    ∀ c ∈ cs, Text.isLineBreak c = false := by
  intro c hc
  simpa using List.all_eq_true.1 h c hc

/-- The last field of a row has no line break in it. -/
theorem flag_unbroken (active : Bool) :
    ∀ c ∈ (if active then ['y', 'e', 's'] else ['n', 'o']), Text.isLineBreak c = false := by
  cases active with
  | true => exact unbroken_of_all (by decide)
  | false => exact unbroken_of_all (by decide)

theorem splitLinesChars_terseLine (profile : NmProfile) (rest : List Char) :
    Text.splitLinesChars (terseLine profile ++ '\n' :: rest) =
      Text.splitLinesChars (terseLine profile) ++ Text.splitLinesChars rest := by
  have hflag : ∀ c ∈ (if profile.active then ['y', 'e', 's'] else ['n', 'o']),
      Text.isLineBreak c = false :=
    flag_unbroken profile.active
  have hne : (if profile.active then ['y', 'e', 's'] else ['n', 'o']) ≠ [] := by
    cases profile.active <;> simp
  obtain ⟨init, line, hread, hrest⟩ := splitLinesAux_last hflag hne []
    (terseField profile.name.toList ++ ':' :: (terseField profile.uuid.toList ++
      ':' :: (terseField profile.device.toList ++ [':'])))
  have hline : terseLine profile = (terseField profile.name.toList ++ ':' ::
      (terseField profile.uuid.toList ++ ':' :: (terseField profile.device.toList ++ [':']))) ++
        if profile.active then ['y', 'e', 's'] else ['n', 'o'] := by
    rw [terseLine_eq]
    simp
  rw [hline, Text.splitLinesChars, Text.splitLinesChars, hrest, hread, Text.splitLinesChars]

/-- **The rows of a table** are the rows of its profiles, each of which can be read. -/
theorem rows_of_terse {role : Role} {profiles : List NmProfile} {rows : List NmProfile}
    (h : parseNmProfiles role (terse profiles) = .ok rows) :
    rows = profiles.flatMap (rowsOf role) ∧ ∀ profile ∈ profiles,
      readRows role (Text.splitLinesChars (terseLine profile)) = .ok (rowsOf role profile) := by
  rw [terse, parseNmProfiles_ofList] at h
  induction profiles generalizing rows with
  | nil => exact ⟨(Except.ok.inj h).symm, fun _ hp => absurd hp List.not_mem_nil⟩
  | cons profile profiles ih =>
    rw [List.flatMap_cons, List.append_assoc, List.singleton_append, splitLinesChars_terseLine] at h
    obtain ⟨first, rest, hfirst, hrest, rfl⟩ := readRows_append_ok h
    obtain ⟨rfl, hprofiles⟩ := ih hrest
    have hrows : rowsOf role profile = first := by
      rw [rowsOf, hfirst]
      rfl
    refine ⟨by rw [List.flatMap_cons, hrows], fun other hother => ?_⟩
    rcases List.mem_cons.1 hother with rfl | hother
    · rw [hrows, hfirst]
    · exact hprofiles other hother

/-! ### Profiles that are shown as they are -/

theorem mem_terseField {field : List Char} {c : Char} (h : c ∈ terseField field) :
    c ∈ field ∨ c = '\\' := by
  obtain ⟨d, hd, hc⟩ := List.mem_flatMap.1 h
  rw [terseChar] at hc
  split_ifs at hc
  · rcases List.mem_cons.1 hc with rfl | hc
    · exact .inr rfl
    · rw [List.mem_singleton.1 hc]
      exact .inl hd
  · rw [List.mem_singleton.1 hc]
    exact .inl hd

theorem terseField_plain {field : List Char} (hcolon : ':' ∉ field) (hbackslash : '\\' ∉ field) :
    terseField field = field := by
  induction field with
  | nil => rfl
  | cons c field ih =>
    rw [List.mem_cons, not_or] at hcolon hbackslash
    rw [terseField, List.flatMap_cons, ← terseField, ih hcolon.2 hbackslash.2, terseChar,
      if_neg fun h => h.elim (Ne.symm hcolon.1) (Ne.symm hbackslash.1), List.singleton_append]

/-- In a field without colons every backslash is doubled. -/
theorem count_terseField {field : List Char} (hcolon : ':' ∉ field) :
    (terseField field).count '\\' = 2 * field.count '\\' := by
  induction field with
  | nil => rfl
  | cons c field ih =>
    rw [List.mem_cons, not_or] at hcolon
    rw [terseField, List.flatMap_cons, ← terseField, List.count_append, ih hcolon.2, terseChar]
    by_cases hc : c = '\\'
    · subst hc
      simp
      omega
    · rw [if_neg fun h => h.elim (Ne.symm hcolon.1) hc, List.count_singleton, List.count_cons]
      simp [hc]

/-- A field that comes back trimmed is shown as it is. -/
theorem verbatim_of_strip {s : String} (hcolon : ':' ∉ s.toList)
    (hunbroken : ∀ c ∈ s.toList, Text.isLineBreak c = false)
    (h : s = Text.strip (String.ofList (terseField s.toList))) : Verbatim s := by
  have hcount := count_stripChars (c := '\\') (by decide) (terseField s.toList)
  rw [← toList_strip, ← h, count_terseField hcolon] at hcount
  have hbackslash : '\\' ∉ s.toList := List.count_eq_zero.1 (by omega)
  rw [terseField_plain hcolon hbackslash, String.ofList_toList] at h
  exact ⟨hcolon, hbackslash, hunbroken, h.symm⟩

/-- A profile without colons and line breaks has one line, with its four fields. -/
theorem line_of_clean {profile : NmProfile}
    (hcolon : ∀ s ∈ [profile.name, profile.uuid, profile.device], ':' ∉ s.toList)
    (hunbroken : ∀ s ∈ [profile.name, profile.uuid, profile.device], ∀ c ∈ s.toList,
      Text.isLineBreak c = false) :
    Text.splitLinesChars (terseLine profile) = [terseLine profile] ∧
      (terseLine profile).splitOn ':' = terseFields profile := by
  simp only [List.forall_mem_cons, List.not_mem_nil, false_implies, implies_true, and_true]
    at hcolon hunbroken
  obtain ⟨hname, huuid, hdevice⟩ := hcolon
  obtain ⟨hname', huuid', hdevice'⟩ := hunbroken
  have hfield : ∀ field : List Char, (∀ c ∈ field, Text.isLineBreak c = false) →
      ∀ c ∈ terseField field, Text.isLineBreak c = false := by
    intro field h c hc
    rcases mem_terseField hc with hc | rfl
    · exact h c hc
    · decide
  have hnone : ∀ field : List Char, ':' ∉ field → ':' ∉ terseField field := by
    intro field h hc
    rcases mem_terseField hc with hc | hc
    · exact h hc
    · exact absurd hc (by decide)
  constructor
  · have hline : ∀ c ∈ terseLine profile, Text.isLineBreak c = false := by
      intro c hc
      have hflag : ∀ c ∈ (if profile.active then ['y', 'e', 's'] else ['n', 'o']),
          Text.isLineBreak c = false :=
        flag_unbroken profile.active
      rw [terseLine_eq] at hc
      simp only [List.mem_append, List.mem_cons] at hc
      rcases hc with hc | rfl | hc | rfl | hc | rfl | hc
      · exact hfield _ hname' c hc
      · decide
      · exact hfield _ huuid' c hc
      · decide
      · exact hfield _ hdevice' c hc
      · decide
      · exact hflag c hc
    rw [Text.splitLinesChars, splitLinesAux_end hline (by simp [terseLine_eq])]
    rfl
  · refine Text.splitOn_intercalate ':' _ (by simp [terseFields]) fun f hf => ?_
    simp only [terseFields, List.mem_cons, List.not_mem_nil, or_false] at hf
    rcases hf with rfl | rfl | rfl | rfl
    · exact hnone _ hname
    · exact hnone _ huuid
    · exact hnone _ hdevice
    · cases profile.active <;> decide

/-- **A row that is its profile** shows that the profile is shown as it is. -/
theorem verbatim_of_row {role : Role} {profile row : NmProfile} {line : List Char}
    (hline : line ∈ Text.splitLinesChars (terseLine profile))
    (h : parseNmLine role (String.ofList line) = .ok row) (hname : row.name = profile.name)
    (huuid : row.uuid = profile.uuid) (hdevice : row.device = profile.device) :
    VerbatimProfile profile := by
  obtain ⟨name, uuid, device, active, hfields, rfl⟩ := parseNmLine_ok h
  have hunbroken := unbroken_of_mem_splitLinesAux (fun _ hc => absurd hc List.not_mem_nil) hline
  -- what is read has no colon and no line break
  have hclean : ∀ field ∈ [name, uuid, device, active], ∀ s : String,
      Text.strip (String.ofList field) = s →
        ':' ∉ s.toList ∧ ∀ c ∈ s.toList, Text.isLineBreak c = false := by
    rintro field hfield s rfl
    rw [← hfields] at hfield
    rw [toList_strip]
    refine ⟨fun hc => PosixPath.notMem_of_mem_splitOn hfield (subset_stripChars _ hc),
      fun c hc => hunbroken c ?_⟩
    have hinfix := @Text.infix_of_mem_fields Char [':'] _ _ hfield
    rw [List.intercalate_splitOn] at hinfix
    exact hinfix.subset (subset_stripChars _ hc)
  obtain ⟨hname₁, hname₂⟩ := hclean name (by simp) _ hname
  obtain ⟨huuid₁, huuid₂⟩ := hclean uuid (by simp) _ huuid
  obtain ⟨hdevice₁, hdevice₂⟩ := hclean device (by simp) _ hdevice
  obtain ⟨hlines, hsplit⟩ := @line_of_clean profile (by simp [hname₁, huuid₁, hdevice₁])
    (by simpa using ⟨hname₂, huuid₂, hdevice₂⟩)
  -- so the line is the only one, and its fields are those of the profile
  rw [hlines] at hline
  obtain rfl := List.mem_singleton.1 hline
  rw [hsplit, terseFields] at hfields
  obtain ⟨rfl, rfl, rfl, -⟩ : _ ∧ _ ∧ _ ∧ _ := by simpa using hfields
  exact ⟨verbatim_of_strip hname₁ hname₂ hname.symm, verbatim_of_strip huuid₁ huuid₂ huuid.symm,
    verbatim_of_strip hdevice₁ hdevice₂ hdevice.symm⟩

/-- **A profile that is shown as it is** is its only row. -/
theorem rows_of_verbatim {role : Role} {profile : NmProfile} (h : VerbatimProfile profile)
    {line : List Char} (hline : line ∈ Text.splitLinesChars (terseLine profile))
    {row : NmProfile} (hrow : parseNmLine role (String.ofList line) = .ok row) :
    row = profile := by
  obtain ⟨hlines, hsplit⟩ := @line_of_clean profile (by
    simp [h.name.colon, h.uuid.colon, h.device.colon])
    (by simpa using ⟨h.name.unbroken, h.uuid.unbroken, h.device.unbroken⟩)
  rw [hlines] at hline
  obtain rfl := List.mem_singleton.1 hline
  obtain ⟨name, uuid, device, active, hfields, rfl⟩ := parseNmLine_ok hrow
  rw [hsplit, terseFields, terseField_plain h.name.colon h.name.backslash,
    terseField_plain h.uuid.colon h.uuid.backslash,
    terseField_plain h.device.colon h.device.backslash] at hfields
  obtain ⟨rfl, rfl, rfl, rfl⟩ : _ ∧ _ ∧ _ ∧ _ := by simpa using hfields
  have hactive : ["yes", "true", "activated"].contains (Text.lower (Text.strip (String.ofList
      (if profile.active then ['y', 'e', 's'] else ['n', 'o'])))) = profile.active := by
    cases profile.active <;> decide
  simp only [String.ofList_toList, h.name.stripped, h.uuid.stripped, h.device.stripped, hactive]

/-! ### The target and the active profile are seen -/

/-- The characters of an identifier. -/
theorem isSafeId_char {c : Char}
    (h : (c.isAlphanum || "_.-".toList.contains c) = true) :
    c ≠ ':' ∧ c ≠ '\\' ∧ Text.isLineBreak c = false ∧ Text.isSpace c = false := by
  have hlist : "_.-".toList = ['_', '.', '-'] := by decide
  rw [hlist] at h
  simp only [Char.isAlphanum, Char.isAlpha, Char.isUpper, Char.isLower, Char.isDigit,
    Bool.or_eq_true, Bool.and_eq_true, decide_eq_true_eq, ge_iff_le, UInt32.le_iff_toNat_le,
    List.contains_iff_mem, List.mem_cons, List.not_mem_nil, or_false] at h
  rcases h with h | rfl | rfl | rfl
  · have hrange : 48 ≤ c.toNat ∧ c.toNat ≤ 57 ∨ 65 ≤ c.toNat ∧ c.toNat ≤ 90 ∨
        97 ≤ c.toNat ∧ c.toNat ≤ 122 := by
      change (65 ≤ c.toNat ∧ c.toNat ≤ 90 ∨ 97 ≤ c.toNat ∧ c.toNat ≤ 122) ∨
        48 ≤ c.toNat ∧ c.toNat ≤ 57 at h
      omega
    refine ⟨?_, ?_, ?_, ?_⟩
    · rintro rfl
      exact absurd hrange (by decide)
    · rintro rfl
      exact absurd hrange (by decide)
    · simp only [Text.isLineBreak, Bool.or_eq_false_iff, Bool.and_eq_false_iff, decide_eq_false_iff_not,
        beq_eq_false_iff_ne]
      omega
    · simp only [Text.isSpace, Bool.or_eq_false_iff, Bool.and_eq_false_iff, decide_eq_false_iff_not,
        beq_eq_false_iff_ne]
      omega
  all_goals decide

/-- An identifier is shown as it is. -/
theorem verbatim_of_isSafeId {s : String} (h : isSafeId s = true) : Verbatim s := by
  have hall : ∀ c ∈ s.toList, (c.isAlphanum || "_.-".toList.contains c) = true := by
    rw [isSafeId, isSafeUser, matchesHeadTail, Text.chars_eq] at h
    match hs : s.toList with
    | [] => simp
    | c :: cs =>
      rw [hs, Bool.and_eq_true, List.all_eq_true] at h
      refine List.forall_mem_cons.2 ⟨?_, h.2⟩
      rcases Bool.or_eq_true _ _ ▸ h.1 with halpha | hscore
      · rw [Char.isAlphanum, halpha]
        rfl
      · rw [beq_iff_eq] at hscore
        subst hscore
        decide
  refine ⟨fun hc => (isSafeId_char (hall _ hc)).1 rfl, fun hc => (isSafeId_char (hall _ hc)).2.1 rfl,
    fun c hc => (isSafeId_char (hall c hc)).2.2.1, Text.strip_eq_self ?_ ?_⟩
  · cases hs : s.toList.head? with
    | none => rfl
    | some c =>
      rw [Option.all_some, (isSafeId_char (hall c (List.mem_of_head? hs))).2.2.2]
      rfl
  · cases hs : s.toList.getLast? with
    | none => rfl
    | some c =>
      rw [Option.all_some, (isSafeId_char (hall c (List.mem_of_getLast? hs))).2.2.2]
      rfl

/-- The target has a row that is the target. -/
theorem exists_target_row {spec : FabricSpec} (hspec : Verbatim (strOption spec.connection))
    {profile : NmProfile} (h : isTarget spec profile = true) {rows : List NmProfile}
    (hrows : readRows spec.role (Text.splitLinesChars (terseLine profile)) = .ok rows) :
    ∃ row ∈ rows, isTarget spec row = true := by
  rw [isTarget, beq_iff_eq] at h
  rw [← h] at hspec
  have hne : profile.name.toList ++ [':'] ≠ [] := by simp
  have hname : ∀ c ∈ profile.name.toList ++ [':'], Text.isLineBreak c = false := by
    intro c hc
    rcases List.mem_append.1 hc with hc | hc
    · exact hspec.unbroken c hc
    · rw [List.mem_singleton.1 hc]
      decide
  -- the first line has the name, up to the first colon
  obtain ⟨line, rest, hlines⟩ := @splitLinesAux_first (profile.name.toList ++ [':']).reverse
    (by simp) (terseField profile.uuid.toList ++ ':' :: (terseField profile.device.toList ++
      ':' :: if profile.active then ['y', 'e', 's'] else ['n', 'o']))
  have hfirst : profile.name.toList ++ ':' :: line ∈ Text.splitLinesChars (terseLine profile) := by
    have hread := splitLinesAux_unbroken hname [] (terseField profile.uuid.toList ++
      ':' :: (terseField profile.device.toList ++
        ':' :: if profile.active then ['y', 'e', 's'] else ['n', 'o']))
    rw [List.append_nil, hlines, List.reverse_reverse, List.append_assoc, List.append_assoc,
      List.singleton_append, List.singleton_append] at hread
    rw [Text.splitLinesChars, terseLine_eq, terseField_plain hspec.colon hspec.backslash, hread]
    exact List.mem_cons_self
  obtain ⟨row, hrow, hread⟩ := exists_row hrows hfirst (by simp)
  refine ⟨row, hrow, ?_⟩
  obtain ⟨name, uuid, device, active, hfields, rfl⟩ := parseNmLine_ok hread
  have hsplit := Text.splitOn_intercalate ':' [profile.name.toList] (by simp)
    (by simpa using hspec.colon)
  rw [List.intercalate_singleton] at hsplit
  rw [List.splitOn_append_cons_self, hsplit] at hfields
  obtain rfl := (List.cons.inj hfields).1
  rw [isTarget, beq_iff_eq, String.ofList_toList, hspec.stripped, h]

/-- The profile that is active on the interface has a row that is. -/
theorem exists_active_row {spec : FabricSpec} (hspec : Verbatim spec.interface)
    {profile : NmProfile} (h : isActive spec profile = true) {rows : List NmProfile}
    (hrows : readRows spec.role (Text.splitLinesChars (terseLine profile)) = .ok rows) :
    ∃ row ∈ rows, isActive spec row = true := by
  rw [isActive, Bool.and_eq_true, beq_iff_eq] at h
  obtain ⟨hactive, hdevice⟩ := h
  have hend : ∀ c ∈ ':' :: (spec.interface.toList ++ [':', 'y', 'e', 's']),
      Text.isLineBreak c = false := by
    intro c hc
    simp only [List.mem_cons, List.mem_append, List.not_mem_nil, or_false] at hc
    rcases hc with rfl | hc | rfl | rfl | rfl | rfl
    · decide
    · exact hspec.unbroken c hc
    all_goals decide
  -- the last line has the device and the flag, from the last colon but one
  obtain ⟨init, line, hlines, -⟩ := splitLinesAux_last hend (by simp) []
    (terseField profile.name.toList ++ ':' :: terseField profile.uuid.toList)
  have hlast : line ++ ':' :: (spec.interface.toList ++ ':' :: ['y', 'e', 's']) ∈
      Text.splitLinesChars (terseLine profile) := by
    have hline : terseLine profile = terseField profile.name.toList ++ ':' ::
        terseField profile.uuid.toList ++ ':' :: (spec.interface.toList ++ [':', 'y', 'e', 's']) := by
      rw [terseLine_eq, hdevice, terseField_plain hspec.colon hspec.backslash, if_pos hactive]
      simp
    rw [Text.splitLinesChars, hline, hlines]
    exact List.mem_append_right _ (List.mem_singleton_self _)
  obtain ⟨row, hrow, hread⟩ := exists_row hrows hlast (by simp)
  refine ⟨row, hrow, ?_⟩
  obtain ⟨name, uuid, device, active, hfields, rfl⟩ := parseNmLine_ok hread
  have hsplit := Text.splitOn_intercalate ':' [spec.interface.toList] (by simp)
    (by simpa using hspec.colon)
  rw [List.intercalate_singleton] at hsplit
  rw [List.splitOn_append_cons_self, List.splitOn_append_cons_self, hsplit] at hfields
  have hflag : ['y', 'e', 's'].splitOn ':' = [['y', 'e', 's']] := by decide
  rw [hflag] at hfields
  have htail := congrArg List.reverse hfields
  simp only [List.reverse_append, List.reverse_cons, List.reverse_nil, List.nil_append,
    List.cons_append, List.cons.injEq] at htail
  obtain ⟨rfl, rfl, -⟩ := htail
  have hyes : ["yes", "true", "activated"].contains
      (Text.lower (Text.strip (String.ofList ['y', 'e', 's']))) = true := by decide
  rw [isActive, Bool.and_eq_true, beq_iff_eq, String.ofList_toList]
  exact ⟨hyes, hspec.stripped⟩

/-! ### One row at most -/

section OneRow

variable {α : Type} {q : α → Bool} {xs : List α} {rows : α → List α}

/-- Of a list with one element at most, a member is the first. -/
theorem head?_of_mem {a : α} (hone : xs.length ≤ 1) (ha : a ∈ xs) : xs.head? = some a := by
  match xs, hone, ha with
  | [_], _, ha => rw [List.mem_singleton.1 ha]; rfl

/-- Of two rows that count there is only one. -/
theorem eq_of_one_row (hone : ((xs.flatMap rows).filter q).length ≤ 1) {x y a b : α} (hx : x ∈ xs)
    (hy : y ∈ xs) (ha : a ∈ rows x) (hb : b ∈ rows y) (hqa : q a = true) (hqb : q b = true) :
    x = y ∧ a = b := by
  have hfirst : ∀ {x : α} {xs : List α} {a b : α},
      ((rows x).filter q ++ (xs.flatMap rows).filter q).length ≤ 1 →
      a ∈ (rows x).filter q → b ∉ (xs.flatMap rows).filter q := by
    intro x xs a b hlength ha hb
    have hx := List.length_pos_of_mem ha
    have hxs := List.length_pos_of_mem hb
    rw [List.length_append] at hlength
    omega
  induction xs with
  | nil => exact absurd hx List.not_mem_nil
  | cons z xs ih =>
    have hmem : ∀ {x a : α}, x ∈ xs → a ∈ rows x → q a = true →
        a ∈ (xs.flatMap rows).filter q :=
      fun hx ha hqa => List.mem_filter.2 ⟨List.mem_flatMap.2 ⟨_, hx, ha⟩, hqa⟩
    rw [List.flatMap_cons, List.filter_append] at hone
    rcases List.mem_cons.1 hx with rfl | hx' <;> rcases List.mem_cons.1 hy with rfl | hy'
    · refine ⟨rfl, ?_⟩
      rw [List.length_append] at hone
      have hheadA := head?_of_mem (by omega) (List.mem_filter.2 ⟨ha, hqa⟩)
      have hheadB := head?_of_mem (by omega) (List.mem_filter.2 ⟨hb, hqb⟩)
      exact Option.some.inj (hheadA.symm.trans hheadB)
    · exact absurd (hmem hy' hb hqb) (hfirst hone (List.mem_filter.2 ⟨ha, hqa⟩))
    · exact absurd (hmem hx' ha hqa) (hfirst hone (List.mem_filter.2 ⟨hb, hqb⟩))
    · rw [List.length_append] at hone
      exact ih (by omega) hx' hy'

/-- If every row that counts is its item, the first item that counts is the first such row. -/
theorem find?_eq_head? (hone : ((xs.flatMap rows).filter q).length ≤ 1)
    (hseen : ∀ x ∈ xs, q x = true → ∃ a ∈ rows x, q a = true)
    (hself : ∀ x ∈ xs, ∀ a ∈ rows x, q a = true → a = x) :
    xs.find? q = ((xs.flatMap rows).filter q).head? := by
  cases hfind : xs.find? q with
  | none =>
    have hnil : (xs.flatMap rows).filter q = [] := by
      refine List.filter_eq_nil_iff.2 fun a ha hqa => ?_
      obtain ⟨x, hx, ha⟩ := List.mem_flatMap.1 ha
      obtain rfl := hself x hx a ha hqa
      exact List.find?_eq_none.1 hfind a hx hqa
    rw [hnil]
    rfl
  | some x =>
    have hx := List.mem_of_find?_eq_some hfind
    obtain ⟨a, ha, hqa⟩ := hseen x hx (List.find?_some hfind)
    obtain rfl := hself x hx a ha hqa
    have hmem : a ∈ (xs.flatMap rows).filter q :=
      List.mem_filter.2 ⟨List.mem_flatMap.2 ⟨a, hx, ha⟩, hqa⟩
    exact (head?_of_mem hone hmem).symm

/-- Every item that counts has a row that does. -/
theorem length_filter_le (hseen : ∀ x ∈ xs, q x = true → ∃ a ∈ rows x, q a = true) :
    (xs.filter q).length ≤ ((xs.flatMap rows).filter q).length := by
  induction xs with
  | nil => exact Nat.le_refl _
  | cons x xs ih =>
    obtain ⟨hx, hxs⟩ := List.forall_mem_cons.1 hseen
    rw [List.flatMap_cons, List.filter_append, List.length_append, List.filter_cons]
    split_ifs with hq
    · obtain ⟨a, ha, hqa⟩ := hx hq
      have hpos := List.length_pos_of_mem (List.mem_filter.2 ⟨ha, hqa⟩)
      rw [List.length_cons]
      have hrest := ih hxs
      omega
    · exact (ih hxs).trans (Nat.le_add_left _ _)

end OneRow

/-! ### Reading the table -/

variable {spec : FabricSpec} {profiles : List NmProfile} {state : NmState}

/-- What is known of a table that is accepted. -/
structure Accepts (spec : FabricSpec) (profiles : List NmProfile) (state : NmState) : Prop where
  readable : ∀ profile ∈ profiles, readRows spec.role
    (Text.splitLinesChars (terseLine profile)) = .ok (rowsOf spec.role profile)
  one_target : ((profiles.flatMap (rowsOf spec.role)).filter (isTarget spec)).length ≤ 1
  one_active : ((profiles.flatMap (rowsOf spec.role)).filter (isActive spec)).length ≤ 1
  state_eq : nmStateOf spec (profiles.flatMap (rowsOf spec.role)) = .ok state

theorem accepts_of_ok (h : parseNmConnectionState (terse profiles) spec = .ok state) :
    Accepts spec profiles state := by
  obtain ⟨rows, hrows, h⟩ := except_bind_eq_ok.1 h
  obtain ⟨rfl, hreadable⟩ := rows_of_terse hrows
  refine ⟨hreadable, ?_, ?_, h⟩
  · obtain ⟨_, htarget, -⟩ := except_bind_eq_ok.1 h
    rw [fabricFail, failWith_eq_ok, decide_eq_false_iff_not, not_lt] at htarget
    exact htarget
  · obtain ⟨_, -, h⟩ := except_bind_eq_ok.1 h
    obtain ⟨_, hactive, -⟩ := except_bind_eq_ok.1 h
    rw [fabricFail, failWith_eq_ok, decide_eq_false_iff_not, not_lt] at hactive
    exact hactive

namespace Accepts

variable (h : Accepts spec profiles state)

include h

/-- The state is that of the first row of each kind. -/
theorem fields : state.targetExisted =
      ((profiles.flatMap (rowsOf spec.role)).filter (isTarget spec)).head?.isSome ∧
    state.targetUuid =
      ((profiles.flatMap (rowsOf spec.role)).filter (isTarget spec)).head?.map NmProfile.uuid ∧
    state.targetDevice =
      ((profiles.flatMap (rowsOf spec.role)).filter (isTarget spec)).head?.map NmProfile.device ∧
    state.targetActive = (((profiles.flatMap (rowsOf spec.role)).filter
      (isTarget spec)).head?.map NmProfile.active).getD false ∧
    state.activeConnection =
      ((profiles.flatMap (rowsOf spec.role)).filter (isActive spec)).head?.map NmProfile.name ∧
    state.activeUuid =
      ((profiles.flatMap (rowsOf spec.role)).filter (isActive spec)).head?.map NmProfile.uuid := by
  obtain ⟨_, -, heq⟩ := except_bind_eq_ok.1 h.state_eq
  obtain ⟨_, -, heq⟩ := except_bind_eq_ok.1 heq
  obtain rfl := Except.ok.inj heq
  exact ⟨rfl, rfl, rfl, rfl, rfl, rfl⟩

theorem mem_rowsOf {profile : NmProfile} (hprofile : profile ∈ profiles) (row : NmProfile) :
    row ∈ rowsOf spec.role profile ↔ ∃ line ∈ Text.splitLinesChars (terseLine profile),
      parseNmLine spec.role (String.ofList line) = .ok row :=
  mem_readRows (h.readable profile hprofile) row

theorem concerned_iff {profile : NmProfile} (hprofile : profile ∈ profiles) :
    Concerned spec profile ↔ ∃ row ∈ rowsOf spec.role profile,
      isTarget spec row = true ∨ isActive spec row = true := by
  constructor
  · rintro ⟨line, hline, row, hread, hrow⟩
    exact ⟨row, (h.mem_rowsOf hprofile row).2 ⟨line, hline, hread⟩, hrow⟩
  · rintro ⟨row, hmem, hrow⟩
    obtain ⟨line, hline, hread⟩ := (h.mem_rowsOf hprofile row).1 hmem
    exact ⟨line, hline, row, hread, hrow⟩

/-- A row with the fields of its profile shows that they are shown as they are. -/
theorem verbatim {profile row : NmProfile} (hprofile : profile ∈ profiles)
    (hrow : row ∈ rowsOf spec.role profile) (hname : row.name = profile.name)
    (huuid : row.uuid = profile.uuid) (hdevice : row.device = profile.device) :
    VerbatimProfile profile := by
  obtain ⟨line, hline, hread⟩ := (h.mem_rowsOf hprofile row).1 hrow
  exact verbatim_of_row hline hread hname huuid hdevice

/-- The profiles that matter are shown as they are, so the truth is read. -/
theorem readBack (htarget : Verbatim (strOption spec.connection))
    (hinterface : Verbatim spec.interface)
    (hverbatim : ∀ profile ∈ profiles, Concerned spec profile → VerbatimProfile profile) :
    ReadBack spec profiles state := by
  have hself : ∀ profile ∈ profiles, ∀ row ∈ rowsOf spec.role profile,
      (isTarget spec row = true ∨ isActive spec row = true) → row = profile := by
    intro profile hprofile row hmem hrow
    obtain ⟨line, hline, hread⟩ := (h.mem_rowsOf hprofile row).1 hmem
    exact rows_of_verbatim (hverbatim profile hprofile ⟨line, hline, row, hread, hrow⟩) hline hread
  have htargets := find?_eq_head? h.one_target
    (fun profile hprofile hq => exists_target_row htarget hq (h.readable profile hprofile))
    (fun profile hprofile row hrow hq => hself profile hprofile row hrow (.inl hq))
  have hactives := find?_eq_head? h.one_active
    (fun profile hprofile hq => exists_active_row hinterface hq (h.readable profile hprofile))
    (fun profile hprofile row hrow hq => hself profile hprofile row hrow (.inr hq))
  obtain ⟨h₁, h₂, h₃, h₄, h₅, h₆⟩ := h.fields
  rw [← htargets] at h₁ h₂ h₃ h₄
  rw [← hactives] at h₅ h₆
  exact ⟨h₁, h₂, h₃, h₄, h₅, h₆⟩

/-- If the truth is read, the profiles that matter are shown as they are. -/
theorem verbatim_of_readBack (htarget : Verbatim (strOption spec.connection))
    (hinterface : Verbatim spec.interface) (hread : ReadBack spec profiles state) :
    ∀ profile ∈ profiles, Concerned spec profile → VerbatimProfile profile := by
  intro profile hprofile hconcerned
  obtain ⟨row, hrow, hq⟩ := (h.concerned_iff hprofile).1 hconcerned
  obtain ⟨h₁, h₂, h₃, -, h₅, h₆⟩ := h.fields
  rcases hq with hq | hq
  · -- the row is taken for the target, so there is one, and it is this profile
    have hhead := head?_of_mem h.one_target
      (List.mem_filter.2 ⟨List.mem_flatMap.2 ⟨profile, hprofile, hrow⟩, hq⟩)
    rw [hhead] at h₁ h₂ h₃
    obtain ⟨other, hfind⟩ := Option.isSome_iff_exists.1 (hread.target_existed.symm.trans h₁)
    have hother := List.mem_of_find?_eq_some hfind
    have hqother := List.find?_some hfind
    obtain ⟨row', hrow', hq'⟩ := exists_target_row htarget hqother (h.readable other hother)
    obtain ⟨rfl, rfl⟩ := eq_of_one_row h.one_target hprofile hother hrow hrow' hq hq'
    have huuid := hread.target_uuid.symm.trans h₂
    have hdevice := hread.target_device.symm.trans h₃
    rw [hfind] at huuid hdevice
    rw [isTarget, beq_iff_eq] at hq hqother
    exact h.verbatim hprofile hrow (hq.trans hqother.symm) (Option.some.inj huuid).symm
      (Option.some.inj hdevice).symm
  · -- the row is taken for the active profile, so there is one, and it is this profile
    have hhead := head?_of_mem h.one_active
      (List.mem_filter.2 ⟨List.mem_flatMap.2 ⟨profile, hprofile, hrow⟩, hq⟩)
    rw [hhead] at h₅ h₆
    have hname := hread.active_connection.symm.trans h₅
    have huuid := hread.active_uuid.symm.trans h₆
    obtain ⟨other, hfind, -⟩ := Option.map_eq_some_iff.1 hname
    have hother := List.mem_of_find?_eq_some hfind
    have hqother := List.find?_some hfind
    obtain ⟨row', hrow', hq'⟩ := exists_active_row hinterface hqother (h.readable other hother)
    obtain ⟨rfl, rfl⟩ := eq_of_one_row h.one_active hprofile hother hrow hrow' hq hq'
    rw [hfind] at hname huuid
    rw [isActive, Bool.and_eq_true, beq_iff_eq] at hq hqother
    exact h.verbatim hprofile hrow (Option.some.inj hname).symm (Option.some.inj huuid).symm
      (hq.2.trans hqother.2.symm)

/-- A table that is accepted is not ambiguous. -/
theorem not_ambiguous (htarget : Verbatim (strOption spec.connection))
    (hinterface : Verbatim spec.interface) : ¬Ambiguous spec profiles := by
  have htargets := length_filter_le fun profile hprofile hq =>
    exists_target_row htarget hq (h.readable profile hprofile)
  have hactives := length_filter_le fun profile hprofile hq =>
    exists_active_row hinterface hq (h.readable profile hprofile)
  rintro (hambiguous | hambiguous)
  · exact absurd (htargets.trans h.one_target) (Nat.not_le_of_lt hambiguous)
  · exact absurd (hactives.trans h.one_active) (Nat.not_le_of_lt hambiguous)

end Accepts

/-- **What is read back is the truth**, and an ambiguous table is refused, if and only if in a
table that is accepted every profile that matters is shown as it is. -/
theorem readBack_iff (htarget : isSafeId (strOption spec.connection) = true)
    (hinterface : Verbatim spec.interface) (profiles : List NmProfile) :
    ((∀ state, parseNmConnectionState (terse profiles) spec = .ok state →
        ReadBack spec profiles state) ∧
      (Ambiguous spec profiles →
        ∀ state, parseNmConnectionState (terse profiles) spec ≠ .ok state)) ↔
      ((∃ state, parseNmConnectionState (terse profiles) spec = .ok state) →
        ∀ profile ∈ profiles, Concerned spec profile → VerbatimProfile profile) := by
  have htarget := verbatim_of_isSafeId htarget
  constructor
  · rintro ⟨hread, -⟩ ⟨state, hstate⟩
    exact (accepts_of_ok hstate).verbatim_of_readBack htarget hinterface (hread state hstate)
  · intro hverbatim
    refine ⟨fun state hstate => ?_, fun hambiguous state hstate => ?_⟩
    · exact (accepts_of_ok hstate).readBack htarget hinterface (hverbatim ⟨state, hstate⟩)
    · exact (accepts_of_ok hstate).not_ambiguous htarget hinterface hambiguous

/-- A head that wants the connection `f1-candidate-head`. -/
def candidateSpec : FabricSpec :=
  ⟨.f1, .head, f1Iface, f1Hca, "192.168.100.10", some "192.168.100.11", some "192.168.100.10/24",
    some "f1-candidate-head", none, f1Mtu⟩

theorem verbatim_f1Iface : Verbatim f1Iface :=
  ⟨by decide, by decide, unbroken_of_all (by decide), by decide⟩

/-- A table with the profile that is active and the one that is wanted. -/
def candidateProfiles : List NmProfile :=
  [⟨"f1-head", "head-uuid", f1Iface, true⟩, ⟨"f1-candidate-head", "candidate-uuid", "", false⟩]

/-- The table of a head. -/
theorem candidate_readBack :
    ((∀ state, parseNmConnectionState (terse candidateProfiles) candidateSpec = .ok state →
        ReadBack candidateSpec candidateProfiles state) ∧
      (Ambiguous candidateSpec candidateProfiles → ∀ state,
        parseNmConnectionState (terse candidateProfiles) candidateSpec ≠ .ok state)) ↔
      ((∃ state, parseNmConnectionState (terse candidateProfiles) candidateSpec = .ok state) →
        ∀ profile ∈ candidateProfiles, Concerned candidateSpec profile →
          VerbatimProfile profile) :=
  readBack_iff (by decide) verbatim_f1Iface candidateProfiles

/-- A table with one profile, which is active. -/
def labProfiles : List NmProfile :=
  [⟨"corp\\lab", "corp-uuid", f1Iface, true⟩]

/-- **A backslash is doubled**: the active profile is captured under a name that no profile
has. -/
theorem doubled_backslash : ∃ state,
    parseNmConnectionState (terse labProfiles) candidateSpec = .ok state ∧
      state.activeConnection = some "corp\\\\lab" ∧ ¬ReadBack candidateSpec labProfiles state := by
  have hread : (parseNmConnectionState (terse labProfiles) candidateSpec).toOption.any
      (fun state => state.activeConnection == some "corp\\\\lab") = true := by decide
  cases hstate : parseNmConnectionState (terse labProfiles) candidateSpec with
  | error e =>
    rw [hstate] at hread
    cases hread
  | ok state =>
    rw [hstate] at hread
    have hname : state.activeConnection = some "corp\\\\lab" := beq_iff_eq.1 hread
    refine ⟨state, rfl, hname, fun htruth => ?_⟩
    have hactive := htruth.active_connection
    rw [hname] at hactive
    exact absurd hactive (by decide)

end DgxSpark
