import DgxSpark.Deploy.EnvFile

/-!
# The grammar of an env file

What `parse_env_file` accepts, said without the parser: every line is blank, a comment or a
record (`DgxSpark.EnvLines`), and no key has two records. The parser accepts these texts and no
others, and returns their records (`DgxSpark.parseEnvFile_iff`).

Writing is the other way round. A file with a record for each key, in any order and with
anything that is blank or a comment in between, is read back as the mapping that was written
(`DgxSpark.readsBack`). This asks one thing of the values that the parser does not: the rules
for values say nothing of the separators of Unicode, at which `splitlines` ends a line all the
same.
-/

namespace DgxSpark

variable {rules : CaseRules}

/-! ### The grammar -/

/-- A value that a key may have: no white space around it, no control character, no shell
syntax, no placeholder; empty only for some keys. -/
structure Admissible (rules : CaseRules) (key value : String) : Prop where
  stripped : Text.strip value = value
  safe : value ≠ "" → isSafeValue value = true
  optional : value = "" → key ∈ optionalEmptyKeys
  noShell : hasShellSyntax value = false
  noPlaceholder : rules.hasPlaceholder none value.toList = false

/-- The line of a record, which begins with its key. -/
def recordText (p : String × String) : String :=
  String.ofList (recordLine p)

/-- A blank line or a comment. -/
def IsFiller (line : String) : Prop :=
  skipsLine (Text.strip line) = true

instance : DecidablePred IsFiller := fun line =>
  inferInstanceAs (Decidable (skipsLine (Text.strip line) = true))

/-- The lines of a file and the records on them, in order. -/
inductive EnvLines (rules : CaseRules) : List String → EnvValues → Prop where
  | nil : EnvLines rules [] []
  | filler {line : String} {lines : List String} {values : EnvValues} (h : IsFiller line)
      (rest : EnvLines rules lines values) : EnvLines rules (line :: lines) values
  | record {key value : String} {lines : List String} {values : EnvValues}
      (allowed : key ∈ allowedValueKeys) (admissible : Admissible rules key value)
      (rest : EnvLines rules lines values) :
      EnvLines rules (recordText (key, value) :: lines) ((key, value) :: values)

/-- The keys of the list are keys. -/
theorem isEnvKey_of_allowed {key : String} (h : key ∈ allowedValueKeys) : isEnvKey key = true := by
  have hall : allowedValueKeys.all isEnvKey = true := by decide
  exact List.all_eq_true.1 hall key h

/-- A record is cut at the sign after its key. -/
theorem cut_recordText {key : String} (h : isEnvKey key = true) (value : String) :
    Text.cut '=' (recordText (key, value)) = some (key, value) := by
  have hsep : '=' ∉ key.toList := fun hmem => ((range_of_isEnvKey h).2 '=' hmem).2.2 rfl
  rw [Text.cut, recordText, Text.chars_eq, String.toList_ofList, recordLine,
    Text.cutAt_append hsep]
  simp only [Option.map_some, String.ofList_toList]

/-- A record is neither blank nor a comment. -/
theorem not_isFiller_recordText {key value : String} (h : isEnvKey key = true)
    (hvalue : Text.strip value = value) : ¬IsFiller (recordText (key, value)) := by
  obtain ⟨hne, hrange⟩ := range_of_isEnvKey h
  obtain ⟨c, cs, hcs⟩ := List.exists_cons_of_ne_nil hne
  have hc := (hrange c (by rw [hcs]; exact List.mem_cons_self)).1
  have htext : (recordText (key, value)).toList = c :: (cs ++ '=' :: value.toList) := by
    rw [recordText, String.toList_ofList, recordLine, hcs, List.cons_append]
  intro hskip
  rw [IsFiller, strip_record (cut_recordText h value) h hvalue, skipsLine, Text.chars_eq, htext,
    Bool.or_eq_true, decide_eq_true_eq, decide_eq_true_eq] at hskip
  rcases hskip with hskip | hskip
  · rw [hskip] at htext
    cases htext
  · rw [List.head?_cons] at hskip
    rw [Option.some.inj hskip] at hc
    exact absurd hc (by decide)

/-- An admissible record is what the parser takes, after values without its key. -/
theorem envRecord_iff {values : EnvValues} {line key value : String} :
    EnvRecord rules values line key value ↔ line = recordText (key, value) ∧
      key ∈ allowedValueKeys ∧ Admissible rules key value ∧ key ∉ values.map Prod.fst := by
  constructor
  · intro h
    refine ⟨?_, h.allowed, ⟨h.stripped, fun hne => h.safe.resolve_right hne, h.optional, h.noShell,
      ?_⟩, h.fresh⟩
    · rw [recordText, recordLine, ← String.toList_inj, String.toList_ofList]
      exact Text.cut_eq_some h.cut
    · rw [← Text.chars_eq]
      exact h.noPlaceholder
  · rintro ⟨rfl, hallowed, hvalue, hfresh⟩
    have hkey := isEnvKey_of_allowed hallowed
    refine ⟨Bool.eq_false_iff.2 (not_isFiller_recordText hkey hvalue.stripped),
      cut_recordText hkey value, hkey, hallowed, hfresh, hvalue.stripped, ?_, hvalue.optional,
      hvalue.noShell, ?_⟩
    · by_cases hempty : value = ""
      · exact .inr hempty
      · exact .inl (hvalue.safe hempty)
    · rw [Text.chars_eq]
      exact hvalue.noPlaceholder

/-- One line after the values of the lines before it. -/
theorem parseEnvFileLine_iff {values values' : EnvValues} {number : Nat} {line : String} :
    parseEnvFileLine rules values number line = .ok values' ↔
      (IsFiller line ∧ values' = values) ∨
        ∃ key value, EnvRecord rules values line key value ∧ values' = values ++ [(key, value)] := by
  constructor
  · exact parseEnvFileLine_ok
  · rintro (⟨hskip, rfl⟩ | ⟨key, value, hrecord, rfl⟩)
    · exact if_pos hskip
    · exact hrecord.parseEnvFileLine_eq number

/-- The lines of a file after the values of the lines before them. -/
theorem readLines_iff {before values : EnvValues} {number : Nat} {lines : List String}
    (hnodup : (before.map Prod.fst).Nodup) :
    readLines (parseEnvFileLine rules) before number lines = .ok values ↔
      ∃ new, values = before ++ new ∧ EnvLines rules lines new ∧ (values.map Prod.fst).Nodup := by
  induction lines generalizing before number with
  | nil =>
    constructor
    · intro h
      obtain rfl := Except.ok.inj h
      exact ⟨[], (List.append_nil before).symm, .nil, hnodup⟩
    · rintro ⟨new, rfl, hlines, -⟩
      cases hlines
      rw [List.append_nil]
      rfl
  | cons line lines ih =>
    rw [readLines, except_bind_eq_ok]
    constructor
    · rintro ⟨next, hline, hrest⟩
      rcases parseEnvFileLine_iff.1 hline with ⟨hskip, rfl⟩ | ⟨key, value, hrecord, rfl⟩
      · obtain ⟨new, rfl, hlines, hkeys⟩ := (ih hnodup).1 hrest
        exact ⟨new, rfl, .filler hskip hlines, hkeys⟩
      · obtain ⟨rfl, hallowed, hvalue, hfresh⟩ := envRecord_iff.1 hrecord
        have hnext : ((before ++ [(key, value)]).map Prod.fst).Nodup := by
          rw [List.map_append, List.map_singleton, ← List.concat_eq_append]
          exact hnodup.concat hfresh
        obtain ⟨new, rfl, hlines, hkeys⟩ := (ih hnext).1 hrest
        exact ⟨(key, value) :: new, by simp, .record hallowed hvalue hlines, hkeys⟩
    · rintro ⟨new, rfl, hlines, hkeys⟩
      cases hlines with
      | filler hskip hlines =>
        exact ⟨before, parseEnvFileLine_iff.2 (.inl ⟨hskip, rfl⟩),
          (ih hnodup).2 ⟨new, rfl, hlines, hkeys⟩⟩
      | @record key value _ new hallowed hvalue hlines =>
        have happend : before ++ (key, value) :: new = before ++ [(key, value)] ++ new := by simp
        rw [happend] at hkeys
        have hnext : ((before ++ [(key, value)]).map Prod.fst).Nodup := by
          rw [List.map_append] at hkeys
          exact hkeys.of_append_left
        have hfresh : key ∉ before.map Prod.fst := by
          rw [List.map_append, List.map_singleton] at hnext
          exact fun hmem => List.disjoint_of_nodup_append hnext hmem List.mem_cons_self
        exact ⟨_, parseEnvFileLine_iff.2 (.inr ⟨key, value,
          envRecord_iff.2 ⟨rfl, hallowed, hvalue, hfresh⟩, rfl⟩),
          (ih hnext).2 ⟨new, happend, hlines, by rwa [happend]⟩⟩

/-- **What `parse_env_file` accepts**, and what it returns. -/
theorem parseEnvFile_iff {path text : String} {isFile : Bool} {values : EnvValues} :
    parseEnvFile rules ⟨path, isFile, some text⟩ = .ok values ↔
      EnvLines rules (Text.splitLines text) values ∧ (values.map Prod.fst).Nodup := by
  rw [parseEnvFile]
  dsimp only
  have hempty : (([] : EnvValues).map Prod.fst).Nodup := List.nodup_nil
  rw [readLines_iff hempty]
  constructor
  · rintro ⟨new, rfl, hlines, hkeys⟩
    exact ⟨hlines, hkeys⟩
  · rintro ⟨hlines, hkeys⟩
    exact ⟨values, rfl, hlines, hkeys⟩

/-! ### Writing a file -/

/-- No character of a line ends it. -/
def Unbroken (line : String) : Prop :=
  ∀ c ∈ line.toList, Text.isLineBreak c = false

/-- The text of some lines. -/
def writeLines (lines : List String) : String :=
  String.ofList ((lines.map String.toList).flatMap fun line => line ++ ['\n'])

/-- Lines without a break are read as they were written. -/
theorem splitLines_writeLines {lines : List String} (h : ∀ line ∈ lines, Unbroken line) :
    Text.splitLines (writeLines lines) = lines := by
  have hunbroken : ∀ l ∈ lines.map String.toList, ∀ c ∈ l, Text.isLineBreak c = false := by
    intro l hl
    obtain ⟨line, hline, rfl⟩ := List.mem_map.1 hl
    exact h line hline
  rw [Text.splitLines, writeLines, Text.chars_eq, String.toList_ofList,
    Text.splitLines_flatMap _ hunbroken, List.map_map]
  simp [Function.comp_def]

/-- The lines of a file that holds some records: apart from them, blank lines and comments. -/
def Holds (lines : List String) (values : EnvValues) : Prop :=
  (lines.filter fun line => ¬IsFiller line) = values.map recordText

/-- Such lines are in the grammar. -/
theorem envLines_of_holds {lines : List String} {values : EnvValues} (h : Holds lines values)
    (hvalues : ∀ p ∈ values, p.1 ∈ allowedValueKeys ∧ Admissible rules p.1 p.2) :
    EnvLines rules lines values := by
  induction lines generalizing values with
  | nil =>
    obtain rfl := List.map_eq_nil_iff.1 (Eq.symm h)
    exact .nil
  | cons line lines ih =>
    by_cases hskip : IsFiller line
    · rw [Holds, List.filter_cons_of_neg (by simpa using hskip)] at h
      exact .filler hskip (ih h hvalues)
    · rw [Holds, List.filter_cons_of_pos (by simpa using hskip)] at h
      obtain ⟨⟨key, value⟩, rest, rfl, rfl, hrest⟩ := List.map_eq_cons_iff.1 h.symm
      obtain ⟨hallowed, hvalue⟩ := hvalues _ List.mem_cons_self
      exact .record hallowed hvalue
        (ih hrest.symm fun p hp => hvalues p (List.mem_cons_of_mem _ hp))

/-- A record whose value has no break has none. -/
theorem unbroken_recordText {key value : String} (hkey : isEnvKey key = true)
    (hvalue : Unbroken value) : Unbroken (recordText (key, value)) := by
  intro c hc
  rw [recordText, String.toList_ofList, recordLine, List.mem_append, List.mem_cons] at hc
  rcases hc with hc | rfl | hc
  · have hrange := (range_of_isEnvKey hkey).2 c hc
    simp only [Text.isLineBreak, Bool.or_eq_false_iff, Bool.and_eq_false_iff,
      decide_eq_false_iff_not, beq_eq_false_iff_ne]
    omega
  · decide
  · exact hvalue c hc

/-- A mapping can be written: allowed keys, each with one value that it may have. -/
structure Writable (rules : CaseRules) (mapping : EnvValues) : Prop where
  nodup : (mapping.map Prod.fst).Nodup
  allowed : ∀ p ∈ mapping, p.1 ∈ allowedValueKeys
  admissible : ∀ p ∈ mapping, Admissible rules p.1 p.2

/-- Reading back a mapping from any file that holds its records in any order. -/
def ReadsBack (rules : CaseRules) (mapping : EnvValues) : Prop :=
  ∀ (order : EnvValues) (lines : List String) (path : String) (isFile : Bool),
    order.Perm mapping → Holds lines order →
    (∀ line ∈ lines, IsFiller line → Unbroken line) →
    parseEnvFile rules ⟨path, isFile, some (writeLines lines)⟩ = .ok order ∧
      ∀ key, order.value key = mapping.value key

theorem lookup_eq_of_perm {order mapping : EnvValues} (h : order.Perm mapping)
    (hnodup : (mapping.map Prod.fst).Nodup) (key : String) :
    order.lookup key = mapping.lookup key := by
  have horder : (order.map Prod.fst).Nodup := (h.map Prod.fst).nodup_iff.2 hnodup
  refine Option.ext fun value => ?_
  rw [Json.lookup_eq_some_iff horder, Json.lookup_eq_some_iff hnodup, h.mem_iff]

/-- **What is written reads back**, when no value has a character that ends a line. -/
theorem readsBack {mapping : EnvValues} (h : Writable rules mapping)
    (hunbroken : ∀ p ∈ mapping, Unbroken p.2) : ReadsBack rules mapping := by
  intro order lines path isFile hperm hholds hfillers
  have hlines : ∀ line ∈ lines, Unbroken line := by
    intro line hline
    by_cases hskip : IsFiller line
    · exact hfillers line hline hskip
    · have hrecord : line ∈ order.map recordText := by
        rw [← hholds, List.mem_filter]
        exact ⟨hline, by simpa using hskip⟩
      obtain ⟨p, hp, rfl⟩ := List.mem_map.1 hrecord
      have hmapping := hperm.mem_iff.1 hp
      exact unbroken_recordText (isEnvKey_of_allowed (h.allowed p hmapping)) (hunbroken p hmapping)
  refine ⟨parseEnvFile_iff.2 ⟨?_, (hperm.map Prod.fst).nodup_iff.2 h.nodup⟩, fun key => ?_⟩
  · rw [splitLines_writeLines hlines]
    exact envLines_of_holds hholds fun p hp =>
      ⟨h.allowed p (hperm.mem_iff.1 hp), h.admissible p (hperm.mem_iff.1 hp)⟩
  · rw [EnvValues.value, EnvValues.value, lookup_eq_of_perm hperm h.nodup]

/-- **The grammar of an env file**: the texts that are accepted, and what is written and read
back. -/
theorem env_file_grammar (rules : CaseRules) :
    (∀ (path text : String) (isFile : Bool) (values : EnvValues),
      parseEnvFile rules ⟨path, isFile, some text⟩ = .ok values ↔
        EnvLines rules (Text.splitLines text) values ∧ (values.map Prod.fst).Nodup) ∧
      ∀ mapping, Writable rules mapping → (∀ p ∈ mapping, Unbroken p.2) →
        ReadsBack rules mapping :=
  ⟨fun _ _ _ _ => parseEnvFile_iff, fun _ h hunbroken => readsBack h hunbroken⟩

/-- A value with the line separator of Unicode in it. -/
def separatedValues : EnvValues :=
  [("REGISTRY", "registry\u2028example")]

theorem writable_separatedValues : Writable asciiRules separatedValues where
  nodup := by simp [separatedValues]
  allowed p hp := by
    obtain rfl := List.mem_singleton.1 hp
    decide
  admissible p hp := by
    obtain rfl := List.mem_singleton.1 hp
    refine ⟨?_, fun _ => ?_, fun hempty => absurd hempty (by decide), ?_, ?_⟩
    all_goals decide +kernel

/-- **A separator ends the line of its value**: what is written is not what is read. -/
theorem separator_not_readBack :
    ¬∀ mapping, Writable asciiRules mapping → ReadsBack asciiRules mapping := by
  intro hall
  have hback := (hall _ writable_separatedValues separatedValues
    (separatedValues.map recordText) "" true (List.Perm.refl _) (by
      rw [Holds]
      decide +kernel) (by
      intro line hline hskip
      obtain rfl := List.mem_singleton.1 hline
      exact absurd hskip (by decide +kernel))).1
  have herror : (parseEnvFile asciiRules
      ⟨"", true, some (writeLines (separatedValues.map recordText))⟩).isOk = false := by
    decide +kernel
  rw [hback] at herror
  cases herror

end DgxSpark
