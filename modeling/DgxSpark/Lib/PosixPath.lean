import DgxSpark.Lib.Text

/-!
# Paths as `PurePosixPath` sees them

A path is a root and a list of parts. Reading one collapses repeated slashes and drops the
`.` components, but leaves `..` alone and keeps a leading pair of slashes apart from a
single one, as POSIX allows.
-/

namespace DgxSpark

/-- A lexical path. -/
structure PosixPath where
  /-- empty for a relative path, one or two slashes otherwise -/
  root : String
  parts : List String
deriving DecidableEq, Repr

namespace PosixPath

/-- The root of a path text. -/
def rootOf : List Char → String
  | '/' :: '/' :: '/' :: _ => "/"
  | '/' :: '/' :: _ => "//"
  | '/' :: _ => "/"
  | _ => ""

/-- `PurePosixPath(text)`. -/
def parse (s : String) : PosixPath where
  root := rootOf (Text.chars s)
  parts := (Text.splitOn '/' s).filter fun part => part != "" && part != "."

/-- `str(path)`. -/
def text (p : PosixPath) : String :=
  if p.root = "" ∧ p.parts = [] then "." else p.root ++ String.intercalate "/" p.parts

/-- `path / name` for a name that is one component. -/
def child (p : PosixPath) (name : String) : PosixPath :=
  { p with parts := p.parts ++ [name] }

/-- `path.name`. -/
def name (p : PosixPath) : String :=
  p.parts.getLast?.getD ""

/-- `path.parent`. -/
def parent (p : PosixPath) : PosixPath :=
  { p with parts := p.parts.dropLast }

/-! ### The text of a path -/

theorem toList_text_child (p : PosixPath) (name : String) :
    (p.child name).text.toList =
      p.root.toList ++ ['/'].intercalate ((p.parts ++ [name]).map String.toList) := by
  rw [text, if_neg (by simp [child]), child, String.toList_append, String.toList_intercalate]
  rfl

/-- A component of a path as it is read: not empty, no dot, no slash. -/
def CleanPart (part : String) : Prop :=
  part ≠ "" ∧ part ≠ "." ∧ '/' ∉ part.toList

theorem notMem_of_mem_splitOn {α : Type} [BEq α] [LawfulBEq α] {sep : α} {cs f : List α}
    (h : f ∈ cs.splitOn sep) : sep ∉ f := by
  induction cs generalizing f with
  | nil => simp at h; simp [h]
  | cons c cs ih =>
    rw [List.splitOn_cons_eq_if_modifyHead] at h
    split_ifs at h with hc
    · rcases List.mem_cons.1 h with rfl | h
      · exact List.not_mem_nil
      · exact ih h
    · obtain ⟨g, gs, hg⟩ := List.exists_cons_of_ne_nil (List.splitOn_ne_nil sep cs)
      rw [hg] at h ih
      rw [List.modifyHead_cons] at h
      rcases List.mem_cons.1 h with rfl | h
      · intro hmem
        rcases List.mem_cons.1 hmem with rfl | hmem
        · exact hc (by simp)
        · exact ih (by simp) hmem
      · exact ih (List.mem_cons_of_mem _ h)

theorem cleanPart_of_mem_parse {s part : String} (h : part ∈ (parse s).parts) :
    CleanPart part := by
  obtain ⟨hsplit, hclean⟩ := List.mem_filter.1 h
  obtain ⟨component, hcomponent, rfl⟩ := List.mem_map.1 hsplit
  simp only [Bool.and_eq_true, bne_iff_ne, ne_eq] at hclean
  refine ⟨hclean.1, hclean.2, ?_⟩
  rw [String.toList_ofList]
  exact notMem_of_mem_splitOn hcomponent

theorem filter_clean {parts : List String} (h : ∀ part ∈ parts, CleanPart part) :
    (parts.filter fun part => part != "" && part != ".") = parts := by
  rw [List.filter_eq_self]
  intro part hpart
  obtain ⟨h₁, h₂, -⟩ := h part hpart
  simp [h₁, h₂]

/-- The components of joined components. -/
theorem splitOn_parts {parts : List String} (hne : parts ≠ [])
    (h : ∀ part ∈ parts, CleanPart part) :
    (['/'].intercalate (parts.map String.toList)).splitOn '/' = parts.map String.toList := by
  refine Text.splitOn_intercalate '/' _ (by simpa using hne) fun f hf => ?_
  obtain ⟨part, hpart, rfl⟩ := List.mem_map.1 hf
  exact (h part hpart).2.2

/-- **A path with components is read back from its text.** -/
theorem parse_text {p : PosixPath} (hroot : p.root = "" ∨ p.root = "/" ∨ p.root = "//")
    (hne : p.parts ≠ []) (h : ∀ part ∈ p.parts, CleanPart part) : parse p.text = p := by
  obtain ⟨root, parts⟩ := p
  obtain ⟨part, rest, rfl⟩ := List.exists_cons_of_ne_nil hne
  obtain ⟨hempty, -, hslash⟩ := h part (by simp)
  obtain ⟨c, cs, hc⟩ := List.exists_cons_of_ne_nil (fun hnil => hempty (String.toList_inj.1 hnil))
  have hcslash : c ≠ '/' := by
    rintro rfl
    exact hslash (by rw [hc]; simp)
  have hsplit := splitOn_parts (List.cons_ne_nil part rest) h
  obtain ⟨tail, htail⟩ : ∃ tail, ['/'].intercalate ((part :: rest).map String.toList) = c :: tail := by
    cases rest with
    | nil => exact ⟨cs, by simp [hc]⟩
    | cons r rest => exact ⟨cs ++ '/' :: ['/'].intercalate ((r :: rest).map String.toList),
        by simp [hc]⟩
  have htext : (text ⟨root, part :: rest⟩).toList = root.toList ++ c :: tail := by
    rw [text, if_neg (by simp), String.toList_append, String.toList_intercalate, ← htail]
    rfl
  rw [htail] at hsplit
  have hback : ((part :: rest).map String.toList).map String.ofList = part :: rest := by
    simp [List.map_map, Function.comp_def]
  rw [parse, Text.splitOn, Text.chars_eq, htext]
  rcases hroot with rfl | rfl | rfl
  · change PosixPath.mk (rootOf (c :: tail)) ((List.map String.ofList ((c :: tail).splitOn '/')).filter _) = _
    rw [hsplit, hback, filter_clean h]
    simp [rootOf, hcslash]
  · change PosixPath.mk (rootOf ('/' :: c :: tail))
      ((List.map String.ofList ((([] : List Char) ++ '/' :: c :: tail).splitOn '/')).filter _) = _
    rw [List.splitOn_append_cons_self, hsplit, List.map_append, hback, List.filter_append,
      filter_clean h]
    simp [rootOf, hcslash]
  · change PosixPath.mk (rootOf ('/' :: '/' :: c :: tail))
      ((List.map String.ofList ((['/'] ++ '/' :: c :: tail).splitOn '/')).filter _) = _
    have hslashes : ['/'].splitOn '/' = [[], []] := by decide
    rw [List.splitOn_append_cons_self, hsplit, hslashes, List.map_append, hback,
      List.filter_append, filter_clean h]
    simp [rootOf, hcslash]

theorem root_parse (s : String) :
    (parse s).root = "" ∨ (parse s).root = "/" ∨ (parse s).root = "//" := by
  rw [parse]
  unfold rootOf
  split <;> simp

/-! ### One path under two texts -/

/-- **Two texts of one path**: repeated slashes and single dots do not matter. -/
def Same (a b : String) : Prop :=
  (parse a).parts = (parse b).parts

theorem Same.symm {a b : String} (h : Same a b) : Same b a :=
  Eq.symm h

/-- The text of a child ends with its name, after a slash if there is anything before it. -/
theorem text_child_split {p : PosixPath} (hroot : p.root = "" ∨ p.root = "/" ∨ p.root = "//")
    (name : String) :
    ∃ l, (p.child name).text.toList = l ++ name.toList ∧ (l = [] ∨ ∃ l', l = l' ++ ['/']) := by
  rw [toList_text_child]
  have hjoin : ∀ parts : List String, ∃ l, ['/'].intercalate ((parts ++ [name]).map String.toList) =
      l ++ name.toList ∧ (l = [] ∨ ∃ l', l = l' ++ ['/']) := by
    intro parts
    induction parts with
    | nil => exact ⟨[], by simp, .inl rfl⟩
    | cons part parts ih =>
      obtain ⟨l, hl, hend⟩ := ih
      refine ⟨part.toList ++ '/' :: l, ?_, .inr ?_⟩
      · rw [List.cons_append, List.map_cons, List.intercalate_cons_of_ne_nil (by simp), hl]
        simp
      · rcases hend with rfl | ⟨l', rfl⟩
        · exact ⟨_, rfl⟩
        · exact ⟨part.toList ++ '/' :: l', by simp⟩
  obtain ⟨l, hl, hend⟩ := hjoin p.parts
  refine ⟨p.root.toList ++ l, by rw [hl, List.append_assoc], ?_⟩
  rcases hend with rfl | ⟨l', rfl⟩
  · rcases hroot with hroot | hroot | hroot
    · exact .inl (by simp [hroot])
    · exact .inr ⟨[], by simp [hroot]⟩
    · exact .inr ⟨['/'], by simp [hroot]⟩
  · exact .inr ⟨p.root.toList ++ l', by simp⟩

/-- **The last part of a path is its name**, however its text is written. -/
theorem getLast?_parse_child {p : PosixPath}
    (hroot : p.root = "" ∨ p.root = "/" ∨ p.root = "//") {name : String} (h : CleanPart name) :
    (parse (p.child name).text).parts.getLast? = some name := by
  obtain ⟨l, htext, hend⟩ := text_child_split hroot name
  have hname : name.toList.splitOn '/' = [name.toList] := by
    have hclean : ∀ part ∈ [name], CleanPart part := by simpa using h
    simpa using splitOn_parts (by simp) hclean
  obtain ⟨before, hsplit⟩ : ∃ before, (l ++ name.toList).splitOn '/' = before ++ [name.toList] := by
    rcases hend with rfl | ⟨l', rfl⟩
    · exact ⟨[], by rw [List.nil_append, hname, List.nil_append]⟩
    · refine ⟨l'.splitOn '/', ?_⟩
      rw [List.append_assoc, List.singleton_append, List.splitOn_append_cons_self, hname]
  rw [parse, Text.splitOn, Text.chars_eq, htext, hsplit, List.map_append, List.filter_append]
  have hclean : List.filter (fun part => part != "" && part != ".")
      (List.map String.ofList [name.toList]) = [name] := by
    simp [h.1, h.2.1]
  rw [hclean, List.getLast?_append]
  rfl

/-! ### The letters of a path -/

/-- Splitting loses the separator and nothing else. -/
theorem count_splitOn {α : Type} [DecidableEq α] {sep c : α} (h : c ≠ sep) (cs : List α) :
    (cs.splitOn sep).flatten.count c = cs.count c := by
  induction cs with
  | nil => simp
  | cons d cs ih =>
    rw [List.splitOn_cons_eq_if_modifyHead]
    split_ifs with hd
    · obtain rfl : d = sep := by simpa using hd
      rw [List.flatten_cons, List.nil_append, ih, List.count_cons_of_ne (Ne.symm h)]
    · obtain ⟨g, gs, hg⟩ := List.exists_cons_of_ne_nil (List.splitOn_ne_nil sep cs)
      rw [hg, List.flatten_cons, List.count_append] at ih
      rw [hg, List.modifyHead_cons, List.flatten_cons, List.count_append, List.count_cons,
        List.count_cons, ← ih]
      omega

/-- **Reading a path keeps the letters** that are not slashes or dots. -/
theorem count_parse {c : Char} (hslash : c ≠ '/') (hdot : c ≠ '.') (s : String) :
    ((parse s).parts.flatMap String.toList).count c = s.toList.count c := by
  have hfilter : ∀ parts : List String,
      ((parts.filter fun part => part != "" && part != ".").flatMap String.toList).count c =
        (parts.flatMap String.toList).count c := by
    intro parts
    induction parts with
    | nil => rfl
    | cons part parts ih =>
      rw [List.flatMap_cons, List.count_append, ← ih, List.filter_cons]
      split_ifs with hpart
      · rw [List.flatMap_cons, List.count_append]
      · have hempty : part = "" ∨ part = "." := by
          by_contra hne
          simp_all
        rcases hempty with rfl | rfl
        · simp
        · have hone : ".".toList = ['.'] := by decide +kernel
          rw [hone, List.count_cons_of_ne (Ne.symm hdot), List.count_nil, Nat.zero_add]
  rw [parse, hfilter, Text.splitOn, Text.chars_eq, List.flatMap_map]
  simp only [String.toList_ofList]
  rw [List.flatMap_id', count_splitOn hslash]

/-- The text of a path with a name has the letters of both. -/
theorem count_text_child {c : Char} (hslash : c ≠ '/') {p : PosixPath}
    (hroot : p.root = "" ∨ p.root = "/" ∨ p.root = "//") (name : String) :
    (p.child name).text.toList.count c =
      (p.parts.flatMap String.toList).count c + name.toList.count c := by
  have hjoin : ∀ fields : List (List Char),
      (['/'].intercalate fields).count c = fields.flatten.count c := by
    intro fields
    induction fields with
    | nil => rfl
    | cons f fields ih =>
      cases fields with
      | nil => simp
      | cons g fields =>
        rw [List.intercalate_cons_cons, List.count_append, List.count_append, ih,
          List.count_singleton, List.flatten_cons, List.count_append]
        simp [Ne.symm hslash]
  have hnone : p.root.toList.count c = 0 := by
    rcases hroot with h | h | h <;> rw [h] <;> simp [Ne.symm hslash]
  rw [toList_text_child, List.count_append, hnone, hjoin, List.map_append, List.map_singleton,
    List.flatten_append, List.flatten_singleton, List.count_append, List.flatMap_def, Nat.zero_add]

end PosixPath

end DgxSpark
