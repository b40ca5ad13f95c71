import Mathlib.Tactic
import Mathlib.Data.String.Basic
import Mathlib.Data.List.TakeWhile

/-!
# Text operations with Python's conventions

The handful of `str` methods a deployment tool leans on, on lists of characters:
`strip`, `splitlines`, `split` on one character, the substring test, `lower`. They
are stated on `List Char`, where recursion and rewriting are at home, and lifted to
`String` at the end.

White space and line breaks are Python's, which are wider than ASCII: a vertical
tab ends a line, and a no-break space is stripped. Lower-casing is the ASCII one.

The facts the development uses are the ones a reader of terse command output needs:
a text assembled line by line splits back into its lines
(`DgxSpark.Text.splitLines_append_newline`), a record assembled from fields without
the separator splits back into its fields (`DgxSpark.Text.splitOn_intercalate`), and
a field without surrounding white space survives `strip`
(`DgxSpark.Text.strip_eq_self`).
-/

namespace DgxSpark

namespace Text

/-! ### Characters -/

/-- The bytes of a text in UTF-8. -/
def bytes (s : String) : List UInt8 :=
  s.toByteArray.data.toList

/-- The characters of a text. This is `String.toList`; the branch for ASCII is there
because it evaluates in time linear in the text. -/
def chars (s : String) : List Char :=
  if (bytes s).all (· < 128) then (bytes s).map fun b => Char.ofNat b.toNat else s.toList

theorem utf8EncodeChar_ascii {c : Char}
    (h : ∀ b ∈ String.utf8EncodeChar c, b.toNat < 128) :
    (String.utf8EncodeChar c).map (fun b => Char.ofNat b.toNat) = [c] := by
  unfold String.utf8EncodeChar at h ⊢
  by_cases h1 : c.val.toNat ≤ 0x7f
  · have hlt : c.val.toNat < 256 := by omega
    simp only [h1, if_true, List.map_cons, List.map_nil, UInt8.toNat_ofNat', Nat.mod_eq_of_lt hlt]
    exact congrArg (fun d => [d]) (Char.ofNat_toNat c)
  · exfalso
    simp only [h1, if_false] at h
    split at h
    · have := h _ (List.mem_cons_self ..)
      simp only [UInt8.toNat_ofNat'] at this
      omega
    · split at h
      · have := h _ (List.mem_cons_self ..)
        simp only [UInt8.toNat_ofNat'] at this
        omega
      · have := h _ (List.mem_cons_self ..)
        simp only [UInt8.toNat_ofNat'] at this
        omega

theorem flatMap_utf8EncodeChar_ascii {cs : List Char}
    (h : ∀ b ∈ cs.flatMap String.utf8EncodeChar, b.toNat < 128) :
    (cs.flatMap String.utf8EncodeChar).map (fun b => Char.ofNat b.toNat) = cs := by
  induction cs with
  | nil => rfl
  | cons c cs ih =>
    rw [List.flatMap_cons] at h ⊢
    rw [List.map_append, utf8EncodeChar_ascii fun b hb => h b (List.mem_append_left _ hb),
      ih fun b hb => h b (List.mem_append_right _ hb), List.singleton_append]

/-- **`chars` is `String.toList`.** -/
@[simp] theorem chars_eq (s : String) : chars s = s.toList := by
  have hbytes : bytes s = s.toList.flatMap String.utf8EncodeChar := by
    rw [bytes, ← String.utf8Encode_toList, List.utf8Encode, List.toList_data_toByteArray]
  unfold chars
  split
  · rename_i h
    rw [hbytes] at h ⊢
    refine flatMap_utf8EncodeChar_ascii fun b hb => ?_
    simpa using UInt8.lt_iff_toNat_lt.mp (of_decide_eq_true (List.all_eq_true.mp h b hb))
  · rfl

/-- The order of texts, decided on their characters. -/
def decidableLe (s t : String) : Decidable (s ≤ t) :=
  decidable_of_iff (chars s ≤ chars t) (by rw [chars_eq, chars_eq, String.le_iff_toList_le])

/-- `sorted`. -/
def sorted (xs : List String) : List String :=
  letI := decidableLe
  xs.insertionSort (· ≤ ·)

/-! ### Character classes -/

/-- White space in the sense of `str.isspace`, the characters `str.strip` removes. -/
def isSpace (c : Char) : Bool :=
  let n := c.toNat
  (9 ≤ n && n ≤ 13) || (28 ≤ n && n ≤ 32) || n == 0x85 || n == 0xa0 || n == 0x1680 ||
    (0x2000 ≤ n && n ≤ 0x200a) || n == 0x2028 || n == 0x2029 || n == 0x202f || n == 0x205f ||
    n == 0x3000

/-- The characters at which `str.splitlines` ends a line. -/
def isLineBreak (c : Char) : Bool :=
  let n := c.toNat
  (10 ≤ n && n ≤ 13) || (28 ≤ n && n ≤ 30) || n == 0x85 || n == 0x2028 || n == 0x2029

/-- A lower-case hexadecimal digit. -/
def isHexLower (c : Char) : Bool :=
  ('0' ≤ c && c ≤ '9') || ('a' ≤ c && c ≤ 'f')

/-- A decimal digit, as `str.isdecimal` accepts it in ASCII text. -/
def isDecimal (c : Char) : Bool :=
  '0' ≤ c && c ≤ '9'

/-! ### Operations on character lists -/

/-- The text without its trailing characters of a class. -/
def rstripWhile (p : Char → Bool) (cs : List Char) : List Char :=
  (cs.reverse.dropWhile p).reverse

/-- `str.strip` without an argument. -/
def stripChars (cs : List Char) : List Char :=
  rstripWhile isSpace (cs.dropWhile isSpace)

/-- The lines of a text, with the current line accumulated in reverse. A carriage
return followed by a line feed is one break, and a final break opens no line. -/
def splitLinesAux : List Char → List Char → List (List Char)
  | acc, [] => if acc.isEmpty then [] else [acc.reverse]
  | acc, '\r' :: '\n' :: cs => acc.reverse :: splitLinesAux [] cs
  | acc, c :: cs =>
    if isLineBreak c then acc.reverse :: splitLinesAux [] cs else splitLinesAux (c :: acc) cs

/-- `str.splitlines`. -/
def splitLinesChars (cs : List Char) : List (List Char) :=
  splitLinesAux [] cs

/-- Whether one text occurs inside another, Python's `in`. -/
def isInfix (sub : List Char) : List Char → Bool
  | [] => sub.isEmpty
  | c :: cs => sub.isPrefixOf (c :: cs) || isInfix sub cs

/-- The text before and after the first occurrence of a separator, when it occurs:
what `str.split` with a maximum of one split distinguishes. -/
def cutAt (sep : Char) : List Char → Option (List Char × List Char)
  | [] => none
  | c :: cs => if c = sep then some ([], cs) else (cutAt sep cs).map fun p => (c :: p.1, p.2)

/-- A text is cut at its first separator. -/
theorem cutAt_append {sep : Char} {before : List Char} (h : sep ∉ before) (after : List Char) :
    cutAt sep (before ++ sep :: after) = some (before, after) := by
  induction before with
  | nil => rw [List.nil_append, cutAt, if_pos rfl]
  | cons c cs ih =>
    rw [List.mem_cons, not_or] at h
    rw [List.cons_append, cutAt, if_neg (Ne.symm h.1), ih h.2]
    rfl

/-- The two sides of a cut. -/
theorem cutAt_eq_some {sep : Char} {cs before after : List Char}
    (h : cutAt sep cs = some (before, after)) : cs = before ++ sep :: after := by
  induction cs generalizing before with
  | nil => cases h
  | cons c cs ih =>
    rw [cutAt] at h
    split at h
    · rename_i hc
      cases h
      rw [hc]
      rfl
    · obtain ⟨⟨first, second⟩, hcut, heq⟩ := Option.map_eq_some_iff.1 h
      cases heq
      rw [ih hcut]
      rfl

/-! ### The same on strings -/

/-- `str.strip` without an argument. -/
def strip (s : String) : String :=
  String.ofList (stripChars (chars s))

/-- `str.lstrip` of one character. -/
def lstripChar (c : Char) (s : String) : String :=
  String.ofList ((chars s).dropWhile (· == c))

/-- `str.rstrip` of one character. -/
def rstripChar (c : Char) (s : String) : String :=
  String.ofList (rstripWhile (· == c) (chars s))

/-- `str.lower` on ASCII text. -/
def lower (s : String) : String :=
  String.ofList ((chars s).map Char.toLower)

/-- `str.upper` on ASCII text. -/
def upper (s : String) : String :=
  String.ofList ((chars s).map Char.toUpper)

/-- `str.splitlines`. -/
def splitLines (s : String) : List String :=
  (splitLinesChars (chars s)).map String.ofList

/-- `str.split` on one character. -/
def splitOn (sep : Char) (s : String) : List String :=
  ((chars s).splitOn sep).map String.ofList

/-- `str.split` on one character with a maximum of one split, when it splits. -/
def cut (sep : Char) (s : String) : Option (String × String) :=
  (cutAt sep (chars s)).map fun p => (String.ofList p.1, String.ofList p.2)

theorem cut_eq_some {sep : Char} {s key value : String}
    (h : cut sep s = some (key, value)) : s.toList = key.toList ++ sep :: value.toList := by
  obtain ⟨⟨before, after⟩, hcut, heq⟩ := Option.map_eq_some_iff.1 h
  cases heq
  rw [chars_eq] at hcut
  rw [String.toList_ofList, String.toList_ofList]
  exact cutAt_eq_some hcut

/-- Python's `sub in s`. -/
def contains (s sub : String) : Bool :=
  isInfix (chars sub) (chars s)

/-- `re.fullmatch` of a character class repeated a fixed number of times. -/
def fullMatch (p : Char → Bool) (n : Nat) (s : String) : Bool :=
  (chars s).length == n && (chars s).all p

/-- `str.isdecimal` on ASCII text: nonempty and all digits. -/
def isDecimalText (s : String) : Bool :=
  !(chars s).isEmpty && (chars s).all isDecimal

/-- `int` of a text of decimal digits. -/
def toNat (s : String) : Nat :=
  Nat.ofDigitChars 10 (chars s) 0

/-! ### Splitting back what was joined -/

/-- A text that neither begins nor ends with white space is its own `strip`. -/
theorem strip_eq_self {s : String} (hl : s.toList.head?.all (fun c => !isSpace c))
    (hr : s.toList.getLast?.all (fun c => !isSpace c)) : strip s = s := by
  have hdrop : s.toList.dropWhile isSpace = s.toList := by
    cases hs : s.toList with
    | nil => rfl
    | cons c cs =>
      rw [hs] at hl
      have hc : isSpace c = false := by simpa using hl
      simp [hc]
  have hrev : s.toList.reverse.dropWhile isSpace = s.toList.reverse := by
    cases hs : s.toList.reverse with
    | nil => rfl
    | cons c cs =>
      have hlast : s.toList.getLast? = some c := by
        rw [List.getLast?_eq_head?_reverse, hs]
        rfl
      rw [hlast] at hr
      have hc : isSpace c = false := by simpa using hr
      simp [hc]
  rw [strip, chars_eq, stripChars, hdrop, rstripWhile, hrev, List.reverse_reverse, String.ofList_toList]

/-- The accumulator of `splitLinesAux` collects characters that break no line. -/
theorem splitLinesAux_append (l acc rest : List Char) (h : ∀ c ∈ l, isLineBreak c = false) :
    splitLinesAux acc (l ++ '\n' :: rest) = (acc.reverse ++ l) :: splitLinesAux [] rest := by
  induction l generalizing acc with
  | nil =>
    rw [List.nil_append, splitLinesAux.eq_3 _ _ _ (by simp)]
    simp [isLineBreak]
  | cons c l ih =>
    have hc : isLineBreak c = false := h c (by simp)
    have hne : c ≠ '\r' := by
      rintro rfl
      exact absurd hc (by decide)
    have hstep : splitLinesAux acc (c :: (l ++ '\n' :: rest)) =
        splitLinesAux (c :: acc) (l ++ '\n' :: rest) := by
      rw [splitLinesAux.eq_3 _ _ _ (fun _ hr => absurd hr hne), hc]
      rfl
    rw [List.cons_append, hstep, ih (c :: acc) fun d hd => h d (by simp [hd])]
    simp

/-- A line that breaks nowhere, followed by a line feed, is the first line. -/
theorem splitLines_append_newline (l rest : List Char) (h : ∀ c ∈ l, isLineBreak c = false) :
    splitLinesChars (l ++ '\n' :: rest) = l :: splitLinesChars rest := by
  simpa [splitLinesChars] using splitLinesAux_append l [] rest h

/-- Text written line by line splits back into its lines. -/
theorem splitLines_flatMap (ls : List (List Char))
    (h : ∀ l ∈ ls, ∀ c ∈ l, isLineBreak c = false) :
    splitLinesChars (ls.flatMap fun l => l ++ ['\n']) = ls := by
  induction ls with
  | nil => rfl
  | cons l ls ih =>
    rw [List.flatMap_cons, List.append_assoc, List.singleton_append,
      splitLines_append_newline l _ (h l (by simp)), ih fun l' hl' => h l' (by simp [hl'])]

/-- Fields without the separator, joined by it, split back into the fields. -/
theorem splitOn_intercalate (sep : Char) (fields : List (List Char)) (hne : fields ≠ [])
    (h : ∀ f ∈ fields, sep ∉ f) :
    (List.intercalate [sep] fields).splitOn sep = fields :=
  List.splitOn_intercalate _ h hne

/-! ### What occurs where -/

theorem isInfix_iff (sub cs : List Char) : isInfix sub cs = true ↔ sub <:+: cs := by
  induction cs with
  | nil => simp [isInfix]
  | cons c cs ih => rw [isInfix, Bool.or_eq_true, ih, List.isPrefixOf_iff_prefix,
      List.infix_cons_iff]

theorem contains_iff (s sub : String) : contains s sub = true ↔ sub.toList <:+: s.toList := by
  rw [contains, isInfix_iff, chars_eq, chars_eq]

@[simp] theorem toList_lower (s : String) : (lower s).toList = s.toList.map Char.toLower := by
  rw [lower, chars_eq, String.toList_ofList]

/-- What occurs in a text around a separator and does not have it occurs on one side. -/
theorem infix_append_cons {α : Type} {w l r : List α} {sep : α} (hsep : sep ∉ w)
    (h : w <:+: l ++ sep :: r) : w <:+: l ∨ w <:+: r := by
  obtain ⟨a, b, h⟩ := h
  rw [List.append_assoc] at h
  rcases List.append_eq_append_iff.1 h with ⟨d, rfl, hd⟩ | ⟨d, rfl, hd⟩
  · rcases List.append_eq_append_iff.1 hd with ⟨e, rfl, -⟩ | ⟨e, hw, he⟩
    · exact .inl ⟨a, e, by simp⟩
    · cases e with
      | nil => exact .inl ⟨a, [], by simp [hw]⟩
      | cons x e =>
        obtain ⟨rfl, -⟩ := List.cons.inj he
        exact absurd (by simp [hw]) hsep
  · cases d with
    | nil =>
      cases w with
      | nil => exact .inl List.nil_infix
      | cons x w =>
        obtain ⟨rfl, -⟩ := List.cons.inj hd
        exact absurd (by simp) hsep
    | cons x d =>
      obtain ⟨-, rfl⟩ := List.cons.inj hd
      exact .inr ⟨d, b, by simp⟩

/-- What occurs in joined fields and does not have the separator occurs in a field. -/
theorem infix_intercalate {α : Type} {w : List α} {sep : α} {fields : List (List α)}
    (hw : w ≠ []) (hsep : sep ∉ w) (h : w <:+: [sep].intercalate fields) :
    ∃ f ∈ fields, w <:+: f := by
  induction fields with
  | nil => exact absurd (List.infix_nil.1 h) hw
  | cons f fields ih =>
    cases fields with
    | nil => exact ⟨f, by simp, by simpa using h⟩
    | cons g fields =>
      rw [List.intercalate_cons_cons, List.append_assoc, List.singleton_append] at h
      rcases infix_append_cons hsep h with h | h
      · exact ⟨f, by simp, h⟩
      · obtain ⟨f', hf', h⟩ := ih h
        exact ⟨f', List.mem_cons_of_mem _ hf', h⟩

/-- A field occurs in the joined fields. -/
theorem infix_of_mem_fields {α : Type} {sep : List α} {fields : List (List α)} {f : List α}
    (h : f ∈ fields) : f <:+: sep.intercalate fields := by
  induction fields with
  | nil => exact absurd h List.not_mem_nil
  | cons g fields ih =>
    cases fields with
    | nil =>
      obtain rfl := List.mem_singleton.1 h
      simp
    | cons g' fields =>
      rw [List.intercalate_cons_cons]
      rcases List.mem_cons.1 h with rfl | h
      · exact ⟨[], sep ++ sep.intercalate (g' :: fields), by simp⟩
      · exact (ih h).trans (List.suffix_append _ _).isInfix

theorem map_intercalate {α β : Type} (f : α → β) (sep : List α) (fields : List (List α)) :
    (sep.intercalate fields).map f = (sep.map f).intercalate (fields.map (List.map f)) := by
  induction fields with
  | nil => rfl
  | cons g fields ih =>
    cases fields with
    | nil => simp
    | cons g' fields =>
      rw [List.intercalate_cons_cons, List.map_append, List.map_append, ih]
      simp

end Text

end DgxSpark
