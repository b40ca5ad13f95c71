import Mathlib.Tactic
import DgxSpark.Lib.Text

/-!
# Records of comma-separated fields

The reader of one record (`DgxSpark.Csv.record`): a field that begins with a quote ends at the
next quote that is not doubled, and a quote anywhere else is an error.

Two results. Fields without commas and quotes are read back from their joined text
(`DgxSpark.Csv.record_intercalate`). And whatever text is read, a field of it has no comma, or it
has fewer quotes than the text (`DgxSpark.Csv.mem_record`): a comma survives only inside quotes,
and the quotes around a field do not.
-/

namespace DgxSpark

namespace Csv

/-- Where the reader is: at the start of a field, in a plain one, in a quoted one, or behind a
quote in a quoted one. -/
inductive Place
  | start | plain | quoted | closing
deriving DecidableEq

/-- The fields of a record, with the characters read of the current one in reverse. -/
def readFields : Place → List Char → List Char → Option (List (List Char))
  | .quoted, _, [] => none
  | .start, field, [] | .plain, field, [] | .closing, field, [] => some [field.reverse]
  | .start, field, c :: cs =>
    if c = '"' then readFields .quoted [] cs
    else if c = ',' then (readFields .start [] cs).map (field.reverse :: ·)
    else readFields .plain (c :: field) cs
  | .plain, field, c :: cs =>
    if c = '"' then none
    else if c = ',' then (readFields .start [] cs).map (field.reverse :: ·)
    else readFields .plain (c :: field) cs
  | .quoted, field, c :: cs =>
    if c = '"' then readFields .closing field cs else readFields .quoted (c :: field) cs
  | .closing, field, c :: cs =>
    if c = '"' then readFields .quoted (c :: field) cs
    else if c = ',' then (readFields .start [] cs).map (field.reverse :: ·)
    else none

/-- The fields of a record. -/
def record (s : String) : Option (List String) :=
  (readFields .start [] s.toList).map (List.map String.ofList)

/-! ### Plain fields -/

/-- A field that needs no quotes. -/
def PlainField (f : List Char) : Prop :=
  ',' ∉ f ∧ '"' ∉ f

theorem readFields_plain {f : List Char} (h : PlainField f) (field cs : List Char) :
    readFields .plain field (f ++ cs) = readFields .plain (f.reverse ++ field) cs := by
  induction f generalizing field with
  | nil => rfl
  | cons c f ih =>
    obtain ⟨⟨hcomma, hf⟩, hquote, hf'⟩ := And.intro (List.ne_and_not_mem_of_not_mem_cons h.1)
      (List.ne_and_not_mem_of_not_mem_cons h.2)
    rw [List.cons_append, readFields, if_neg hquote.symm, if_neg hcomma.symm, ih ⟨hf, hf'⟩,
      List.reverse_cons, List.append_assoc, List.singleton_append]

/-- What follows a plain field is read from its end. -/
theorem readFields_start {f : List Char} (h : PlainField f) {cs : List Char}
    (hcs : cs = [] ∨ cs.head? = some ',') :
    readFields .start [] (f ++ cs) = readFields .plain f.reverse cs := by
  cases f with
  | nil =>
    cases cs with
    | nil => rfl
    | cons c cs =>
      obtain rfl : c = ',' := by simpa using hcs
      simp [readFields]
  | cons c f =>
    obtain ⟨⟨hcomma, hf⟩, hquote, hf'⟩ := And.intro (List.ne_and_not_mem_of_not_mem_cons h.1)
      (List.ne_and_not_mem_of_not_mem_cons h.2)
    rw [List.cons_append, readFields, if_neg hquote.symm, if_neg hcomma.symm,
      readFields_plain ⟨hf, hf'⟩, List.reverse_cons]

theorem readFields_comma {f : List Char} (h : PlainField f) (cs : List Char) :
    readFields .start [] (f ++ ',' :: cs) = (readFields .start [] cs).map (f :: ·) := by
  rw [readFields_start h (.inr rfl), readFields, if_neg (by decide), if_pos rfl,
    List.reverse_reverse]

theorem readFields_intercalate {fields : List (List Char)} (hne : fields ≠ [])
    (h : ∀ f ∈ fields, PlainField f) :
    readFields .start [] ([','].intercalate fields) = some fields := by
  induction fields with
  | nil => exact absurd rfl hne
  | cons f fields ih =>
    obtain ⟨hf, hfields⟩ := List.forall_mem_cons.1 h
    cases fields with
    | nil =>
      have hread := readFields_start hf (.inl rfl)
      rw [List.append_nil] at hread
      rw [List.intercalate_singleton, hread, readFields, List.reverse_reverse]
    | cons g fields =>
      rw [List.intercalate_cons_cons, List.append_assoc, List.singleton_append,
        readFields_comma hf, ih (by simp) hfields, Option.map_some]

/-- **Plain fields are read back.** -/
theorem record_intercalate {fields : List String} (hne : fields ≠ [])
    (h : ∀ f ∈ fields, PlainField f.toList) : record (String.intercalate "," fields) =
      some fields := by
  rw [record, String.toList_intercalate]
  have hplain : ∀ f ∈ fields.map String.toList, PlainField f := by
    intro f hf
    obtain ⟨s, hs, rfl⟩ := List.mem_map.1 hf
    exact h s hs
  have hread := readFields_intercalate (by simpa using hne) hplain
  rw [show ",".toList = [','] from rfl, hread, Option.map_some, List.map_map]
  simp

/-- A quote inside a plain field is an error. -/
theorem readFields_bare {f : List Char} (h : PlainField f) (hne : f ≠ []) (cs : List Char) :
    readFields .start [] (f ++ '"' :: cs) = none := by
  obtain ⟨c, f, rfl⟩ := List.exists_cons_of_ne_nil hne
  obtain ⟨⟨hcomma, hf⟩, hquote, hf'⟩ := And.intro (List.ne_and_not_mem_of_not_mem_cons h.1)
    (List.ne_and_not_mem_of_not_mem_cons h.2)
  rw [List.cons_append, readFields, if_neg hquote.symm, if_neg hcomma.symm,
    readFields_plain ⟨hf, hf'⟩, readFields, if_pos rfl]

/-! ### Commas and quotes -/

/-- What holds of the characters read of a field after some quotes: outside quotes there is no
comma, inside there are fewer quotes than were read. -/
def Place.Holds : Place → List Char → Nat → Prop
  | .start, field, _ | .plain, field, _ => ',' ∉ field
  | .quoted, field, n | .closing, field, n => field.count '"' < n

/-- What is to be shown of a field of a text with `n` quotes. -/
def Reduced (n : Nat) (f : List Char) : Prop :=
  ',' ∉ f ∨ f.count '"' < n

theorem Place.Holds.reduced {place : Place} {field : List Char} {n m : Nat}
    (h : place.Holds field n) (hnm : n ≤ m) : Reduced m field.reverse := by
  rw [Reduced, List.mem_reverse, List.count_reverse]
  cases place with
  | start | plain => exact .inl h
  | quoted | closing => exact .inr (Nat.lt_of_lt_of_le h hnm)

/-- A field that ends at a comma, and the fields behind it. -/
theorem reduced_of_ended {place : Place} {field : List Char} {n m : Nat}
    {tail : Option (List (List Char))} {fields : List (List Char)} (hfield : place.Holds field n)
    (hnm : n ≤ m) (htail : ∀ rest, tail = some rest → ∀ f ∈ rest, Reduced m f)
    (h : tail.map (field.reverse :: ·) = some fields) : ∀ f ∈ fields, Reduced m f := by
  obtain ⟨rest, hrest, rfl⟩ := Option.map_eq_some_iff.1 h
  exact List.forall_mem_cons.2 ⟨hfield.reduced hnm, htail rest hrest⟩

theorem reduced_readFields {place : Place} {field cs : List Char} {n : Nat}
    {fields : List (List Char)} (h : readFields place field cs = some fields)
    (hfield : place.Holds field n) : ∀ f ∈ fields, Reduced (n + cs.count '"') f := by
  induction cs generalizing place field n fields with
  | nil =>
    have hlast : some [field.reverse] = some fields := by
      cases place with
      | quoted => exact absurd h (by simp [readFields])
      | start | plain | closing => exact h
    obtain rfl := Option.some.inj hlast
    exact List.forall_mem_singleton.2 (hfield.reduced (Nat.le_add_right _ _))
  | cons c cs ih =>
    by_cases hquote : c = '"'
    · -- a quote counts, and opens, closes or is kept
      subst hquote
      rw [List.count_cons_self, ← Nat.add_assoc, Nat.add_right_comm]
      cases place with
      | start => exact @ih .quoted [] (n + 1) fields h (Nat.succ_pos n)
      | plain => exact absurd h (by simp [readFields])
      | quoted => exact @ih .closing field (n + 1) fields h (Nat.lt_succ_of_lt hfield)
      | closing =>
        refine @ih .quoted ('"' :: field) (n + 1) fields h ?_
        rw [Place.Holds, List.count_cons_self]
        exact Nat.succ_lt_succ hfield
    · rw [List.count_cons_of_ne hquote]
      have htail : ∀ rest, readFields .start [] cs = some rest →
          ∀ f ∈ rest, Reduced (n + cs.count '"') f :=
        fun rest hrest => ih hrest List.not_mem_nil
      by_cases hcomma : c = ','
      · subst hcomma
        cases place with
        | start | plain | closing =>
          exact reduced_of_ended hfield (Nat.le_add_right _ _) htail h
        | quoted =>
          refine @ih .quoted (',' :: field) n fields h ?_
          rwa [Place.Holds, List.count_cons_of_ne hquote]
      · cases place with
        | start | plain =>
          rw [readFields, if_neg hquote, if_neg hcomma] at h
          exact ih h (List.not_mem_cons_of_ne_of_not_mem (Ne.symm hcomma) hfield)
        | closing => exact absurd h (by simp [readFields, hquote, hcomma])
        | quoted =>
          rw [readFields, if_neg hquote] at h
          refine ih h ?_
          rwa [Place.Holds, List.count_cons_of_ne hquote]

/-- **What is left of commas and quotes**: a field has no comma, or fewer quotes than the text. -/
theorem mem_record {s : String} {fields : List String} (h : record s = some fields) {f : String}
    (hf : f ∈ fields) : ',' ∉ f.toList ∨ f.toList.count '"' < s.toList.count '"' := by
  obtain ⟨read, hread, rfl⟩ := Option.map_eq_some_iff.1 h
  obtain ⟨field, hfield, rfl⟩ := List.mem_map.1 hf
  have hreduced := reduced_readFields (n := 0) hread List.not_mem_nil field hfield
  rw [String.toList_ofList]
  rwa [Nat.zero_add] at hreduced

end Csv

end DgxSpark
