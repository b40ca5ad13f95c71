import DgxSpark.Lib.JsonText

/-!
# What is written is read back

The proof that `DgxSpark.Json.loads` inverts `DgxSpark.Json.dumps`, up to the order of
keys (`DgxSpark.Json.loads_dumps`).

It is an induction on the document, with the text that follows left arbitrary: parsing
the text of a value in front of any continuation gives the value and that continuation.
Two things have to be said about continuations and layouts for that to be true. A number
must not run into what follows it (`DgxSpark.Json.Stops`), which holds because a value
is followed by a comma, a bracket, white space or nothing. And a layout must consist of
white space (`DgxSpark.Json.Layout.Blank`), which the reader skips.

Strings are the other half. Every character is written as one, two or six or twelve
characters and scanned back as one or two pieces (`DgxSpark.Json.piecesOf`), which join
to the character again; that the two halves of a surrogate pair cannot be mistaken for
anything else is arithmetic on the code point.
-/

namespace DgxSpark

namespace Json

/-! ### Characters and strings -/

theorem hexVal_digitChar : ∀ d, d < 16 → hexVal (Nat.digitChar d) = some d := by decide

/-- The four digits of a code unit read back as the code unit. -/
theorem hexVal4_digits {n : Nat} (h : n < 0x10000) :
    hexVal4 (Nat.digitChar (n / 4096 % 16)) (Nat.digitChar (n / 256 % 16))
      (Nat.digitChar (n / 16 % 16)) (Nat.digitChar (n % 16)) = some n := by
  have h1 := hexVal_digitChar (n / 4096 % 16) (by omega)
  have h2 := hexVal_digitChar (n / 256 % 16) (by omega)
  have h3 := hexVal_digitChar (n / 16 % 16) (by omega)
  have h4 := hexVal_digitChar (n % 16) (by omega)
  simp only [hexVal4, h1, h2, h3, h4, Option.bind_eq_bind, Option.bind_some, Option.pure_def,
    Option.some.injEq]
  omega

/-- An escaped code unit is scanned as that code unit. -/
theorem scanStr_unitEscape {n : Nat} (h : n < 0x10000) (r : List Char) :
    scanStr (unitEscape n ++ r) = (scanStr r).map fun p => (.unit n :: p.1, p.2) := by
  simp only [unitEscape, hex4, List.cons_append, List.nil_append, scanStr, hexVal4_digits h]
  cases scanStr r <;> rfl

/-- What a written character is scanned as. -/
def piecesOf (c : Char) : List Piece :=
  if c.toNat = 8 ∨ c.toNat = 9 ∨ c.toNat = 10 ∨ c.toNat = 12 ∨ c.toNat = 13 ∨
      (32 ≤ c.toNat ∧ c.toNat ≤ 126) then [.chr c]
  else if c.toNat < 0x10000 then [.unit c.toNat]
  else [.unit (0xd800 + (c.toNat - 0x10000) / 0x400), .unit (0xdc00 + (c.toNat - 0x10000) % 0x400)]

/-- A character is a Unicode scalar value: no surrogate, and below the last plane. -/
theorem toNat_scalar (c : Char) :
    c.toNat < 0xd800 ∨ (0xdfff < c.toNat ∧ c.toNat < 0x110000) :=
  c.valid

/-- A backslash and a letter that stand for a character are scanned as it. -/
theorem scanStr_simple {e c : Char} (he : simpleEscape e = some c) (hu : e ≠ 'u')
    (r : List Char) :
    scanStr ('\\' :: e :: r) = (scanStr r).map fun p => (.chr c :: p.1, p.2) := by
  rw [scanStr.eq_4 e r fun _ _ _ _ _ h => absurd h hu, he]
  cases scanStr r <;> rfl

/-- A character that is written as itself is scanned as itself. -/
theorem scanStr_plain {c : Char} (hq : c ≠ '"') (hb : c ≠ '\\') (hc : 32 ≤ c.toNat)
    (r : List Char) :
    scanStr (c :: r) = (scanStr r).map fun p => (.chr c :: p.1, p.2) := by
  rw [scanStr.eq_5 c r (fun h => absurd h hq) (fun _ _ _ _ _ h => absurd h hb)
    (fun _ _ h => absurd h hb), if_neg]
  rintro (h | h)
  · omega
  · exact hb h

theorem scanStr_escapeChar (c : Char) (r : List Char) :
    scanStr (escapeChar c ++ r) = (scanStr r).map fun p => (piecesOf c ++ p.1, p.2) := by
  have hone : ∀ {e : Char}, simpleEscape e = some c → e ≠ 'u' → piecesOf c = [.chr c] →
      scanStr (['\\', e] ++ r) = (scanStr r).map fun p => (piecesOf c ++ p.1, p.2) := by
    intro e he hu hp
    rw [hp]
    exact scanStr_simple he hu r
  unfold escapeChar
  split_ifs with h1 h2 h3 h4 h5 h6 h7 h8 h9
  · exact hone (by rw [h1]; rfl) (by decide) (by rw [h1]; rfl)
  · exact hone (by rw [h2]; rfl) (by decide) (by rw [h2]; rfl)
  · exact hone (by rw [h3]; rfl) (by decide) (by rw [h3]; rfl)
  · exact hone (by rw [h4]; rfl) (by decide) (by rw [h4]; rfl)
  · exact hone (by rw [h5]; rfl) (by decide) (by rw [h5]; rfl)
  · have hc : c = Char.ofNat 8 := by rw [← h6, Char.ofNat_toNat]
    exact hone (by rw [hc]; rfl) (by decide) (by simp [piecesOf, h6])
  · have hc : c = Char.ofNat 12 := by rw [← h7, Char.ofNat_toNat]
    exact hone (by rw [hc]; rfl) (by decide) (by simp [piecesOf, h7])
  · rw [show piecesOf c = [.chr c] by simp [piecesOf, h8]]
    exact scanStr_plain h1 h2 h8.1 r
  all_goals
    have hne : ¬(c.toNat = 8 ∨ c.toNat = 9 ∨ c.toNat = 10 ∨ c.toNat = 12 ∨ c.toNat = 13 ∨
        (32 ≤ c.toNat ∧ c.toNat ≤ 126)) := by
      have hat : ∀ d : Char, c.toNat = d.toNat → c = d := fun d h => Char.toNat_inj.mp h
      rintro (h | h | h | h | h | h)
      · exact h6 h
      · exact h5 (hat _ h)
      · exact h3 (hat _ h)
      · exact h7 h
      · exact h4 (hat _ h)
      · exact h8 h
  · rw [scanStr_unitEscape h9, piecesOf, if_neg hne, if_pos h9]
    rfl
  · have hv := toNat_scalar c
    rw [piecesOf, if_neg hne, if_neg h9, List.append_assoc, scanStr_unitEscape (by omega),
      scanStr_unitEscape (by omega), Option.map_map]
    rfl

/-- The pieces of a written character join to that character. -/
theorem joinPieces_piecesOf (c : Char) (ps : List Piece) :
    joinPieces (piecesOf c ++ ps) = (joinPieces ps).map (c :: ·) := by
  have hv := toNat_scalar c
  unfold piecesOf
  split_ifs with h1 h2
  · rfl
  · have hh : isHigh c.toNat = false := by simp [isHigh]; omega
    have hl : isLow c.toNat = false := by simp [isLow]; omega
    rcases ps with - | ⟨d | m, ps⟩ <;> simp [joinPieces, hh, hl]
  · have hh : isHigh (0xd800 + (c.toNat - 0x10000) / 0x400) = true := by simp [isHigh]; omega
    have hl : isLow (0xdc00 + (c.toNat - 0x10000) % 0x400) = true := by simp [isLow]; omega
    have hn : 0x10000 + (0xd800 + (c.toNat - 0x10000) / 0x400 - 0xd800) * 0x400 +
        (0xdc00 + (c.toNat - 0x10000) % 0x400 - 0xdc00) = c.toNat := by omega
    simp only [List.cons_append, List.nil_append, joinPieces, hh, hl, if_true, hn,
      Char.ofNat_toNat]

/-- The body of a written string is scanned as its pieces. -/
theorem scanStr_flatMap (cs r : List Char) :
    scanStr (cs.flatMap escapeChar ++ '"' :: r) = some (cs.flatMap piecesOf, r) := by
  induction cs with
  | nil => rfl
  | cons c cs ih =>
    rw [List.flatMap_cons, List.append_assoc, scanStr_escapeChar, ih]
    rfl

theorem joinPieces_flatMap (cs : List Char) : joinPieces (cs.flatMap piecesOf) = some cs := by
  induction cs with
  | nil => rfl
  | cons c cs ih => rw [List.flatMap_cons, joinPieces_piecesOf, ih]; rfl

/-- **A written string reads back**, with the text after it untouched. -/
theorem parseStr_body (s : String) (r : List Char) :
    parseStr ((Text.chars s).flatMap escapeChar ++ '"' :: r) = some (s, r) := by
  rw [Text.chars_eq, parseStr, scanStr_flatMap]
  simp [joinPieces_flatMap]

/-! ### Numbers -/

/-- The text does not continue a number. -/
def Stops (r : List Char) : Prop :=
  ∀ c ∈ r.head?, isNumChar c = false

/-- A run of number characters is taken whole when the rest stops it. -/
theorem takeWhile_stops {tok r : List Char} (ht : ∀ c ∈ tok, isNumChar c = true)
    (hr : Stops r) : (tok ++ r).takeWhile isNumChar = tok ∧ (tok ++ r).dropWhile isNumChar = r := by
  have hnil : r.takeWhile isNumChar = [] ∧ r.dropWhile isNumChar = r := by
    cases r with
    | nil => exact ⟨rfl, rfl⟩
    | cons c r =>
      have hc := hr c rfl
      simp [hc]
  rw [List.takeWhile_append_of_pos ht, List.dropWhile_append_of_pos ht, hnil.1, hnil.2,
    List.append_nil]
  exact ⟨rfl, rfl⟩

/-- Digits of a positive number do not begin with a zero. -/
theorem toDigits_head_ne_zero {n : Nat} (h : 0 < n) : (Nat.toDigits 10 n).head? ≠ some '0' := by
  induction n using Nat.strong_induction_on with
  | _ n ih =>
    rcases Nat.lt_or_ge n 10 with hlt | hge
    · rw [Nat.toDigits_of_lt_base hlt]
      interval_cases n <;> decide
    · rw [Nat.toDigits_of_base_le (by omega) hge]
      have hne : Nat.toDigits 10 (n / 10) ≠ [] := Nat.toDigits_ne_nil
      have := ih (n / 10) (by omega) (by omega)
      cases hd : Nat.toDigits 10 (n / 10) with
      | nil => exact absurd hd hne
      | cons c cs => simpa [hd] using this

theorem isIntDigits_toDigits (n : Nat) : isIntDigits (Nat.toDigits 10 n) = true := by
  have hall : (Nat.toDigits 10 n).all Char.isDigit = true := by
    simp only [List.all_eq_true]
    exact fun c hc => Nat.isDigit_of_mem_toDigits (by decide) (by decide) hc
  rcases Nat.eq_zero_or_pos n with rfl | hpos
  · rw [Nat.toDigits_zero]
    rfl
  · have hz := toDigits_head_ne_zero hpos
    cases hd : Nat.toDigits 10 n with
    | nil => exact absurd hd Nat.toDigits_ne_nil
    | cons c cs =>
      rw [hd] at hz hall
      have hc : c ≠ '0' := fun h => hz (by rw [h]; rfl)
      unfold isIntDigits
      split
      · rename_i heq; simp at heq
      · rename_i heq; simp_all
      · rename_i heq; simp_all
      · exact hall

theorem isNumChar_of_isDigit {c : Char} (h : c.isDigit = true) : isNumChar c = true := by
  simp [isNumChar, h]

/-- The printed digits are number characters. -/
theorem printInt_numChars (i : Int) : ∀ c ∈ printInt i, isNumChar c = true := by
  intro c hc
  cases i with
  | ofNat n => exact isNumChar_of_isDigit (Nat.isDigit_of_mem_toDigits (by decide) (by decide) hc)
  | negSucc n =>
    rcases List.mem_cons.mp hc with rfl | hc
    · rfl
    · exact isNumChar_of_isDigit (Nat.isDigit_of_mem_toDigits (by decide) (by decide) hc)

/-- The printed integer is classified as itself. -/
theorem classify_printInt (i : Int) : classify (printInt i) = some (.int i) := by
  cases i with
  | ofNat n =>
    have hd := isIntDigits_toDigits n
    have hhead : ∀ ds, Nat.toDigits 10 n = '-' :: ds → False := by
      intro ds h
      have := Nat.isDigit_of_mem_toDigits (b := 10) (n := n) (c := '-') (by decide) (by decide)
        (by rw [h]; simp)
      exact absurd this (by decide)
    rw [printInt, classify.eq_2 _ hhead, if_pos hd, Nat.ofDigitChars_ten_toDigits]
    rfl
  | negSucc n =>
    rw [printInt, classify, if_pos (isIntDigits_toDigits _), Nat.ofDigitChars_ten_toDigits]
    rfl

theorem parseNumber_printInt (i : Int) {r : List Char} (hr : Stops r) :
    parseNumber (printInt i ++ r) = some (.int i, r) := by
  obtain ⟨htake, hdrop⟩ := takeWhile_stops (printInt_numChars i) hr
  rw [parseNumber, htake, hdrop, classify_printInt]
  rfl

/-! ### Well-formed documents -/

mutual

/-- A document with no repeated key in any object, and whose float literals are float
literals: what a decoder returns, and what an encoder can be handed. -/
def WF : Json → Prop
  | .float lit =>
    isFloatLit lit.toList = true ∨ lit = "NaN" ∨ lit = "Infinity" ∨ lit = "-Infinity"
  | .arr xs => WFItems xs
  | .obj kvs => (keys kvs).Nodup ∧ WFMembers kvs
  | _ => True

/-- Every item is well formed. -/
def WFItems : List Json → Prop
  | [] => True
  | x :: xs => WF x ∧ WFItems xs

/-- Every value is well formed. -/
def WFMembers : List (String × Json) → Prop
  | [] => True
  | (_, x) :: xs => WF x ∧ WFMembers xs

end

/-- A token that is an integer has only digits after its sign. -/
theorem all_of_isIntDigits {cs : List Char} (h : isIntDigits cs = true) :
    cs.all Char.isDigit = true := by
  unfold isIntDigits at h
  split at h
  · simp at h
  · rfl
  · simp at h
  · exact h

/-- A float literal is not an integer. -/
theorem not_isIntDigits_of_isFloatLit {cs : List Char} (h : isFloatLit cs = true) :
    isIntDigits (dropMinus cs) = false := by
  by_contra hc
  have hall := all_of_isIntDigits (by simpa using hc)
  have hdrop : (dropMinus cs).dropWhile Char.isDigit = [] := by
    simpa [List.dropWhile_eq_nil_iff] using hall
  simp only [isFloatLit, Bool.and_eq_true, hdrop] at h
  exact absurd h.2 (by decide)

theorem classify_float {cs : List Char} (h : isFloatLit cs = true) :
    classify cs = some (.float (String.ofList cs)) := by
  have hint := not_isIntDigits_of_isFloatLit h
  unfold classify
  split
  · rename_i ds
    rw [show isIntDigits ds = false from hint]
    simp [h]
  · rename_i hne
    have hds : dropMinus cs = cs := by
      unfold dropMinus
      split
      · exact absurd rfl (hne _)
      · rfl
    rw [hds] at hint
    simp [hint, h]

theorem parseNumber_float {lit : String} (h : isFloatLit lit.toList = true) {r : List Char}
    (hr : Stops r) : parseNumber (lit.toList ++ r) = some (.float lit, r) := by
  have hall : ∀ c ∈ lit.toList, isNumChar c = true := by
    simp only [isFloatLit, Bool.and_eq_true, List.all_eq_true] at h
    exact h.1.1
  obtain ⟨htake, hdrop⟩ := takeWhile_stops hall hr
  rw [parseNumber, htake, hdrop, classify_float h, String.ofList_toList]
  rfl

/-- A float literal begins with a digit, or with a minus sign and a digit. -/
theorem isFloatLit_head {cs : List Char} (h : isFloatLit cs = true) :
    ∃ c ds, cs = c :: ds ∧ (c.isDigit = true ∨ (c = '-' ∧ ∃ e es, ds = e :: es ∧ e.isDigit = true)) := by
  simp only [isFloatLit, Bool.and_eq_true] at h
  have htake : ∀ {ds : List Char}, isIntDigits (ds.takeWhile Char.isDigit) = true →
      ∃ e es, ds = e :: es ∧ e.isDigit = true := by
    intro ds hds
    rcases ds with - | ⟨e, es⟩
    · exact absurd hds (by decide)
    · refine ⟨e, es, rfl, ?_⟩
      by_contra he
      rw [List.takeWhile_cons_of_neg (by simpa using he)] at hds
      exact absurd hds (by decide)
  have hint := h.1.2
  unfold dropMinus at hint
  split at hint
  · exact ⟨'-', _, rfl, Or.inr ⟨rfl, htake hint⟩⟩
  · obtain ⟨e, es, rfl, he⟩ := htake hint
    exact ⟨e, es, rfl, Or.inl he⟩

/-- A printed integer begins with a digit, or with a minus sign and a digit. -/
theorem printInt_head (i : Int) :
    ∃ c ds, printInt i = c :: ds ∧
      (c.isDigit = true ∨ (c = '-' ∧ ∃ e es, ds = e :: es ∧ e.isDigit = true)) := by
  have hnat : ∀ n : Nat, ∃ e es, Nat.toDigits 10 n = e :: es ∧ e.isDigit = true := by
    intro n
    cases hd : Nat.toDigits 10 n with
    | nil => exact absurd hd Nat.toDigits_ne_nil
    | cons e es =>
      exact ⟨e, es, rfl, Nat.isDigit_of_mem_toDigits (b := 10) (n := n) (by decide) (by decide)
        (by rw [hd]; simp)⟩
  cases i with
  | ofNat n =>
    obtain ⟨e, es, hd, he⟩ := hnat n
    exact ⟨e, es, hd, Or.inl he⟩
  | negSucc n =>
    obtain ⟨e, es, hd, he⟩ := hnat (n + 1)
    exact ⟨'-', Nat.toDigits 10 (n + 1), rfl, Or.inr ⟨rfl, e, es, hd, he⟩⟩

/-! ### White space -/

/-- A layout made of white space. -/
structure Layout.Blank (l : Layout) : Prop where
  item : ∀ d, ∀ c ∈ l.item d, isWs c = true
  colon : ∀ c ∈ l.colon, isWs c = true

theorem compact_blank : compact.Blank :=
  ⟨fun _ _ h => absurd h (List.not_mem_nil), fun _ h => absurd h (List.not_mem_nil)⟩

theorem indented_blank : indented.Blank := by
  refine ⟨fun d c hc => ?_, fun c hc => ?_⟩
  · rcases List.mem_cons.mp hc with rfl | hc
    · rfl
    · rw [List.eq_of_mem_replicate hc]
      rfl
  · rw [List.mem_singleton.mp hc]
    rfl

theorem skipWs_append {w : List Char} (hw : ∀ c ∈ w, isWs c = true) (r : List Char) :
    skipWs (w ++ r) = skipWs r :=
  List.dropWhile_append_of_pos hw

theorem skipWs_cons {c : Char} (hc : isWs c = false) (r : List Char) :
    skipWs (c :: r) = c :: r := by
  simp [skipWs, hc]

/-- Leading white space does not change what is read. -/
theorem parseValue_append {w : List Char} (hw : ∀ c ∈ w, isWs c = true) (n : Nat) (r : List Char) :
    parseValue n (w ++ r) = parseValue n r := by
  cases n with
  | zero => simp [parseValue]
  | succ n => rw [parseValue, parseValue, skipWs_append hw]

/-- A digit is no white space and opens no other kind of value. -/
theorem isDigit_ne {c : Char} (h : c.isDigit = true) :
    isWs c = false ∧ c ≠ 'n' ∧ c ≠ 't' ∧ c ≠ 'f' ∧ c ≠ 'N' ∧ c ≠ 'I' ∧ c ≠ '"' ∧ c ≠ '[' ∧
      c ≠ '{' ∧ c ≠ '-' ∧ c ≠ ']' ∧ c ≠ '}' := by
  refine ⟨?_, ?_, ?_, ?_, ?_, ?_, ?_, ?_, ?_, ?_, ?_, ?_⟩
  · by_contra hc
    simp only [Bool.not_eq_false, isWs, Bool.or_eq_true, beq_iff_eq] at hc
    rcases hc with ((rfl | rfl) | rfl) | rfl <;> exact absurd h (by decide)
  all_goals
    rintro rfl
    exact absurd h (by decide)

/-- Text that begins like a number is read as a number. -/
theorem parseValue_number (n : Nat) {c : Char} {ds r : List Char}
    (h : c.isDigit = true ∨ (c = '-' ∧ ∃ e es, ds = e :: es ∧ e.isDigit = true)) :
    parseValue (n + 1) (c :: ds ++ r) = parseNumber (c :: ds ++ r) := by
  rcases h with h | ⟨rfl, e, es, rfl, he⟩
  · obtain ⟨hws, hn, ht, hf, hN, hI, hq, hb, ho, hm, -, -⟩ := isDigit_ne h
    rw [parseValue, List.cons_append, skipWs_cons hws]
    split <;> simp_all
  · have hI := (isDigit_ne he).2.2.2.2.2.1
    rw [parseValue, List.cons_append, List.cons_append, skipWs_cons (by decide)]
    split <;> simp_all

/-! ### The induction -/

mutual

/-- The fuel a document asks for. -/
def need : Json → Nat
  | .arr xs => 1 + needItems xs
  | .obj kvs => 1 + needMembers kvs
  | _ => 1

/-- The fuel the items of a list ask for. -/
def needItems : List Json → Nat
  | [] => 0
  | x :: xs => 1 + max (need x) (needItems xs)

/-- The fuel the members of a mapping ask for. -/
def needMembers : List (String × Json) → Nat
  | [] => 0
  | (_, x) :: xs => 1 + max (need x) (needMembers xs)

end

/-- The text of a document begins with a character that is no white space and closes no
bracket. -/
theorem print_head (l : Layout) (d : Nat) {j : Json} (h : WF j) :
    ∃ c cs, print l d j = c :: cs ∧ isWs c = false ∧ c ≠ ']' := by
  have hnum : ∀ {c : Char} {ds : List Char},
      (c.isDigit = true ∨ (c = '-' ∧ ∃ e es, ds = e :: es ∧ e.isDigit = true)) →
      isWs c = false ∧ c ≠ ']' := by
    rintro c ds (hc | ⟨rfl, -⟩)
    · exact ⟨(isDigit_ne hc).1, (isDigit_ne hc).2.2.2.2.2.2.2.2.2.2.1⟩
    · exact ⟨by decide, by decide⟩
  match j with
  | .null => exact ⟨'n', _, rfl, by decide, by decide⟩
  | .bool true => exact ⟨'t', _, rfl, by decide, by decide⟩
  | .bool false => exact ⟨'f', _, rfl, by decide, by decide⟩
  | .int i =>
    obtain ⟨c, ds, hp, hc⟩ := printInt_head i
    exact ⟨c, ds, hp, hnum hc⟩
  | .float lit =>
    rcases h with h | rfl | rfl | rfl
    · obtain ⟨c, ds, hp, hc⟩ := isFloatLit_head h
      exact ⟨c, ds, (Text.chars_eq lit).trans hp, hnum hc⟩
    · exact ⟨'N', _, rfl, by decide, by decide⟩
    · exact ⟨'I', _, rfl, by decide, by decide⟩
    · exact ⟨'-', _, rfl, by decide, by decide⟩
  | .str s => exact ⟨'"', _, rfl, by decide, by decide⟩
  | .arr [] => exact ⟨'[', _, rfl, by decide, by decide⟩
  | .arr (_ :: _) => exact ⟨'[', _, rfl, by decide, by decide⟩
  | .obj [] => exact ⟨'{', _, rfl, by decide, by decide⟩
  | .obj ((_, _) :: _) => exact ⟨'{', _, rfl, by decide, by decide⟩

/-- Assignment to a new key appends it. -/
theorem setKey_of_notMem {k : String} {x : Json} {kvs : List (String × Json)}
    (h : k ∉ keys kvs) : setKey k x kvs = kvs ++ [(k, x)] := by
  induction kvs with
  | nil => rfl
  | cons p kvs ih =>
    obtain ⟨l, y⟩ := p
    simp only [keys, List.map_cons, List.mem_cons, not_or] at h
    rw [setKey, if_neg (fun hc => h.1 hc.symm), ih h.2]
    rfl

theorem stops_cons {c : Char} (h : isNumChar c = false) (r : List Char) : Stops (c :: r) := by
  intro d hd
  rw [List.head?_cons, Option.mem_some_iff] at hd
  exact hd ▸ h

/-- White space stops a number, and so does what stops one after it. -/
theorem stops_append {w r : List Char} (hw : ∀ c ∈ w, isWs c = true) (hr : Stops r) :
    Stops (w ++ r) := by
  cases w with
  | nil => exact hr
  | cons c w =>
    refine stops_cons ?_ _
    have hc := hw c (by simp)
    simp only [isWs, Bool.or_eq_true, beq_iff_eq] at hc
    rcases hc with ((rfl | rfl) | rfl) | rfl <;> rfl

/-- What follows an item is a comma or the layout before a closing bracket: neither
continues a number. -/
theorem stops_items {l : Layout} (hl : l.Blank) (d d' : Nat) (xs : List Json) {r : List Char}
    (hr : Stops r) : Stops (printItems l d xs ++ (l.item d' ++ r)) := by
  cases xs with
  | nil =>
    rw [printItems, List.nil_append]
    exact stops_append (hl.item d') hr
  | cons x xs => exact stops_cons (by decide) _

theorem stops_members {l : Layout} (hl : l.Blank) (d d' : Nat) (xs : List (String × Json))
    {r : List Char} (hr : Stops r) : Stops (printMembers l d xs ++ (l.item d' ++ r)) := by
  cases xs with
  | nil =>
    rw [printMembers, List.nil_append]
    exact stops_append (hl.item d') hr
  | cons x xs => exact stops_cons (by decide) _

mutual

/-- **The text of a document reads back as the document**, whatever follows it. -/
theorem parseValue_print {l : Layout} (hl : l.Blank) :
    ∀ (j : Json) (d n : Nat) (r : List Char), WF j → need j ≤ n → Stops r →
      parseValue n (print l d j ++ r) = some (j, r)
  | j, _, 0, _, _, hn, _ => by cases j <;> simp [need] at hn
  | .null, d, n + 1, r, _, _, _ => by simp [print, parseValue, skipWs, isWs]
  | .bool true, d, n + 1, r, _, _, _ => by simp [print, parseValue, skipWs, isWs]
  | .bool false, d, n + 1, r, _, _, _ => by simp [print, parseValue, skipWs, isWs]
  | .int i, d, n + 1, r, _, _, hr => by
    obtain ⟨c, ds, hp, hc⟩ := printInt_head i
    rw [print, hp, parseValue_number n hc, ← hp, parseNumber_printInt i hr]
  | .float lit, d, n + 1, r, hw, _, hr => by
    rcases hw with hf | rfl | rfl | rfl
    · obtain ⟨c, ds, hp, hc⟩ := isFloatLit_head hf
      rw [print, Text.chars_eq, hp, parseValue_number n hc, ← hp, parseNumber_float hf hr]
    all_goals simp [print, parseValue, skipWs, isWs]
  | .str s, d, n + 1, r, _, _, _ => by
    rw [print, printStr, List.cons_append, List.append_assoc, List.singleton_append, parseValue,
      skipWs_cons (by decide)]
    simp [parseStr_body, -Text.chars_eq]
  | .arr [], d, n + 1, r, _, _, _ => by simp [print, parseValue, skipWs, isWs]
  | .arr (x :: xs), d, n + 1, r, hw, hn, _ => by
    obtain ⟨c, cs, hp, hws, hne⟩ := print_head l (d + 1) hw.1
    have hitems := parseItems_print hl xs x (d + 1) d n r hw (by simp only [need] at hn; omega)
    have hskip : skipWs (l.item (d + 1) ++ (print l (d + 1) x ++
        (printItems l (d + 1) xs ++ (l.item d ++ ']' :: r)))) =
        c :: (cs ++ (printItems l (d + 1) xs ++ (l.item d ++ ']' :: r))) := by
      rw [skipWs_append (hl.item (d + 1)), hp, List.cons_append, skipWs_cons hws]
    simp only [print, List.cons_append, List.append_assoc, List.nil_append]
    rw [parseValue, skipWs_cons (by decide)]
    simp only [hskip]
    split
    · rename_i heq
      exact absurd (List.cons.inj heq).1 hne
    · rw [hitems]
      rfl
  | .obj [], d, n + 1, r, _, _, _ => by simp [print, parseValue, skipWs, isWs]
  | .obj ((k, x) :: xs), d, n + 1, r, hw, hn, _ => by
    have hmem := parseMembers_print hl xs k x [] (d + 1) d n r hw.2 (by simpa [keys] using hw.1)
      (by simp only [need] at hn; omega)
    have hskip : ∀ t, skipWs (l.item (d + 1) ++ (printStr k ++ t)) = printStr k ++ t := by
      intro t
      rw [skipWs_append (hl.item (d + 1)), printStr, List.cons_append, skipWs_cons (by decide)]
    simp only [print, List.cons_append, List.append_assoc, List.nil_append]
    rw [parseValue, skipWs_cons (by decide)]
    simp only [hskip]
    split
    · rename_i heq
      simp [printStr] at heq
    · rw [hmem]
      rfl
termination_by _ _ n => n

/-- The items of a list read back, the first given apart. -/
theorem parseItems_print {l : Layout} (hl : l.Blank) :
    ∀ (xs : List Json) (x : Json) (d d' n : Nat) (r : List Char), WFItems (x :: xs) →
      needItems (x :: xs) ≤ n →
      parseItems n (l.item d ++ (print l d x ++ (printItems l d xs ++ (l.item d' ++ ']' :: r)))) =
        some (x :: xs, r)
  | xs, x, d, d', 0, r, _, hn => by simp [needItems] at hn
  | [], x, d, d', n + 1, r, hw, hn => by
    have hx := parseValue_print hl x d n (l.item d' ++ ']' :: r) hw.1
      (by simp only [needItems] at hn; omega)
      (stops_append (hl.item d') (stops_cons (by decide) _))
    rw [parseItems, parseValue_append (hl.item d), printItems, List.nil_append, hx]
    simp [skipWs_append (hl.item d'), skipWs_cons (c := ']') (by decide)]
  | y :: ys, x, d, d', n + 1, r, hw, hn => by
    have hx := parseValue_print hl x d n (printItems l d (y :: ys) ++ (l.item d' ++ ']' :: r)) hw.1
      (by simp only [needItems] at hn; omega)
      (stops_items hl d d' (y :: ys) (stops_cons (by decide) _))
    have hy := parseItems_print hl ys y d d' n r hw.2
      (by simp only [needItems] at hn ⊢; omega)
    rw [parseItems, parseValue_append (hl.item d), hx]
    simp only [printItems, List.cons_append, List.append_assoc, skipWs_cons (c := ',') (by decide)]
    rw [hy]
    rfl
termination_by _ _ _ _ n => n

/-- The members of a mapping read back, the first given apart, after those read before. -/
theorem parseMembers_print {l : Layout} (hl : l.Blank) :
    ∀ (xs : List (String × Json)) (k : String) (x : Json) (acc : List (String × Json))
      (d d' n : Nat) (r : List Char), WFMembers ((k, x) :: xs) →
      (keys acc ++ keys ((k, x) :: xs)).Nodup → needMembers ((k, x) :: xs) ≤ n →
      parseMembers n (l.item d ++ (printStr k ++ ':' :: (l.colon ++ (print l d x ++
        (printMembers l d xs ++ (l.item d' ++ '}' :: r)))))) acc =
        some (acc ++ (k, x) :: xs, r)
  | xs, k, x, acc, d, d', 0, r, _, _, hn => by simp [needMembers] at hn
  | [], k, x, acc, d, d', n + 1, r, hw, hnd, hn => by
    have hx := parseValue_print hl x d n (l.item d' ++ '}' :: r) hw.1
      (by simp only [needMembers] at hn; omega)
      (stops_append (hl.item d') (stops_cons (by decide) _))
    have hk : k ∉ keys acc := fun hc =>
      (List.nodup_append.mp hnd).2.2 k hc k (by simp [keys]) rfl
    rw [parseMembers, skipWs_append (hl.item d), printStr, List.cons_append,
      skipWs_cons (by decide)]
    simp only [List.append_assoc, List.singleton_append, parseStr_body,
      skipWs_cons (c := ':') (by decide), parseValue_append hl.colon, printMembers, List.nil_append,
      hx, skipWs_append (hl.item d'), skipWs_cons (c := '}') (by decide), setKey_of_notMem hk]
  | (m, y) :: ys, k, x, acc, d, d', n + 1, r, hw, hnd, hn => by
    have hx := parseValue_print hl x d n (printMembers l d ((m, y) :: ys) ++ (l.item d' ++ '}' :: r))
      hw.1 (by simp only [needMembers] at hn; omega)
      (stops_members hl d d' ((m, y) :: ys) (stops_cons (by decide) _))
    have hk : k ∉ keys acc := fun hc =>
      (List.nodup_append.mp hnd).2.2 k hc k (by simp [keys]) rfl
    have hy := parseMembers_print hl ys m y (acc ++ [(k, x)]) d d' n r hw.2
      (by simpa [keys] using hnd) (by simp only [needMembers] at hn ⊢; omega)
    rw [parseMembers, skipWs_append (hl.item d), printStr, List.cons_append,
      skipWs_cons (by decide)]
    simp only [List.append_assoc, List.singleton_append, parseStr_body,
      skipWs_cons (c := ':') (by decide), parseValue_append hl.colon, hx]
    simp only [printMembers, List.cons_append, List.append_assoc,
      skipWs_cons (c := ',') (by decide), setKey_of_notMem hk]
    rw [hy]
    simp
termination_by _ _ _ _ _ _ n => n

end

/-! ### Enough fuel -/

mutual

/-- A text is at least as long as the fuel its document asks for. -/
theorem need_le_length (l : Layout) : ∀ (j : Json) (d : Nat), WF j → need j ≤ (print l d j).length
  | .arr [], d, _ => by simp [need, needItems, print]
  | .arr (x :: xs), d, hw => by
    have hx := need_le_length l x (d + 1) hw.1
    have hxs := needItems_le_length l xs (d + 1) hw.2
    simp only [need, needItems, print, List.length_cons, List.length_append, List.length_nil]
    omega
  | .obj [], d, _ => by simp [need, needMembers, print]
  | .obj ((k, x) :: xs), d, hw => by
    have hx := need_le_length l x (d + 1) hw.2.1
    have hxs := needMembers_le_length l xs (d + 1) hw.2.2
    simp only [need, needMembers, print, List.length_cons, List.length_append, List.length_nil]
    omega
  | .null, d, _ => by simp [need, print]
  | .bool true, d, _ => by simp [need, print]
  | .bool false, d, _ => by simp [need, print]
  | .int i, d, hw => by
    obtain ⟨c, cs, hp, -, -⟩ := print_head l d hw
    simp [need, hp]
  | .float lit, d, hw => by
    obtain ⟨c, cs, hp, -, -⟩ := print_head l d hw
    simp [need, hp]
  | .str s, d, _ => by simp [need, print, printStr]

theorem needItems_le_length (l : Layout) :
    ∀ (xs : List Json) (d : Nat), WFItems xs → needItems xs ≤ (printItems l d xs).length
  | [], d, _ => by simp [needItems]
  | x :: xs, d, hw => by
    have hx := need_le_length l x d hw.1
    have hxs := needItems_le_length l xs d hw.2
    simp only [needItems, printItems, List.length_cons, List.length_append]
    omega

theorem needMembers_le_length (l : Layout) :
    ∀ (xs : List (String × Json)) (d : Nat), WFMembers xs →
      needMembers xs ≤ (printMembers l d xs).length
  | [], d, _ => by simp [needMembers]
  | (k, x) :: xs, d, hw => by
    have hx := need_le_length l x d hw.1
    have hxs := needMembers_le_length l xs d hw.2
    simp only [needMembers, printMembers, List.length_cons, List.length_append]
    omega

end

/-- A written document reads back, when its keys are in order already. -/
theorem loads_print {l : Layout} (hl : l.Blank) {j : Json} (hw : WF j) :
    loads (String.ofList (print l 0 j)) = some j := by
  have hlen := need_le_length l j 0 hw
  have hp := parseValue_print hl j 0 ((print l 0 j).length + 1) [] hw (by omega)
    (fun c hc => absurd hc (by simp))
  rw [List.append_nil] at hp
  simp [loads, hp, skipWs]

/-! ### Sorting keys -/

instance : Std.Total keyLe := ⟨fun a b => le_total a.1 b.1⟩

instance : IsTrans (String × Json) keyLe := ⟨fun _ _ _ => le_trans⟩

theorem keys_sortMembers (kvs : List (String × Json)) : keys (sortMembers kvs) = keys kvs := by
  induction kvs with
  | nil => rfl
  | cons p kvs ih =>
    obtain ⟨k, x⟩ := p
    simpa [keys, sortMembers] using ih

theorem wfMembers_iff (kvs : List (String × Json)) : WFMembers kvs ↔ ∀ p ∈ kvs, WF p.2 := by
  induction kvs with
  | nil => simp [WFMembers]
  | cons p kvs ih =>
    obtain ⟨k, x⟩ := p
    simp [WFMembers, ih]

/-- The keys of a sorted object are those of the object. -/
theorem keys_insertionSort_perm (kvs : List (String × Json)) :
    (keys (kvs.insertionSort keyLe)).Perm (keys kvs) :=
  (List.perm_insertionSort keyLe kvs).map Prod.fst

mutual

/-- Sorting keys keeps a document well formed. -/
theorem wf_sortKeys : ∀ j : Json, WF j → WF j.sortKeys
  | .arr xs, h => wfItems_sortItems xs h
  | .obj kvs, h => by
    refine ⟨?_, (wfMembers_iff _).mpr fun p hp => ?_⟩
    · exact (keys_insertionSort_perm _).nodup_iff.mpr (keys_sortMembers kvs ▸ h.1)
    · exact (wfMembers_iff _).mp (wfMembers_sortMembers kvs h.2) p
        ((List.mem_insertionSort keyLe).mp hp)
  | .null, h => h
  | .bool _, h => h
  | .int _, h => h
  | .float _, h => h
  | .str _, h => h

theorem wfItems_sortItems : ∀ xs : List Json, WFItems xs → WFItems (sortItems xs)
  | [], _ => trivial
  | x :: xs, h => ⟨wf_sortKeys x h.1, wfItems_sortItems xs h.2⟩

theorem wfMembers_sortMembers :
    ∀ xs : List (String × Json), WFMembers xs → WFMembers (sortMembers xs)
  | [], _ => trivial
  | (_, x) :: xs, h => ⟨wf_sortKeys x h.1, wfMembers_sortMembers xs h.2⟩

end

/-- **What is written is read back**, with its keys in order. -/
theorem loads_dumps {l : Layout} (hl : l.Blank) {j : Json} (hw : WF j) :
    loads (dumps l j) = some j.sortKeys :=
  loads_print hl (wf_sortKeys j hw)

/-! ### What is read is well formed -/

theorem keys_setKey (k : String) (x : Json) (kvs : List (String × Json)) :
    keys (setKey k x kvs) = if k ∈ keys kvs then keys kvs else keys kvs ++ [k] := by
  induction kvs with
  | nil => rfl
  | cons p kvs ih =>
    obtain ⟨l, y⟩ := p
    by_cases hl : l = k
    · subst hl
      simp [setKey, keys]
    · have hk : ¬k = l := fun h => hl h.symm
      rw [setKey, if_neg hl]
      simp only [keys, List.map_cons, List.mem_cons, hk, false_or]
      rw [show List.map Prod.fst (setKey k x kvs) = _ from ih]
      simp only [keys]
      by_cases hm : k ∈ List.map Prod.fst kvs <;> simp [hm]

theorem nodup_keys_setKey {k : String} {x : Json} {kvs : List (String × Json)}
    (h : (keys kvs).Nodup) : (keys (setKey k x kvs)).Nodup := by
  rw [keys_setKey]
  split
  · exact h
  · rename_i hk
    exact List.nodup_append.2 ⟨h, by simp, by
      rintro a ha b hb rfl
      exact hk (List.mem_singleton.1 hb ▸ ha)⟩

theorem wfMembers_setKey {k : String} {x : Json} (hx : WF x) :
    ∀ {kvs : List (String × Json)}, WFMembers kvs → WFMembers (setKey k x kvs)
  | [], _ => ⟨hx, trivial⟩
  | (l, y) :: kvs, h => by
    rw [setKey]
    split
    · exact ⟨hx, h.2⟩
    · exact ⟨h.1, wfMembers_setKey hx h.2⟩

theorem wf_classify {tok : List Char} {j : Json} (h : classify tok = some j) : WF j := by
  rw [classify.eq_def] at h
  split at h <;> split at h
  · cases h
    trivial
  · split at h
    · cases h
      exact .inl (by simpa using ‹isFloatLit _ = true›)
    · simp at h
  · cases h
    trivial
  · split at h
    · cases h
      exact .inl (by simpa using ‹isFloatLit _ = true›)
    · simp at h

/-- The three parsers return well-formed documents, by induction on the fuel. -/
theorem wf_parse (n : Nat) :
    (∀ cs j r, parseValue n cs = some (j, r) → WF j) ∧
      (∀ cs xs r, parseItems n cs = some (xs, r) → WFItems xs) ∧
      ∀ cs acc kvs r, (keys acc).Nodup → WFMembers acc → parseMembers n cs acc = some (kvs, r) →
        (keys kvs).Nodup ∧ WFMembers kvs := by
  induction n with
  | zero => simp [parseValue, parseItems, parseMembers]
  | succ n ih =>
    obtain ⟨hvalue, hitems, hmembers⟩ := ih
    refine ⟨fun cs j r h => ?_, fun cs xs r h => ?_, fun cs acc kvs r hk hw h => ?_⟩
    · rw [parseValue] at h
      split at h
      case h_1 | h_2 | h_3 =>
        cases h
        trivial
      case h_4 =>
        cases h
        exact .inr (.inl rfl)
      case h_5 =>
        cases h
        exact .inr (.inr (.inl rfl))
      case h_6 =>
        cases h
        exact .inr (.inr (.inr rfl))
      case h_7 =>
        obtain ⟨p, -, hp⟩ := Option.map_eq_some_iff.1 h
        cases hp
        trivial
      case h_8 =>
        split at h
        · cases h
          trivial
        · obtain ⟨p, hp, heq⟩ := Option.map_eq_some_iff.1 h
          cases heq
          exact hitems _ _ _ hp
      case h_9 =>
        split at h
        · cases h
          exact ⟨List.nodup_nil, trivial⟩
        · obtain ⟨p, hp, heq⟩ := Option.map_eq_some_iff.1 h
          cases heq
          exact hmembers _ [] _ _ List.nodup_nil trivial hp
      case h_10 =>
        obtain ⟨k, hc, heq⟩ := Option.map_eq_some_iff.1 h
        cases heq
        exact wf_classify hc
    · rw [parseItems] at h
      split at h
      · simp at h
      · rename_i x r' hx
        split at h
        · obtain ⟨p, hp, heq⟩ := Option.map_eq_some_iff.1 h
          cases heq
          exact ⟨hvalue _ _ _ hx, hitems _ _ _ hp⟩
        · cases h
          exact ⟨hvalue _ _ _ hx, trivial⟩
        · simp at h
    · rw [parseMembers] at h
      split at h
      · split at h
        · simp at h
        · split at h
          · split at h
            · simp at h
            · rename_i x r' hx
              have hk' := nodup_keys_setKey (k := ‹String›) (x := x) hk
              have hw' := wfMembers_setKey (k := ‹String›) (hvalue _ _ _ hx) hw
              split at h
              · exact hmembers _ _ _ _ hk' hw' h
              · cases h
                exact ⟨hk', hw'⟩
              · simp at h
          · simp at h
      · simp at h

/-- **What is read is well formed.** -/
theorem wf_loads {s : String} {j : Json} (h : loads s = some j) : WF j := by
  rw [loads] at h
  split at h
  · rename_i hp
    split at h
    · cases h
      exact (wf_parse _).1 _ _ _ hp
    · simp at h
  · simp at h

end Json

end DgxSpark
