import DgxSpark.Deploy.Substitution

/-!
# How the three patterns read

The patterns of `redact.py` look at the character before a match, at their own text, and at the
next character (`DgxSpark.Redact.Reads`). A credential is a marker and a token
(`DgxSpark.Redact.afterSecret_eq_some`), a path begins at a slash, and an address is one of three
forms, of which the last one has as many groups as there are.
-/

namespace DgxSpark

namespace Redact

variable {prev : Option Char} {l : List Char}

/-! ### Paths -/

theorem afterSome_eq_some {p : Char → Bool} {cs rest : List Char} :
    afterSome p cs = some rest ↔ cs.head?.any p = true ∧ cs.dropWhile p = rest := by
  rw [afterSome]
  split
  · rename_i h
    simp [h]
  · rename_i h
    simp [h]

theorem length_dropWhile_lt {p : Char → Bool} {cs : List Char} (h : cs.head?.any p = true) :
    (cs.dropWhile p).length < cs.length := by
  cases cs with
  | nil => cases h
  | cons c cs =>
    have hc : p c = true := h
    rw [List.dropWhile_cons, if_pos hc]
    exact Nat.lt_succ_of_le (List.length_dropWhile_le p cs)

def beforePath (c : Char) : Bool := c.isAlphanum || c == ':' || c == '/'

theorem path_reads : Reads pathLength beforePath (fun c => c.any isPathTextChar) (· ≠ '<')
    (· = '/') where
  le prev l n h := by
    cases l with
    | nil => cases h
    | cons c cs =>
      unfold pathLength at h
      split at h
      · split at h
        · cases h
        · obtain ⟨tail, -, rfl⟩ := Option.map_eq_some_iff.1 h
          exact Nat.sub_le _ _
      · cases h
  taken prev l h := by
    obtain ⟨n, h⟩ := h
    unfold pathLength at h
    split at h
    · rename_i cs
      split at h
      · cases h
      · rename_i hbehind
        obtain ⟨tail, htail, -⟩ := Option.map_eq_some_iff.1 h
        refine ⟨Bool.eq_false_iff.2 hbehind, ['/'], cs, rfl, List.cons_ne_nil _ _, by simp,
          by simp, (afterSome_eq_some.1 htail).1, fun prev' m' hprev hm => ?_⟩
        have hlt := length_dropWhile_lt hm
        refine ⟨m'.length - (m'.dropWhile isPathTextChar).length, ?_⟩
        have hsome := afterSome_eq_some.2 ⟨hm, rfl⟩
        have hcond : ¬(prev'.any fun c => c.isAlphanum || c == ':' || c == '/') = true := by
          rw [show (prev'.any fun c => c.isAlphanum || c == ':' || c == '/') = false from hprev]
          exact Bool.false_ne_true
        rw [List.singleton_append, pathLength, if_neg hcond, hsome, Option.map_some,
          List.length_cons]
        congr 1
        omega
    · cases h

/-- A path goes on as far as it can. -/
theorem path_greedy {c : Char} {w m : List Char}
    (h : pathLength prev (c :: w ++ m) = some (w.length + 1)) :
    ∀ d ∈ m.head?, isPathTextChar d = false := by
  rw [List.cons_append] at h
  unfold pathLength at h
  split at h
  · rename_i cs heq
    obtain ⟨rfl, rfl⟩ := List.cons.inj heq
    split at h
    · cases h
    · obtain ⟨tail, htail, hlen⟩ := Option.map_eq_some_iff.1 h
      obtain ⟨-, rfl⟩ := afterSome_eq_some.1 htail
      have hsuffix : (w ++ m).dropWhile isPathTextChar = m := by
        refine List.IsSuffix.eq_of_length ?_ ?_
        · exact List.suffix_of_suffix_length_le (List.dropWhile_suffix _)
            (List.suffix_append w m) (by
              have hle := List.length_dropWhile_le isPathTextChar (w ++ m)
              simp only [List.length_cons, List.length_append] at hlen hle
              omega)
        · have hle := List.length_dropWhile_le isPathTextChar (w ++ m)
          simp only [List.length_cons, List.length_append] at hlen hle
          omega
      intro d hd
      have hstop := List.head?_dropWhile_not isPathTextChar (w ++ m)
      rw [hsuffix, Option.mem_def.1 hd] at hstop
      simpa using hstop
  · cases h

/-! ### Credentials -/

/-- The first letter of a marker. -/
def opensMarker (c : Char) : Prop := foldCase c = 'b' ∨ foldCase c = 'a' ∨ foldCase c = 'p'

theorem foldCase_of_isSpace {c : Char} (h : Text.isSpace c = true) : foldCase c = c := by
  have hne : c.toNat ≠ 0x17f ∧ c.toNat ≠ 0x212a ∧ c.toNat ≠ 0x130 ∧ c.toNat ≠ 0x131 ∧
      ¬(65 ≤ c.toNat ∧ c.toNat ≤ 90) := by
    simp only [Text.isSpace, Bool.or_eq_true, Bool.and_eq_true, decide_eq_true_eq,
      beq_iff_eq] at h
    omega
  obtain ⟨h1, h2, h3, h4, hupper⟩ := hne
  rw [foldCase, if_neg h1, if_neg h2, if_neg (by rintro (h | h); exacts [h3 h, h4 h])]
  rw [Char.toLower, dif_neg]
  rintro ⟨hlo, hhi⟩
  exact hupper ⟨UInt32.le_iff_toNat_le.1 hlo, UInt32.le_iff_toNat_le.1 hhi⟩

theorem isSecretChar_of_opensMarker {c : Char} (h : opensMarker c) : isSecretChar c = true := by
  rw [isSecretChar, Bool.and_eq_true, Bool.not_eq_true', bne_iff_ne]
  constructor
  · by_contra hspace
    have hs : Text.isSpace c = true := by simpa using hspace
    rw [opensMarker, foldCase_of_isSpace hs] at h
    rcases h with rfl | rfl | rfl <;> exact absurd hs (by decide)
  · rintro rfl
    rcases h with h | h | h <;> exact absurd h (by decide)

/-- A word is read in any case, and what follows it does not matter. -/
theorem afterWord_eq_some {word cs rest : List Char} :
    afterWord word cs = some rest ↔ ∃ v, cs = v ++ rest ∧ v.map foldCase = word := by
  rw [afterWord]
  constructor
  · intro h
    split at h
    · rename_i hprefix
      obtain rfl := Option.some.inj h
      refine ⟨cs.take word.length, (List.take_append_drop _ _).symm, ?_⟩
      have hp := List.prefix_iff_eq_take.1 (List.isPrefixOf_iff_prefix.1 hprefix)
      rw [List.map_take]
      exact hp.symm
    · cases h
  · rintro ⟨v, rfl, rfl⟩
    rw [List.map_append, if_pos (List.isPrefixOf_iff_prefix.2 (List.prefix_append _ _)),
      List.length_map, List.drop_left]

theorem credentialWords_apart : ∀ a ∈ credentialWords, ∀ b ∈ credentialWords, a <+: b → a = b := by
  decide +kernel

/-- The name of a credential is read in any case, and no other name begins so. -/
theorem afterWords_eq_some {cs rest : List Char} :
    afterWords credentialWords cs = some rest ↔
      ∃ v, cs = v ++ rest ∧ v.map foldCase ∈ credentialWords := by
  constructor
  · intro h
    obtain ⟨word, hword, hrest⟩ := List.exists_of_findSome?_eq_some h
    obtain ⟨v, hv, hfold⟩ := afterWord_eq_some.1 hrest
    exact ⟨v, hv, hfold ▸ hword⟩
  · rintro ⟨v, rfl, hv⟩
    cases hall : afterWords credentialWords (v ++ rest) with
    | none =>
      have hnone := List.findSome?_eq_none_iff.1 hall _ hv
      rw [afterWord_eq_some.2 ⟨v, rfl, rfl⟩] at hnone
      cases hnone
    | some other =>
      obtain ⟨word, hword, hrest⟩ := List.exists_of_findSome?_eq_some hall
      obtain ⟨x, hx, rfl⟩ := afterWord_eq_some.1 hrest
      have hprefix : x.map foldCase <+: v.map foldCase ∨ v.map foldCase <+: x.map foldCase :=
        (List.prefix_or_prefix_of_prefix ⟨other, hx.symm⟩ ⟨rest, rfl⟩).imp
          (fun h => h.map foldCase) fun h => h.map foldCase
      have heq : x.map foldCase = v.map foldCase := hprefix.elim
        (fun h => credentialWords_apart _ hword _ hv h)
        fun h => (credentialWords_apart _ hv _ hword h).symm
      have hlen : v.length = x.length := by
        rw [← List.length_map (f := foldCase), ← heq, List.length_map]
      rw [(List.append_inj hx hlen).2]

/-- The marker of a credential. -/
def IsMarker (w : List Char) : Prop :=
  (∃ v s, w = v ++ s ∧ v.map foldCase = "bearer".toList ∧ s ≠ [] ∧ ∀ c ∈ s, Text.isSpace c = true) ∨
    ∃ v s sep s', w = v ++ (s ++ sep :: s') ∧ v.map foldCase ∈ credentialWords ∧
      (∀ c ∈ s, Text.isSpace c = true) ∧ (sep = '=' ∨ sep = ':') ∧ ∀ c ∈ s', Text.isSpace c = true

theorem dropWhile_append_of_all {p : Char → Bool} {s m : List Char} (hs : ∀ c ∈ s, p c = true)
    (hm : ∀ c ∈ m.head?, p c = false) : (s ++ m).dropWhile p = m := by
  induction s with
  | nil =>
    cases m with
    | nil => rfl
    | cons c m =>
      rw [List.nil_append, List.dropWhile_cons, hm c rfl]
      rfl
  | cons c s ih =>
    obtain ⟨hc, hs⟩ := List.forall_mem_cons.1 hs
    rw [List.cons_append, List.dropWhile_cons, if_pos hc]
    exact ih hs

theorem not_isSpace_of_isSecretChar {c : Char} (h : isSecretChar c = true) :
    Text.isSpace c = false := by
  rw [isSecretChar, Bool.and_eq_true, Bool.not_eq_true'] at h
  exact h.1

theorem exists_takeWhile (p : Char → Bool) (cs : List Char) :
    ∃ s, cs = s ++ cs.dropWhile p ∧ ∀ c ∈ s, p c = true :=
  ⟨cs.takeWhile p, List.takeWhile_append_dropWhile.symm, fun _ => List.mem_takeWhile_imp⟩

/-- **A marker and a token**: what `_SECRET_TEXT` matches. -/
theorem afterSecret_eq_some {cs rest : List Char} :
    afterSecret cs = some rest ↔ ∃ w m, cs = w ++ m ∧ IsMarker w ∧
      m.head?.any isSecretChar = true ∧ rest = m.dropWhile isSecretChar := by
  constructor
  · intro h
    rw [afterSecret] at h
    split at h
    · rename_i after hword
      obtain ⟨v, rfl, hv⟩ := afterWord_eq_some.1 hword
      obtain ⟨m, hm, h⟩ := Option.bind_eq_some_iff.1 h
      obtain ⟨hspace, rfl⟩ := afterSome_eq_some.1 hm
      obtain ⟨htoken, rfl⟩ := afterSome_eq_some.1 h
      obtain ⟨s, hs, hall⟩ := exists_takeWhile Text.isSpace after
      refine ⟨v ++ s, after.dropWhile Text.isSpace, by rw [List.append_assoc, ← hs],
        .inl ⟨v, s, rfl, hv, ?_, hall⟩, htoken, rfl⟩
      rintro rfl
      have hlt := length_dropWhile_lt hspace
      rw [List.nil_append] at hs
      rw [← hs] at hlt
      exact lt_irrefl _ hlt
    · split at h
      · cases h
      · rename_i after hword
        obtain ⟨v, rfl, hv⟩ := afterWords_eq_some.1 hword
        obtain ⟨s, hs, hall⟩ := exists_takeWhile Text.isSpace after
        have hfinish : ∀ sep more, (sep = '=' ∨ sep = ':') →
            after.dropWhile Text.isSpace = sep :: more →
            afterSome isSecretChar (more.dropWhile Text.isSpace) = some rest →
            ∃ w m, v ++ after = w ++ m ∧ IsMarker w ∧ m.head?.any isSecretChar = true ∧
              rest = m.dropWhile isSecretChar := by
          intro sep more hsep hmore h
          obtain ⟨htoken, rfl⟩ := afterSome_eq_some.1 h
          obtain ⟨s', hs', hall'⟩ := exists_takeWhile Text.isSpace more
          refine ⟨v ++ (s ++ sep :: s'), more.dropWhile Text.isSpace, ?_,
            .inr ⟨v, s, sep, s', rfl, hv, hall, hsep, hall'⟩, htoken, rfl⟩
          rw [List.append_assoc, List.append_assoc, List.cons_append, ← hs', ← hmore, ← hs]
        split at h
        · rename_i more hmore
          exact hfinish '=' more (.inl rfl) hmore h
        · rename_i more hmore
          exact hfinish ':' more (.inr rfl) hmore h
        · cases h
  · rintro ⟨w, m, rfl, hw, htoken, rfl⟩
    have hspace : ∀ c ∈ m.head?, Text.isSpace c = false := fun c hc => by
      rw [Option.mem_def.1 hc] at htoken
      exact not_isSpace_of_isSecretChar htoken
    rcases hw with ⟨v, s, rfl, hv, hne, hs⟩ | ⟨v, s, sep, s', rfl, hv, hs, hsep, hs'⟩
    · rw [afterSecret, List.append_assoc, afterWord_eq_some.2 ⟨v, rfl, hv⟩]
      refine Option.bind_eq_some_iff.2 ⟨m, afterSome_eq_some.2 ⟨?_, ?_⟩,
        afterSome_eq_some.2 ⟨htoken, rfl⟩⟩
      · cases s with
        | nil => exact absurd rfl hne
        | cons c s => exact hs c List.mem_cons_self
      · exact dropWhile_append_of_all hs hspace
    · have hbearer : afterWord "bearer".toList (v ++ (s ++ sep :: s') ++ m) = none := by
        cases hword : afterWord "bearer".toList (v ++ (s ++ sep :: s') ++ m) with
        | none => rfl
        | some rest =>
          obtain ⟨x, hx, hfold⟩ := afterWord_eq_some.1 hword
          have hhead : ∀ a ∈ credentialWords, a.head? ≠ some 'b' ∧ a ≠ [] := by decide +kernel
          obtain ⟨hb, hnil⟩ := hhead _ hv
          cases v with
          | nil => exact absurd rfl hnil
          | cons c v =>
            cases x with
            | nil => cases hfold
            | cons d x =>
              obtain ⟨rfl, -⟩ := List.cons.inj hx
              obtain ⟨hc, -⟩ := List.cons.inj hfold
              exact absurd (congrArg some hc) hb
      have hsepSpace : Text.isSpace sep = false := by
        rcases hsep with rfl | rfl <;> decide
      have hfirst : (s ++ sep :: s' ++ m).dropWhile Text.isSpace = sep :: (s' ++ m) := by
        rw [List.append_assoc]
        refine dropWhile_append_of_all hs fun c hc => ?_
        obtain rfl := Option.some.inj hc
        exact hsepSpace
      have hsecond : (s' ++ m).dropWhile Text.isSpace = m := dropWhile_append_of_all hs' hspace
      have hsome : afterSome isSecretChar ((s' ++ m).dropWhile Text.isSpace) =
          some (m.dropWhile isSecretChar) := by
        rw [hsecond]
        exact afterSome_eq_some.2 ⟨htoken, rfl⟩
      rw [afterSecret, hbearer]
      dsimp only
      rw [List.append_assoc, afterWords_eq_some.2 ⟨v, rfl, hv⟩]
      dsimp only
      rw [hfirst]
      rcases hsep with rfl | rfl <;> exact hsome

theorem marker_words : ∀ a ∈ "bearer".toList :: credentialWords, '<' ∉ a ∧
    ∃ c ∈ a.head?, c = 'b' ∨ c = 'a' ∨ c = 'p' := by
  have h : ∀ a ∈ "bearer".toList :: credentialWords, '<' ∉ a ∧
      (a.head? = some 'b' ∨ a.head? = some 'a' ∨ a.head? = some 'p') := by
    decide +kernel
  intro a ha
  obtain ⟨hnot, hhead⟩ := h a ha
  refine ⟨hnot, ?_⟩
  rcases hhead with h | h | h
  · exact ⟨'b', h, .inl rfl⟩
  · exact ⟨'a', h, .inr (.inl rfl)⟩
  · exact ⟨'p', h, .inr (.inr rfl)⟩

/-- What a marker is made of. -/
theorem IsMarker.chars {w : List Char} (h : IsMarker w) :
    w ≠ [] ∧ (∀ c ∈ w, c ≠ '<') ∧ ∀ c ∈ w.head?, opensMarker c := by
  obtain ⟨v, s, rfl, hv, hs⟩ : ∃ v s, w = v ++ s ∧
      v.map foldCase ∈ "bearer".toList :: credentialWords ∧ ∀ c ∈ s, c ≠ '<' := by
    have hspace : ∀ c, Text.isSpace c = true → c ≠ '<' := by
      rintro c hc rfl
      exact absurd hc (by decide)
    rcases h with ⟨v, s, rfl, hv, -, hs⟩ | ⟨v, s, sep, s', rfl, hv, hs, hsep, hs'⟩
    · exact ⟨v, s, rfl, List.mem_cons.2 (.inl hv), fun c hc => hspace c (hs c hc)⟩
    · refine ⟨v, s ++ sep :: s', rfl, List.mem_cons_of_mem _ hv, fun c hc => ?_⟩
      rcases List.mem_append.1 hc with hc | hc
      · exact hspace c (hs c hc)
      · rcases List.mem_cons.1 hc with rfl | hc
        · rcases hsep with rfl | rfl <;> decide
        · exact hspace c (hs' c hc)
  obtain ⟨hnot, c, hc, hopen⟩ := marker_words _ hv
  cases v with
  | nil => cases hc
  | cons d v =>
    obtain rfl := Option.some.inj hc
    refine ⟨List.cons_ne_nil _ _, fun x hx => ?_, fun x hx => ?_⟩
    · rcases List.mem_append.1 hx with hx | hx
      · rintro rfl
        exact hnot (List.mem_map.2 ⟨'<', hx, by decide⟩)
      · exact hs x hx
    · obtain rfl := Option.some.inj hx
      exact hopen

theorem secretLength_eq (prev : Option Char) {w m : List Char} (hw : IsMarker w)
    (hm : m.head?.any isSecretChar = true) : secretLength prev (w ++ m) =
      some (w.length + (m.length - (m.dropWhile isSecretChar).length)) := by
  have hlt := length_dropWhile_lt hm
  rw [secretLength, afterSecret_eq_some.2 ⟨w, m, rfl, hw, hm, rfl⟩, Option.map_some,
    List.length_append]
  congr 1
  omega

/-- A match of a credential. -/
theorem secretLength_eq_some {n : Nat} (h : secretLength prev l = some n) :
    ∃ w m, l = w ++ m ∧ IsMarker w ∧ m.head?.any isSecretChar = true ∧
      n = w.length + (m.length - (m.dropWhile isSecretChar).length) := by
  obtain ⟨rest, hrest, -⟩ := Option.map_eq_some_iff.1 h
  obtain ⟨w, m, rfl, hw, hm, -⟩ := afterSecret_eq_some.1 hrest
  rw [secretLength_eq prev hw hm] at h
  exact ⟨w, m, rfl, hw, hm, (Option.some.inj h).symm⟩

theorem secret_reads : Reads secretLength (fun _ => false) (fun c => c.any isSecretChar) (· ≠ '<')
    opensMarker where
  le prev l n h := by
    obtain ⟨rest, -, rfl⟩ := Option.map_eq_some_iff.1 h
    exact Nat.sub_le _ _
  taken prev l h := by
    obtain ⟨n, h⟩ := h
    obtain ⟨w, m, rfl, hw, hm, -⟩ := secretLength_eq_some h
    obtain ⟨hne, hown, hfirst⟩ := hw.chars
    refine ⟨by cases prev <;> rfl, w, m, rfl, hne, hown, hfirst, hm, fun prev' m' _ hm' => ?_⟩
    have hlt := length_dropWhile_lt hm'
    refine ⟨w.length + (m'.length - (m'.dropWhile isSecretChar).length) - 1, ?_⟩
    rw [secretLength_eq prev' hw hm']
    congr 1
    omega

theorem secret_anywhere (prev prev' : Option Char) (l : List Char) (h : Hit secretLength prev l) :
    Hit secretLength prev' l := h

theorem not_isMarker_acted {l w m : List Char}
    (h : 'a' :: 'c' :: 't' :: l = w ++ m) : ¬IsMarker w := by
  intro hw
  obtain ⟨v, k, hk, hv⟩ : ∃ v k, w ++ m = v ++ k ∧
      v.map foldCase ∈ "bearer".toList :: credentialWords := by
    rcases hw with ⟨v, s, rfl, hv, -, -⟩ | ⟨v, s, sep, s', rfl, hv, -, -, -⟩
    · exact ⟨v, s ++ m, List.append_assoc _ _ _, List.mem_cons.2 (.inl hv)⟩
    · exact ⟨v, s ++ sep :: s' ++ m, List.append_assoc _ _ _, List.mem_cons_of_mem _ hv⟩
  have hwords : ∀ a ∈ "bearer".toList :: credentialWords,
      3 ≤ a.length ∧ a.take 3 ≠ ['a', 'c', 't'] := by
    decide +kernel
  obtain ⟨hlen, hne⟩ := hwords _ hv
  rw [List.length_map] at hlen
  refine hne ?_
  have htake : v.take 3 = ['a', 'c', 't'] := by
    have hall := congrArg (List.take 3) (h.trans hk)
    rw [List.take_append_of_le_length hlen] at hall
    exact hall.symm
  rw [← List.map_take, htake]
  decide

/-- The replacement has no credential. -/
theorem secret_inside (prev : Option Char) (l : List Char) (h : Free secretLength (some '>') l) :
    Free secretLength prev (redacted.toList ++ l) := by
  have hnot : ∀ c ∈ ['<', 'r', 'e', 'd', 'c', 't', '>'], ¬opensMarker c := by
    intro c hc
    simp only [List.mem_cons, List.not_mem_nil, or_false] at hc
    rcases hc with rfl | rfl | rfl | rfl | rfl | rfl | rfl <;> rintro (h | h | h) <;>
      exact absurd h (by decide)
  have hacted : ¬Hit secretLength (some 'd') ('a' :: 'c' :: 't' :: 'e' :: 'd' :: '>' :: l) := by
    rintro ⟨n, h⟩
    obtain ⟨w, m, hsplit, hw, -, -⟩ := secretLength_eq_some h
    exact not_isMarker_acted hsplit hw
  refine ⟨?_, ?_, ?_, ?_, hacted, ?_, ?_, ?_, ?_, ?_, h⟩ <;>
    exact secret_reads.not_hit_of_first (hnot _ (by decide))

/-- A token goes on as far as it can. -/
theorem secret_greedy {c : Char} {w m : List Char}
    (h : secretLength prev (c :: w ++ m) = some (w.length + 1)) :
    ∀ d ∈ m.head?, isSecretChar d = false := by
  obtain ⟨v, k, hk, -, -, hlen⟩ := secretLength_eq_some h
  have hle := List.length_dropWhile_le isSecretChar k
  have hlength := congrArg List.length hk
  simp only [List.length_append, List.length_cons] at hlength
  have hsuffix : k.dropWhile isSecretChar <:+ c :: w ++ m :=
    (List.dropWhile_suffix _).trans ⟨v, hk.symm⟩
  have heq : k.dropWhile isSecretChar = m := by
    refine List.IsSuffix.eq_of_length (List.suffix_of_suffix_length_le hsuffix
      (List.suffix_append _ m) ?_) ?_ <;> omega
  intro d hd
  have hstop := List.head?_dropWhile_not isSecretChar k
  rw [heq, Option.mem_def.1 hd] at hstop
  simpa using hstop

/-! ### Addresses -/

/-- The characters of an address. -/
def addressChar (c : Char) : Prop := isHexAny c = true ∨ c = '.' ∨ c = ':' ∨ c = '[' ∨ c = ']'

/-- What may come after an address. -/
def notAlphanum (c : Option Char) : Bool := !c.any Char.isAlphanum

theorem isAlphanum_of_isHexAny {c : Char} (h : isHexAny c = true) : c.isAlphanum = true := by
  rw [isHexAny, Ip.hexDigit] at h
  have hval : ∀ a b : Char, a ≤ b → a.val ≤ b.val := fun a b hab => hab
  simp only [Char.isAlphanum, Char.isAlpha, Char.isUpper, Char.isLower, Char.isDigit,
    Bool.or_eq_true, Bool.and_eq_true, decide_eq_true_eq]
  split at h
  · rename_i hc
    exact .inr ⟨hval _ _ hc.1, hval _ _ hc.2⟩
  · split at h
    · rename_i hc
      exact .inl (.inr ⟨hval _ _ hc.1,
        UInt32.le_trans (hval _ _ hc.2) (by decide : 'f'.val ≤ 'z'.val)⟩)
    · split at h
      · rename_i hc
        exact .inl (.inl ⟨hval _ _ hc.1,
          UInt32.le_trans (hval _ _ hc.2) (by decide : 'F'.val ≤ 'Z'.val)⟩)
      · cases h

theorem isHexAny_of_isDigit {c : Char} (h : c.isDigit = true) : isHexAny c = true := by
  rw [Char.isDigit, Bool.and_eq_true, decide_eq_true_eq, decide_eq_true_eq] at h
  have hc : '0' ≤ c ∧ c ≤ '9' := h
  rw [isHexAny, Ip.hexDigit, if_pos hc]
  rfl

theorem bounded_eq_some {cs rest : List Char} :
    bounded cs = some rest ↔ notAlphanum cs.head? = true ∧ cs = rest := by
  rw [bounded, notAlphanum]
  cases h : cs.head?.any Char.isAlphanum <;> simp

/-- A way to read a text: what it takes it takes again, if what follows begins as `ahead` says. -/
structure Takes (ahead : Option Char → Bool) (f : List Char → Option (List Char))
    (w : List Char) : Prop where
  within : ∀ c ∈ w, addressChar c
  again : ∀ m, ahead m.head? = true → f (w ++ m) = some m

theorem octet_takes {cs rest : List Char} (h : afterOctet cs = some rest) :
    ∃ w, cs = w ++ rest ∧ w ≠ [] ∧
      Takes (fun c => !c.any Char.isDigit) afterOctet w := by
  rw [afterOctet] at h
  split at h
  · rename_i hlen
    have hsplit := List.takeWhile_append_dropWhile (p := Char.isDigit) (l := cs)
    have hall : ∀ c ∈ cs.takeWhile Char.isDigit, c.isDigit = true :=
      fun c hc => List.mem_takeWhile_imp hc
    obtain rfl := Option.some.inj h
    generalize cs.takeWhile Char.isDigit = w at hsplit hall hlen ⊢
    generalize cs.dropWhile Char.isDigit = m at hsplit
    subst hsplit
    refine ⟨w, by rw [List.drop_left], ?_, fun c hc => .inl (isHexAny_of_isDigit (hall c hc)),
      fun m' hm' => ?_⟩
    · rintro rfl
      exact absurd hlen.1 (by decide)
    · have htake : (w ++ m').takeWhile Char.isDigit = w := by
        rw [List.takeWhile_append_of_pos hall]
        cases m' with
        | nil => simp
        | cons c m' =>
          have hc : c.isDigit = false := by simpa using hm'
          rw [List.takeWhile_cons, hc]
          exact List.append_nil w
      rw [afterOctet]
      rw [htake, if_pos hlen, List.drop_left]
  · cases h

theorem dottedOctet_takes {cs rest : List Char} (h : afterDottedOctet cs = some rest) :
    ∃ w, cs = w ++ rest ∧ w ≠ [] ∧ Takes (fun _ => true) afterDottedOctet w := by
  rw [afterDottedOctet] at h
  split at h
  · rename_i rest' hoctet
    obtain rfl := Option.some.inj h
    obtain ⟨w, rfl, hne, hw⟩ := octet_takes hoctet
    refine ⟨w ++ ['.'], by simp, by simp, ?_, fun m _ => ?_⟩
    · intro c hc
      rcases List.mem_append.1 hc with hc | hc
      · exact hw.within c hc
      · exact .inr (.inl (List.mem_singleton.1 hc))
    · rw [List.append_assoc, List.singleton_append, afterDottedOctet, hw.again _ rfl]
      rfl
  · cases h

theorem dotted_takes {cs rest : List Char} (h : afterDotted cs = some rest) :
    notAlphanum rest.head? = true ∧ ∃ w, cs = w ++ rest ∧ w ≠ [] ∧
      Takes notAlphanum afterDotted w := by
  obtain ⟨r1, h1, h⟩ := Option.bind_eq_some_iff.1 h
  obtain ⟨r2, h2, h⟩ := Option.bind_eq_some_iff.1 h
  obtain ⟨r3, h3, h⟩ := Option.bind_eq_some_iff.1 h
  obtain ⟨r4, h4, h⟩ := Option.bind_eq_some_iff.1 h
  obtain ⟨hnext, rfl⟩ := bounded_eq_some.1 h
  obtain ⟨w1, rfl, hne, hw1⟩ := dottedOctet_takes h1
  obtain ⟨w2, rfl, -, hw2⟩ := dottedOctet_takes h2
  obtain ⟨w3, rfl, -, hw3⟩ := dottedOctet_takes h3
  obtain ⟨w4, rfl, -, hw4⟩ := octet_takes h4
  refine ⟨hnext, w1 ++ (w2 ++ (w3 ++ w4)), by simp, by simp [hne], ?_, fun m hm => ?_⟩
  · intro c hc
    simp only [List.mem_append] at hc
    rcases hc with hc | hc | hc | hc
    exacts [hw1.within c hc, hw2.within c hc, hw3.within c hc, hw4.within c hc]
  · have hdigit : (!m.head?.any Char.isDigit) = true := by
      cases m with
      | nil => rfl
      | cons c m =>
        have hc : c.isAlphanum = false := by simpa [notAlphanum] using hm
        rw [Char.isAlphanum, Bool.or_eq_false_iff] at hc
        simp [hc.2]
    rw [List.append_assoc, List.append_assoc, List.append_assoc, afterDotted]
    refine Option.bind_eq_some_iff.2 ⟨_, hw1.again _ rfl, Option.bind_eq_some_iff.2
      ⟨_, hw2.again _ rfl, Option.bind_eq_some_iff.2 ⟨_, hw3.again _ rfl,
        Option.bind_eq_some_iff.2 ⟨_, hw4.again _ hdigit, bounded_eq_some.2 ⟨hm, rfl⟩⟩⟩⟩⟩

theorem bracketed_takes {cs rest : List Char} (h : afterBracketed cs = some rest) :
    notAlphanum rest.head? = true ∧ ∃ w, cs = w ++ rest ∧ w ≠ [] ∧
      Takes notAlphanum afterBracketed w := by
  unfold afterBracketed at h
  split at h
  · rename_i body
    split at h
    · rename_i rest' hsome
      obtain ⟨hnext, rfl⟩ := bounded_eq_some.1 h
      obtain ⟨hhead, hdrop⟩ := afterSome_eq_some.1 hsome
      obtain ⟨w, hw, hall⟩ := exists_takeWhile (fun c => isHexAny c || c == ':' || c == '.') body
      rw [hdrop] at hw
      subst hw
      have hclose : ∀ m : List Char, ∀ c ∈ (']' :: m).head?,
          (isHexAny c || c == ':' || c == '.') = false := by
        intro m c hc
        obtain rfl := Option.some.inj hc
        decide
      refine ⟨hnext, '[' :: (w ++ [']']), by simp, List.cons_ne_nil _ _, ?_, fun m hm => ?_⟩
      · intro c hc
        rcases List.mem_cons.1 hc with rfl | hc
        · exact .inr (.inr (.inr (.inl rfl)))
        · rcases List.mem_append.1 hc with hc | hc
          · have hclass := hall c hc
            simp only [Bool.or_eq_true, beq_iff_eq] at hclass
            rcases hclass with (hclass | hclass) | hclass
            · exact .inl hclass
            · exact .inr (.inr (.inl hclass))
            · exact .inr (.inl hclass)
          · exact .inr (.inr (.inr (.inr (List.mem_singleton.1 hc))))
      · have hbody : afterSome (fun c => isHexAny c || c == ':' || c == '.') (w ++ ']' :: m) =
            some (']' :: m) := by
          refine afterSome_eq_some.2 ⟨?_, dropWhile_append_of_all hall (hclose m)⟩
          cases w with
          | nil =>
            have hopen : (isHexAny ']' || ']' == ':' || ']' == '.') = true := hhead
            exact absurd hopen (by decide)
          | cons c w => exact hall c List.mem_cons_self
        rw [List.cons_append, List.append_assoc, List.singleton_append, afterBracketed, hbody]
        exact bounded_eq_some.2 ⟨hm, rfl⟩
    · cases h
  · cases h

theorem group_takes {cs rest : List Char} (h : afterGroup cs = some rest) :
    ∃ w, cs = w ++ rest ∧ w ≠ [] ∧ Takes (fun _ => true) afterGroup w := by
  rw [afterGroup] at h
  have hsplit := List.takeWhile_append_dropWhile (p := isHexAny) (l := cs)
  have hall : ∀ c ∈ cs.takeWhile isHexAny, isHexAny c = true :=
    fun c hc => List.mem_takeWhile_imp hc
  generalize cs.takeWhile isHexAny = w at hsplit hall h
  generalize cs.dropWhile isHexAny = m at hsplit
  subst hsplit
  rw [List.drop_left] at h
  split at h
  · split at h
    · rename_i hlen
      obtain rfl := Option.some.inj h
      refine ⟨w ++ [':'], by simp, by simp, ?_, fun m _ => ?_⟩
      · intro c hc
        rcases List.mem_append.1 hc with hc | hc
        · exact .inl (hall c hc)
        · exact .inr (.inr (.inl (List.mem_singleton.1 hc)))
      · have htake : (w ++ ':' :: m).takeWhile isHexAny = w := by
          rw [List.takeWhile_append_of_pos hall, List.takeWhile_cons,
            show isHexAny ':' = false by decide]
          exact List.append_nil w
        rw [List.append_assoc, List.singleton_append, afterGroup]
        rw [htake, List.drop_left]
        exact if_pos hlen
    · cases h
  · cases h

theorem self_mem_groupRests (n : Nat) (cs : List Char) : cs ∈ groupRests n cs := by
  cases n with
  | zero => exact List.mem_singleton_self cs
  | succ n =>
    rw [groupRests]
    split
    · exact List.mem_append_right _ (List.mem_singleton_self cs)
    · exact List.mem_singleton_self cs

theorem groupRests_takes {n : Nat} {cs rest : List Char} (h : rest ∈ groupRests n cs) :
    ∃ w, cs = w ++ rest ∧ (∀ c ∈ w, addressChar c) ∧ ∀ m, m ∈ groupRests n (w ++ m) := by
  induction n generalizing cs with
  | zero =>
    obtain rfl := List.mem_singleton.1 h
    exact ⟨[], rfl, fun c hc => absurd hc List.not_mem_nil, fun m => List.mem_singleton_self m⟩
  | succ n ih =>
    rw [groupRests] at h
    have hself : rest = cs → ∃ w, cs = w ++ rest ∧ (∀ c ∈ w, addressChar c) ∧
        ∀ m, m ∈ groupRests (n + 1) (w ++ m) := by
      rintro rfl
      exact ⟨[], rfl, fun c hc => absurd hc List.not_mem_nil, fun m => self_mem_groupRests _ m⟩
    split at h
    · rename_i r hgroup
      rcases List.mem_append.1 h with hrest | hrest
      · obtain ⟨v, hcs, -, hv⟩ := group_takes hgroup
        obtain ⟨w, rfl, hw, hagain⟩ := ih hrest
        subst hcs
        refine ⟨v ++ w, by simp, fun c hc => (List.mem_append.1 hc).elim (hv.within c) (hw c),
          fun m => ?_⟩
        rw [List.append_assoc, groupRests, hv.again _ rfl]
        exact List.mem_append_left _ (hagain m)
      · exact hself (List.mem_singleton.1 hrest)
    · exact hself (List.mem_singleton.1 h)

/-- The ways with two groups or more. -/
theorem mem_twoGroups {cs rest : List Char} :
    rest ∈ (groupRests 7 cs).take ((groupRests 7 cs).length - 2) ↔
      ∃ r s, afterGroup cs = some r ∧ afterGroup r = some s ∧ rest ∈ groupRests 5 s := by
  have hlast : ∀ (xs : List (List Char)) a b,
      (xs ++ [a] ++ [b]).take ((xs ++ [a] ++ [b]).length - 2) = xs := by
    intro xs a b
    simp
  rw [groupRests]
  cases hfirst : afterGroup cs with
  | none => simp
  | some r =>
    dsimp only
    rw [groupRests]
    cases hsecond : afterGroup r with
    | none => simp [hsecond]
    | some s =>
      dsimp only
      rw [hlast]
      simp [hsecond]

/-- A last group, and its end. -/
theorem grouped_takes {cs rest : List Char} (h : afterGrouped cs = some rest) :
    notAlphanum rest.head? = true ∧ ∃ w, cs = w ++ rest ∧ w ≠ [] ∧ (∀ c ∈ w, addressChar c) ∧
      ∀ m, notAlphanum m.head? = true → (afterGrouped (w ++ m)).isSome = true := by
  obtain ⟨r, hmem, hr⟩ := List.exists_of_findSome?_eq_some h
  obtain ⟨r1, r2, h1, h2, h3⟩ := mem_twoGroups.1 hmem
  obtain ⟨w1, rfl, hne, hw1⟩ := group_takes h1
  obtain ⟨w2, rfl, -, hw2⟩ := group_takes h2
  obtain ⟨w3, rfl, hw3, hagain⟩ := groupRests_takes h3
  have hsplit := List.takeWhile_append_dropWhile (p := isHexAny) (l := r)
  have hall : ∀ c ∈ r.takeWhile isHexAny, isHexAny c = true :=
    fun c hc => List.mem_takeWhile_imp hc
  dsimp only at hr
  generalize r.takeWhile isHexAny = w4 at hsplit hall hr
  generalize r.dropWhile isHexAny = m at hsplit
  subst hsplit
  split at hr
  · rename_i hlen
    rw [List.drop_left] at hr
    obtain ⟨hnext, rfl⟩ := bounded_eq_some.1 hr
    refine ⟨hnext, w1 ++ (w2 ++ (w3 ++ w4)), by simp, by simp [hne], ?_, fun m' hm' => ?_⟩
    · intro c hc
      simp only [List.mem_append] at hc
      rcases hc with hc | hc | hc | hc
      exacts [hw1.within c hc, hw2.within c hc, hw3 c hc, .inl (hall c hc)]
    · have htake : (w4 ++ m').takeWhile isHexAny = w4 := by
        rw [List.takeWhile_append_of_pos hall]
        cases m' with
        | nil => simp
        | cons c m' =>
          have hc : isHexAny c = false := by
            by_contra hhex
            have halnum := isAlphanum_of_isHexAny (by simpa using hhex : isHexAny c = true)
            simp [notAlphanum, halnum] at hm'
          rw [List.takeWhile_cons, hc]
          exact List.append_nil w4
      rw [List.append_assoc, List.append_assoc, List.append_assoc, afterGrouped]
      refine List.findSome?_isSome_iff.2 ⟨w4 ++ m', mem_twoGroups.2 ⟨_, _, hw1.again _ rfl,
        hw2.again _ rfl, hagain _⟩, ?_⟩
      dsimp only
      rw [htake, if_pos hlen, List.drop_left, bounded_eq_some.2 ⟨hm', rfl⟩]
      rfl
  · cases hr

/-- The alternatives of `_IP_TEXT`. -/
def addressRest (cs : List Char) : Option (List Char) :=
  (afterDotted cs).or ((afterBracketed cs).or (afterGrouped cs))

theorem address_takes {cs rest : List Char} (h : addressRest cs = some rest) :
    notAlphanum rest.head? = true ∧ ∃ w, cs = w ++ rest ∧ w ≠ [] ∧ (∀ c ∈ w, addressChar c) ∧
      ∀ m, notAlphanum m.head? = true → ∃ r, addressRest (w ++ m) = some r := by
  have hsome : ∀ l, ((afterDotted l).isSome = true ∨ (afterBracketed l).isSome = true ∨
      (afterGrouped l).isSome = true) → ∃ r, addressRest l = some r := by
    intro l hl
    refine Option.isSome_iff_exists.1 ?_
    rw [addressRest, Option.isSome_or, Option.isSome_or]
    rcases hl with hl | hl | hl <;> simp [hl]
  rw [addressRest] at h
  rcases Option.or_eq_some_iff.1 h with h | ⟨-, h⟩
  · obtain ⟨hnext, w, rfl, hne, hw⟩ := dotted_takes h
    exact ⟨hnext, w, rfl, hne, hw.within, fun m hm =>
      hsome _ (.inl (by rw [hw.again m hm]; rfl))⟩
  · rcases Option.or_eq_some_iff.1 h with h | ⟨-, h⟩
    · obtain ⟨hnext, w, rfl, hne, hw⟩ := bracketed_takes h
      exact ⟨hnext, w, rfl, hne, hw.within, fun m hm =>
        hsome _ (.inr (.inl (by rw [hw.again m hm]; rfl)))⟩
    · obtain ⟨hnext, w, rfl, hne, hw, hagain⟩ := grouped_takes h
      exact ⟨hnext, w, rfl, hne, hw, fun m hm => hsome _ (.inr (.inr (hagain m hm)))⟩

theorem isSecretChar_of_addressChar {c : Char} (h : addressChar c) : isSecretChar c = true := by
  rcases h with h | rfl | rfl | rfl | rfl
  · have halnum := isAlphanum_of_isHexAny h
    rw [isSecretChar, Bool.and_eq_true, Bool.not_eq_true', bne_iff_ne]
    refine ⟨?_, ?_⟩
    · by_contra hspace
      have hs : Text.isSpace c = true := by simpa using hspace
      simp only [Char.isAlphanum, Char.isAlpha, Char.isUpper, Char.isLower, Char.isDigit,
        Bool.or_eq_true, Bool.and_eq_true, decide_eq_true_eq, ge_iff_le, UInt32.le_iff_toNat_le,
        Text.isSpace, beq_iff_eq] at halnum hs
      have hval : c.val.toNat = c.toNat := rfl
      simp only [hval] at halnum
      have h1 : ('A' : Char).val.toNat = 65 := rfl
      have h2 : ('Z' : Char).val.toNat = 90 := rfl
      have h3 : ('a' : Char).val.toNat = 97 := rfl
      have h4 : ('z' : Char).val.toNat = 122 := rfl
      have h5 : ('0' : Char).val.toNat = 48 := rfl
      have h6 : ('9' : Char).val.toNat = 57 := rfl
      omega
    · rintro rfl
      exact absurd halnum (by decide)
  all_goals decide

theorem isPathTextChar_of_addressChar {c : Char} (h : addressChar c) :
    isPathTextChar c = true := by
  have hsecret := isSecretChar_of_addressChar h
  rw [isSecretChar, Bool.and_eq_true, Bool.not_eq_true', bne_iff_ne] at hsecret
  have hquote : c ≠ '"' ∧ c ≠ '\'' := by
    constructor <;> rintro rfl <;> rcases h with h | h | h | h | h <;> exact absurd h (by decide)
  simp [isPathTextChar, hsecret.1, hsecret.2, hquote.1, hquote.2]

theorem address_reads : Reads addressLength Char.isAlphanum notAlphanum (· ≠ '<') addressChar where
  le prev l n h := by
    rw [addressLength] at h
    split at h
    · cases h
    · obtain ⟨rest, -, rfl⟩ := Option.map_eq_some_iff.1 h
      exact Nat.sub_le _ _
  taken prev l h := by
    obtain ⟨n, h⟩ := h
    rw [addressLength] at h
    split at h
    · cases h
    · rename_i hbehind
      obtain ⟨rest, hrest, -⟩ := Option.map_eq_some_iff.1 h
      obtain ⟨hnext, w, rfl, hne, hw, hagain⟩ := address_takes hrest
      refine ⟨Bool.eq_false_iff.2 hbehind, w, rest, rfl, hne, fun c hc => ?_,
        fun c hc => hw c (List.mem_of_mem_head? hc), hnext, fun prev' m' hprev hm => ?_⟩
      · rintro rfl
        rcases hw _ hc with h | h | h | h | h <;> exact absurd h (by decide)
      · obtain ⟨r, hr⟩ := hagain m' hm
        obtain ⟨-, v, hv, hvne, -, -⟩ := address_takes hr
        refine ⟨(w ++ m').length - r.length - 1, ?_⟩
        have hpos := List.length_pos_of_ne_nil hvne
        have hlen : (w ++ m').length = v.length + r.length := by rw [hv, List.length_append]
        rw [addressLength, if_neg (by rw [hprev]; exact Bool.false_ne_true)]
        rw [addressRest] at hr
        rw [hr, Option.map_some]
        congr 1
        omega

theorem address_inside (prev : Option Char) (l : List Char)
    (h : Free addressLength (some '>') l) :
    Free addressLength prev (redacted.toList ++ l) := by
  have hnot : ∀ c ∈ ['<', 'r'], ¬addressChar c := by
    intro c hc
    simp only [List.mem_cons, List.not_mem_nil, or_false] at hc
    rcases hc with rfl | rfl <;> rintro (h | h | h | h | h) <;> exact absurd h (by decide)
  refine ⟨address_reads.not_hit_of_first (hnot _ (by decide)),
    address_reads.not_hit_of_first (hnot _ (by decide)), ?_, ?_, ?_, ?_, ?_, ?_, ?_, ?_, h⟩ <;>
      exact address_reads.not_hit_of_behind (by decide)

theorem path_inside (prev : Option Char) (l : List Char) (h : Free pathLength (some '>') l) :
    Free pathLength prev (redacted.toList ++ l) := by
  refine ⟨?_, ?_, ?_, ?_, ?_, ?_, ?_, ?_, ?_, ?_, h⟩ <;>
    exact path_reads.not_hit_of_first (by decide)

end Redact

end DgxSpark
