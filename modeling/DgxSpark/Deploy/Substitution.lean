import DgxSpark.Deploy.Plan

/-!
# What a substitution leaves

A substitution goes through its text from left to right and replaces what its pattern matches. Its
scan cuts the text into pieces (`DgxSpark.Redact.Scan`): characters that stay, and matches.

The results say which matches are in the text that it leaves. A pattern that had none has none,
and neither has the pattern of the scan itself, if nothing can begin where a match has ended
(`DgxSpark.Redact.Scan.free`); otherwise the matches that are left lie in stretches between two
that were found (`DgxSpark.Redact.free_of_not_uncovers`). Of what was found, no place is left
(`DgxSpark.Redact.place_replay`).
-/

namespace DgxSpark

namespace Redact

/-! ### A scan -/

/-- The pattern matches here. -/
def Hit (t : Matcher) (prev : Option Char) (l : List Char) : Prop := ∃ n, t prev l = some (n + 1)

/-- A piece of a text: a character that stays, or a match. -/
inductive Piece where
  | kept (c : Char)
  | found (w : List Char)

namespace Piece

def text : Piece → List Char
  | kept c => [c]
  | found w => w

/-- What stands there afterwards. -/
def shown : Piece → List Char
  | kept c => [c]
  | found _ => redacted.toList

end Piece

/-- The pieces that `pattern.sub` goes through. -/
def scanFrom (t : Matcher) : Nat → Option Char → List Char → List Piece
  | _, _, [] => []
  | skip + 1, _, c :: cs => scanFrom t skip (some c) cs
  | 0, prev, c :: cs =>
    match t prev (c :: cs) with
    | some (n + 1) => .found ((c :: cs).take (n + 1)) :: scanFrom t n (some c) cs
    | _ => .kept c :: scanFrom t 0 (some c) cs

/-- The pieces of a text. -/
inductive Scan (t : Matcher) : Option Char → List Char → List Piece → Prop where
  | nil (prev : Option Char) : Scan t prev [] []
  | keep {prev : Option Char} {c : Char} {cs : List Char} {ps : List Piece} :
      ¬Hit t prev (c :: cs) → Scan t (some c) cs ps → Scan t prev (c :: cs) (.kept c :: ps)
  | find {prev : Option Char} {c : Char} {w m : List Char} {ps : List Piece} :
      t prev (c :: w ++ m) = some (w.length + 1) → Scan t ((c :: w).getLast?) m ps →
        Scan t prev (c :: w ++ m) (.found (c :: w) :: ps)

variable {t u : Matcher} {prev : Option Char} {l m : List Char} {ps : List Piece}

/-- **A substitution shows the pieces** of its scan. -/
theorem substitute_eq (t : Matcher) (skip : Nat) (prev : Option Char) (l : List Char) :
    substitute t skip prev l = (scanFrom t skip prev l).flatMap Piece.shown := by
  induction l generalizing skip prev with
  | nil => cases skip <;> rfl
  | cons c cs ih =>
    cases skip with
    | succ skip => exact ih skip (some c)
    | zero =>
      rcases hmatch : t prev (c :: cs) with _ | _ | n <;>
        simp only [substitute, scanFrom, hmatch, ih, List.flatMap_cons] <;> rfl

theorem scanFrom_append (w : List Char) (prev : Option Char) :
    scanFrom t w.length prev (w ++ m) = scanFrom t 0 (w.getLast?.or prev) m := by
  induction w generalizing prev with
  | nil => rfl
  | cons c w ih =>
    rw [List.length_cons, List.cons_append, scanFrom, ih, List.getLast?_cons]
    cases w.getLast? <;> rfl

/-- **The scan** cuts a text into its pieces. -/
theorem scanFrom_spec (ht : ∀ prev l n, t prev l = some n → n ≤ l.length) (prev : Option Char)
    (l : List Char) : Scan t prev l (scanFrom t 0 prev l) := by
  induction hn : l.length using Nat.strongRecOn generalizing prev l with
  | ind n ih =>
    subst hn
    cases l with
    | nil => exact .nil prev
    | cons c cs =>
      rw [scanFrom]
      split
      · rename_i n hmatch
        have hle := ht _ _ _ hmatch
        have hsplit := List.take_append_drop n cs
        have hlen : (cs.take n).length = n := by
          rw [List.length_take]
          rw [List.length_cons] at hle
          omega
        generalize cs.take n = w at hsplit hlen
        generalize cs.drop n = m at hsplit
        subst hsplit
        subst hlen
        have hlast : w.getLast?.or (some c) = (c :: w).getLast? := by
          rw [List.getLast?_cons]
          cases w.getLast? <;> rfl
        rw [List.take_succ_cons, List.take_left, scanFrom_append, hlast]
        refine .find hmatch (ih _ ?_ _ _ rfl)
        rw [List.length_cons, List.length_append]
        omega
      · rename_i hnone
        refine .keep ?_ (ih _ (Nat.lt_succ_self _) _ _ rfl)
        rintro ⟨n, hmatch⟩
        exact hnone n hmatch

theorem Scan.text (h : Scan t prev l ps) : ps.flatMap Piece.text = l := by
  induction h with
  | nil => rfl
  | keep _ _ ih => rw [List.flatMap_cons, ih]; rfl
  | find _ _ ih => rw [List.flatMap_cons, ih]; rfl

instance (t : Matcher) (prev : Option Char) (l : List Char) : Decidable (Hit t prev l) :=
  decidable_of_iff (0 < (t prev l).getD 0) (by
    rw [Hit]
    cases t prev l with
    | none => simp
    | some n => cases n <;> simp)

/-! ### What a pattern reads -/

/-- How a pattern reads: it looks at the character before, at its own text, and at the next
character. -/
structure Reads (t : Matcher) (behind : Char → Bool) (ahead : Option Char → Bool)
    (own first : Char → Prop) : Prop where
  le : ∀ prev l n, t prev l = some n → n ≤ l.length
  taken : ∀ prev l, Hit t prev l → prev.any behind = false ∧ ∃ w m, l = w ++ m ∧ w ≠ [] ∧
    (∀ c ∈ w, own c) ∧ (∀ c ∈ w.head?, first c) ∧ ahead m.head? = true ∧
      ∀ prev' m', prev'.any behind = false → ahead m'.head? = true → Hit t prev' (w ++ m')

variable {behind behind' : Char → Bool} {ahead ahead' : Option Char → Bool}
  {own own' first first' : Char → Prop}

/-- A match that is found has its first character. -/
theorem Scan.found_head (h : Scan t prev l ps) (ht : Reads t behind ahead own first)
    {w : List Char} (hw : Piece.found w ∈ ps) : ∃ c v, w = c :: v ∧ first c := by
  induction h with
  | nil => cases hw
  | keep _ _ ih => exact ih ((List.mem_cons.1 hw).resolve_left fun heq => by cases heq)
  | @find prev c v m ps hmatch _ ih =>
    rcases List.mem_cons.1 hw with heq | hw
    · obtain rfl := Piece.found.inj heq
      obtain ⟨-, x, k, hx, hne, -, hfirst, -⟩ := ht.taken _ _ ⟨_, hmatch⟩
      cases x with
      | nil => exact absurd rfl hne
      | cons d x =>
        obtain ⟨rfl, -⟩ := List.cons.inj hx
        exact ⟨c, v, rfl, hfirst c rfl⟩
    · exact ih hw

/-! ### What is left -/

/-- No match at any place. -/
def Free (t : Matcher) : Option Char → List Char → Prop
  | _, [] => True
  | prev, c :: cs => ¬Hit t prev (c :: cs) ∧ Free t (some c) cs

/-- **Where there is no match, nothing is replaced.** -/
theorem Free.substitute (h : Free t prev l) : substitute t 0 prev l = l := by
  induction l generalizing prev with
  | nil => rfl
  | cons c cs ih =>
    rw [DgxSpark.substitute]
    split
    · rename_i n hmatch
      exact absurd ⟨n, hmatch⟩ h.1
    · rw [ih h.2]

theorem Free.of_append {w : List Char} (h : Free t prev (w ++ m)) :
    Free t (w.getLast?.or prev) m := by
  induction w generalizing prev with
  | nil => exact h
  | cons c w ih =>
    have htail := ih h.2
    rw [List.getLast?_cons]
    cases hlast : w.getLast? <;> rw [hlast] at htail <;> exact htail

theorem Free.of_hit {prev' : Option Char} (h : Free t prev l)
    (hany : ∀ prev prev' l, Hit t prev l → Hit t prev' l) : Free t prev' l := by
  cases l with
  | nil => trivial
  | cons c cs => exact ⟨fun hhit => h.1 (hany _ _ _ hhit), h.2⟩

/-- A text without the first character of what is put in is a text of kept characters. -/
theorem exists_kept {w : List Char} (h : ps.flatMap Piece.shown = w ++ m) (hw : ∀ c ∈ w, c ≠ '<') :
    ∃ qs, ps = w.map Piece.kept ++ qs ∧ m = qs.flatMap Piece.shown := by
  induction w generalizing ps with
  | nil => exact ⟨ps, rfl, h.symm⟩
  | cons c w ih =>
    obtain ⟨hc, hrest⟩ := List.forall_mem_cons.1 hw
    cases ps with
    | nil => cases h
    | cons p ps =>
      cases p with
      | kept d =>
        obtain ⟨rfl, htail⟩ := List.cons.inj h
        obtain ⟨qs, rfl, hm⟩ := ih htail hrest
        exact ⟨qs, rfl, hm⟩
      | found v => exact absurd (List.cons.inj h).1.symm hc

/-- A match that is there after the scan was there before: the texts before the first replacement
are the same. -/
theorem Scan.hit_of_shown {c : Char} {cs : List Char} (h : Scan t (some c) cs ps)
    (ht : Reads t behind ahead own first) (hu : Reads u behind' ahead' (· ≠ '<') first')
    (hahead : ∀ d, first d → ahead' (some '<') = true → ahead' (some d) = true)
    (hhit : Hit u prev (c :: ps.flatMap Piece.shown)) : Hit u prev (c :: cs) := by
  obtain ⟨hprev, w, m, hw, hne, hown, -, hm, hany⟩ := hu.taken _ _ hhit
  cases w with
  | nil => exact absurd rfl hne
  | cons d w =>
    obtain ⟨rfl, hshown⟩ := List.cons.inj hw
    obtain ⟨qs, rfl, rfl⟩ := exists_kept hshown fun x hx => hown x (List.mem_cons_of_mem c hx)
    have htext : cs = w ++ qs.flatMap Piece.text := by
      rw [← h.text, List.flatMap_append, List.flatMap_map]
      congr 1
      exact List.flatMap_singleton' w
    have hgoal := hany prev (qs.flatMap Piece.text) hprev (by
      cases qs with
      | nil => exact hm
      | cons p qs =>
        cases p with
        | kept e => exact hm
        | found v =>
          obtain ⟨e, v, rfl, he⟩ := h.found_head ht (List.mem_append_right _ List.mem_cons_self)
          exact hahead e he hm)
    rwa [htext]

/-- Nothing begins where a greedy match has ended. -/
theorem Scan.free_behind {prev' : Option Char} (h : Scan t prev m ps)
    (ht : Reads t behind ahead own first) (hu : Reads u behind' ahead' own' first')
    (hm : ∀ c ∈ m.head?, ¬first c ∧ ¬first' c) (hfree : Free u prev (ps.flatMap Piece.shown)) :
    Free u prev' (ps.flatMap Piece.shown) := by
  cases ps with
  | nil => trivial
  | cons p ps =>
    have htext := h.text
    cases p with
    | found v =>
      obtain ⟨c, v, rfl, hc⟩ := h.found_head ht List.mem_cons_self
      exact absurd hc (hm c (by rw [← htext]; rfl)).1
    | kept c =>
      refine ⟨fun hhit => ?_, hfree.2⟩
      obtain ⟨-, w, k, hw, hne, -, hfirst, -⟩ := hu.taken _ _ hhit
      cases w with
      | nil => exact absurd rfl hne
      | cons d w =>
        obtain ⟨rfl, -⟩ := List.cons.inj hw
        exact absurd (hfirst c rfl) (hm c (by rw [← htext]; rfl)).2

/-- What is put in for a match of `t` makes no match of `u`. -/
structure Quiet (t u : Matcher) (behind' : Char → Bool) (ahead' : Option Char → Bool)
    (first first' : Char → Prop) : Prop where
  ahead : ∀ c, first c → ahead' (some '<') = true → ahead' (some c) = true
  inside : ∀ prev l, Free u (some '>') l → Free u prev (redacted.toList ++ l)
  behind : (∀ prev prev' l, Hit u prev l → Hit u prev' l) ∨ ∀ prev c w m,
    t prev (c :: w ++ m) = some (w.length + 1) → ∀ d ∈ m.head?, ¬first d ∧ ¬first' d

/-- **What a scan leaves**: a pattern that does not match in the text, or the pattern of the scan
itself, does not match in what is left. -/
theorem Scan.free (h : Scan t prev l ps) (ht : Reads t behind ahead own first)
    (hu : Reads u behind' ahead' (· ≠ '<') first') (hquiet : Quiet t u behind' ahead' first first')
    (hfree : t = u ∨ Free u prev l) : Free u prev (ps.flatMap Piece.shown) := by
  induction h with
  | nil => trivial
  | @keep prev c cs ps hnone hscan ih =>
    refine ⟨fun hhit => ?_, ih (hfree.imp_right And.right)⟩
    have hbefore := hscan.hit_of_shown ht hu hquiet.ahead hhit
    rcases hfree with rfl | hfree
    · exact hnone hbefore
    · exact hfree.1 hbefore
  | @find prev c w m ps hmatch hscan ih =>
    refine hquiet.inside prev _ ?_
    have htail := ih (hfree.imp_right fun hfree => by
      have hlast := hfree.of_append
      rwa [List.getLast?_cons] at hlast ⊢)
    rcases hquiet.behind with hany | hgreedy
    · exact htail.of_hit hany
    · exact hscan.free_behind ht hu (hgreedy prev c w m hmatch) htail

/-! ### What a scan uncovers -/

/-- The kept characters up to the next match. -/
def stretch : List Piece → List Char
  | .kept c :: ps => c :: stretch ps
  | _ => []

/-- **A stretch of text between what was found has a match when it is read by itself**, where
`begins` tells whether the pattern may begin at the next character. -/
def Uncovers (t : Matcher) (behind : Char → Bool) : Bool → List Piece → Prop
  | _, [] => False
  | begins, .kept c :: ps =>
    (begins = true ∧ Hit t none (c :: stretch ps)) ∨ Uncovers t behind (!behind c) ps
  | _, .found _ :: ps => Uncovers t behind true ps

instance decidableUncovers (t : Matcher) (behind : Char → Bool) :
    (begins : Bool) → (ps : List Piece) → Decidable (Uncovers t behind begins ps)
  | _, [] => inferInstanceAs (Decidable False)
  | begins, .kept c :: ps =>
    have := decidableUncovers t behind (!behind c) ps
    inferInstanceAs (Decidable ((begins = true ∧ Hit t none (c :: stretch ps)) ∨
      Uncovers t behind (!behind c) ps))
  | _, .found _ :: ps => decidableUncovers t behind true ps

theorem stretch_append (w : List Char) (qs : List Piece) :
    stretch (w.map Piece.kept ++ qs) = w ++ stretch qs := by
  induction w with
  | nil => rfl
  | cons c w ih => exact congrArg (c :: ·) ih

/-- **What a scan leaves of its own pattern**: nothing, if it uncovers nothing. -/
theorem free_of_not_uncovers (ht : Reads t behind ahead (· ≠ '<') first)
    (hahead : ahead none = true) (hbehind : behind '>' = false)
    (hinside : ∀ prev l, Free t (some '>') l → Free t prev (redacted.toList ++ l))
    (hnone : ¬Uncovers t behind (!prev.any behind) ps) : Free t prev (ps.flatMap Piece.shown) := by
  induction ps generalizing prev with
  | nil => trivial
  | cons p ps ih =>
    cases p with
    | found w =>
      refine hinside prev _ (ih ?_)
      rw [Option.any_some, hbehind]
      exact hnone
    | kept c =>
      refine ⟨fun hhit => ?_, ih fun h => hnone (.inr h)⟩
      obtain ⟨hprev, w, m, hw, hne, hown, -, hm, hany⟩ := ht.taken _ _ hhit
      cases w with
      | nil => exact absurd rfl hne
      | cons d w =>
        obtain ⟨rfl, hshown⟩ := List.cons.inj hw
        obtain ⟨qs, rfl, rfl⟩ := exists_kept hshown fun x hx => hown x (List.mem_cons_of_mem c hx)
        refine hnone (.inl ⟨by rw [hprev]; rfl, ?_⟩)
        rw [stretch_append]
        refine hany none (stretch qs) rfl ?_
        cases qs with
        | nil => exact hahead
        | cons p qs =>
          cases p with
          | kept e => exact hm
          | found v => exact hahead

theorem Reads.not_hit_of_first (ht : Reads t behind ahead own first) {c : Char} (hc : ¬first c) :
    ¬Hit t prev (c :: l) := by
  intro hhit
  obtain ⟨-, w, m, hw, hne, -, hfirst, -⟩ := ht.taken _ _ hhit
  cases w with
  | nil => exact hne rfl
  | cons d w =>
    obtain ⟨rfl, -⟩ := List.cons.inj hw
    exact hc (hfirst c rfl)

theorem Reads.not_hit_of_behind (ht : Reads t behind ahead own first) {c : Char}
    (hc : behind c = true) : ¬Hit t (some c) l := by
  intro hhit
  have hprev := (ht.taken _ _ hhit).1
  rw [Option.any_some, hc] at hprev
  cases hprev

/-! ### Places -/

/-- Characters with the places that they have in a text; what is put in has none. -/
abbrev Traced : Type := List (Char × Option Nat)

/-- The characters of a text, from place `o` on. -/
def traced (o : Nat) (l : List Char) : Traced := (l.zipIdx o).map fun p => (p.1, some p.2)

/-- The replacement of what was found, with the places of what is kept. -/
def replay : List Piece → Traced → Traced
  | [], _ => []
  | .kept _ :: ps, xs => xs.take 1 ++ replay ps (xs.drop 1)
  | .found w :: ps, xs => redacted.toList.map (fun c => (c, none)) ++ replay ps (xs.drop w.length)

/-- The replacement puts in what is shown. -/
theorem map_fst_replay {xs : Traced} (h : ps.flatMap Piece.text = xs.map Prod.fst) :
    (replay ps xs).map Prod.fst = ps.flatMap Piece.shown := by
  induction ps generalizing xs with
  | nil => rfl
  | cons p ps ih =>
    cases p with
    | kept c =>
      cases xs with
      | nil => cases h
      | cons x xs =>
        obtain ⟨hx, hrest⟩ := List.cons.inj h
        rw [replay, List.map_append, List.drop_succ_cons, List.drop_zero, ih hrest]
        exact congrArg (fun d => d :: ps.flatMap Piece.shown) hx.symm
    | found w =>
      have hrest : ps.flatMap Piece.text = (xs.drop w.length).map Prod.fst := by
        rw [List.map_drop, ← h, List.flatMap_cons]
        exact (List.drop_left).symm
      rw [replay, List.map_append, ih hrest, List.map_map, List.flatMap_cons]
      congr 1

/-- A place that is left was there. -/
theorem mem_of_mem_replay {xs : Traced} {c : Char} {j : Nat} (h : (c, some j) ∈ replay ps xs) :
    (c, some j) ∈ xs := by
  induction ps generalizing xs with
  | nil => cases h
  | cons p ps ih =>
    cases p with
    | kept d =>
      rcases List.mem_append.1 h with h | h
      · exact List.mem_of_mem_take h
      · exact List.mem_of_mem_drop (ih h)
    | found w =>
      rcases List.mem_append.1 h with h | h
      · obtain ⟨d, -, hd⟩ := List.mem_map.1 h
        cases (Prod.mk.inj hd).2
      · exact List.mem_of_mem_drop (ih h)

/-- Where the matches of a scan begin and end. -/
def spans : Nat → List Piece → List (Nat × Nat)
  | _, [] => []
  | o, .kept _ :: ps => spans (o + 1) ps
  | o, .found w :: ps => (o, o + w.length) :: spans (o + w.length) ps

theorem le_of_mem_spans {o x y : Nat} (h : (x, y) ∈ spans o ps) : o ≤ x := by
  induction ps generalizing o with
  | nil => cases h
  | cons p ps ih =>
    cases p with
    | kept c => exact (Nat.le_succ o).trans (ih h)
    | found w =>
      rcases List.mem_cons.1 h with heq | h
      · exact (Prod.mk.inj heq).1.ge
      · exact (Nat.le_add_right _ _).trans (ih h)

/-- **No place of a match is left.** -/
theorem place_replay {o j : Nat} {c : Char}
    (h : (c, some j) ∈ replay ps (traced o (ps.flatMap Piece.text))) :
    o ≤ j ∧ ∀ x y, (x, y) ∈ spans o ps → ¬(x ≤ j ∧ j < y) := by
  induction ps generalizing o with
  | nil => cases h
  | cons p ps ih =>
    cases p with
    | kept d =>
      rcases List.mem_append.1 h with h | h
      · obtain rfl := Option.some.inj (Prod.mk.inj (List.mem_singleton.1 h)).2
        refine ⟨le_rfl, fun x y hxy hj => ?_⟩
        have hnext : (x, y) ∈ spans (j + 1) ps := hxy
        have hle := le_of_mem_spans hnext
        omega
      · obtain ⟨hle, hspans⟩ := ih h
        exact ⟨(Nat.le_succ o).trans hle, hspans⟩
    | found w =>
      rcases List.mem_append.1 h with h | h
      · obtain ⟨d, -, hd⟩ := List.mem_map.1 h
        cases (Prod.mk.inj hd).2
      · have hdrop : (traced o ((Piece.found w :: ps).flatMap Piece.text)).drop w.length =
            traced (o + w.length) (ps.flatMap Piece.text) := by
          rw [traced, List.flatMap_cons, Piece.text, List.zipIdx_append, List.map_append]
          refine List.drop_left' ?_
          rw [List.length_map, List.length_zipIdx]
        rw [hdrop] at h
        obtain ⟨hle, hspans⟩ := ih h
        refine ⟨(Nat.le_add_right _ _).trans hle, fun x y hxy hj => ?_⟩
        rcases List.mem_cons.1 hxy with heq | hxy
        · obtain ⟨rfl, rfl⟩ := Prod.mk.inj heq
          omega
        · exact hspans x y hxy hj

/-- **A place of the text** has no match, or lies in one that was found. -/
theorem Scan.at_place (h : Scan t prev l ps) (hany : ∀ prev prev' l, t prev l = t prev' l) (o : Nat)
    {i : Nat} (hi : i < l.length) : ¬Hit t none (l.drop i) ∨ ∃ x n, x ≤ i ∧ i < x + (n + 1) ∧
      t none (l.drop x) = some (n + 1) ∧ (∃ c w, l.drop x = c :: w ++ l.drop (x + (n + 1)) ∧
        w.length = n) ∧ (o + x, o + (x + (n + 1))) ∈ spans o ps := by
  induction h generalizing o i with
  | nil => cases hi
  | @keep prev c cs ps hnone _ ih =>
    cases i with
    | zero =>
      refine .inl fun hhit => ?_
      obtain ⟨n, hn⟩ := hhit
      refine hnone ⟨n, ?_⟩
      rw [hany prev none]
      exact hn
    | succ i =>
      rcases ih (o + 1) (Nat.lt_of_succ_lt_succ hi) with h | ⟨x, n, hx, hlt, hn, hsplit, hspan⟩
      · exact .inl h
      · refine .inr ⟨x + 1, n, Nat.succ_le_succ hx, by omega, hn, ?_, ?_⟩
        · rw [show x + 1 + (n + 1) = x + (n + 1) + 1 by omega]
          exact hsplit
        · rw [spans]
          rwa [show o + (x + 1) = o + 1 + x by omega,
            show o + (x + 1 + (n + 1)) = o + 1 + (x + (n + 1)) by omega]
  | @find prev c w m ps hmatch _ ih =>
    by_cases hin : i < (c :: w).length
    · refine .inr ⟨0, w.length, Nat.zero_le i, by rw [Nat.zero_add]; exact hin, ?_,
        ⟨c, w, ?_, rfl⟩, ?_⟩
      · rw [List.drop_zero, hany none prev]
        exact hmatch
      · rw [Nat.zero_add, List.drop_zero]
        congr 1
        exact (List.drop_left).symm
      · rw [Nat.zero_add]
        exact List.mem_cons_self
    · obtain ⟨i, rfl⟩ := Nat.exists_eq_add_of_le (not_lt.1 hin)
      have hdrop : ∀ n, (c :: w ++ m).drop ((c :: w).length + n) = m.drop n := fun n => by
        rw [← List.drop_drop, List.drop_left]
      have him : i < m.length := by
        rw [List.length_append] at hi
        omega
      rcases ih (o + (c :: w).length) him with h | ⟨x, n, hx, hlt, hn, hsplit, hspan⟩
      · exact .inl (by rw [hdrop]; exact h)
      · refine .inr ⟨(c :: w).length + x, n, Nat.add_le_add_left hx _, by omega,
          by rw [hdrop]; exact hn, ?_, List.mem_cons_of_mem _ ?_⟩
        · rw [hdrop, Nat.add_assoc, hdrop]
          exact hsplit
        · rwa [Nat.add_assoc (c :: w).length, ← Nat.add_assoc o, ← Nat.add_assoc o]

/-- What is taken from a place before the end of a greedy match ends there at the latest. -/
theorem length_le_dropWhile {p : Char → Bool} {rest : List Char}
    (hrest : ∀ c ∈ rest.head?, p c = false) (v : List Char) :
    rest.length ≤ ((v ++ rest).dropWhile p).length := by
  induction v with
  | nil =>
    cases rest with
    | nil => exact Nat.le_refl 0
    | cons c rest =>
      rw [List.nil_append, List.dropWhile_cons, hrest c rfl]
      exact le_rfl
  | cons c v ih =>
    rw [List.cons_append, List.dropWhile_cons]
    split
    · exact ih
    · rw [List.length_cons, List.length_append]
      omega

end Redact

end DgxSpark
