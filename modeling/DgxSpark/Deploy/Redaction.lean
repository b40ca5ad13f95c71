import DgxSpark.Deploy.Patterns

/-!
# What redaction hides

`redact_text` substitutes the credentials, then the addresses, then the paths. The tokens of
credentials are gone, and a second redaction changes nothing
(`DgxSpark.Redact.redaction_holds`), unless the match of one credential cuts the marker of another
one, or a stretch of text between two addresses has an address when it is read by itself.
-/

namespace DgxSpark

namespace Redact

/-! ### The three substitutions -/

/-- `redact_text` -/
def redactText (value : String) : String := redactString value

/-- The characters of a redacted text. -/
def redactChars (s : List Char) : List Char :=
  substitute pathLength 0 none (substitute addressLength 0 none (substitute secretLength 0 none s))

theorem redactText_eq (value : String) :
    redactText value = String.ofList (redactChars value.toList) := by
  rw [redactText, redactString, Text.chars_eq]
  rfl

/-- The characters of a redacted text, with their places in the text. -/
def redactTraced (s : List Char) : Traced :=
  let secrets := substitute secretLength 0 none s
  let addresses := substitute addressLength 0 none secrets
  replay (scanFrom pathLength 0 none addresses) (replay (scanFrom addressLength 0 none secrets)
    (replay (scanFrom secretLength 0 none s) (traced 0 s)))

theorem secret_scan (s : List Char) : Scan secretLength none s (scanFrom secretLength 0 none s) :=
  scanFrom_spec secret_reads.le none s

theorem address_scan (s : List Char) :
    Scan addressLength none s (scanFrom addressLength 0 none s) :=
  scanFrom_spec address_reads.le none s

theorem path_scan (s : List Char) : Scan pathLength none s (scanFrom pathLength 0 none s) :=
  scanFrom_spec path_reads.le none s

/-- **The characters with their places are those of the redacted text.** -/
theorem map_fst_redactTraced (s : List Char) : (redactTraced s).map Prod.fst = redactChars s := by
  have hchars : (traced 0 s).map Prod.fst = s := by
    rw [traced, List.map_map]
    exact List.zipIdx_map_fst 0 s
  have h1 := map_fst_replay ((secret_scan s).text.trans hchars.symm)
  rw [← substitute_eq] at h1
  have h2 := map_fst_replay ((address_scan _).text.trans h1.symm)
  rw [← substitute_eq] at h2
  have h3 := map_fst_replay ((path_scan _).text.trans h2.symm)
  rw [← substitute_eq] at h3
  exact h3

/-- A credential of a text: its marker begins at `i`, its token at `t`, and it ends at `e`. -/
def Credential (s : List Char) (i t e : Nat) : Prop :=
  ∃ w m, s.drop i = w ++ m ∧ IsMarker w ∧ m.head?.any isSecretChar = true ∧ t = i + w.length ∧
    e = t + (m.length - (m.dropWhile isSecretChar).length)

/-- Nothing of a token is left. -/
def Hidden (s : List Char) : Prop :=
  ∀ i t e, Credential s i t e → ∀ j, t ≤ j → j < e → ∀ c, (c, some j) ∉ redactTraced s

/-- **The match of one credential cuts the marker of another one**: it begins before it and ends
before the token. -/
def Cuts (s : List Char) : Prop :=
  ∃ x y, (x, y) ∈ spans 0 (scanFrom secretLength 0 none s) ∧
    ∃ i t e, Credential s i t e ∧ x < i ∧ i < y ∧ y ≤ t

/-- **A stretch of text between two addresses**, of those that the scan finds when the credentials
are replaced, has an address when it is read by itself. -/
def UncoversAddress (s : List Char) : Prop :=
  Uncovers addressLength Char.isAlphanum true
    (scanFrom addressLength 0 none (substitute secretLength 0 none s))

/-- **Tokens are hidden**, if no marker is cut. -/
theorem hidden_of_not_cuts {s : List Char} (h : ¬Cuts s) : Hidden s := by
  rintro i t e hcredential j htj hje c hc
  obtain ⟨w, m, hdrop, hw, hm, rfl, rfl⟩ := id hcredential
  have hplace : (c, some j) ∈ replay (scanFrom secretLength 0 none s) (traced 0 s) :=
    mem_of_mem_replay (mem_of_mem_replay hc)
  have hscan := secret_scan s
  have hkept := (place_replay (o := 0) (j := j) (c := c) (by rw [hscan.text]; exact hplace)).2
  have hlength := congrArg List.length hdrop
  rw [List.length_drop, List.length_append] at hlength
  have hwpos := List.length_pos_of_ne_nil hw.chars.1
  rcases hscan.at_place (fun _ _ _ => rfl) 0 (i := i) (by omega) with
    hnone | ⟨x, n, hx, hlt, hn, ⟨d, v, hv, hvlen⟩, hspan⟩
  · refine hnone ⟨w.length + (m.length - (m.dropWhile isSecretChar).length) - 1, ?_⟩
    rw [hdrop, secretLength_eq none hw hm]
    congr 1
    omega
  · rw [Nat.zero_add, Nat.zero_add] at hspan
    have hout := hkept _ _ hspan
    rcases Nat.lt_or_eq_of_le hx with hxi | rfl
    · -- the token begins in the match, and ends with it at the latest
      have htoken : i + w.length < x + (n + 1) := by
        by_contra hle
        exact h ⟨x, x + (n + 1), hspan, i, _, _, hcredential, hxi, hlt, not_lt.1 hle⟩
      have hend : ∀ c ∈ (s.drop (x + (n + 1))).head?, isSecretChar c = false := by
        rw [hv] at hn
        exact secret_greedy (hn.trans (by rw [hvlen]))
      have hmdrop : m = s.drop (i + w.length) := by
        rw [← List.drop_drop, hdrop, List.drop_left]
      obtain ⟨k, hk⟩ := Nat.exists_eq_add_of_lt htoken
      have hsplit := List.take_append_drop (k + 1) m
      rw [hmdrop, List.drop_drop, show i + w.length + (k + 1) = x + (n + 1) by omega] at hsplit
      have hle := length_le_dropWhile hend ((s.drop (i + w.length)).take (k + 1))
      rw [hsplit, ← hmdrop, List.length_drop] at hle
      omega
    · -- the match of the credential itself
      rw [hdrop, secretLength_eq none hw hm] at hn
      have hlen := Option.some.inj hn
      omega

/-- **Redacting twice** changes nothing more, if no address is uncovered. -/
theorem redactChars_redactChars {s : List Char} (h : ¬UncoversAddress s) :
    redactChars (redactChars s) = redactChars s := by
  have hpathChar : ∀ d, isPathTextChar d = false → ¬d = '/' ∧ ¬addressChar d := by
    intro d hd
    refine ⟨?_, fun haddress => ?_⟩
    · rintro rfl
      exact absurd hd (by decide)
    · rw [isPathTextChar_of_addressChar haddress] at hd
      cases hd
  -- no credential is left by any of the three
  have hsecret1 : Free secretLength none (substitute secretLength 0 none s) := by
    rw [substitute_eq]
    exact (secret_scan s).free secret_reads secret_reads
      ⟨fun c hc _ => isSecretChar_of_opensMarker hc, secret_inside, .inl secret_anywhere⟩ (.inl rfl)
  have hsecret2 : Free secretLength none
      (substitute addressLength 0 none (substitute secretLength 0 none s)) := by
    rw [substitute_eq addressLength]
    exact (address_scan _).free address_reads secret_reads
      ⟨fun c hc _ => isSecretChar_of_addressChar hc, secret_inside, .inl secret_anywhere⟩
      (.inr hsecret1)
  have hsecret3 : Free secretLength none (redactChars s) := by
    rw [redactChars, substitute_eq pathLength]
    exact (path_scan _).free path_reads secret_reads
      ⟨by rintro c rfl _; decide, secret_inside, .inl secret_anywhere⟩ (.inr hsecret2)
  have haddress2 : Free addressLength none
      (substitute addressLength 0 none (substitute secretLength 0 none s)) := by
    rw [substitute_eq addressLength]
    exact free_of_not_uncovers address_reads rfl (by decide) address_inside h
  have haddress3 : Free addressLength none (redactChars s) := by
    rw [redactChars, substitute_eq pathLength]
    exact (path_scan _).free path_reads address_reads ⟨by rintro c rfl _; decide, address_inside,
      .inr fun prev c w m hmatch d hd => hpathChar d (path_greedy hmatch d hd)⟩ (.inr haddress2)
  have hpath3 : Free pathLength none (redactChars s) := by
    rw [redactChars, substitute_eq pathLength]
    exact (path_scan _).free path_reads path_reads ⟨by rintro c rfl _; decide, path_inside,
      .inr fun prev c w m hmatch d hd => ⟨(hpathChar d (path_greedy hmatch d hd)).1,
        (hpathChar d (path_greedy hmatch d hd)).1⟩⟩ (.inl rfl)
  rw [redactChars, hsecret3.substitute, haddress3.substitute, hpath3.substitute]

/-- **Redaction**: the tokens are hidden, and a second redaction changes nothing. -/
theorem redaction_holds (s : String) (hcut : ¬Cuts s.toList) (hunder : ¬UncoversAddress s.toList) :
    Hidden s.toList ∧ redactText (redactText s) = redactText s := by
  refine ⟨hidden_of_not_cuts hcut, ?_⟩
  rw [redactText_eq (redactText s), redactText_eq s, String.toList_ofList,
    redactChars_redactChars hunder]

/-! ### A password, and a marker in a token -/

theorem redaction_holds_password :
    Hidden "password=x1, 10.0.0.1".toList ∧
      redactText (redactText "password=x1, 10.0.0.1") = redactText "password=x1, 10.0.0.1" := by
  refine redaction_holds _ ?_ ?_
  · rintro ⟨x, y, hspan, i, t, e, ⟨w, m, hdrop, hw, hm, -, -⟩, hx, hy, -⟩
    have hspans : spans 0 (scanFrom secretLength 0 none "password=x1, 10.0.0.1".toList) =
        [(0, 11)] := by
      decide +kernel
    rw [hspans, List.mem_singleton, Prod.mk.injEq] at hspan
    obtain ⟨rfl, rfl⟩ := hspan
    have hnone : ∀ i < 11, 0 < i →
        secretLength none ("password=x1, 10.0.0.1".toList.drop i) = none := by
      decide +kernel
    have hsome := secretLength_eq none hw hm
    rw [← hdrop, hnone i hy hx] at hsome
    cases hsome
  · rw [UncoversAddress]
    decide +kernel

/-- **A marker is taken for a token**: `password:` is the token of `Bearer`, and the password
behind it stays. -/
theorem password_after_bearer : ¬(Hidden "Bearer password: hunter2".toList ∧
    redactText (redactText "Bearer password: hunter2") =
      redactText "Bearer password: hunter2") := by
  rintro ⟨h, -⟩
  have hmarker : IsMarker "password: ".toList := by
    refine .inr ⟨"password".toList, [], ':', [' '], by decide +kernel, by decide +kernel,
      fun c hc => absurd hc List.not_mem_nil, .inr rfl, fun c hc => ?_⟩
    rw [List.mem_singleton.1 hc]
    decide
  have hcredential : Credential "Bearer password: hunter2".toList 7 17 24 :=
    ⟨"password: ".toList, "hunter2".toList, by decide +kernel, hmarker, by decide +kernel,
      by decide +kernel, by decide +kernel⟩
  refine h 7 17 24 hcredential 17 le_rfl (by decide) 'h' ?_
  decide +kernel

end Redact

end DgxSpark
