import DgxSpark.Deploy.EnvFile

/-!
# The password of Grafana

The monitoring takes the password of its administrator from an env file and hands it to the
container in another one, which Docker reads: a variable a line, and the value as it stands.
`_grafana_env` doubles the backslashes on the way, and Docker does not undo that
(`DgxSpark.dockerEnvFile`). So a password comes out as it went in if and only if there is no
backslash in it (`DgxSpark.grafana_password_iff`).
-/

namespace DgxSpark

/-! ### Writing the file -/

/-- The user and the password of the configuration. -/
structure GrafanaConfig where
  adminUser : String
  adminPassword : String

/-- `USER_RE`. -/
def isSimpleUser (s : String) : Bool :=
  match Text.chars s with
  | [] => false
  | c :: cs => (c.isAlpha || c = '_') &&
      cs.all fun d => d.isAlphanum || d = '_' || d = '.' || d = '-'

/-- `_first` of one key: the value without the white space around it, or the default. -/
def firstValue (env : EnvValues) (key default : String) : String :=
  let value := Text.strip (env.value key)
  if value = "" then default else value

/-- `_config`: the fields that Grafana has. -/
def grafanaConfig (env : EnvValues) : Except String GrafanaConfig := do
  let adminUser := firstValue env "OBS_GRAFANA_ADMIN_USER" "admin"
  failObservability (!isSimpleUser adminUser) "OBS_GRAFANA_ADMIN_USER must be a simple username"
  let adminPassword := (env.lookup "OBS_GRAFANA_ADMIN_PASSWORD").getD "123456"
  failObservability (hasControl adminPassword)
    "OBS_GRAFANA_ADMIN_PASSWORD contains a control character"
  return ⟨adminUser, adminPassword⟩

/-- Every backslash doubled, then every line feed dropped. -/
def escapePassword (cs : List Char) : List Char :=
  (cs.flatMap fun c => if c = '\\' then ['\\', '\\'] else [c]).filter (· ≠ '\n')

/-- The lines of the file. -/
def grafanaLines (config : GrafanaConfig) : List (List Char) := [
  "GF_SECURITY_ADMIN_USER".toList ++ '=' :: config.adminUser.toList,
  "GF_SECURITY_ADMIN_PASSWORD".toList ++ '=' :: escapePassword config.adminPassword.toList,
  "GF_AUTH_ANONYMOUS_ENABLED".toList ++ '=' :: "false".toList]

/-- **`_grafana_env`.** -/
def grafanaEnv (config : GrafanaConfig) (requirePassword : Bool) : Except String ByteArray := do
  failObservability (requirePassword && config.adminPassword == "")
    "OBS_GRAFANA_ADMIN_PASSWORD is required for deploy"
  return (String.ofList ((grafanaLines config).flatMap (· ++ ['\n']))).toUTF8

/-! ### Reading it -/

/-- A line of an env file, as Docker takes it: white space at its start does not count, a `#`
starts a comment, and the value is whatever comes after the first equals sign. -/
def dockerEnvLine (line : List Char) : Option (String × String) :=
  let line := line.dropWhile Text.isSpace
  if line.head? = some '#' then none
  else (Text.cutAt '=' line).map fun p => (String.ofList p.1, String.ofList p.2)

/-- The variables of an env file, as Docker takes them. -/
def dockerEnvFile (bytes : ByteArray) : Option EnvValues :=
  (String.fromUTF8? bytes).map fun text => (text.toList.splitOn '\n').filterMap dockerEnvLine

/-- What Grafana is to be given. -/
def grafanaVariables (config : GrafanaConfig) : EnvValues := [
  ("GF_SECURITY_ADMIN_USER", config.adminUser),
  ("GF_SECURITY_ADMIN_PASSWORD", config.adminPassword),
  ("GF_AUTH_ANONYMOUS_ENABLED", "false")]

/-! ### The way through -/

theorem fromUTF8_toUTF8 (s : String) : String.fromUTF8? s.toUTF8 = some s := by
  rw [String.fromUTF8?, String.toUTF8_eq_toByteArray, dif_pos s.isValidUTF8]
  rfl

/-- Doubling the backslashes makes a text longer by one character for each of them. -/
theorem length_escapePassword {cs : List Char} (h : '\n' ∉ cs) :
    (escapePassword cs).length = cs.length + cs.count '\\' := by
  induction cs with
  | nil => rfl
  | cons c cs ih =>
    rw [List.mem_cons, not_or] at h
    obtain ⟨hc, hcs⟩ := h
    have htail := ih hcs
    rw [escapePassword] at htail ⊢
    rw [List.flatMap_cons, List.filter_append, List.length_append, htail]
    by_cases hback : c = '\\'
    · subst hback
      rw [if_pos rfl, List.count_cons_self, List.length_cons]
      have htwo : (['\\', '\\'].filter (· ≠ '\n')).length = 2 := rfl
      omega
    · have hone : ([c].filter (· ≠ '\n')).length = 1 := by
        rw [List.filter_cons_of_pos (by simpa using Ne.symm hc)]
        rfl
      rw [if_neg hback, List.count_cons_of_ne hback, List.length_cons, hone]
      omega

/-- A text without backslashes stays as it is. -/
theorem escapePassword_eq_self_iff {cs : List Char} (h : '\n' ∉ cs) :
    escapePassword cs = cs ↔ '\\' ∉ cs := by
  constructor
  · intro heq
    have hlength := length_escapePassword h
    rw [heq] at hlength
    exact List.count_eq_zero.1 (by omega)
  · intro hnone
    have hself : cs.flatMap (fun c => if c = '\\' then ['\\', '\\'] else [c]) = cs := by
      have hsame : cs.flatMap (fun c => if c = '\\' then ['\\', '\\'] else [c]) =
          cs.flatMap fun c => [c] := by
        refine List.flatMap_congr fun c hc => if_neg ?_
        rintro rfl
        exact hnone hc
      rw [hsame]
      exact List.flatMap_singleton' cs
    rw [escapePassword, hself]
    refine List.filter_eq_self.2 fun c hc => ?_
    have hne : c ≠ '\n' := fun heq => h (heq ▸ hc)
    simpa using hne

/-- A line of the file is a record. -/
theorem dockerEnvLine_record (key value : List Char)
    (hstart : key.head?.any (fun c => !Text.isSpace c && c != '#') = true) (hsep : '=' ∉ key) :
    dockerEnvLine (key ++ '=' :: value) = some (String.ofList key, String.ofList value) := by
  obtain ⟨c, hc, hfirst⟩ := (Option.any_eq_true _ _).1 hstart
  rw [Bool.and_eq_true, Bool.not_eq_true', bne_iff_ne] at hfirst
  obtain ⟨cs, rfl⟩ := List.head?_eq_some_iff.1 hc
  have hdrop : (c :: cs ++ '=' :: value).dropWhile Text.isSpace = c :: cs ++ '=' :: value := by
    rw [List.cons_append, List.dropWhile_cons_of_neg (by simp [hfirst.1])]
  have hhead : (c :: cs ++ '=' :: value).head? ≠ some '#' := by
    intro h
    exact hfirst.2 (Option.some.inj h)
  rw [dockerEnvLine, hdrop, if_neg hhead, Text.cutAt_append hsep]
  rfl

/-- The lines of the file are what Docker sees, if no line is broken. -/
theorem dockerEnvFile_lines {lines : List (List Char)} (h : ∀ l ∈ lines, '\n' ∉ l) :
    dockerEnvFile (String.ofList (lines.flatMap (· ++ ['\n']))).toUTF8 =
      some (lines.filterMap dockerEnvLine) := by
  have hsplit : (lines.flatMap (· ++ ['\n'])).splitOn '\n' = lines ++ [[]] := by
    have hjoin : lines.flatMap (· ++ ['\n']) = List.intercalate ['\n'] (lines ++ [[]]) := by
      clear h
      induction lines with
      | nil => rfl
      | cons l lines ih =>
        rw [List.flatMap_cons, ih]
        cases lines <;> simp [List.intercalate, List.intersperse]
    rw [hjoin]
    refine Text.splitOn_intercalate _ _ (by simp) fun l hl => ?_
    rcases List.mem_append.1 hl with hl | hl
    · exact h l hl
    · rw [List.mem_singleton.1 hl]
      exact List.not_mem_nil
  have hlast : dockerEnvLine [] = none := rfl
  rw [dockerEnvFile, fromUTF8_toUTF8, Option.map_some, String.toList_ofList, hsplit,
    List.filterMap_append, List.filterMap_cons_none hlast, List.filterMap_nil, List.append_nil]

theorem newline_notMem_of_not_hasControl {s : String} (h : hasControl s = false) :
    '\n' ∉ s.toList := by
  intro hmem
  have hcontrol := List.any_eq_false.1 h '\n' (by rwa [Text.chars_eq])
  exact hcontrol (by decide)

theorem newline_notMem_of_isSimpleUser {s : String} (h : isSimpleUser s = true) :
    '\n' ∉ s.toList := by
  rw [isSimpleUser, Text.chars_eq] at h
  split at h
  · cases h
  · rename_i c cs heq
    rw [heq]
    rw [Bool.and_eq_true, List.all_eq_true] at h
    intro hmem
    rcases List.mem_cons.1 hmem with rfl | hmem
    · exact absurd h.1 (by decide)
    · exact absurd (h.2 _ hmem) (by decide)

/-- What the configuration promises of its fields. -/
theorem grafanaConfig_ok {env : EnvValues} {config : GrafanaConfig}
    (h : grafanaConfig env = .ok config) :
    '\n' ∉ config.adminUser.toList ∧ '\n' ∉ config.adminPassword.toList ∧
      config.adminPassword = (env.lookup "OBS_GRAFANA_ADMIN_PASSWORD").getD "123456" := by
  rw [grafanaConfig] at h
  obtain ⟨_, huser, h⟩ := except_bind_eq_ok.1 h
  obtain ⟨_, hpassword, h⟩ := except_bind_eq_ok.1 h
  obtain rfl := Except.ok.inj h
  simp only [failObservability] at huser hpassword
  split at huser
  · cases huser
  · rename_i hsimple
    split at hpassword
    · cases hpassword
    · rename_i hcontrol
      exact ⟨newline_notMem_of_isSimpleUser (by simpa using hsimple),
        newline_notMem_of_not_hasControl (by simpa using hcontrol), rfl⟩

/-- **What Docker reads**: the password as it is escaped. -/
theorem dockerEnvFile_grafanaEnv {env : EnvValues} {config : GrafanaConfig}
    {requirePassword : Bool} {bytes : ByteArray} (hconfig : grafanaConfig env = .ok config)
    (hbytes : grafanaEnv config requirePassword = .ok bytes) :
    dockerEnvFile bytes = some [
      ("GF_SECURITY_ADMIN_USER", config.adminUser),
      ("GF_SECURITY_ADMIN_PASSWORD",
        String.ofList (escapePassword config.adminPassword.toList)),
      ("GF_AUTH_ANONYMOUS_ENABLED", "false")] := by
  obtain ⟨huser, -, -⟩ := grafanaConfig_ok hconfig
  rw [grafanaEnv] at hbytes
  obtain ⟨_, -, hbytes⟩ := except_bind_eq_ok.1 hbytes
  obtain rfl := Except.ok.inj hbytes
  have hescaped : '\n' ∉ escapePassword config.adminPassword.toList := by
    intro hmem
    exact absurd (List.mem_filter.1 hmem).2 (by decide)
  -- no line is broken by its value
  have hlines : ∀ l ∈ grafanaLines config, '\n' ∉ l := by
    intro l hl
    simp only [grafanaLines, List.mem_cons, List.not_mem_nil, or_false] at hl
    rcases hl with rfl | rfl | rfl
    · exact fun hmem => (List.mem_append.1 hmem).elim (by decide) fun hmem =>
        (List.mem_cons.1 hmem).elim (by decide) huser
    · exact fun hmem => (List.mem_append.1 hmem).elim (by decide) fun hmem =>
        (List.mem_cons.1 hmem).elim (by decide) hescaped
    · decide
  have huserLine := dockerEnvLine_record "GF_SECURITY_ADMIN_USER".toList
    config.adminUser.toList (by decide) (by decide)
  have hpasswordLine := dockerEnvLine_record "GF_SECURITY_ADMIN_PASSWORD".toList
    (escapePassword config.adminPassword.toList) (by decide) (by decide)
  have hanonymousLine := dockerEnvLine_record "GF_AUTH_ANONYMOUS_ENABLED".toList
    "false".toList (by decide) (by decide)
  rw [dockerEnvFile_lines hlines, grafanaLines, List.filterMap_cons_some huserLine,
    List.filterMap_cons_some hpasswordLine, List.filterMap_cons_some hanonymousLine,
    List.filterMap_nil]
  simp only [String.ofList_toList]

/-- **The password comes out as it went in**, and nothing else with it, if and only if there is
no backslash in it. -/
theorem grafana_password_iff {env : EnvValues} {config : GrafanaConfig} {requirePassword : Bool}
    {bytes : ByteArray} (hconfig : grafanaConfig env = .ok config)
    (hbytes : grafanaEnv config requirePassword = .ok bytes) :
    dockerEnvFile bytes = some (grafanaVariables config) ↔
      '\\' ∉ ((env.lookup "OBS_GRAFANA_ADMIN_PASSWORD").getD "123456").toList := by
  obtain ⟨-, hpassword, hvalue⟩ := grafanaConfig_ok hconfig
  rw [← hvalue, ← escapePassword_eq_self_iff hpassword, dockerEnvFile_grafanaEnv hconfig hbytes,
    grafanaVariables]
  constructor
  · intro heq
    have hsame : String.ofList (escapePassword config.adminPassword.toList) =
        config.adminPassword := by
      simpa using heq
    have hchars := congrArg String.toList hsame
    rwa [String.toList_ofList] at hchars
  · intro heq
    rw [heq, String.ofList_toList]

/-! ### A password with a backslash -/

theorem grafana_password_iff_plain : ∃ bytes,
    grafanaConfig [("OBS_GRAFANA_ADMIN_PASSWORD", "s3cret")] = .ok ⟨"admin", "s3cret"⟩ ∧
      grafanaEnv ⟨"admin", "s3cret"⟩ true = .ok bytes ∧
      (dockerEnvFile bytes = some (grafanaVariables ⟨"admin", "s3cret"⟩) ↔
        '\\' ∉ ((List.lookup "OBS_GRAFANA_ADMIN_PASSWORD"
          [("OBS_GRAFANA_ADMIN_PASSWORD", "s3cret")]).getD "123456").toList) := by
  have hconfig : grafanaConfig [("OBS_GRAFANA_ADMIN_PASSWORD", "s3cret")] =
      .ok ⟨"admin", "s3cret"⟩ := by
    rfl
  have hbytes : ∃ bytes, grafanaEnv ⟨"admin", "s3cret"⟩ true = .ok bytes := ⟨_, rfl⟩
  obtain ⟨bytes, hbytes⟩ := hbytes
  exact ⟨bytes, hconfig, hbytes, grafana_password_iff hconfig hbytes⟩

/-- **A backslash comes out twice.** -/
theorem backslash_doubled : ∃ env config bytes,
    parseEnv ⟨"/etc/dgx-spark/obs.env", true, some "OBS_GRAFANA_ADMIN_PASSWORD=a\\b"⟩ = .ok env ∧
      grafanaConfig env = .ok config ∧ grafanaEnv config true = .ok bytes ∧
      config.adminPassword = "a\\b" ∧ dockerEnvFile bytes ≠ some (grafanaVariables config) ∧
      (dockerEnvFile bytes).map (·.value "GF_SECURITY_ADMIN_PASSWORD") = some "a\\\\b" := by
  have hconfig : grafanaConfig [("OBS_GRAFANA_ADMIN_PASSWORD", "a\\b")] =
      .ok ⟨"admin", "a\\b"⟩ := by
    rfl
  have hbytes : ∃ bytes, grafanaEnv ⟨"admin", "a\\b"⟩ true = .ok bytes := ⟨_, rfl⟩
  obtain ⟨bytes, hbytes⟩ := hbytes
  have hread := dockerEnvFile_grafanaEnv hconfig hbytes
  refine ⟨[("OBS_GRAFANA_ADMIN_PASSWORD", "a\\b")], _, bytes, by rfl, hconfig, hbytes, rfl, ?_, ?_⟩
  · rw [hread]
    decide
  · rw [hread]
    rfl

end DgxSpark
