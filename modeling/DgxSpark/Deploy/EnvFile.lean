import DgxSpark.Deploy.Validate

/-!
# The two readers of an env file

`parse_env_file` of `config.py` and `parse_env` of `stack.py`: two readers of `KEY=VALUE`
records, each with its own list of keys. The second one says that it takes the files of the
first. It is laxer in everything but its list, which has every key of the first but one; and
that one is required (`DgxSpark.parseEnv_never`).

| | |
|---|---|
| a line of the deployment's reader | `DgxSpark.parseEnvFileLine` |
| a line of the monitoring's reader | `DgxSpark.parseEnvLine` |
| where the two agree | `DgxSpark.parseEnv_eq_iff` |
-/

namespace DgxSpark

/-! ### The deployment's reader -/

/-- What is found at a path: whether it is a regular file, and its text where it can be read
as UTF-8. -/
structure EnvSource where
  path : String
  isFile : Bool
  text : Option String

/-- The rules of Unicode that `re` goes by: the word characters, and which characters are equal
up to case. -/
structure CaseRules where
  isWord : Char → Bool
  sameFolded : Char → Char → Bool

/-- `[A-Z][A-Z0-9_]*`. -/
def isEnvKey (s : String) : Bool :=
  match Text.chars s with
  | [] => false
  | c :: cs => ('A' ≤ c && c ≤ 'Z') &&
      cs.all fun d => ('A' ≤ d && d ≤ 'Z') || ('0' ≤ d && d ≤ '9') || d = '_'

/-- `OPTIONAL_EMPTY_KEYS`. -/
def optionalEmptyKeys : List String :=
  allowedValueKeys.filter fun key => !requiredValueKeys.contains key

/-- `_SHELL_SYNTAX.search`. -/
def hasShellSyntax (s : String) : Bool :=
  ["$(", "$\x7b", "\x60", ";", "||", "&&", "\n", "\r"].any fun sub => Text.contains s sub

/-- `<[^>]+>` at the start of a text. -/
def startsBracketed : List Char → Bool
  | '<' :: c :: cs => c ≠ '>' && cs.contains '>'
  | _ => false

/-- The words of `_PLACEHOLDER`, in its order. -/
def envPlaceholderWords : List String :=
  ["REPLACE_WITH", "REPLACE", "CHANGEME", "EXAMPLE_VALUE", "YOUR_VALUE"]

/-- `\b`: exactly one of the two characters around a place is a word character. -/
def CaseRules.boundary (rules : CaseRules) (before after : Option Char) : Bool :=
  before.any rules.isWord != after.any rules.isWord

/-- A word at the start of a text, up to case, and a boundary after it. -/
def CaseRules.startsWord (rules : CaseRules) (word : List Char) (cs : List Char) : Bool :=
  decide (word.length ≤ cs.length) &&
    (word.zip cs).all (fun p => rules.sameFolded p.1 p.2) &&
    rules.boundary (cs.take word.length).getLast? (cs.drop word.length).head?

/-- `_PLACEHOLDER.search`, after the character `before`. -/
def CaseRules.hasPlaceholder (rules : CaseRules) (before : Option Char) : List Char → Bool
  | [] => false
  | c :: cs =>
    startsBracketed (c :: cs) ||
      (rules.boundary before (some c) &&
        envPlaceholderWords.any fun word => rules.startsWord (word.toList) (c :: cs)) ||
      rules.hasPlaceholder (some c) cs

/-- A blank line or a comment. -/
def skipsLine (stripped : String) : Bool :=
  stripped = "" || (Text.chars stripped).head? = some '#'

/-- One line of `parse_env_file`. -/
def parseEnvFileLine (rules : CaseRules) (values : EnvValues) (number : Nat) (line : String) :
    Except Exn EnvValues :=
  if skipsLine (Text.strip line) then .ok values
  else do
    let at_ := "line " ++ toString number ++ ": "
    match Text.cut '=' line with
    | none => .error ⟨.config, at_ ++ "expected KEY=VALUE"⟩
    | some (key, value) =>
      reject (!isEnvKey key) (at_ ++ "invalid key")
      reject (!allowedValueKeys.contains key) (at_ ++ "unknown key " ++ key)
      reject ((values.map Prod.fst).contains key) (at_ ++ "duplicate key " ++ key)
      reject (value != Text.strip value)
        (at_ ++ "surrounding value whitespace is not allowed")
      if value != "" then
        reject (!isSafeValue value) (at_ ++ "control character is not allowed")
      else
        reject (!optionalEmptyKeys.contains key) (at_ ++ "empty value is not allowed")
      reject (hasShellSyntax value) (at_ ++ "shell syntax is not allowed")
      reject (rules.hasPlaceholder none (Text.chars value)) (at_ ++ "unresolved placeholder")
      return values ++ [(key, value)]

/-- The lines of a file in turn, numbered from `number` on. -/
def readLines {ε : Type} (readLine : EnvValues → Nat → String → Except ε EnvValues) :
    EnvValues → Nat → List String → Except ε EnvValues
  | values, _, [] => .ok values
  | values, number, line :: lines => do
    let values ← readLine values number line
    readLines readLine values (number + 1) lines

/-- **`parse_env_file`.** -/
def parseEnvFile (rules : CaseRules) (source : EnvSource) : Except Exn EnvValues :=
  match source.text with
  | none => .error ⟨.config, "cannot read env file: " ++ source.path⟩
  | some text => readLines (parseEnvFileLine rules) [] 1 (Text.splitLines text)

/-! ### The monitoring's reader -/

/-- `ALLOWED_ENV_KEYS`. -/
def allowedEnvKeys : List String := [
  "HEAD_HOST", "WORKER_HOST", "HEAD_SSH_HOST", "WORKER_SSH_HOST", "SSH_USER", "HEAD_SSH_USER",
  "WORKER_SSH_USER", "SSH_PORT", "SSH_KNOWN_HOSTS_FILE", "SSH_IDENTITY_FILE", "OBS_HEAD_HOST",
  "OBS_WORKER_HOST", "OBS_HEAD_SSH_HOST", "OBS_WORKER_SSH_HOST", "OBS_SSH_USER",
  "OBS_HEAD_SSH_USER", "OBS_WORKER_SSH_USER", "OBS_SSH_PORT", "OBS_SSH_KNOWN_HOSTS_FILE",
  "OBS_SSH_IDENTITY_FILE", "OBS_REMOTE_ROOT", "OBS_IMAGE_LOCK_FILE", "OBS_PROFILE_FILE",
  "OBS_GRAFANA_ADMIN_USER", "OBS_GRAFANA_ADMIN_PASSWORD", "OBS_BIND_ADDR", "OBS_VLLM_PORT",
  "OBS_VLLM_METRICS_PATH", "OBS_VLLM_SCHEME", "OBS_HEAD_NODE_NAME", "OBS_WORKER_NODE_NAME",
  "OBS_VLLM_CONTAINER_HEAD", "OBS_VLLM_CONTAINER_WORKER", "OBS_VLLM_LOG_PATH_HEAD",
  "OBS_VLLM_LOG_PATH_WORKER", "OBS_FABRIC_HCA", "OBS_FABRIC_NDEV", "OBS_FABRIC_GID_INDEX",
  "OBS_DOCKER_PROXY", "OBS_SKIP_VLLM_CHECK", "DEPLOYMENT_MODE", "IMAGE_LOCK_FILE",
  "HEAD_IMAGE_REF", "WORKER_IMAGE_REF", "FABRIC_PROFILE", "HEAD_FABRIC_CIDR",
  "WORKER_FABRIC_CIDR", "HEAD_FABRIC_PEER", "WORKER_FABRIC_PEER", "HEAD_FABRIC_CONNECTION",
  "WORKER_FABRIC_CONNECTION", "HEAD_ROCE_GID_INDEX", "WORKER_ROCE_GID_INDEX", "MODEL_ROOT",
  "MODEL_CONTAINER_PATH", "MODEL_MANIFEST_SHA256", "STATE_ROOT", "CACHE_ROOT", "LOG_ROOT",
  "RESULT_ROOT", "REGISTRY", "IMAGE_REF", "MASTER_ADDR", "MASTER_PORT", "API_PORT",
  "HEAD_NODE_ADDR", "WORKER_NODE_ADDR", "HEAD_NET_IFACE", "WORKER_NET_IFACE", "HEAD_HCA",
  "WORKER_HCA", "HEAD_CUDA_VISIBLE_DEVICES", "WORKER_CUDA_VISIBLE_DEVICES", "ROCE_GID_INDEX",
  "ROCE_MTU", "API_BIND_ADDR", "ALLOW_PUBLIC_API", "FORWARD_LOCAL_PORT", "MAX_NUM_SEQS",
  "MAX_NUM_BATCHED_TOKENS", "ALLOW_PRODUCTION_IMAGES_IN_CANDIDATE",
  "PRODUCTION_CHANGE_ALLOWED", "BASE_IMAGE_REF", "BUILD_CONTEXT", "CONTAINERFILE",
  "IMAGE_REPOSITORY", "IMAGE_TAG", "IMAGE_ARCHIVE", "IMAGE_ARCHIVE_SHA256",
  "REMOTE_IMAGE_ARCHIVE", "PERF_MIN_TOKENS_PER_SECOND", "PERF_MAX_TTFT_SECONDS",
  "PERF_MAX_P95_ITL_MS"]

/-- `_fail`, under a condition; the exception is an `ObservabilityError`. -/
def failObservability (condition : Bool) (message : String) : Except String Unit :=
  if condition then .error message else .ok ()

/-- The control characters that `parse_env` looks for. -/
def hasControl (s : String) : Bool :=
  (Text.chars s).any fun c => decide (c.toNat < 0x20) || c.toNat == 0x7F

/-- One line of `parse_env`. -/
def parseEnvLine (path : String) (result : EnvValues) (number : Nat) (raw : String) :
    Except String EnvValues :=
  let line := Text.strip raw
  if skipsLine line then .ok result
  else do
    let at_ := path ++ ":" ++ toString number ++ ": "
    match Text.cut '=' line with
    | none => .error (at_ ++ "expected KEY=VALUE")
    | some (rawKey, value) =>
      let key := Text.strip rawKey
      failObservability (!isEnvKey key) (at_ ++ "invalid key " ++ (Json.str key).pyRepr)
      failObservability (!allowedEnvKeys.contains key)
        (at_ ++ "unknown key " ++ (Json.str key).pyRepr)
      failObservability ((result.map Prod.fst).contains key)
        (at_ ++ "duplicate key " ++ (Json.str key).pyRepr)
      failObservability (hasControl value) (at_ ++ "control character in " ++ key)
      failObservability (Text.contains value "$(" || Text.contains value "\x60")
        (at_ ++ "shell syntax is not accepted")
      return result ++ [(key, Text.strip value)]

/-- **`parse_env`.** -/
def parseEnv (source : EnvSource) : Except String EnvValues :=
  if !source.isFile then .error ("environment file does not exist: " ++ source.path)
  else match source.text with
    | none => .error "the file cannot be decoded"
    | some text => readLines (parseEnvLine source.path) [] 1 (Text.splitLines text)

/-! ### White space around a record -/

/-- A text that is its own `strip` does not end with white space. -/
theorem getLast_of_strip {s : String} (h : Text.strip s = s) :
    s.toList.getLast?.all fun c => !Text.isSpace c := by
  have hchars : s.toList = ((s.toList.dropWhile Text.isSpace).reverse.dropWhile
      Text.isSpace).reverse := by
    conv_lhs => rw [← h, Text.strip, Text.chars_eq, String.toList_ofList]
    rfl
  rw [hchars, List.getLast?_reverse]
  have hhead := List.head?_dropWhile_not Text.isSpace (s.toList.dropWhile Text.isSpace).reverse
  cases hd : ((s.toList.dropWhile Text.isSpace).reverse.dropWhile Text.isSpace).head? with
  | none => rfl
  | some c =>
    rw [hd] at hhead
    simpa using hhead

theorem not_isSpace_of_range {c : Char} (h : 48 ≤ c.toNat ∧ c.toNat ≤ 95) :
    Text.isSpace c = false := by
  simp only [Text.isSpace, Bool.or_eq_false_iff, Bool.and_eq_false_iff, decide_eq_false_iff_not,
    beq_eq_false_iff_ne]
  omega

/-- The characters of a key: no white space, no line break, no sign but the underscore. -/
theorem range_of_isEnvKey {key : String} (h : isEnvKey key = true) :
    key.toList ≠ [] ∧ ∀ c ∈ key.toList, 48 ≤ c.toNat ∧ c.toNat ≤ 95 ∧ c.toNat ≠ 61 := by
  rw [isEnvKey, Text.chars_eq] at h
  cases hkey : key.toList with
  | nil => rw [hkey] at h; cases h
  | cons c cs =>
    rw [hkey] at h
    simp only [Bool.and_eq_true, Bool.or_eq_true, decide_eq_true_eq, List.all_eq_true,
      Char.le_def, UInt32.le_iff_toNat_le] at h
    refine ⟨List.cons_ne_nil _ _, fun d hd => ?_⟩
    rcases List.mem_cons.1 hd with rfl | hd
    · have hrange : 65 ≤ d.toNat ∧ d.toNat ≤ 90 := h.1
      omega
    · rcases h.2 d hd with (hupper | hdigit) | rfl
      · have hrange : 65 ≤ d.toNat ∧ d.toNat ≤ 90 := hupper
        omega
      · have hrange : 48 ≤ d.toNat ∧ d.toNat ≤ 57 := hdigit
        omega
      · decide

theorem not_isSpace_of_isEnvKey {key : String} (h : isEnvKey key = true) :
    ∀ c ∈ key.toList, Text.isSpace c = false := by
  intro c hc
  obtain ⟨hlow, hhigh, -⟩ := (range_of_isEnvKey h).2 c hc
  exact not_isSpace_of_range ⟨hlow, hhigh⟩

theorem strip_of_isEnvKey {key : String} (h : isEnvKey key = true) : Text.strip key = key := by
  have hall := not_isSpace_of_isEnvKey h
  refine Text.strip_eq_self ?_ ?_
  · cases hhead : key.toList.head? with
    | none => rfl
    | some c => simpa using hall c (List.mem_of_head? hhead)
  · cases hlast : key.toList.getLast? with
    | none => rfl
    | some c => simpa using hall c (List.mem_of_getLast? hlast)

/-- A record whose value has no white space around it has none either. -/
theorem strip_record {line key value : String} (hcut : Text.cut '=' line = some (key, value))
    (hkey : isEnvKey key = true) (hvalue : Text.strip value = value) :
    Text.strip line = line := by
  have hne := (range_of_isEnvKey hkey).1
  have hall := not_isSpace_of_isEnvKey hkey
  have hline := Text.cut_eq_some hcut
  refine Text.strip_eq_self ?_ ?_
  · obtain ⟨c, cs, hcs⟩ := List.exists_cons_of_ne_nil hne
    rw [hline, hcs]
    simpa using hall c (by rw [hcs]; exact List.mem_cons_self)
  · rw [hline, List.getLast?_append_cons]
    cases hv : value.toList with
    | nil => decide
    | cons c cs =>
      rw [List.getLast?_cons_cons, ← hv]
      exact getLast_of_strip hvalue

/-! ### What a line adds -/

/-- A record that `parse_env_file` takes, after the records of `values`. -/
structure EnvRecord (rules : CaseRules) (values : EnvValues) (line key value : String) :
    Prop where
  counts : skipsLine (Text.strip line) = false
  cut : Text.cut '=' line = some (key, value)
  isKey : isEnvKey key = true
  allowed : key ∈ allowedValueKeys
  fresh : key ∉ values.map Prod.fst
  stripped : Text.strip value = value
  safe : isSafeValue value = true ∨ value = ""
  optional : value = "" → key ∈ optionalEmptyKeys
  noShell : hasShellSyntax value = false
  noPlaceholder : rules.hasPlaceholder none (Text.chars value) = false

theorem parseEnvFileLine_ok {rules : CaseRules} {values values' : EnvValues} {number : Nat}
    {line : String} (h : parseEnvFileLine rules values number line = .ok values') :
    (skipsLine (Text.strip line) = true ∧ values' = values) ∨
      ∃ key value, EnvRecord rules values line key value ∧
        values' = values ++ [(key, value)] := by
  rw [parseEnvFileLine] at h
  cases hskip : skipsLine (Text.strip line) with
  | true =>
    rw [hskip, if_pos rfl] at h
    cases h
    exact .inl ⟨rfl, rfl⟩
  | false =>
    rw [hskip, if_neg Bool.false_ne_true] at h
    right
    cases hcut : Text.cut '=' line with
    | none =>
      rw [hcut] at h
      cases h
    | some record =>
      obtain ⟨key, value⟩ := record
      rw [hcut] at h
      obtain ⟨_, hkey, h⟩ := except_bind_eq_ok.1 h
      obtain ⟨_, hallowed, h⟩ := except_bind_eq_ok.1 h
      obtain ⟨_, hfresh, h⟩ := except_bind_eq_ok.1 h
      obtain ⟨_, hstrip, h⟩ := except_bind_eq_ok.1 h
      rw [reject_ok, Bool.not_eq_false'] at hkey hallowed
      rw [reject_ok] at hfresh hstrip
      have hvalue : (isSafeValue value = true ∨ value = "") ∧
          (value = "" → key ∈ optionalEmptyKeys) ∧ hasShellSyntax value = false ∧
          rules.hasPlaceholder none (Text.chars value) = false ∧
          values' = values ++ [(key, value)] := by
        by_cases hempty : value = ""
        · rw [if_neg (by simp [hempty])] at h
          obtain ⟨_, hoptional, h⟩ := except_bind_eq_ok.1 h
          obtain ⟨_, hshell, h⟩ := except_bind_eq_ok.1 h
          obtain ⟨_, hplaceholder, h⟩ := except_bind_eq_ok.1 h
          rw [reject_ok, Bool.not_eq_false'] at hoptional
          rw [reject_ok] at hshell hplaceholder
          cases h
          exact ⟨.inr hempty,
            fun _ => List.contains_iff_mem.1 hoptional, hshell,
            hplaceholder, rfl⟩
        · rw [if_pos (by simpa using hempty)] at h
          obtain ⟨_, hsafe, h⟩ := except_bind_eq_ok.1 h
          obtain ⟨_, hshell, h⟩ := except_bind_eq_ok.1 h
          obtain ⟨_, hplaceholder, h⟩ := except_bind_eq_ok.1 h
          rw [reject_ok, Bool.not_eq_false'] at hsafe
          rw [reject_ok] at hshell hplaceholder
          cases h
          exact ⟨.inl hsafe, fun h => absurd h hempty, hshell,
            hplaceholder, rfl⟩
      obtain ⟨hsafe, hoptional, hshell, hplaceholder, rfl⟩ := hvalue
      refine ⟨key, value, ?_, rfl⟩
      exact { counts := hskip, cut := hcut, isKey := hkey
              allowed := List.contains_iff_mem.1 hallowed
              fresh := fun hmem => Bool.eq_false_iff.1 hfresh (List.contains_iff_mem.2 hmem)
              stripped := (bne_eq_false_iff_eq.1 hstrip).symm, safe := hsafe
              optional := hoptional, noShell := hshell, noPlaceholder := hplaceholder }

/-- A record that `parse_env_file` takes is one that `parse_env` takes, if it knows the key. -/
theorem EnvRecord.parseEnvLine_eq {rules : CaseRules} {values : EnvValues}
    {line key value : String} (h : EnvRecord rules values line key value) (path : String)
    (number : Nat) :
    parseEnvLine path values number line =
      if key ∈ allowedEnvKeys then .ok (values ++ [(key, value)])
      else .error (path ++ ":" ++ toString number ++ ": unknown key " ++
        (Json.str key).pyRepr) := by
  have hline := strip_record h.cut h.isKey h.stripped
  have hcounts := h.counts
  rw [hline] at hcounts
  have hcontrol : hasControl value = false := by
    rcases h.safe with hsafe | rfl
    · rw [isSafeValue, Bool.and_eq_true, List.all_eq_true] at hsafe
      refine List.any_eq_false.2 fun c hc => ?_
      have hc := hsafe.2 c hc
      simp only [Bool.and_eq_true, decide_eq_true_eq, bne_iff_ne] at hc
      simp only [Bool.or_eq_true, decide_eq_true_eq, beq_iff_eq]
      omega
    · rfl
  have hshell : (Text.contains value "$(" || Text.contains value "\x60") = false := by
    have hall := List.any_eq_false.1 h.noShell
    rw [Bool.or_eq_false_iff]
    exact ⟨Bool.eq_false_iff.2 (hall "$(" (by simp)),
      Bool.eq_false_iff.2 (hall "\x60" (by simp))⟩
  have hfresh : (values.map Prod.fst).contains key = false :=
    Bool.eq_false_iff.2 fun hmem => h.fresh (List.contains_iff_mem.1 hmem)
  rw [parseEnvLine, hline, if_neg (Bool.eq_false_iff.1 hcounts), h.cut]
  dsimp only
  rw [strip_of_isEnvKey h.isKey, h.isKey, hfresh, hcontrol, hshell, h.stripped]
  by_cases hallowed : key ∈ allowedEnvKeys
  · rw [if_pos hallowed, List.contains_iff_mem.2 hallowed]
    rfl
  · have hnot : allowedEnvKeys.contains key = false :=
      Bool.eq_false_iff.2 fun hmem => hallowed (List.contains_iff_mem.1 hmem)
    rw [if_neg hallowed, hnot]
    rw [show ∀ s : String, path ++ ":" ++ toString number ++ ": unknown key " ++ s =
      path ++ ":" ++ toString number ++ ": " ++ "unknown key " ++ s from fun s => by
        simp only [String.append_assoc]; rfl]
    rfl

/-! ### Whole files -/

/-- What a reading that is under way has stays. -/
theorem readLines_subset {rules : CaseRules} {values values' : EnvValues} {number : Nat}
    {lines : List String}
    (h : readLines (parseEnvFileLine rules) values number lines = .ok values') :
    values ⊆ values' := by
  induction lines generalizing values number with
  | nil =>
    cases h
    exact List.Subset.refl _
  | cons line lines ih =>
    obtain ⟨next, hline, hrest⟩ := except_bind_eq_ok.1 h
    rcases parseEnvFileLine_ok hline with ⟨-, rfl⟩ | ⟨key, value, -, rfl⟩
    · exact ih hrest
    · exact List.Subset.trans (List.subset_append_left _ _) (ih hrest)

/-- Every key that was read is one of the list. -/
theorem readLines_allowed {rules : CaseRules} {values values' : EnvValues} {number : Nat}
    {lines : List String}
    (h : readLines (parseEnvFileLine rules) values number lines = .ok values')
    (hvalues : ∀ p ∈ values, p.1 ∈ allowedValueKeys) :
    ∀ p ∈ values', p.1 ∈ allowedValueKeys := by
  induction lines generalizing values number with
  | nil =>
    cases h
    exact hvalues
  | cons line lines ih =>
    obtain ⟨next, hline, hrest⟩ := except_bind_eq_ok.1 h
    rcases parseEnvFileLine_ok hline with ⟨-, rfl⟩ | ⟨key, value, hrecord, rfl⟩
    · exact ih hrest hvalues
    · refine ih hrest fun p hp => ?_
      rcases List.mem_append.1 hp with hp | hp
      · exact hvalues p hp
      · rw [List.mem_singleton.1 hp]
        exact hrecord.allowed

/-- What `parse_env` makes of the lines that `parse_env_file` took: the same records if it
knows their keys, and nothing else. -/
theorem readLines_parseEnvLine {rules : CaseRules} {values values' : EnvValues} {number : Nat}
    {lines : List String}
    (h : readLines (parseEnvFileLine rules) values number lines = .ok values')
    (hvalues : ∀ p ∈ values, p.1 ∈ allowedEnvKeys) (path : String) (out : EnvValues) :
    readLines (parseEnvLine path) values number lines = .ok out ↔
      out = values' ∧ ∀ p ∈ values', p.1 ∈ allowedEnvKeys := by
  induction lines generalizing values number with
  | nil =>
    cases h
    constructor
    · intro hout
      cases hout
      exact ⟨rfl, hvalues⟩
    · rintro ⟨rfl, -⟩
      rfl
  | cons line lines ih =>
    obtain ⟨next, hline, hrest⟩ := except_bind_eq_ok.1 h
    rw [readLines]
    rcases parseEnvFileLine_ok hline with ⟨hskip, rfl⟩ | ⟨key, value, hrecord, rfl⟩
    · rw [parseEnvLine, if_pos hskip]
      exact ih hrest hvalues
    · rw [hrecord.parseEnvLine_eq]
      by_cases hallowed : key ∈ allowedEnvKeys
      · rw [if_pos hallowed]
        refine ih hrest fun p hp => ?_
        rcases List.mem_append.1 hp with hp | hp
        · exact hvalues p hp
        · rw [List.mem_singleton.1 hp]
          exact hallowed
      · rw [if_neg hallowed]
        constructor
        · intro hout
          cases hout
        · rintro ⟨-, hall⟩
          have hmem : (key, value) ∈ values' := readLines_subset hrest (by simp)
          exact absurd (hall _ hmem) hallowed

/-- The one key of the deployment that the monitoring does not know. -/
theorem mem_allowedEnvKeys {key : String} (h : key ∈ allowedValueKeys) :
    key ∈ allowedEnvKeys ↔ key ≠ "REMOTE_ROOT" := by
  have hall : allowedValueKeys.all fun key =>
      allowedEnvKeys.contains key == (key != "REMOTE_ROOT") := by decide +kernel
  have hkey := beq_iff_eq.1 (List.all_eq_true.1 hall key h)
  rw [← List.contains_iff_mem, hkey, bne_iff_ne]

/-- **Where the two readers agree**: on the files of the deployment without `REMOTE_ROOT`. -/
theorem parseEnv_eq_iff {rules : CaseRules} {source : EnvSource} {values : EnvValues}
    (hparse : parseEnvFile rules source = .ok values) (hfile : source.isFile = true)
    (out : EnvValues) :
    parseEnv source = .ok out ↔ out = values ∧ ∀ p ∈ values, p.1 ≠ "REMOTE_ROOT" := by
  rw [parseEnvFile] at hparse
  rw [parseEnv, hfile, if_neg (by simp)]
  cases htext : source.text with
  | none =>
    rw [htext] at hparse
    cases hparse
  | some text =>
    rw [htext] at hparse
    dsimp only at hparse ⊢
    rw [readLines_parseEnvLine hparse (fun p hp => absurd hp List.not_mem_nil)]
    have hallowed := readLines_allowed hparse (fun p hp => absurd hp List.not_mem_nil)
    refine and_congr_right fun _ => forall₂_congr fun p hp => ?_
    exact mem_allowedEnvKeys (hallowed p hp)

/-- What is validated has every required key. -/
theorem mem_of_validate {decimals : Decimals} {repository : PosixPath} {values : EnvValues}
    {profile : Profile} {config : Config}
    (h : validate decimals repository values profile = .ok config) (key : String)
    (hkey : key ∈ requiredValueKeys) : ∃ p ∈ values, p.1 = key := by
  rw [validate] at h
  obtain ⟨_, hkeys, -⟩ := except_bind_eq_ok.1 h
  obtain ⟨_, -, hmissing⟩ := except_bind_eq_ok.1 hkeys
  rw [reject_ok, Bool.not_eq_false', List.isEmpty_iff] at hmissing
  by_contra hnone
  have hvalue : values.value key = "" := by
    rw [EnvValues.value, List.lookup_eq_none_iff.2]
    · rfl
    · intro p hp
      exact bne_iff_ne.2 fun heq => hnone ⟨p, hp, heq.symm⟩
  have hmem : key ∈ Text.sorted (requiredValueKeys.filter fun key => values.value key == "") := by
    rw [Text.sorted, List.mem_insertionSort, List.mem_filter]
    exact ⟨hkey, by rw [hvalue]; rfl⟩
  rw [hmissing] at hmem
  exact List.not_mem_nil hmem

/-- **`parse_env` takes no file of the deployment**: whatever `parse_env_file` reads and
`validate` accepts, it refuses. -/
theorem parseEnv_never {rules : CaseRules} {decimals : Decimals} {repository : PosixPath}
    {profile : Profile} {source : EnvSource} {values : EnvValues} {config : Config}
    (hparse : parseEnvFile rules source = .ok values)
    (hvalid : validate decimals repository values profile = .ok config) :
    ∀ out, parseEnv source ≠ .ok out := by
  intro out hout
  have hfile : source.isFile = true := by
    by_contra hnot
    rw [parseEnv, Bool.eq_false_iff.2 hnot] at hout
    cases hout
  obtain ⟨-, hall⟩ := (parseEnv_eq_iff hparse hfile out).1 hout
  obtain ⟨p, hp, hkey⟩ := mem_of_validate hvalid "REMOTE_ROOT" (by decide)
  exact hall p hp hkey

/-! ### Writing an env file -/

/-- The line of a record. -/
def recordLine (p : String × String) : List Char := p.1.toList ++ '=' :: p.2.toList

/-- A record that can be written on a line. -/
def isCleanRecord (rules : CaseRules) (p : String × String) : Bool :=
  isEnvKey p.1 && allowedValueKeys.contains p.1 && (Text.strip p.2 == p.2) &&
    (if p.2 = "" then optionalEmptyKeys.contains p.1 else isSafeValue p.2) &&
    !hasShellSyntax p.2 && !rules.hasPlaceholder none (Text.chars p.2) &&
    (Text.chars p.2).all fun c => !Text.isLineBreak c

/-- The file of some values. -/
def writeEnv (path : String) (values : EnvValues) : EnvSource where
  path := path
  isFile := true
  text := some (String.ofList ((values.map recordLine).flatMap fun l => l ++ ['\n']))

/-- What `isCleanRecord` checks. -/
theorem clean_iff {rules : CaseRules} {key value : String} :
    isCleanRecord rules (key, value) = true ↔ isEnvKey key = true ∧ key ∈ allowedValueKeys ∧
      Text.strip value = value ∧
      (if value = "" then optionalEmptyKeys.contains key else isSafeValue value) = true ∧
      hasShellSyntax value = false ∧ rules.hasPlaceholder none (Text.chars value) = false ∧
      ∀ c ∈ value.toList, Text.isLineBreak c = false := by
  simp only [isCleanRecord, Bool.and_eq_true, List.contains_iff_mem, beq_iff_eq,
    Bool.not_eq_true', List.all_eq_true, Text.chars_eq, and_assoc]

/-- A clean record is taken after values that do not have its key. -/
theorem envRecord_of_clean {rules : CaseRules} {values : EnvValues} {key value : String}
    (h : isCleanRecord rules (key, value) = true) (hfresh : key ∉ values.map Prod.fst) :
    EnvRecord rules values (String.ofList (recordLine (key, value))) key value := by
  obtain ⟨hkey, hallowed, hstrip, hvalue, hshell, hplaceholder, -⟩ := clean_iff.1 h
  obtain ⟨hne, hrange⟩ := range_of_isEnvKey hkey
  have hcut : Text.cut '=' (String.ofList (recordLine (key, value))) = some (key, value) := by
    have hsep : '=' ∉ key.toList := fun hmem => (hrange '=' hmem).2.2 rfl
    rw [Text.cut, Text.chars_eq, String.toList_ofList, recordLine, Text.cutAt_append hsep]
    simp only [Option.map_some, String.ofList_toList]
  refine ⟨?_, hcut, hkey, hallowed, hfresh, hstrip, ?_, ?_, hshell, hplaceholder⟩
  · obtain ⟨c, cs, hcs⟩ := List.exists_cons_of_ne_nil hne
    have hline := strip_record hcut hkey hstrip
    have hc := (hrange c (by rw [hcs]; exact List.mem_cons_self)).1
    rw [hline, skipsLine, Text.chars_eq, String.toList_ofList, recordLine, hcs,
      Bool.or_eq_false_iff]
    constructor
    · refine decide_eq_false fun heq => ?_
      have hlist := congrArg String.toList heq
      rw [String.toList_ofList] at hlist
      cases hlist
    · refine decide_eq_false fun heq => ?_
      have heq : c = '#' := Option.some.inj heq
      rw [heq] at hc
      exact absurd hc (by decide)
  · by_cases hempty : value = ""
    · exact .inr hempty
    · rw [if_neg hempty] at hvalue
      exact .inl hvalue
  · intro hempty
    rw [if_pos hempty] at hvalue
    exact List.contains_iff_mem.1 hvalue

/-- A record is taken by its line. -/
theorem EnvRecord.parseEnvFileLine_eq {rules : CaseRules} {values : EnvValues}
    {line key value : String} (h : EnvRecord rules values line key value) (number : Nat) :
    parseEnvFileLine rules values number line = .ok (values ++ [(key, value)]) := by
  have hallowed := List.contains_iff_mem.2 h.allowed
  have hfresh : (values.map Prod.fst).contains key = false :=
    Bool.eq_false_iff.2 fun hmem => h.fresh (List.contains_iff_mem.1 hmem)
  rw [parseEnvFileLine, h.counts, if_neg Bool.false_ne_true, h.cut]
  dsimp only
  rw [h.isKey, hallowed, hfresh, h.stripped, h.noShell, h.noPlaceholder]
  by_cases hempty : value = ""
  · have hoptional := List.contains_iff_mem.2 (h.optional hempty)
    rw [if_neg (by simp [hempty]), hoptional, bne_self_eq_false]
    rfl
  · have hsafe := h.safe.resolve_right hempty
    rw [if_pos (by simpa using hempty), hsafe, bne_self_eq_false]
    rfl

/-- **What is written reads back**: clean records with different keys. -/
theorem parseEnvFile_writeEnv {rules : CaseRules} {path : String} {values : EnvValues}
    (hclean : values.all (isCleanRecord rules) = true) (hkeys : (values.map Prod.fst).Nodup) :
    parseEnvFile rules (writeEnv path values) = .ok values := by
  have hclean := List.all_eq_true.1 hclean
  have hbreaks : ∀ l ∈ values.map recordLine, ∀ c ∈ l, Text.isLineBreak c = false := by
    intro l hl c hc
    obtain ⟨⟨key, value⟩, hp, rfl⟩ := List.mem_map.1 hl
    obtain ⟨hkey, -, -, -, -, -, hvalue⟩ := clean_iff.1 (hclean _ hp)
    rcases List.mem_append.1 hc with hc | hc
    · have hrange := (range_of_isEnvKey hkey).2 c hc
      simp only [Text.isLineBreak, Bool.or_eq_false_iff, Bool.and_eq_false_iff,
        decide_eq_false_iff_not, beq_eq_false_iff_ne]
      omega
    · rcases List.mem_cons.1 hc with rfl | hc
      · decide
      · exact hvalue c hc
  have hlines : ∀ (rest : EnvValues) (before : EnvValues) (number : Nat),
      (∀ p ∈ rest, isCleanRecord rules p = true) → ((before ++ rest).map Prod.fst).Nodup →
      readLines (parseEnvFileLine rules) before number
        ((rest.map recordLine).map String.ofList) = .ok (before ++ rest) := by
    intro rest
    induction rest with
    | nil =>
      intro before number _ _
      rw [List.append_nil]
      rfl
    | cons p rest ih =>
      intro before number hrest hnodup
      have hfresh : p.1 ∉ before.map Prod.fst := by
        rw [List.map_append, List.map_cons] at hnodup
        exact fun hmem => (List.disjoint_of_nodup_append hnodup) hmem List.mem_cons_self
      have hrecord := envRecord_of_clean (hrest p List.mem_cons_self) hfresh
      rw [List.map_cons, List.map_cons, readLines, hrecord.parseEnvFileLine_eq]
      have happend : before ++ p :: rest = before ++ [p] ++ rest := by simp
      rw [happend] at hnodup ⊢
      exact ih (before ++ [p]) (number + 1) (fun q hq => hrest q (List.mem_cons_of_mem _ hq))
        hnodup
  rw [parseEnvFile, writeEnv]
  dsimp only
  rw [Text.splitLines, Text.chars_eq, String.toList_ofList, Text.splitLines_flatMap _ hbreaks]
  exact hlines values [] 1 hclean hkeys

/-! ### A file of a deployment -/

/-- The rules of Unicode on ASCII. -/
def asciiRules : CaseRules where
  isWord c := c.isAlphanum || c == '_'
  sameFolded c d := c.toLower == d.toLower

/-- The env file of a candidate. -/
def candidateSource : EnvSource :=
  writeEnv "/etc/dgx-spark/candidate.env" (sharedRootValues .candidate)

theorem parseEnvFile_candidate :
    parseEnvFile asciiRules candidateSource = .ok (sharedRootValues .candidate) :=
  parseEnvFile_writeEnv (by decide +kernel) (by decide +kernel)

theorem validate_candidateSource :
    ∃ config, validate asciiDecimals checkout (sharedRootValues .candidate) defaultProfile =
      .ok config := by
  have hok : (validate asciiDecimals checkout (sharedRootValues .candidate)
      defaultProfile).toOption.isSome := by
    decide +kernel
  cases hvalid : validate asciiDecimals checkout (sharedRootValues .candidate)
      defaultProfile with
  | ok config => exact ⟨config, rfl⟩
  | error e =>
    rw [hvalid] at hok
    cases hok

/-- The two readers on the env file of a candidate. -/
theorem parseEnv_never_candidate :
    (∃ config, validate asciiDecimals checkout (sharedRootValues .candidate) defaultProfile =
        .ok config) ∧
      ∀ out, parseEnv candidateSource ≠ .ok out := by
  obtain ⟨config, hvalid⟩ := validate_candidateSource
  exact ⟨⟨config, hvalid⟩, parseEnv_never parseEnvFile_candidate hvalid⟩

/-- One env file does not serve both tools. -/
theorem candidate_not_both :
    ¬∀ (source : EnvSource) (values : EnvValues) (config : Config),
      parseEnvFile asciiRules source = .ok values →
      validate asciiDecimals checkout values defaultProfile = .ok config →
      parseEnv source = .ok values := by
  intro hall
  obtain ⟨config, hvalid⟩ := validate_candidateSource
  have hparse := hall candidateSource _ config parseEnvFile_candidate hvalid
  obtain ⟨-, hkeys⟩ := (parseEnv_eq_iff parseEnvFile_candidate rfl _).1 hparse
  obtain ⟨p, hp, hkey⟩ := mem_of_validate hvalid "REMOTE_ROOT" (by decide)
  exact hkeys p hp hkey

end DgxSpark
