import DgxSpark.Lib.Json
import DgxSpark.Deploy.Config

/-!
# The model lock

`validate_lock` of `scripts/model/verify.py`: what a model lock must say before an installed
model is compared with it. The lock is a closed contract, so every mapping has exactly its
keys.

What the interpreter brings along is a parameter (`DgxSpark.Verify.Runtime`): decoding a JSON
file with repeated keys refused, the two hash functions, floats, and the decimal digits of all
scripts, which are the `\d` of a pattern.
-/

namespace DgxSpark

namespace Verify

/-- The bytes of a file. -/
abbrev Bytes : Type := List UInt8

/-- **What the interpreter brings along.** -/
structure Runtime where
  /-- `json.load` with `_reject_duplicate_object_keys`, when it raises nothing -/
  load : Bytes → Option Json
  /-- `hashlib.sha256(…).hexdigest()` -/
  sha256 : Bytes → String
  /-- `hashlib.sha1(…).hexdigest()` -/
  sha1 : Bytes → String
  /-- `\d`, a decimal digit of any script -/
  isDecimal : Char → Bool
  /-- the floats -/
  Float : Type
  /-- `float(value)` of a decoded number, when it is finite -/
  float : Json → Option Float
  /-- `0 < x` -/
  positive : Float → Bool
  /-- `x <= 1` -/
  atMostOne : Float → Bool
  /-- `value == x` for a decoded value -/
  equals : Json → Float → Bool

/-- `raise VerificationError` on a condition. -/
def raiseIf (condition : Bool) (message : String) : Except String Unit :=
  if condition then .error message else .ok ()

theorem raiseIf_eq_ok {condition : Bool} {message : String} {u : Unit} :
    raiseIf condition message = .ok u ↔ condition = false := by
  cases condition <;> simp [raiseIf]

/-! ### Shapes -/

/-- `_require_mapping`. -/
def requireMapping (value : Json) (label : String) : Except String Json := do
  raiseIf (!value.isMapping) (label ++ " must be an object")
  return value

/-- `_require_exact_keys`. -/
def requireExactKeys (value : Json) (required : List String) (label : String) :
    Except String Unit := do
  let actual := Json.keys value.members
  let missing := Text.sorted (required.filter fun key => !actual.contains key)
  let extra := Text.sorted (actual.filter fun key => !required.contains key)
  raiseIf (!missing.isEmpty)
    (label ++ " is missing required field(s): " ++ String.intercalate ", " missing)
  raiseIf (!extra.isEmpty) (label ++ " has unexpected field(s): " ++ String.intercalate ", " extra)

/-- `_require_string`, with the pattern as a predicate. -/
def requireString (value : Json) (label : String) (pattern : String → Bool) :
    Except String String :=
  match value with
  | .str s =>
    if s = "" then .error (label ++ " must be a non-empty string")
    else if pattern s then .ok s
    else .error (label ++ " has an invalid value")
  | _ => .error (label ++ " must be a non-empty string")

/-- Any text. -/
def anyText (_ : String) : Bool := true

/-- `_require_int`. -/
def requireInt (value : Json) (label : String) (minimum : Nat) : Except String Nat :=
  match value with
  | .int n =>
    if n < minimum then .error (label ++ " must be an integer >= " ++ toString minimum)
    else .ok n.toNat
  | _ => .error (label ++ " must be an integer >= " ++ toString minimum)

/-- `_require_bool`. -/
def requireBool (value : Json) (label : String) : Except String Bool :=
  match value with
  | .bool b => .ok b
  | _ => .error (label ++ " must be a boolean")

/-- `_require_number` with the lower bound zero, and the upper bound one if there is one. -/
def requireNumber (rt : Runtime) (value : Json) (label : String) (bounded : Bool) :
    Except String rt.Float :=
  let number := match value with
    | .int _ | .float _ => true
    | _ => false
  if !number then .error (label ++ " must be a number")
  else
    match rt.float value with
    | none => .error (label ++ " must be finite")
    | some x =>
      if !rt.positive x then .error (label ++ " must be greater than 0")
      else if bounded && !rt.atMostOne x then .error (label ++ " must be <= 1")
      else .ok x

/-! ### Patterns -/

/-- A character of `[A-Za-z0-9]`. -/
def isWordChar (c : Char) : Bool :=
  ('A' ≤ c && c ≤ 'Z') || ('a' ≤ c && c ≤ 'z') || ('0' ≤ c && c ≤ '9')

/-- A character of `[A-Za-z0-9._-]`. -/
def isPathChar (c : Char) : Bool :=
  isWordChar c || c == '.' || c == '_' || c == '-'

/-- The components of a path. -/
def components (path : String) : List String :=
  Text.splitOn '/' path

/-- `_PATH_RE`. -/
def isPathText (path : String) : Bool :=
  (components path).all fun part => part != "" && (Text.chars part).all isPathChar

/-- A path that `validate_relative_path` lets through. -/
def isSafePath (path : String) : Bool :=
  isPathText path && (components path).all fun part => part != "." && part != ".."

/-- `validate_relative_path`. -/
def validateRelativePath (value : Json) (label : String) : Except String String := do
  let path ← requireString value label anyText
  raiseIf (!isSafePath path) (label ++ " is not a safe relative path")
  return path

/-- `_SHA256_RE`. -/
def isSha256 (s : String) : Bool := Text.fullMatch Text.isHexLower 64 s

/-- `_SHA1_RE` and `_REVISION_RE`. -/
def isSha1 (s : String) : Bool := Text.fullMatch Text.isHexLower 40 s

/-- A name of a repository or of its owner. -/
def isRepoName (cs : List Char) : Bool :=
  match cs with
  | [] => false
  | c :: cs => isWordChar c && cs.all isPathChar

/-- An owner and a name. -/
def isRepoId (s : String) : Bool :=
  match (Text.chars s).splitOn '/' with
  | [owner, name] => isRepoName owner && isRepoName name
  | _ => false

/-- A date, as numbers. -/
def isDate (rt : Runtime) (s : String) : Bool :=
  match Text.chars s with
  | [a, b, c, d, '-', e, f, '-', g, h] => [a, b, c, d, e, f, g, h].all rt.isDecimal
  | _ => false

/-- A text whose upper case is `MIT`. -/
def isMit (s : String) : Bool :=
  match Text.chars s with
  | [m, i, t] => (m == 'm' || m == 'M') && (i == 'i' || i == 'I' || i.toNat == 0x131) &&
      (t == 't' || t == 'T')
  | _ => false

/-! ### The parts of a lock -/

/-- The hash under which a file is locked. -/
inductive FileHash where
  | sha256 (digest : String)
  | gitBlobSha1 (digest : String)
deriving DecidableEq

/-- A locked file. -/
structure FileEntry where
  path : String
  size : Nat
  role : String
  hash : FileHash

/-- A validated lock: what verification reads of it. -/
structure ModelLock (rt : Runtime) where
  repoId : String
  revision : String
  modelType : String
  architecture : String
  configPath : String
  licensePath : String
  generationPath : String
  doSample : Bool
  temperature : rt.Float
  topP : rt.Float
  tokenizerPath : String
  tokenizerConfigPath : String
  tokenizerClass : String
  indexPath : String
  shardCount : Nat
  shards : List String
  manifestMarker : String
  files : List FileEntry

/-- The roles of files. -/
def fileRoles : List String :=
  ["config", "generation_config", "index", "license", "tokenizer", "tokenizer_config", "weight"]

/-- `DEFAULT_MARKER`. -/
def defaultMarker : String := ".model-lock.sha256"

/-- `_validate_file_entry`. -/
def validateFileEntry (value : Json) (index : Nat) : Except String FileEntry := do
  let label := "lock files[" ++ toString index ++ "]"
  let entry ← requireMapping value label
  match ["path", "size", "role"].find? fun key => !entry.hasKey key with
  | some key => .error (label ++ " is missing required field: " ++ key)
  | none =>
    raiseIf ((Json.keys entry.members).any fun key =>
      !(["path", "size", "role", "sha256", "git_blob_sha1"].contains key))
      (label ++ " has an unexpected field")
    let path ← validateRelativePath (entry.get "path") (label ++ ".path")
    let size ← requireInt (entry.get "size") (label ++ ".size") 0
    let role ← requireString (entry.get "role") (label ++ ".role") anyText
    raiseIf (!fileRoles.contains role) (label ++ ".role is unsupported")
    raiseIf (entry.hasKey "sha256" == entry.hasKey "git_blob_sha1")
      (label ++ " must contain exactly one file hash")
    if entry.hasKey "sha256" then
      let digest ← requireString (entry.get "sha256") (label ++ ".sha256") isSha256
      return ⟨path, size, role, .sha256 digest⟩
    else
      let digest ← requireString (entry.get "git_blob_sha1") (label ++ ".git_blob_sha1") isSha1
      return ⟨path, size, role, .gitBlobSha1 digest⟩

/-- The entries of a list, each under its index. -/
def validateFileEntries : Nat → List Json → Except String (List FileEntry)
  | _, [] => .ok []
  | index, value :: values => do
    let entry ← validateFileEntry value index
    let entries ← validateFileEntries (index + 1) values
    return entry :: entries

/-- The shards of a list, each under its index. -/
def validateShards : Nat → List Json → Except String (List String)
  | _, [] => .ok []
  | index, value :: values => do
    let shard ← validateRelativePath value ("lock weights.shards[" ++ toString index ++ "]")
    let shards ← validateShards (index + 1) values
    return shard :: shards

/-- `_validate_schema_document`, on the content of the schema file. -/
def validateSchemaDocument (rt : Runtime) (content : Bytes) : Except String Unit :=
  match rt.load content with
  | none => .error "model-lock schema is not valid JSON"
  | some schema => do
    let schema ← requireMapping schema "model-lock schema"
    raiseIf (schema.get "$schema" != .str "https://json-schema.org/draft/2020-12/schema")
      "model-lock schema has an unexpected draft"
    raiseIf (schema.get "type" != .str "object" || schema.get "additionalProperties" != .bool false)
      "model-lock schema must be a closed object schema"

/-- The schema is checked if there is one. -/
def validateSchema (rt : Runtime) : Option Bytes → Except String Unit
  | some content => validateSchemaDocument rt content
  | none => .ok ()

/-- The model of a lock: its repository, revision, type, architecture and configuration. -/
def validateModel (lock : Json) : Except String (String × String × String × String × String) := do
  let model ← requireMapping (lock.get "model") "lock model"
  requireExactKeys model
    ["repo_id", "revision", "library_name", "model_type", "architecture", "config_path"] "lock model"
  let repoId ← requireString (model.get "repo_id") "lock model.repo_id" isRepoId
  let revision ← requireString (model.get "revision") "lock model.revision" isSha1
  let _ ← requireString (model.get "library_name") "lock model.library_name" anyText
  let modelType ← requireString (model.get "model_type") "lock model.model_type" anyText
  let architecture ← requireString (model.get "architecture") "lock model.architecture" anyText
  let configPath ← validateRelativePath (model.get "config_path") "lock model.config_path"
  return (repoId, revision, modelType, architecture, configPath)

/-- Where the model comes from. -/
def validateProvenance (rt : Runtime) (lock : Json) (repoId revision : String) :
    Except String Unit := do
  let provenance ← requireMapping (lock.get "provenance") "lock provenance"
  requireExactKeys provenance ["model_api", "tree_api", "metadata_observed_on"] "lock provenance"
  let modelApi ← requireString (provenance.get "model_api") "lock provenance.model_api" anyText
  let treeApi ← requireString (provenance.get "tree_api") "lock provenance.tree_api" anyText
  let _ ← requireString (provenance.get "metadata_observed_on")
    "lock provenance.metadata_observed_on" (isDate rt)
  let api := Text.chars "https://huggingface.co/api/models/"
  raiseIf (!api.isPrefixOf (Text.chars modelApi) || !api.isPrefixOf (Text.chars treeApi))
    "lock provenance must cite public Hugging Face model APIs"
  raiseIf (!Text.contains modelApi repoId || !Text.contains treeApi repoId ||
      !Text.contains modelApi revision || !Text.contains treeApi revision)
    "lock provenance does not identify the pinned model revision"

/-- The licence of a lock: the path of its file. -/
def validateLicense (lock : Json) : Except String String := do
  let license ← requireMapping (lock.get "license") "lock license"
  requireExactKeys license ["spdx", "file_path"] "lock license"
  let spdx ← requireString (license.get "spdx") "lock license.spdx" anyText
  let path ← validateRelativePath (license.get "file_path") "lock license.file_path"
  raiseIf (!isMit spdx) "lock license must be MIT"
  return path

/-- The sampling defaults of a lock. -/
def validateGeneration (rt : Runtime) (lock : Json) :
    Except String (String × Bool × rt.Float × rt.Float) := do
  let generation ← requireMapping (lock.get "generation_config") "lock generation_config"
  requireExactKeys generation ["path", "do_sample", "temperature", "top_p"] "lock generation_config"
  let path ← validateRelativePath (generation.get "path") "lock generation_config.path"
  let doSample ← requireBool (generation.get "do_sample") "lock generation_config.do_sample"
  let temperature ← requireNumber rt (generation.get "temperature")
    "lock generation_config.temperature" false
  let topP ← requireNumber rt (generation.get "top_p") "lock generation_config.top_p" true
  return (path, doSample, temperature, topP)

/-- There is no chat template. -/
def validateChatTemplate (lock : Json) : Except String Unit := do
  let chatTemplate ← requireMapping (lock.get "chat_template") "lock chat_template"
  requireExactKeys chatTemplate ["policy", "jinja"] "lock chat_template"
  raiseIf (chatTemplate.get "policy" != .str "absent" || chatTemplate.get "jinja" != .bool false)
    "lock chat_template must require an absent Jinja template"

/-- The tokenizer of a lock. -/
def validateTokenizer (lock : Json) : Except String (String × String × String) := do
  let tokenizer ← requireMapping (lock.get "tokenizer") "lock tokenizer"
  requireExactKeys tokenizer ["tokenizer_path", "config_path", "tokenizer_class"] "lock tokenizer"
  let path ← validateRelativePath (tokenizer.get "tokenizer_path") "lock tokenizer.tokenizer_path"
  let configPath ← validateRelativePath (tokenizer.get "config_path") "lock tokenizer.config_path"
  let tokenizerClass ← requireString (tokenizer.get "tokenizer_class")
    "lock tokenizer.tokenizer_class" anyText
  return (path, configPath, tokenizerClass)

/-- The weights of a lock: the index and the shards. -/
def validateWeights (lock : Json) : Except String (String × Nat × List String) := do
  let weights ← requireMapping (lock.get "weights") "lock weights"
  requireExactKeys weights ["format", "index_path", "shard_count", "shards"] "lock weights"
  raiseIf (weights.get "format" != .str "safetensors") "lock weights.format must be safetensors"
  let indexPath ← validateRelativePath (weights.get "index_path") "lock weights.index_path"
  let shardCount ← requireInt (weights.get "shard_count") "lock weights.shard_count" 1
  match weights.get "shards" with
  | .arr (value :: values) => do
    let shards ← validateShards 0 (value :: values)
    raiseIf (!decide shards.Nodup || shards.length != shardCount)
      "lock weights shard_count does not match its unique shard list"
    raiseIf (shards.any fun shard => !(Text.chars ".safetensors").isSuffixOf (Text.chars shard))
      "lock weights.shards must contain only safetensors files"
    return (indexPath, shardCount, shards)
  | _ => .error "lock weights.shards must be a non-empty array"

/-- How the model is installed. -/
def validateInstall (lock : Json) : Except String String := do
  let install ← requireMapping (lock.get "install") "lock install"
  requireExactKeys install ["manifest_marker", "unexpected_files"] "lock install"
  let marker ← validateRelativePath (install.get "manifest_marker") "lock install.manifest_marker"
  raiseIf (marker != defaultMarker || install.get "unexpected_files" != .str "reject")
    "lock install must reject unexpected files with the standard marker"
  return marker

/-- The totals of a lock: the number of files, their bytes, and those of the weights. -/
def validateTotals (lock : Json) : Except String (Nat × Nat × Nat) := do
  let totals ← requireMapping (lock.get "totals") "lock totals"
  requireExactKeys totals ["file_count", "selected_size_bytes", "weight_size_bytes"] "lock totals"
  let fileCount ← requireInt (totals.get "file_count") "lock totals.file_count" 1
  let selectedSize ← requireInt (totals.get "selected_size_bytes")
    "lock totals.selected_size_bytes" 1
  let weightSize ← requireInt (totals.get "weight_size_bytes") "lock totals.weight_size_bytes" 1
  return (fileCount, selectedSize, weightSize)

/-- The files of a lock. -/
def validateFiles (lock : Json) : Except String (List FileEntry) :=
  match lock.get "files" with
  | .arr (value :: values) => validateFileEntries 0 (value :: values)
  | _ => .error "lock files must be a non-empty array"

/-- The paths that the metadata of a lock names, each with its role; a path that is named twice
has the role that is named last. -/
def ModelLock.expectedRoles {rt : Runtime} (lock : ModelLock rt) : List (String × String) :=
  [(lock.configPath, "config"), (lock.licensePath, "license"),
    (lock.generationPath, "generation_config"), (lock.tokenizerPath, "tokenizer"),
    (lock.tokenizerConfigPath, "tokenizer_config"), (lock.indexPath, "index")] ++
    lock.shards.map fun shard => (shard, "weight")

/-- The sum of some sizes. -/
def totalSize (files : List FileEntry) : Nat :=
  (files.map FileEntry.size).sum

/-- The details of a set that differs from the expected one. -/
def setDifference (expected actual : List String) : String :=
  let missing := Text.sorted (expected.dedup.filter fun path => !actual.contains path)
  let extra := Text.sorted (actual.dedup.filter fun path => !expected.contains path)
  String.intercalate "; "
    ((if missing.isEmpty then [] else ["missing " ++ String.intercalate ", " missing]) ++
      (if extra.isEmpty then [] else ["unexpected " ++ String.intercalate ", " extra]))

/-- Equality of sets. -/
def sameSet (a b : List String) : Bool :=
  a.all b.contains && b.all a.contains

/-- The file inventory of a lock, against its metadata and its totals. -/
def checkInventory {rt : Runtime} (lock : ModelLock rt) (fileCount selectedSize weightSize : Nat) :
    Except String Unit := do
  let paths := lock.files.map FileEntry.path
  let expected := lock.expectedRoles.map Prod.fst
  raiseIf (!decide paths.Nodup) "lock files contains duplicate paths"
  raiseIf (!sameSet paths expected)
    ("lock files does not match required model files (" ++ setDifference expected paths ++ ")")
  raiseIf (fileCount != lock.files.length || selectedSize != totalSize lock.files)
    "lock totals do not match the file inventory"
  raiseIf (weightSize != totalSize (lock.files.filter fun file => file.role == "weight"))
    "lock totals.weight_size_bytes does not match weight files"
  raiseIf (lock.files.any fun file => lock.expectedRoles.reverse.lookup file.path != some file.role)
    "lock file roles do not match model metadata"

/-- `validate_lock`. -/
def validateLock (rt : Runtime) (schema : Option Bytes) (lock : Json) :
    Except String (ModelLock rt) := do
  validateSchema rt schema
  let lock ← requireMapping lock "model lock"
  requireExactKeys lock ["schema_version", "model", "provenance", "license", "generation_config",
    "chat_template", "tokenizer", "weights", "install", "totals", "files"] "model lock"
  raiseIf (!(lock.get "schema_version").pyEq (.int 1)) "model lock schema_version must be 1"
  let (repoId, revision, modelType, architecture, configPath) ← validateModel lock
  validateProvenance rt lock repoId revision
  let licensePath ← validateLicense lock
  let (generationPath, doSample, temperature, topP) ← validateGeneration rt lock
  validateChatTemplate lock
  let (tokenizerPath, tokenizerConfigPath, tokenizerClass) ← validateTokenizer lock
  let (indexPath, shardCount, shards) ← validateWeights lock
  let manifestMarker ← validateInstall lock
  let (fileCount, selectedSize, weightSize) ← validateTotals lock
  let files ← validateFiles lock
  let normalized : ModelLock rt := {
    repoId, revision, modelType, architecture, configPath, licensePath, generationPath, doSample,
    temperature, topP, tokenizerPath, tokenizerConfigPath, tokenizerClass, indexPath, shardCount,
    shards, manifestMarker, files }
  checkInventory normalized fileCount selectedSize weightSize
  return normalized

/-- `load_lock`, on the content of the lock file. -/
def loadLock (rt : Runtime) (schema : Option Bytes) (content : Bytes) :
    Except String (ModelLock rt) :=
  match rt.load content with
  | none => .error "model lock is not valid JSON"
  | some lock => validateLock rt schema lock

/-! ### What a validated lock promises -/

theorem validateRelativePath_ok {value : Json} {label path : String}
    (h : validateRelativePath value label = .ok path) : path ≠ "" ∧ isSafePath path = true := by
  obtain ⟨path', hstring, h⟩ := except_bind_eq_ok.1 h
  obtain ⟨_, hsafe, h⟩ := except_bind_eq_ok.1 h
  cases h
  refine ⟨?_, by simpa using raiseIf_eq_ok.1 hsafe⟩
  cases value with
  | str s =>
    by_cases hs : s = ""
    · simp [requireString, hs] at hstring
    · simp only [requireString, hs, if_false, anyText, if_true, Except.ok.injEq] at hstring
      exact hstring ▸ hs
  | _ => cases hstring

theorem validateFileEntry_ok {value : Json} {index : Nat} {file : FileEntry}
    (h : validateFileEntry value index = .ok file) :
    file.path ≠ "" ∧ isSafePath file.path = true := by
  obtain ⟨entry, -, h⟩ := except_bind_eq_ok.1 h
  split at h
  · cases h
  · obtain ⟨_, -, h⟩ := except_bind_eq_ok.1 h
    obtain ⟨path, hpath, h⟩ := except_bind_eq_ok.1 h
    obtain ⟨size, -, h⟩ := except_bind_eq_ok.1 h
    obtain ⟨role, -, h⟩ := except_bind_eq_ok.1 h
    obtain ⟨_, -, h⟩ := except_bind_eq_ok.1 h
    obtain ⟨_, -, h⟩ := except_bind_eq_ok.1 h
    split at h
    · obtain ⟨digest, -, h⟩ := except_bind_eq_ok.1 h
      cases h
      exact validateRelativePath_ok hpath
    · obtain ⟨digest, -, h⟩ := except_bind_eq_ok.1 h
      cases h
      exact validateRelativePath_ok hpath

theorem validateFileEntries_ok {index : Nat} {values : List Json} {files : List FileEntry}
    (h : validateFileEntries index values = .ok files) :
    ∀ file ∈ files, file.path ≠ "" ∧ isSafePath file.path = true := by
  induction values generalizing index files with
  | nil =>
    cases h
    simp
  | cons value values ih =>
    obtain ⟨file, hfile, h⟩ := except_bind_eq_ok.1 h
    obtain ⟨files', hfiles, h⟩ := except_bind_eq_ok.1 h
    cases h
    rintro f (- | ⟨-, hf⟩)
    · exact validateFileEntry_ok hfile
    · exact ih hfiles f hf

theorem validateInstall_ok {lock : Json} {marker : String}
    (h : validateInstall lock = .ok marker) : marker = defaultMarker := by
  obtain ⟨_, -, h⟩ := except_bind_eq_ok.1 h
  obtain ⟨_, -, h⟩ := except_bind_eq_ok.1 h
  obtain ⟨_, -, h⟩ := except_bind_eq_ok.1 h
  obtain ⟨_, hmarker, h⟩ := except_bind_eq_ok.1 h
  cases h
  simp only [raiseIf_eq_ok, Bool.or_eq_false_iff, bne_eq_false_iff_eq] at hmarker
  exact hmarker.1

theorem sameSet_iff {a b : List String} : sameSet a b = true ↔ ∀ path, path ∈ a ↔ path ∈ b := by
  simp only [sameSet, Bool.and_eq_true, List.all_eq_true, List.contains_iff_mem]
  exact ⟨fun h path => ⟨h.1 path, h.2 path⟩, fun h => ⟨fun path => (h path).1, fun path => (h path).2⟩⟩

/-- **What a validated lock promises**: the standard marker, safe paths, and files for
everything its metadata names. -/
structure ModelLock.Promises {rt : Runtime} (lock : ModelLock rt) : Prop where
  marker : lock.manifestMarker = defaultMarker
  safe : ∀ file ∈ lock.files, file.path ≠ "" ∧ isSafePath file.path = true
  named : ∀ path, path ∈ lock.expectedRoles.map Prod.fst → path ∈ lock.files.map FileEntry.path

theorem checkInventory_ok {rt : Runtime} {lock : ModelLock rt} {a b c : Nat}
    (h : checkInventory lock a b c = .ok ()) :
    ∀ path, path ∈ lock.expectedRoles.map Prod.fst → path ∈ lock.files.map FileEntry.path := by
  obtain ⟨_, -, h⟩ := except_bind_eq_ok.1 h
  obtain ⟨_, hset, -⟩ := except_bind_eq_ok.1 h
  have hset : sameSet (lock.files.map FileEntry.path) (lock.expectedRoles.map Prod.fst) = true := by
    simpa using raiseIf_eq_ok.1 hset
  exact fun path => ((sameSet_iff.1 hset) path).2

theorem loadLock_ok {rt : Runtime} {schema : Option Bytes} {content : Bytes} {lock : ModelLock rt}
    (h : loadLock rt schema content = .ok lock) : lock.Promises := by
  rw [loadLock] at h
  split at h
  · cases h
  · obtain ⟨_, -, h⟩ := except_bind_eq_ok.1 h
    obtain ⟨_, -, h⟩ := except_bind_eq_ok.1 h
    obtain ⟨_, -, h⟩ := except_bind_eq_ok.1 h
    obtain ⟨_, -, h⟩ := except_bind_eq_ok.1 h
    obtain ⟨⟨repoId, revision, modelType, architecture, configPath⟩, -, h⟩ := except_bind_eq_ok.1 h
    obtain ⟨_, -, h⟩ := except_bind_eq_ok.1 h
    obtain ⟨licensePath, -, h⟩ := except_bind_eq_ok.1 h
    obtain ⟨⟨generationPath, doSample, temperature, topP⟩, -, h⟩ := except_bind_eq_ok.1 h
    obtain ⟨_, -, h⟩ := except_bind_eq_ok.1 h
    obtain ⟨⟨tokenizerPath, tokenizerConfigPath, tokenizerClass⟩, -, h⟩ := except_bind_eq_ok.1 h
    obtain ⟨⟨indexPath, shardCount, shards⟩, -, h⟩ := except_bind_eq_ok.1 h
    obtain ⟨marker, hmarker, h⟩ := except_bind_eq_ok.1 h
    obtain ⟨⟨fileCount, selectedSize, weightSize⟩, -, h⟩ := except_bind_eq_ok.1 h
    obtain ⟨files, hfiles, h⟩ := except_bind_eq_ok.1 h
    obtain ⟨_, hinventory, h⟩ := except_bind_eq_ok.1 h
    cases h
    refine ⟨validateInstall_ok hmarker, ?_, checkInventory_ok hinventory⟩
    rw [validateFiles] at hfiles
    split at hfiles
    · exact validateFileEntries_ok hfiles
    · cases hfiles

end Verify

end DgxSpark
