import DgxSpark.Lib.JsonOrder
import DgxSpark.Lib.JsonRoundTrip
import DgxSpark.Lib.Sha256
import DgxSpark.Model.Lock

/-!
# Verifying an installed model

`verify_model_root` of `scripts/model/verify.py`, over a file tree. The verifier walks to each
locked path component by component (`DgxSpark.Verify.safeJoin`), lists the whole tree once
(`DgxSpark.Verify.iterEntries`), and reads four metadata files.

What it accepts is stated without any of this in `DgxSpark.Verify.Verified`: what is found
under a path is `DgxSpark.Verify.Entry.resolve`, and the files of a tree are the paths under
which a file is found. The two agree: `DgxSpark.Verify.verifyModelRoot_iff`.
-/

namespace DgxSpark

namespace Verify

/-! ### File trees -/

/-- **A file tree.** -/
inductive Entry where
  | file (content : Bytes)
  | dir (entries : List (String × Entry))
  | link
  /-- a socket, a pipe, a device -/
  | special

mutual

/-- No directory has two entries of one name. -/
def Entry.Proper : Entry → Prop
  | .dir entries => (entries.map Prod.fst).Nodup ∧ ProperEntries entries
  | _ => True

/-- The same of all entries of a directory. -/
def ProperEntries : List (String × Entry) → Prop
  | [] => True
  | (_, entry) :: entries => entry.Proper ∧ ProperEntries entries

end

/-- The entry of a directory under a name. -/
def Entry.child? : Entry → String → Option Entry
  | .dir entries, name => entries.lookup name
  | _, _ => none

/-- What is found under a path, links not followed. -/
def Entry.resolve (entry : Entry) : List String → Option Entry
  | [] => some entry
  | name :: names =>
    match entry.child? name with
    | some entry => entry.resolve names
    | none => none

/-! ### The verifier -/

/-- `_safe_join`, on components: each must be there, and none may be a link. -/
def walk (label : String) (path : String) (entry : Entry) : List String → Except String Entry
  | [] => .ok entry
  | name :: names =>
    match entry.child? name with
    | none => .error (label ++ " is missing: " ++ path ++ "/" ++ name)
    | some .link => .error (label ++ " must not be a symlink: " ++ path ++ "/" ++ name)
    | some entry => walk label (path ++ "/" ++ name) entry names

/-- `_safe_join`. -/
def safeJoin (rootPath : String) (root : Entry) (relativePath label : String) :
    Except String Entry := do
  raiseIf (relativePath = "") (label ++ " must be a non-empty string")
  raiseIf (!isSafePath relativePath) (label ++ " is not a safe relative path")
  walk label rootPath root (components relativePath)

/-- The text in front of the content of a Git blob of a size. -/
def blobHeader (size : Nat) : Bytes :=
  Text.bytes ("blob " ++ toString size) ++ [0]

/-- `_verify_file`. -/
def verifyFile (rt : Runtime) (rootPath : String) (root : Entry) (file : FileEntry) :
    Except String Unit := do
  match ← safeJoin rootPath root file.path ("locked file " ++ file.path) with
  | .file content => do
    raiseIf (content.length != file.size)
      ("size mismatch for " ++ file.path ++ ": expected " ++ toString file.size ++ ", got " ++
        toString content.length)
    match file.hash with
    | .sha256 digest => raiseIf (rt.sha256 content != digest) ("SHA-256 mismatch for " ++ file.path)
    | .gitBlobSha1 digest =>
      raiseIf (rt.sha1 (blobHeader file.size ++ content) != digest)
        ("Git blob SHA-1 mismatch for " ++ file.path)
  | _ => .error ("locked file must be a regular file: " ++ file.path)

mutual

/-- The body of the loop of `_iter_install_files`, for one entry. -/
def iterEntry (path : String) (name : String) : Entry → Except String (List String)
  | .link => .error ("installed model must not contain symlinks: " ++ path)
  | .dir entries => do
    let nested ← iterEntries path entries
    raiseIf nested.isEmpty ("installed model contains an empty directory: " ++ path)
    return nested.map fun file => name ++ "/" ++ file
  | .file _ => .ok [name]
  | .special => .error ("installed model contains a non-regular entry: " ++ path)

/-- `_iter_install_files`, on the entries of a directory. -/
def iterEntries (path : String) : List (String × Entry) → Except String (List String)
  | [] => .ok []
  | (name, entry) :: entries => do
    let here ← iterEntry (path ++ "/" ++ name) name entry
    let others ← iterEntries path entries
    return here ++ others

end

/-- Text in universal newlines. -/
def universalNewlines : List Char → List Char
  | '\r' :: '\n' :: cs => '\n' :: universalNewlines cs
  | '\r' :: cs => '\n' :: universalNewlines cs
  | c :: cs => c :: universalNewlines cs
  | [] => []

/-- `read_text(encoding="ascii")`. -/
def readAscii (content : Bytes) : Option (List Char) :=
  if content.all fun b => b < 128 then
    some (universalNewlines (content.map fun b => Char.ofNat b.toNat))
  else none

/-- The text of a marker, without the one line break that may end it: the pattern and
`rstrip` in `_verify_marker`. -/
def markerDigest (marker : List Char) : Option String :=
  let digest := marker.take 64
  if digest.length = 64 ∧ digest.all Text.isHexLower ∧
      (marker.drop 64 = [] ∨ marker.drop 64 = ['\n']) then some (String.ofList digest)
  else none

/-- `_verify_marker`. -/
def verifyMarker (rt : Runtime) (rootPath : String) (root : Entry) (lockContent : Bytes)
    (markerName : String) : Except String Unit := do
  match ← safeJoin rootPath root markerName "manifest marker" with
  | .file content =>
    match readAscii content with
    | none => .error "manifest marker is not readable ASCII"
    | some marker =>
      match markerDigest marker with
      | none => .error "manifest marker must contain one lowercase SHA-256 digest"
      | some digest =>
        raiseIf (digest != rt.sha256 lockContent) "manifest marker does not match model.lock.json"
  | _ => .error "manifest marker must be a regular file"

/-- `_require_mapping(_read_json(_safe_join(…)))`. -/
def readObject (rt : Runtime) (rootPath : String) (root : Entry) (path label joinLabel : String) :
    Except String Json := do
  match ← safeJoin rootPath root path joinLabel with
  | .file content =>
    match rt.load content with
    | none => .error (label ++ " is not valid JSON: " ++ rootPath ++ "/" ++ path)
    | some value => requireMapping value label
  | _ => .error (label ++ " is not valid JSON: " ++ rootPath ++ "/" ++ path)

/-- The shard paths of a weight map, each checked. -/
def referencedShards : List (String × Json) → Except String (List String)
  | [] => .ok []
  | (_, value) :: members => do
    match value with
    | .str shard => do
      raiseIf (shard = "") "model.safetensors.index.json shard path must be a non-empty string"
      raiseIf (!isSafePath shard)
        "model.safetensors.index.json shard path is not a safe relative path"
      let shards ← referencedShards members
      return shard :: shards
    | _ => .error "model.safetensors.index.json weight_map must map names to paths"

/-- The checks of `config.json`. -/
def checkConfig {rt : Runtime} (lock : ModelLock rt) (config : Json) : Except String Unit := do
  raiseIf (config.get "model_type" != .str lock.modelType)
    "config.json model_type does not match model lock"
  match config.get "architectures" with
  | .arr architectures =>
    raiseIf (!architectures.contains (.str lock.architecture))
      "config.json architectures do not match model lock"
  | _ => .error "config.json architectures do not match model lock"

/-- The checks of `generation_config.json`. -/
def checkGeneration {rt : Runtime} (lock : ModelLock rt) (generation : Json) :
    Except String Unit := do
  raiseIf (generation.get "do_sample" != .bool lock.doSample)
    "generation_config.json do_sample does not match model lock"
  raiseIf (!rt.equals (generation.get "temperature") lock.temperature)
    "generation_config.json temperature does not match model lock"
  raiseIf (!rt.equals (generation.get "top_p") lock.topP)
    "generation_config.json top_p does not match model lock"

/-- The checks of `tokenizer_config.json`. -/
def checkTokenizerConfig {rt : Runtime} (lock : ModelLock rt) (config : Json) :
    Except String Unit := do
  raiseIf (config.get "tokenizer_class" != .str lock.tokenizerClass)
    "tokenizer_config.json tokenizer_class does not match model lock"
  raiseIf (config.hasKey "chat_template") "tokenizer_config.json contains a Jinja chat_template"

/-- The checks of `model.safetensors.index.json`. -/
def checkIndex {rt : Runtime} (lock : ModelLock rt) (index : Json) : Except String Unit := do
  match index.get "weight_map" with
  | .obj (member :: members) => do
    let referenced ← referencedShards (member :: members)
    raiseIf (!sameSet referenced lock.shards)
      ("index shard set does not match model lock (" ++ setDifference lock.shards referenced ++ ")")
  | _ => .error "model.safetensors.index.json has no weight_map"

/-- `_verify_cross_file_metadata`. -/
def verifyCrossFileMetadata {rt : Runtime} (rootPath : String) (root : Entry)
    (lock : ModelLock rt) : Except String Unit := do
  let config ← readObject rt rootPath root lock.configPath "config.json" "config file"
  checkConfig lock config
  let generation ← readObject rt rootPath root lock.generationPath "generation_config.json"
    "generation_config.json"
  checkGeneration lock generation
  let tokenizerConfig ← readObject rt rootPath root lock.tokenizerConfigPath
    "tokenizer_config.json" "tokenizer_config.json"
  checkTokenizerConfig lock tokenizerConfig
  let _ ← readObject rt rootPath root lock.tokenizerPath "tokenizer.json" "tokenizer.json"
  let index ← readObject rt rootPath root lock.indexPath "model.safetensors.index.json"
    "model.safetensors.index.json"
  checkIndex lock index

/-- `_verify_file` on every locked file. -/
def verifyFiles (rt : Runtime) (rootPath : String) (root : Entry) :
    List FileEntry → Except String Unit
  | [] => .ok ()
  | file :: files => do
    verifyFile rt rootPath root file
    verifyFiles rt rootPath root files

/-- What a successful verification reports. -/
structure Summary where
  repoId : String
  revision : String
  fileCount : Nat
  shardCount : Nat

/-- `verify_model_root`. The root may be missing. -/
def verifyModelRoot (rt : Runtime) (rootPath : String) (root : Option Entry)
    (schema : Option Bytes) (lockContent : Bytes) : Except String Summary :=
  match root with
  | none => .error ("installed model root is missing: " ++ rootPath)
  | some .link => .error ("installed model root must not be a symlink: " ++ rootPath)
  | some (.dir entries) => do
    let lock ← loadLock rt schema lockContent
    verifyMarker rt rootPath (.dir entries) lockContent lock.manifestMarker
    let expected := lock.files.map FileEntry.path ++ [lock.manifestMarker]
    let actual ← iterEntries rootPath entries
    raiseIf (!sameSet actual expected)
      ("installed model file set does not match lock (" ++ setDifference expected actual ++ ")")
    verifyFiles rt rootPath (.dir entries) lock.files
    verifyCrossFileMetadata rootPath (.dir entries) lock
    return ⟨lock.repoId, lock.revision, lock.files.length, lock.shardCount⟩
  | some _ => .error ("installed model root is not a directory: " ++ rootPath)

/-! ### What is accepted -/

/-- A file, or a directory with something in it. -/
def Entry.Admissible : Entry → Prop
  | .file _ => True
  | .dir entries => entries ≠ []
  | _ => False

/-- A content has the hash under which a file of a size is locked. -/
def FileHash.Matches (rt : Runtime) (size : Nat) (content : Bytes) : FileHash → Prop
  | .sha256 digest => rt.sha256 content = digest
  | .gitBlobSha1 digest => rt.sha1 (blobHeader size ++ content) = digest

/-- The object in the JSON file under a path. -/
def Entry.HasObject (rt : Runtime) (root : Entry) (path : String) (value : Json) : Prop :=
  ∃ content, root.resolve (components path) = some (.file content) ∧
    rt.load content = some value ∧ value.isMapping = true

/-- `config.json` agrees with the lock. -/
def AgreesConfig {rt : Runtime} (lock : ModelLock rt) (config : Json) : Prop :=
  config.get "model_type" = .str lock.modelType ∧
    ∃ architectures, config.get "architectures" = .arr architectures ∧
      .str lock.architecture ∈ architectures

/-- `generation_config.json` agrees with the lock. -/
def AgreesGeneration {rt : Runtime} (lock : ModelLock rt) (generation : Json) : Prop :=
  generation.get "do_sample" = .bool lock.doSample ∧
    rt.equals (generation.get "temperature") lock.temperature = true ∧
    rt.equals (generation.get "top_p") lock.topP = true

/-- `tokenizer_config.json` agrees with the lock. -/
def AgreesTokenizer {rt : Runtime} (lock : ModelLock rt) (config : Json) : Prop :=
  config.get "tokenizer_class" = .str lock.tokenizerClass ∧ config.hasKey "chat_template" = false

/-- The shards of the index are exactly the locked ones. -/
def AgreesIndex {rt : Runtime} (lock : ModelLock rt) (index : Json) : Prop :=
  ∃ weightMap, index.get "weight_map" = .obj weightMap ∧ weightMap ≠ [] ∧
    (∀ p ∈ weightMap, ∃ shard, p.2 = .str shard) ∧
    ∀ shard, (∃ p ∈ weightMap, p.2 = .str shard) ↔ shard ∈ lock.shards

/-- **A tree that agrees with a lock**, in terms of what is found under its paths. -/
structure Verified (rt : Runtime) (root : Entry) (lockContent : Bytes) (lock : ModelLock rt) :
    Prop where
  /-- no link, no special file and no empty directory anywhere below the root -/
  plain : ∀ names entry, names ≠ [] → root.resolve names = some entry → entry.Admissible
  /-- the files are the locked ones and the marker -/
  files : ∀ path, (∃ names content, root.resolve names = some (.file content) ∧
      path = String.intercalate "/" names) ↔
    path ∈ lock.files.map FileEntry.path ∨ path = lock.manifestMarker
  marker : ∃ content marker, root.resolve [lock.manifestMarker] = some (.file content) ∧
    readAscii content = some marker ∧ markerDigest marker = some (rt.sha256 lockContent)
  locked : ∀ file ∈ lock.files, ∃ content,
    root.resolve (components file.path) = some (.file content) ∧ content.length = file.size ∧
      file.hash.Matches rt file.size content
  config : ∃ value, root.HasObject rt lock.configPath value ∧ AgreesConfig lock value
  generation : ∃ value, root.HasObject rt lock.generationPath value ∧ AgreesGeneration lock value
  tokenizerConfig : ∃ value, root.HasObject rt lock.tokenizerConfigPath value ∧
    AgreesTokenizer lock value
  tokenizer : ∃ value, root.HasObject rt lock.tokenizerPath value
  index : ∃ value, root.HasObject rt lock.indexPath value ∧ AgreesIndex lock value

/-! ### Walking and listing -/

/-- **A walk ends at a file exactly where one is found.** -/
theorem walk_file_iff {label : String} (path : String) (entry : Entry) (names : List String)
    (content : Bytes) :
    walk label path entry names = .ok (.file content) ↔
      entry.resolve names = some (.file content) := by
  induction names generalizing path entry with
  | nil => simp [walk, Entry.resolve]
  | cons name names ih =>
    rw [walk, Entry.resolve]
    rcases entry.child? name with - | child
    · simp
    · cases child with
      | link =>
        -- nothing is found below a link, nor is a link a file
        cases names <;> simp [Entry.resolve, Entry.child?]
      | _ => exact ih _ _

theorem safeJoin_file_iff {rootPath label path : String} {root : Entry} {content : Bytes}
    (hne : path ≠ "") (hsafe : isSafePath path = true) :
    safeJoin rootPath root path label = .ok (.file content) ↔
      root.resolve (components path) = some (.file content) := by
  rw [← @walk_file_iff label rootPath, safeJoin]
  simp [raiseIf, hne, hsafe, bind, Except.bind]

theorem Entry.child?_dir {entries : List (String × Entry)} (name : String) :
    (Entry.dir entries).child? name = entries.lookup name := rfl

/-- What is found below a directory is found in one of its entries. -/
theorem resolve_dir_cons {entries : List (String × Entry)}
    (hnodup : (entries.map Prod.fst).Nodup) (name : String) (names : List String) (found : Entry) :
    (Entry.dir entries).resolve (name :: names) = some found ↔
      ∃ p ∈ entries, p.1 = name ∧ p.2.resolve names = some found := by
  rw [Entry.resolve, Entry.child?_dir]
  constructor
  · intro h
    rcases hlookup : entries.lookup name with - | entry
    · simp [hlookup] at h
    · rw [hlookup] at h
      exact ⟨(name, entry), (Json.lookup_eq_some_iff hnodup name entry).1 hlookup, rfl, h⟩
  · rintro ⟨⟨_, entry⟩, hmem, rfl, h⟩
    rw [(Json.lookup_eq_some_iff hnodup _ entry).2 hmem]
    exact h

theorem iterEntry_ne_nil {path name : String} {entry : Entry} {files : List String}
    (h : iterEntry path name entry = .ok files) : files ≠ [] := by
  cases entry with
  | file content =>
    cases h
    simp
  | dir entries =>
    rw [iterEntry] at h
    obtain ⟨nested, -, h⟩ := except_bind_eq_ok.1 h
    obtain ⟨_, hsome, h⟩ := except_bind_eq_ok.1 h
    cases h
    simpa using raiseIf_eq_ok.1 hsome
  | link => cases h
  | special => cases h

/-- A listing is empty only of an empty directory. -/
theorem iterEntries_eq_nil_iff {path : String} {entries : List (String × Entry)}
    {files : List String} (h : iterEntries path entries = .ok files) : files = [] ↔ entries = [] := by
  cases entries with
  | nil =>
    cases h
    simp
  | cons p entries =>
    obtain ⟨name, entry⟩ := p
    rw [iterEntries] at h
    obtain ⟨here, hhere, h⟩ := except_bind_eq_ok.1 h
    obtain ⟨others, -, h⟩ := except_bind_eq_ok.1 h
    cases h
    simp [iterEntry_ne_nil hhere]

mutual

/-- Listing an entry succeeds exactly where everything found is admissible. -/
theorem iterEntry_ok_iff (path name : String) : ∀ entry : Entry, entry.Proper →
    ((∃ files, iterEntry path name entry = .ok files) ↔
      ∀ names found, entry.resolve names = some found → found.Admissible)
  | .file content, _ => by
    simp only [iterEntry, Except.ok.injEq, exists_eq', true_iff]
    rintro (- | ⟨name, names⟩) found h
    · cases h
      trivial
    · simp [Entry.resolve, Entry.child?] at h
  | .link, _ => by
    simp only [iterEntry, reduceCtorEq, exists_false, false_iff, not_forall]
    exact ⟨[], .link, rfl, id⟩
  | .special, _ => by
    simp only [iterEntry, reduceCtorEq, exists_false, false_iff, not_forall]
    exact ⟨[], .special, rfl, id⟩
  | .dir entries, hproper => by
    have hentries := iterEntries_ok_iff path entries hproper.2
    constructor
    · rintro ⟨files, h⟩ names found hfound
      rw [iterEntry] at h
      obtain ⟨nested, hnested, h⟩ := except_bind_eq_ok.1 h
      obtain ⟨_, hsome, -⟩ := except_bind_eq_ok.1 h
      have hne : nested ≠ [] := by simpa using raiseIf_eq_ok.1 hsome
      rcases names with - | ⟨name, names⟩
      · cases hfound
        exact fun hnil => hne ((iterEntries_eq_nil_iff hnested).2 hnil)
      · obtain ⟨p, hp, -, hp'⟩ := (resolve_dir_cons hproper.1 name names found).1 hfound
        exact hentries.1 ⟨nested, hnested⟩ p hp names found hp'
    · intro h
      obtain ⟨nested, hnested⟩ := hentries.2 fun p hp names found hfound =>
        h (p.1 :: names) found ((resolve_dir_cons hproper.1 _ _ _).2 ⟨p, hp, rfl, hfound⟩)
      have hne : nested ≠ [] := fun hnil =>
        h [] _ rfl ((iterEntries_eq_nil_iff hnested).1 hnil)
      refine ⟨nested.map fun file => name ++ "/" ++ file, ?_⟩
      rw [iterEntry, hnested]
      simp [raiseIf, hne, bind, Except.bind, pure, Except.pure]

theorem iterEntries_ok_iff (path : String) : ∀ entries : List (String × Entry),
    ProperEntries entries →
    ((∃ files, iterEntries path entries = .ok files) ↔
      ∀ p ∈ entries, ∀ names found, p.2.resolve names = some found → found.Admissible)
  | [], _ => by simp [iterEntries]
  | (name, entry) :: entries, hproper => by
    have hentry := iterEntry_ok_iff (path ++ "/" ++ name) name entry hproper.1
    have hentries := iterEntries_ok_iff path entries hproper.2
    rw [List.forall_mem_cons, ← hentry, ← hentries, iterEntries]
    constructor
    · rintro ⟨files, h⟩
      obtain ⟨here, hhere, h⟩ := except_bind_eq_ok.1 h
      obtain ⟨others, hothers, -⟩ := except_bind_eq_ok.1 h
      exact ⟨⟨here, hhere⟩, others, hothers⟩
    · rintro ⟨⟨here, hhere⟩, others, hothers⟩
      exact ⟨here ++ others, by rw [hhere, hothers]; rfl⟩

end

mutual

/-- **The files of an entry are the paths under which a file is found.** -/
theorem mem_iterEntry (path name : String) : ∀ (entry : Entry) (files : List String),
    entry.Proper → iterEntry path name entry = .ok files → ∀ file,
    (file ∈ files ↔ ∃ names content, entry.resolve names = some (.file content) ∧
      file = String.intercalate "/" (name :: names))
  | .file content, files, _, h, file => by
    cases h
    constructor
    · rintro (- | ⟨-, h⟩)
      · exact ⟨[], content, rfl, by simp⟩
      · exact absurd h List.not_mem_nil
    · rintro ⟨- | ⟨name', names⟩, content', h, rfl⟩
      · simp
      · simp [Entry.resolve, Entry.child?] at h
  | .link, _, _, h, _ => by cases h
  | .special, _, _, h, _ => by cases h
  | .dir entries, files, hproper, h, file => by
    rw [iterEntry] at h
    obtain ⟨nested, hnested, h⟩ := except_bind_eq_ok.1 h
    obtain ⟨_, -, h⟩ := except_bind_eq_ok.1 h
    cases h
    have hmem := mem_iterEntries path entries nested hproper.2 hnested
    constructor
    · intro hfile
      obtain ⟨inner, hinner, rfl⟩ := List.mem_map.1 hfile
      obtain ⟨p, hp, names, content, hfound, rfl⟩ := (hmem inner).1 hinner
      refine ⟨p.1 :: names, content,
        (resolve_dir_cons hproper.1 _ _ _).2 ⟨p, hp, rfl, hfound⟩, ?_⟩
      rw [String.intercalate_cons_cons]
    · rintro ⟨- | ⟨name', names⟩, content, hfound, rfl⟩
      · simp [Entry.resolve] at hfound
      · obtain ⟨p, hp, rfl, hp'⟩ := (resolve_dir_cons hproper.1 _ _ _).1 hfound
        rw [String.intercalate_cons_cons]
        exact List.mem_map.2 ⟨_, (hmem _).2 ⟨p, hp, names, content, hp', rfl⟩, rfl⟩

theorem mem_iterEntries (path : String) : ∀ (entries : List (String × Entry))
    (files : List String), ProperEntries entries → iterEntries path entries = .ok files → ∀ file,
    (file ∈ files ↔ ∃ p ∈ entries, ∃ names content, p.2.resolve names = some (.file content) ∧
      file = String.intercalate "/" (p.1 :: names))
  | [], _, _, h, _ => by
    cases h
    simp
  | (name, entry) :: entries, files, hproper, h, file => by
    rw [iterEntries] at h
    obtain ⟨here, hhere, h⟩ := except_bind_eq_ok.1 h
    obtain ⟨others, hothers, h⟩ := except_bind_eq_ok.1 h
    cases h
    rw [List.mem_append, mem_iterEntry _ name entry here hproper.1 hhere file,
      mem_iterEntries path entries others hproper.2 hothers file]
    simp

end

/-! ### The checks of single files -/

section Checks

variable {rt : Runtime} {rootPath : String} {root : Entry} {lock : ModelLock rt}

theorem verifyFile_ok_iff {file : FileEntry} (hne : file.path ≠ "")
    (hsafe : isSafePath file.path = true) :
    verifyFile rt rootPath root file = .ok () ↔
      ∃ content, root.resolve (components file.path) = some (.file content) ∧
        content.length = file.size ∧ file.hash.Matches rt file.size content := by
  rw [verifyFile, except_bind_eq_ok]
  constructor
  · rintro ⟨entry, hjoin, h⟩
    cases entry with
    | file content =>
      obtain ⟨_, hsize, h⟩ := except_bind_eq_ok.1 h
      refine ⟨content, (safeJoin_file_iff hne hsafe).1 hjoin,
        by simpa using raiseIf_eq_ok.1 hsize, ?_⟩
      cases hhash : file.hash <;> rw [hhash] at h <;>
        simpa [FileHash.Matches] using raiseIf_eq_ok.1 h
    | _ => cases h
  · rintro ⟨content, hfound, hsize, hhash⟩
    refine ⟨_, (safeJoin_file_iff hne hsafe).2 hfound, except_bind_eq_ok.2 ⟨(), ?_, ?_⟩⟩
    · exact raiseIf_eq_ok.2 (by simpa using hsize)
    · cases hlocked : file.hash <;> rw [hlocked] at hhash <;>
        exact raiseIf_eq_ok.2 (by simpa [FileHash.Matches] using hhash)

theorem verifyFiles_ok_iff {files : List FileEntry} :
    verifyFiles rt rootPath root files = .ok () ↔
      ∀ file ∈ files, verifyFile rt rootPath root file = .ok () := by
  induction files with
  | nil => simp [verifyFiles]
  | cons file files ih =>
    rw [verifyFiles, except_bind_eq_ok, List.forall_mem_cons, ih]
    exact ⟨fun ⟨_, h, hrest⟩ => ⟨h, hrest⟩, fun ⟨h, hrest⟩ => ⟨(), h, hrest⟩⟩

theorem readObject_ok_iff {path label joinLabel : String} {value : Json} (hne : path ≠ "")
    (hsafe : isSafePath path = true) :
    readObject rt rootPath root path label joinLabel = .ok value ↔ root.HasObject rt path value := by
  rw [readObject, except_bind_eq_ok]
  constructor
  · rintro ⟨entry, hjoin, h⟩
    cases entry with
    | file content =>
      dsimp only at h
      split at h
      · cases h
      · rename_i loaded hload
        obtain ⟨_, hmapping, h⟩ := except_bind_eq_ok.1 h
        cases h
        exact ⟨content, (safeJoin_file_iff hne hsafe).1 hjoin, hload,
          by simpa using raiseIf_eq_ok.1 hmapping⟩
    | _ => cases h
  · rintro ⟨content, hfound, hload, hmapping⟩
    refine ⟨_, (safeJoin_file_iff hne hsafe).2 hfound, ?_⟩
    simp [hload, requireMapping, raiseIf, hmapping, bind, Except.bind, pure, Except.pure]

theorem checkConfig_ok_iff {config : Json} :
    checkConfig lock config = .ok () ↔ AgreesConfig lock config := by
  rw [checkConfig, except_bind_eq_ok, AgreesConfig]
  simp only [raiseIf_eq_ok, bne_eq_false_iff_eq, exists_const]
  refine and_congr_right fun _ => ?_
  cases config.get "architectures" with
  | arr architectures => simp [raiseIf_eq_ok]
  | _ => simp

theorem checkGeneration_ok_iff {generation : Json} :
    checkGeneration lock generation = .ok () ↔ AgreesGeneration lock generation := by
  simp [checkGeneration, except_bind_eq_ok, AgreesGeneration, raiseIf_eq_ok]

theorem checkTokenizerConfig_ok_iff {config : Json} :
    checkTokenizerConfig lock config = .ok () ↔ AgreesTokenizer lock config := by
  simp [checkTokenizerConfig, except_bind_eq_ok, AgreesTokenizer, raiseIf_eq_ok]

/-- The references of a weight map, when all of them are safe paths. -/
theorem referencedShards_ok_iff {members : List (String × Json)} {shards : List String} :
    referencedShards members = .ok shards ↔
      members.map Prod.snd = shards.map Json.str ∧
        ∀ shard ∈ shards, shard ≠ "" ∧ isSafePath shard = true := by
  induction members generalizing shards with
  | nil => cases shards <;> simp [referencedShards]
  | cons p members ih =>
    obtain ⟨name, value⟩ := p
    cases value with
    | str shard =>
      simp only [referencedShards, except_bind_eq_ok, raiseIf_eq_ok, ih]
      constructor
      · rintro ⟨_, hne, _, hsafe, rest, ⟨hrest, hall⟩, h⟩
        cases h
        refine ⟨by simp [hrest], List.forall_mem_cons.2 ⟨⟨?_, ?_⟩, hall⟩⟩
        · simpa using hne
        · simpa using hsafe
      · rintro ⟨hmap, hall⟩
        cases shards with
        | nil => simp at hmap
        | cons shard' rest =>
          simp only [List.map_cons, List.cons.injEq, Json.str.injEq] at hmap
          obtain ⟨rfl, hrest⟩ := hmap
          obtain ⟨⟨hne, hsafe⟩, hall⟩ := List.forall_mem_cons.1 hall
          exact ⟨(), by simpa using hne, (), by simpa using hsafe, rest, ⟨hrest, hall⟩, rfl⟩
    | _ => cases shards <;> simp [referencedShards]

/-- Texts in a weight map are a list of texts. -/
theorem exists_shards {members : List (String × Json)}
    (h : ∀ p ∈ members, ∃ shard, p.2 = .str shard) :
    ∃ shards : List String, members.map Prod.snd = shards.map Json.str := by
  induction members with
  | nil => exact ⟨[], rfl⟩
  | cons p members ih =>
    obtain ⟨⟨shard, hshard⟩, hrest⟩ := List.forall_mem_cons.1 h
    obtain ⟨shards, hshards⟩ := ih hrest
    exact ⟨shard :: shards, by rw [List.map_cons, List.map_cons, hshard, hshards]⟩

theorem mem_shards_iff {members : List (String × Json)} {shards : List String}
    (h : members.map Prod.snd = shards.map Json.str) (shard : String) :
    (∃ p ∈ members, p.2 = .str shard) ↔ shard ∈ shards := by
  have hmem : Json.str shard ∈ members.map Prod.snd ↔ shard ∈ shards := by
    rw [h]
    simp
  rw [← hmem, List.mem_map]

theorem checkIndex_ok_iff {index : Json}
    (hshards : ∀ shard ∈ lock.shards, shard ≠ "" ∧ isSafePath shard = true) :
    checkIndex lock index = .ok () ↔ AgreesIndex lock index := by
  rw [checkIndex]
  constructor
  · intro h
    split at h
    · rename_i member members hmap
      obtain ⟨referenced, hreferenced, h⟩ := except_bind_eq_ok.1 h
      have hset : sameSet referenced lock.shards = true := by simpa using raiseIf_eq_ok.1 h
      obtain ⟨hsame, -⟩ := referencedShards_ok_iff.1 hreferenced
      refine ⟨_, hmap, List.cons_ne_nil _ _, fun p hp => ?_, fun shard => ?_⟩
      · have hp' : p.2 ∈ (member :: members).map Prod.snd := List.mem_map_of_mem hp
        rw [hsame] at hp'
        obtain ⟨shard, -, hshard⟩ := List.mem_map.1 hp'
        exact ⟨shard, hshard.symm⟩
      · rw [mem_shards_iff hsame, sameSet_iff.1 hset]
    · cases h
  · rintro ⟨weightMap, hmap, hne, hstr, hset⟩
    obtain ⟨shards, hsame⟩ := exists_shards hstr
    have hmem : ∀ shard, shard ∈ shards ↔ shard ∈ lock.shards := fun shard => by
      rw [← mem_shards_iff hsame, hset]
    obtain ⟨member, members, rfl⟩ := List.exists_cons_of_ne_nil hne
    rw [hmap]
    exact except_bind_eq_ok.2 ⟨shards,
      referencedShards_ok_iff.2 ⟨hsame, fun shard hshard => hshards shard ((hmem shard).1 hshard)⟩,
      raiseIf_eq_ok.2 (by simpa using sameSet_iff.2 hmem)⟩

end Checks

/-! ### The result -/

section Result

variable {rt : Runtime} {lock : ModelLock rt}

/-- A path that the metadata of a lock names is a safe one. -/
theorem ModelLock.Promises.safe_of_named (h : lock.Promises) (path role : String)
    (hmem : (path, role) ∈ lock.expectedRoles) : path ≠ "" ∧ isSafePath path = true := by
  obtain ⟨file, hfile, rfl⟩ := List.mem_map.1 (h.named path (List.mem_map_of_mem hmem))
  exact h.safe file hfile

theorem isSafePath_defaultMarker : isSafePath defaultMarker = true := by decide +kernel

theorem components_defaultMarker : components defaultMarker = [defaultMarker] := by decide +kernel

theorem verifyMarker_ok_iff {rootPath : String} {root : Entry} {lockContent : Bytes}
    (h : lock.Promises) :
    verifyMarker rt rootPath root lockContent lock.manifestMarker = .ok () ↔
      ∃ content marker, root.resolve [lock.manifestMarker] = some (.file content) ∧
        readAscii content = some marker ∧ markerDigest marker = some (rt.sha256 lockContent) := by
  have hjoin : ∀ content,
      safeJoin rootPath root defaultMarker "manifest marker" = .ok (.file content) ↔
        root.resolve [defaultMarker] = some (.file content) := by
    intro content
    rw [safeJoin_file_iff (by decide) isSafePath_defaultMarker, components_defaultMarker]
  rw [verifyMarker, except_bind_eq_ok, h.marker]
  constructor
  · rintro ⟨entry, hentry, h⟩
    cases entry with
    | file content =>
      refine ⟨content, ?_⟩
      rcases hread : readAscii content with - | marker
      · simp [hread] at h
      · rcases hdigest : markerDigest marker with - | digest
        · simp [hread, hdigest] at h
        · refine ⟨marker, (hjoin content).1 hentry, rfl, ?_⟩
          simp only [hread, hdigest] at h
          rw [hdigest]
          simpa using raiseIf_eq_ok.1 h
    | _ => cases h
  · rintro ⟨content, marker, hfound, hread, hdigest⟩
    refine ⟨_, (hjoin content).2 hfound, ?_⟩
    simp [hread, hdigest, raiseIf]

theorem verifyCrossFileMetadata_ok_iff {rootPath : String} {root : Entry} (h : lock.Promises) :
    verifyCrossFileMetadata rootPath root lock = .ok () ↔
      (∃ value, root.HasObject rt lock.configPath value ∧ AgreesConfig lock value) ∧
        (∃ value, root.HasObject rt lock.generationPath value ∧ AgreesGeneration lock value) ∧
        (∃ value, root.HasObject rt lock.tokenizerConfigPath value ∧
          AgreesTokenizer lock value) ∧
        (∃ value, root.HasObject rt lock.tokenizerPath value) ∧
        ∃ value, root.HasObject rt lock.indexPath value ∧ AgreesIndex lock value := by
  obtain ⟨hc, hc'⟩ := h.safe_of_named lock.configPath "config"
    (by simp [ModelLock.expectedRoles])
  obtain ⟨hg, hg'⟩ := h.safe_of_named lock.generationPath "generation_config"
    (by simp [ModelLock.expectedRoles])
  obtain ⟨ht, ht'⟩ := h.safe_of_named lock.tokenizerPath "tokenizer"
    (by simp [ModelLock.expectedRoles])
  obtain ⟨hk, hk'⟩ := h.safe_of_named lock.tokenizerConfigPath "tokenizer_config"
    (by simp [ModelLock.expectedRoles])
  obtain ⟨hi, hi'⟩ := h.safe_of_named lock.indexPath "index"
    (by simp [ModelLock.expectedRoles])
  have hshards : ∀ shard ∈ lock.shards, shard ≠ "" ∧ isSafePath shard = true := fun shard hs =>
    h.safe_of_named shard "weight" (by simp [ModelLock.expectedRoles, hs])
  simp only [verifyCrossFileMetadata, except_bind_eq_ok, readObject_ok_iff hc hc',
    readObject_ok_iff hg hg', readObject_ok_iff ht ht', readObject_ok_iff hk hk',
    readObject_ok_iff hi hi', checkIndex_ok_iff hshards]
  constructor
  · rintro ⟨c, hc, _, hac, g, hg, _, hag, k, hk, _, hak, t, ht, i, hi, hai⟩
    exact ⟨⟨c, hc, checkConfig_ok_iff.1 hac⟩, ⟨g, hg, checkGeneration_ok_iff.1 hag⟩,
      ⟨k, hk, checkTokenizerConfig_ok_iff.1 hak⟩, ⟨t, ht⟩, i, hi, hai⟩
  · rintro ⟨⟨c, hc, hac⟩, ⟨g, hg, hag⟩, ⟨k, hk, hak⟩, ⟨t, ht⟩, i, hi, hai⟩
    exact ⟨c, hc, (), checkConfig_ok_iff.2 hac, g, hg, (), checkGeneration_ok_iff.2 hag, k, hk,
      (), checkTokenizerConfig_ok_iff.2 hak, t, ht, i, hi, hai⟩

/-- The listing of a directory, and the files that are found below it. -/
theorem iterEntries_iff {path : String} {entries : List (String × Entry)}
    (hproper : (Entry.dir entries).Proper) (expected : List String) :
    (∃ files, iterEntries path entries = .ok files ∧ sameSet files expected = true) ↔
      (∀ names found, names ≠ [] → (Entry.dir entries).resolve names = some found →
        found.Admissible) ∧
      ∀ file, (∃ names content, (Entry.dir entries).resolve names = some (.file content) ∧
        file = String.intercalate "/" names) ↔ file ∈ expected := by
  have hplain : (∀ names found, names ≠ [] → (Entry.dir entries).resolve names = some found →
      found.Admissible) ↔ ∃ files, iterEntries path entries = .ok files := by
    rw [iterEntries_ok_iff path entries hproper.2]
    constructor
    · intro h p hp names found hfound
      exact h (p.1 :: names) found (by simp)
        ((resolve_dir_cons hproper.1 _ _ _).2 ⟨p, hp, rfl, hfound⟩)
    · rintro h (- | ⟨name, names⟩) found hne hfound
      · exact absurd rfl hne
      · obtain ⟨p, hp, -, hp'⟩ := (resolve_dir_cons hproper.1 _ _ _).1 hfound
        exact h p hp names found hp'
  have hfiles : ∀ files, iterEntries path entries = .ok files → ∀ file, file ∈ files ↔
      ∃ names content, (Entry.dir entries).resolve names = some (.file content) ∧
        file = String.intercalate "/" names := by
    intro files hok file
    rw [mem_iterEntries path entries files hproper.2 hok file]
    constructor
    · rintro ⟨p, hp, names, content, hfound, rfl⟩
      exact ⟨p.1 :: names, content, (resolve_dir_cons hproper.1 _ _ _).2 ⟨p, hp, rfl, hfound⟩, rfl⟩
    · rintro ⟨- | ⟨name, names⟩, content, hfound, rfl⟩
      · simp [Entry.resolve] at hfound
      · obtain ⟨p, hp, rfl, hp'⟩ := (resolve_dir_cons hproper.1 _ _ _).1 hfound
        exact ⟨p, hp, names, content, hp', rfl⟩
  rw [hplain]
  constructor
  · rintro ⟨files, hok, hset⟩
    exact ⟨⟨files, hok⟩, fun file => by rw [← hfiles files hok, sameSet_iff.1 hset]⟩
  · rintro ⟨⟨files, hok⟩, hset⟩
    exact ⟨files, hok, sameSet_iff.2 fun file => by rw [hfiles files hok, hset]⟩

/-- **Verification accepts exactly the trees that agree with a valid lock.** -/
theorem verifyModelRoot_iff (rt : Runtime) (rootPath : String) (root : Option Entry)
    (schema : Option Bytes) (lockContent : Bytes)
    (hproper : ∀ entry, root = some entry → entry.Proper) :
    (∃ summary, verifyModelRoot rt rootPath root schema lockContent = .ok summary) ↔
      ∃ lock entries, loadLock rt schema lockContent = .ok lock ∧ root = some (.dir entries) ∧
        Verified rt (.dir entries) lockContent lock := by
  constructor
  · rintro ⟨summary, h⟩
    match root, hproper, h with
    | some (.dir entries), hproper, h =>
      obtain ⟨lock, hlock, h⟩ := except_bind_eq_ok.1 h
      have hpromises := loadLock_ok hlock
      obtain ⟨_, hmarker, h⟩ := except_bind_eq_ok.1 h
      obtain ⟨files, hiter, h⟩ := except_bind_eq_ok.1 h
      obtain ⟨_, hset, h⟩ := except_bind_eq_ok.1 h
      obtain ⟨_, hlocked, h⟩ := except_bind_eq_ok.1 h
      obtain ⟨_, hcross, -⟩ := except_bind_eq_ok.1 h
      -- the walk found plain files only, and their paths are those of the lock and the marker
      obtain ⟨hplain, hfiles⟩ := (iterEntries_iff (hproper _ rfl) _).1
        ⟨files, hiter, by simpa using raiseIf_eq_ok.1 hset⟩
      obtain ⟨hc, hg, hk, ht, hi⟩ := (verifyCrossFileMetadata_ok_iff hpromises).1 hcross
      refine ⟨lock, entries, hlock, rfl, hplain, fun path => ?_,
        (verifyMarker_ok_iff hpromises).1 hmarker, fun file hfile => ?_, hc, hg, hk, ht, hi⟩
      · rw [hfiles path]
        simp
      · obtain ⟨hne, hsafe⟩ := hpromises.safe file hfile
        exact (verifyFile_ok_iff hne hsafe).1 (verifyFiles_ok_iff.1 hlocked file hfile)
    | none, _, h | some .link, _, h | some .special, _, h | some (.file _), _, h => cases h
  · rintro ⟨lock, entries, hlock, rfl, hv⟩
    have hpromises := loadLock_ok hlock
    obtain ⟨files, hiter, hset⟩ := (@iterEntries_iff rootPath _ (hproper _ rfl)
      (lock.files.map FileEntry.path ++ [lock.manifestMarker])).2
      ⟨hv.plain, fun file => by rw [hv.files]; simp⟩
    refine ⟨_, except_bind_eq_ok.2 ⟨lock, hlock, except_bind_eq_ok.2 ⟨(),
      (verifyMarker_ok_iff hpromises).2 hv.marker, except_bind_eq_ok.2 ⟨files, hiter,
      except_bind_eq_ok.2 ⟨(), raiseIf_eq_ok.2 (by simpa using hset), except_bind_eq_ok.2 ⟨(),
      verifyFiles_ok_iff.2 fun file hfile => ?_, except_bind_eq_ok.2 ⟨(),
      (verifyCrossFileMetadata_ok_iff hpromises).2
        ⟨hv.config, hv.generation, hv.tokenizerConfig, hv.tokenizer, hv.index⟩, rfl⟩⟩⟩⟩⟩⟩⟩
    obtain ⟨hne, hsafe⟩ := hpromises.safe file hfile
    exact (verifyFile_ok_iff hne hsafe).2 (hv.locked file hfile)

end Result

/-! ### A small installation -/

/-- A file of an installation: its path, its role, its text, and the digest of it. -/
abbrev SmallFile : Type := String × String × String × String

/-- A file as it is locked. -/
def smallEntry : SmallFile → Json
  | (path, role, text, digest) => .obj [
    ("path", .str path),
    ("size", .int (Text.bytes text).length),
    ("role", .str role),
    ("sha256", .str digest)]

/-- The seven files of an installation. -/
def smallFiles : List SmallFile := [
  ("config.json", "config",
    "\x7b\"model_type\": \"type\", \"architectures\": [\"architecture\"]\x7d",
    "0f78ea30ec1945364ba5bf685befd0691da582c9fc46a7be14c465c36e35a3f1"),
  ("LICENSE", "license", "MIT License",
    "abb2896dc3c2a9402f901b88d5035cf0a83d5cf7c17e73642cdf562b0b9d3bc5"),
  ("generation_config.json", "generation_config",
    "\x7b\"do_sample\": true, \"temperature\": 1, \"top_p\": 1\x7d",
    "359acebf0d35258ae010b771c3292d8915637962ea4f679ffb6d66c95e87886f"),
  ("tokenizer.json", "tokenizer", "\x7b\"version\": \"1.0\"\x7d",
    "4e3043229142b64d998563bc543ce034e0a2251af5d404995e3afcb8ce8850df"),
  ("tokenizer_config.json", "tokenizer_config", "\x7b\"tokenizer_class\": \"class\"\x7d",
    "eb101b72b9866545c1fcb25f7cb32fbae529dc0939f0921e3be5028a262047bb"),
  ("index.json", "index", "\x7b\"weight_map\": \x7b\"layer\": \"weights/one.safetensors\"\x7d\x7d",
    "8a02bdc2cf1e44ba355d78944da7d5dcaf7eeb67c703c8faa7e9c9d0004afe48"),
  ("weights/one.safetensors", "weight", "weights",
    "9a129038d9a00aed0cf6a7ea059ca50a813449061ab87848cf1a13eafdf33b2c")]

/-- The lock over them. -/
def smallLock : Json := .obj [
  ("schema_version", .int 1),
  ("model", .obj [
    ("repo_id", .str "owner/model"),
    ("revision", .str (String.ofList (List.replicate 40 'a'))),
    ("library_name", .str "library"),
    ("model_type", .str "type"),
    ("architecture", .str "architecture"),
    ("config_path", .str "config.json")]),
  ("provenance", .obj [
    ("model_api", .str ("https://huggingface.co/api/models/owner/model/revision/" ++
      String.ofList (List.replicate 40 'a'))),
    ("tree_api", .str ("https://huggingface.co/api/models/owner/model/tree/" ++
      String.ofList (List.replicate 40 'a'))),
    ("metadata_observed_on", .str "2026-01-01")]),
  ("license", .obj [("spdx", .str "MIT"), ("file_path", .str "LICENSE")]),
  ("generation_config", .obj [
    ("path", .str "generation_config.json"),
    ("do_sample", .bool true),
    ("temperature", .int 1),
    ("top_p", .int 1)]),
  ("chat_template", .obj [("policy", .str "absent"), ("jinja", .bool false)]),
  ("tokenizer", .obj [
    ("tokenizer_path", .str "tokenizer.json"),
    ("config_path", .str "tokenizer_config.json"),
    ("tokenizer_class", .str "class")]),
  ("weights", .obj [
    ("format", .str "safetensors"),
    ("index_path", .str "index.json"),
    ("shard_count", .int 1),
    ("shards", .arr [.str "weights/one.safetensors"])]),
  ("install", .obj [
    ("manifest_marker", .str ".model-lock.sha256"),
    ("unexpected_files", .str "reject")]),
  ("totals", .obj [
    ("file_count", .int 7),
    ("selected_size_bytes", .int 222),
    ("weight_size_bytes", .int 7)]),
  ("files", .arr (smallFiles.map smallEntry))]

/-- The lock file; it is in ASCII. -/
def smallLockFile : Bytes :=
  (Json.print Json.compact 0 smallLock).map fun c => UInt8.ofNat c.toNat

/-- **A runtime for files in ASCII** whose mappings repeat no key, whose numbers are whole, and
none of which is locked under its Git blob. -/
def asciiRuntime : Runtime where
  load content :=
    if content.all fun b => b < 128 then
      Json.loads (String.ofList (content.map fun b => Char.ofNat b.toNat))
    else none
  sha256 content := String.ofList (Sha256.hash (content.map UInt8.toNat)).hex
  sha1 _ := ""
  isDecimal := Text.isDecimal
  Float := Int
  float value := value.toInt?
  positive x := 0 < x
  atMostOne x := x ≤ 1
  equals value x := value.pyEq (.int x)

/-- The content of one of the files. -/
def smallContent (path : String) : Bytes :=
  Text.bytes (((smallFiles.lookup path).map fun file => file.2.1).getD "")

/-- The installed files of the small lock. -/
def smallTree : Entry := .dir [
  (".model-lock.sha256", .file (Text.bytes
    "e364dceb714c52f96cb2ec5ddb2b05e0a26f89c66ea6afa2beedfd54e931a803\n")),
  ("LICENSE", .file (smallContent "LICENSE")),
  ("config.json", .file (smallContent "config.json")),
  ("generation_config.json", .file (smallContent "generation_config.json")),
  ("index.json", .file (smallContent "index.json")),
  ("tokenizer.json", .file (smallContent "tokenizer.json")),
  ("tokenizer_config.json", .file (smallContent "tokenizer_config.json")),
  ("weights", .dir [("one.safetensors", .file (smallContent "weights/one.safetensors"))])]

theorem smallTree_proper : smallTree.Proper := by
  simp only [smallTree, Entry.Proper, ProperEntries, List.map_cons, List.map_nil]
  decide +kernel

/-- What is read of a file in ASCII. -/
theorem asciiRuntime_load {content : Bytes} {cs : List Char}
    (hascii : content.all (fun b => b < 128) = true)
    (htext : content.map (fun b => Char.ofNat b.toNat) = cs) :
    asciiRuntime.load content = Json.loads (String.ofList cs) := by
  subst htext
  exact if_pos hascii

theorem wf_smallLock : Json.WF smallLock := by
  simp only [smallLock, smallFiles, smallEntry, List.map_cons, List.map_nil, Json.WF,
    Json.WFMembers, Json.WFItems, and_true, true_and]
  decide +kernel

theorem load_smallLockFile : asciiRuntime.load smallLockFile = some smallLock :=
  (asciiRuntime_load (by decide +kernel) (by decide +kernel)).trans
    (Json.loads_print Json.compact_blank wf_smallLock)

theorem verifyModelRoot_smallTree :
    (verifyModelRoot asciiRuntime "/model" (some smallTree) none smallLockFile).toOption.isSome =
      true := by
  have hload : loadLock asciiRuntime none smallLockFile =
      validateLock asciiRuntime none smallLock := by
    rw [loadLock, load_smallLockFile]
  rw [smallTree, verifyModelRoot, hload]
  decide +kernel

theorem verifyModelRoot_iff_smallTree :
    ∃ lock entries, loadLock asciiRuntime none smallLockFile = .ok lock ∧
      some smallTree = some (.dir entries) ∧
      Verified asciiRuntime (.dir entries) smallLockFile lock :=
  (verifyModelRoot_iff asciiRuntime "/model" (some smallTree) none smallLockFile
    fun _ h => Option.some.inj h ▸ smallTree_proper).1
    ⟨_, except_eq_ok_get verifyModelRoot_smallTree⟩

end Verify

end DgxSpark
