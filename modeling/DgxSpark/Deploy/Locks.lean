import DgxSpark.Lib.JsonSchema
import DgxSpark.Deploy.Contract

/-!
# Loading a deployment lock

`load_deployment_lock` of `locks.py` (`DgxSpark.loadDeploymentLock`) and the schema of the same
format, `config/deployment-lock.schema.json` (`DgxSpark.lockSchema`). The two were written
separately. Over the checks that both make (`DgxSpark.SharedLock`), each asks for more: the
loader wants every label to be there, also the optional ones, whose absence a later branch of
it allows for; the schema wants a digest in labels that the loader only wants filled in, and
no image beside the two roles.

`DgxSpark.lockLoader_agrees_iff` says exactly when the two agree, and that no lock survives the
removal of an optional label.
-/

namespace DgxSpark

/-! ### Patterns -/

/-- `_SHA256`. -/
def isSha256Digest (s : String) : Bool :=
  Text.fullMatch Text.isHexLower 64 s

/-- `_GIT_COMMIT`. -/
def isGitCommit (s : String) : Bool :=
  Text.fullMatch Text.isHexLower 40 s

/-- The characters of `sha256:` and a digest. -/
def isDigestChars (cs : List Char) : Bool :=
  cs.take 7 == "sha256:".toList && (cs.drop 7).length == 64 && (cs.drop 7).all Text.isHexLower

/-- `_IMAGE_ID`. -/
def isImageId (s : String) : Bool :=
  isDigestChars (Text.chars s)

/-- A letter, a digit, or one of five signs. -/
def isReferenceChar (c : Char) : Bool :=
  ('A' ≤ c && c ≤ 'Z') || ('a' ≤ c && c ≤ 'z') || ('0' ≤ c && c ≤ '9') ||
    "._:-/".toList.contains c

/-- `_IMAGE_REF`. -/
def isImageRef (s : String) : Bool :=
  match (Text.chars s).splitOn '@' with
  | [digest] => isDigestChars digest
  | [name, digest] => !name.isEmpty && name.all isReferenceChar && isDigestChars digest
  | _ => false

section Placeholders

-- `str.isalnum` of a character: the table that a word boundary rests on
variable (isAlnum : Char → Bool)

/-- A character of `\w`. -/
def isWordCharacter (c : Char) : Bool :=
  isAlnum c || c == '_'

/-- A word, in any case, after some character; its ends are word boundaries. -/
def hasWord (word : List Char) : Option Char → List Char → Bool
  | _, [] => false
  | previous, c :: cs =>
    (!(previous.any (isWordCharacter isAlnum)) && word.isPrefixOf ((c :: cs).map Char.toLower) &&
      !(((c :: cs).drop word.length).head?.any (isWordCharacter isAlnum))) || hasWord word (some c) cs

/-- `<[^>]+>`. -/
def hasAngle : List Char → Bool
  | [] => false
  | c :: cs =>
    (c == '<' && !(cs.takeWhile (· != '>')).isEmpty && cs.contains '>') || hasAngle cs

/-- The words that stand for a value. -/
def placeholderWords : List (List Char) :=
  ["replace".toList, "changeme".toList, "example".toList, "your_value".toList]

/-- `_PLACEHOLDER`. -/
def isPlaceholder (s : String) : Bool :=
  hasAngle (Text.chars s) ||
    placeholderWords.any fun word => hasWord isAlnum word none (Text.chars s)

end Placeholders

/-! ### The loader -/

/-- `_expect`, with the condition turned around. -/
def lockFail (condition : Bool) (message : String) : Except Exn Unit :=
  failWith .lock condition message

/-- `_mapping`. -/
def lockMapping (value : Json) (name : String) : Except Exn Json := do
  lockFail (!value.isMapping) (name ++ " must be an object")
  return value

/-- `_exact_keys`. -/
def exactKeys (value : Json) (expected : List String) (name : String) : Except Exn Unit := do
  let actual := Json.keys value.members
  let missing := Text.sorted (expected.filter fun key => !actual.contains key)
  let unknown := Text.sorted (actual.filter fun key => !expected.contains key)
  lockFail (!missing.isEmpty) (name ++ " is missing keys: " ++ String.intercalate ", " missing)
  lockFail (!unknown.isEmpty) (name ++ " has unknown keys: " ++ String.intercalate ", " unknown)

/-- `_content_sha256`. -/
def contentSha256 (value : Json) : String :=
  Sha256.hexDigest (Json.canonical (.obj (Json.eraseKey "lock_sha256" value.members)))

section Loader

variable (isAlnum : Char → Bool)

/-- One round of the loop of `_validate_labels`. -/
def validateLabel (labels : Json) (role : Role) (key : String) :
    Except Exn (List (String × String)) :=
  let name := "images." ++ role.text ++ ".labels." ++ key
  if !labels.hasKey key then
    if optionalImageLabels.contains key then .ok []
    else .error ⟨.lock, name ++ " must be non-empty"⟩
  else
    match labels.get key with
    | .str value =>
      if value = "" then .error ⟨.lock, name ++ " must be non-empty"⟩
      else if isPlaceholder isAlnum value then .error ⟨.lock, name ++ " contains a placeholder"⟩
      else .ok [(key, value)]
    | _ => .error ⟨.lock, name ++ " must be non-empty"⟩

/-- The loop of `_validate_labels`. -/
def validateLabelKeys (labels : Json) (role : Role) :
    List String → Except Exn (List (String × String))
  | [] => .ok []
  | key :: keys => do
    let here ← validateLabel isAlnum labels role key
    let others ← validateLabelKeys labels role keys
    return here ++ others

/-- The labels, in the order in which they are normalized. -/
def allowedImageLabels : List String := requiredImageLabels ++ optionalImageLabels

/-- The labels that are commits. -/
def commitLabels : List String :=
  ["org.opencontainers.image.revision", "com.dgx-spark.vllm.commit", "com.dgx-spark.b12x.commit"]

/-- `_validate_labels`. -/
def validateLabels (labels : Json) (role : Role) : Except Exn (List (String × String)) := do
  exactKeys labels allowedImageLabels ("images." ++ role.text ++ ".labels")
  let normalized ← validateLabelKeys isAlnum labels role allowedImageLabels
  lockFail (normalized.lookup "com.dgx-spark.architecture" != some "linux/arm64")
    ("images." ++ role.text ++ " architecture label must be linux/arm64")
  ["com.dgx-spark.image_lock_sha256", "com.dgx-spark.runtime-file-sha256"].forM fun key =>
    lockFail ((normalized.lookup key).any fun value => !isSha256Digest value)
      ("images." ++ role.text ++ ".labels." ++ key ++ " must be a sha256")
  commitLabels.forM fun key =>
    lockFail (!(normalized.lookup key).any isGitCommit)
      ("images." ++ role.text ++ ".labels." ++ key ++ " must be a full git commit")
  return normalized

/-- The namespace rule for the image of a role. -/
def namespaceRule (deployment : Deployment) (role : Role) (reference imageId : String) :
    Except Exn Unit :=
  let isCandidate := isCandidateRef reference
  if deployment.mode = .candidate then do
    lockFail (!isCandidate && !deployment.allowProductionImagesInCandidate)
      "candidate production image reuse requires explicit authorization"
    lockFail (!isCandidate && reference != imageId)
      ("candidate " ++ role.text ++
        " production image reference must equal its locked image ID")
  else
    lockFail isCandidate
      ("production images." ++ role.text ++ ".reference must not be candidate-namespaced")

/-- The body of the loop over the images: a normalized image. -/
def loadImage (deployment : Deployment) (images : Json) (role : Role) : Except Exn Json := do
  let name := "images." ++ role.text
  let image ← lockMapping (images.get role.text) name
  exactKeys image ["reference", "image_id", "labels"] name
  let reference := (image.get "reference").asStr?.getD ""
  let imageId := (image.get "image_id").asStr?.getD ""
  lockFail (!isImageRef reference) (name ++ ".reference must be immutable")
  lockFail (!isImageId imageId) (name ++ ".image_id must be an exact image ID")
  lockFail (reference != (deployment.settings role).imageRef)
    ("deployment " ++ role.text ++ " image reference does not match lock")
  namespaceRule deployment role reference imageId
  let labels ← lockMapping (image.get "labels") (name ++ ".labels")
  let normalized ← validateLabels isAlnum labels role
  return .obj [
    ("reference", .str reference),
    ("image_id", .str imageId),
    ("labels", .obj (normalized.map fun p => (p.1, .str p.2)))]

/-- The keys of a lock. -/
def lockKeys : List String :=
  ["schema_version", "status", "mode", "profile_id", "model_manifest_sha256", "images",
    "lock_sha256"]

/-- `load_deployment_lock`, after the file has been read. -/
def checkDeploymentLock (value : Json) (rawSha256 : String) (config : Config) :
    Except Exn Json := do
  exactKeys value lockKeys "deployment lock"
  let stamp := (value.get "lock_sha256").asStr?.getD ""
  lockFail (!isSha256Digest stamp) "deployment lock lock_sha256 must be lowercase sha256"
  lockFail (stamp != contentSha256 value)
    "deployment lock lock_sha256 does not match canonical lock content"
  lockFail (!(value.get "schema_version").pyEq (.int 1)) "deployment lock schema_version must be 1"
  lockFail (value.get "status" != .str "ready") "deployment lock status must be ready"
  lockFail (value.get "mode" != .str config.deployment.mode.text)
    "deployment lock mode does not match operator configuration"
  lockFail (value.get "profile_id" != .str config.profile.profileId)
    "deployment lock profile_id does not match profile"
  let model := (value.get "model_manifest_sha256").asStr?.getD ""
  lockFail (!isSha256Digest model) "deployment lock model_manifest_sha256 must be a sha256"
  lockFail (model != config.deployment.modelManifestSha256)
    "deployment lock model manifest does not match operator configuration"
  let images ← lockMapping (value.get "images") "images"
  let head ← loadImage isAlnum config.deployment images .head
  let worker ← loadImage isAlnum config.deployment images .worker
  return .obj (Json.setKey "raw_sha256" (.str rawSha256)
    (Json.setKey "lock_sha256" (.str stamp)
      (Json.setKey "images" (.obj [("head", head), ("worker", worker)]) value.members)))

/-- `load_deployment_lock`, on the content of the lock file. -/
def loadDeploymentLock (content : String) (config : Config) : Except Exn Json :=
  match Json.loads content with
  | some (.obj members) =>
    checkDeploymentLock isAlnum (.obj members) (Sha256.hexDigest content) config
  | some _ => .error ⟨.lock, "deployment lock must be a JSON object"⟩
  | none => .error ⟨.lock, "cannot read deployment lock"⟩

end Loader

/-! ### The schema -/

/-- `$defs/sha256`. -/
def sha256Schema : Schema := .text isSha256Digest

/-- `$defs/commit`. -/
def commitSchema : Schema := .text isGitCommit

/-- The labels of `$defs/roleImage`. -/
def labelsSchema : Schema := .closed requiredImageLabels [
  ("org.opencontainers.image.revision", commitSchema),
  ("com.dgx-spark.architecture", .const (.str "linux/arm64")),
  ("com.dgx-spark.profile_sha256", sha256Schema),
  ("com.dgx-spark.service_contract_sha256", sha256Schema),
  ("com.dgx-spark.runtime-file-sha256", sha256Schema),
  ("com.dgx-spark.image_lock_sha256", sha256Schema),
  ("com.dgx-spark.vllm.commit", commitSchema),
  ("com.dgx-spark.b12x.commit", commitSchema)]

/-- `$defs/roleImage`. -/
def roleImageSchema : Schema := .closed ["reference", "image_id", "labels"] [
  ("reference", .text isImageRef),
  ("image_id", .text isImageId),
  ("labels", labelsSchema)]

/-- The profiles that the schema knows. -/
def lockProfiles : List String := ["dsv4-native432-b12x-tp2", "dsv4-native432-b12x-tp2-seq10"]

/-- `config/deployment-lock.schema.json`. -/
def lockSchema : Schema := .closed lockKeys [
  ("schema_version", .const (.int 1)),
  ("status", .const (.str "ready")),
  ("mode", .enum [.str "production", .str "candidate"]),
  ("profile_id", .enum (lockProfiles.map .str)),
  ("model_manifest_sha256", sha256Schema),
  ("lock_sha256", sha256Schema),
  ("images", .closed ["head", "worker"] [("head", roleImageSchema), ("worker", roleImageSchema)])]

/-! ### Texts without placeholders -/

/-- A word is found only where each of its letters is. -/
theorem exists_of_hasWord {isAlnum : Char → Bool} {word : List Char} {previous : Option Char}
    {cs : List Char} (h : hasWord isAlnum word previous cs = true) :
    ∀ w ∈ word, ∃ c ∈ cs, c.toLower = w := by
  induction cs generalizing previous with
  | nil => exact absurd h (by simp [hasWord])
  | cons c cs ih =>
    rw [hasWord, Bool.or_eq_true] at h
    rcases h with h | h
    · simp only [Bool.and_eq_true] at h
      intro w hw
      have hmem := (List.isPrefixOf_iff_prefix.1 h.1.2).subset hw
      obtain ⟨d, hd, rfl⟩ := List.mem_map.1 hmem
      exact ⟨d, hd, rfl⟩
    · intro w hw
      obtain ⟨d, hd, hdw⟩ := ih h w hw
      exact ⟨d, List.mem_cons_of_mem _ hd, hdw⟩

theorem mem_of_hasAngle {cs : List Char} (h : hasAngle cs = true) : '<' ∈ cs := by
  induction cs with
  | nil => exact absurd h (by simp [hasAngle])
  | cons c cs ih =>
    rw [hasAngle, Bool.or_eq_true] at h
    rcases h with h | h
    · simp only [Bool.and_eq_true, beq_iff_eq] at h
      simp [h.1.1]
    · exact List.mem_cons_of_mem _ (ih h)

/-- A text without the letter `p` and one letter each of two other words, and without a
bracket, has no placeholder. -/
theorem not_placeholder {isAlnum : Char → Bool} {s : String} (hangle : '<' ∉ s.toList)
    (hp : ∀ c ∈ s.toList, c.toLower ≠ 'p') (hg : ∀ c ∈ s.toList, c.toLower ≠ 'g')
    (hy : ∀ c ∈ s.toList, c.toLower ≠ 'y') : isPlaceholder isAlnum s = false := by
  have hno : ∀ word ∈ placeholderWords, hasWord isAlnum word none s.toList = false := by
    intro word hword
    by_contra h
    have hall := exists_of_hasWord (by simpa using h)
    simp only [placeholderWords, List.mem_cons, List.not_mem_nil, or_false] at hword
    rcases hword with rfl | rfl | rfl | rfl
    · obtain ⟨c, hc, hcw⟩ := hall 'p' (by decide)
      exact hp c hc hcw
    · obtain ⟨c, hc, hcw⟩ := hall 'g' (by decide)
      exact hg c hc hcw
    · obtain ⟨c, hc, hcw⟩ := hall 'p' (by decide)
      exact hp c hc hcw
    · obtain ⟨c, hc, hcw⟩ := hall 'y' (by decide)
      exact hy c hc hcw
  rw [isPlaceholder, Bool.or_eq_false_iff, Text.chars_eq]
  refine ⟨Bool.eq_false_iff.2 fun h => hangle (mem_of_hasAngle h), ?_⟩
  simpa using hno

theorem toLower_of_isHexLower {c : Char} (h : Text.isHexLower c = true) :
    c ≠ '<' ∧ c.toLower ≠ 'p' ∧ c.toLower ≠ 'g' ∧ c.toLower ≠ 'y' := by
  have hmem : c ∈ "0123456789abcdef".toList := by
    have hc : c = Char.ofNat c.toNat := (Char.ofNat_toNat c).symm
    simp only [Text.isHexLower, Bool.or_eq_true, Bool.and_eq_true, decide_eq_true_eq,
      Char.le_def, UInt32.le_iff_toNat_le] at h
    have hrange : 48 ≤ c.toNat ∧ c.toNat ≤ 57 ∨ 97 ≤ c.toNat ∧ c.toNat ≤ 102 := h
    rw [hc]
    generalize c.toNat = n at hrange
    rcases hrange with ⟨h₁, h₂⟩ | ⟨h₁, h₂⟩ <;> interval_cases n <;> decide
  revert hmem
  have hall : "0123456789abcdef".toList.Forall fun c =>
      c ≠ '<' ∧ c.toLower ≠ 'p' ∧ c.toLower ≠ 'g' ∧ c.toLower ≠ 'y' := by decide
  exact List.forall_iff_forall_mem.1 hall c

/-- A label that `_validate_labels` lets through. -/
def Filled (isAlnum : Char → Bool) (j : Json) : Prop :=
  ∃ s, j = .str s ∧ s ≠ "" ∧ isPlaceholder isAlnum s = false

theorem filled_of_fullMatch {isAlnum : Char → Bool} {n : Nat} {s : String} (hn : n ≠ 0)
    (h : Text.fullMatch Text.isHexLower n s = true) : Filled isAlnum (.str s) := by
  simp only [Text.fullMatch, Text.chars_eq, Bool.and_eq_true, beq_iff_eq, List.all_eq_true] at h
  refine ⟨s, rfl, ?_, not_placeholder (fun hm => ?_) (fun c hc => ?_) (fun c hc => ?_)
    fun c hc => ?_⟩
  · rintro rfl
    exact hn h.1.symm
  · exact (toLower_of_isHexLower (h.2 _ hm)).1 rfl
  · exact (toLower_of_isHexLower (h.2 c hc)).2.1
  · exact (toLower_of_isHexLower (h.2 c hc)).2.2.1
  · exact (toLower_of_isHexLower (h.2 c hc)).2.2.2

theorem filled_architecture (isAlnum : Char → Bool) : Filled isAlnum (.str "linux/arm64") :=
  ⟨_, rfl, by decide, not_placeholder (by decide) (List.forall_iff_forall_mem.1 (by decide))
    (List.forall_iff_forall_mem.1 (by decide)) (List.forall_iff_forall_mem.1 (by decide))⟩

/-! ### What the loader accepts -/

theorem lockFail_ok {condition : Bool} {message : String} {u : Unit} :
    lockFail condition message = .ok u ↔ condition = false :=
  failWith_eq_ok

theorem sorted_isEmpty (xs : List String) : (Text.sorted xs).isEmpty = xs.isEmpty := by
  let _ := Text.decidableLe
  have hperm := List.perm_insertionSort (· ≤ ·) xs
  have hlength : (Text.sorted xs).length = xs.length := hperm.length_eq
  rw [Bool.eq_iff_iff, List.isEmpty_iff_length_eq_zero, List.isEmpty_iff_length_eq_zero, hlength]

theorem exactKeys_ok_iff {value : Json} {expected : List String} {name : String} :
    exactKeys value expected name = .ok () ↔
      (∀ key ∈ expected, value.hasKey key = true) ∧
        ∀ key ∈ Json.keys value.members, key ∈ expected := by
  simp only [exactKeys, except_bind_eq_ok, lockFail_ok, sorted_isEmpty, exists_const]
  refine and_congr ?_ ?_
  · simp only [Bool.not_eq_false', List.isEmpty_iff, List.filter_eq_nil_iff, Json.hasKey_iff]
    simp
  · simp only [Bool.not_eq_false', List.isEmpty_iff, List.filter_eq_nil_iff]
    simp

/-- The text of a label. -/
def labelText (labels : Json) (key : String) : String :=
  (labels.get key).asStr?.getD ""

theorem validateLabel_ok_iff {isAlnum : Char → Bool} {labels : Json} {role : Role} {key : String}
    (hkey : labels.hasKey key = true) {normalized : List (String × String)} :
    validateLabel isAlnum labels role key = .ok normalized ↔
      Filled isAlnum (labels.get key) ∧ normalized = [(key, labelText labels key)] := by
  rw [validateLabel, hkey, labelText]
  simp only [Bool.not_true, Bool.false_eq_true, if_false]
  cases hget : labels.get key with
  | str s =>
    by_cases hs : s = ""
    · simp [hs, Filled]
    · cases hp : isPlaceholder isAlnum s with
      | true => simp [hs, hp, Filled]
      | false =>
        simp only [hs, hp, if_false, Bool.false_eq_true, Except.ok.injEq, Json.asStr?,
          Option.getD_some]
        exact ⟨fun h => ⟨⟨s, rfl, hs, hp⟩, h.symm⟩, fun h => h.2.symm⟩
  | _ => simp [Filled]

theorem validateLabelKeys_ok_iff {isAlnum : Char → Bool} {labels : Json} {role : Role}
    {keys : List String} (hkeys : ∀ key ∈ keys, labels.hasKey key = true)
    {normalized : List (String × String)} :
    validateLabelKeys isAlnum labels role keys = .ok normalized ↔
      (∀ key ∈ keys, Filled isAlnum (labels.get key)) ∧
        normalized = keys.map fun key => (key, labelText labels key) := by
  induction keys generalizing normalized with
  | nil => simp [validateLabelKeys, eq_comm]
  | cons key keys ih =>
    obtain ⟨hkey, hkeys⟩ := List.forall_mem_cons.1 hkeys
    rw [validateLabelKeys, List.forall_mem_cons, List.map_cons]
    constructor
    · intro h
      obtain ⟨here, hhere, h⟩ := except_bind_eq_ok.1 h
      obtain ⟨others, hothers, h⟩ := except_bind_eq_ok.1 h
      obtain ⟨hfilled, rfl⟩ := (validateLabel_ok_iff hkey).1 hhere
      obtain ⟨hrest, rfl⟩ := (ih hkeys).1 hothers
      exact ⟨⟨hfilled, hrest⟩, (Except.ok.inj h).symm⟩
    · rintro ⟨⟨hfilled, hrest⟩, rfl⟩
      exact except_bind_eq_ok.2 ⟨_, (validateLabel_ok_iff hkey).2 ⟨hfilled, rfl⟩,
        except_bind_eq_ok.2 ⟨_, (ih hkeys).2 ⟨hrest, rfl⟩, rfl⟩⟩

theorem lookup_labelText (labels : Json) {keys : List String} {key : String} (h : key ∈ keys) :
    (keys.map fun key => (key, labelText labels key)).lookup key = some (labelText labels key) := by
  induction keys with
  | nil => exact absurd h List.not_mem_nil
  | cons key' keys ih =>
    by_cases hk : key = key'
    · subst hk
      simp
    · have hb : (key == key') = false := by simpa using hk
      rw [List.map_cons, List.lookup_cons, hb]
      exact ih ((List.mem_cons.1 h).resolve_left hk)

/-- The text of a filled label is the label. -/
theorem labelText_eq_iff {isAlnum : Char → Bool} {labels : Json} {key : String}
    (h : Filled isAlnum (labels.get key)) (s : String) :
    labelText labels key = s ↔ labels.get key = .str s := by
  obtain ⟨t, ht, -⟩ := h
  simp [labelText, ht, Json.asStr?]

theorem labelText_pattern_iff {isAlnum : Char → Bool} {labels : Json} {key : String}
    (h : Filled isAlnum (labels.get key)) (pattern : String → Bool) :
    pattern (labelText labels key) = true ↔ ∃ s, labels.get key = .str s ∧ pattern s = true := by
  obtain ⟨t, ht, -⟩ := h
  simp [labelText, ht, Json.asStr?]

/-- **What both sides ask of labels.** -/
structure SharedLabels (labels : Json) : Prop where
  mapping : labels.isMapping = true
  required : ∀ key ∈ requiredImageLabels, labels.hasKey key = true
  known : ∀ key ∈ Json.keys labels.members, key ∈ allowedImageLabels
  architecture : labels.get "com.dgx-spark.architecture" = .str "linux/arm64"
  runtimeFile : ∃ s, labels.get "com.dgx-spark.runtime-file-sha256" = .str s ∧
    isSha256Digest s = true
  imageLock : ∀ value, labels.find? "com.dgx-spark.image_lock_sha256" = some value →
    ∃ s, value = .str s ∧ isSha256Digest s = true
  commits : ∀ key ∈ commitLabels, ∃ s, labels.get key = .str s ∧ isGitCommit s = true

/-- The labels of which the loader only wants that they are filled in. -/
def softLabels : List String :=
  ["com.dgx-spark.profile_sha256", "com.dgx-spark.service_contract_sha256"]

/-- **What only the loader asks of labels**: that also the optional ones are there. -/
structure LoaderLabels (isAlnum : Char → Bool) (labels : Json) : Prop where
  optional : ∀ key ∈ optionalImageLabels, labels.hasKey key = true
  soft : ∀ key ∈ softLabels, Filled isAlnum (labels.get key)

/-- **What only the schema asks of labels**: digests. -/
def SchemaLabels (labels : Json) : Prop :=
  ∀ key ∈ softLabels, ∀ value, labels.find? key = some value →
    ∃ s, value = .str s ∧ isSha256Digest s = true

theorem get_of_find? {j value : Json} {key : String} (h : j.find? key = some value) :
    j.get key = value := by
  rw [Json.get, h]
  rfl

theorem find?_of_hasKey {j : Json} {key : String} (h : j.hasKey key = true) :
    j.find? key = some (j.get key) := by
  rw [Json.hasKey, Option.isSome_iff_exists] at h
  obtain ⟨value, hvalue⟩ := h
  rw [get_of_find? hvalue, hvalue]

theorem forM_ok_iff {α : Type} {xs : List α} {f : α → Except Exn Unit} :
    xs.forM f = .ok () ↔ ∀ x ∈ xs, f x = .ok () := by
  induction xs with
  | nil => simp [List.forM, pure, Except.pure]
  | cons x xs ih =>
    change (f x >>= fun _ => xs.forM f) = _ ↔ _
    rw [except_bind_eq_ok, List.forall_mem_cons]
    exact ⟨fun ⟨_, h, hrest⟩ => ⟨h, ih.1 hrest⟩, fun ⟨h, hrest⟩ => ⟨(), h, ih.2 hrest⟩⟩

/-- **Labels that the loader accepts.** -/
theorem validateLabels_ok_iff {isAlnum : Char → Bool} {labels : Json} {role : Role}
    (hmapping : labels.isMapping = true) :
    (∃ normalized, validateLabels isAlnum labels role = .ok normalized) ↔
      SharedLabels labels ∧ LoaderLabels isAlnum labels := by
  constructor
  · rintro ⟨normalized, h⟩
    obtain ⟨_, hexact, h⟩ := except_bind_eq_ok.1 h
    obtain ⟨hall, hknown⟩ := exactKeys_ok_iff.1 hexact
    obtain ⟨normalized', hkeys, h⟩ := except_bind_eq_ok.1 h
    obtain ⟨hfilled, rfl⟩ := (validateLabelKeys_ok_iff hall).1 hkeys
    obtain ⟨_, harch, h⟩ := except_bind_eq_ok.1 h
    obtain ⟨_, hsha, h⟩ := except_bind_eq_ok.1 h
    obtain ⟨_, hcommits, -⟩ := except_bind_eq_ok.1 h
    rw [lockFail_ok, lookup_labelText labels (by decide), bne_eq_false_iff_eq] at harch
    have hdigest : ∀ key ∈ ["com.dgx-spark.image_lock_sha256", "com.dgx-spark.runtime-file-sha256"],
        ∃ s, labels.get key = .str s ∧ isSha256Digest s = true := by
      intro key hkey
      have hmem : key ∈ allowedImageLabels := by
        revert key
        decide
      have := lockFail_ok.1 (forM_ok_iff.1 hsha key hkey)
      rw [lookup_labelText labels hmem] at this
      exact (labelText_pattern_iff (hfilled key hmem) _).1 (by simpa using this)
    refine ⟨⟨hmapping, fun key hkey => hall key (List.mem_append_left _ hkey), hknown,
      (labelText_eq_iff (hfilled _ (by decide)) _).1 (Option.some.inj harch),
      hdigest _ (by simp), fun value hvalue => ?_, fun key hkey => ?_⟩,
      fun key hkey => hall key (List.mem_append_right _ hkey), fun key hkey => hfilled key ?_⟩
    · rw [← get_of_find? hvalue]
      exact hdigest _ (by simp)
    · have hmem : key ∈ allowedImageLabels := by
        revert key
        decide
      have := lockFail_ok.1 (forM_ok_iff.1 hcommits key hkey)
      rw [lookup_labelText labels hmem] at this
      exact (labelText_pattern_iff (hfilled key hmem) _).1 (by simpa using this)
    · revert key
      decide
  · rintro ⟨hs, hl⟩
    have hall : ∀ key ∈ allowedImageLabels, labels.hasKey key = true := by
      intro key hkey
      rcases List.mem_append.1 hkey with hkey | hkey
      · exact hs.required key hkey
      · exact hl.optional key hkey
    have hlock : ∃ s, labels.get "com.dgx-spark.image_lock_sha256" = .str s ∧
        isSha256Digest s = true :=
      hs.imageLock _ (find?_of_hasKey (hl.optional _ (by decide)))
    have hfilled : ∀ key ∈ allowedImageLabels, Filled isAlnum (labels.get key) := by
      have hcommit : ∀ key ∈ commitLabels, Filled isAlnum (labels.get key) := by
        intro key hkey
        obtain ⟨s, hget, hcommit⟩ := hs.commits key hkey
        rw [hget]
        exact filled_of_fullMatch (by decide) hcommit
      obtain ⟨r, hr, hr'⟩ := hs.runtimeFile
      obtain ⟨l, hl', hl''⟩ := hlock
      simp only [allowedImageLabels, requiredImageLabels, optionalImageLabels, List.cons_append,
        List.nil_append, List.forall_mem_cons]
      refine ⟨hcommit _ (by decide), ?_, hcommit _ (by decide),
        hcommit _ (by decide), ?_, hl.soft _ (by decide),
        hl.soft _ (by decide), ?_, by simp⟩
      · rw [hs.architecture]
        exact filled_architecture isAlnum
      · rw [hr]
        exact filled_of_fullMatch (by decide) hr'
      · rw [hl']
        exact filled_of_fullMatch (by decide) hl''
    refine ⟨_, except_bind_eq_ok.2 ⟨(), exactKeys_ok_iff.2 ⟨hall, hs.known⟩,
      except_bind_eq_ok.2 ⟨_, (validateLabelKeys_ok_iff hall).2 ⟨hfilled, rfl⟩,
      except_bind_eq_ok.2 ⟨(), lockFail_ok.2 ?_, except_bind_eq_ok.2 ⟨(), forM_ok_iff.2 ?_,
      except_bind_eq_ok.2 ⟨(), forM_ok_iff.2 ?_, rfl⟩⟩⟩⟩⟩⟩
    · rw [lookup_labelText labels (by decide), bne_eq_false_iff_eq,
        (labelText_eq_iff (hfilled _ (by decide)) _).2 hs.architecture]
    · intro key hkey
      have hmem : key ∈ allowedImageLabels := by
        revert key
        decide
      have hdigest : ∃ s, labels.get key = .str s ∧ isSha256Digest s = true := by
        simp only [List.mem_cons, List.not_mem_nil, or_false] at hkey
        rcases hkey with rfl | rfl
        · exact hlock
        · exact hs.runtimeFile
      rw [lockFail_ok, lookup_labelText labels hmem]
      simpa using (labelText_pattern_iff (hfilled key hmem) _).2 hdigest
    · intro key hkey
      have hmem : key ∈ allowedImageLabels := by
        revert key
        decide
      rw [lockFail_ok, lookup_labelText labels hmem]
      simpa using (labelText_pattern_iff (hfilled key hmem) _).2 (hs.commits key hkey)

/-! ### What the loader and the schema accept -/

/-- The keys of an image. -/
def imageKeys : List String := ["reference", "image_id", "labels"]

/-- **What both sides ask of an image.** -/
structure SharedImage (image : Json) : Prop where
  mapping : image.isMapping = true
  required : ∀ key ∈ imageKeys, image.hasKey key = true
  known : ∀ key ∈ Json.keys image.members, key ∈ imageKeys
  reference : ∃ s, image.get "reference" = .str s ∧ isImageRef s = true
  imageId : ∃ s, image.get "image_id" = .str s ∧ isImageId s = true
  labels : SharedLabels (image.get "labels")

/-- The image of a role in a lock. -/
def roleImage (value : Json) (role : Role) : Json :=
  (value.get "images").get role.text

/-- The labels of a role in a lock. -/
def roleLabels (value : Json) (role : Role) : Json :=
  (roleImage value role).get "labels"

/-- **What both sides ask of a lock.** -/
structure SharedLock (value : Json) : Prop where
  required : ∀ key ∈ lockKeys, value.hasKey key = true
  known : ∀ key ∈ Json.keys value.members, key ∈ lockKeys
  schemaVersion : (value.get "schema_version").pyEq (.int 1) = true
  status : value.get "status" = .str "ready"
  images : (value.get "images").isMapping = true
  image : ∀ role, SharedImage (roleImage value role)

/-- **What only the loader asks of a lock.** -/
def LoaderOnly (isAlnum : Char → Bool) (value : Json) : Prop :=
  ∀ role, LoaderLabels isAlnum (roleLabels value role)

/-- **What only the schema asks of a lock.** -/
structure SchemaOnly (value : Json) : Prop where
  schemaVersion : ∀ b, value.get "schema_version" ≠ .bool b
  mode : value.get "mode" = .str "production" ∨ value.get "mode" = .str "candidate"
  profile : ∃ profile ∈ lockProfiles, value.get "profile_id" = .str profile
  images : ∀ key ∈ Json.keys (value.get "images").members, key = "head" ∨ key = "worker"
  labels : ∀ role, SchemaLabels (roleLabels value role)

/-- **A lock with a correct digest that fits a configuration.** -/
structure Bound (value : Json) (config : Config) : Prop where
  mapping : value.isMapping = true
  stamp : value.get "lock_sha256" = .str (contentSha256 value)
  mode : value.get "mode" = .str config.deployment.mode.text
  profile : value.get "profile_id" = .str config.profile.profileId
  model : value.get "model_manifest_sha256" = .str config.deployment.modelManifestSha256
  modelDigest : isSha256Digest config.deployment.modelManifestSha256 = true
  reference : ∀ role,
    (roleImage value role).get "reference" = .str (config.deployment.settings role).imageRef
  namespaces : ∀ role, namespaceRule config.deployment role
    (config.deployment.settings role).imageRef
    (((roleImage value role).get "image_id").asStr?.getD "") = .ok ()

theorem isSha256Digest_hexDigest (s : String) : isSha256Digest (Sha256.hexDigest s) = true :=
  Sha256.hexDigest_shape s

theorem text_of_pattern {j : Json} {pattern : String → Bool} (hempty : pattern "" = false) :
    pattern (j.asStr?.getD "") = true ↔ ∃ s, j = .str s ∧ pattern s = true := by
  cases j <;> simp [Json.asStr?, hempty]

theorem lockMapping_eq_ok {value v : Json} {name : String} :
    lockMapping value name = .ok v ↔ value.isMapping = true ∧ v = value := by
  rw [lockMapping, except_bind_eq_ok]
  simp only [lockFail_ok, Bool.not_eq_false', exists_const]
  exact and_congr_right fun _ => ⟨fun h => (Except.ok.inj h).symm, fun h => congrArg _ h.symm⟩

/-- **An image that the loader accepts**, when it fits the configuration. -/
theorem loadImage_ok_iff {isAlnum : Char → Bool} {value : Json} {config : Config}
    (hbound : Bound value config) (role : Role) :
    (∃ image, loadImage isAlnum config.deployment (value.get "images") role = .ok image) ↔
      SharedImage (roleImage value role) ∧ LoaderLabels isAlnum (roleLabels value role) := by
  have href := hbound.reference role
  have hrule := hbound.namespaces role
  constructor
  · rintro ⟨_, h⟩
    obtain ⟨_, hmapping, h⟩ := except_bind_eq_ok.1 h
    obtain ⟨himage, rfl⟩ := lockMapping_eq_ok.1 hmapping
    obtain ⟨_, hexact, h⟩ := except_bind_eq_ok.1 h
    obtain ⟨_, hisref, h⟩ := except_bind_eq_ok.1 h
    obtain ⟨_, hisid, h⟩ := except_bind_eq_ok.1 h
    obtain ⟨_, -, h⟩ := except_bind_eq_ok.1 h
    obtain ⟨_, -, h⟩ := except_bind_eq_ok.1 h
    obtain ⟨_, hlabels, h⟩ := except_bind_eq_ok.1 h
    obtain ⟨hislabels, rfl⟩ := lockMapping_eq_ok.1 hlabels
    obtain ⟨normalized, hnormalized, -⟩ := except_bind_eq_ok.1 h
    obtain ⟨hrequired, hknown⟩ := exactKeys_ok_iff.1 hexact
    obtain ⟨hshared, hloader⟩ := (validateLabels_ok_iff hislabels).1 ⟨normalized, hnormalized⟩
    refine ⟨⟨himage, hrequired, hknown, ?_, ?_, hshared⟩, hloader⟩
    · exact (text_of_pattern (by decide)).1 (Eq.mp (Bool.not_eq_false' _) (lockFail_ok.1 hisref))
    · exact (text_of_pattern (by decide)).1 (Eq.mp (Bool.not_eq_false' _) (lockFail_ok.1 hisid))
  · rintro ⟨hs, hl⟩
    obtain ⟨normalized, hnormalized⟩ := (validateLabels_ok_iff hs.labels.mapping).2 ⟨hs.labels, hl⟩
    refine ⟨_, except_bind_eq_ok.2 ⟨_, lockMapping_eq_ok.2 ⟨hs.mapping, rfl⟩,
      except_bind_eq_ok.2 ⟨(), exactKeys_ok_iff.2 ⟨hs.required, hs.known⟩,
      except_bind_eq_ok.2 ⟨(), lockFail_ok.2 ?_, except_bind_eq_ok.2 ⟨(), lockFail_ok.2 ?_,
      except_bind_eq_ok.2 ⟨(), lockFail_ok.2 ?_, except_bind_eq_ok.2 ⟨(), ?_,
      except_bind_eq_ok.2 ⟨_, lockMapping_eq_ok.2 ⟨hs.labels.mapping, rfl⟩,
      except_bind_eq_ok.2 ⟨_, hnormalized, rfl⟩⟩⟩⟩⟩⟩⟩⟩⟩
    · rw [Bool.not_eq_false']
      exact (text_of_pattern (by decide)).2 hs.reference
    · rw [Bool.not_eq_false']
      exact (text_of_pattern (by decide)).2 hs.imageId
    · change (((roleImage value role).get "reference").asStr?.getD "" != _) = _
      simp [href, Json.asStr?]
    · change namespaceRule config.deployment role
        (((roleImage value role).get "reference").asStr?.getD "") _ = _
      rw [href]
      exact hrule

/-- **A lock that the loader accepts**, when it fits the configuration. -/
theorem checkDeploymentLock_ok_iff {isAlnum : Char → Bool} {value : Json} {config : Config}
    {rawSha256 : String} (hbound : Bound value config) :
    (∃ v, checkDeploymentLock isAlnum value rawSha256 config = .ok v) ↔
      SharedLock value ∧ LoaderOnly isAlnum value := by
  constructor
  · rintro ⟨_, h⟩
    obtain ⟨_, hexact, h⟩ := except_bind_eq_ok.1 h
    obtain ⟨_, -, h⟩ := except_bind_eq_ok.1 h
    obtain ⟨_, -, h⟩ := except_bind_eq_ok.1 h
    obtain ⟨_, hversion, h⟩ := except_bind_eq_ok.1 h
    obtain ⟨_, hstatus, h⟩ := except_bind_eq_ok.1 h
    obtain ⟨_, -, h⟩ := except_bind_eq_ok.1 h
    obtain ⟨_, -, h⟩ := except_bind_eq_ok.1 h
    obtain ⟨_, -, h⟩ := except_bind_eq_ok.1 h
    obtain ⟨_, -, h⟩ := except_bind_eq_ok.1 h
    obtain ⟨_, himages, h⟩ := except_bind_eq_ok.1 h
    obtain ⟨hisimages, rfl⟩ := lockMapping_eq_ok.1 himages
    obtain ⟨head, hhead, h⟩ := except_bind_eq_ok.1 h
    obtain ⟨worker, hworker, -⟩ := except_bind_eq_ok.1 h
    obtain ⟨hrequired, hknown⟩ := exactKeys_ok_iff.1 hexact
    have hroles : ∀ role, SharedImage (roleImage value role) ∧
        LoaderLabels isAlnum (roleLabels value role) := by
      rintro (_ | _)
      · exact (loadImage_ok_iff hbound .worker).1 ⟨worker, hworker⟩
      · exact (loadImage_ok_iff hbound .head).1 ⟨head, hhead⟩
    exact ⟨⟨hrequired, hknown, by simpa using lockFail_ok.1 hversion,
      by simpa using lockFail_ok.1 hstatus, hisimages, fun role => (hroles role).1⟩,
      fun role => (hroles role).2⟩
  · rintro ⟨hs, hl⟩
    obtain ⟨head, hhead⟩ := (loadImage_ok_iff hbound .head).2 ⟨hs.image _, hl _⟩
    obtain ⟨worker, hworker⟩ := (loadImage_ok_iff hbound .worker).2 ⟨hs.image _, hl _⟩
    refine ⟨_, except_bind_eq_ok.2 ⟨(), exactKeys_ok_iff.2 ⟨hs.required, hs.known⟩,
      except_bind_eq_ok.2 ⟨(), lockFail_ok.2 ?_, except_bind_eq_ok.2 ⟨(), lockFail_ok.2 ?_,
      except_bind_eq_ok.2 ⟨(), lockFail_ok.2 ?_, except_bind_eq_ok.2 ⟨(), lockFail_ok.2 ?_,
      except_bind_eq_ok.2 ⟨(), lockFail_ok.2 ?_, except_bind_eq_ok.2 ⟨(), lockFail_ok.2 ?_,
      except_bind_eq_ok.2 ⟨(), lockFail_ok.2 ?_, except_bind_eq_ok.2 ⟨(), lockFail_ok.2 ?_,
      except_bind_eq_ok.2 ⟨_, lockMapping_eq_ok.2 ⟨hs.images, rfl⟩,
      except_bind_eq_ok.2 ⟨_, hhead, except_bind_eq_ok.2 ⟨_, hworker, rfl⟩⟩⟩⟩⟩⟩⟩⟩⟩⟩⟩⟩⟩
    · simp [hbound.stamp, Json.asStr?, isSha256Digest_hexDigest, contentSha256]
    · simp [hbound.stamp, Json.asStr?]
    · simp [hs.schemaVersion]
    · simp [hs.status]
    · simp [hbound.mode]
    · simp [hbound.profile]
    · simp [hbound.model, Json.asStr?, hbound.modelDigest]
    · simp [hbound.model, Json.asStr?]

theorem forall_find?_iff {j : Json} {key : String} (h : j.hasKey key = true) {p : Json → Prop} :
    (∀ value, j.find? key = some value → p value) ↔ p (j.get key) := by
  rw [find?_of_hasKey h]
  simp

theorem scalarEq_one_iff (j : Json) :
    Schema.scalarEq j (.int 1) = true ↔ j.pyEq (.int 1) = true ∧ ∀ b, j ≠ .bool b := by
  cases j <;> simp [Schema.scalarEq, Json.pyEq]

/-- **Labels that the schema accepts.** -/
theorem labelsSchema_iff (labels : Json) :
    labelsSchema.accepts labels = true ↔ SharedLabels labels ∧ SchemaLabels labels := by
  rw [labelsSchema, Schema.accepts_closed_iff]
  simp only [List.forall_mem_cons, List.not_mem_nil, false_imp_iff, implies_true, and_true,
    sha256Schema, commitSchema, Schema.accepts_text_iff, Schema.accepts_const_iff,
    Schema.scalarEq_str_iff]
  constructor
  · rintro ⟨hmapping, hrequired, hknown, hrevision, harch, hprofile, hservice, hruntime, hlock,
      hvllm, hb12x⟩
    have hall : ∀ key ∈ requiredImageLabels, labels.hasKey key = true := by
      simpa [requiredImageLabels] using hrequired
    rw [forall_find?_iff (hall _ (by decide))] at hrevision harch hruntime hvllm hb12x
    refine ⟨⟨hmapping, hall, fun key hkey => ?_, harch, hruntime, hlock, ?_⟩, ?_⟩
    · have := hknown key hkey
      revert this
      simp only [allowedImageLabels, requiredImageLabels, optionalImageLabels, List.map_cons,
        List.map_nil, List.mem_cons, List.mem_append, List.not_mem_nil, or_false]
      tauto
    · simp only [commitLabels, List.forall_mem_cons]
      exact ⟨hrevision, hvllm, hb12x, by simp⟩
    · simp only [SchemaLabels, softLabels, List.forall_mem_cons]
      exact ⟨hprofile, hservice, by simp⟩
  · rintro ⟨hs, hsoft⟩
    have hcommit := fun key hkey => (forall_find?_iff (p := fun j => ∃ s, j = .str s ∧
      isGitCommit s = true) (hs.required key hkey)).2
    refine ⟨hs.mapping, by simpa [requiredImageLabels] using hs.required, fun key hkey => ?_,
      hcommit _ (by decide) (hs.commits _ (by decide)),
      (forall_find?_iff (hs.required _ (by decide))).2 hs.architecture,
      hsoft _ (by decide), hsoft _ (by decide),
      (forall_find?_iff (hs.required _ (by decide))).2 hs.runtimeFile, hs.imageLock,
      hcommit _ (by decide) (hs.commits _ (by decide)),
      hcommit _ (by decide) (hs.commits _ (by decide))⟩
    have := hs.known key hkey
    revert this
    simp only [allowedImageLabels, requiredImageLabels, optionalImageLabels, List.map_cons,
      List.map_nil, List.mem_cons, List.mem_append, List.not_mem_nil, or_false]
    tauto

/-- **An image that the schema accepts.** -/
theorem roleImageSchema_iff (image : Json) :
    roleImageSchema.accepts image = true ↔
      SharedImage image ∧ SchemaLabels (image.get "labels") := by
  rw [roleImageSchema, Schema.accepts_closed_iff]
  simp only [List.forall_mem_cons, List.not_mem_nil, false_imp_iff, implies_true, and_true,
    Schema.accepts_text_iff, labelsSchema_iff]
  constructor
  · rintro ⟨hmapping, ⟨href, hid, hlab⟩, hknown, hreference, himageId, hlabels⟩
    rw [forall_find?_iff href] at hreference
    rw [forall_find?_iff hid] at himageId
    rw [forall_find?_iff hlab] at hlabels
    exact ⟨⟨hmapping, by simp [imageKeys, href, hid, hlab], hknown, hreference, himageId,
      hlabels.1⟩, hlabels.2⟩
  · rintro ⟨hs, hsoft⟩
    have hkeys := hs.required
    simp only [imageKeys, List.forall_mem_cons, List.not_mem_nil, false_imp_iff, implies_true,
      and_true] at hkeys
    exact ⟨hs.mapping, hkeys, hs.known, (forall_find?_iff hkeys.1).2 hs.reference,
      (forall_find?_iff hkeys.2.1).2 hs.imageId, (forall_find?_iff hkeys.2.2).2 ⟨hs.labels, hsoft⟩⟩

/-- **A lock that the schema accepts**, when it fits a configuration. -/
theorem lockSchema_iff {value : Json} {config : Config} (hbound : Bound value config) :
    lockSchema.accepts value = true ↔ SharedLock value ∧ SchemaOnly value := by
  rw [lockSchema, Schema.accepts_closed_iff]
  simp only [List.forall_mem_cons, List.not_mem_nil, false_imp_iff, implies_true, and_true,
    Schema.accepts_text_iff, Schema.accepts_closed_iff, roleImageSchema_iff, sha256Schema,
    Schema.accepts_const_iff, Schema.accepts_enum_iff, Schema.scalarEq_str_iff, scalarEq_one_iff]
  constructor
  · rintro ⟨-, hrequired, hknown, hversion, hstatus, hmode, hprofile, -, -, himages⟩
    have hkey : ∀ {key}, key ∈ lockKeys → value.hasKey key = true := fun h => hrequired _ h
    rw [forall_find?_iff (hkey (by decide))] at hversion hstatus hmode hprofile himages
    obtain ⟨hmapping, ⟨hhead, hworker⟩, hroles, hheadImage, hworkerImage⟩ := himages
    rw [forall_find?_iff hhead] at hheadImage
    rw [forall_find?_iff hworker] at hworkerImage
    refine ⟨⟨hrequired, fun key hkey => ?_, hversion.1, hstatus, hmapping, ?_⟩, hversion.2,
      ?_, ?_, ?_, ?_⟩
    · have := hknown key hkey
      simp only [lockKeys, List.map_cons, List.map_nil, List.mem_cons] at this ⊢
      tauto
    · rintro (_ | _)
      · exact hworkerImage.1
      · exact hheadImage.1
    · simpa [Schema.scalarEq_str_iff] using hmode
    · simpa [Schema.scalarEq_str_iff] using hprofile
    · simpa using hroles
    · rintro (_ | _)
      · exact hworkerImage.2
      · exact hheadImage.2
  · rintro ⟨hs, hc⟩
    have hkey : ∀ {key}, key ∈ lockKeys → value.hasKey key = true := fun h => hs.required _ h
    have himage : ∀ role : Role, (value.get "images").hasKey role.text = true := by
      intro role
      have hmapping := (hs.image role).mapping
      by_contra hnone
      have : (value.get "images").find? role.text = none := by
        simpa [Json.hasKey] using hnone
      rw [roleImage, Json.get, this] at hmapping
      exact absurd hmapping (by decide)
    refine ⟨hbound.mapping, hs.required, fun key hmem => ?_,
      (forall_find?_iff (hkey (by decide))).2 ⟨hs.schemaVersion, hc.schemaVersion⟩,
      (forall_find?_iff (hkey (by decide))).2 hs.status,
      (forall_find?_iff (hkey (by decide))).2 ?_,
      (forall_find?_iff (hkey (by decide))).2 ?_,
      (forall_find?_iff (hkey (by decide))).2 ⟨_, hbound.model, hbound.modelDigest⟩,
      (forall_find?_iff (hkey (by decide))).2
        ⟨_, hbound.stamp, isSha256Digest_hexDigest _⟩,
      (forall_find?_iff (hkey (by decide))).2
        ⟨hs.images, ⟨himage .head, himage .worker⟩, ?_,
          (forall_find?_iff (himage .head)).2 ⟨hs.image .head, hc.labels .head⟩,
          (forall_find?_iff (himage .worker)).2 ⟨hs.image .worker, hc.labels .worker⟩⟩⟩
    · have := hs.known key hmem
      simp only [lockKeys, List.map_cons, List.map_nil, List.mem_cons] at this ⊢
      tauto
    · simpa [Schema.scalarEq_str_iff] using hc.mode
    · simpa [Schema.scalarEq_str_iff] using hc.profile
    · simpa using hc.images

/-! ### Locks without some optional labels -/

/-- Labels without some of them. -/
def withoutKeys (keys : List String) : Json → Json
  | .obj kvs => .obj (kvs.filter fun p => !keys.contains p.1)
  | j => j

/-- A lock without some labels of each role. -/
def dropLabels (removed : Role → List String) (value : Json) : Json :=
  let drop := fun role => Json.update role.text (Json.update "labels" (withoutKeys (removed role)))
  value.update "images" fun images => drop .worker (drop .head images)

/-- A lock with its digest computed again. -/
def restamp (value : Json) : Json :=
  .obj (Json.setKey "lock_sha256" (.str (contentSha256 value)) value.members)

theorem withoutKeys_nil (j : Json) : withoutKeys [] j = j := by
  cases j <;> simp [withoutKeys]

theorem dropLabels_nil {removed : Role → List String} (h : ∀ role, removed role = [])
    (value : Json) : dropLabels removed value = value := by
  have hdrop : ∀ role : Role, ∀ j : Json,
      Json.update role.text (Json.update "labels" (withoutKeys (removed role))) j = j := by
    intro role j
    refine Json.update_of_fixed (Json.update_of_fixed fun labels => ?_) j
    rw [h role, withoutKeys_nil]
  rw [dropLabels]
  refine Json.update_of_fixed (fun images => ?_) value
  simp only [hdrop]

theorem hasKey_withoutKeys {keys : List String} {key : String} (h : key ∈ keys) (j : Json) :
    (withoutKeys keys j).hasKey key = false := by
  rw [Bool.eq_false_iff, Ne, Json.hasKey_iff]
  cases j with
  | obj kvs =>
    simp only [withoutKeys, Json.members, Json.keys, List.mem_map, List.mem_filter]
    rintro ⟨p, ⟨-, hp⟩, rfl⟩
    simp [h] at hp
  | _ => simp [withoutKeys, Json.members, Json.keys]

/-- The labels that are left. -/
theorem roleLabels_dropLabels (value : Json) (removed : Role → List String) (role : Role) :
    roleLabels (dropLabels removed value) role =
      withoutKeys (removed role) (roleLabels value role) := by
  rw [roleLabels, roleImage, dropLabels, Json.get_update (by rfl), if_pos rfl]
  cases role with
  | worker =>
    rw [Json.get_update (by rfl), if_pos rfl, Json.get_update (by rfl), if_pos rfl,
      Json.get_update (by rfl), if_neg (by decide)]
    rfl
  | head =>
    rw [Json.get_update (by rfl), if_neg (by decide), Json.get_update (by rfl), if_pos rfl,
      Json.get_update (by rfl), if_pos rfl]
    rfl

theorem get_restamp (value : Json) (key : String) :
    (restamp value).get key =
      if key = "lock_sha256" then .str (contentSha256 value) else value.get key := by
  rw [restamp, Json.get, Json.find?, Json.members, Json.lookup_setKey]
  split_ifs <;> rfl

theorem roleLabels_restamp (value : Json) (role : Role) :
    roleLabels (restamp value) role = roleLabels value role := by
  rw [roleLabels, roleImage, get_restamp, if_neg (by decide)]
  rfl

/-- A lock whose digest is correct stays as it is. -/
theorem restamp_of_stamp {value : Json} (hmapping : value.isMapping = true)
    (h : value.get "lock_sha256" = .str (contentSha256 value)) : restamp value = value := by
  cases value with
  | obj members =>
    have hlookup : members.lookup "lock_sha256" = some (.str (contentSha256 (.obj members))) := by
      simp only [Json.get, Json.find?, Json.members] at h
      cases hfind : members.lookup "lock_sha256" with
      | none => rw [hfind] at h; exact absurd h (by simp)
      | some v => rw [hfind] at h; exact congrArg some h
    rw [restamp, Json.members, Json.setKey_of_lookup hlookup]
  | _ => simp [Json.isMapping] at hmapping

theorem optional_of_loadImage {isAlnum : Char → Bool} {deployment : Deployment}
    {images image : Json} {role : Role}
    (h : loadImage isAlnum deployment images role = .ok image) :
    ∀ key ∈ optionalImageLabels, ((images.get role.text).get "labels").hasKey key = true := by
  obtain ⟨_, hmapping, h⟩ := except_bind_eq_ok.1 h
  obtain ⟨-, rfl⟩ := lockMapping_eq_ok.1 hmapping
  obtain ⟨_, -, h⟩ := except_bind_eq_ok.1 h
  obtain ⟨_, -, h⟩ := except_bind_eq_ok.1 h
  obtain ⟨_, -, h⟩ := except_bind_eq_ok.1 h
  obtain ⟨_, -, h⟩ := except_bind_eq_ok.1 h
  obtain ⟨_, -, h⟩ := except_bind_eq_ok.1 h
  obtain ⟨_, hlabels, h⟩ := except_bind_eq_ok.1 h
  obtain ⟨-, rfl⟩ := lockMapping_eq_ok.1 hlabels
  obtain ⟨_, hvalid, -⟩ := except_bind_eq_ok.1 h
  obtain ⟨_, hexact, -⟩ := except_bind_eq_ok.1 hvalid
  exact fun key hkey => (exactKeys_ok_iff.1 hexact).1 key (List.mem_append_right _ hkey)

/-- Whatever the configuration, an accepted lock has the optional labels of each role. -/
theorem optional_of_check {isAlnum : Char → Bool} {value v : Json} {config : Config}
    {raw : String} (h : checkDeploymentLock isAlnum value raw config = .ok v) (role : Role) :
    ∀ key ∈ optionalImageLabels, (roleLabels value role).hasKey key = true := by
  obtain ⟨_, -, h⟩ := except_bind_eq_ok.1 h
  obtain ⟨_, -, h⟩ := except_bind_eq_ok.1 h
  obtain ⟨_, -, h⟩ := except_bind_eq_ok.1 h
  obtain ⟨_, -, h⟩ := except_bind_eq_ok.1 h
  obtain ⟨_, -, h⟩ := except_bind_eq_ok.1 h
  obtain ⟨_, -, h⟩ := except_bind_eq_ok.1 h
  obtain ⟨_, -, h⟩ := except_bind_eq_ok.1 h
  obtain ⟨_, -, h⟩ := except_bind_eq_ok.1 h
  obtain ⟨_, -, h⟩ := except_bind_eq_ok.1 h
  obtain ⟨_, himages, h⟩ := except_bind_eq_ok.1 h
  obtain ⟨-, rfl⟩ := lockMapping_eq_ok.1 himages
  obtain ⟨head, hhead, h⟩ := except_bind_eq_ok.1 h
  obtain ⟨worker, hworker, -⟩ := except_bind_eq_ok.1 h
  cases role with
  | worker => exact optional_of_loadImage hworker
  | head => exact optional_of_loadImage hhead

theorem loadDeploymentLock_eq {isAlnum : Char → Bool} {content : String} {value : Json}
    {config : Config} (hloads : Json.loads content = some value)
    (hmapping : value.isMapping = true) :
    loadDeploymentLock isAlnum content config =
      checkDeploymentLock isAlnum value (Sha256.hexDigest content) config := by
  rw [loadDeploymentLock, hloads]
  cases value with
  | obj members => rfl
  | _ => simp [Json.isMapping] at hmapping

/-- The digest of the file is in the result only under its own key. -/
theorem checkDeploymentLock_raw {isAlnum : Char → Bool} {value v : Json} {config : Config}
    {raw raw' : String} (h : checkDeploymentLock isAlnum value raw config = .ok v) :
    ∃ v', checkDeploymentLock isAlnum value raw' config = .ok v' ∧
      ∀ key, key ≠ "raw_sha256" → v'.find? key = v.find? key := by
  obtain ⟨_, h₁, h⟩ := except_bind_eq_ok.1 h
  obtain ⟨_, h₂, h⟩ := except_bind_eq_ok.1 h
  obtain ⟨_, h₃, h⟩ := except_bind_eq_ok.1 h
  obtain ⟨_, h₄, h⟩ := except_bind_eq_ok.1 h
  obtain ⟨_, h₅, h⟩ := except_bind_eq_ok.1 h
  obtain ⟨_, h₆, h⟩ := except_bind_eq_ok.1 h
  obtain ⟨_, h₇, h⟩ := except_bind_eq_ok.1 h
  obtain ⟨_, h₈, h⟩ := except_bind_eq_ok.1 h
  obtain ⟨_, h₉, h⟩ := except_bind_eq_ok.1 h
  obtain ⟨_, himages, h⟩ := except_bind_eq_ok.1 h
  obtain ⟨head, hhead, h⟩ := except_bind_eq_ok.1 h
  obtain ⟨worker, hworker, h⟩ := except_bind_eq_ok.1 h
  refine ⟨_, except_bind_eq_ok.2 ⟨_, h₁, except_bind_eq_ok.2 ⟨_, h₂, except_bind_eq_ok.2 ⟨_, h₃,
    except_bind_eq_ok.2 ⟨_, h₄, except_bind_eq_ok.2 ⟨_, h₅, except_bind_eq_ok.2 ⟨_, h₆,
    except_bind_eq_ok.2 ⟨_, h₇, except_bind_eq_ok.2 ⟨_, h₈, except_bind_eq_ok.2 ⟨_, h₉,
    except_bind_eq_ok.2 ⟨_, himages, except_bind_eq_ok.2 ⟨_, hhead,
    except_bind_eq_ok.2 ⟨_, hworker, rfl⟩⟩⟩⟩⟩⟩⟩⟩⟩⟩⟩⟩, fun key hkey => ?_⟩
  rw [← Except.ok.inj h]
  rw [Json.find?, Json.find?, Json.members, Json.members, Json.lookup_setKey, if_neg hkey,
    Json.lookup_setKey "raw_sha256", if_neg hkey]

/-! ### Agreement -/

/-- **The loader accepts a lock.** -/
def Loads (isAlnum : Char → Bool) (content : String) (config : Config) : Prop :=
  ∃ v, loadDeploymentLock isAlnum content config = .ok v

/-- **A lock survives a removal**: what is left, with its digest computed again, is accepted, and
apart from the digests the result is the old one without the removed labels. -/
def Survives (isAlnum : Char → Bool) (content content' : String) (config : Config)
    (removed : Role → List String) : Prop :=
  ∃ v v', loadDeploymentLock isAlnum content config = .ok v ∧
    loadDeploymentLock isAlnum content' config = .ok v' ∧
    ∀ key, key ≠ "raw_sha256" → key ≠ "lock_sha256" →
      v'.find? key = (dropLabels removed v).find? key

/-- **The loader and the schema of a lock** that fits a configuration agree if and only if, once
what both ask for is there, the extra demands of the loader and those of the schema are both met
or both missed. And of the optional labels of an accepted lock, none can be removed. -/
theorem lockLoader_agrees_iff (isAlnum : Char → Bool) {content : String} {value : Json}
    {config : Config} (hloads : Json.loads content = some value) (hbound : Bound value config) :
    ((Loads isAlnum content config ↔ lockSchema.accepts value = true) ↔
      (SharedLock value → (LoaderOnly isAlnum value ↔ SchemaOnly value))) ∧
    ∀ removed : Role → List String, (∀ role, removed role ⊆ optionalImageLabels) →
      ∀ content', Json.loads content' = some (restamp (dropLabels removed value)) →
        Loads isAlnum content config →
          (Survives isAlnum content content' config removed ↔ ∀ role, removed role = []) := by
  have hload : Loads isAlnum content config ↔ SharedLock value ∧ LoaderOnly isAlnum value := by
    rw [Loads, loadDeploymentLock_eq hloads hbound.mapping]
    exact checkDeploymentLock_ok_iff hbound
  refine ⟨?_, fun removed hremoved content' hloads' haccepted => ⟨?_, ?_⟩⟩
  · rw [hload, lockSchema_iff hbound]
    exact ⟨fun h hs => ⟨fun hl => (h.1 ⟨hs, hl⟩).2, fun hc => (h.2 ⟨hs, hc⟩).2⟩,
      fun h => and_congr_right h⟩
  · -- a label that is gone is one that the loader misses
    rintro ⟨v, v', -, hv', -⟩ role
    rw [List.eq_nil_iff_forall_not_mem]
    intro key hkey
    rw [loadDeploymentLock_eq hloads' rfl] at hv'
    have hhas := optional_of_check hv' role key (hremoved role hkey)
    rw [roleLabels_restamp, roleLabels_dropLabels, hasKey_withoutKeys hkey] at hhas
    exact absurd hhas (by decide)
  · intro hnone
    obtain ⟨v, hv⟩ := haccepted
    rw [dropLabels_nil hnone, restamp_of_stamp hbound.mapping hbound.stamp] at hloads'
    have hcheck := hv
    rw [loadDeploymentLock_eq hloads hbound.mapping] at hcheck
    obtain ⟨v', hv', hsame⟩ := checkDeploymentLock_raw hcheck
    refine ⟨v, v', hv, ?_, fun key hraw _ => ?_⟩
    · rw [loadDeploymentLock_eq hloads' hbound.mapping]
      exact hv'
    · rw [dropLabels_nil hnone]
      exact hsame key hraw

/-! ### A lock without an optional label -/

/-- The image of a role in a lock of the candidate configuration, without some of its labels. -/
def candidateLockImage (role : Role) (removed : List String) : Json := .obj [
  ("image_id", .str (candidateLock.image role).imageId),
  ("labels", withoutKeys removed candidateLabels.toJson.sortKeys),
  ("reference", .str (candidateLock.image role).reference)]

/-- A lock of the candidate configuration without some labels. -/
def candidateLockDocument (removed : List String) (stamp : String) : Json := .obj [
  ("images", .obj [
    ("head", candidateLockImage .head removed),
    ("worker", candidateLockImage .worker removed)]),
  ("lock_sha256", .str stamp),
  ("mode", .str "candidate"),
  ("model_manifest_sha256", .str candidateDeployment.modelManifestSha256),
  ("profile_id", .str candidateConfig.profile.profileId),
  ("schema_version", .int 1),
  ("status", .str "ready")]

/-- The same with its digest. -/
def candidateLockValue (removed : List String) : Json :=
  candidateLockDocument removed (contentSha256 (candidateLockDocument removed ""))

theorem roleImage_candidateLock (removed : List String) (role : Role) :
    roleImage (candidateLockValue removed) role = candidateLockImage role removed := by
  cases role <;> rfl

theorem bound_candidateLock (removed : List String) :
    Bound (candidateLockValue removed) candidateConfig where
  mapping := rfl
  stamp := rfl
  mode := rfl
  profile := rfl
  model := rfl
  modelDigest := by decide
  reference role := by
    rw [roleImage_candidateLock]
    cases role <;> rfl
  namespaces role := by
    rw [roleImage_candidateLock]
    cases role with
    | worker =>
      change namespaceRule candidateDeployment .worker candidateDeployment.worker.imageRef
        (candidateLock.image .worker).imageId = .ok ()
      decide
    | head =>
      change namespaceRule candidateDeployment .head candidateDeployment.head.imageRef
        (candidateLock.image .head).imageId = .ok ()
      decide

/-- The digest of the image lock, an optional label. -/
def imageLockLabel : List String := ["com.dgx-spark.image_lock_sha256"]

/-- The labels of the candidate, with or without the digest of the image lock. -/
def lockedLabels (removed : List String) : Json :=
  withoutKeys removed candidateLabels.toJson.sortKeys

theorem sharedLabels_candidate {removed : List String} (h : removed ∈ [[], imageLockLabel]) :
    SharedLabels (lockedLabels removed) where
  mapping := rfl
  required := by revert removed; decide
  known := by revert removed; decide
  architecture := by revert removed; decide
  runtimeFile := ⟨"7777777777777777777777777777777777777777777777777777777777777777",
    by revert removed; decide, by decide⟩
  imageLock value hvalue := by
    simp only [List.mem_cons, List.not_mem_nil, or_false] at h
    rcases h with rfl | rfl
    · have hget := get_of_find? hvalue
      exact ⟨_, hget.symm, by decide⟩
    · have hnone : (lockedLabels imageLockLabel).find? "com.dgx-spark.image_lock_sha256" = none := by
        decide
      exact absurd (hnone.symm.trans hvalue) (by simp)
  commits := by
    simp only [List.mem_cons, List.not_mem_nil, or_false] at h
    simp only [commitLabels, List.forall_mem_cons]
    rcases h with rfl | rfl
    · exact ⟨⟨_, rfl, by decide⟩, ⟨_, rfl, by decide⟩, ⟨_, rfl, by decide⟩,
        by simp⟩
    · exact ⟨⟨_, rfl, by decide⟩, ⟨_, rfl, by decide⟩, ⟨_, rfl, by decide⟩,
        by simp⟩

theorem schemaLabels_candidate : SchemaLabels (lockedLabels imageLockLabel) := by
  simp only [SchemaLabels, softLabels, List.forall_mem_cons]
  exact ⟨(forall_find?_iff (by decide)).2 ⟨_, rfl, by decide⟩,
    (forall_find?_iff (by decide)).2 ⟨_, rfl, by decide⟩, by simp⟩

theorem sharedImage_candidate (role : Role) {removed : List String}
    (h : removed ∈ [[], imageLockLabel]) : SharedImage (candidateLockImage role removed) where
  mapping := rfl
  required := by
    simp only [imageKeys, List.forall_mem_cons]
    exact ⟨rfl, rfl, rfl, by simp⟩
  known := by
    change ∀ key ∈ ["image_id", "labels", "reference"], key ∈ imageKeys
    decide
  reference := ⟨_, rfl, by cases role <;> decide⟩
  imageId := ⟨_, rfl, by cases role <;> decide⟩
  labels := sharedLabels_candidate h

theorem sharedLock_candidate {removed : List String} (h : removed ∈ [[], imageLockLabel]) :
    SharedLock (candidateLockValue removed) where
  required := by
    simp only [lockKeys, List.forall_mem_cons]
    exact ⟨rfl, rfl, rfl, rfl, rfl, rfl, rfl, by simp⟩
  known := by
    change ∀ key ∈ ["images", "lock_sha256", "mode", "model_manifest_sha256", "profile_id",
      "schema_version", "status"], key ∈ lockKeys
    decide
  schemaVersion := rfl
  status := rfl
  images := rfl
  image role := by
    rw [roleImage_candidateLock]
    exact sharedImage_candidate role h

/-- With all labels, the loader has nothing to object either. -/
theorem loaderOnly_candidate : LoaderOnly Char.isAlphanum (candidateLockValue []) := by
  intro role
  rw [roleLabels, roleImage_candidateLock]
  refine ⟨by cases role <;> decide, ?_⟩
  simp only [softLabels, List.forall_mem_cons]
  exact ⟨filled_of_fullMatch (n := 64) (by decide) (by decide),
    filled_of_fullMatch (n := 64) (by decide) (by decide), by simp⟩

/-- Without the digest of the image lock, the schema has nothing to object. -/
theorem schemaOnly_candidate : SchemaOnly (candidateLockValue imageLockLabel) where
  schemaVersion b := by
    change Json.int 1 ≠ _
    simp
  mode := .inr rfl
  profile := ⟨_, by decide, rfl⟩
  images := by
    change ∀ key ∈ ["head", "worker"], _
    decide
  labels role := by
    rw [roleLabels, roleImage_candidateLock]
    exact schemaLabels_candidate

/-- The text of a lock of the candidate configuration. -/
def candidateLockContent (removed : List String) : String :=
  Json.canonical (candidateLockValue removed)

theorem wf_withoutKeys {keys : List String} {j : Json} (h : j.WF) : (withoutKeys keys j).WF := by
  cases j with
  | obj kvs =>
    obtain ⟨hnodup, hmembers⟩ := h
    refine ⟨(List.filter_sublist.map Prod.fst).nodup hnodup, (Json.wfMembers_iff _).2 ?_⟩
    intro p hp
    exact (Json.wfMembers_iff kvs).1 hmembers p (List.mem_filter.1 hp).1
  | _ => exact h

theorem wf_candidateLockImage (role : Role) (removed : List String) :
    (candidateLockImage role removed).WF := by
  refine wf_obj (by simp [Json.keys]) ?_
  simp only [List.forall_mem_cons]
  exact ⟨trivial, wf_withoutKeys (Json.wf_sortKeys _ (Labels.wf_toJson _)), trivial, by simp⟩

theorem wf_candidateLock (removed : List String) : (candidateLockValue removed).WF := by
  refine wf_obj (by simp [Json.keys]) ?_
  simp only [List.forall_mem_cons]
  refine ⟨wf_obj (by simp [Json.keys]) ?_, trivial, trivial, trivial, trivial, trivial,
    trivial, by simp⟩
  simp only [List.forall_mem_cons]
  exact ⟨wf_candidateLockImage _ _, wf_candidateLockImage _ _, by simp⟩

theorem sortKeys_candidateLock {removed : List String} (h : removed ∈ [[], imageLockLabel]) :
    (candidateLockValue removed).sortKeys = candidateLockValue removed := by
  simp only [List.mem_cons, List.not_mem_nil, or_false] at h
  rcases h with rfl | rfl <;> rfl

theorem loads_candidateLock {removed : List String} (h : removed ∈ [[], imageLockLabel]) :
    Json.loads (candidateLockContent removed) = some (candidateLockValue removed) :=
  (Json.loads_dumps Json.compact_blank (wf_candidateLock _)).trans
    (congrArg some (sortKeys_candidateLock h))

theorem lockLoader_agrees_iff_candidate :
    ((Loads Char.isAlphanum (candidateLockContent imageLockLabel) candidateConfig ↔
        lockSchema.accepts (candidateLockValue imageLockLabel) = true) ↔
      (SharedLock (candidateLockValue imageLockLabel) →
        (LoaderOnly Char.isAlphanum (candidateLockValue imageLockLabel) ↔
          SchemaOnly (candidateLockValue imageLockLabel)))) ∧
    ∀ removed : Role → List String, (∀ role, removed role ⊆ optionalImageLabels) →
      ∀ content', Json.loads content' =
          some (restamp (dropLabels removed (candidateLockValue imageLockLabel))) →
        Loads Char.isAlphanum (candidateLockContent imageLockLabel) candidateConfig →
          (Survives Char.isAlphanum (candidateLockContent imageLockLabel) content' candidateConfig
            removed ↔ ∀ role, removed role = []) :=
  lockLoader_agrees_iff Char.isAlphanum (loads_candidateLock (by simp)) (bound_candidateLock _)

/-- **A lock without the digest of the image lock**, with its own digest correct, fits the
configuration and the schema, and the loader rejects it. -/
theorem lock_without_optional_label :
    Json.loads (candidateLockContent imageLockLabel) = some (candidateLockValue imageLockLabel) ∧
      Bound (candidateLockValue imageLockLabel) candidateConfig ∧
      lockSchema.accepts (candidateLockValue imageLockLabel) = true ∧
      ¬Loads Char.isAlphanum (candidateLockContent imageLockLabel) candidateConfig := by
  have hbound := bound_candidateLock imageLockLabel
  have hloads := @loads_candidateLock imageLockLabel (by simp)
  refine ⟨hloads, hbound,
    (lockSchema_iff hbound).2 ⟨sharedLock_candidate (by simp), schemaOnly_candidate⟩, ?_⟩
  rintro ⟨v, hv⟩
  rw [loadDeploymentLock_eq hloads hbound.mapping] at hv
  have hlabel := optional_of_check hv .head "com.dgx-spark.image_lock_sha256" (by decide)
  rw [roleLabels, roleImage_candidateLock] at hlabel
  exact absurd hlabel (by decide)

end DgxSpark
