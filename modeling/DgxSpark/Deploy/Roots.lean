import DgxSpark.Deploy.Accepted

/-!
# The operator's directories

The directories that validation lets through, seen as the directories they are: `.` components,
repeated slashes and a leading pair of slashes do not count (`DgxSpark.normalForm`).

The checks compare a path with `/` and with the repository as `pathlib` does, for which a
leading pair of slashes is another root, and the managed directories among each other as texts.
So `//` is accepted and becomes `/`, and two spellings of a directory pass for two directories.
`DgxSpark.safeRoots_iff` says that nothing else goes wrong.
-/

namespace DgxSpark

variable {decimals : Decimals} {repository : PosixPath} {values : EnvValues} {profile : Profile}

/-! ### Spellings of a path -/

/-- The components of a path: what is left when slashes are collapsed and dots dropped. -/
def normalForm (s : String) : List String :=
  (PosixPath.parse s).parts

/-- The text without its last slashes, as `_absolute_root` returns it. -/
def strippedRoot (s : String) : String :=
  if Text.rstripChar '/' s = "" then "/" else Text.rstripChar '/' s

/-- Slashes at the end add no component. -/
theorem parts_append_slashes {cs tail : List Char} (h : ∀ c ∈ tail, (c == '/') = true) :
    (((cs ++ tail).splitOn '/').map String.ofList).filter (fun part => part != "" && part != ".") =
      ((cs.splitOn '/').map String.ofList).filter fun part => part != "" && part != "." := by
  induction tail generalizing cs with
  | nil => rw [List.append_nil]
  | cons c tail ih =>
    obtain rfl : c = '/' := by simpa using h c List.mem_cons_self
    have htail := @ih [] fun d hd => h d (List.mem_cons_of_mem _ hd)
    rw [List.nil_append] at htail
    rw [List.splitOn_append_cons_self, List.map_append, List.filter_append, htail]
    simp

theorem toList_rstripChar (s : String) : ∃ tail,
    s.toList = (Text.rstripChar '/' s).toList ++ tail ∧ ∀ c ∈ tail, (c == '/') = true := by
  obtain ⟨tail, hvalue, htail⟩ := rstripWhile_eq_dropRight (· == '/') s.toList
  refine ⟨tail, ?_, htail⟩
  rw [Text.rstripChar, Text.rstripWhile, Text.chars_eq, String.toList_ofList]
  exact hvalue

theorem normalForm_rstripChar (s : String) : normalForm (Text.rstripChar '/' s) = normalForm s := by
  obtain ⟨tail, hvalue, htail⟩ := toList_rstripChar s
  rw [normalForm, normalForm, PosixPath.parse, PosixPath.parse, Text.splitOn, Text.splitOn,
    Text.chars_eq, Text.chars_eq, hvalue, parts_append_slashes htail]

/-- **Stripping keeps the directory.** -/
theorem normalForm_strippedRoot (s : String) : normalForm (strippedRoot s) = normalForm s := by
  rw [strippedRoot, ← normalForm_rstripChar s]
  split_ifs with hempty
  · rw [hempty]
    decide
  · rfl

/-- A text that ends with no slash has its root whatever slashes follow. -/
theorem rootOf_append {cs tail : List Char} (hne : cs ≠ [])
    (hlast : ∀ c, cs.getLast? = some c → c ≠ '/') : PosixPath.rootOf (cs ++ tail) =
      PosixPath.rootOf cs := by
  match cs, hne, hlast with
  | [c], _, hlast =>
    have hc : c ≠ '/' := hlast c rfl
    simp [PosixPath.rootOf, hc]
  | [c, d], _, hlast =>
    have hd : d ≠ '/' := hlast d rfl
    by_cases hc : c = '/' <;> simp [PosixPath.rootOf, hc, hd]
  | c :: d :: e :: cs, _, _ =>
    by_cases hc : c = '/' <;> by_cases hd : d = '/' <;> by_cases he : e = '/' <;>
      simp [PosixPath.rootOf, hc, hd, he]

theorem root_rstripChar {s : String} (h : Text.rstripChar '/' s ≠ "") :
    (PosixPath.parse (Text.rstripChar '/' s)).root = (PosixPath.parse s).root := by
  obtain ⟨tail, hvalue, -⟩ := toList_rstripChar s
  rw [PosixPath.parse, PosixPath.parse, Text.chars_eq, Text.chars_eq, hvalue]
  refine (rootOf_append (fun hnil => h (String.toList_inj.1 hnil)) fun c hc => ?_).symm
  rw [Text.rstripChar, Text.rstripWhile, Text.chars_eq, String.toList_ofList,
    List.getLast?_reverse] at hc
  have hhead := List.head?_dropWhile_not (· == '/') s.toList.reverse
  rw [hc] at hhead
  simpa using hhead

/-! ### What is demanded -/

/-- The keys of the operator's directories. -/
def rootKeys : List String :=
  ["REMOTE_ROOT", "MODEL_ROOT", "STATE_ROOT", "CACHE_ROOT", "RESULT_ROOT", "LOG_ROOT"]

/-- The keys of the directories that a deployment manages. -/
def managedKeys : List String :=
  ["REMOTE_ROOT", "CACHE_ROOT", "STATE_ROOT", "RESULT_ROOT", "LOG_ROOT"]

/-- A directory that is safe to use: absolute, not the top, not in the repository. -/
structure SafeRoot (repository : PosixPath) (s : String) : Prop where
  absolute : (PosixPath.parse s).root ≠ ""
  notTop : normalForm s ≠ []
  outside : ¬repository.parts <+: normalForm s

/-- The directories of a deployment are safe, and outside the generic mode the managed ones are
five. `LOG_ROOT` may be left out. -/
structure SafeRoots (repository : PosixPath) (values : EnvValues) (mode : Mode) : Prop where
  safe : ∀ key ∈ rootKeys, values.value key ≠ "" → SafeRoot repository (values.value key)
  distinct : mode ≠ .generic → (managedKeys.map fun key => normalForm (values.value key)).Nodup

/-- The spellings that the checks do not see through do not occur: a path on the root `//` has a
component, one on another root than the repository does not lead into it, and two managed
directories that are the same are spelled the same but for slashes at the end. -/
structure PlainRoots (repository : PosixPath) (values : EnvValues) (mode : Mode) : Prop where
  notTop : ∀ key ∈ rootKeys, (PosixPath.parse (values.value key)).root = "//" →
    normalForm (values.value key) ≠ []
  outside : ∀ key ∈ rootKeys, values.value key ≠ "" →
    (PosixPath.parse (values.value key)).root ≠ repository.root →
      ¬repository.parts <+: normalForm (values.value key)
  spelled : mode ≠ .generic → ∀ a ∈ managedKeys, ∀ b ∈ managedKeys,
    normalForm (values.value a) = normalForm (values.value b) →
      strippedRoot (values.value a) = strippedRoot (values.value b)

/-! ### What is checked -/

/-- The checks of a directory. -/
structure CheckedRoot (repository : PosixPath) (s : String) : Prop where
  absolute : (PosixPath.parse s).root ≠ ""
  notTop : PosixPath.parse s ≠ PosixPath.parse "/"
  outside : insideRepository repository (PosixPath.parse (strippedRoot s)) = false

theorem checkedRoot_of_externalFile {key path : String}
    (h : externalFile repository values key = .ok path) :
    path = strippedRoot (values.value key) ∧ CheckedRoot repository (values.value key) := by
  obtain ⟨value, hvalue, h⟩ := except_bind_eq_ok.1 h
  obtain ⟨_, hinside, h⟩ := except_bind_eq_ok.1 h
  obtain rfl := Except.ok.inj h
  obtain ⟨raw, hraw, hvalue⟩ := except_bind_eq_ok.1 hvalue
  obtain ⟨_, hroot, hvalue⟩ := except_bind_eq_ok.1 hvalue
  obtain ⟨_, htop, hvalue⟩ := except_bind_eq_ok.1 hvalue
  obtain ⟨_, -, hvalue⟩ := except_bind_eq_ok.1 hvalue
  obtain ⟨_, -, hvalue⟩ := except_bind_eq_ok.1 hvalue
  obtain rfl := Except.ok.inj hvalue
  obtain ⟨rfl, -⟩ := nonempty_ok hraw
  rw [reject_ok] at hinside
  rw [reject_ok, beq_eq_false_iff_ne] at hroot htop
  exact ⟨rfl, hroot, htop, hinside⟩

/-- **What the checks of a directory are worth**: it is safe unless it is on a root of two
slashes, or on another root than the repository, and leads where it must not. -/
theorem CheckedRoot.safe_iff {s : String} (h : CheckedRoot repository s) :
    SafeRoot repository s ↔ ((PosixPath.parse s).root = "//" → normalForm s ≠ []) ∧
      ((PosixPath.parse s).root ≠ repository.root → ¬repository.parts <+: normalForm s) := by
  constructor
  · intro hsafe
    exact ⟨fun _ => hsafe.notTop, fun _ => hsafe.outside⟩
  · rintro ⟨htop, houtside⟩
    have hparts : normalForm s ≠ [] := by
      rcases PosixPath.root_parse s with hroot | hroot | hroot
      · exact absurd hroot h.absolute
      · intro hnil
        refine h.notTop ?_
        rw [show PosixPath.parse s = ⟨(PosixPath.parse s).root, normalForm s⟩ from rfl, hroot, hnil]
        decide
      · exact htop hroot
    refine ⟨h.absolute, hparts, fun hprefix => ?_⟩
    by_cases hroot : (PosixPath.parse s).root = repository.root
    · -- on the repository's own root the check sees it
      have hstripped : Text.rstripChar '/' s ≠ "" := by
        intro hempty
        rw [← normalForm_rstripChar, hempty] at hparts
        exact hparts (by decide)
      have hinside := h.outside
      rw [strippedRoot, if_neg hstripped, insideRepository, root_rstripChar hstripped, hroot,
        beq_self_eq_true, Bool.true_and, ← Bool.not_eq_true, List.isPrefixOf_iff_prefix] at hinside
      exact hinside (by rw [← normalForm_rstripChar] at hprefix; exact hprefix)
    · exact houtside hroot hprefix

/-- Every directory that is given is checked. -/
theorem checkedRoots {mode : Mode} {paths : DeploymentPaths}
    (h : validatePaths repository values mode = .ok paths) :
    (∀ key ∈ rootKeys, values.value key ≠ "" → CheckedRoot repository (values.value key)) ∧
      (mode ≠ .generic →
        (managedKeys.map fun key => strippedRoot (values.value key)).Nodup) := by
  obtain ⟨_, -, h⟩ := except_bind_eq_ok.1 h
  obtain ⟨_, -, h⟩ := except_bind_eq_ok.1 h
  obtain ⟨_, -, h⟩ := except_bind_eq_ok.1 h
  obtain ⟨remoteRoot, hremote, h⟩ := except_bind_eq_ok.1 h
  obtain ⟨modelRoot, hmodel, h⟩ := except_bind_eq_ok.1 h
  obtain ⟨stateRoot, hstate, h⟩ := except_bind_eq_ok.1 h
  obtain ⟨cacheRoot, hcache, h⟩ := except_bind_eq_ok.1 h
  obtain ⟨resultRoot, hresult, h⟩ := except_bind_eq_ok.1 h
  obtain ⟨logRoot, hlog, h⟩ := except_bind_eq_ok.1 h
  obtain ⟨_, -, h⟩ := except_bind_eq_ok.1 h
  obtain ⟨_, hlogSet, h⟩ := except_bind_eq_ok.1 h
  obtain ⟨_, hnodup, h⟩ := except_bind_eq_ok.1 h
  obtain ⟨hremote, hremoteChecked⟩ := checkedRoot_of_externalFile hremote
  obtain ⟨-, hmodelChecked⟩ := checkedRoot_of_externalFile hmodel
  obtain ⟨hstate, hstateChecked⟩ := checkedRoot_of_externalFile hstate
  obtain ⟨hcache, hcacheChecked⟩ := checkedRoot_of_externalFile hcache
  obtain ⟨hresult, hresultChecked⟩ := checkedRoot_of_externalFile hresult
  have hlogChecked : (values.value "LOG_ROOT" = "" ∧ logRoot = "") ∨
      (logRoot = strippedRoot (values.value "LOG_ROOT") ∧
        CheckedRoot repository (values.value "LOG_ROOT")) := by
    rw [optionalFile] at hlog
    split_ifs at hlog with hempty
    · exact .inl ⟨hempty, (Except.ok.inj hlog).symm⟩
    · exact .inr (checkedRoot_of_externalFile hlog)
  constructor
  · intro key hkey hset
    simp only [rootKeys, List.mem_cons, List.not_mem_nil, or_false] at hkey
    rcases hkey with rfl | rfl | rfl | rfl | rfl | rfl
    · exact hremoteChecked
    · exact hmodelChecked
    · exact hstateChecked
    · exact hcacheChecked
    · exact hresultChecked
    · rcases hlogChecked with ⟨hempty, -⟩ | ⟨-, hchecked⟩
      · exact absurd hempty hset
      · exact hchecked
  · intro hmode
    have hgeneric : (mode != .generic) = true := bne_iff_ne.2 hmode
    rw [reject_ok, hgeneric, Bool.true_and] at hlogSet hnodup
    rw [Bool.not_eq_false', decide_eq_true_eq] at hnodup
    rcases hlogChecked with ⟨-, hempty⟩ | ⟨hlog, -⟩
    · exact absurd hempty (beq_eq_false_iff_ne.1 hlogSet)
    · rw [DeploymentPaths.roots, hremote, hcache, hstate, hresult, hlog] at hnodup
      exact hnodup

/-- Two keys with different texts are distinct directories if they are not two spellings of one. -/
theorem nodup_normalForm_iff {keys : List String} {text : String → String}
    (hnodup : (keys.map fun key => strippedRoot (text key)).Nodup) :
    (keys.map fun key => normalForm (text key)).Nodup ↔ ∀ a ∈ keys, ∀ b ∈ keys,
      normalForm (text a) = normalForm (text b) → strippedRoot (text a) = strippedRoot (text b) := by
  have hkeys := List.inj_on_of_nodup_map hnodup
  constructor
  · intro h a ha b hb heq
    rw [List.inj_on_of_nodup_map h ha hb heq]
  · intro h
    exact List.Nodup.map_on (fun a ha b hb heq => hkeys ha hb (h a ha b hb heq)) hnodup.of_map

/-- **The operator's directories**: those of an accepted mapping are safe if and only if no
spelling hides one that is not. -/
theorem safeRoots_iff {config : Config}
    (h : validate decimals repository values profile = .ok config) :
    SafeRoots repository values config.deployment.mode ↔
      PlainRoots repository values config.deployment.mode := by
  obtain ⟨steps, rfl⟩ := validate_eq_ok h
  obtain ⟨hchecked, hdistinct⟩ := checkedRoots steps.paths_ok
  have hmode : steps.config.deployment.mode = steps.mode := rfl
  rw [hmode]
  constructor
  · intro hsafe
    refine ⟨fun key hkey hroot => ?_, fun key hkey hset _ => (hsafe.safe key hkey hset).outside,
      fun hgeneric => (nodup_normalForm_iff (hdistinct hgeneric)).1 (hsafe.distinct hgeneric)⟩
    have hset : values.value key ≠ "" := by
      intro hempty
      rw [hempty] at hroot
      exact absurd hroot (by decide)
    exact (hsafe.safe key hkey hset).notTop
  · intro hplain
    refine ⟨fun key hkey hset => ?_, fun hgeneric =>
      (nodup_normalForm_iff (hdistinct hgeneric)).2 (hplain.spelled hgeneric)⟩
    exact (hchecked key hkey hset).safe_iff.2
      ⟨hplain.notTop key hkey, hplain.outside key hkey hset⟩

/-- The values of a deployment with another directory. -/
def withRoot (mode : Mode) (key root : String) : EnvValues :=
  (sharedRootValues mode).map fun p => if p.1 = key then (key, root) else p

theorem validate_withRoot (mode : Mode) (key root : String)
    (h : (validate asciiDecimals checkout (withRoot mode key root)
      defaultProfile).toOption.isSome = true) :
    ∃ config, validate asciiDecimals checkout (withRoot mode key root) defaultProfile =
      .ok config :=
  ⟨_, except_eq_ok_get h⟩

/-- A candidate with a cache below its remote root. -/
theorem nestedCache_roots : ∃ config,
    validate asciiDecimals checkout (withRoot .candidate "CACHE_ROOT" "/srv/candidate//cache/.")
        defaultProfile = .ok config ∧
      (SafeRoots checkout (withRoot .candidate "CACHE_ROOT" "/srv/candidate//cache/.")
          config.deployment.mode ↔
        PlainRoots checkout (withRoot .candidate "CACHE_ROOT" "/srv/candidate//cache/.")
          config.deployment.mode) := by
  obtain ⟨config, h⟩ := validate_withRoot .candidate "CACHE_ROOT" "/srv/candidate//cache/."
    (by decide)
  exact ⟨config, h, safeRoots_iff h⟩

/-- **Two slashes are the top of the file system**, and accepted. -/
theorem slashes_accepted : ∃ config,
    validate asciiDecimals checkout (withRoot .generic "REMOTE_ROOT" "//") defaultProfile =
        .ok config ∧
      ¬SafeRoots checkout (withRoot .generic "REMOTE_ROOT" "//") config.deployment.mode := by
  obtain ⟨config, h⟩ := validate_withRoot .generic "REMOTE_ROOT" "//" (by decide)
  refine ⟨config, h, fun hsafe => ?_⟩
  have hvalue : (withRoot .generic "REMOTE_ROOT" "//").value "REMOTE_ROOT" = "//" := by
    decide
  have htop := (hsafe.safe "REMOTE_ROOT" (by decide) (by rw [hvalue]; decide)).notTop
  rw [hvalue] at htop
  exact htop (by decide)

end DgxSpark
