import DgxSpark.Deploy.Mounts
import DgxSpark.Lifecycle.Apply

/-!
# Where the model is

The directory of the model is worked out four times: by the renderer, as the source and the
destination of a mount; by the preflight, which reads the files in it; by the staging, which puts
the marker there; and by the verification, which asks Docker for the mount. Each time the last
component of the root is compared with that of the model path.

The four agree (`DgxSpark.coherent_iff`) for every spelling of the root and both layouts, except
where Docker reads another source than the renderer wrote.
-/

namespace DgxSpark

variable {decimals : Decimals} {repository : PosixPath} {values : EnvValues} {profile : Profile}

/-! ### The four directories -/

/-- The directory that a mount exposes at a path, if the path is at or below its destination. -/
def exposedAt (source target path : String) : Option (List String) :=
  if (normalForm target).isPrefixOf (normalForm path) then
    some (normalForm source ++ (normalForm path).drop (normalForm target).length)
  else none

/-- The directory at the model path inside the container: the first mount is that of the model. -/
def mountedDirectory (contract : Contract) : Option (List String) := do
  let value ← (mountValues (createOptions contract.containerArgv contract.serviceArgv)).head?
  let mount ← parseMount value
  exposedAt mount.source mount.target contract.modelPath

/-- The name of the marker. -/
def markerName : String :=
  ".model-lock.sha256"

/-- **One directory for the model**: the one that is mounted is the one whose marker and files the
preflight reads, into which the marker is staged, and whose mount is verified. -/
structure Coherent (config : Config) (role : Role) (contract head : Contract)
    (directory : List String) : Prop where
  mounted : mountedDirectory contract = some directory
  marker : normalForm ((modelDirectory config contract).child markerName).text =
    directory ++ [markerName]
  files : ∀ file ∈ modelFiles,
    normalForm ((modelDirectory config contract).child file).text = directory ++ [file]
  readable : normalForm (modelDirectory config contract).text = directory
  staged : ∀ (lock : Lock) (gid : Option Int) (files : List StagedFile),
    stagedFiles config lock role gid contract head = .ok files →
      ∃ file ∈ files, file.name = "model.lock.sha256" ∧
        normalForm file.destination = directory ++ [markerName]
  verified : exposedAt contract.modelRoot (modelDestination contract) contract.modelPath =
    some directory

/-! ### The parts of a contract -/

/-- What a contract says about the model, and the commands it has. -/
structure ModelContract (config : Config) (contract : Contract) : Prop where
  path_eq : contract.modelPath = defaultModelContainerPath
  root_eq : contract.modelRoot = config.deployment.modelRoot
  value_eq : (mountValues (createOptions contract.containerArgv contract.serviceArgv)).head? =
    some (bindMount config.deployment.modelRoot
      (reviewedDestination config.deployment.modelRoot) true)

theorem modelContract {config : Config} {role : Role} {lock : Option Lock} {gid : Option Int}
    {contract : Contract} (hpath : config.deployment.modelContainerPath = defaultModelContainerPath)
    (h : renderContract config role lock gid = .ok contract) : ModelContract config contract := by
  obtain ⟨fabric, -, h⟩ := except_bind_eq_ok.1 h
  obtain ⟨path, hmodel, h⟩ := except_bind_eq_ok.1 h
  obtain ⟨command, hcommand, h⟩ := except_bind_eq_ok.1 h
  obtain ⟨argv, hargv, h⟩ := except_bind_eq_ok.1 h
  obtain rfl := Except.ok.inj h
  obtain ⟨destination, hdestination, hvalues⟩ := mountValues_renderContainerArgv hcommand hargv
  obtain rfl := modelMountDestination_eq hpath hdestination
  refine ⟨?_, rfl, ?_⟩
  · rw [modelPath] at hmodel
    split_ifs at hmodel with hne
    rw [not_not, hpath] at hne
    exact (Except.ok.inj hmodel).symm.trans hne.symm
  · change (mountValues (createOptions argv command)).head? = _
    rw [hvalues]
    rfl

/-! ### The directory of the preflight -/

instance (part : String) : Decidable (PosixPath.CleanPart part) :=
  inferInstanceAs (Decidable (_ ∧ _ ∧ _))

/-- The name of the model in its path. -/
def modelName : String :=
  (PosixPath.parse defaultModelContainerPath).name

theorem modelDirectory_eq {config : Config} {contract : Contract}
    (h : contract.modelPath = defaultModelContainerPath) :
    modelDirectory config contract =
      if (PosixPath.parse config.deployment.modelRoot).name = modelName
      then PosixPath.parse config.deployment.modelRoot
      else (PosixPath.parse config.deployment.modelRoot).child modelName := by
  rw [modelDirectory, h]
  rfl

/-- A path that can be read back from its text. -/
structure Readable (p : PosixPath) : Prop where
  root : p.root = "" ∨ p.root = "/" ∨ p.root = "//"
  clean : ∀ part ∈ p.parts, PosixPath.CleanPart part

theorem readable_parse (s : String) : Readable (PosixPath.parse s) :=
  ⟨PosixPath.root_parse s, fun _ h => PosixPath.cleanPart_of_mem_parse h⟩

theorem Readable.child {p : PosixPath} (h : Readable p) {name : String}
    (hname : PosixPath.CleanPart name) : Readable (p.child name) := by
  refine ⟨h.root, fun part hpart => ?_⟩
  rcases List.mem_append.1 hpart with hpart | hpart
  · exact h.clean part hpart
  · rwa [List.mem_singleton.1 hpart]

theorem Readable.normalForm {p : PosixPath} (h : Readable p) (hne : p.parts ≠ []) :
    normalForm p.text = p.parts := by
  rw [DgxSpark.normalForm, PosixPath.parse_text h.root hne h.clean]

theorem cleanPart_modelName : PosixPath.CleanPart modelName := by decide

theorem readable_modelDirectory {config : Config} {contract : Contract}
    (h : contract.modelPath = defaultModelContainerPath) :
    Readable (modelDirectory config contract) := by
  rw [modelDirectory_eq h]
  split_ifs
  · exact readable_parse _
  · exact (readable_parse _).child cleanPart_modelName

theorem parts_modelDirectory_ne {config : Config} {contract : Contract}
    (h : contract.modelPath = defaultModelContainerPath) :
    (modelDirectory config contract).parts ≠ [] := by
  rw [modelDirectory_eq h]
  split_ifs with hname
  · intro hnil
    rw [PosixPath.name, hnil] at hname
    exact absurd hname (by decide)
  · simp [PosixPath.child]

/-- A file in the model directory. -/
theorem normalForm_modelFile {config : Config} {contract : Contract}
    (h : contract.modelPath = defaultModelContainerPath) {name : String}
    (hname : PosixPath.CleanPart name) :
    normalForm ((modelDirectory config contract).child name).text =
      (modelDirectory config contract).parts ++ [name] :=
  ((readable_modelDirectory h).child hname).normalForm (by simp [PosixPath.child])

/-! ### The directory that is mounted -/

/-- The reviewed destination exposes the model directory of a root. -/
theorem exposedAt_reviewedDestination {config : Config} {contract : Contract}
    (h : contract.modelPath = defaultModelContainerPath) :
    exposedAt config.deployment.modelRoot (reviewedDestination config.deployment.modelRoot)
      contract.modelPath = some (modelDirectory config contract).parts := by
  have hpath : normalForm defaultModelContainerPath = ["models", modelName] := by decide
  have hmodels : normalForm "/models" = ["models"] := by decide
  rw [modelDirectory_eq h, h, reviewedDestination, ← modelName, exposedAt]
  split_ifs with hname hprefix hprefix
  · rw [hpath]
    simp [normalForm]
  · exact absurd (by simp) hprefix
  · rw [hpath, hmodels]
    simp [normalForm, PosixPath.child]
  · rw [hpath, hmodels] at hprefix
    exact absurd (by simp) hprefix

/-- A mount exposes the letters of its source, and of the end of the path. -/
theorem count_exposedAt {source target path : String} {directory : List String}
    (h : exposedAt source target path = some directory) {c : Char} (hslash : c ≠ '/')
    (hdot : c ≠ '.') (hpath : c ∉ path.toList) :
    (directory.flatMap String.toList).count c = source.toList.count c := by
  rw [exposedAt] at h
  split_ifs at h
  obtain rfl := Option.some.inj h
  have hrest : ((normalForm path).drop (normalForm target).length).flatMap String.toList ⊆
      (normalForm path).flatMap String.toList :=
    fun d hd => by
      obtain ⟨part, hpart, hd⟩ := List.mem_flatMap.1 hd
      exact List.mem_flatMap.2 ⟨part, List.mem_of_mem_drop hpart, hd⟩
  have hnone : c ∉ (normalForm path).flatMap String.toList := by
    rw [← List.count_eq_zero, normalForm, PosixPath.count_parse hslash hdot,
      List.count_eq_zero]
    exact hpath
  rw [List.flatMap_append, List.count_append, normalForm, PosixPath.count_parse hslash hdot,
    List.count_eq_zero.2 fun hmem => hnone (hrest hmem), Nat.add_zero]

/-- The model directory has the letters of the root. -/
theorem count_modelDirectory {config : Config} {contract : Contract}
    (h : contract.modelPath = defaultModelContainerPath) {c : Char} (hslash : c ≠ '/')
    (hdot : c ≠ '.') (hname : c ∉ modelName.toList) :
    ((modelDirectory config contract).parts.flatMap String.toList).count c =
      config.deployment.modelRoot.toList.count c := by
  rw [modelDirectory_eq h]
  split_ifs
  · exact PosixPath.count_parse hslash hdot _
  · rw [PosixPath.child, List.flatMap_append, List.flatMap_singleton, List.count_append,
      PosixPath.count_parse hslash hdot, List.count_eq_zero.2 hname, Nat.add_zero]

/-! ### Coherence -/

/-- With a plain root there is one directory. -/
theorem coherent_of_plain {config : Config} {role : Role} {contract head : Contract}
    (hcontract : ModelContract config contract) (hhead : ModelContract config head)
    (hplain : PlainText config.deployment.modelRoot) :
    Coherent config role contract head (modelDirectory config contract).parts := by
  have hmarker : PosixPath.CleanPart markerName := by decide
  have hfiles : ∀ file ∈ modelFiles, PosixPath.CleanPart file := by decide
  have hsame : modelDirectory config head = modelDirectory config contract := by
    rw [modelDirectory_eq hhead.path_eq, modelDirectory_eq hcontract.path_eq]
  refine ⟨?_, normalForm_modelFile hcontract.path_eq hmarker,
    fun file hfile => normalForm_modelFile hcontract.path_eq (hfiles file hfile),
    (readable_modelDirectory hcontract.path_eq).normalForm
      (parts_modelDirectory_ne hcontract.path_eq), ?_, ?_⟩
  · rw [mountedDirectory, hcontract.value_eq, Option.bind_eq_bind, Option.bind_some,
      parseMount_of_plain true hplain (plainText_reviewedDestination _), Option.bind_eq_bind,
      Option.bind_some]
    exact exposedAt_reviewedDestination hcontract.path_eq
  · intro lock gid files hstaged
    obtain ⟨text, -, hstaged⟩ := except_bind_eq_ok.1 hstaged
    obtain rfl := Except.ok.inj hstaged
    refine ⟨_, List.mem_cons_of_mem _ (List.mem_cons_of_mem _ List.mem_cons_self), rfl, ?_⟩
    rw [← hsame]
    exact normalForm_modelFile hhead.path_eq hmarker
  · rw [modelDestination, hcontract.root_eq, hcontract.path_eq, ← reviewedDestination,
      ← hcontract.path_eq]
    exact exposedAt_reviewedDestination hcontract.path_eq

/-- **A root that is not plain is mounted elsewhere**, or not at all. -/
theorem not_coherent {config : Config} {role : Role} {contract head : Contract}
    (hcontract : ModelContract config contract)
    (hplain : ¬PlainText config.deployment.modelRoot) (directory : List String) :
    ¬Coherent config role contract head directory := by
  intro h
  have hname : PlainText modelName := by decide
  have hpath : PlainText contract.modelPath := by
    rw [hcontract.path_eq]
    decide
  obtain rfl : directory = (modelDirectory config contract).parts :=
    h.readable.symm.trans ((readable_modelDirectory hcontract.path_eq).normalForm
      (parts_modelDirectory_ne hcontract.path_eq))
  have hmounted := h.mounted
  rw [mountedDirectory, hcontract.value_eq, Option.bind_eq_bind, Option.bind_some] at hmounted
  obtain ⟨mount, hmount, hexposed⟩ := Option.bind_eq_some_iff.1 hmounted
  have hcount : ∀ c : Char, c ≠ '/' → c ≠ '.' → c ∉ contract.modelPath.toList →
      c ∉ modelName.toList →
        mount.source.toList.count c = config.deployment.modelRoot.toList.count c := by
    intro c hslash hdot hnone hnone'
    rw [← count_exposedAt hexposed hslash hdot hnone,
      count_modelDirectory hcontract.path_eq hslash hdot hnone']
  have hcommas := hcount ',' (by decide) (by decide) hpath.1 hname.1
  have hquotes := hcount '"' (by decide) (by decide) hpath.2 hname.2
  obtain ⟨hcomma, hnone | hless⟩ :=
    source_bindMount (plainText_reviewedDestination _) hplain hmount
  · rw [List.count_eq_zero.2 hnone] at hcommas
    exact List.count_eq_zero.1 hcommas.symm hcomma
  · exact absurd hquotes (Nat.ne_of_lt hless)

/-- **The four directories of the model are one** if and only if neither a comma nor a quote
occurs in the model root. -/
theorem coherent_iff {config : Config} {role : Role} {lock : Option Lock} {gid gid' : Option Int}
    {contract head : Contract} (h : validate decimals repository values profile = .ok config)
    (hcontract : renderContract config role lock gid = .ok contract)
    (hhead : renderContract config .head lock gid' = .ok head) :
    (∃ directory, Coherent config role contract head directory) ↔
      PlainText config.deployment.modelRoot := by
  obtain ⟨steps, rfl⟩ := validate_eq_ok h
  have hpath : steps.config.deployment.modelContainerPath = defaultModelContainerPath :=
    validateArtifacts_ok steps.artifacts_ok
  have hmodel := modelContract hpath hcontract
  constructor
  · rintro ⟨directory, hcoherent⟩
    by_contra hplain
    exact not_coherent hmodel hplain directory hcoherent
  · intro hplain
    exact ⟨_, coherent_of_plain hmodel (modelContract hpath hhead) hplain⟩

theorem contract_withRoot (mode : Mode) (key root : String) (p : Config → Contract → Bool)
    (h : ((validate asciiDecimals checkout (withRoot mode key root) defaultProfile).toOption.any
      fun config => (renderContract config .head (some candidateLock) none).toOption.any fun c =>
        p config c) = true) :
    ∃ config contract,
      validate asciiDecimals checkout (withRoot mode key root) defaultProfile = .ok config ∧
      renderContract config .head (some candidateLock) none = .ok contract ∧
      p config contract = true := by
  obtain ⟨config, hconfig, h⟩ := (Option.any_eq_true _ _).1 h
  obtain ⟨contract, hcontract, h⟩ := (Option.any_eq_true _ _).1 h
  exact ⟨config, contract, eq_ok_of_toOption hconfig, eq_ok_of_toOption hcontract, h⟩

/-- A root spelled with dots and slashes, named like the model. -/
theorem namedRoot_coherent : ∃ config contract,
    validate asciiDecimals checkout
        (withRoot .candidate "MODEL_ROOT" "/srv//models/./DeepSeek-V4-Flash-0731/")
        defaultProfile = .ok config ∧
      renderContract config .head (some candidateLock) none = .ok contract ∧
      ((∃ directory, Coherent config .head contract contract directory) ↔
        PlainText config.deployment.modelRoot) := by
  obtain ⟨config, contract, h, hcontract, -⟩ := contract_withRoot .candidate "MODEL_ROOT"
    "/srv//models/./DeepSeek-V4-Flash-0731/" (fun _ _ => true) (by decide +kernel)
  exact ⟨config, contract, h, hcontract, coherent_iff h hcontract hcontract⟩

/-- **The files that are checked are not the files that are mounted.** -/
theorem etc_exposed : ∃ config contract,
    validate asciiDecimals checkout (withRoot .candidate "MODEL_ROOT" "/srv/models,src=/etc")
        defaultProfile = .ok config ∧
      renderContract config .head (some candidateLock) none = .ok contract ∧
      mountedDirectory contract = some ["etc", "DeepSeek-V4-Flash-0731"] ∧
      normalForm (modelDirectory config contract).text =
        ["srv", "models,src=", "etc", "DeepSeek-V4-Flash-0731"] ∧
      ¬∃ directory, Coherent config .head contract contract directory := by
  obtain ⟨config, contract, h, hcontract, hvalues⟩ := contract_withRoot .candidate "MODEL_ROOT"
    "/srv/models,src=/etc" (fun config contract =>
      decide (mountedDirectory contract = some ["etc", "DeepSeek-V4-Flash-0731"] ∧
        normalForm (modelDirectory config contract).text =
          ["srv", "models,src=", "etc", "DeepSeek-V4-Flash-0731"] ∧
        config.deployment.modelContainerPath = defaultModelContainerPath ∧
        ¬PlainText config.deployment.modelRoot)) (by decide +kernel)
  obtain ⟨hmounted, hread, hpath, hplain⟩ := of_decide_eq_true hvalues
  exact ⟨config, contract, h, hcontract, hmounted, hread, fun ⟨directory, hcoherent⟩ =>
    not_coherent (modelContract hpath hcontract) hplain directory hcoherent⟩

end DgxSpark
