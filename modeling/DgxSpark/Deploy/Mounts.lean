import DgxSpark.Deploy.Roots
import DgxSpark.Deploy.Render
import DgxSpark.Lib.Csv

/-!
# The mounts of a container

What Docker makes of the `--mount` options of a rendered command (`DgxSpark.parseMount`): a value
is one record of comma-separated fields, each a key with a value or a flag.

The renderer puts the operator's directories into these records as they are. Nothing in their
validation excludes the two characters that records are made of, and `DgxSpark.mounts_iff` says
that only those do harm: the mounts are what was meant if and only if neither a comma nor a quote
occurs in the model, the cache or the remote root.
-/

namespace DgxSpark

variable {decimals : Decimals} {repository : PosixPath} {values : EnvValues} {profile : Profile}

/-! ### Reading a mount -/

/-- A mount as Docker reads it, with the fields that set something else. -/
structure Mount where
  type : String
  source : String
  target : String
  readOnly : Bool
  others : List String
deriving DecidableEq

/-- The truth values of a flag that is given one. -/
def parseBool (value : String) : Option Bool :=
  if value ∈ ["1", "t", "T", "TRUE", "true", "True"] then some true
  else if value ∈ ["0", "f", "F", "FALSE", "false", "False"] then some false
  else none

/-- One field of a mount. -/
def mountField (mount : Mount) (field : String) : Option Mount :=
  match Text.cut '=' field with
  | none =>
    if Text.lower field ∈ ["readonly", "ro"] then some { mount with readOnly := true }
    else some { mount with others := mount.others ++ [field] }
  | some (key, value) =>
    if Text.lower key = "type" then some { mount with type := Text.lower value }
    else if Text.lower key ∈ ["source", "src"] then some { mount with source := value }
    else if Text.lower key ∈ ["target", "dst", "destination"] then
      some { mount with target := value }
    else if Text.lower key ∈ ["readonly", "ro"] then
      (parseBool value).map fun flag => { mount with readOnly := flag }
    else some { mount with others := mount.others ++ [field] }

/-- The value of a `--mount` option. -/
def parseMount (value : String) : Option Mount := do
  let fields ← Csv.record value
  fields.foldlM mountField ⟨"volume", "", "", false, []⟩

/-- The options of a `docker container create` command: what is before the image and the command
of the service. -/
def createOptions (argv command : List String) : List String :=
  (argv.take (argv.length - command.length - 1)).drop 3

/-- The options without a value. -/
def createFlags : List String :=
  ["--privileged", "--read-only"]

/-- The values of the `--mount` options. -/
def mountValues : List String → List String
  | [] | [_] => []
  | option :: value :: rest =>
    if option ∈ createFlags then mountValues (value :: rest)
    else if option = "--mount" then value :: mountValues rest
    else mountValues rest

/-! ### What is meant -/

/-- The reviewed destination of the model root: the model path, if the root is named like the
model, and the directory above it otherwise. -/
def reviewedDestination (root : String) : String :=
  if (PosixPath.parse root).name = (PosixPath.parse defaultModelContainerPath).name
  then defaultModelContainerPath else "/models"

/-- The mounts that a container is to have. -/
def intendedMounts (config : Config) (role : Role) : List Mount :=
  ⟨"bind", config.deployment.modelRoot, reviewedDestination config.deployment.modelRoot, true,
    []⟩ ::
  (cacheMounts.map fun p => ⟨"bind", cacheRoot config role ++ "/" ++ p.1, p.2, false, []⟩) ++
  [⟨"bind", remoteContractPath config role, "/etc/dgx-spark/service-contract.json", true, []⟩]

/-- A directory with none of the two characters. -/
def PlainText (s : String) : Prop :=
  Csv.PlainField s.toList

instance (s : String) : Decidable (PlainText s) :=
  inferInstanceAs (Decidable (_ ∧ _))

/-! ### One mount -/

theorem cut_field {key : String} (h : '=' ∉ key.toList) (value : String) :
    Text.cut '=' (key ++ "=" ++ value) = some (key, value) := by
  have hchars : (key ++ "=" ++ value).toList = key.toList ++ '=' :: value.toList := by simp
  rw [Text.cut, Text.chars_eq, hchars, Text.cutAt_append h]
  simp

/-- A field leaves the source as it is, or it ends with the new one. -/
theorem source_mountField {mount next : Mount} {field : String}
    (h : mountField mount field = some next) :
    next.source = mount.source ∨ next.source.toList <:+ field.toList := by
  rw [mountField] at h
  split at h
  · split_ifs at h <;> exact .inl (by rw [← Option.some.inj h])
  · next key value hcut =>
    split_ifs at h
    · exact .inl (by rw [← Option.some.inj h])
    · obtain rfl := Option.some.inj h
      exact .inr ⟨key.toList ++ ['='], by rw [Text.cut_eq_some hcut, List.append_assoc,
        List.singleton_append]⟩
    · exact .inl (by rw [← Option.some.inj h])
    · obtain ⟨flag, -, rfl⟩ := Option.map_eq_some_iff.1 h
      exact .inl rfl
    · exact .inl (by rw [← Option.some.inj h])

/-- The source of a mount is the first one or ends a field. -/
theorem source_foldlM {mount last : Mount} {fields : List String}
    (h : fields.foldlM mountField mount = some last) :
    last.source = mount.source ∨ ∃ field ∈ fields, last.source.toList <:+ field.toList := by
  induction fields generalizing mount with
  | nil => exact .inl (by rw [← Option.some.inj h])
  | cons field fields ih =>
    rw [List.foldlM_cons] at h
    obtain ⟨next, hnext, h⟩ := Option.bind_eq_some_iff.1 h
    rcases ih h with hsource | ⟨other, hmem, hsuffix⟩
    · rcases source_mountField hnext with hnone | hsuffix
      · exact .inl (hsource.trans hnone)
      · exact .inr ⟨field, List.mem_cons_self, by rwa [hsource]⟩
    · exact .inr ⟨other, List.mem_cons_of_mem _ hmem, hsuffix⟩

/-- **A comma costs quotes**: the source that is read has no comma, or fewer quotes than the
value. -/
theorem source_parseMount {value : String} {mount : Mount} (h : parseMount value = some mount) :
    ',' ∉ mount.source.toList ∨ mount.source.toList.count '"' < value.toList.count '"' := by
  obtain ⟨fields, hfields, h⟩ := Option.bind_eq_some_iff.1 h
  rcases source_foldlM h with hsource | ⟨field, hfield, hsuffix⟩
  · rw [hsource]
    exact .inl List.not_mem_nil
  · rcases Csv.mem_record hfields hfield with hcomma | hquotes
    · exact .inl fun hmem => hcomma (hsuffix.subset hmem)
    · exact .inr (Nat.lt_of_le_of_lt (hsuffix.sublist.count_le _) hquotes)

/-- The fields of a rendered `--mount` value. -/
def bindFields (source target : String) (readOnly : Bool) : List String :=
  ["type=bind", "src=" ++ source, "dst=" ++ target] ++ if readOnly then ["readonly"] else []

/-- A rendered `--mount` value. -/
def bindMount (source target : String) (readOnly : Bool) : String :=
  String.intercalate "," (bindFields source target readOnly)

theorem toList_bindMount (source target : String) (readOnly : Bool) :
    (bindMount source target readOnly).toList = "type=bind,src=".toList ++ (source.toList ++
      (",dst=".toList ++ (target.toList ++ if readOnly then ",readonly".toList else []))) := by
  rw [bindMount, String.toList_intercalate, bindFields]
  cases readOnly <;> simp

theorem bindMount_true (source target : String) : bindMount source target true =
    "type=bind,src=" ++ source ++ ",dst=" ++ target ++ ",readonly" := by
  rw [← String.toList_inj, toList_bindMount]
  simp

theorem bindMount_false (source target : String) : bindMount source target false =
    "type=bind,src=" ++ source ++ ",dst=" ++ target := by
  rw [← String.toList_inj, toList_bindMount]
  simp

theorem PlainText.append {s t : String} (hs : PlainText s) (ht : PlainText t) :
    PlainText (s ++ t) := by
  obtain ⟨hs, hs'⟩ := hs
  obtain ⟨ht, ht'⟩ := ht
  exact ⟨by simp [hs, ht], by simp [hs', ht']⟩

theorem plainText_bindFields {source target : String} (readOnly : Bool)
    (hsource : PlainText source) (htarget : PlainText target) :
    ∀ field ∈ bindFields source target readOnly, PlainText field := by
  have htype : PlainText "type=bind" := by decide
  have hsrc : PlainText "src=" := by decide
  have hdst : PlainText "dst=" := by decide
  have hflag : PlainText "readonly" := by decide
  intro field hfield
  rcases List.mem_append.1 hfield with hfield | hfield
  · simp only [List.mem_cons, List.not_mem_nil, or_false] at hfield
    rcases hfield with rfl | rfl | rfl
    · exact htype
    · exact hsrc.append hsource
    · exact hdst.append htarget
  · cases readOnly with
    | true =>
      obtain rfl := List.mem_singleton.1 hfield
      exact hflag
    | false => exact absurd hfield List.not_mem_nil

theorem mountField_type (mount : Mount) :
    mountField mount "type=bind" = some { mount with type := "bind" } := by
  have hcut : Text.cut '=' "type=bind" = some ("type", "bind") := by decide
  have hlower : Text.lower "bind" = "bind" := by decide
  have hkey : Text.lower "type" = "type" := by decide
  rw [mountField, hcut]
  simp only [hkey, hlower, if_true]

theorem mountField_src (mount : Mount) (source : String) :
    mountField mount ("src=" ++ source) = some { mount with source := source } := by
  have hcut := @cut_field "src" (by decide) source
  have hkey : Text.lower "src" = "src" := by decide
  have hword : "src=" = "src" ++ "=" := by decide
  rw [hword, mountField, hcut]
  simp [hkey]

theorem mountField_dst (mount : Mount) (target : String) :
    mountField mount ("dst=" ++ target) = some { mount with target := target } := by
  have hcut := @cut_field "dst" (by decide) target
  have hkey : Text.lower "dst" = "dst" := by decide
  have hword : "dst=" = "dst" ++ "=" := by decide
  rw [hword, mountField, hcut]
  simp [hkey]

theorem mountField_readonly (mount : Mount) :
    mountField mount "readonly" = some { mount with readOnly := true } := by
  have hcut : Text.cut '=' "readonly" = none := by decide
  have hkey : Text.lower "readonly" = "readonly" := by decide
  rw [mountField, hcut]
  simp [hkey]

/-- **A rendered mount is what was meant** if its source is plain. -/
theorem parseMount_of_plain {source target : String} (readOnly : Bool)
    (hsource : PlainText source) (htarget : PlainText target) :
    parseMount (bindMount source target readOnly) =
      some ⟨"bind", source, target, readOnly, []⟩ := by
  have hfields : bindFields source target readOnly ≠ [] := by simp [bindFields]
  rw [parseMount, bindMount,
    Csv.record_intercalate hfields (plainText_bindFields readOnly hsource htarget),
    Option.bind_eq_bind, Option.bind_some, bindFields, List.foldlM_append]
  simp only [List.foldlM_cons, List.foldlM_nil, mountField_type, mountField_src, mountField_dst,
    Option.bind_eq_bind, Option.bind_some, Option.pure_def]
  cases readOnly with
  | true =>
    rw [if_pos rfl, List.foldlM_cons, mountField_readonly]
    rfl
  | false => rfl

/-- A value whose source has a quote and no comma is not read at all. -/
theorem parseMount_of_quote {source target : String} {readOnly : Bool}
    (hcomma : ',' ∉ source.toList) (hquote : '"' ∈ source.toList) :
    parseMount (bindMount source target readOnly) = none := by
  obtain ⟨before, after, hsource, hbefore⟩ := List.eq_append_cons_of_mem hquote
  rw [hsource, List.mem_append, not_or] at hcomma
  have htype : PlainText "type=bind" := by decide
  have hplain : Csv.PlainField ("src=".toList ++ before) :=
    ⟨by simp [hcomma.1], by simp [hbefore]⟩
  have hvalue : ∃ rest, (bindMount source target readOnly).toList =
      "type=bind".toList ++ ',' :: (("src=".toList ++ before) ++ '"' :: rest) := by
    refine ⟨after ++ (",dst=".toList ++ (target.toList ++
      if readOnly then ",readonly".toList else [])), ?_⟩
    have hlit : "type=bind,src=".toList = "type=bind".toList ++ ',' :: "src=".toList := by
      decide
    rw [toList_bindMount, hsource, hlit]
    simp only [List.append_assoc, List.cons_append]
  obtain ⟨rest, hvalue⟩ := hvalue
  rw [parseMount, Csv.record, hvalue, Csv.readFields_comma htype,
    Csv.readFields_bare hplain (by simp)]
  rfl

/-- What is read of a value whose source is not plain, if anything, has another source: one
without the comma, or one with fewer quotes. -/
theorem source_bindMount {source target : String} {readOnly : Bool} {mount : Mount}
    (htarget : PlainText target) (hsource : ¬PlainText source)
    (h : parseMount (bindMount source target readOnly) = some mount) :
    ',' ∈ source.toList ∧
      (',' ∉ mount.source.toList ∨ mount.source.toList.count '"' < source.toList.count '"') := by
  have hcomma : ',' ∈ source.toList := by
    by_contra hcomma
    by_cases hquote : '"' ∈ source.toList
    · rw [parseMount_of_quote hcomma hquote] at h
      cases h
    · exact hsource ⟨hcomma, hquote⟩
  have hcount : (bindMount source target readOnly).toList.count '"' = source.toList.count '"' := by
    have hnone := List.count_eq_zero.2 htarget.2
    rw [toList_bindMount]
    cases readOnly <;> simp [hnone]
  refine ⟨hcomma, ?_⟩
  rw [← hcount]
  exact source_parseMount h

/-- **A rendered mount is what was meant** if and only if its source is plain. -/
theorem parseMount_bindMount {source target : String} {readOnly : Bool}
    (htarget : PlainText target) :
    parseMount (bindMount source target readOnly) = some ⟨"bind", source, target, readOnly, []⟩ ↔
      PlainText source := by
  constructor
  · intro h
    by_contra hsource
    obtain ⟨hcomma, hnone | hless⟩ := source_bindMount htarget hsource h
    · exact hnone hcomma
    · exact Nat.lt_irrefl _ hless
  · intro hsource
    exact parseMount_of_plain readOnly hsource htarget

/-! ### The rendered options -/

/-- Options that mount nothing, whatever follows. -/
def Silent (words : List String) : Prop :=
  ∀ rest, mountValues (words ++ rest) = mountValues rest

theorem Silent.append {a b : List String} (ha : Silent a) (hb : Silent b) : Silent (a ++ b) := by
  intro rest
  rw [List.append_assoc, ha, hb]

theorem Silent.flatten {words : List (List String)} (h : ∀ w ∈ words, Silent w) :
    Silent words.flatten := by
  induction words with
  | nil => exact fun _ => rfl
  | cons w words ih =>
    obtain ⟨hw, hwords⟩ := List.forall_mem_cons.1 h
    exact hw.append (ih hwords)

theorem silent_option {option : String} (h : option ∉ createFlags) (hmount : option ≠ "--mount")
    (value : String) : Silent [option, value] := by
  intro rest
  rw [List.cons_append, List.cons_append, List.nil_append, mountValues, if_neg h, if_neg hmount]

theorem silent_flag {option : String} (h : option ∈ createFlags) {words : List String}
    (hne : words ≠ []) (hwords : Silent words) : Silent (option :: words) := by
  intro rest
  obtain ⟨word, words, rfl⟩ := List.exists_cons_of_ne_nil hne
  rw [List.cons_append, List.cons_append, mountValues, if_pos h, ← List.cons_append, hwords]

theorem mountValues_mount (value : String) (rest : List String) :
    mountValues ("--mount" :: value :: rest) = value :: mountValues rest := by
  rw [mountValues, if_neg (by decide), if_pos rfl]

theorem mountValues_mounts {α : Type} (mounts : List α) (value : α → String) (rest : List String) :
    mountValues ((mounts.flatMap fun m => ["--mount", value m]) ++ rest) =
      mounts.map value ++ mountValues rest := by
  induction mounts with
  | nil => rfl
  | cons m mounts ih =>
    rw [List.flatMap_cons, List.append_assoc, List.cons_append, List.cons_append, List.nil_append,
      mountValues_mount, ih, List.map_cons, List.cons_append]

theorem createOptions_append (options command : List String) (image : String) :
    createOptions (["docker", "container", "create"] ++ options ++ image :: command) command =
      options := by
  have hlength : (["docker", "container", "create"] ++ options ++ image :: command).length -
      command.length - 1 = (["docker", "container", "create"] ++ options).length := by
    simp only [List.length_append, List.length_cons, List.length_nil]
    omega
  rw [createOptions, hlength, List.take_left']
  · rfl
  · rfl

theorem silent_labels {labels : Labels} {required : List (List String)}
    (h : (requiredImageLabels.mapM fun key => do
      let value ← labelValue labels key
      return ["--label", key ++ "=" ++ value]) = Except.ok required) :
    Silent required.flatten := by
  refine Silent.flatten fun words hwords => ?_
  obtain ⟨key, -, hlabel⟩ := exists_of_mem_mapM h hwords
  obtain ⟨value, -, hlabel⟩ := except_bind_eq_ok.1 hlabel
  obtain rfl := Except.ok.inj hlabel
  exact silent_option (by decide) (by decide) _

theorem silent_environment (environment : List (String × String)) :
    Silent (environment.flatMap fun p => ["--env", p.1 ++ "=" ++ p.2]) := by
  rw [List.flatMap_def]
  refine Silent.flatten fun words hwords => ?_
  obtain ⟨p, -, rfl⟩ := List.mem_map.1 hwords
  exact silent_option (by decide) (by decide) _

/-- The source, the destination and the flag of each mount of a container. -/
def mountPlan (config : Config) (role : Role) (destination : String) :
    List (String × String × Bool) :=
  (config.deployment.modelRoot, destination, true) ::
    (cacheMounts.map fun p => (cacheRoot config role ++ "/" ++ p.1, p.2, false)) ++
    [(remoteContractPath config role, "/etc/dgx-spark/service-contract.json", true)]

/-- **What is mounted**: the model, the caches and the contract. -/
theorem mountValues_renderContainerArgv {config : Config} {role : Role} {lock : Option Lock}
    {gid : Option Int} {argv command : List String}
    (hcommand : renderServiceArgv config role = .ok command)
    (h : renderContainerArgv config role lock gid = .ok argv) :
    ∃ destination, modelMountDestination config = .ok destination ∧
      mountValues (createOptions argv command) =
        (mountPlan config role destination).map fun p => bindMount p.1 p.2.1 p.2.2 := by
  obtain ⟨required, hrequired, h⟩ := except_bind_eq_ok.1 h
  obtain ⟨destination, hdestination, h⟩ := except_bind_eq_ok.1 h
  obtain ⟨serviceArgv, hservice, h⟩ := except_bind_eq_ok.1 h
  obtain rfl := Except.ok.inj (hcommand.symm.trans hservice)
  obtain rfl := Except.ok.inj h
  refine ⟨destination, hdestination, ?_⟩
  have hoption : ∀ option value : String, option ∉ createFlags → option ≠ "--mount" →
      Silent [option, value] := fun _ value h hmount => silent_option h hmount value
  have hstart : Silent ["--name", containerName config role, "--hostname",
      containerName config role, "--network", "host", "--ipc", "host", "--gpus", "all",
      "--shm-size", "68719476736", "--workdir", "/workspace/vllm", "--ulimit", "memlock=-1",
      "--ulimit", "nofile=1048576:1048576", "--label",
      "com.dgx-spark.deployment_id=" ++ deploymentId config, "--label",
      "com.dgx-spark.role=" ++ role.text] :=
    (hoption "--name" _ (by decide) (by decide)).append <|
    (hoption "--hostname" _ (by decide) (by decide)).append <|
    (hoption "--network" _ (by decide) (by decide)).append <|
    (hoption "--ipc" _ (by decide) (by decide)).append <|
    (hoption "--gpus" _ (by decide) (by decide)).append <|
    (hoption "--shm-size" _ (by decide) (by decide)).append <|
    (hoption "--workdir" _ (by decide) (by decide)).append <|
    (hoption "--ulimit" _ (by decide) (by decide)).append <|
    (hoption "--ulimit" _ (by decide) (by decide)).append <|
    (hoption "--label" _ (by decide) (by decide)).append <|
    hoption "--label" _ (by decide) (by decide)
  have hisolation : Silent (if config.deployment.mode = .generic
      then ["--read-only", "--security-opt", "no-new-privileges:true"]
      else ["--privileged", "--security-opt", "label=disable"]) := by
    split_ifs
    · exact silent_flag (by decide) (by simp) (hoption _ _ (by decide) (by decide))
    · exact silent_flag (by decide) (by simp) (hoption _ _ (by decide) (by decide))
  have hsilent := (((hstart.append hisolation).append (silent_labels hrequired)).append
    (silent_environment (renderEnvironment config role gid))).append
      (hoption "--env-file" (remoteEnvPath config role) (by decide) (by decide))
  have hcontract : ",dst=/etc/dgx-spark/service-contract.json,readonly" =
      ",dst=" ++ ("/etc/dgx-spark/service-contract.json" ++ ",readonly") := by decide
  have hmounts := mountValues_mounts cacheMounts
    (fun p => bindMount (cacheRoot config role ++ "/" ++ p.1) p.2 false)
    ["--mount", bindMount (remoteContractPath config role)
      "/etc/dgx-spark/service-contract.json" true]
  rw [mountValues_mount] at hmounts
  -- the options are silent ones and mounts
  have hwords := hsilent (["--mount", bindMount config.deployment.modelRoot destination true] ++
    ((cacheMounts.flatMap fun p =>
      ["--mount", bindMount (cacheRoot config role ++ "/" ++ p.1) p.2 false]) ++
    ["--mount", bindMount (remoteContractPath config role)
      "/etc/dgx-spark/service-contract.json" true]))
  rw [mountPlan, List.map_append, List.map_cons, List.map_map]
  refine Eq.trans (congrArg mountValues ((congrArg (createOptions · command) ?_).trans
    (createOptions_append _ command (lockImage lock role config).reference))) (hwords.trans ((mountValues_mount _ _).trans (congrArg _ hmounts)))
  simp only [bindMount_true, bindMount_false, hcontract, String.append_assoc, List.append_assoc,
    List.cons_append, List.nil_append]

/-! ### The mounts of an accepted configuration -/

theorem modelMountDestination_eq {config : Config} {destination : String}
    (hpath : config.deployment.modelContainerPath = defaultModelContainerPath)
    (h : modelMountDestination config = .ok destination) :
    destination = reviewedDestination config.deployment.modelRoot := by
  obtain ⟨path, hmodel, h⟩ := except_bind_eq_ok.1 h
  rw [modelPath] at hmodel
  split_ifs at hmodel with hne
  rw [not_not, hpath] at hne
  obtain rfl := Except.ok.inj hmodel
  rw [← hne] at h
  exact (Except.ok.inj h).symm

theorem plainText_append {s t : String} : PlainText (s ++ t) ↔ PlainText s ∧ PlainText t := by
  simp only [PlainText, Csv.PlainField, String.toList_append, List.mem_append, not_or]
  tauto

/-- The text of a path with a plain name is as plain as its other components. -/
theorem plainText_text_child {p : PosixPath}
    (hroot : p.root = "" ∨ p.root = "/" ∨ p.root = "//") {name : String} (hname : PlainText name) :
    PlainText (p.child name).text ↔ Csv.PlainField (p.parts.flatMap String.toList) := by
  have hcount : ∀ c : Char, c ≠ '/' → c ∉ name.toList →
      (c ∈ (p.child name).text.toList ↔ c ∈ p.parts.flatMap String.toList) := by
    intro c hslash hnone
    rw [← List.count_pos_iff, ← List.count_pos_iff, PosixPath.count_text_child hslash hroot,
      List.count_eq_zero.2 hnone, Nat.add_zero]
  rw [PlainText, Csv.PlainField, Csv.PlainField, hcount ',' (by decide) hname.1,
    hcount '"' (by decide) hname.2]

theorem plainField_parse (root : String) :
    Csv.PlainField ((PosixPath.parse root).parts.flatMap String.toList) ↔ PlainText root := by
  have hcount : ∀ c : Char, c ≠ '/' → c ≠ '.' →
      (c ∈ (PosixPath.parse root).parts.flatMap String.toList ↔ c ∈ root.toList) := by
    intro c hslash hdot
    rw [← List.count_pos_iff, ← List.count_pos_iff, PosixPath.count_parse hslash hdot]
  rw [PlainText, Csv.PlainField, Csv.PlainField, hcount ',' (by decide) (by decide),
    hcount '"' (by decide) (by decide)]

theorem plainText_cacheRoot (config : Config) (role : Role) :
    PlainText (cacheRoot config role) ↔ PlainText config.deployment.cacheRoot := by
  have hhead : PlainText "dgx0" := by decide
  have hworker : PlainText "dgx1" := by decide
  have hroot := PosixPath.root_parse config.deployment.cacheRoot
  cases role with
  | head => exact (plainText_text_child hroot hhead).trans (plainField_parse _)
  | worker => exact (plainText_text_child hroot hworker).trans (plainField_parse _)

theorem plainText_remoteContractPath (config : Config) (role : Role) :
    PlainText (remoteContractPath config role) ↔ PlainText config.deployment.remoteRoot := by
  have hname : PlainText (config.deployment.mode.text ++ "-" ++ role.text ++ ".json") := by
    cases config.deployment.mode <;> cases role <;> decide
  have hcontracts : PlainText "contracts" := by decide
  have hroot : ((PosixPath.parse config.deployment.remoteRoot).child "contracts").root =
      (PosixPath.parse config.deployment.remoteRoot).root := rfl
  rw [remoteContractPath, remoteContractsFile,
    plainText_text_child (hroot ▸ PosixPath.root_parse _) hname, ← plainField_parse, PosixPath.child,
    List.flatMap_append, List.flatMap_singleton, Csv.PlainField, List.mem_append, List.mem_append,
    not_or, not_or]
  constructor
  · rintro ⟨⟨hcomma, -⟩, hquote, -⟩
    exact ⟨hcomma, hquote⟩
  · rintro ⟨hcomma, hquote⟩
    exact ⟨⟨hcomma, hcontracts.1⟩, hquote, hcontracts.2⟩

theorem plainText_reviewedDestination (root : String) : PlainText (reviewedDestination root) := by
  rw [reviewedDestination]
  split_ifs <;> decide

theorem plainText_mountPlan (config : Config) (role : Role) {destination : String} :
    (∀ p ∈ mountPlan config role destination, PlainText p.1) ↔
      PlainText config.deployment.modelRoot ∧ PlainText config.deployment.cacheRoot ∧
        PlainText config.deployment.remoteRoot := by
  have hnames : ∀ p ∈ cacheMounts, PlainText ("/" ++ p.1) := by decide
  have hcaches : (∀ p ∈ cacheMounts, PlainText (cacheRoot config role ++ "/" ++ p.1)) ↔
      PlainText config.deployment.cacheRoot := by
    rw [← plainText_cacheRoot config role]
    constructor
    · intro h
      have hfirst := h ("vllm", "/root/.cache/vllm") (by decide)
      rw [String.append_assoc] at hfirst
      exact (plainText_append.1 hfirst).1
    · intro h p hp
      rw [String.append_assoc]
      exact plainText_append.2 ⟨h, hnames p hp⟩
  rw [mountPlan, List.forall_mem_append, List.forall_mem_cons, List.forall_mem_map,
    List.forall_mem_singleton, hcaches, plainText_remoteContractPath, and_assoc]

/-- **The mounts of a container** are what was meant if and only if neither a comma nor a quote
occurs in the roots. -/
theorem mounts_iff {config : Config} {role : Role} {lock : Option Lock} {gid : Option Int}
    {argv command : List String} (h : validate decimals repository values profile = .ok config)
    (hcommand : renderServiceArgv config role = .ok command)
    (hargv : renderContainerArgv config role lock gid = .ok argv) :
    (mountValues (createOptions argv command)).map parseMount =
        (intendedMounts config role).map some ↔
      PlainText config.deployment.modelRoot ∧ PlainText config.deployment.cacheRoot ∧
        PlainText config.deployment.remoteRoot := by
  obtain ⟨steps, rfl⟩ := validate_eq_ok h
  obtain ⟨destination, hdestination, hvalues⟩ := mountValues_renderContainerArgv hcommand hargv
  obtain rfl := modelMountDestination_eq (validateArtifacts_ok steps.artifacts_ok) hdestination
  have htargets : ∀ p ∈ mountPlan steps.config role
      (reviewedDestination steps.config.deployment.modelRoot), PlainText p.2.1 := by
    have hcaches : ∀ p ∈ cacheMounts, PlainText p.2 := by decide
    have hcontract : PlainText "/etc/dgx-spark/service-contract.json" := by decide
    rw [mountPlan, List.forall_mem_append, List.forall_mem_cons, List.forall_mem_map,
      List.forall_mem_singleton]
    exact ⟨⟨plainText_reviewedDestination _, hcaches⟩, hcontract⟩
  have hintended : intendedMounts steps.config role =
      (mountPlan steps.config role (reviewedDestination steps.config.deployment.modelRoot)).map
        fun p => ⟨"bind", p.1, p.2.1, p.2.2, []⟩ := by
    rw [intendedMounts, mountPlan, List.map_append, List.map_cons, List.map_map]
    rfl
  rw [hvalues, hintended, List.map_map, List.map_map, List.map_inj_left,
    ← plainText_mountPlan steps.config role]
  exact forall₂_congr fun p hp => parseMount_bindMount (htargets p hp)

theorem eq_ok_of_toOption {ε α : Type} {x : Except ε α} {a : α} (h : x.toOption = some a) :
    x = .ok a := by
  cases x with
  | error e => cases h
  | ok b => rw [Option.some.inj h]

theorem rendered_withRoot (mode : Mode) (key root : String)
    (p : Config → List String → List String → Bool) (h : ((validate asciiDecimals checkout (withRoot mode key root)
      defaultProfile).toOption.any fun config =>
        (renderServiceArgv config .head).toOption.any fun command =>
          (renderContainerArgv config .head (some candidateLock) none).toOption.any fun argv =>
            p config command argv) = true) :
    ∃ config command argv,
      validate asciiDecimals checkout (withRoot mode key root) defaultProfile = .ok config ∧
      renderServiceArgv config .head = .ok command ∧
      renderContainerArgv config .head (some candidateLock) none = .ok argv ∧
      p config command argv = true := by
  obtain ⟨config, hconfig, h⟩ := (Option.any_eq_true _ _).1 h
  obtain ⟨command, hcommand, h⟩ := (Option.any_eq_true _ _).1 h
  obtain ⟨argv, hargv, h⟩ := (Option.any_eq_true _ _).1 h
  exact ⟨config, command, argv, eq_ok_of_toOption hconfig, eq_ok_of_toOption hcommand,
    eq_ok_of_toOption hargv, h⟩

/-- The mounts of a candidate. -/
theorem candidate_mounts : ∃ config command argv,
    validate asciiDecimals checkout (withRoot .candidate "MODEL_ROOT" "/srv/models/.")
        defaultProfile = .ok config ∧
      renderServiceArgv config .head = .ok command ∧
      renderContainerArgv config .head (some candidateLock) none = .ok argv ∧
      ((mountValues (createOptions argv command)).map parseMount =
          (intendedMounts config .head).map some ↔
        PlainText config.deployment.modelRoot ∧ PlainText config.deployment.cacheRoot ∧
          PlainText config.deployment.remoteRoot) := by
  obtain ⟨config, command, argv, h, hcommand, hargv, -⟩ := rendered_withRoot .candidate
    "MODEL_ROOT" "/srv/models/." (fun _ _ _ => true) (by decide +kernel)
  exact ⟨config, command, argv, h, hcommand, hargv, mounts_iff h hcommand hargv⟩

/-- **A root that says what to mount**: the container gets `/etc` as its model. -/
theorem etc_mounted : ∃ config command argv,
    validate asciiDecimals checkout (withRoot .candidate "MODEL_ROOT" "/srv/models,src=/etc")
        defaultProfile = .ok config ∧
      renderServiceArgv config .head = .ok command ∧
      renderContainerArgv config .head (some candidateLock) none = .ok argv ∧
      (mountValues (createOptions argv command)).map parseMount ≠
        (intendedMounts config .head).map some ∧
      some ⟨"bind", "/etc", "/models", true, []⟩ ∈
        (mountValues (createOptions argv command)).map parseMount := by
  obtain ⟨config, command, argv, h, hcommand, hargv, hmounts⟩ := rendered_withRoot
    .candidate "MODEL_ROOT" "/srv/models,src=/etc" (fun config command argv =>
      decide ((mountValues (createOptions argv command)).map parseMount ≠
        (intendedMounts config .head).map some ∧
      some ⟨"bind", "/etc", "/models", true, []⟩ ∈
        (mountValues (createOptions argv command)).map parseMount)) (by decide +kernel)
  exact ⟨config, command, argv, h, hcommand, hargv, of_decide_eq_true hmounts⟩

end DgxSpark
