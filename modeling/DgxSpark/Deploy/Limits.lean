import DgxSpark.Deploy.Mounts

/-!
# The limits of the scheduler

Three places have a say in how many sequences and how many batched tokens the engine may take:
`validate` reads the overrides of the operator, the renderer writes what it finds in the
deployment, and so does the name of a candidate's container.

The renderer would fall back on the limits of the profile, but `validate` has put a limit in the
deployment by then, and where the operator says nothing it is a constant, 5 sequences and 1024
tokens, whatever the profile. So the limits of the selected profile come out
(`DgxSpark.LimitsEffective`) if and only if the operator overrides them or they are that
constant (`DgxSpark.limits_effective_iff`). They are not for the profile of ten sequences.
-/

namespace DgxSpark

/-! ### Reading the command -/

/-- The options of the command that take no value. -/
def serveSwitches : List String := [
  "--trust-remote-code", "--headless", "--enable-prefix-caching", "--no-async-scheduling",
  "--enable-chunked-prefill", "--enable-auto-tool-choice",
  "--default-chat-template-kwargs.thinking=true",
  "--default-chat-template-kwargs.reasoning_effort=high"]

/-- The value of an option among the options of `vllm serve`. -/
def serveOption (name : String) : List String → Option String
  | option :: value :: rest =>
    if option ∈ serveSwitches then serveOption name (value :: rest)
    else if option = name then some value
    else serveOption name rest
  | _ => none

/-- **What the renderer writes**: the limits of the deployment. -/
theorem serveOption_renderServiceArgv {config : Config} {role : Role} {argv : List String}
    (h : renderServiceArgv config role = .ok argv) :
    serveOption "--max-num-seqs" (argv.drop 3) =
        some (toString config.deployment.runtimeMaxNumSeqs) ∧
      serveOption "--max-num-batched-tokens" (argv.drop 3) =
        some (toString config.deployment.runtimeMaxNumBatchedTokens) := by
  obtain ⟨reasoning, -, h⟩ := except_bind_eq_ok.1 h
  obtain ⟨draft, -, h⟩ := except_bind_eq_ok.1 h
  obtain ⟨compilation, -, h⟩ := except_bind_eq_ok.1 h
  obtain ⟨path, -, h⟩ := except_bind_eq_ok.1 h
  obtain rfl := Except.ok.inj h
  -- only the options before the two limits are read, and only their names decide
  cases role <;>
    simp [serveOption, serveSwitches]

/-! ### The effective limits -/

variable {decimals : Decimals} {repository : PosixPath} {values : EnvValues} {profile : Profile}
  {config : Config}

/-- The operator sets both limits. -/
def EnvValues.Overridden (values : EnvValues) : Prop :=
  values.value "MAX_NUM_SEQS" ≠ "" ∧ values.value "MAX_NUM_BATCHED_TOKENS" ≠ ""

instance (values : EnvValues) : Decidable values.Overridden :=
  inferInstanceAs (Decidable (_ ∧ _))

/-- The limits that are to hold: those of the operator, or those of the profile. -/
def effectiveLimits (decimals : Decimals) (values : EnvValues) (profile : Profile) :
    Except Exn (Nat × Nat) :=
  if values.Overridden then do
    let seqs ← decimals.int (values.value "MAX_NUM_SEQS")
    let tokens ← decimals.int (values.value "MAX_NUM_BATCHED_TOKENS")
    return (seqs, tokens)
  else .ok (profile.limits.maxNumSeqs, profile.limits.maxNumBatchedTokens)

/-- **The effective limits are rendered**: in the commands of both roles, and, for a candidate,
in the names of both containers. -/
structure LimitsEffective (decimals : Decimals) (values : EnvValues) (profile : Profile)
    (config : Config) (argv : Role → List String) (limits : Nat × Nat) : Prop where
  effective : effectiveLimits decimals values profile = .ok limits
  seqs : ∀ role, serveOption "--max-num-seqs" ((argv role).drop 3) = some (toString limits.1)
  tokens : ∀ role,
    serveOption "--max-num-batched-tokens" ((argv role).drop 3) = some (toString limits.2)
  names : config.deployment.mode = .candidate → ∀ role, containerName config role =
    "dsv4-candidate-native432-dspark5-327k-seq" ++ toString limits.1 ++ "-" ++ role.text

/-- A limit that is set is the number that the operator writes. -/
theorem runtimeLimit_set {key : String} {default n : Nat} {mode : Mode} {allowed : Bool}
    (hset : values.value key ≠ "")
    (h : runtimeLimit decimals values key default mode allowed = .ok n) :
    decimals.int (values.value key) = .ok n := by
  rw [runtimeLimit, if_neg hset] at h
  obtain ⟨_, -, h⟩ := except_bind_eq_ok.1 h
  obtain ⟨_, -, h⟩ := except_bind_eq_ok.1 h
  obtain ⟨m, hm, h⟩ := except_bind_eq_ok.1 h
  obtain ⟨_, -, h⟩ := except_bind_eq_ok.1 h
  obtain rfl := Except.ok.inj h
  exact hm

/-- **What validation puts in the deployment**: the overrides, or the constants. -/
theorem limits_of_validate (h : validate decimals repository values profile = .ok config) :
    config.profile = profile ∧
      (if values.Overridden then
        decimals.int (values.value "MAX_NUM_SEQS") = .ok config.deployment.runtimeMaxNumSeqs ∧
          decimals.int (values.value "MAX_NUM_BATCHED_TOKENS") =
            .ok config.deployment.runtimeMaxNumBatchedTokens
      else
        config.deployment.runtimeMaxNumSeqs = 5 ∧
          config.deployment.runtimeMaxNumBatchedTokens = 1024) := by
  obtain ⟨steps, rfl⟩ := validate_eq_ok h
  refine ⟨rfl, ?_⟩
  have hoverrides := steps.overrides_ok
  rw [validateOverrides] at hoverrides
  obtain ⟨_, hpair, hoverrides⟩ := except_bind_eq_ok.1 hoverrides
  obtain ⟨allowed, -, hoverrides⟩ := except_bind_eq_ok.1 hoverrides
  obtain ⟨_, -, hoverrides⟩ := except_bind_eq_ok.1 hoverrides
  obtain ⟨seqs, hseqs, hoverrides⟩ := except_bind_eq_ok.1 hoverrides
  obtain ⟨tokens, htokens, hoverrides⟩ := except_bind_eq_ok.1 hoverrides
  obtain ⟨images, -, hoverrides⟩ := except_bind_eq_ok.1 hoverrides
  obtain ⟨_, -, hoverrides⟩ := except_bind_eq_ok.1 hoverrides
  obtain ⟨_, -, hoverrides⟩ := except_bind_eq_ok.1 hoverrides
  have hfields : steps.config.deployment.runtimeMaxNumSeqs = seqs ∧
      steps.config.deployment.runtimeMaxNumBatchedTokens = tokens := by
    have hrecord := Except.ok.inj hoverrides
    constructor
    · exact (congrArg Overrides.runtimeMaxNumSeqs hrecord).symm
    · exact (congrArg Overrides.runtimeMaxNumBatchedTokens hrecord).symm
  rw [hfields.1, hfields.2]
  rw [reject_ok, bne_eq_false_iff_eq] at hpair
  by_cases hset : values.value "MAX_NUM_SEQS" = ""
  · -- then the other one is not set either
    have hset' : values.value "MAX_NUM_BATCHED_TOKENS" = "" := by
      simpa [hset] using hpair
    rw [if_neg fun hboth => hboth.1 hset]
    rw [runtimeLimit, if_pos hset] at hseqs
    rw [runtimeLimit, if_pos hset'] at htokens
    exact ⟨(Except.ok.inj hseqs).symm, (Except.ok.inj htokens).symm⟩
  · have hset' : values.value "MAX_NUM_BATCHED_TOKENS" ≠ "" := by
      intro hempty
      simp [hset, hempty] at hpair
    rw [if_pos ⟨hset, hset'⟩]
    exact ⟨runtimeLimit_set hset hseqs, runtimeLimit_set hset' htokens⟩

/-- **The effective limits are rendered** if and only if the operator sets them or the profile
has the limits 5 and 1024. -/
theorem limits_effective_iff {argv : Role → List String}
    (h : validate decimals repository values profile = .ok config)
    (hargv : ∀ role, renderServiceArgv config role = .ok (argv role)) :
    (∃ limits, LimitsEffective decimals values profile config argv limits) ↔
      values.Overridden ∨
        profile.limits.maxNumSeqs = 5 ∧ profile.limits.maxNumBatchedTokens = 1024 := by
  obtain ⟨-, hlimits⟩ := limits_of_validate h
  have hwritten := fun role => serveOption_renderServiceArgv (hargv role)
  have hnames : config.deployment.mode = .candidate → ∀ role, containerName config role =
      "dsv4-candidate-native432-dspark5-327k-seq" ++
        toString config.deployment.runtimeMaxNumSeqs ++ "-" ++ role.text := by
    intro hmode role
    rw [containerName, hmode]
  by_cases hover : values.Overridden
  · rw [if_pos hover] at hlimits
    refine iff_of_true ⟨(_, _), ?_, fun role => (hwritten role).1, fun role => (hwritten role).2,
      hnames⟩ (Or.inl hover)
    rw [effectiveLimits, if_pos hover, hlimits.1, hlimits.2]
    rfl
  · rw [if_neg hover] at hlimits
    constructor
    · rintro ⟨limits, heffective, hseqs, htokens, -⟩
      rw [effectiveLimits, if_neg hover] at heffective
      obtain rfl := Except.ok.inj heffective
      -- the head's command has the constants
      have hseq := Option.some.inj ((hwritten .head).1.symm.trans (hseqs .head))
      have htoken := Option.some.inj ((hwritten .head).2.symm.trans (htokens .head))
      rw [hlimits.1] at hseq
      rw [hlimits.2] at htoken
      exact Or.inr ⟨(Nat.repr_injective hseq).symm, (Nat.repr_injective htoken).symm⟩
    · rintro (hset | ⟨hseqs, htokens⟩)
      · exact absurd hset hover
      · refine ⟨(5, 1024), ?_, fun role => ?_, fun role => ?_, fun hmode role => ?_⟩
        · rw [effectiveLimits, if_neg hover, hseqs, htokens]
        · rw [(hwritten role).1, hlimits.1]
        · rw [(hwritten role).2, hlimits.2]
        · rw [hnames hmode role, hlimits.1]

/-! ### The profile of ten sequences -/

/-- A candidate on the profile of ten sequences, with no overrides. -/
def seq10Config : Config :=
  ⟨candidateSeq10Profile, candidateDeployment⟩

theorem validate_seq10 :
    validate asciiDecimals checkout (sharedRootValues .candidate) candidateSeq10Profile =
      .ok seq10Config := by
  decide

/-- The command of a role of that candidate. -/
def seq10Argv (role : Role) : List String :=
  ((renderServiceArgv seq10Config role).toOption).getD []

theorem renderServiceArgv_seq10 (role : Role) :
    renderServiceArgv seq10Config role = .ok (seq10Argv role) := by
  have hsome : (renderServiceArgv seq10Config role).toOption.isSome := by
    cases role <;> decide +kernel
  obtain ⟨argv, hargv⟩ := Option.isSome_iff_exists.1 hsome
  have hok := eq_ok_of_toOption hargv
  rw [seq10Argv, hok]
  rfl

theorem limits_effective_iff_seq10 :
    (∃ limits, LimitsEffective asciiDecimals (sharedRootValues .candidate) candidateSeq10Profile
        seq10Config seq10Argv limits) ↔
      (sharedRootValues .candidate).Overridden ∨
        candidateSeq10Profile.limits.maxNumSeqs = 5 ∧
          candidateSeq10Profile.limits.maxNumBatchedTokens = 1024 :=
  limits_effective_iff validate_seq10 renderServiceArgv_seq10

/-- **The profile of ten sequences runs five.** -/
theorem seq10_limits_ignored :
    validate asciiDecimals checkout (sharedRootValues .candidate) candidateSeq10Profile =
        .ok seq10Config ∧
      (∀ role, renderServiceArgv seq10Config role = .ok (seq10Argv role)) ∧
      effectiveLimits asciiDecimals (sharedRootValues .candidate) candidateSeq10Profile =
        .ok (10, 8192) ∧
      (∀ role, serveOption "--max-num-seqs" ((seq10Argv role).drop 3) = some "5") ∧
      ¬∃ limits, LimitsEffective asciiDecimals (sharedRootValues .candidate)
        candidateSeq10Profile seq10Config seq10Argv limits := by
  have heffective : effectiveLimits asciiDecimals (sharedRootValues .candidate)
      candidateSeq10Profile = .ok (10, 8192) := by
    decide
  have hfive : ∀ role, serveOption "--max-num-seqs" ((seq10Argv role).drop 3) = some "5" :=
    fun role => (serveOption_renderServiceArgv (renderServiceArgv_seq10 role)).1
  refine ⟨validate_seq10, renderServiceArgv_seq10, heffective, hfive, ?_⟩
  rintro ⟨limits, heq, hseqs, -, -⟩
  obtain rfl := Except.ok.inj (heffective.symm.trans heq)
  have hten := (hfive .head).symm.trans (hseqs .head)
  revert hten
  decide

end DgxSpark
