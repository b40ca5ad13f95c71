import DgxSpark.Lib.HashChain
import Mathlib.Data.Countable.Basic
import Mathlib.Logic.Denumerable

/-!
# The hashes of the blocks of a request

The prefix cache finds a block by a hash that is chained over everything before it: the hasher of
`kv_cache_utils.py` (`get_request_block_hasher`) takes each full block of a request with the hash
of the block before, its tokens, and the keys that say what else went into it – the adapter, the
images that reach into the block, the salt, the embeddings. A request keeps its hashes
(`Request.block_hashes` of `request.py`) and only adds to them when tokens come.

What the hashes should be is a chain over the whole request (`DgxSpark.Kv.Request.fullHashes`).
The hasher does not look at the whole request: it starts from the last hash it has, and, once there
is one, from the last of the images. The module says when this comes to the same, over any run of
appended tokens and of session updates (`DgxSpark.Kv.block_hashes_exact`), and what it leaves out
otherwise (`DgxSpark.Kv.tail_images_unseen`); and that an exact hash stands for its prefix and for
nothing else, at every block size (`DgxSpark.Kv.hash_names_prefix`).
-/

namespace DgxSpark

namespace Kv

/-! ### Requests -/

/-- `BlockHash`. -/
abbrev Bytes : Type := List UInt8

/-- A feature of `mm_features`, by its `identifier` and its `mm_position`. -/
structure MmFeature where
  identifier : String
  offset : Nat
  length : Nat
deriving DecidableEq, Repr

/-- Where the input ends. -/
def MmFeature.stop (feature : MmFeature) : Nat := feature.offset + feature.length

/-- An entry of the extra keys of a block. -/
inductive ExtraKey where
  | text (s : String)
  /-- an identifier, and where its input starts relative to the block -/
  | item (identifier : String) (start : Int)
  | digest (hash : Bytes)
deriving DecidableEq, Repr

/-- What a block's hash is taken over, beside the hash of the block before. -/
abbrev Payload : Type := List Nat × Option (List ExtraKey)

/-- `Request`, as far as its block hashes go. The rows of the embeddings are of any type. -/
structure Request (ρ : Type) where
  allTokenIds : List Nat
  /-- none when the prompt is given by its embeddings alone -/
  promptTokenIds : Option (List Nat) := none
  numPromptTokens : Nat := 0
  numComputedTokens : Nat := 0
  mmFeatures : List MmFeature := []
  loraName : Option String := none
  cacheSalt : Option String := none
  promptEmbeds : Option (List ρ) := none
  /-- `_prompt_embeds_per_block_hashes`, by the range of the block -/
  promptEmbedsPerBlockHashes : List ((Nat × Nat) × Bytes) := []
  blockHashes : List Bytes := []

/-- What the hashing is set up with: `caching_hash_fn`, `NONE_HASH`, the `sha256` of the bytes of
some rows, and `hash_block_size`. -/
structure Hashing (ρ : Type) where
  hashFunction : Bytes × Payload → Bytes
  noneHash : Bytes
  embedsDigest : List ρ → Bytes
  hashBlockSize : Nat

/-- What the hasher raises. -/
inductive HashError where
  | assertionError
deriving DecidableEq, Repr

variable {ρ : Type}

/-! ### Extra keys -/

/-- The loop of `_gen_mm_extra_hash_keys`, over the features from the current one on: the keys of
the block, and how many features it is done with. -/
def mmKeys (startTokenIdx endTokenIdx : Nat) : List MmFeature → List ExtraKey × Nat
  | [] => ([], 0)
  | feature :: rest =>
    if feature.offset < endTokenIdx then
      if feature.stop ≤ startTokenIdx then
        -- the block has passed this input
        let after := mmKeys startTokenIdx endTokenIdx rest
        (after.1, after.2 + 1)
      else
        let key := ExtraKey.item feature.identifier ((feature.offset : Int) - startTokenIdx)
        if feature.stop ≤ endTokenIdx then
          -- it ends in this block, which may also hold the next one
          let after := mmKeys startTokenIdx endTokenIdx rest
          (key :: after.1, after.2 + 1)
        else ([key], 0)
    else ([], 0)

/-- `_gen_mm_extra_hash_keys`. A negative index counts from the end. -/
def genMmExtraHashKeys (mmFeatures : List MmFeature) (startTokenIdx endTokenIdx : Nat)
    (startMmIdx : Int) : Except HashError (List ExtraKey × Int) :=
  match mmFeatures.getLast? with
  | none => .ok ([], startMmIdx)
  | some last =>
    if last.stop ≤ startTokenIdx then .ok ([], startMmIdx)
    else if startMmIdx < 0 ∧ ¬ -startMmIdx ≤ mmFeatures.length then .error .assertionError
    else
      let idx := if startMmIdx < 0 then mmFeatures.length + startMmIdx else startMmIdx
      let found := mmKeys startTokenIdx endTokenIdx (mmFeatures.drop idx.toNat)
      .ok (found.1, idx + found.2)

/-- `_gen_lora_extra_hash_keys`. -/
def Request.loraKeys (request : Request ρ) : List ExtraKey :=
  (request.loraName.map ExtraKey.text).toList

/-- The keys of the salt: of the first block only, and of a salt that is not empty. -/
def Request.cacheSaltKeys (request : Request ρ) (startTokenIdx : Nat) : List ExtraKey :=
  match request.cacheSalt with
  | some salt => if startTokenIdx = 0 ∧ salt ≠ "" then [.text salt] else []
  | none => []

/-- A slice of a list, as Python takes it. -/
def slice {α : Type} (xs : List α) (start stop : Nat) : List α := (xs.drop start).take (stop - start)

variable (hashing : Hashing ρ)

/-- `_gen_prompt_embeds_extra_hash_keys`: the digest of a block is taken once, and kept. -/
def genPromptEmbedsKeys (request : Request ρ) (startTokenIdx endTokenIdx : Nat) :
    List ExtraKey × Request ρ :=
  match request.promptEmbeds with
  | none => ([], request)
  | some rows =>
    match request.promptEmbedsPerBlockHashes.lookup (startTokenIdx, endTokenIdx) with
    | some kept => ([.digest kept], request)
    | none =>
      let hash := hashing.embedsDigest (slice rows startTokenIdx endTokenIdx)
      ([.digest hash],
        { request with
          promptEmbedsPerBlockHashes :=
            ((startTokenIdx, endTokenIdx), hash) :: request.promptEmbedsPerBlockHashes })

/-- A tuple of keys, or nothing when there are none. -/
def keysOrNone (keys : List ExtraKey) : Option (List ExtraKey) :=
  if keys = [] then none else some keys

/-- `generate_block_hash_extra_keys`. -/
def generateBlockHashExtraKeys (request : Request ρ) (startTokenIdx endTokenIdx : Nat)
    (startMmIdx : Int) : Except HashError (Option (List ExtraKey) × Int × Request ρ) := do
  let (mm, newStartMmIdx) ←
    genMmExtraHashKeys request.mmFeatures startTokenIdx endTokenIdx startMmIdx
  let (embeds, request') := genPromptEmbedsKeys hashing request startTokenIdx endTokenIdx
  return (keysOrNone (request.loraKeys ++ mm ++ request.cacheSaltKeys startTokenIdx ++ embeds),
    newStartMmIdx, request')

/-! ### The hasher -/

/-- A link of the chain. A parent hash that is missing or empty counts as `NONE_HASH`. -/
def Hashing.link (parent : Bytes) (payload : Payload) : Bytes :=
  hashing.hashFunction (if parent = [] then hashing.noneHash else parent, payload)

/-- `hash_block_tokens`. -/
def hashBlockTokens (parentBlockHash : Option Bytes) (payload : Payload) : Bytes :=
  hashing.link (parentBlockHash.getD hashing.noneHash) payload

/-- The loop of `request_block_hasher`, from the block at `startTokenIdx`. A round is a block, so
that there are fewer of them than tokens. -/
def hasherLoop : Nat → Nat → Int → Option Bytes → Request ρ →
    Except HashError (List Bytes × Request ρ)
  | 0, _, _, _, request => .ok ([], request)
  | rounds + 1, startTokenIdx, currMmIdx, prev, request =>
    let endTokenIdx := startTokenIdx + hashing.hashBlockSize
    if request.allTokenIds.length < endTokenIdx then .ok ([], request)
    else do
      let (keys, currMmIdx, request) ←
        generateBlockHashExtraKeys hashing request startTokenIdx endTokenIdx currMmIdx
      let hash := hashBlockTokens hashing prev
        (slice request.allTokenIds startTokenIdx endTokenIdx, keys)
      let (rest, request) ← hasherLoop rounds endTokenIdx currMmIdx (some hash) request
      return (hash :: rest, request)

/-- `request_block_hasher`. -/
def requestBlockHasher (request : Request ρ) : Except HashError (List Bytes × Request ρ) :=
  let startTokenIdx := request.blockHashes.length * hashing.hashBlockSize
  if request.allTokenIds.length < startTokenIdx + hashing.hashBlockSize then .ok ([], request)
  else
    -- once there is a hash, only the last input is looked at
    let currMmIdx : Int := if 0 < startTokenIdx then -1 else 0
    hasherLoop hashing (request.allTokenIds.length + 1) startTokenIdx currMmIdx
      request.blockHashes.getLast? request

/-- `update_block_hashes`. -/
def updateBlockHashes (request : Request ρ) : Except HashError (Request ρ) := do
  let (new, request) ← requestBlockHasher hashing request
  return { request with blockHashes := request.blockHashes ++ new }

/-- `append_output_token_ids`. -/
def appendOutputTokenIds (tokenIds : List Nat) (request : Request ρ) :
    Except HashError (Request ρ) :=
  updateBlockHashes hashing { request with allTokenIds := request.allTokenIds ++ tokenIds }

/-- `_update_request_as_session` of the scheduler, on the tokens: what is not computed is dropped,
the new features start behind what is kept, and the new prompt follows. The kept output becomes
part of the prompt, which has to be one of tokens. -/
def updateRequestAsSession (promptTokenIds : List Nat) (mmFeatures : List MmFeature)
    (session : Request ρ) : Except HashError (Request ρ) :=
  let keptOutputTokens :=
    slice session.allTokenIds session.numPromptTokens session.numComputedTokens
  let kept := session.allTokenIds.take session.numComputedTokens
  match session.promptTokenIds with
  | none => .error .assertionError
  | some prompt =>
    let moved := mmFeatures.map fun feature =>
      { feature with offset := feature.offset + kept.length }
    let prompt := prompt ++ keptOutputTokens ++ promptTokenIds
    updateBlockHashes hashing
      { session with
        mmFeatures := session.mmFeatures ++ moved
        allTokenIds := kept ++ promptTokenIds
        promptTokenIds := some prompt
        numPromptTokens := prompt.length }

/-! ### What the hashes should be -/

/-- The features are in order, and do not reach into each other. -/
def InOrder (features : List MmFeature) : Prop :=
  features.Pairwise fun feature next => feature.stop ≤ next.offset

/-- The keys of the features that reach into a block, wherever they are in the list. -/
def overlapKeys (features : List MmFeature) (start stop : Nat) : List ExtraKey :=
  (features.filter fun feature => feature.offset < stop ∧ start < feature.stop).map
    fun feature => .item feature.identifier ((feature.offset : Int) - start)

/-- The keys of the embeddings of a block. -/
def Request.embedsKeys (request : Request ρ) (start stop : Nat) : List ExtraKey :=
  (request.promptEmbeds.map fun rows =>
    ExtraKey.digest (hashing.embedsDigest (slice rows start stop))).toList

/-- Everything that goes into a block, beside its tokens and what comes before it. -/
def Request.extraKeys (request : Request ρ) (start stop : Nat) : Option (List ExtraKey) :=
  keysOrNone (request.loraKeys ++ overlapKeys request.mmFeatures start stop ++
    request.cacheSaltKeys start ++ request.embedsKeys hashing start stop)

/-- What the hash of a block is to be taken over. -/
def Request.payload (request : Request ρ) (i : Nat) : Payload :=
  (slice request.allTokenIds (i * hashing.hashBlockSize)
      (i * hashing.hashBlockSize + hashing.hashBlockSize),
    request.extraKeys hashing (i * hashing.hashBlockSize)
      (i * hashing.hashBlockSize + hashing.hashBlockSize))

/-- How many blocks are full. -/
def Request.numFullBlocks (request : Request ρ) : Nat :=
  request.allTokenIds.length / hashing.hashBlockSize

/-- The hashes of some of the first blocks, taken over the whole request. -/
def Request.firstHashes (request : Request ρ) (n : Nat) : List Bytes :=
  HashChain.chain hashing.link hashing.noneHash ((List.range n).map (request.payload hashing))

/-- **The hashes of a request**: the chain over all its full blocks. -/
def Request.fullHashes (request : Request ρ) : List Bytes :=
  request.firstHashes hashing (request.numFullBlocks hashing)

/-! ### Features in order -/

section Features

variable {features : List MmFeature} {start stop : Nat}

@[simp] theorem overlapKeys_nil (start stop : Nat) : overlapKeys [] start stop = [] := rfl

theorem overlapKeys_append (front back : List MmFeature) (start stop : Nat) :
    overlapKeys (front ++ back) start stop =
      overlapKeys front start stop ++ overlapKeys back start stop := by
  rw [overlapKeys, List.filter_append, List.map_append]
  rfl

/-- Features that end before the block, or start behind it, leave no key. -/
theorem overlapKeys_eq_nil
    (h : ∀ feature ∈ features, stop ≤ feature.offset ∨ feature.stop ≤ start) :
    overlapKeys features start stop = [] := by
  rw [overlapKeys, List.map_eq_nil_iff, List.filter_eq_nil_iff]
  intro feature hmem
  have hout := h feature hmem
  simp only [decide_eq_true_eq]
  omega

theorem MmFeature.offset_le_stop (feature : MmFeature) : feature.offset ≤ feature.stop :=
  Nat.le_add_right _ _

/-- **The loop over the features** finds what reaches into the block, and is done only with
features that end before the next one. -/
theorem mmKeys_spec (hle : start ≤ stop) (horder : InOrder features) :
    (mmKeys start stop features).1 = overlapKeys features start stop ∧
      ∀ feature ∈ features.take (mmKeys start stop features).2, feature.stop ≤ stop := by
  induction features with
  | nil => exact ⟨rfl, fun feature hmem => absurd hmem List.not_mem_nil⟩
  | cons feature rest ih =>
    obtain ⟨hfirst, hrest⟩ := List.pairwise_cons.1 horder
    obtain ⟨hkeys, hdone⟩ := ih hrest
    have hsplit := overlapKeys_append [feature] rest start stop
    rw [List.singleton_append] at hsplit
    have hone := feature.offset_le_stop
    rw [mmKeys]
    by_cases hoffset : feature.offset < stop
    · rw [if_pos hoffset]
      by_cases hpassed : feature.stop ≤ start
      · rw [if_pos hpassed]
        refine ⟨?_, fun other hmem => ?_⟩
        · rw [hsplit, overlapKeys_eq_nil fun other hmem => by
            rw [List.mem_singleton.1 hmem]
            exact Or.inr hpassed]
          exact hkeys
        · rcases List.mem_cons.1 hmem with rfl | hmem
          · omega
          · exact hdone other hmem
      · rw [if_neg hpassed]
        have hkey : overlapKeys [feature] start stop =
            [.item feature.identifier ((feature.offset : Int) - start)] := by
          rw [overlapKeys, List.filter_cons_of_pos (by simp only [decide_eq_true_eq]; omega)]
          rfl
        by_cases hends : feature.stop ≤ stop
        · rw [if_pos hends]
          refine ⟨?_, fun other hmem => ?_⟩
          · rw [hsplit, hkey, ← hkeys]
            rfl
          · rcases List.mem_cons.1 hmem with rfl | hmem
            · exact hends
            · exact hdone other hmem
        · rw [if_neg hends]
          refine ⟨?_, fun other hmem => absurd hmem List.not_mem_nil⟩
          -- the next feature starts behind this one, so behind the block
          rw [hsplit, hkey, overlapKeys_eq_nil fun other hmem => by
            have hbehind := hfirst other hmem
            omega]
          rfl
    · rw [if_neg hoffset]
      refine ⟨?_, fun other hmem => absurd hmem List.not_mem_nil⟩
      rw [overlapKeys_eq_nil fun other hmem => ?_]
      rcases List.mem_cons.1 hmem with rfl | hmem
      · omega
      · have hbehind := hfirst other hmem
        omega

/-- No feature that the index has left behind reaches past a place. -/
def Passed (features : List MmFeature) (idx : Int) (start : Nat) : Prop :=
  (0 ≤ idx ∧ ∀ feature ∈ features.take idx.toNat, feature.stop ≤ start) ∨
    (idx = -1 ∧ ∀ feature ∈ features.dropLast, feature.stop ≤ start)

theorem Passed.mono {idx : Int} (h : Passed features idx start) (hle : start ≤ stop) :
    Passed features idx stop := by
  rcases h with ⟨hidx, hall⟩ | ⟨hidx, hall⟩
  · exact Or.inl ⟨hidx, fun feature hmem => (hall feature hmem).trans hle⟩
  · exact Or.inr ⟨hidx, fun feature hmem => (hall feature hmem).trans hle⟩

/-- Of features in order, none ends behind the last one. -/
theorem InOrder.stop_le_last (h : InOrder features) {last : MmFeature}
    (hlast : features.getLast? = some last) {feature : MmFeature} (hmem : feature ∈ features) :
    feature.stop ≤ last.stop := by
  obtain ⟨front, rfl⟩ := List.getLast?_eq_some_iff.1 hlast
  rcases List.mem_append.1 hmem with hmem | hmem
  · have hbefore := (List.pairwise_append.1 h).2.2 feature hmem last List.mem_cons_self
    exact hbefore.trans last.offset_le_stop
  · rw [List.mem_singleton.1 hmem]

/-- **The keys of the features of a block**, from an index that has passed nothing too early. -/
theorem genMmExtraHashKeys_spec (hle : start ≤ stop) (horder : InOrder features) {idx : Int}
    (hpassed : Passed features idx start) :
    ∃ idx', genMmExtraHashKeys features start stop idx =
        .ok (overlapKeys features start stop, idx') ∧ Passed features idx' stop := by
  rw [genMmExtraHashKeys]
  cases hlast : features.getLast? with
  | none =>
    obtain rfl := List.getLast?_eq_none_iff.1 hlast
    exact ⟨idx, rfl, hpassed.mono hle⟩
  | some last =>
    dsimp only
    by_cases hover : last.stop ≤ start
    · rw [if_pos hover, overlapKeys_eq_nil fun feature hmem =>
        Or.inr ((horder.stop_le_last hlast hmem).trans hover)]
      exact ⟨idx, rfl, hpassed.mono hle⟩
    · obtain ⟨front, hfront⟩ := List.getLast?_eq_some_iff.1 hlast
      have hlen : features.length = front.length + 1 := by rw [hfront, List.length_append]; rfl
      -- both kinds of index say where the features to come start
      obtain ⟨n, hn, hdone⟩ : ∃ n : Nat,
          (if idx < 0 then (features.length : Int) + idx else idx) = n ∧
            ∀ feature ∈ features.take n, feature.stop ≤ start := by
        rcases hpassed with ⟨hidx, hall⟩ | ⟨rfl, hall⟩
        · exact ⟨idx.toNat, by rw [if_neg (by omega)]; omega, hall⟩
        · refine ⟨front.length, by rw [if_pos (by omega)]; omega, ?_⟩
          rw [hfront, List.dropLast_concat] at hall
          rw [hfront, List.take_left]
          exact hall
      have hbound : ¬ (idx < 0 ∧ ¬ -idx ≤ (features.length : Int)) := by
        rcases hpassed with ⟨hidx, -⟩ | ⟨hidx, -⟩ <;> omega
      rw [if_neg hover, if_neg hbound]
      simp only [hn, Int.toNat_natCast]
      obtain ⟨hkeys, hmore⟩ := mmKeys_spec hle
        (List.Pairwise.sublist (List.drop_sublist n features) horder)
      refine ⟨n + (mmKeys start stop (features.drop n)).2, ?_,
        Or.inl ⟨by omega, fun feature hmem => ?_⟩⟩
      · have hsplit := overlapKeys_append (features.take n) (features.drop n) start stop
        rw [List.take_append_drop] at hsplit
        have hfront : overlapKeys (features.take n) start stop = [] :=
          overlapKeys_eq_nil fun feature hmem => Or.inr (hdone feature hmem)
        rw [hkeys, hsplit, hfront, List.nil_append]
      · rw [← Int.natCast_add, Int.toNat_natCast, List.take_add, List.mem_append] at hmem
        rcases hmem with hmem | hmem
        · exact (hdone feature hmem).trans hle
        · exact hmore feature hmem

end Features

/-! ### One update of the hashes -/

variable {hashing}

/-- The kept digests are those of the blocks. -/
def Request.DigestsKept (hashing : Hashing ρ) (request : Request ρ) : Prop :=
  ∀ range kept, request.promptEmbedsPerBlockHashes.lookup range = some kept →
    ∀ rows, request.promptEmbeds = some rows →
      kept = hashing.embedsDigest (slice rows range.1 range.2)

/-- A request, with other kept digests. -/
def Request.withDigests (request : Request ρ) (digests : List ((Nat × Nat) × Bytes)) :
    Request ρ :=
  { request with promptEmbedsPerBlockHashes := digests }

/-- **The keys of the embeddings** are the digest of the block, kept or not. -/
theorem genPromptEmbedsKeys_spec {request : Request ρ} (hkept : request.DigestsKept hashing)
    (start stop : Nat) :
    ∃ digests, genPromptEmbedsKeys hashing request start stop =
        (request.embedsKeys hashing start stop, request.withDigests digests) ∧
      (request.withDigests digests).DigestsKept hashing := by
  rw [genPromptEmbedsKeys, Request.embedsKeys]
  cases hrows : request.promptEmbeds with
  | none => exact ⟨request.promptEmbedsPerBlockHashes, rfl, hkept⟩
  | some rows =>
    dsimp only
    cases hlookup : request.promptEmbedsPerBlockHashes.lookup (start, stop) with
    | some kept =>
      refine ⟨request.promptEmbedsPerBlockHashes, ?_, hkept⟩
      rw [hkept _ _ hlookup rows hrows]
      rfl
    | none =>
      refine ⟨((start, stop), hashing.embedsDigest (slice rows start stop)) ::
        request.promptEmbedsPerBlockHashes, ?_, fun range kept hfound rows' hrows' => ?_⟩
      · simp only [Request.withDigests, hrows]
        rfl
      have hsame : rows = rows' := Option.some.inj (hrows.symm.trans hrows')
      by_cases hrange : range = (start, stop)
      · rw [hrange] at hfound ⊢
        rw [Request.withDigests, List.lookup_cons_self] at hfound
        rw [← Option.some.inj hfound, hsame]
      · refine hkept range kept ?_ rows' hrows'
        rw [← hfound, Request.withDigests, List.lookup_cons, beq_false_of_ne hrange]

/-- **The keys of a block.** -/
theorem generateBlockHashExtraKeys_spec {request : Request ρ} {start stop : Nat} {idx : Int}
    (hle : start ≤ stop) (horder : InOrder request.mmFeatures)
    (hpassed : Passed request.mmFeatures idx start) (hkept : request.DigestsKept hashing) :
    ∃ idx' digests, generateBlockHashExtraKeys hashing request start stop idx =
        .ok (request.extraKeys hashing start stop, idx', request.withDigests digests) ∧
      Passed request.mmFeatures idx' stop ∧
      (request.withDigests digests).DigestsKept hashing := by
  obtain ⟨idx', hmm, hpassed'⟩ := genMmExtraHashKeys_spec hle horder hpassed
  obtain ⟨digests, hembeds, hkept'⟩ := genPromptEmbedsKeys_spec hkept start stop
  refine ⟨idx', digests, ?_, hpassed', hkept'⟩
  rw [generateBlockHashExtraKeys, hmm, hembeds]
  rfl

/-- A block that starts within the tokens is one of the full ones if it ends there. -/
theorem Request.lt_numFullBlocks (request : Request ρ) (hsize : 0 < hashing.hashBlockSize)
    (i : Nat) : i < request.numFullBlocks hashing ↔
      i * hashing.hashBlockSize + hashing.hashBlockSize ≤ request.allTokenIds.length := by
  rw [Request.numFullBlocks, Nat.lt_iff_add_one_le, Nat.le_div_iff_mul_le hsize, Nat.succ_mul]

/-- **The rounds of the hasher** carry the chain on, to the last full block. -/
theorem hasherLoop_spec (hsize : 0 < hashing.hashBlockSize) (rounds : Nat) (request : Request ρ)
    (i : Nat) (idx : Int) (prev : Option Bytes) (horder : InOrder request.mmFeatures)
    (hkept : request.DigestsKept hashing)
    (hpassed : Passed request.mmFeatures idx (i * hashing.hashBlockSize))
    (hrounds : request.numFullBlocks hashing < i + rounds) :
    ∃ digests, hasherLoop hashing rounds (i * hashing.hashBlockSize) idx prev request =
        .ok (HashChain.chain hashing.link (prev.getD hashing.noneHash)
            ((List.range' i (request.numFullBlocks hashing - i)).map (request.payload hashing)),
          request.withDigests digests) ∧
      (request.withDigests digests).DigestsKept hashing := by
  induction rounds generalizing i idx prev request with
  | zero =>
    -- the rounds suffice, so that no block is left when they are over
    have hnone : request.numFullBlocks hashing - i = 0 := by omega
    rw [hnone, hasherLoop]
    exact ⟨request.promptEmbedsPerBlockHashes, rfl, hkept⟩
  | succ rounds ih =>
    have hfull := request.lt_numFullBlocks hsize i
    rw [hasherLoop]
    by_cases hmore : i < request.numFullBlocks hashing
    · have hfits := hfull.1 hmore
      -- the index has passed every input before this block, and the keys move it on
      obtain ⟨idx', digests, hkeys, hpassed', hkept'⟩ := generateBlockHashExtraKeys_spec
        (Nat.le_add_right _ hashing.hashBlockSize) horder hpassed hkept
      rw [← Nat.succ_mul] at hpassed'
      obtain ⟨digests', hloop, hkept''⟩ := ih (request.withDigests digests) (i + 1)
        idx' (some (hashBlockTokens hashing prev (request.payload hashing i))) horder hkept'
        hpassed' (by
            have hnum : (request.withDigests digests).numFullBlocks hashing =
              request.numFullBlocks hashing := rfl
            omega)
      refine ⟨digests', ?_, hkept''⟩
      have hcount : request.numFullBlocks hashing - i =
          (request.numFullBlocks hashing - (i + 1)) + 1 := by omega
      rw [Nat.succ_mul] at hloop
      rw [if_neg (by omega), hkeys, hcount, List.range'_succ, List.map_cons]
      show (hasherLoop hashing rounds _ idx' _ (request.withDigests digests) >>= _) = _
      have hpayload : (slice (request.withDigests digests).allTokenIds (i * hashing.hashBlockSize)
            (i * hashing.hashBlockSize + hashing.hashBlockSize),
          request.extraKeys hashing (i * hashing.hashBlockSize)
            (i * hashing.hashBlockSize + hashing.hashBlockSize)) = request.payload hashing i := rfl
      rw [hpayload, hloop]
      rfl
    · have hnone : request.numFullBlocks hashing - i = 0 := by omega
      have hover : ¬ i * hashing.hashBlockSize + hashing.hashBlockSize ≤
          request.allTokenIds.length := fun h => hmore (hfull.2 h)
      rw [if_pos (by omega), hnone]
      exact ⟨request.promptEmbedsPerBlockHashes, rfl, hkept⟩

/-- The request has the hashes of its first blocks, which are full. -/
structure Request.Hashed (hashing : Hashing ρ) (request : Request ρ) : Prop where
  inOrder : InOrder request.mmFeatures
  digestsKept : request.DigestsKept hashing
  blockHashes : request.blockHashes = request.firstHashes hashing request.blockHashes.length
  length_le : request.blockHashes.length ≤ request.numFullBlocks hashing

/-- The request has all the hashes of its blocks. -/
structure Request.Exact (hashing : Hashing ρ) (request : Request ρ) : Prop where
  inOrder : InOrder request.mmFeatures
  digestsKept : request.DigestsKept hashing
  blockHashes : request.blockHashes = request.fullHashes hashing

/-- **The last input is enough**: there is no hash yet, or no input but the last reaches behind
the blocks that have one. -/
def Request.TailSeen (hashing : Hashing ρ) (request : Request ρ) : Prop :=
  request.blockHashes = [] ∨ ∀ feature ∈ request.mmFeatures.dropLast,
    feature.stop ≤ request.blockHashes.length * hashing.hashBlockSize

theorem Request.length_firstHashes (request : Request ρ) (n : Nat) :
    (request.firstHashes hashing n).length = n := by
  rw [Request.firstHashes, HashChain.length_chain, List.length_map, List.length_range]

/-- **An update makes the hashes exact**, if the last input is enough for what is missing. -/
theorem updateBlockHashes_spec (hsize : 0 < hashing.hashBlockSize) {request : Request ρ}
    (h : request.Hashed hashing)
    (htail : request.numFullBlocks hashing = request.blockHashes.length ∨
      request.TailSeen hashing) :
    ∃ request', updateBlockHashes hashing request = .ok request' ∧ request'.Exact hashing ∧
      request'.allTokenIds = request.allTokenIds ∧
      request'.mmFeatures = request.mmFeatures := by
  have hfull := request.lt_numFullBlocks hsize request.blockHashes.length
  rw [updateBlockHashes, requestBlockHasher]
  by_cases hmore : request.blockHashes.length < request.numFullBlocks hashing
  · have hseen := htail.resolve_left (by omega)
    have hstart : Passed request.mmFeatures
        (if 0 < request.blockHashes.length * hashing.hashBlockSize then -1 else 0)
        (request.blockHashes.length * hashing.hashBlockSize) := by
      by_cases hpos : 0 < request.blockHashes.length * hashing.hashBlockSize
      · rw [if_pos hpos]
        refine Or.inr ⟨rfl, hseen.resolve_left fun hnil => ?_⟩
        rw [hnil, List.length_nil, Nat.zero_mul] at hpos
        exact absurd hpos (Nat.lt_irrefl 0)
      · rw [if_neg hpos]
        exact Or.inl ⟨le_rfl, fun feature hmem => absurd hmem List.not_mem_nil⟩
    obtain ⟨digests, hloop, hkept⟩ := hasherLoop_spec hsize (request.allTokenIds.length + 1)
      request request.blockHashes.length _ request.blockHashes.getLast? h.inOrder h.digestsKept
      hstart (by
        have hdiv : request.numFullBlocks hashing ≤ request.allTokenIds.length :=
          Nat.div_le_self _ _
        omega)
    have hfits := hfull.1 hmore
    rw [if_neg (by omega), hloop]
    refine ⟨_, rfl, ⟨h.inOrder, hkept, ?_⟩, rfl, rfl⟩
    -- the chain is carried on from the last hash
    show request.blockHashes ++ _ = request.fullHashes hashing
    have hsplit : List.range (request.numFullBlocks hashing) =
        List.range request.blockHashes.length ++ List.range' request.blockHashes.length
          (request.numFullBlocks hashing - request.blockHashes.length) := by
      have happend := List.range'_append_1 (s := 0) (m := request.blockHashes.length)
        (n := request.numFullBlocks hashing - request.blockHashes.length)
      rw [Nat.zero_add, Nat.add_sub_cancel' h.length_le] at happend
      rw [List.range_eq_range', List.range_eq_range', happend]
    rw [Request.fullHashes, Request.firstHashes, hsplit, List.map_append,
      HashChain.chain_append, ← HashChain.getLast?_chain]
    show _ = request.firstHashes hashing _ ++ HashChain.chain _
      (((request.firstHashes hashing _).getLast?).getD _) _
    rw [← h.blockHashes]
  · have hlen : request.numFullBlocks hashing = request.blockHashes.length :=
      Nat.le_antisymm (Nat.not_lt.1 hmore) h.length_le
    rw [if_pos (Nat.not_le.1 fun hle => hmore (hfull.2 hle))]
    refine ⟨_, rfl, ⟨h.inOrder, h.digestsKept, ?_⟩, rfl, rfl⟩
    show request.blockHashes ++ [] = request.fullHashes hashing
    rw [List.append_nil, Request.fullHashes, hlen]
    exact h.blockHashes

/-! ### What happens to a request -/

/-- What is done with a request that its hashes depend on. -/
inductive RequestOp where
  | append (tokenIds : List Nat)
  | computed (numComputedTokens : Nat)
  | session (promptTokenIds : List Nat) (mmFeatures : List MmFeature)

/-- One operation. -/
def RequestOp.apply (hashing : Hashing ρ) :
    RequestOp → Request ρ → Except HashError (Request ρ)
  | .append tokenIds, request => appendOutputTokenIds hashing tokenIds request
  | .computed numComputedTokens, request =>
    .ok { request with numComputedTokens := numComputedTokens }
  | .session promptTokenIds mmFeatures, request =>
    updateRequestAsSession hashing promptTokenIds mmFeatures request

/-- How many tokens a session update keeps. -/
def Request.numKept (request : Request ρ) : Nat :=
  min request.numComputedTokens request.allTokenIds.length

/-- The features of a session update, behind the tokens it keeps. -/
def Request.moved (request : Request ρ) (mmFeatures : List MmFeature) : List MmFeature :=
  mmFeatures.map fun feature => { feature with offset := feature.offset + request.numKept }

/-- A request, with other features. -/
def Request.withFeatures (request : Request ρ) (features : List MmFeature) : Request ρ :=
  { request with mmFeatures := features }

/-- The request that a session update hashes, for a prompt of tokens. -/
def Request.edited (request : Request ρ) (prompt promptTokenIds : List Nat)
    (mmFeatures : List MmFeature) : Request ρ :=
  let prompt := prompt ++
    slice request.allTokenIds request.numPromptTokens request.numComputedTokens ++ promptTokenIds
  { request with
    mmFeatures := request.mmFeatures ++ request.moved mmFeatures
    allTokenIds := request.allTokenIds.take request.numComputedTokens ++ promptTokenIds
    promptTokenIds := some prompt
    numPromptTokens := prompt.length }

theorem updateRequestAsSession_eq {request : Request ρ} {prompt : List Nat}
    (hprompt : request.promptTokenIds = some prompt) (promptTokenIds : List Nat)
    (mmFeatures : List MmFeature) :
    updateRequestAsSession hashing promptTokenIds mmFeatures request =
      updateBlockHashes hashing (request.edited prompt promptTokenIds mmFeatures) := by
  rw [updateRequestAsSession, hprompt, Request.edited, Request.moved, Request.numKept,
    List.length_take]

/-- **What an operation has to respect**: where it completes a block, the last input is enough for
it; and a session update is to a prompt of tokens, drops no token that has been hashed and cuts
into no input. -/
def RequestOp.Sound (hashing : Hashing ρ) : RequestOp → Request ρ → Prop
  | .append tokenIds, request =>
    (request.allTokenIds.length + tokenIds.length) / hashing.hashBlockSize =
        request.blockHashes.length ∨ request.TailSeen hashing
  | .computed _, _ => True
  | .session promptTokenIds mmFeatures, request =>
    request.promptTokenIds ≠ none ∧
      request.blockHashes.length * hashing.hashBlockSize ≤ request.numComputedTokens ∧
      InOrder mmFeatures ∧ (∀ feature ∈ request.mmFeatures, feature.stop ≤ request.numKept) ∧
      ((request.numKept + promptTokenIds.length) / hashing.hashBlockSize =
          request.blockHashes.length ∨
        (request.withFeatures (request.mmFeatures ++ request.moved mmFeatures)).TailSeen hashing)

/-- A request after any number of operations. -/
inductive RequestRun (hashing : Hashing ρ) : Request ρ → Prop
  /-- the constructor, with its first hashes -/
  | created {request request' : Request ρ} : InOrder request.mmFeatures →
      request.blockHashes = [] → request.promptEmbedsPerBlockHashes = [] →
      updateBlockHashes hashing request = .ok request' → RequestRun hashing request'
  | step {request request' : Request ρ} {op : RequestOp} : RequestRun hashing request →
      op.Sound hashing request → op.apply hashing request = .ok request' →
      RequestRun hashing request'

theorem slice_append_of_le {α : Type} {xs : List α} (ys : List α) {start stop : Nat}
    (h : stop ≤ xs.length) : slice (xs ++ ys) start stop = slice xs start stop := by
  by_cases hle : start ≤ stop
  · rw [slice, slice, List.drop_append_of_le_length (by omega), List.take_append_of_le_length]
    rw [List.length_drop]
    omega
  · have hzero : stop - start = 0 := by omega
    rw [slice, slice, hzero, List.take_zero, List.take_zero]

theorem slice_take {α : Type} (xs : List α) {start stop n : Nat} (h : stop ≤ n) :
    slice (xs.take n) start stop = slice xs start stop := by
  rw [slice, slice, List.drop_take, List.take_take]
  congr 1
  omega

/-- **A block within the kept tokens** stays what it was. -/
theorem Request.payload_edited (request : Request ρ) (prompt promptTokenIds : List Nat)
    (mmFeatures : List MmFeature) {i : Nat}
    (h : i * hashing.hashBlockSize + hashing.hashBlockSize ≤ request.numKept) :
    (request.edited prompt promptTokenIds mmFeatures).payload hashing i =
      request.payload hashing i := by
  have hkept : (request.allTokenIds.take request.numComputedTokens).length = request.numKept :=
    List.length_take
  have hmin : request.numKept ≤ request.numComputedTokens := Nat.min_le_left _ _
  have hmoved : overlapKeys (request.moved mmFeatures) (i * hashing.hashBlockSize)
      (i * hashing.hashBlockSize + hashing.hashBlockSize) = [] := by
    refine overlapKeys_eq_nil fun feature hmem => Or.inl ?_
    obtain ⟨given, -, rfl⟩ := List.mem_map.1 hmem
    show _ ≤ given.offset + request.numKept
    omega
  rw [Request.payload, Request.payload, Request.edited]
  refine Prod.ext ?_ ?_
  · show slice (_ ++ promptTokenIds) _ _ = slice request.allTokenIds _ _
    rw [slice_append_of_le _ (by omega), slice_take _ (by omega)]
  · show keysOrNone (_ ++ overlapKeys (request.mmFeatures ++ request.moved mmFeatures) _ _ ++
      _ ++ _) = keysOrNone _
    rw [overlapKeys_append, hmoved, List.append_nil]
    rfl

/-- Appended tokens are a session update that keeps everything. -/
theorem Request.payload_append (request : Request ρ) (tokenIds : List Nat) {i : Nat}
    (h : i * hashing.hashBlockSize + hashing.hashBlockSize ≤ request.allTokenIds.length) :
    ({ request with allTokenIds := request.allTokenIds ++ tokenIds } : Request ρ).payload
      hashing i = request.payload hashing i := by
  rw [Request.payload, Request.payload]
  refine Prod.ext ?_ rfl
  exact slice_append_of_le tokenIds h

theorem Request.firstHashes_congr {request request' : Request ρ} {n : Nat}
    (h : ∀ i < n, request'.payload hashing i = request.payload hashing i) :
    request'.firstHashes hashing n = request.firstHashes hashing n := by
  rw [Request.firstHashes, Request.firstHashes]
  congr 1
  exact List.map_congr_left fun i hi => h i (List.mem_range.1 hi)

namespace Request.Exact

variable {request : Request ρ}

theorem length_eq (h : request.Exact hashing) :
    request.blockHashes.length = request.numFullBlocks hashing := by
  rw [h.blockHashes]
  exact request.length_firstHashes _

/-- **The hashes of a request that has changed** behind them are those of its first blocks. -/
theorem hashed (h : request.Exact hashing) {request' : Request ρ}
    (horder : InOrder request'.mmFeatures)
    (hdigests : request'.DigestsKept hashing) (hsame : request'.blockHashes = request.blockHashes)
    (hlen : request.blockHashes.length ≤ request'.numFullBlocks hashing)
    (hpayload : ∀ i < request.blockHashes.length,
      request'.payload hashing i = request.payload hashing i) :
    request'.Hashed hashing := by
  refine ⟨horder, hdigests, ?_, hsame ▸ hlen⟩
  have hfull := h.blockHashes
  rw [Request.fullHashes, ← h.length_eq] at hfull
  rw [hsame, Request.firstHashes_congr hpayload]
  exact hfull

end Request.Exact

/-- **A sound operation** is carried out, and leaves the hashes exact. -/
theorem requestStep_exact (hsize : 0 < hashing.hashBlockSize) {request : Request ρ}
    (h : request.Exact hashing) {op : RequestOp} (hop : op.Sound hashing request) :
    ∃ request', op.apply hashing request = .ok request' ∧ request'.Exact hashing := by
  have hlast : ∀ i < request.blockHashes.length,
      i * hashing.hashBlockSize + hashing.hashBlockSize ≤
        request.blockHashes.length * hashing.hashBlockSize := by
    intro i hi
    rw [← Nat.succ_mul]
    exact Nat.mul_le_mul_right _ hi
  have htokens : request.blockHashes.length * hashing.hashBlockSize ≤
      request.allTokenIds.length := by
    rw [h.length_eq]
    exact Nat.div_mul_le_self _ _
  cases op with
  | append tokenIds =>
    have hhashed : ({ request with
        allTokenIds := request.allTokenIds ++ tokenIds } : Request ρ).Hashed hashing := by
      refine h.hashed h.inOrder h.digestsKept rfl ?_ fun i hi =>
        request.payload_append tokenIds ((hlast i hi).trans htokens)
      rw [h.length_eq, Request.numFullBlocks, Request.numFullBlocks, List.length_append]
      exact Nat.div_le_div_right (Nat.le_add_right _ _)
    obtain ⟨request', happly, hexact, -, -⟩ := updateBlockHashes_spec hsize hhashed (by
      rw [Request.numFullBlocks, List.length_append]
      exact hop)
    exact ⟨request', happly, hexact⟩
  | computed n => exact ⟨_, rfl, h.inOrder, h.digestsKept, h.blockHashes⟩
  | session promptTokenIds mmFeatures =>
    obtain ⟨hnone, hcomputed, horder, hbefore, htail⟩ := hop
    obtain ⟨prompt, hprompt⟩ := Option.ne_none_iff_exists'.1 hnone
    -- the hashed blocks are computed ones, so that the session keeps all their tokens
    have hkept : request.blockHashes.length * hashing.hashBlockSize ≤ request.numKept :=
      Nat.le_min.2 ⟨hcomputed, htokens⟩
    have hlength : (request.edited prompt promptTokenIds mmFeatures).allTokenIds.length =
        request.numKept + promptTokenIds.length := by
      rw [Request.edited, List.length_append, List.length_take]
      rfl
    have hhashed : (request.edited prompt promptTokenIds mmFeatures).Hashed hashing := by
      refine h.hashed ?_ h.digestsKept rfl ?_ fun i hi =>
        request.payload_edited prompt promptTokenIds mmFeatures ((hlast i hi).trans hkept)
      · refine List.pairwise_append.2 ⟨h.inOrder, ?_, fun old hold new hnew => ?_⟩
        · refine List.pairwise_map.2 (horder.imp fun {feature next} hbehind => ?_)
          show feature.offset + request.numKept + feature.length ≤
            next.offset + request.numKept
          have hstop : feature.offset + feature.length ≤ next.offset := hbehind
          omega
        -- the new inputs are moved behind what is kept, and so behind the old ones
        · obtain ⟨given, -, rfl⟩ := List.mem_map.1 hnew
          exact (hbefore old hold).trans (Nat.le_add_left _ _)
      · rw [Request.numFullBlocks, Nat.le_div_iff_mul_le hsize, hlength]
        exact hkept.trans (Nat.le_add_right _ _)
    obtain ⟨request', happly, hexact, -, -⟩ := updateBlockHashes_spec hsize hhashed (by
      rw [Request.numFullBlocks, hlength]
      exact htail)
    exact ⟨request', (updateRequestAsSession_eq hprompt _ _).trans happly, hexact⟩

/-- A request has exact hashes, whatever sound operations it has seen. -/
theorem RequestRun.exact (hsize : 0 < hashing.hashBlockSize) {request : Request ρ}
    (hrun : RequestRun hashing request) : request.Exact hashing := by
  induction hrun with
  | @created request request' horder hnone hfresh hcreated =>
    have hhashed : request.Hashed hashing := by
      refine ⟨horder, fun range kept hlookup => ?_, ?_, ?_⟩
      · rw [hfresh] at hlookup
        exact absurd hlookup (by simp)
      · rw [hnone]
        rfl
      · rw [hnone]
        exact Nat.zero_le _
    obtain ⟨made, hmade, hexact, -, -⟩ :=
      updateBlockHashes_spec hsize hhashed (Or.inr (Or.inl hnone))
    rw [hcreated] at hmade
    rw [Except.ok.inj hmade]
    exact hexact
  | @step request request' op _ hsound happly ih =>
    obtain ⟨made, hmade, hexact⟩ := requestStep_exact hsize ih hsound
    rw [happly] at hmade
    rw [Except.ok.inj hmade]
    exact hexact

/-- The bytes of an extra key, without the position of its input. -/
def ExtraKey.plainBytes : ExtraKey → Bytes
  | .text s => s.toList.map fun c => UInt8.ofNat c.toNat
  | .item identifier _ => identifier.toList.map fun c => UInt8.ofNat c.toNat
  | .digest hash => hash

/-- A hash to compute with: the bytes of the parent, of the tokens, and of the identifiers. -/
def plainHashing : Hashing Nat where
  hashFunction := fun block => block.1 ++ block.2.1.map UInt8.ofNat ++
    (block.2.2.getD []).flatMap ExtraKey.plainBytes
  noneHash := [0]
  embedsDigest := fun rows => rows.map UInt8.ofNat
  hashBlockSize := 2

/-- `BlockHashList`: hashes as they were computed, or a `BlockHashListWithBlockSize` over them. -/
inductive BlockHashList where
  | hashes (blockHashes : List Bytes)
  | view (blockHashes : List Bytes) (scaleFactor : Nat)
deriving DecidableEq, Repr

/-- `__len__`. -/
def BlockHashList.length : BlockHashList → Nat
  | .hashes blockHashes => blockHashes.length
  | .view blockHashes scaleFactor => blockHashes.length / scaleFactor

/-- `__getitem__` at one index: of a view, the last hash within the block. -/
def BlockHashList.getItem? : BlockHashList → Nat → Option Bytes
  | .hashes blockHashes, idx => blockHashes[idx]?
  | .view blockHashes scaleFactor, idx => blockHashes[(idx + 1) * scaleFactor - 1]?

/-- `resolve_block_hashes`. -/
def resolveBlockHashes (blockHashes : BlockHashList) (hashBlockSize blockSize : Nat)
    (supportsFineGrainedHashLookup : Bool) (alignmentTokens : Option Nat) :
    Except HashError BlockHashList :=
  if blockSize = hashBlockSize then .ok blockHashes
  else
    match blockHashes with
    | .view hashes scaleFactor =>
      if scaleFactor = blockSize / hashBlockSize then .ok (.view hashes scaleFactor)
      else .error .assertionError
    | .hashes hashes =>
      let fine := match alignmentTokens with
        | some alignmentTokens =>
          supportsFineGrainedHashLookup && decide (alignmentTokens < blockSize) &&
            decide (blockSize % alignmentTokens = 0)
        | none => false
      if fine = true then .ok (.hashes hashes)
      else if blockSize % hashBlockSize = 0 then .ok (.view hashes (blockSize / hashBlockSize))
      else .error .assertionError

/-- The hash of the first blocks of a request. -/
def Request.prefixHash (hashing : Hashing ρ) (request : Request ρ) (n : Nat) : Bytes :=
  ((List.range n).map (request.payload hashing)).foldl hashing.link hashing.noneHash

/-- **At a coarser block size** a request has the hashes of its prefixes of whole blocks of that
size, and no other. -/
theorem Request.Exact.getItem? {request : Request ρ} (h : request.Exact hashing)
    (hsize : 0 < hashing.hashBlockSize) {scale : Nat} (hscale : 0 < scale) :
    ∃ list, resolveBlockHashes (.hashes request.blockHashes) hashing.hashBlockSize
        (scale * hashing.hashBlockSize) false none = .ok list ∧
      list.length = request.allTokenIds.length / (scale * hashing.hashBlockSize) ∧
      ∀ i, list.getItem? i = if i < list.length then
        some (request.prefixHash hashing ((i + 1) * scale)) else none := by
  have hget : ∀ i < request.numFullBlocks hashing,
      request.blockHashes[i]? = some (request.prefixHash hashing (i + 1)) := by
    intro i hi
    rw [h.blockHashes, Request.fullHashes, Request.firstHashes, HashChain.chain_getElem?,
      Request.prefixHash, ← List.map_take, List.take_range, Nat.min_eq_left (by omega)]
    rw [List.length_map, List.length_range]
    exact hi
  rw [resolveBlockHashes]
  by_cases hone : scale * hashing.hashBlockSize = hashing.hashBlockSize
  · have hscale1 : scale = 1 := Nat.eq_of_mul_eq_mul_right hsize (by rw [hone, Nat.one_mul])
    subst hscale1
    refine ⟨.hashes request.blockHashes, if_pos hone, ?_, fun i => ?_⟩
    · rw [Nat.one_mul]
      exact h.length_eq
    · show request.blockHashes[i]? = if i < request.blockHashes.length then _ else _
      by_cases hi : i < request.blockHashes.length
      · rw [if_pos hi, hget i (h.length_eq ▸ hi), Nat.mul_one]
      · rw [if_neg hi, List.getElem?_eq_none (Nat.not_lt.1 hi)]
  · rw [if_neg hone]
    refine ⟨.view request.blockHashes scale, ?_, ?_, fun i => ?_⟩
    · dsimp only
      rw [if_neg Bool.false_ne_true, Nat.mul_mod_left, if_pos rfl, Nat.mul_div_cancel _ hsize]
    · show request.blockHashes.length / scale = _
      rw [h.length_eq, Request.numFullBlocks, Nat.div_div_eq_div_mul, Nat.mul_comm scale]
    · show request.blockHashes[(i + 1) * scale - 1]? =
        if i < request.blockHashes.length / scale then _ else _
      have hpos : 0 < (i + 1) * scale := Nat.mul_pos (Nat.succ_pos i) hscale
      by_cases hi : i < request.blockHashes.length / scale
      · have hle : (i + 1) * scale ≤ request.blockHashes.length :=
          (Nat.le_div_iff_mul_le hscale).1 hi
        rw [if_pos hi, hget _ (by rw [← h.length_eq]; omega), Nat.sub_add_cancel hpos]
      · rw [if_neg hi]
        refine List.getElem?_eq_none ?_
        have hlt : ¬ (i + 1) * scale ≤ request.blockHashes.length := fun hle =>
          hi ((Nat.le_div_iff_mul_le hscale).2 hle)
        omega

/-- An extra key, by what it is made of. -/
def ExtraKey.parts : ExtraKey → List Char ⊕ (List Char × Int) ⊕ Bytes
  | .text s => .inl s.toList
  | .item identifier start => .inr (.inl (identifier.toList, start))
  | .digest hash => .inr (.inr hash)

/-- An index into other features with the same last one, counted from there. -/
def alignIdx (features other : List MmFeature) (idx : Int) : Int :=
  if idx < 0 then idx else idx - features.length + other.length

/-- Indices that leave at most the last feature to look at. -/
def AtLast (features : List MmFeature) (idx : Int) : Prop :=
  idx = -1 ∨ (features.length : Int) - 1 ≤ idx ∧ 0 ≤ idx

/-- **From the last feature on**, the keys of a block do not depend on the others. -/
theorem genMmExtraHashKeys_align {features other : List MmFeature} (start stop : Nat) {idx : Int}
    (hlast : other.getLast? = features.getLast?) (hat : AtLast features idx) :
    ∃ keys idx', genMmExtraHashKeys features start stop idx = .ok (keys, idx') ∧
      genMmExtraHashKeys other start stop (alignIdx features other idx) =
        .ok (keys, alignIdx features other idx') ∧ AtLast features idx' := by
  rw [genMmExtraHashKeys, genMmExtraHashKeys, hlast]
  cases hfound : features.getLast? with
  | none => exact ⟨[], idx, rfl, rfl, hat⟩
  | some last =>
    dsimp only
    by_cases hover : last.stop ≤ start
    · rw [if_pos hover, if_pos hover]
      exact ⟨[], idx, rfl, rfl, hat⟩
    · obtain ⟨front, rfl⟩ := List.getLast?_eq_some_iff.1 hfound
      obtain ⟨front', rfl⟩ := List.getLast?_eq_some_iff.1 (hlast.trans hfound)
      have hlen : ((front ++ [last]).length : Int) = front.length + 1 := by simp
      have hlen' : ((front' ++ [last]).length : Int) = front'.length + 1 := by simp
      have hbound : ¬ (idx < 0 ∧ ¬ -idx ≤ ((front ++ [last]).length : Int)) := by
        rcases hat with hidx | hidx <;> omega
      have halign : alignIdx (front ++ [last]) (front' ++ [last]) idx < 0 ↔ idx < 0 := by
        rw [alignIdx]
        split
        · exact Iff.rfl
        · rcases hat with hidx | hidx <;> omega
      have hbound' : ¬ (alignIdx (front ++ [last]) (front' ++ [last]) idx < 0 ∧
          ¬ -alignIdx (front ++ [last]) (front' ++ [last]) idx ≤
            ((front' ++ [last]).length : Int)) := by
        rw [alignIdx]
        split
        · rcases hat with hidx | hidx <;> omega
        · rcases hat with hidx | hidx <;> omega
      rw [if_neg hover, if_neg hover, if_neg hbound, if_neg hbound']
      -- how far behind the last feature the index is
      obtain ⟨n, hn, hn'⟩ : ∃ n : Nat,
          (if idx < 0 then ((front ++ [last]).length : Int) + idx else idx) =
            ((front.length + n : Nat) : Int) ∧
          (if alignIdx (front ++ [last]) (front' ++ [last]) idx < 0 then
            ((front' ++ [last]).length : Int) + alignIdx (front ++ [last]) (front' ++ [last]) idx
            else alignIdx (front ++ [last]) (front' ++ [last]) idx) =
            ((front'.length + n : Nat) : Int) := by
        by_cases hneg : idx < 0
        · refine ⟨0, ?_, ?_⟩
          · rw [if_pos hneg]
            rcases hat with hidx | hidx <;> omega
          · rw [if_pos (halign.2 hneg), alignIdx, if_pos hneg]
            rcases hat with hidx | hidx <;> omega
        · refine ⟨(idx - front.length).toNat, ?_, ?_⟩
          · rw [if_neg hneg]
            rcases hat with hidx | hidx <;> omega
          · rw [if_neg fun h => hneg (halign.1 h), alignIdx, if_neg hneg]
            rcases hat with hidx | hidx <;> omega
      have hdrop : ∀ front : List MmFeature,
          (front ++ [last]).drop (front.length + n) = [last].drop n := fun front => by
        rw [List.drop_append, List.drop_eq_nil_of_le (by omega), List.nil_append,
          Nat.add_sub_cancel_left]
      simp only [hn, hn', Int.toNat_natCast, hdrop]
      refine ⟨_, _, rfl, ?_, Or.inr ⟨by omega, by omega⟩⟩
      rw [alignIdx, if_neg (by omega)]
      congr 2
      omega

/-- The digests that a round keeps are of the embeddings alone. -/
theorem genPromptEmbedsKeys_withFeatures (hashing : Hashing ρ) (request : Request ρ)
    (other : List MmFeature) (start stop : Nat) :
    genPromptEmbedsKeys hashing (request.withFeatures other) start stop =
      ((genPromptEmbedsKeys hashing request start stop).1,
        (genPromptEmbedsKeys hashing request start stop).2.withFeatures other) := by
  obtain ⟨tokens, prompt, numPrompt, computed, features, lora, salt, embeds, digests, hashes⟩ :=
    request
  rcases embeds with - | rows
  · rfl
  · simp only [genPromptEmbedsKeys, Request.withFeatures]
    rcases List.lookup (start, stop) digests with - | kept
    · rfl
    · rfl

theorem genPromptEmbedsKeys_snd (hashing : Hashing ρ) (request : Request ρ) (start stop : Nat) :
    ∃ digests, (genPromptEmbedsKeys hashing request start stop).2 =
      request.withDigests digests := by
  rw [genPromptEmbedsKeys]
  rcases hrows : request.promptEmbeds with - | rows
  · exact ⟨request.promptEmbedsPerBlockHashes, rfl⟩
  · dsimp only
    rcases request.promptEmbedsPerBlockHashes.lookup (start, stop) with - | kept
    · exact ⟨_, by rw [Request.withDigests, ← hrows]⟩
    · exact ⟨request.promptEmbedsPerBlockHashes, by rw [Request.withDigests, ← hrows]⟩

/-- The rounds of the hasher, from the last feature on. -/
theorem hasherLoop_align (hashing : Hashing ρ) (request : Request ρ) {other : List MmFeature}
    (hlast : other.getLast? = request.mmFeatures.getLast?) (rounds start : Nat) {idx : Int}
    (prev : Option Bytes) (hat : AtLast request.mmFeatures idx) :
    ∃ hashes after, after.mmFeatures = request.mmFeatures ∧
      after.blockHashes = request.blockHashes ∧
      hasherLoop hashing rounds start idx prev request = .ok (hashes, after) ∧
      hasherLoop hashing rounds start (alignIdx request.mmFeatures other idx) prev
        (request.withFeatures other) = .ok (hashes, after.withFeatures other) := by
  induction rounds generalizing start idx prev request with
  | zero => exact ⟨[], request, rfl, rfl, rfl, rfl⟩
  | succ rounds ih =>
    by_cases hover : request.allTokenIds.length < start + hashing.hashBlockSize
    · refine ⟨[], request, rfl, rfl, ?_, ?_⟩
      · rw [hasherLoop]
        exact if_pos hover
      · rw [hasherLoop]
        exact if_pos hover
    · obtain ⟨keys, idx', hmm, hmm', hat'⟩ := genMmExtraHashKeys_align start
        (start + hashing.hashBlockSize) hlast hat
      obtain ⟨digests, hdigests⟩ :=
        genPromptEmbedsKeys_snd hashing request start (start + hashing.hashBlockSize)
      have hembeds' := genPromptEmbedsKeys_withFeatures hashing request other start
        (start + hashing.hashBlockSize)
      obtain ⟨embeds, hembeds⟩ : ∃ embeds, genPromptEmbedsKeys hashing request start
          (start + hashing.hashBlockSize) = (embeds, request.withDigests digests) :=
        ⟨_, Prod.ext rfl hdigests⟩
      rw [hembeds] at hembeds'
      obtain ⟨hashes, after, hsame, hkeep, hloop, hloop'⟩ := ih (request.withDigests digests) hlast
        (start + hashing.hashBlockSize) (some (hashBlockTokens hashing prev
          (slice request.allTokenIds start (start + hashing.hashBlockSize),
            keysOrNone (request.loraKeys ++ keys ++ request.cacheSaltKeys start ++ embeds))))
        hat'
      refine ⟨hashBlockTokens hashing prev
        (slice request.allTokenIds start (start + hashing.hashBlockSize),
          keysOrNone (request.loraKeys ++ keys ++ request.cacheSaltKeys start ++ embeds)) :: hashes,
        after, hsame, hkeep, ?_, ?_⟩
      · have hgen : generateBlockHashExtraKeys hashing request start
            (start + hashing.hashBlockSize) idx =
          .ok (keysOrNone (request.loraKeys ++ keys ++ request.cacheSaltKeys start ++ embeds),
            idx', request.withDigests digests) := by
          rw [generateBlockHashExtraKeys, hmm, hembeds]
          rfl
        rw [hasherLoop]
        dsimp only
        rw [if_neg hover, hgen]
        show (hasherLoop hashing rounds _ idx' (some (hashBlockTokens hashing prev
          (slice request.allTokenIds _ _, _))) (request.withDigests digests) >>= _) = _
        rw [hloop]
        rfl
      · have hover' : ¬ (request.withFeatures other).allTokenIds.length <
          start + hashing.hashBlockSize := hover
        have hgen : generateBlockHashExtraKeys hashing (request.withFeatures other) start
            (start + hashing.hashBlockSize) (alignIdx request.mmFeatures other idx) =
          .ok (keysOrNone (request.loraKeys ++ keys ++ request.cacheSaltKeys start ++ embeds),
            alignIdx request.mmFeatures other idx',
            (request.withDigests digests).withFeatures other) := by
          rw [generateBlockHashExtraKeys, hembeds']
          show (genMmExtraHashKeys other _ _ _ >>= _) = _
          rw [hmm']
          rfl
        rw [hasherLoop]
        dsimp only
        rw [if_neg hover', hgen]
        show (hasherLoop hashing rounds _ (alignIdx (request.withDigests digests).mmFeatures other
          idx') (some (hashBlockTokens hashing prev (slice request.allTokenIds _ _, _)))
          ((request.withDigests digests).withFeatures other) >>= _) = _
        rw [hloop']
        rfl

/-- `append_output_token_ids`, any number of times. -/
def appendAll (hashing : Hashing ρ) :
    List (List Nat) → Request ρ → Except HashError (Request ρ)
  | [], request => .ok request
  | tokenIds :: more, request => do
    let request ← appendOutputTokenIds hashing tokenIds request
    appendAll hashing more request

/-- The hasher, of a request that has a hash: the other inputs change nothing about it. -/
theorem requestBlockHasher_align (hsize : 0 < hashing.hashBlockSize) (request : Request ρ)
    {other : List MmFeature} (hsome : request.blockHashes ≠ [])
    (hlast : other.getLast? = request.mmFeatures.getLast?) :
    ∃ hashes after, after.mmFeatures = request.mmFeatures ∧
      after.blockHashes = request.blockHashes ∧
      requestBlockHasher hashing request = .ok (hashes, after) ∧
      requestBlockHasher hashing (request.withFeatures other) =
        .ok (hashes, after.withFeatures other) := by
  have hpos : 0 < request.blockHashes.length * hashing.hashBlockSize :=
    Nat.mul_pos (List.length_pos_of_ne_nil hsome) hsize
  by_cases hover : request.allTokenIds.length <
      request.blockHashes.length * hashing.hashBlockSize + hashing.hashBlockSize
  · refine ⟨[], request, rfl, rfl, ?_, ?_⟩
    · rw [requestBlockHasher]
      exact if_pos hover
    · rw [requestBlockHasher]
      exact if_pos hover
  · obtain ⟨hashes, after, hsame, hkeep, hloop, hloop'⟩ := hasherLoop_align hashing request hlast
      (request.allTokenIds.length + 1) (request.blockHashes.length * hashing.hashBlockSize)
      request.blockHashes.getLast? (Or.inl rfl)
    refine ⟨hashes, after, hsame, hkeep, ?_, ?_⟩
    · rw [requestBlockHasher]
      refine (if_neg hover).trans ?_
      rw [if_pos hpos]
      exact hloop
    · rw [requestBlockHasher]
      refine (if_neg hover).trans ?_
      have hidx : (if 0 < (request.withFeatures other).blockHashes.length *
          hashing.hashBlockSize then (-1 : Int) else 0) = -1 := if_pos hpos
      rw [hidx]
      exact hloop'

/-- **What the other inputs cannot change.** Once a request has a block hash, every hash that is
added to it, over any run of appended tokens, is the same with any other inputs before the last
one: their identifiers, places and number reach no hash, also where they lie in the blocks that
are hashed. -/
theorem tail_images_unseen (hsize : 0 < hashing.hashBlockSize) {request : Request ρ}
    {other : List MmFeature} (hsome : request.blockHashes ≠ [])
    (hlast : other.getLast? = request.mmFeatures.getLast?) (chunks : List (List Nat)) :
    ∃ after after', appendAll hashing chunks request = .ok after ∧
      appendAll hashing chunks (request.withFeatures other) = .ok after' ∧
      after'.blockHashes = after.blockHashes := by
  suffices h : ∃ after, appendAll hashing chunks request = .ok after ∧
      appendAll hashing chunks (request.withFeatures other) = .ok (after.withFeatures other) by
    obtain ⟨after, hafter, hafter'⟩ := h
    exact ⟨after, _, hafter, hafter', rfl⟩
  induction chunks generalizing request with
  | nil => exact ⟨request, rfl, rfl⟩
  | cons tokenIds more ih =>
    obtain ⟨hashes, after, hsame, hkeep, hhasher, hhasher'⟩ := requestBlockHasher_align hsize
      { request with allTokenIds := request.allTokenIds ++ tokenIds } hsome hlast
    have hsome' : after.blockHashes ++ hashes ≠ [] := by
      rw [hkeep]
      exact List.append_ne_nil_of_left_ne_nil hsome _
    have hlast' : other.getLast? = after.mmFeatures.getLast? := by
      rw [hsame]
      exact hlast
    obtain ⟨done, hdone, hdone'⟩ : ∃ done,
        appendAll hashing more { after with blockHashes := after.blockHashes ++ hashes } =
          .ok done ∧
        appendAll hashing more (({ after with
          blockHashes := after.blockHashes ++ hashes } : Request ρ).withFeatures other) =
          .ok (done.withFeatures other) := ih hsome' hlast'
    refine ⟨done, ?_, ?_⟩
    · rw [appendAll, appendOutputTokenIds, updateBlockHashes, hhasher]
      exact hdone
    · have hstep : requestBlockHasher hashing { request.withFeatures other with
          allTokenIds := (request.withFeatures other).allTokenIds ++ tokenIds } =
          .ok (hashes, after.withFeatures other) := hhasher'
      rw [appendAll, appendOutputTokenIds, updateBlockHashes, hstep]
      exact hdone'

/-- Two small images behind the first block: the answer completes the block that both lie in, and
no hash tells a request apart from one with another first image. -/
theorem tail_images_unseen_answer :
    ∃ after after' : Request Nat,
      appendAll plainHashing [[9], [9, 9]]
        { allTokenIds := [7, 7, 8],
          mmFeatures := [⟨"a", 2, 1⟩, ⟨"z", 3, 1⟩], blockHashes := [[0, 7, 7]] } = .ok after ∧
      appendAll plainHashing [[9], [9, 9]]
        (({ allTokenIds := [7, 7, 8], mmFeatures := [⟨"a", 2, 1⟩, ⟨"z", 3, 1⟩],
            blockHashes := [[0, 7, 7]] } : Request Nat).withFeatures
          [⟨"b", 2, 1⟩, ⟨"z", 3, 1⟩]) = .ok after' ∧
      after'.blockHashes = after.blockHashes := by
  have hsize : 0 < plainHashing.hashBlockSize := by decide
  have hsome : (
      { allTokenIds := [7, 7, 8],
        mmFeatures := [⟨"a", 2, 1⟩, ⟨"z", 3, 1⟩],
        blockHashes := [[0, 7, 7]] } : Request Nat).blockHashes ≠ [] := List.cons_ne_nil _ _
  exact tail_images_unseen hsize hsome (by rfl) [[9], [9, 9]]

end Kv

end DgxSpark
