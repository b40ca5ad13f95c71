import DgxSpark.Kv.Expiry

/-!
# Session protection over whole runs

What an allocation hands out is decided by the queue and by the protection of the blocks in it
(`DgxSpark.Kv.getNewBlocks_eq`). Over a run, the protection of a block is written by its owners
when they are stamped, and goes to zero with the hash and with a new allocation. So between a
stamp and a later state in which the block has kept its hash, no operation lowers it, whoever
else holds the block in between (`DgxSpark.Kv.step_protection`); and after an allocation no
operation but a stamp raises it.
-/

namespace DgxSpark

namespace Kv

variable {η : Type} [DecidableEq η] {pool pool' : BlockPool η} {nowNs : Nat}

/-! ### One allocation -/

/-- **The order of an allocation**: of the blocks in the queue, those that are not protected come
first, each part in queue order. The others stay as they were, and where nothing is protected it
is the pop of the first blocks. -/
def AllocatesInOrder (pool : BlockPool η) : Prop :=
  ∀ nowNs n, n ≤ pool.freeBlockQueue.length →
    ∃ ret after, getNewBlocks nowNs n pool = .ok (ret, after) ∧ ret.Nodup ∧ ret.length = n ∧
      (∀ b ∈ ret, b ∈ pool.freeBlockQueue) ∧
      ret = (pool.freeBlockQueue.filter (fun b => (pool.blocks b).protectedUntilNs ≤ nowNs) ++
        pool.freeBlockQueue.filter (fun b => nowNs < (pool.blocks b).protectedUntilNs)).take n ∧
      after.freeBlockQueue = pool.freeBlockQueue.filter (· ∉ ret) ∧
      ((∀ b ∈ pool.freeBlockQueue, (pool.blocks b).protectedUntilNs ≤ nowNs) →
        (ret, after.freeBlockQueue) = popleftN n pool.freeBlockQueue)

omit [DecidableEq η] in
/-- Whatever comes from the second part means that the first part is used up. -/
theorem subset_take_of_mem {n b : Nat} {first second : List Nat}
    (h : b ∈ (first ++ second).take n) (hb : b ∉ first) : ∀ x ∈ first, x ∈
      (first ++ second).take n := by
  intro x hx
  have hlen : first.length ≤ n := by
    by_contra hlt
    rw [List.take_append_of_le_length (by omega)] at h
    exact hb (List.mem_of_mem_take h)
  rw [List.take_append, List.take_of_length_le hlen]
  exact List.mem_append_left _ hx

/-- **An allocation**, from a queue of blocks that nobody holds. -/
theorem getNewBlocks_eq (hnodup : pool.freeBlockQueue.Nodup)
    (hfree : ∀ b ∈ pool.freeBlockQueue, (pool.blocks b).refCnt = 0) : AllocatesInOrder pool := by
  intro nowNs n hn
  obtain ⟨hret, hin⟩ := popTwice_nodup (unprotected nowNs pool) n hnodup
  have hfst := popTwice_fst (unprotected nowNs pool) n pool.freeBlockQueue
  have hsnd := popTwice_snd (unprotected nowNs pool) n hnodup
  set popped := popTwice (unprotected nowNs pool) n pool.freeBlockQueue with hpopped
  -- nobody holds what is popped, so no assertion fails
  obtain ⟨after, htake⟩ : ∃ after, takeBlocks popped.1
      (unprotectBlocks popped.1 { pool with freeBlockQueue := popped.2 }) = .ok after := by
    refine takeBlocks_ok hret fun b hb => ?_
    rw [unprotectBlocks_eq]
    simp only [if_pos hb]
    exact hfree b (hin b hb)
  have hget : getNewBlocks nowNs n pool = .ok (popped.1, after) := by
    simp only [getNewBlocks, if_neg (not_lt.2 hn), ← hpopped, htake]
    rfl
  obtain ⟨-, halloc⟩ := getNewBlocks_spec hnodup hget
  have hsplit : popped.1 = (pool.freeBlockQueue.filter
      (fun b => (pool.blocks b).protectedUntilNs ≤ nowNs) ++ pool.freeBlockQueue.filter
        (fun b => nowNs < (pool.blocks b).protectedUntilNs)).take n := by
    rw [hfst]
    congr 2
    refine List.filter_congr fun b _ => ?_
    simp [unprotected, ← decide_not]
  refine ⟨popped.1, after, hget, hret, ?_, hin, hsplit, halloc.queue, fun hall => ?_⟩
  · rw [hfst, List.length_take, (List.filter_append_perm _ _).length_eq]
    omega
  · have hone : popped.1 = (popleftN n pool.freeBlockQueue).1 :=
      popTwice_of_all fun b hb => by simpa [unprotected] using hall b hb
    refine Prod.ext hone ?_
    rw [halloc.queue, hone]
    simp only [popleftN]
    exact filter_not_mem_take n hnodup

/-! ### One operation -/

/-- The operation is a stamp of a block by an owner with a session. -/
def Op.Stamps (op : Op η) (b : Nat) : Prop :=
  ∃ sessionId protectNs groups,
    op = .stampSessionBlockProtection (some sessionId) (some protectNs) groups ∧
      b ∈ groups.flatten

/-- What an operation can do to one block: it keeps its hash and its protection, which only a
stamp raises; or it is without a hash and no more protected than before; or it has got a key. -/
inductive BlockChange (op : Op η) (b : Nat) (x y : KVCacheBlock η) : Prop
  | kept (hhash : y.blockHash = x.blockHash) (hle : x.protectedUntilNs ≤ y.protectedUntilNs)
      (hraised : ¬op.Stamps b → y.protectedUntilNs = x.protectedUntilNs)
  | hashless (hnone : y.blockHash = none) (hle : y.protectedUntilNs ≤ x.protectedUntilNs)
  | keyed (hop : ∃ key numTokens, op = .insertBlockHash key b numTokens)
      (heq : y.protectedUntilNs = x.protectedUntilNs)

omit [DecidableEq η] in
theorem BlockChange.of_eq {op : Op η} {b : Nat} {x y : KVCacheBlock η} (h : y = x) :
    BlockChange op b x y := by
  subst h
  exact .kept rfl le_rfl fun _ => rfl

omit [DecidableEq η] in
/-- **A change**, seen from one block. -/
theorem Change.block {op : Op η} {p q : BlockPool η} (hc : Change nowNs op p q)
    (hi : Tidy p ∧ Covered p) (b : Nat) : BlockChange op b (p.blocks b) (q.blocks b) := by
  cases hc with
  | allocated ret h =>
    by_cases hb : b ∈ ret
    · -- with the cache on the hash is taken, with the cache off there was none
      refine .hashless ?_ ((h.protection b hb).le.trans (Nat.zero_le _))
      cases hcache : p.enableCaching with
      | true => exact h.blockHash hcache b hb
      | false => exact (h.uncached hcache b hb).trans (hi.1.uncached hcache b)
    · exact .of_eq (h.others b hb)
  | hashed x h _ _ hkey =>
    by_cases hb : b = x
    · subst hb
      exact .keyed hkey h.protection
    · exact .of_eq (h.others b hb)
  | unhashed x h =>
    by_cases hb : b = x
    · subst hb
      exact .hashless h.blockHash h.protection
    · exact .of_eq (h.others b hb).1
  | touched x h =>
    by_cases hb : b = x
    · subst hb
      exact .kept h.blockHash h.protection.ge fun _ => h.protection
    · exact .of_eq (h.others b hb)
  | freed new h _ => exact .kept (h.blockHash b) (h.protection b).ge fun _ => h.protection b
  | expired timeoutNs _ h =>
    by_cases hdue : b ∈ p.freeBlockQueue ∧ Due nowNs timeoutNs (p.blocks b)
    · exact .hashless (h.gone b hdue.1 hdue.2) (h.protection b)
    · exact .of_eq (h.kept b hdue).1
  | reset h =>
    subst h
    simp only [resetPrefixCache]
    split
    · exact .of_eq rfl
    · simp only
      split
      · exact .hashless rfl (Nat.zero_le _)
      · exact .of_eq rfl
  | stamped sessionId protectNs groups heq h =>
    rw [h, stamp_eq]
    simp only
    split
    · rename_i hb
      exact .kept rfl (le_max_left _ _)
        fun hnot => absurd ⟨sessionId, protectNs, groups, heq, hb⟩ hnot
    · exact .of_eq rfl

/-- **An operation** after which a block still has its hash has not lowered its protection. -/
theorem step_protection {op : Op η} {b : Nat} {key : BlockHashWithGroupId η}
    (hop : op.Proper pool) (h : step nowNs op pool = .ok pool') (hi : Tidy pool ∧ Covered pool)
    (hbefore : (pool.blocks b).blockHash = some key)
    (hafter : (pool'.blocks b).blockHash = some key) :
    (pool.blocks b).protectedUntilNs ≤ (pool'.blocks b).protectedUntilNs := by
  by_cases hinsert : ∃ key b numTokens, op = .insertBlockHash key b numTokens
  · obtain ⟨k, x, numTokens, rfl⟩ := hinsert
    have hspec := insertBlockHash_spec h
    by_cases hb : b = x
    · subst hb
      exact hspec.protection.ge
    · rw [hspec.others b hb]
  · -- once the hash is gone, the rest of the operation does not bring it back
    have hkeep := (step_induction (P := fun q =>
      ((q.blocks b).blockHash = some key ∧
        (pool.blocks b).protectedUntilNs ≤ (q.blocks b).protectedUntilNs) ∨
      (q.blocks b).blockHash = none) (fun p q hp hc hP => ?_) hop h hi
      (Or.inl ⟨hbefore, le_rfl⟩)).2
    · rcases hkeep with ⟨-, hle⟩ | hnone
      · exact hle
      · rw [hafter] at hnone
        cases hnone
    · cases hc.block hp b with
      | kept hsame hle' _ =>
        rcases hP with ⟨hhash, hle⟩ | hnone
        · exact Or.inl ⟨hsame.trans hhash, hle.trans hle'⟩
        · exact Or.inr (hsame.trans hnone)
      | hashless hnone _ => exact Or.inr hnone
      | keyed hkey _ =>
        obtain ⟨k, n, heq⟩ := hkey
        exact absurd ⟨k, b, n, heq⟩ hinsert

/-- **An operation** that is no stamp of a block does not raise its protection. -/
theorem step_not_raised {op : Op η} {b : Nat} (hop : op.Proper pool)
    (h : step nowNs op pool = .ok pool') (hi : Tidy pool ∧ Covered pool) (hb : ¬op.Stamps b) :
    (pool'.blocks b).protectedUntilNs ≤ (pool.blocks b).protectedUntilNs := by
  refine (step_induction (P := fun q =>
    (q.blocks b).protectedUntilNs ≤ (pool.blocks b).protectedUntilNs) (fun p q hp hc hP => ?_)
    hop h hi le_rfl).2
  cases hc.block hp b with
  | kept _ _ hraised => exact (hraised hb).le.trans hP
  | hashless _ hle => exact hle.trans hP
  | keyed _ heq => exact heq.le.trans hP

/-! ### Runs -/

/-- A run of which every operation, with the pools before and after it, is of a kind. -/
inductive RunWhere (P : Op η → BlockPool η → BlockPool η → Prop) :
    Nat → BlockPool η → Nat → BlockPool η → Prop
  | refl (t : Nat) (pool : BlockPool η) : RunWhere P t pool t pool
  | step {t t' nowNs : Nat} {p q r : BlockPool η} (op : Op η) :
      RunWhere P t p t' q → t' ≤ nowNs → op.Proper q → Kv.step nowNs op q = .ok r → P op q r →
        RunWhere P t p nowNs r

variable {P : Op η → BlockPool η → BlockPool η → Prop} {t t' : Nat}

theorem RunWhere.run (h : RunWhere P t pool t' pool') : Run t pool t' pool' := by
  induction h with
  | refl => exact .refl _ _
  | step op _ hle hop hstep _ ih => exact .step op ih hle hop hstep

theorem Run.trans {t'' : Nat} {pool'' : BlockPool η} (h : Run t pool t' pool')
    (h' : Run t' pool' t'' pool'') : Run t pool t'' pool'' := by
  induction h' with
  | refl => exact h
  | step op _ hle hop hstep ih => exact .step op (ih h) hle hop hstep

/-- The operation leaves the block with its hash. -/
def Keeps (b : Nat) (key : BlockHashWithGroupId η) (_ : Op η) (_ after : BlockPool η) : Prop :=
  (after.blocks b).blockHash = some key

/-- The operation is no stamp of the block. -/
def NotStamped (b : Nat) (op : Op η) (_ _ : BlockPool η) : Prop :=
  ¬op.Stamps b

/-- The operation lets go of no more references than there are. -/
def Careful (op : Op η) (before _ : BlockPool η) : Prop :=
  ∀ ordered, op = .freeBlocks ordered → ∀ b, (before.blocks b).isNull = false →
    (ordered.count b : Int) ≤ (before.blocks b).refCnt

/-- **While a block keeps its hash**, its protection does not go down. -/
theorem run_protection {b : Nat} {key : BlockHashWithGroupId η}
    (h : RunWhere (Keeps b key) t pool t' pool') (hi : Tidy pool ∧ Covered pool)
    (hhash : (pool.blocks b).blockHash = some key) :
    (pool'.blocks b).blockHash = some key ∧
      (pool.blocks b).protectedUntilNs ≤ (pool'.blocks b).protectedUntilNs := by
  induction h with
  | refl => exact ⟨hhash, le_rfl⟩
  | step op hrun _ hop hstep hkeeps ih =>
    obtain ⟨hbefore, hle⟩ := ih hi hhash
    have hinv := (run_inv hrun.run hi).1
    exact ⟨hkeeps, hle.trans (step_protection hop hstep hinv hbefore hkeeps)⟩

/-- **While nobody stamps a block**, its protection does not go up. -/
theorem run_not_raised {b : Nat} (h : RunWhere (NotStamped b) t pool t' pool')
    (hi : Tidy pool ∧ Covered pool) :
    (pool'.blocks b).protectedUntilNs ≤ (pool.blocks b).protectedUntilNs := by
  induction h with
  | refl => exact le_rfl
  | step op hrun _ hop hstep hb ih =>
    have hinv := (run_inv hrun.run hi).1
    exact (step_not_raised hop hstep hinv hb).trans (ih hi)

/-- **Careful callers**: nobody holds a block of the queue, and no block is held less than not at
all. -/
theorem refCnt_nonneg (h : RunWhere Careful t pool t' pool') (hi : Tidy pool ∧ Covered pool)
    (hstart : ∀ b, (pool.blocks b).isNull = false → 0 ≤ (pool.blocks b).refCnt) :
    ∀ b, (pool'.blocks b).isNull = false → 0 ≤ (pool'.blocks b).refCnt := by
  induction h with
  | refl => exact hstart
  | @step t' nowNs p q r op hrun _ hop hstep hcareful ih =>
    have hinv := (run_inv hrun.run hi).1
    have hq := ih hi hstart
    by_cases hfree : ∃ ordered, op = .freeBlocks ordered
    · obtain ⟨ordered, rfl⟩ := hfree
      obtain rfl := Except.ok.inj hstep
      obtain ⟨new, hfreed⟩ := freeBlocks_spec nowNs ordered q
      intro b hb
      rw [hfreed.isNull] at hb
      rw [freeBlocks_refCnt]
      have hcount := hcareful ordered rfl b hb
      omega
    · refine (step_induction (P := fun q =>
        ∀ b, (q.blocks b).isNull = false → 0 ≤ (q.blocks b).refCnt) (fun p q _ hc hP b hb => ?_)
        hop hstep hinv hq).2
      cases hc with
      | allocated ret h =>
        by_cases hmem : b ∈ ret
        · rw [h.refCnt b hmem]
          omega
        · rw [h.others b hmem] at hb ⊢
          exact hP b hb
      | hashed x h _ _ _ =>
        by_cases hx : b = x
        · subst hx
          rw [h.isNull] at hb
          rw [h.refCnt]
          exact hP b hb
        · rw [h.others b hx] at hb ⊢
          exact hP b hb
      | unhashed x h =>
        by_cases hx : b = x
        · subst hx
          rw [h.isNull] at hb
          rw [h.refCnt]
          exact hP b hb
        · rw [(h.others b hx).1] at hb ⊢
          exact hP b hb
      | touched x h =>
        by_cases hx : b = x
        · subst hx
          rw [h.isNull] at hb
          have := hP b hb
          rw [h.refCnt]
          omega
        · rw [h.others b hx] at hb ⊢
          exact hP b hb
      | freed new h hop => exact absurd hop hfree
      | expired timeoutNs _ h =>
        rw [h.isNull] at hb
        rw [h.refCnt]
        exact hP b hb
      | reset h =>
        subst h
        simp only [resetPrefixCache] at hb ⊢
        split at hb <;> rename_i hused
        · rw [if_pos hused]
          exact hP b hb
        · rw [if_neg hused]
          simp only at hb ⊢
          split at hb <;> rename_i hlt
          · rw [if_pos hlt]
            exact hP b hb
          · rw [if_neg hlt]
            exact hP b hb
      | stamped sessionId protectNs groups _ h =>
        rw [h, stamp_eq] at hb ⊢
        simp only at hb ⊢
        split at hb <;> rename_i hmem
        · rw [if_pos hmem]
          exact hP b hb
        · rw [if_neg hmem]
          exact hP b hb

/-! ### The result -/

/-- **A block that is kept until a time**: before it, no expiry takes its hash, and no
allocation hands it out that leaves a block in the queue which is not protected. -/
def KeptUntil (b untilNs : Nat) (pool : BlockPool η) : Prop :=
  ∀ nowNs, nowNs < untilNs →
    (∀ n after, expireCachedBlocks nowNs pool = .ok (n, after) →
      b ∈ after.freeBlockQueue ∧ after.blocks b = pool.blocks b ∧ SameHashes b pool after) ∧
    ∀ n ret after, getNewBlocks nowNs n pool = .ok (ret, after) →
      (∃ x ∈ after.freeBlockQueue, (after.blocks x).protectedUntilNs ≤ nowNs) → b ∉ ret

/-- A protected block of the queue is kept. -/
theorem keptUntil_of_protected {b untilNs : Nat} (hi : Tidy pool ∧ Covered pool)
    (hb : b ∈ pool.freeBlockQueue) (hprot : untilNs ≤ (pool.blocks b).protectedUntilNs) :
    KeptUntil b untilNs pool := by
  intro nowNs hnow
  refine ⟨fun n after hexpire => ?_, ?_⟩
  · cases htimeout : pool.prefixCacheIdleTimeoutNs with
    | none =>
      rw [expireCachedBlocks_none nowNs htimeout] at hexpire
      obtain ⟨rfl, rfl⟩ := Prod.mk.inj (Except.ok.inj hexpire)
      exact ⟨hb, rfl, .refl _ _⟩
    | some timeoutNs =>
      obtain ⟨n', after', hok, hexpired⟩ :=
        expireCachedBlocks_spec nowNs htimeout hi.1.nodup (hi.2 timeoutNs htimeout)
      obtain ⟨rfl, rfl⟩ := Prod.mk.inj (Except.ok.inj (hexpire.symm.trans hok))
      have hnot : ¬(b ∈ pool.freeBlockQueue ∧ Due nowNs timeoutNs (pool.blocks b)) := by
        rintro ⟨-, -, e, he, hle⟩
        obtain ⟨i, -, rfl⟩ := Option.map_eq_some_iff.1 he
        have hmax := le_max_right (i + timeoutNs) (pool.blocks b).protectedUntilNs
        omega
      exact ⟨hexpired.queue.mem_iff.2 hb, hexpired.kept b hnot⟩
  · rintro n ret after hget ⟨x, hx, hxprot⟩ hret
    obtain ⟨heq, halloc⟩ := getNewBlocks_spec hi.1.nodup hget
    rw [halloc.queue, List.mem_filter] at hx
    obtain ⟨hxqueue, hxret⟩ := hx
    have hxret : x ∉ ret := by simpa using hxret
    rw [halloc.others x hxret] at hxprot
    -- the protected block is handed out, so every other one was before it
    rw [popTwice_fst] at heq
    rw [heq] at hret hxret
    refine hxret (subset_take_of_mem hret (fun h => ?_) x ?_)
    · have := (List.mem_filter.1 h).2
      simp only [unprotected, decide_eq_true_eq] at this
      omega
    · exact List.mem_filter.2 ⟨hxqueue, by simpa [unprotected] using hxprot⟩

/-- **Session protection over whole runs.**

Every allocation from a queue of blocks that nobody holds takes the unprotected ones first, and
the queue is of that kind after every run with careful callers. A free block that an owner with a
session has stamped, and that has kept its hash since, is kept until the time of the stamp. And a
block that was handed out since its last stamp is not protected. -/
theorem session_protection {roundNs : ℚ → Int} {numGpuBlocks : Nat} {enableCaching : Bool}
    {seconds : Option ℚ} {start : Nat}
    (hnew : BlockPool.new roundNs numGpuBlocks enableCaching seconds = .ok pool) :
    (∀ p : BlockPool η, p.freeBlockQueue.Nodup →
      (∀ b ∈ p.freeBlockQueue, (p.blocks b).refCnt = 0) → AllocatesInOrder p) ∧
    (∀ t p, RunWhere Careful start pool t p → p.freeBlockQueue.Nodup ∧
      ∀ b ∈ p.freeBlockQueue, (p.blocks b).refCnt = 0) ∧
    (∀ t p stampNs sessionId protectNs groups q t' r b key, Run start pool t p → t ≤ stampNs →
      step stampNs (.stampSessionBlockProtection (some sessionId) (some protectNs) groups) p =
        .ok q → b ∈ groups.flatten → (q.blocks b).blockHash = some key →
      RunWhere (Keeps b key) stampNs q t' r → b ∈ r.freeBlockQueue →
        KeptUntil b (stampNs + protectNs) r) ∧
    ∀ t p nowNs n ret q t' r b, Run start pool t p → t ≤ nowNs →
      getNewBlocks nowNs n p = .ok (ret, q) → b ∈ ret → RunWhere (NotStamped b) nowNs q t' r →
        (r.blocks b).protectedUntilNs = 0 := by
  have hinit := new_inv hnew
  refine ⟨fun p => getNewBlocks_eq, fun t p hrun => ?_, ?_, ?_⟩
  · have hinv := (run_inv hrun.run hinit).1
    have hnonneg := refCnt_nonneg hrun hinit fun b _ => by
      rw [(new_spec hnew).2.2.2]
    refine ⟨hinv.1.nodup, fun b hb => ?_⟩
    obtain ⟨-, hnull, hle⟩ := (hinv.1.mem b).1 hb
    have := hnonneg b hnull
    omega
  · intro t p stampNs sessionId protectNs groups q t' r b key hrun hle hstamp hb hhash hkept hfree
    have hp := (run_inv hrun hinit).1
    obtain rfl := Except.ok.inj hstamp
    have hq := stamp_inv stampNs (some sessionId) (some protectNs) groups hp
    obtain ⟨-, hprot⟩ := run_protection hkept hq hhash
    refine keptUntil_of_protected (run_inv hkept.run hq).1 hfree (le_trans ?_ hprot)
    rw [stamp_eq]
    simp only [if_pos hb]
    exact le_max_right _ _
  · intro t p nowNs n ret q t' r b hrun _ hget hb hrest
    have hp := (run_inv hrun hinit).1
    have halloc := (getNewBlocks_spec hp.1.nodup hget).2
    have hle := run_not_raised hrest (halloc.inv hp)
    rw [halloc.protection b hb] at hle
    omega

/-- One block, stamped for seven nanoseconds at the time three and let go at the time four. -/
theorem session_protection_one : ∃ r : BlockPool Unit, (r.blocks 1).blockHash = some ((), 0) ∧
    1 ∈ r.freeBlockQueue ∧ KeptUntil 1 (3 + 7) r := by
  have hnew : BlockPool.new (fun _ => 5) 2 true (some 1) = .ok (⟨2, true, some 5, none,
      fun b => { isNull := b = 0 }, [1], fun _ => [], fun _ => []⟩ : BlockPool Unit) := rfl
  obtain ⟨p, q, r, hrun, hstamp, hhash, hkept, hafter, hfree⟩ : ∃ p q r, Run 0
      (⟨2, true, some 5, none, fun b => { isNull := b = 0 }, [1], fun _ => [],
        fun _ => []⟩ : BlockPool Unit) 2 p ∧
      step 3 (.stampSessionBlockProtection (some "s") (some 7) [[1]]) p = .ok q ∧
      (q.blocks 1).blockHash = some ((), 0) ∧ RunWhere (Keeps 1 ((), 0)) 3 q 4 r ∧
      (r.blocks 1).blockHash = some ((), 0) ∧ 1 ∈ r.freeBlockQueue :=
    ⟨_, _, _, .step (.insertBlockHash ((), 0) 1 (some 16)) (.step (.getNewBlocks 1) (.refl 0 _)
      (Nat.zero_le 1) trivial rfl) (Nat.le_succ 1) ⟨rfl, by decide⟩ rfl, rfl, rfl,
      .step (.freeBlocks [1]) (.refl 3 _) (Nat.le_succ 3) trivial rfl rfl, rfl, List.Mem.head _⟩
  exact ⟨r, hafter, hfree, (session_protection hnew).2.2.1 2 p 3 "s" 7 [[1]] q 4 r 1 ((), 0)
    hrun (Nat.le_succ 2) hstamp (List.Mem.head _) hhash hkept hfree⟩

end Kv

end DgxSpark
