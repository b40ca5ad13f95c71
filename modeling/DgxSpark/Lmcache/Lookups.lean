import DgxSpark.Lmcache.Heartbeat
import Mathlib.Data.List.Perm.Subperm
import Mathlib.Data.List.Nodup

/-!
# Lookups over several servers

A cache server locks the chunks that a lookup hits, until they are retrieved or given back. The
scheduler's adapter of `vllm_multi_process_adapter.py` asks every server, polls each of them until
it has answered, takes the least of the answers, and has the servers that hit more give back the
rest. The connector gives back, on all servers, what the engine has computed itself.

The adapter is the one of `DgxSpark.Lmcache.Heartbeat.SchedulerAdapter`, now with the tokens of
its lookups and with what it sends; that its state is the same is
`DgxSpark.Lmcache.Lookup.checkLookupResult_adapter`. A ledger of what a server holds is read off
what has been sent and answered since the last lookup of a request. Whatever is looked up, polled,
cleaned up and given back, in any order, once a lookup has come to a result every server holds
the chunks of that result and nothing else, but for what the connector has given back since the
lookup (`DgxSpark.Lmcache.Lookup.servers_hold_result`).
-/

namespace DgxSpark

namespace Lmcache

namespace Lookup

open Heartbeat (SchedulerAdapter)

universe u v

/-! ### The adapter -/

/-- `IPCCacheServerKey`, with what changes from key to key. -/
structure Key (ρ : Type v) where
  tokenIds : List Nat
  start : Nat
  stop : Nat
  requestId : ρ
  cacheSalt : String

/-- A key is about a chunk. The chunk of an unaligned start is meant, that of an unaligned end
is not. -/
def Key.covers {ρ : Type v} (key : Key ρ) (chunk c : Nat) : Bool :=
  decide (key.start / chunk ≤ c ∧ c < key.stop / chunk)

/-- What the adapter sends and is answered, what it is asked to give back, and its results. -/
inductive Entry (υ : Type u) (ρ : Type v) where
  | lookup (url : υ) (key : Key ρ)
  | queryPrefetchStatus (url : υ) (requestId : ρ)
  | hits (url : υ) (requestId : ρ) (chunks : Nat)
  | result (requestId : ρ) (tokenCount : Nat)
  | givenBack (key : Key ρ)
  | freeLookupLocks (url : υ) (key : Key ρ)

/-- `LMCacheMPSchedulerAdapter`, with `_lookup_params`. -/
structure LookupAdapter (υ : Type u) (ρ : Type v) where
  adapter : SchedulerAdapter υ ρ
  lookupParams : ρ → Option (List Nat × String)

/-- What happens to the adapter. Its heartbeats may change what is healthy as they like. -/
inductive Op (υ : Type u) (ρ : Type v) where
  | lookup (requestId : ρ) (tokenIds : List Nat) (cacheSalt : String) (answers : υ → Bool)
  | check (requestId : ρ) (answers : υ → Option (Option Nat))
  | cleanup (requestId : ρ)
  | free (tokenIds : List Nat) (start stop : Nat) (requestId : ρ) (cacheSalt : String)
  | health (healthEvents : υ → Bool)

section Adapter

variable {υ : Type u} {ρ : Type v} [DecidableEq υ]

/-- The keys of a dictionary that is filled from a list: each at its first place. -/
def firsts (urls : List υ) : List υ :=
  urls.reverse.dedup.reverse

variable [DecidableEq ρ]

namespace LookupAdapter

/-- `maybe_submit_lookup_request`. -/
def maybeSubmitLookupRequest (a : LookupAdapter υ ρ) (requestId : ρ) (tokenIds : List Nat)
    (cacheSalt : String) (answers : υ → Bool) : List (Entry υ ρ) × LookupAdapter υ ρ :=
  let a := { a with adapter := a.adapter.ensureHeartbeatStarted }
  if !a.adapter.isHealthy then ([], a)
  else if requestId ∈ a.adapter.pendingLookups then ([], a)
  else
    let chunk := a.adapter.lmcacheTokensPerChunk
    let key : Key ρ := ⟨tokenIds, 0, tokenIds.length / chunk * chunk, requestId, cacheSalt⟩
    let sent := (firsts a.adapter.serverUrls).map fun url => .lookup url key
    match a.adapter.serverUrls.find? fun url => !answers url with
    | some url => (sent, { a with adapter := a.adapter.markUnhealthy url })
    | none => (sent, {
        adapter := { a.adapter with pendingLookups := requestId :: a.adapter.pendingLookups }
        lookupParams := Function.update a.lookupParams requestId (some (tokenIds, cacheSalt)) })

/-- `_free_inconsistent_lookup_locks`. -/
def freeInconsistentLookupLocks (a : LookupAdapter υ ρ) (requestId : ρ)
    (perServer : List (υ × Nat)) (minChunks : Nat) : List (Entry υ ρ) × LookupAdapter υ ρ :=
  match a.lookupParams requestId with
  | none => ([], a)
  | some (tokenIds, cacheSalt) =>
    let chunk := a.adapter.lmcacheTokensPerChunk
    ((perServer.filter fun p => minChunks < p.2).map fun p =>
        .freeLookupLocks p.1 ⟨tokenIds, minChunks * chunk, min (p.2 * chunk) tokenIds.length,
          requestId, cacheSalt⟩,
      { a with lookupParams := Function.update a.lookupParams requestId none })

/-- The end of `check_lookup_result`, when every server has answered. -/
def resolve (a : LookupAdapter υ ρ) (requestId : ρ) (perServer : List (υ × Nat)) :
    Nat × List (Entry υ ρ) × LookupAdapter υ ρ :=
  let minChunks := ((perServer.map Prod.snd).min?).getD 0
  let maxChunks := ((perServer.map Prod.snd).max?).getD 0
  let freed :=
    if minChunks ≠ maxChunks then a.freeInconsistentLookupLocks requestId perServer minChunks
    else ([], a)
  let tokenCount := minChunks * a.adapter.lmcacheTokensPerChunk
  (tokenCount, freed.1 ++ [.result requestId tokenCount], { freed.2 with
    adapter := { freed.2.adapter with
      finishedLookupResults := freed.2.adapter.finishedLookupResults ++
        [(requestId, tokenCount)] } })

/-- The servers that have not answered yet. -/
def unresolvedUrls (a : LookupAdapter υ ρ) (requestId : ρ) : List υ :=
  firsts (a.adapter.serverUrls.filter fun url =>
    url ∉ (a.adapter.perServerHits requestId).map Prod.fst)

/-- What the servers have answered is written down. -/
def setHits (a : LookupAdapter υ ρ) (requestId : ρ) (hits : List (υ × Nat)) :
    LookupAdapter υ ρ :=
  { a with adapter := { a.adapter with
      perServerHits := Function.update a.adapter.perServerHits requestId hits } }

/-- `check_lookup_result`. -/
def checkLookupResult (a : LookupAdapter υ ρ) (requestId : ρ)
    (answers : υ → Option (Option Nat)) :
    Option Nat × List (Entry υ ρ) × LookupAdapter υ ρ :=
  let cached := a.adapter.finishedLookupResults.lookup requestId
  if requestId ∉ a.adapter.pendingLookups then (some (cached.getD 0), [], a)
  else if !a.adapter.isHealthy then (some 0, [], a)
  else if cached.isSome then (cached, [], a)
  else
    let perServer := a.adapter.perServerHits requestId
    let polled := SchedulerAdapter.collect answers (a.unresolvedUrls requestId) perServer
    let log := (a.unresolvedUrls requestId).map (fun url => .queryPrefetchStatus url requestId) ++
      (polled.1.drop perServer.length).map fun p => .hits p.1 requestId p.2
    let b := a.setHits requestId polled.1
    match polled.2 with
    | some url => (some 0, log, { b with adapter := b.adapter.markUnhealthy url })
    | none =>
      if polled.1.length < a.adapter.serverUrls.length then (none, log, b)
      else
        let resolved := b.resolve requestId polled.1
        (some resolved.1, log ++ resolved.2.1, resolved.2.2)

/-- `cleanup_lookup_result`. -/
def cleanupLookupResult (a : LookupAdapter υ ρ) (requestId : ρ) : LookupAdapter υ ρ where
  adapter := a.adapter.cleanupLookupResult requestId
  lookupParams := Function.update a.lookupParams requestId none

/-- `free_lookup_locks`. -/
def freeLookupLocks (a : LookupAdapter υ ρ) (tokenIds : List Nat) (start stop : Nat)
    (requestId : ρ) (cacheSalt : String) : List (Entry υ ρ) :=
  if !a.adapter.isHealthy then []
  else
    let key : Key ρ := ⟨tokenIds, start, stop, requestId, cacheSalt⟩
    .givenBack key :: a.adapter.serverUrls.map fun url => .freeLookupLocks url key

/-- One step, with what it logs. -/
def step (a : LookupAdapter υ ρ) : Op υ ρ → List (Entry υ ρ) × LookupAdapter υ ρ
  | .lookup requestId tokenIds cacheSalt answers =>
    a.maybeSubmitLookupRequest requestId tokenIds cacheSalt answers
  | .check requestId answers => (a.checkLookupResult requestId answers).2
  | .cleanup requestId => ([], a.cleanupLookupResult requestId)
  | .free tokenIds start stop requestId cacheSalt =>
    (a.freeLookupLocks tokenIds start stop requestId cacheSalt, a)
  | .health healthEvents => ([], { a with adapter := { a.adapter with healthEvents } })

end LookupAdapter

/-! ### What the servers hold -/

/-- The last lookup of a request: its key, what was answered, the result, what was given back on
all servers, and what each server was told to free. -/
structure Ledger (υ : Type u) (ρ : Type v) where
  key : Option (Key ρ)
  answered : List (υ × Nat)
  result : Option Nat
  givenBack : List (Key ρ)
  freed : List (υ × Key ρ)

namespace Ledger

/-- A lookup begins a ledger; what is about another request is not in it. -/
def record (requestId : ρ) (l : Ledger υ ρ) : Entry υ ρ → Ledger υ ρ
  | .lookup _ key => if key.requestId = requestId then ⟨some key, [], none, [], []⟩ else l
  | .queryPrefetchStatus _ _ => l
  | .hits url id chunks =>
    if id = requestId then { l with answered := l.answered ++ [(url, chunks)] } else l
  | .result id tokenCount => if id = requestId then { l with result := some tokenCount } else l
  | .givenBack key =>
    if key.requestId = requestId then { l with givenBack := l.givenBack ++ [key] } else l
  | .freeLookupLocks url key =>
    if key.requestId = requestId then { l with freed := l.freed ++ [(url, key)] } else l

/-- The ledger of a request, of a log. -/
def read (requestId : ρ) (log : List (Entry υ ρ)) : Ledger υ ρ :=
  log.foldl (record requestId) ⟨none, [], none, [], []⟩

/-- How often a chunk was given back. -/
def timesGivenBack (l : Ledger υ ρ) (chunk c : Nat) : Nat :=
  l.givenBack.countP fun key => key.covers chunk c

/-- How often a server was told to free a chunk. -/
def timesFreed (l : Ledger υ ρ) (chunk : Nat) (url : υ) (c : Nat) : Nat :=
  l.freed.countP fun p => decide (p.1 = url) && p.2.covers chunk c

/-- A server has locked a chunk: its key has it, and the hits that were answered reach it. -/
def locked (l : Ledger υ ρ) (chunk : Nat) (url : υ) (c : Nat) : Bool :=
  l.key.any (fun key => key.covers chunk c) &&
    l.answered.any fun p => decide (p.1 = url) && decide (c < p.2)

/-- How many locks of a chunk a server is left with. -/
def held (l : Ledger υ ρ) (chunk : Nat) (url : υ) (c : Nat) : Int :=
  (if l.locked chunk url c then 1 else 0) - l.timesFreed chunk url c

end Ledger

/-- The adapter and its log. -/
structure World (υ : Type u) (ρ : Type v) where
  adapter : LookupAdapter υ ρ
  log : List (Entry υ ρ)

/-- The start of a run. -/
def World.init (serverUrls : List υ) (chunk : Nat) : World υ ρ :=
  ⟨⟨.init serverUrls chunk, fun _ => none⟩, []⟩

/-- A step of a run. -/
def World.next (w : World υ ρ) (op : Op υ ρ) : World υ ρ :=
  ⟨(w.adapter.step op).2, w.log ++ (w.adapter.step op).1⟩

/-- A run. -/
def World.run (serverUrls : List υ) (chunk : Nat) (ops : List (Op υ ρ)) : World υ ρ :=
  ops.foldl World.next (World.init serverUrls chunk)

end Adapter

/-! ### Reading a log -/

section Reading

variable {υ : Type u} {ρ : Type v} {r id : ρ}

/-- Once as many have answered as there are servers, each server has. -/
theorem exists_hits {hits : List (υ × Nat)} {serverUrls : List υ}
    (hnodup : (hits.map Prod.fst).Nodup) (hsubset : hits.map Prod.fst ⊆ serverUrls)
    (hlength : serverUrls.length ≤ hits.length) :
    serverUrls.Nodup ∧ ∀ url ∈ serverUrls, ∃ n, (url, n) ∈ hits := by
  have hperm : (hits.map Prod.fst).Perm serverUrls :=
    (hnodup.subperm hsubset).perm_of_length_le (by rwa [List.length_map])
  refine ⟨hperm.nodup_iff.1 hnodup, fun url hurl => ?_⟩
  obtain ⟨⟨_, n⟩, hmem, rfl⟩ := List.mem_map.1 (hperm.mem_iff.2 hurl)
  exact ⟨n, hmem⟩

/-- What a poll adds: answers of servers that were asked, each once. -/
theorem collect_spec (answers : υ → Option (Option Nat)) (urls : List υ)
    (hits : List (υ × Nat)) :
    ∃ new late, SchedulerAdapter.collect answers urls hits = (hits ++ new, late) ∧
      (new.map Prod.fst).Sublist urls := by
  induction urls generalizing hits with
  | nil => exact ⟨[], none, by rw [SchedulerAdapter.collect, List.append_nil], .slnil⟩
  | cons url urls ih =>
    rw [SchedulerAdapter.collect]
    split
    · exact ⟨[], some url, by rw [List.append_nil], List.nil_sublist _⟩
    · obtain ⟨new, late, heq, hsub⟩ := ih hits
      exact ⟨new, late, heq, hsub.cons url⟩
    · rename_i n _
      obtain ⟨new, late, heq, hsub⟩ := ih (hits ++ [(url, n)])
      refine ⟨(url, n) :: new, late, ?_, hsub.cons_cons url⟩
      rw [heq, List.append_assoc, List.singleton_append]

variable [DecidableEq ρ]

theorem foldl_lookup {urls : List υ} (hurls : urls ≠ []) (key : Key ρ) (l : Ledger υ ρ) :
    (urls.map fun url => Entry.lookup url key).foldl (Ledger.record r) l =
      if key.requestId = r then ⟨some key, [], none, [], []⟩ else l := by
  rw [List.foldl_map]
  by_cases hid : key.requestId = r
  · simp only [Ledger.record, if_pos hid]
    obtain ⟨url, urls, rfl⟩ := List.exists_cons_of_ne_nil hurls
    rw [List.foldl_cons]
    exact List.foldl_fixed' (fun _ => rfl) urls
  · simp only [Ledger.record, if_neg hid]
    exact List.foldl_fixed _

theorem foldl_queries (urls : List υ) (l : Ledger υ ρ) :
    (urls.map fun url => Entry.queryPrefetchStatus url id).foldl (Ledger.record r) l = l := by
  rw [List.foldl_map]
  exact List.foldl_fixed _

theorem foldl_hits (hits : List (υ × Nat)) (l : Ledger υ ρ) :
    (hits.map fun p => Entry.hits p.1 id p.2).foldl (Ledger.record r) l =
      if id = r then { l with answered := l.answered ++ hits } else l := by
  rw [List.foldl_map]
  induction hits generalizing l with
  | nil => rw [List.foldl_nil, List.append_nil, ite_self]
  | cons p hits ih =>
    rw [List.foldl_cons, ih, Ledger.record]
    by_cases hid : id = r
    · rw [if_pos hid, if_pos hid, if_pos hid, List.append_assoc, List.singleton_append]
    · rw [if_neg hid, if_neg hid, if_neg hid]

theorem foldl_freed {α : Type*} (f : α → υ) (key : α → Key ρ) (xs : List α)
    (hid : ∀ x, (key x).requestId = id) (l : Ledger υ ρ) :
    (xs.map fun x => Entry.freeLookupLocks (f x) (key x)).foldl (Ledger.record r) l =
      if id = r then { l with freed := l.freed ++ xs.map fun x => (f x, key x) } else l := by
  rw [List.foldl_map]
  induction xs generalizing l with
  | nil => rw [List.foldl_nil, List.map_nil, List.append_nil, ite_self]
  | cons x xs ih =>
    rw [List.foldl_cons, ih, Ledger.record, hid]
    by_cases hid : id = r
    · rw [if_pos hid, if_pos hid, if_pos hid, List.append_assoc, List.singleton_append,
        List.map_cons]
    · rw [if_neg hid, if_neg hid, if_neg hid]

theorem lookup_filter_ne {α : Type*} (xs : List (ρ × α)) (h : r ≠ id) :
    (xs.filter fun p => decide (p.1 ≠ id)).lookup r = xs.lookup r := by
  induction xs with
  | nil => rfl
  | cons p xs ih =>
    obtain ⟨k, v⟩ := p
    by_cases hk : k = id
    · rw [List.filter_cons_of_neg (by simpa using hk), ih, List.lookup_cons,
        beq_false_of_ne (hk ▸ h)]
    · rw [List.filter_cons_of_pos (by simpa using hk), List.lookup_cons, List.lookup_cons, ih]

theorem lookup_filter_self {α : Type*} (xs : List (ρ × α)) (id : ρ) :
    (xs.filter fun p => decide (p.1 ≠ id)).lookup id = none := by
  induction xs with
  | nil => rfl
  | cons p xs ih =>
    obtain ⟨k, v⟩ := p
    by_cases hk : k = id
    · rw [List.filter_cons_of_neg (by simpa using hk), ih]
    · rw [List.filter_cons_of_pos (by simpa using hk), List.lookup_cons,
        beq_false_of_ne (Ne.symm hk), ih]

end Reading

section Keys

variable {υ : Type u} {ρ : Type v}

/-- What is told to the servers that have hit more than `m` chunks. -/
def tailLocks (hits : List (υ × Nat)) (m chunk : Nat) (tokenIds : List Nat) (id : ρ)
    (cacheSalt : String) : List (υ × Key ρ) :=
  (hits.filter fun p => decide (m < p.2)).map fun p =>
    (p.1, ⟨tokenIds, m * chunk, min (p.2 * chunk) tokenIds.length, id, cacheSalt⟩)

variable [DecidableEq υ]

theorem mem_firsts {urls : List υ} {url : υ} : url ∈ firsts urls ↔ url ∈ urls := by
  rw [firsts, List.mem_reverse, List.mem_dedup, List.mem_reverse]

theorem nodup_firsts (urls : List υ) : (firsts urls).Nodup :=
  List.nodup_reverse.2 (List.nodup_dedup _)

theorem firsts_of_nodup {urls : List υ} (h : urls.Nodup) : firsts urls = urls := by
  rw [firsts, (List.nodup_reverse.2 h).dedup, List.reverse_reverse]

/-- A test of one key, counted over a list that has each key once. -/
theorem countP_key {xs : List (υ × Nat)} (hnodup : (xs.map Prod.fst).Nodup) {url : υ} {n : Nat}
    (hmem : (url, n) ∈ xs) (q : υ × Nat → Bool) :
    xs.countP (fun p => decide (p.1 = url) && q p) = if q (url, n) then 1 else 0 := by
  induction xs with
  | nil => exact absurd hmem List.not_mem_nil
  | cons p xs ih =>
    rw [List.map_cons, List.nodup_cons] at hnodup
    rw [List.countP_cons]
    rcases List.mem_cons.1 hmem with rfl | hmem
    · have hnone : xs.countP (fun p => decide (p.1 = url) && q p) = 0 := by
        refine List.countP_eq_zero.2 fun p hp hq => hnodup.1 ?_
        exact List.mem_map.2 ⟨p, hp, of_decide_eq_true (Bool.and_eq_true_iff.1 hq).1⟩
      rw [hnone, Nat.zero_add, decide_eq_true rfl, Bool.true_and]
    · have hne : p.1 ≠ url := fun heq => hnodup.1 (heq ▸ List.mem_map_of_mem hmem)
      rw [ih hnodup.2 hmem, decide_eq_false hne, Bool.false_and, if_neg Bool.false_ne_true,
        Nat.add_zero]

theorem any_key {xs : List (υ × Nat)} (hnodup : (xs.map Prod.fst).Nodup) {url : υ} {n : Nat}
    (hmem : (url, n) ∈ xs) (q : υ × Nat → Bool) :
    xs.any (fun p => decide (p.1 = url) && q p) = q (url, n) := by
  rw [Bool.eq_iff_iff, List.any_eq_true]
  have hcount := countP_key hnodup hmem q
  constructor
  · intro hex
    by_contra hq
    rw [if_neg hq, List.countP_eq_zero] at hcount
    obtain ⟨p, hp, hpq⟩ := hex
    exact hcount p hp hpq
  · intro hq
    exact ⟨_, hmem, by rw [decide_eq_true rfl, hq]; rfl⟩

/-- How often a server is told of a chunk: once, where it has hit more. -/
theorem countP_tailLocks {hits : List (υ × Nat)} (hnodup : (hits.map Prod.fst).Nodup) {url : υ}
    {n : Nat} (hmem : (url, n) ∈ hits) (m chunk : Nat) (tokenIds : List Nat) (id : ρ)
    (cacheSalt : String) (c : Nat) :
    (tailLocks hits m chunk tokenIds id cacheSalt).countP
        (fun p => decide (p.1 = url) && p.2.covers chunk c) =
      if decide (m < n) &&
        decide (m * chunk / chunk ≤ c ∧ c < min (n * chunk) tokenIds.length / chunk) then 1
      else 0 := by
  rw [tailLocks, List.countP_map, List.countP_filter]
  refine Eq.trans (List.countP_congr fun p _ => ?_) (countP_key hnodup hmem fun p =>
    decide (m < p.2) &&
      decide (m * chunk / chunk ≤ c ∧ c < min (p.2 * chunk) tokenIds.length / chunk))
  rw [Bool.and_comm, Function.comp_apply, Bool.and_left_comm]
  exact Iff.rfl

end Keys

/-! ### What a step keeps -/

section Steps

variable {υ : Type u} {ρ : Type v} [DecidableEq υ] [DecidableEq ρ] {a b : LookupAdapter υ ρ}
  {l : Ledger υ ρ} {r id : ρ}

/-- What every server holds of a lookup that has come to a result. -/
def Ledger.Settled (l : Ledger υ ρ) (serverUrls : List υ) (chunk tokenCount : Nat) : Prop :=
  serverUrls.Nodup ∧ ∀ url ∈ serverUrls, ∀ c, l.held chunk url c =
    (if l.key.any (fun key => key.covers chunk c) && decide (c * chunk < tokenCount) then 1
      else 0) - (l.timesGivenBack chunk c : Int)

/-- The adapter has of a request what the ledger says. -/
structure Follows (a : LookupAdapter υ ρ) (l : Ledger υ ρ) (r : ρ) : Prop where
  nodup : ((a.adapter.perServerHits r).map Prod.fst).Nodup
  subset : (a.adapter.perServerHits r).map Prod.fst ⊆ a.adapter.serverUrls
  idle : r ∉ a.adapter.pendingLookups →
    a.adapter.perServerHits r = [] ∧ a.adapter.finishedLookupResults.lookup r = none
  answered : r ∈ a.adapter.pendingLookups → l.answered = a.adapter.perServerHits r
  opened : r ∈ a.adapter.pendingLookups → a.adapter.finishedLookupResults.lookup r = none →
    l.result = none ∧ ∃ tokenIds cacheSalt, a.lookupParams r = some (tokenIds, cacheSalt) ∧
      l.key = some ⟨tokenIds, 0, tokenIds.length / a.adapter.lmcacheTokensPerChunk *
        a.adapter.lmcacheTokensPerChunk, r, cacheSalt⟩ ∧
      ∀ url c, l.timesFreed a.adapter.lmcacheTokensPerChunk url c =
        a.adapter.serverUrls.count url * l.timesGivenBack a.adapter.lmcacheTokensPerChunk c
  cached : ∀ n, a.adapter.finishedLookupResults.lookup r = some n → l.result = some n
  settled : ∀ n, l.result = some n →
    l.Settled a.adapter.serverUrls a.adapter.lmcacheTokensPerChunk n

/-- The adapters have the same of a request. -/
structure SameFor (r : ρ) (a b : LookupAdapter υ ρ) : Prop where
  serverUrls : b.adapter.serverUrls = a.adapter.serverUrls
  chunk : b.adapter.lmcacheTokensPerChunk = a.adapter.lmcacheTokensPerChunk
  pending : r ∈ b.adapter.pendingLookups ↔ r ∈ a.adapter.pendingLookups
  finished : b.adapter.finishedLookupResults.lookup r = a.adapter.finishedLookupResults.lookup r
  hits : b.adapter.perServerHits r = a.adapter.perServerHits r
  params : b.lookupParams r = a.lookupParams r

theorem Follows.of_same (h : Follows a l r) (hsame : SameFor r a b) : Follows b l r := by
  refine ⟨?_, ?_, ?_, ?_, ?_, ?_, ?_⟩
  · rw [hsame.hits]
    exact h.nodup
  · rw [hsame.hits, hsame.serverUrls]
    exact h.subset
  · rw [hsame.pending, hsame.hits, hsame.finished]
    exact h.idle
  · rw [hsame.pending, hsame.hits]
    exact h.answered
  · rw [hsame.pending, hsame.finished, hsame.params, hsame.chunk, hsame.serverUrls]
    exact h.opened
  · rw [hsame.finished]
    exact h.cached
  · rw [hsame.serverUrls, hsame.chunk]
    exact h.settled

theorem same_ensureHeartbeatStarted (r : ρ) (a : LookupAdapter υ ρ) :
    SameFor r a { a with adapter := a.adapter.ensureHeartbeatStarted } := by
  refine ⟨?_, ?_, ?_, ?_, ?_, rfl⟩ <;>
  · rw [SchedulerAdapter.ensureHeartbeatStarted]
    split <;> rfl

theorem same_markUnhealthy (r : ρ) (a : LookupAdapter υ ρ) (url : υ) :
    SameFor r a { a with adapter := a.adapter.markUnhealthy url } :=
  ⟨rfl, rfl, Iff.rfl, rfl, rfl, rfl⟩

/-- A new lookup begins a ledger; nothing is pending of it yet. -/
theorem Follows.begin (h : Follows a l r) (hpending : r ∉ a.adapter.pendingLookups)
    (key : Key ρ) : Follows a ⟨some key, [], none, [], []⟩ r where
  nodup := h.nodup
  subset := h.subset
  idle := h.idle
  answered := fun hin => absurd hin hpending
  opened := fun hin => absurd hin hpending
  cached := fun n hn => by
    rw [(h.idle hpending).2] at hn
    exact absurd hn (Option.some_ne_none n).symm
  settled := fun n hn => absurd hn (Option.some_ne_none n).symm

theorem Follows.lookup (hservers : a.adapter.serverUrls ≠ []) (h : Follows a l r)
    (tokenIds : List Nat) (cacheSalt : String) (answers : υ → Bool) :
    Follows (a.maybeSubmitLookupRequest id tokenIds cacheSalt answers).2
      ((a.maybeSubmitLookupRequest id tokenIds cacheSalt answers).1.foldl (Ledger.record r) l)
      r := by
  rw [LookupAdapter.maybeSubmitLookupRequest]
  have hstart := h.of_same (same_ensureHeartbeatStarted r a)
  have hurls : ({ a with adapter := a.adapter.ensureHeartbeatStarted } :
      LookupAdapter υ ρ).adapter.serverUrls ≠ [] := by
    rw [(same_ensureHeartbeatStarted r a).serverUrls]
    exact hservers
  generalize ({ a with adapter := a.adapter.ensureHeartbeatStarted } : LookupAdapter υ ρ) = a
    at hstart hurls
  have hfirsts : firsts a.adapter.serverUrls ≠ [] := by
    obtain ⟨url, hurl⟩ := List.exists_mem_of_ne_nil _ hurls
    exact List.ne_nil_of_mem (mem_firsts.2 hurl)
  dsimp only
  split
  · exact hstart
  · split
    · exact hstart
    · rename_i hpending
      split
      · rw [foldl_lookup hfirsts]
        refine Follows.of_same ?_ (same_markUnhealthy r a _)
        by_cases hid : id = r
        · rw [if_pos hid]
          exact hstart.begin (hid ▸ hpending) _
        · rw [if_neg hid]
          exact hstart
      · rw [foldl_lookup hfirsts]
        by_cases hid : id = r
        · subst hid
          rw [if_pos rfl]
          have hidle := hstart.idle hpending
          refine ⟨hstart.nodup, hstart.subset, fun hout => absurd (List.mem_cons_self) hout,
            fun _ => hidle.1.symm, fun _ _ => ⟨rfl, tokenIds, cacheSalt, ?_, rfl, ?_⟩,
            fun n hn => ?_, fun n hn => absurd hn (Option.some_ne_none n).symm⟩
          · exact Function.update_self ..
          · intro url c
            rfl
          · exact absurd (hidle.2.symm.trans hn) (Option.some_ne_none n).symm
        · rw [if_neg hid]
          refine hstart.of_same ⟨rfl, rfl, ?_, rfl, rfl, ?_⟩
          · exact ⟨fun hin => (List.mem_cons.1 hin).resolve_left (Ne.symm hid),
              List.mem_cons_of_mem _⟩
          · exact Function.update_of_ne (Ne.symm hid) ..

theorem Follows.cleanup (h : Follows a l r) : Follows (a.cleanupLookupResult id) l r := by
  by_cases hid : id = r
  · subst hid
    have hpending : id ∉ (a.cleanupLookupResult id).adapter.pendingLookups := fun hin =>
      of_decide_eq_true (List.mem_filter.1 hin).2 rfl
    have hhits : (a.cleanupLookupResult id).adapter.perServerHits id = [] :=
      Function.update_self ..
    have hnone : (a.cleanupLookupResult id).adapter.finishedLookupResults.lookup id = none :=
      lookup_filter_self _ id
    refine ⟨?_, ?_, fun _ => ⟨hhits, hnone⟩, fun hin => absurd hin hpending,
      fun hin => absurd hin hpending, fun n hn => ?_, h.settled⟩
    · rw [hhits]
      exact List.nodup_nil
    · rw [hhits]
      exact List.nil_subset _
    · exact absurd (hnone.symm.trans hn) (Option.some_ne_none n).symm
  · refine h.of_same ⟨rfl, rfl, ?_, lookup_filter_ne _ (Ne.symm hid), ?_, ?_⟩
    · exact ⟨fun hin => (List.mem_filter.1 hin).1,
        fun hin => List.mem_filter.2 ⟨hin, decide_eq_true (Ne.symm hid)⟩⟩
    · exact Function.update_of_ne (Ne.symm hid) ..
    · exact Function.update_of_ne (Ne.symm hid) ..

/-- What is given back is given back by every server. -/
theorem Follows.free (h : Follows a l r) (tokenIds : List Nat) (start stop : Nat)
    (cacheSalt : String) :
    Follows a ((a.freeLookupLocks tokenIds start stop id cacheSalt).foldl (Ledger.record r) l)
      r := by
  rw [LookupAdapter.freeLookupLocks]
  split
  · exact h
  · rw [List.foldl_cons,
      foldl_freed (fun url => url) (fun _ => _) a.adapter.serverUrls (fun _ => rfl)]
    by_cases hid : id = r
    · rw [if_pos hid, Ledger.record, if_pos hid]
      have hback : ∀ c, (l.givenBack ++ [(⟨tokenIds, start, stop, id, cacheSalt⟩ : Key ρ)]).countP
          (fun key => key.covers a.adapter.lmcacheTokensPerChunk c) =
          l.timesGivenBack a.adapter.lmcacheTokensPerChunk c +
            if (⟨tokenIds, start, stop, id, cacheSalt⟩ : Key ρ).covers
              a.adapter.lmcacheTokensPerChunk c then 1 else 0 := by
        intro c
        rw [List.countP_append, List.countP_singleton]
        rfl
      have hfreed : ∀ url c, (l.freed ++ a.adapter.serverUrls.map fun url =>
          (url, (⟨tokenIds, start, stop, id, cacheSalt⟩ : Key ρ))).countP
          (fun p => decide (p.1 = url) && p.2.covers a.adapter.lmcacheTokensPerChunk c) =
          l.timesFreed a.adapter.lmcacheTokensPerChunk url c +
            a.adapter.serverUrls.count url *
              if (⟨tokenIds, start, stop, id, cacheSalt⟩ : Key ρ).covers
                a.adapter.lmcacheTokensPerChunk c then 1 else 0 := by
        intro url c
        rw [List.countP_append, List.countP_map]
        refine congrArg _ ?_
        by_cases hcovers : (⟨tokenIds, start, stop, id, cacheSalt⟩ : Key ρ).covers
            a.adapter.lmcacheTokensPerChunk c = true
        · rw [if_pos hcovers, Nat.mul_one, List.count]
          refine List.countP_congr fun other _ => ?_
          rw [Function.comp_apply, hcovers, Bool.and_true, decide_eq_true_eq, beq_iff_eq]
        · rw [if_neg hcovers, Nat.mul_zero, List.countP_eq_zero]
          intro other _ hboth
          exact hcovers (Bool.and_eq_true_iff.1 hboth).2
      refine ⟨h.nodup, h.subset, h.idle, h.answered, fun hin hnone => ?_, h.cached,
        fun n hn => ⟨(h.settled n hn).1, fun url hurl c => ?_⟩⟩
      · obtain ⟨hresult, ids, salt, hparams, hkey, hcount⟩ := h.opened hin hnone
        refine ⟨hresult, ids, salt, hparams, hkey, fun url c => ?_⟩
        rw [Ledger.timesFreed, Ledger.timesGivenBack, hback, hfreed, hcount, Nat.mul_add]
      -- every server is told once, so that they still agree
      · obtain ⟨hnodup, hheld⟩ := h.settled n hn
        have hbefore := hheld url hurl c
        rw [Ledger.held] at hbefore ⊢
        rw [Ledger.timesFreed, Ledger.timesGivenBack, hback, hfreed,
          List.count_eq_one_of_mem hnodup hurl, Nat.one_mul, Int.natCast_add,
          Int.natCast_add, ← Int.sub_sub, ← Int.sub_sub]
        exact congrArg (· - _) hbefore
    · rw [if_neg hid, Ledger.record, if_neg hid]
      exact h

omit [DecidableEq υ] in
/-- What the servers with more hits than the least are told. -/
theorem freeInconsistent_spec (a : LookupAdapter υ ρ) (id : ρ) (hits : List (υ × Nat))
    (m : Nat) :
    (a.freeInconsistentLookupLocks id hits m).2.adapter = a.adapter ∧
    (∀ r, r ≠ id →
      (a.freeInconsistentLookupLocks id hits m).2.lookupParams r = a.lookupParams r ∧
      ∀ l : Ledger υ ρ,
        (a.freeInconsistentLookupLocks id hits m).1.foldl (Ledger.record r) l = l) ∧
    ∀ tokenIds cacheSalt, a.lookupParams id = some (tokenIds, cacheSalt) → ∀ l : Ledger υ ρ,
      (a.freeInconsistentLookupLocks id hits m).1.foldl (Ledger.record id) l =
        { l with freed := l.freed ++
          tailLocks hits m a.adapter.lmcacheTokensPerChunk tokenIds id cacheSalt } := by
  rw [LookupAdapter.freeInconsistentLookupLocks]
  split
  · rename_i hnone
    refine ⟨rfl, fun r _ => ⟨rfl, fun _ => rfl⟩, fun tokenIds cacheSalt hsome => ?_⟩
    exact absurd (hnone.symm.trans hsome) (Option.some_ne_none _).symm
  · rename_i ids salt hparams
    refine ⟨rfl, fun r hr => ⟨Function.update_of_ne hr .., fun l => ?_⟩,
      fun tokenIds cacheSalt hsome l => ?_⟩
    · dsimp only
      rw [foldl_freed (fun p : υ × Nat => p.1) (fun p => ⟨ids, m * a.adapter.lmcacheTokensPerChunk,
        min (p.2 * a.adapter.lmcacheTokensPerChunk) ids.length, id, salt⟩) _ (fun _ => rfl),
        if_neg (Ne.symm hr)]
    · obtain ⟨rfl, rfl⟩ := Prod.mk.inj (Option.some.inj (hparams.symm.trans hsome))
      dsimp only
      rw [foldl_freed (fun p : υ × Nat => p.1) (fun p => ⟨ids, m * a.adapter.lmcacheTokensPerChunk,
        min (p.2 * a.adapter.lmcacheTokensPerChunk) ids.length, id, salt⟩) _ (fun _ => rfl),
        if_pos rfl]
      rfl

/-- The chunks that a server keeps are the hits of all servers: it has locked its own, and frees
those behind the least. -/
theorem kept_eq (chunk len m n c : Nat) (hm : m ≤ n) :
    ((if decide (0 / chunk ≤ c ∧ c < len / chunk * chunk / chunk) && decide (c < n) then 1
        else 0 : Int) -
      (if decide (m < n) && decide (m * chunk / chunk ≤ c ∧ c < min (n * chunk) len / chunk)
        then 1 else 0 : Nat)) =
      if decide (0 / chunk ≤ c ∧ c < len / chunk * chunk / chunk) &&
        decide (c * chunk < m * chunk) then 1 else 0 := by
  rcases Nat.eq_zero_or_pos chunk with rfl | hchunk
  · simp
  · have hbelow : ∀ x, c < x / chunk ↔ (c + 1) * chunk ≤ x := fun x =>
      Nat.le_div_iff_mul_le hchunk
    have hmin : c < min (n * chunk) len / chunk ↔ c < n ∧ c < len / chunk := by
      rw [hbelow, hbelow, Nat.le_min, Nat.mul_le_mul_right_iff hchunk]
      exact Iff.rfl
    have hlt : c * chunk < m * chunk ↔ c < m := Nat.mul_lt_mul_right hchunk
    rw [Nat.mul_div_cancel _ hchunk, Nat.mul_div_cancel _ hchunk, Nat.zero_div]
    simp only [hmin, hlt, Nat.zero_le, true_and, ← Bool.decide_and, decide_eq_true_eq]
    by_cases hkey : c < len / chunk
    · by_cases hleast : c < m
      · have hn : c < n := Nat.lt_of_lt_of_le hleast hm
        rw [if_pos ⟨hkey, hn⟩, if_neg (by omega), if_pos ⟨hkey, hleast⟩]
        rfl
      · by_cases hn : c < n
        · rw [if_pos ⟨hkey, hn⟩, if_pos (by omega), if_neg (by omega)]
          rfl
        · rw [if_neg (by omega), if_neg (by omega), if_neg (by omega)]
          rfl
    · rw [if_neg (by omega), if_neg (by omega), if_neg (by omega)]
      rfl

/-- The least of the hits, where there are any. -/
def least (hits : List (υ × Nat)) : Nat :=
  ((hits.map Prod.snd).min?).getD 0

omit [DecidableEq υ] in
/-- **How a lookup comes to its result.** Where the servers agree there is nothing to be freed,
so the two branches do the same. -/
theorem resolve_spec (a : LookupAdapter υ ρ) (id : ρ) (hits : List (υ × Nat)) :
    (a.resolve id hits).2.2.adapter = { a.adapter with
      finishedLookupResults := a.adapter.finishedLookupResults ++
        [(id, least hits * a.adapter.lmcacheTokensPerChunk)] } ∧
    (∀ r, r ≠ id → (a.resolve id hits).2.2.lookupParams r = a.lookupParams r ∧
      ∀ l : Ledger υ ρ, (a.resolve id hits).2.1.foldl (Ledger.record r) l = l) ∧
    ∀ tokenIds cacheSalt, a.lookupParams id = some (tokenIds, cacheSalt) → ∀ l : Ledger υ ρ,
      (a.resolve id hits).2.1.foldl (Ledger.record id) l =
        { l with
          result := some (least hits * a.adapter.lmcacheTokensPerChunk)
          freed := l.freed ++ tailLocks hits (least hits) a.adapter.lmcacheTokensPerChunk tokenIds
            id cacheSalt } := by
  rw [LookupAdapter.resolve]
  dsimp only
  by_cases hdiffer : least hits ≠ ((hits.map Prod.snd).max?).getD 0
  · rw [least] at hdiffer
    rw [if_pos hdiffer]
    obtain ⟨hadapter, hother, hself⟩ := freeInconsistent_spec a id hits (least hits)
    rw [least] at hadapter hother hself ⊢
    refine ⟨by rw [hadapter], fun r hr => ⟨(hother r hr).1, fun l => ?_⟩,
      fun tokenIds cacheSalt hparams l => ?_⟩
    · rw [List.foldl_append, (hother r hr).2, List.foldl_cons, List.foldl_nil, Ledger.record,
        if_neg (Ne.symm hr)]
    · rw [List.foldl_append, hself tokenIds cacheSalt hparams, List.foldl_cons, List.foldl_nil,
        Ledger.record, if_pos rfl]
  · have hnone : (hits.filter fun p => decide (least hits < p.2)) = [] := by
      refine List.filter_eq_nil_iff.2 fun p hp hlt => ?_
      have hmax : p.2 ≤ ((hits.map Prod.snd).max?).getD 0 :=
        List.le_max?_getD_of_mem (List.mem_map.2 ⟨p, hp, rfl⟩)
      rw [← not_not.1 hdiffer] at hmax
      exact Nat.not_lt.2 hmax (of_decide_eq_true hlt)
    rw [least] at hdiffer
    rw [if_neg hdiffer]
    refine ⟨rfl, fun r hr => ⟨rfl, fun l => ?_⟩, fun tokenIds cacheSalt _ l => ?_⟩
    · rw [List.nil_append, List.foldl_cons, List.foldl_nil, Ledger.record, if_neg (Ne.symm hr)]
    · rw [tailLocks, hnone, List.map_nil, List.append_nil, List.nil_append, List.foldl_cons,
        List.foldl_nil, Ledger.record, if_pos rfl]
      rfl

theorem Follows.resolve (h : Follows a l r) (hpending : r ∈ a.adapter.pendingLookups)
    (hnone : a.adapter.finishedLookupResults.lookup r = none) {hits : List (υ × Nat)}
    (hhits : a.adapter.perServerHits r = hits)
    (hlength : a.adapter.serverUrls.length ≤ hits.length) :
    Follows (a.resolve r hits).2.2 ((a.resolve r hits).2.1.foldl (Ledger.record r) l) r := by
  subst hhits
  obtain ⟨hadapter, -, hself⟩ := resolve_spec a r (a.adapter.perServerHits r)
  obtain ⟨-, tokenIds, cacheSalt, hparams, hkey, hcount⟩ := h.opened hpending hnone
  rw [hself tokenIds cacheSalt hparams]
  have hfinished :
      (a.resolve r (a.adapter.perServerHits r)).2.2.adapter.finishedLookupResults.lookup r =
        some (least (a.adapter.perServerHits r) * a.adapter.lmcacheTokensPerChunk) := by
    rw [hadapter, List.lookup_append, hnone, Option.none_or, List.lookup_cons_self]
  have hnodup := h.nodup
  obtain ⟨hurls, hall⟩ := exists_hits hnodup h.subset hlength
  refine ⟨?_, ?_, fun hout => ?_, fun _ => ?_, fun _ hnot => ?_, fun n hn => ?_, fun n hn => ?_⟩
  · rw [hadapter]
    exact hnodup
  · rw [hadapter]
    exact h.subset
  · rw [hadapter] at hout
    exact absurd hpending hout
  · rw [hadapter]
    exact h.answered hpending
  · exact absurd (hfinished.symm.trans hnot) (Option.some_ne_none _)
  · exact hfinished.symm.trans hn
  · obtain rfl := Option.some.inj hn
    rw [hadapter]
    refine ⟨hurls, fun url hurl c => ?_⟩
    obtain ⟨n, hmem⟩ := hall url hurl
    have hleast : least (a.adapter.perServerHits r) ≤ n :=
      List.min?_getD_le_of_mem (List.mem_map.2 ⟨_, hmem, rfl⟩)
    have hlocked : l.locked a.adapter.lmcacheTokensPerChunk url c =
        (l.key.any (fun key => key.covers a.adapter.lmcacheTokensPerChunk c) &&
          decide (c < n)) := by
      rw [Ledger.locked, h.answered hpending]
      exact congrArg _ (any_key hnodup hmem fun p => decide (c < p.2))
    -- what the server has locked, less what it was told as one with more hits than the least
    have hkept := kept_eq a.adapter.lmcacheTokensPerChunk tokenIds.length _ n c hleast
    rw [← countP_tailLocks hnodup hmem _ _ tokenIds r cacheSalt] at hkept
    have hbefore := hcount url c
    rw [Ledger.timesFreed, List.count_eq_one_of_mem hurls hurl, Nat.one_mul] at hbefore
    rw [Ledger.held, Ledger.timesFreed, List.countP_append, hbefore, Nat.add_comm,
      Int.natCast_add, ← Int.sub_sub]
    refine congrArg (· - (l.timesGivenBack a.adapter.lmcacheTokensPerChunk c : Int)) ?_
    show (if l.locked a.adapter.lmcacheTokensPerChunk url c then 1 else 0 : Int) - _ = _
    rw [hlocked, hkey]
    exact hkept

/-- What a poll logs. -/
def pollLog (urls : List υ) (id : ρ) (new : List (υ × Nat)) : List (Entry υ ρ) :=
  urls.map (fun url => Entry.queryPrefetchStatus url id) ++
    new.map fun p => Entry.hits p.1 id p.2

/-- **What a check does**: it reads what it knows, or it polls the servers that have not answered,
of which one may be late; when all have answered the lookup is resolved. -/
theorem checkLookupResult_cases (a : LookupAdapter υ ρ) (id : ρ)
    (answers : υ → Option (Option Nat)) :
    (∃ result, a.checkLookupResult id answers = (result, [], a)) ∨
    id ∈ a.adapter.pendingLookups ∧ a.adapter.finishedLookupResults.lookup id = none ∧
      ∃ new, (new.map Prod.fst).Sublist (a.unresolvedUrls id) ∧
        ((∃ url, a.checkLookupResult id answers = (some 0, pollLog (a.unresolvedUrls id) id new,
            { a.setHits id (a.adapter.perServerHits id ++ new) with
              adapter := (a.setHits id (a.adapter.perServerHits id ++ new)).adapter.markUnhealthy
                url })) ∨
          a.checkLookupResult id answers = (none, pollLog (a.unresolvedUrls id) id new,
            a.setHits id (a.adapter.perServerHits id ++ new)) ∨
          a.adapter.serverUrls.length ≤ (a.adapter.perServerHits id ++ new).length ∧
          ∃ resolved, resolved = (a.setHits id (a.adapter.perServerHits id ++ new)).resolve id
              (a.adapter.perServerHits id ++ new) ∧
            a.checkLookupResult id answers = (some resolved.1,
              pollLog (a.unresolvedUrls id) id new ++ resolved.2.1, resolved.2.2)) := by
  obtain ⟨new, late, hcollect, hsub⟩ :=
    collect_spec answers (a.unresolvedUrls id) (a.adapter.perServerHits id)
  rw [LookupAdapter.checkLookupResult]
  dsimp only
  split
  · exact .inl ⟨_, rfl⟩
  · rename_i hpending
    split
    · exact .inl ⟨_, rfl⟩
    · split
      · exact .inl ⟨_, rfl⟩
      · rename_i hcached
        refine .inr ⟨not_not.1 hpending, Option.not_isSome_iff_eq_none.1 hcached, new, hsub, ?_⟩
        rw [hcollect]
        dsimp only
        rw [List.drop_left]
        cases late with
        | some url => exact .inl ⟨url, rfl⟩
        | none =>
          dsimp only
          split
          · exact .inr (.inl rfl)
          · rename_i hlength
            exact .inr (.inr ⟨Nat.le_of_not_lt hlength, _, rfl, rfl⟩)

omit [DecidableEq ρ] in
theorem mem_unresolvedUrls {url : υ} : url ∈ a.unresolvedUrls id ↔
    url ∈ a.adapter.serverUrls ∧ url ∉ (a.adapter.perServerHits id).map Prod.fst := by
  rw [LookupAdapter.unresolvedUrls, mem_firsts, List.mem_filter, decide_eq_true_eq]

/-- The answers of a poll are written down, of servers that had not answered. -/
theorem Follows.poll (h : Follows a l r) (hpending : id ∈ a.adapter.pendingLookups)
    (hnone : a.adapter.finishedLookupResults.lookup id = none) (urls : List υ)
    {new : List (υ × Nat)} (hsub : (new.map Prod.fst).Sublist (a.unresolvedUrls id)) :
    Follows (a.setHits id (a.adapter.perServerHits id ++ new))
      ((pollLog urls id new).foldl (Ledger.record r) l) r := by
  rw [pollLog, List.foldl_append, foldl_queries, foldl_hits]
  by_cases hid : id = r
  · subst hid
    rw [if_pos rfl]
    -- the servers that are asked had not answered, so that none is written down twice
    refine ⟨?_, ?_, fun hout => absurd hpending hout, fun _ => ?_, fun hin hnone => ?_, h.cached,
      fun n hn => ?_⟩
    · show ((Function.update a.adapter.perServerHits id _ id).map Prod.fst).Nodup
      rw [Function.update_self, List.map_append, List.nodup_append]
      refine ⟨h.nodup, hsub.nodup (nodup_firsts _), ?_⟩
      rintro url hold other hnew rfl
      exact (mem_unresolvedUrls.1 (hsub.subset hnew)).2 hold
    · show (Function.update a.adapter.perServerHits id _ id).map Prod.fst ⊆ _
      rw [Function.update_self, List.map_append]
      exact List.append_subset.2
        ⟨h.subset, fun url hurl => (mem_unresolvedUrls.1 (hsub.subset hurl)).1⟩
    · show l.answered ++ new = Function.update a.adapter.perServerHits id _ id
      rw [Function.update_self, h.answered hpending]
    · exact h.opened hin hnone
    · have hopen := (h.opened hpending hnone).1
      exact absurd (hopen.symm.trans hn) (Option.some_ne_none n).symm
  · rw [if_neg hid]
    exact h.of_same ⟨rfl, rfl, Iff.rfl, rfl, Function.update_of_ne (Ne.symm hid) .., rfl⟩

theorem Follows.check (h : Follows a l r) (answers : υ → Option (Option Nat)) :
    Follows (a.checkLookupResult id answers).2.2
      ((a.checkLookupResult id answers).2.1.foldl (Ledger.record r) l) r := by
  obtain ⟨result, heq⟩ | ⟨hpending, hnone, new, hsub, ⟨url, heq⟩ | heq |
    ⟨hlength, resolved, rfl, heq⟩⟩ := checkLookupResult_cases a id answers <;> rw [heq]
  · exact h
  · exact (h.poll hpending hnone _ hsub).of_same (same_markUnhealthy r _ url)
  · exact h.poll hpending hnone _ hsub
  · have hpolled := h.poll hpending hnone (a.unresolvedUrls id) hsub
    rw [List.foldl_append]
    by_cases hid : id = r
    · subst hid
      exact hpolled.resolve hpending hnone (Function.update_self ..) hlength
    · obtain ⟨hadapter, hother, -⟩ := resolve_spec
        (a.setHits id (a.adapter.perServerHits id ++ new)) id (a.adapter.perServerHits id ++ new)
      rw [(hother r (Ne.symm hid)).2]
      refine hpolled.of_same ⟨?_, ?_, ?_, ?_, ?_, (hother r (Ne.symm hid)).1⟩
      · rw [hadapter]
      · rw [hadapter]
      · rw [hadapter]
      · rw [hadapter, List.lookup_append, List.lookup_cons, beq_false_of_ne (Ne.symm hid),
          List.lookup_nil, Option.or_none]
      · rw [hadapter]

/-- Only servers that have not answered are asked. -/
theorem query_unresolved {answers : υ → Option (Option Nat)} {url : υ}
    (h : .queryPrefetchStatus url id ∈ (a.checkLookupResult id answers).2.1) :
    id ∈ a.adapter.pendingLookups ∧ url ∈ a.unresolvedUrls id := by
  have hpoll : ∀ new, .queryPrefetchStatus url id ∈ pollLog (a.unresolvedUrls id) id new →
      url ∈ a.unresolvedUrls id := by
    intro new hin
    obtain hin | hin := List.mem_append.1 hin
    · obtain ⟨other, hother, heq⟩ := List.mem_map.1 hin
      exact (Entry.queryPrefetchStatus.inj heq).1 ▸ hother
    · obtain ⟨_, _, heq⟩ := List.mem_map.1 hin
      cases heq
  obtain ⟨result, heq⟩ | ⟨hpending, -, new, -, ⟨_, heq⟩ | heq | ⟨-, resolved, rfl, heq⟩⟩ :=
    checkLookupResult_cases a id answers <;> rw [heq] at h
  · exact absurd h List.not_mem_nil
  · exact ⟨hpending, hpoll new h⟩
  · exact ⟨hpending, hpoll new h⟩
  · refine ⟨hpending, hpoll new ((List.mem_append.1 h).resolve_right fun hin => ?_)⟩
    rw [LookupAdapter.resolve] at hin
    obtain hin | hin := List.mem_append.1 hin
    · split at hin
      · rw [LookupAdapter.freeInconsistentLookupLocks] at hin
        split at hin
        · exact List.not_mem_nil hin
        · obtain ⟨_, _, heq⟩ := List.mem_map.1 hin
          cases heq
      · exact List.not_mem_nil hin
    · cases List.mem_singleton.1 hin

theorem step_config (a : LookupAdapter υ ρ) (op : Op υ ρ) :
    (a.step op).2.adapter.serverUrls = a.adapter.serverUrls ∧
      (a.step op).2.adapter.lmcacheTokensPerChunk = a.adapter.lmcacheTokensPerChunk := by
  cases op with
  | lookup id tokenIds cacheSalt answers =>
    have hstart := same_ensureHeartbeatStarted id a
    rw [← hstart.serverUrls, ← hstart.chunk, LookupAdapter.step,
      LookupAdapter.maybeSubmitLookupRequest]
    dsimp only
    split
    · exact ⟨rfl, rfl⟩
    · split
      · exact ⟨rfl, rfl⟩
      · split <;> exact ⟨rfl, rfl⟩
  | check id answers =>
    rw [LookupAdapter.step]
    obtain ⟨result, heq⟩ | ⟨-, -, new, -, ⟨url, heq⟩ | heq | ⟨-, resolved, rfl, heq⟩⟩ :=
      checkLookupResult_cases a id answers <;> rw [heq]
    · exact ⟨rfl, rfl⟩
    · exact ⟨rfl, rfl⟩
    · exact ⟨rfl, rfl⟩
    · dsimp only
      rw [(resolve_spec (a.setHits id (a.adapter.perServerHits id ++ new)) id _).1]
      exact ⟨rfl, rfl⟩
  | cleanup id => exact ⟨rfl, rfl⟩
  | free tokenIds start stop id cacheSalt => exact ⟨rfl, rfl⟩
  | health healthEvents => exact ⟨rfl, rfl⟩

theorem Follows.step (hservers : a.adapter.serverUrls ≠ []) (h : Follows a l r) (op : Op υ ρ) :
    Follows (a.step op).2 ((a.step op).1.foldl (Ledger.record r) l) r := by
  cases op with
  | lookup id tokenIds cacheSalt answers => exact h.lookup hservers tokenIds cacheSalt answers
  | check id answers => exact h.check answers
  | cleanup id => exact h.cleanup
  | free tokenIds start stop id cacheSalt => exact h.free tokenIds start stop cacheSalt
  | health healthEvents => exact h.of_same ⟨rfl, rfl, Iff.rfl, rfl, rfl, rfl⟩

end Steps

/-! ### The adapter without what it sends -/

section Projection

variable {υ : Type u} {ρ : Type v} [DecidableEq υ] [DecidableEq ρ] {a : LookupAdapter υ ρ}

theorem maybeSubmitLookupRequest_adapter (a : LookupAdapter υ ρ) (id : ρ) (tokenIds : List Nat)
    (cacheSalt : String) (answers : υ → Bool) :
    (a.maybeSubmitLookupRequest id tokenIds cacheSalt answers).2.adapter =
      a.adapter.maybeSubmitLookupRequest id answers := by
  rw [LookupAdapter.maybeSubmitLookupRequest, SchedulerAdapter.maybeSubmitLookupRequest]
  dsimp only
  split
  · rfl
  · split
    · rfl
    · generalize List.find? _ _ = late
      cases late <;> rfl

/-- With servers that are all different, the keys of the futures are the servers themselves. -/
theorem checkLookupResult_adapter (hnodup : a.adapter.serverUrls.Nodup) (id : ρ)
    (answers : υ → Option (Option Nat)) :
    (a.checkLookupResult id answers).2.2.adapter = a.adapter.checkLookupResult id answers := by
  have hcached : id ∈ a.adapter.finishedLookupResults.map Prod.fst ↔
      (a.adapter.finishedLookupResults.lookup id).isSome = true := by
    rw [List.lookup_isSome_iff, List.mem_map]
    refine exists_congr fun p => and_congr_right fun _ => ?_
    rw [beq_iff_eq]
    exact eq_comm
  have hurls : a.unresolvedUrls id = a.adapter.serverUrls.filter fun url =>
      url ∉ (a.adapter.perServerHits id).map Prod.fst :=
    firsts_of_nodup (hnodup.filter _)
  rw [LookupAdapter.checkLookupResult, SchedulerAdapter.checkLookupResult, hurls]
  dsimp only
  split
  · rfl
  · split
    · rfl
    · split
      · rename_i hsome
        rw [if_pos (hcached.2 hsome)]
      · rename_i hnone
        rw [if_neg (mt hcached.1 hnone)]
        generalize SchedulerAdapter.collect answers _ _ = polled
        obtain ⟨hits, late⟩ := polled
        cases late with
        | some url => rfl
        | none =>
          dsimp only
          split
          · rfl
          · exact (resolve_spec (a.setHits id hits) id hits).1

end Projection

/-! ### Runs -/

section Runs

variable {υ : Type u} {ρ : Type v} [DecidableEq υ] [DecidableEq ρ]

theorem run_concat (serverUrls : List υ) (chunk : Nat) (ops : List (Op υ ρ)) (op : Op υ ρ) :
    World.run serverUrls chunk (ops ++ [op]) = (World.run serverUrls chunk ops).next op := by
  rw [World.run, List.foldl_append]
  rfl

theorem run_config (serverUrls : List υ) (chunk : Nat) (ops : List (Op υ ρ)) :
    (World.run serverUrls chunk ops).adapter.adapter.serverUrls = serverUrls ∧
      (World.run serverUrls chunk ops).adapter.adapter.lmcacheTokensPerChunk = chunk := by
  induction ops using List.reverseRecOn with
  | nil => exact ⟨rfl, rfl⟩
  | append_singleton ops op ih =>
    rw [run_concat]
    obtain ⟨hurls, hchunk⟩ := step_config (World.run serverUrls chunk ops).adapter op
    exact ⟨hurls.trans ih.1, hchunk.trans ih.2⟩

/-- **What a run keeps.** -/
theorem run_follows {serverUrls : List υ} (hservers : serverUrls ≠ []) (chunk : Nat)
    (ops : List (Op υ ρ)) (r : ρ) :
    Follows (World.run serverUrls chunk ops).adapter
      (Ledger.read r (World.run serverUrls chunk ops).log) r := by
  induction ops using List.reverseRecOn with
  | nil =>
    refine ⟨List.nodup_nil, List.nil_subset _, fun _ => ⟨rfl, rfl⟩,
      fun hin => absurd hin List.not_mem_nil, fun hin => absurd hin List.not_mem_nil,
      fun n hn => absurd hn (Option.some_ne_none n).symm,
      fun n hn => absurd hn (Option.some_ne_none n).symm⟩
  | append_singleton ops op ih =>
    rw [run_concat, Ledger.read, World.next, List.foldl_append]
    exact ih.step ((run_config serverUrls chunk ops).1.symm ▸ hservers) op

/-- **The servers hold the result of a lookup**: once a lookup has come to a result, and until
the next lookup of that request, every server holds each chunk of the result once and no other
chunk of the key, less what the connector has given back since the lookup. Until it is cleaned up
every check gives that result, the servers being healthy, and asks nothing; and no server is asked
that has answered. What an earlier lookup of the request has left locked is not in the ledger, and
a server that is named twice is asked and counted once. -/
theorem servers_hold_result (serverUrls : List υ) (chunk : Nat) (ops : List (Op υ ρ)) (r : ρ) :
    let w := World.run serverUrls chunk ops
    let l := Ledger.read r w.log
    (∀ n, l.result = some n →
      (∀ url ∈ serverUrls, ∀ c, l.held chunk url c =
        (if l.key.any (fun key => key.covers chunk c) && decide (c * chunk < n) then 1 else 0) -
          (l.timesGivenBack chunk c : Int)) ∧
      ∀ answers, serverUrls ≠ [] → r ∈ w.adapter.adapter.pendingLookups →
        w.adapter.adapter.isHealthy = true →
          w.adapter.checkLookupResult r answers = (some n, [], w.adapter)) ∧
    ∀ answers url, .queryPrefetchStatus url r ∈ (w.adapter.checkLookupResult r answers).2.1 →
      url ∈ serverUrls ∧ url ∉ l.answered.map Prod.fst := by
  intro w l
  obtain ⟨hurls, hchunk⟩ := run_config serverUrls chunk ops
  refine ⟨fun n hresult => ⟨fun url hurl c => ?_, fun answers hservers hpending hhealthy => ?_⟩,
    fun answers url hquery => ?_⟩
  · have hfollows := run_follows (List.ne_nil_of_mem hurl) chunk ops r
    have hheld := (hfollows.settled n hresult).2
    rw [hurls, hchunk] at hheld
    exact hheld url hurl c
  · have hfollows := run_follows hservers chunk ops r
    have hcached : w.adapter.adapter.finishedLookupResults.lookup r = some n := by
      cases hlookup : w.adapter.adapter.finishedLookupResults.lookup r with
      | none =>
        have hopen := (hfollows.opened hpending hlookup).1
        exact absurd (hopen.symm.trans hresult) (Option.some_ne_none n).symm
      | some m => exact (hfollows.cached m hlookup).symm.trans hresult
    rw [LookupAdapter.checkLookupResult, hcached]
    dsimp only
    rw [if_neg (not_not.2 hpending), hhealthy]
    rfl
  · obtain ⟨hpending, hurl⟩ := query_unresolved hquery
    obtain ⟨hmem, hnot⟩ := mem_unresolvedUrls.1 hurl
    have hmem : url ∈ serverUrls := hurls ▸ hmem
    have hfollows := run_follows (List.ne_nil_of_mem hmem) chunk ops r
    refine ⟨hmem, ?_⟩
    rw [hfollows.answered hpending]
    exact hnot

/-- Two servers hit three chunks and one. The first one frees two; it is not asked again. -/
example :
    let w := World.run ["a", "b"] 2 [.lookup "r" [1, 2, 3, 4, 5, 6, 7] "" fun _ => true,
      .check "r" fun url => some (if url = "a" then some 3 else none),
      .check "r" fun url => if url = "a" then none else some (some 1)]
    (Ledger.read "r" w.log).result = some 2 ∧ ∀ url ∈ ["a", "b"], ∀ c ∈ [0, 1, 2, 3],
      (Ledger.read "r" w.log).held 2 url c = if c = 0 then 1 else 0 := by
  decide

end Runs

end Lookup

end Lmcache

end DgxSpark
