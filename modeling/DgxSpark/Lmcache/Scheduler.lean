import Mathlib.Data.Finset.Basic
import Mathlib.Data.Finset.Image
import Mathlib.Data.Finset.SDiff
import Mathlib.Data.Finset.Lattice.Basic
import Mathlib.Logic.Function.Basic
import Mathlib.Tactic

/-!
# The scheduler of the engine, where it loads from the cache

The parts of `scheduler.py` that deal with asynchronous loads: a request that waits for one is
in `WAITING_FOR_REMOTE_KVS`, its completion and its failure are recorded in two sets by
`update_from_output`, and the next `schedule` that comes to the request promotes it, retries
the load after a backoff, or leaves it where it is.

A scheduling pass and a step's output are cut into what they do to one request after the
other. What they decide from budgets, batches and the contents of the prefix cache is a
parameter (`DgxSpark.Lmcache.Admission`, `DgxSpark.Lmcache.Progress`); the connector is there,
and its `request_finished` returns `False`.

| | |
|---|---|
| a waiting request's turn | `DgxSpark.Lmcache.Scheduler.visit` |
| a failed load | `DgxSpark.Lmcache.Scheduler.handleInvalidBlocks` |
| a completed load | `DgxSpark.Lmcache.Scheduler.updateFromKvXferFinished` |
| an abort | `DgxSpark.Lmcache.Scheduler.finishRequests` |
-/

namespace DgxSpark

namespace Lmcache

/-! ### Requests -/

/-- `RequestStatus`. -/
inductive RequestStatus where
  | waiting
  | waitingForStructuredOutputGrammar
  | waitingForRemoteKvs
  | waitingForStreamingReq
  | running
  | preempted
  | finishedStopped
  | finishedLengthCapped
  | finishedAborted
  | finishedIgnored
  | finishedError
  | finishedRepetition
deriving DecidableEq, Repr

/-- `RequestStatus.is_finished`. -/
def RequestStatus.isFinished : RequestStatus → Bool
  | .finishedStopped | .finishedLengthCapped | .finishedAborted => true
  | .finishedIgnored | .finishedError | .finishedRepetition => true
  | _ => false

/-- `_is_blocked_waiting_status`. -/
def RequestStatus.isBlockedWaiting : RequestStatus → Bool
  | .waitingForStructuredOutputGrammar | .waitingForRemoteKvs => true
  | .waitingForStreamingReq => true
  | _ => false

/-- What a request keeps of its loads. -/
structure Request where
  status : RequestStatus
  numTokens : Nat
  numComputedTokens : Nat
  numPreemptions : Nat
  kvLoadRetryCount : Nat
  kvLoadRetryPending : Bool
  kvLoadRetryNotBefore : Int
deriving DecidableEq, Repr

/-- A finished status. -/
abbrev FinishedStatus : Type := { status : RequestStatus // status.isFinished = true }

/-- A request that waits for the load of its blocks. -/
def Request.isLoading (r : Request) : Bool := r.status = .waitingForRemoteKvs

/-- A group of the hybrid cache: whether a block stands for a place in the prefix, and how many
tokens it holds. -/
structure KvCacheGroup where
  prefixIndexed : Bool
  blockSize : Nat
deriving DecidableEq, Repr

/-- The settings of the scheduler. -/
structure SchedulerConfig where
  recomputeKvLoadFailures : Bool
  maxKvLoadRetries : Nat
  kvLoadRetryBackoff : Int
  kvCacheGroups : List KvCacheGroup
  nullBlockId : Nat

/-- The state of the scheduler; `blocks` is the block table of the cache manager. -/
structure Scheduler where
  requests : String → Option Request
  waiting : List String
  skippedWaiting : List String
  running : List String
  blocks : String → List (List Nat)
  finishedRecvingKvReqIds : Finset String
  failedRecvingKvReqIds : Finset String
  inflightPrefills : Finset String
  finishedReqIds : Finset String

/-- A scheduler without requests. -/
def Scheduler.init : Scheduler where
  requests := fun _ => none
  waiting := []
  skippedWaiting := []
  running := []
  blocks := fun _ => []
  finishedRecvingKvReqIds := ∅
  failedRecvingKvReqIds := ∅
  inflightPrefills := ∅
  finishedReqIds := ∅

namespace Scheduler

/-- An assignment to fields of a request. -/
def put (s : Scheduler) (id : String) (r : Request) : Scheduler :=
  { s with requests := Function.update s.requests id (some r) }

/-- `kv_cache_manager.free`. -/
def freeKv (s : Scheduler) (id : String) : Scheduler :=
  { s with blocks := Function.update s.blocks id [] }

/-- A request leaves its queues. -/
def dequeue (s : Scheduler) (id : String) : Scheduler :=
  { s with
    waiting := s.waiting.filter (· ≠ id)
    skippedWaiting := s.skippedWaiting.filter (· ≠ id)
    running := s.running.filter (· ≠ id) }

/-- A request that was passed over goes to the front of the skipped ones. -/
def skip (s : Scheduler) (id : String) : Scheduler :=
  { s with
    waiting := s.waiting.filter (· ≠ id)
    skippedWaiting := id :: s.skippedWaiting.filter (· ≠ id) }

/-! ### Arrivals -/

/-- `_enqueue_waiting_request`. -/
def enqueueWaitingRequest (s : Scheduler) (id : String) (status : RequestStatus) : Scheduler :=
  if status.isBlockedWaiting then { s with skippedWaiting := s.skippedWaiting ++ [id] }
  else { s with waiting := s.waiting ++ [id] }

/-- `add_request` of a new request. -/
def addRequest (s : Scheduler) (id : String) (numTokens : Nat) (grammar : Bool) : Scheduler :=
  let status := if grammar then .waitingForStructuredOutputGrammar else .waiting
  (s.put id ⟨status, numTokens, 0, 0, 0, false, 0⟩).enqueueWaitingRequest id status

/-- `_update_request_as_session`: the next input of a session that waits for it. -/
def updateRequestAsSession (s : Scheduler) (id : String) (r : Request) (numTokens : Nat) :
    Scheduler :=
  (s.put id { r with status := .waiting, numTokens := numTokens }).skip id

/-! ### A waiting request's turn -/

/-- What a scheduling pass finds when it comes to a waiting request. -/
structure Turn where
  /-- `time.monotonic()` -/
  now : Int
  /-- what the connector's `reset_load_state` returns -/
  resetLoadState : Bool
  /-- the grammar of the request is compiled -/
  grammarReady : Bool

/-- What a pass does with a request that can be scheduled. -/
inductive Admission where
  /-- it is passed over -/
  | skip
  /-- the pass ends before it -/
  | stop
  /-- an asynchronous load is started -/
  | load (blocks : List (List Nat)) (numComputedTokens : Nat)
  /-- it runs -/
  | run (blocks : List (List Nat)) (numComputedTokens : Nat)

/-- `_maybe_retry_kv_load`. -/
def maybeRetryKvLoad (cfg : SchedulerConfig) (turn : Turn) (s : Scheduler) (id : String)
    (r : Request) : Bool × Scheduler :=
  if ¬cfg.recomputeKvLoadFailures then (false, s)
  else if cfg.maxKvLoadRetries ≤ r.kvLoadRetryCount then (false, s)
  else if ¬turn.resetLoadState then (false, s)
  else
    let s := s.put id { r with
      kvLoadRetryCount := r.kvLoadRetryCount + 1
      kvLoadRetryPending := true
      kvLoadRetryNotBefore := turn.now + cfg.kvLoadRetryBackoff
      numComputedTokens := 0 }
    let s := s.freeKv id
    (true, { s with inflightPrefills := s.inflightPrefills.erase id })

/-- `_update_waiting_for_remote_kv`, for a request `r`. -/
def updateWaitingForRemoteKv (cfg : SchedulerConfig) (turn : Turn) (s : Scheduler) (id : String)
    (r : Request) : Bool × Scheduler :=
  if id ∈ s.failedRecvingKvReqIds then
    let s := { s with failedRecvingKvReqIds := s.failedRecvingKvReqIds.erase id }
    let (retried, s) := maybeRetryKvLoad cfg turn s id r
    if retried then
      (false, { s with finishedRecvingKvReqIds := s.finishedRecvingKvReqIds.erase id })
    else
      -- the valid tokens stay cached; without any, the blocks are released
      let s := if r.numComputedTokens ≠ 0 then s else s.freeKv id
      (true, { s with finishedRecvingKvReqIds := s.finishedRecvingKvReqIds.erase id })
  else
    -- on a full prompt hit, the last token is computed again
    let s := if r.numComputedTokens = r.numTokens then
      s.put id { r with numComputedTokens := r.numTokens - 1 } else s
    (true, { s with finishedRecvingKvReqIds := s.finishedRecvingKvReqIds.erase id })

/-- The status of a request becomes `status`. -/
def setStatus (s : Scheduler) (id : String) (status : RequestStatus) : Scheduler :=
  { s with
    requests := Function.update s.requests id
      ((s.requests id).map fun r => { r with status := status }) }

/-- `_try_promote_blocked_waiting_request`, for a request `r` in a blocked status. -/
def tryPromoteBlockedWaitingRequest (cfg : SchedulerConfig) (turn : Turn) (s : Scheduler)
    (id : String) (r : Request) : Bool × Scheduler :=
  match r.status with
  | .waitingForRemoteKvs =>
    if r.kvLoadRetryPending then
      if turn.now < r.kvLoadRetryNotBefore then (false, s)
      else (true, s.put id { r with kvLoadRetryPending := false, status := .waiting })
    else if id ∉ s.finishedRecvingKvReqIds then (false, s)
    else
      let (ready, s) := updateWaitingForRemoteKv cfg turn s id r
      if ready then
        (true, s.setStatus id (if r.numPreemptions ≠ 0 then .preempted else .waiting))
      else (false, s)
  | .waitingForStructuredOutputGrammar =>
    if turn.grammarReady then (true, s.setStatus id .waiting) else (false, s)
  | _ => (false, s)

/-- The rest of the turn, for a request `r` that can be scheduled; and whether it started a
load. A request that has computed tokens is not looked up again. -/
def restOfTurn (s : Scheduler) (id : String) (r : Request) : Admission → Bool × Scheduler
  | .skip => (false, s.skip id)
  | .stop => (false, s)
  | .load blocks numComputedTokens =>
    if r.numComputedTokens = 0 then
      let s := (s.put id { r with
        status := .waitingForRemoteKvs, numComputedTokens := numComputedTokens }).skip id
      (true, { s with
        blocks := Function.update s.blocks id blocks
        inflightPrefills := insert id s.inflightPrefills })
    else (false, s)
  | .run blocks numComputedTokens =>
    let computed := if r.numComputedTokens = 0 then numComputedTokens else r.numComputedTokens
    let s := (s.put id { r with
      status := .running, numComputedTokens := computed }).dequeue id
    (false, { s with
      running := s.running ++ [id]
      blocks := Function.update s.blocks id blocks })

/-- One iteration of the second loop of `schedule`, and whether it started a load. -/
def visit (cfg : SchedulerConfig) (turn : Turn) (admission : Admission) (s : Scheduler)
    (id : String) : Bool × Scheduler :=
  match s.requests id with
  | none => (false, s)
  | some r =>
    if r.status.isBlockedWaiting then
      match tryPromoteBlockedWaitingRequest cfg turn s id r with
      | (false, s) => (false, s.skip id)
      | (true, s) =>
        match s.requests id with
        | none => (false, s)
        | some r => s.restOfTurn id r admission
    else if r.status = .waiting ∨ r.status = .preempted then s.restOfTurn id r admission
    else (false, s)

/-! ### Running requests -/

/-- `_preempt_request`. -/
def preemptRequest (s : Scheduler) (id : String) (r : Request) : Scheduler :=
  let s := ((s.freeKv id).put id { r with
    status := .preempted
    numComputedTokens := 0
    numPreemptions := r.numPreemptions + 1 }).dequeue id
  { s with
    waiting := id :: s.waiting
    inflightPrefills := s.inflightPrefills.erase id }

/-- `_update_after_schedule`, for a request that was scheduled. -/
def updateAfterSchedule (s : Scheduler) (id : String) (r : Request) (numScheduled : Nat) :
    Scheduler :=
  s.put id { r with numComputedTokens := r.numComputedTokens + numScheduled }

/-! ### The end of a request -/

/-- `_free_blocks`. -/
def freeBlocks (s : Scheduler) (id : String) : Scheduler :=
  let s := s.freeKv id
  { s with requests := Function.update s.requests id none }

/-- `_free_request`; the connector's `request_finished` returns `False`. -/
def freeRequest (s : Scheduler) (id : String) (delayFreeBlocks : Bool) : Scheduler :=
  let s := { s with
    inflightPrefills := s.inflightPrefills.erase id
    finishedReqIds := insert id s.finishedReqIds }
  if delayFreeBlocks then s else s.freeBlocks id

/-- `finish_requests`, for one of its requests. -/
def finishRequest (status : FinishedStatus) (s : Scheduler) (id : String) : Scheduler :=
  match s.requests id with
  | none => s
  | some r =>
    if r.status.isFinished then s
    else
      let s := s.dequeue id
      if r.isLoading then
        let delayFreeBlocks := decide (id ∉ s.finishedRecvingKvReqIds)
        let s := { s with
          finishedRecvingKvReqIds := s.finishedRecvingKvReqIds.erase id
          failedRecvingKvReqIds := s.failedRecvingKvReqIds.erase id }
        (s.put id { r with status := status }).freeRequest id delayFreeBlocks
      else (s.put id { r with status := status }).freeRequest id false

/-- `finish_requests`. -/
def finishRequests (s : Scheduler) (ids : List String) (status : FinishedStatus) : Scheduler :=
  ids.foldl (finishRequest status) s

/-! ### Failed loads -/

/-- What the scan for invalid blocks keeps of a request, and of the requests before it. -/
structure Scan where
  affected : Bool
  markedOwnInvalid : Bool
  minValidTokens : Nat
  markedInvalidBlockIds : Finset Nat
  blocksToEvict : Finset Nat

/-- A block of a group, at its index. -/
def scanBlock (cfg : SchedulerConfig) (invalid : Finset Nat) (group : KvCacheGroup)
    (groupBlockIds : List Nat) (scan : Scan) (p : Nat × Nat) : Scan :=
  if p.1 ∉ invalid then scan
  else if p.1 = cfg.nullBlockId then scan
  else if p.1 ∈ scan.markedInvalidBlockIds then { scan with affected := true }
  else
    { affected := true
      markedOwnInvalid := true
      minValidTokens :=
        min scan.minValidTokens (if group.prefixIndexed then p.2 * group.blockSize else 0)
      markedInvalidBlockIds := insert p.1 scan.markedInvalidBlockIds
      blocksToEvict := scan.blocksToEvict ∪ (groupBlockIds.drop p.2).toFinset }

/-- A group of a request: its blocks that may hold computed tokens. -/
def scanGroup (cfg : SchedulerConfig) (invalid : Finset Nat) (reqNumComputed : Nat)
    (scan : Scan) (p : KvCacheGroup × List Nat) : Scan :=
  let numBlocks := (reqNumComputed + p.1.blockSize - 1) / p.1.blockSize
  ((p.2.take numBlocks).zipIdx).foldl (scanBlock cfg invalid p.1 p.2) scan

/-- The scan of a request. -/
def scanRequest (cfg : SchedulerConfig) (invalid : Finset Nat) (reqNumComputed : Nat)
    (blocks : List (List Nat)) (marked evict : Finset Nat) : Scan :=
  (cfg.kvCacheGroups.zip blocks).foldl (scanGroup cfg invalid reqNumComputed)
    ⟨false, false, reqNumComputed, marked, evict⟩

/-- The requests that a scan has found affected, the blocks it has marked and those it would
evict, and the scheduler that it leaves. -/
structure Scanned where
  affectedReqIds : List String
  marked : Finset Nat
  blocksToEvict : Finset Nat
  scheduler : Scheduler

/-- One request of `_update_requests_with_invalid_blocks`. -/
def updateRequestWithInvalidBlocks (cfg : SchedulerConfig) (invalid : Finset Nat)
    (numScheduled : String → Nat) (t : Scanned) (id : String) : Scanned :=
  match t.scheduler.requests id with
  | none => t
  | some r =>
    let reqNumComputed := r.numComputedTokens - numScheduled id
    let scan := scanRequest cfg invalid reqNumComputed (t.scheduler.blocks id) t.marked
      t.blocksToEvict
    if scan.affected then
      { affectedReqIds := t.affectedReqIds ++ [id]
        marked := scan.markedInvalidBlockIds
        blocksToEvict := scan.blocksToEvict
        scheduler := t.scheduler.put id { r with
          numComputedTokens :=
            if scan.markedOwnInvalid then scan.minValidTokens else reqNumComputed } }
    else { t with marked := scan.markedInvalidBlockIds, blocksToEvict := scan.blocksToEvict }

/-- `_update_requests_with_invalid_blocks`. -/
def updateRequestsWithInvalidBlocks (cfg : SchedulerConfig) (invalid : Finset Nat)
    (numScheduled : String → Nat) (ids : List String) (s : Scheduler) : Scanned :=
  ids.foldl (updateRequestWithInvalidBlocks cfg invalid numScheduled) ⟨[], ∅, ∅, s⟩

/-- The requests whose asynchronous loads are under way. -/
def asyncLoadReqs (s : Scheduler) : List String :=
  s.skippedWaiting.filter fun id => (s.requests id).any Request.isLoading

/-- `_handle_invalid_blocks`: the requests to leave out of the step's output. Evicting blocks
from the prefix cache changes nothing here. -/
def handleInvalidBlocks (cfg : SchedulerConfig) (invalid : Finset Nat)
    (numScheduled : String → Nat) (s : Scheduler) : List String × Scheduler :=
  let async := updateRequestsWithInvalidBlocks cfg invalid numScheduled s.asyncLoadReqs s
  let sync := updateRequestsWithInvalidBlocks cfg invalid numScheduled s.running
    async.scheduler
  if async.affectedReqIds = [] ∧ sync.affectedReqIds = [] then ([], sync.scheduler)
  else if ¬cfg.recomputeKvLoadFailures then
    (async.affectedReqIds ++ sync.affectedReqIds, sync.scheduler)
  else
    (sync.affectedReqIds, { sync.scheduler with
      failedRecvingKvReqIds :=
        sync.scheduler.failedRecvingKvReqIds ∪ async.affectedReqIds.toFinset })

/-! ### Completed loads -/

/-- `_update_from_kv_xfer_finished`, for a load that has completed. -/
def finishedRecving (s : Scheduler) (id : String) : Scheduler :=
  match s.requests id with
  | none => s
  | some r =>
    if r.isLoading then
      { s with finishedRecvingKvReqIds := insert id s.finishedRecvingKvReqIds }
    else if r.status.isFinished then s.freeBlocks id
    else s

/-- `_update_from_kv_xfer_finished`, for a store that has completed. -/
def finishedSending (s : Scheduler) (id : String) : Scheduler :=
  match s.requests id with
  | none => s
  | some r => if r.status.isFinished then s.freeBlocks id else s

/-- `_update_from_kv_xfer_finished`. -/
def updateFromKvXferFinished (s : Scheduler) (recving sending : List String) : Scheduler :=
  sending.foldl finishedSending (recving.foldl finishedRecving s)

/-! ### The output of a step -/

/-- How a request stops: for good, until the next input of its session, or with that input
there already. -/
inductive Stop where
  | finish (status : FinishedStatus)
  | awaitInput
  | nextInput

/-- What a step's output does to a request that was scheduled. -/
structure Progress where
  numComputedTokens : Nat
  numTokens : Nat
  stop : Option Stop

/-- The output of a step: the requests that were scheduled in it, what became of each, and what
the worker connectors report. -/
structure Output where
  scheduled : List (String × Nat × Progress)
  invalidBlockIds : Finset Nat
  finishedRecving : List String
  finishedSending : List String

/-- `scheduler_output.num_scheduled_tokens.get(req_id, 0)`. -/
def Output.numScheduled (out : Output) (id : String) : Nat :=
  ((out.scheduled.lookup id).map Prod.fst).getD 0

/-- A scheduled request in the loop of `update_from_output`. One that is loading again has only
output to drop. -/
def progressRequest (s : Scheduler) (id : String) (progress : Progress) : Scheduler :=
  match s.requests id with
  | none => s
  | some r =>
    if r.status = .running ∨ r.status = .preempted then
      let r := { r with
        numComputedTokens := progress.numComputedTokens, numTokens := progress.numTokens }
      match progress.stop with
      | none => s.put id r
      | some (.finish status) =>
        ((s.put id { r with status := status }).dequeue id).freeRequest id false
      | some .awaitInput =>
        let status := RequestStatus.waitingForStreamingReq
        ((s.put id { r with status := status }).dequeue id).enqueueWaitingRequest id status
      | some .nextInput =>
        let status := RequestStatus.waiting
        ((s.put id { r with status := status }).dequeue id).enqueueWaitingRequest id status
    else s

/-- `update_from_output`. -/
def updateFromOutput (cfg : SchedulerConfig) (s : Scheduler) (out : Output) : Scheduler :=
  let (failed, s) :=
    if out.invalidBlockIds = ∅ then ([], s)
    else handleInvalidBlocks cfg out.invalidBlockIds out.numScheduled s
  let s := out.scheduled.foldl
    (fun s p => if p.1 ∈ failed then s else s.progressRequest p.1 p.2.2) s
  let s := if cfg.recomputeKvLoadFailures then s else s.finishRequests failed ⟨.finishedError, rfl⟩
  s.updateFromKvXferFinished out.finishedRecving out.finishedSending

end Scheduler

end Lmcache

end DgxSpark
