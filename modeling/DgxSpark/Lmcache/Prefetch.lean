import DgxSpark.Lmcache.Transfer
import Mathlib.Data.List.SplitBy
import Mathlib.Data.List.Sort
import Mathlib.Data.List.FinRange

/-!
# A prefetch from L2 to L1

`PrefetchController` of `prefetch_controller.py`, for one request: the keys that are resident are
read-locked in L1, every adapter looks the keys up and locks what it has, a plan of loads is
made and trimmed to what the request can use, buffers are reserved in L1 window by window, the
loads are submitted, and at the end what was loaded becomes read-locked and everything else is
given back.

The L1 manager, the adapters, the policy that chooses a plan and `fold_unfold_ranked` are not
part of the repository. What the calls of the controller come to is kept in books
(`DgxSpark.Lmcache.Books`): the locks and reservations that were taken and given back, and which
objects can be read. What the calls answer is a parameter: the content of L1, what each lookup
and each load finds, and what becomes of each window of reservations.

| | |
|---|---|
| the L1 lock pass | `DgxSpark.Lmcache.PrefetchRequestSpec.lockL1Keys` |
| the plan and the reservations | `DgxSpark.Lmcache.PrefetchRequestSpec.transitionToLoadPhase` |
| the only way to complete | `DgxSpark.Lmcache.PrefetchRequestSpec.finishRequest` |
| a whole run | `DgxSpark.Lmcache.PrefetchRequestSpec.run` |
-/

namespace DgxSpark

namespace Lmcache

/-! ### Bitmaps -/

/-- `Bitmap`, over the keys of a request. -/
abbrev Bitmap (n : Nat) : Type := Fin n → Bool

namespace Bitmap

variable {n : Nat} {α : Type}

def empty : Bitmap n := fun _ => false

def and (a b : Bitmap n) : Bitmap n := fun i => a i && b i

def or (a b : Bitmap n) : Bitmap n := fun i => a i || b i

def not (a : Bitmap n) : Bitmap n := fun i => !a i

/-- `Bitmap(n, k)`: the first `k`. -/
def leading (k : Nat) : Bitmap n := fun i => i.val < k

/-- `get_indices_list`. -/
def indices (b : Bitmap n) : List (Fin n) := (List.finRange n).filter b

def popcount (b : Bitmap n) : Nat := (indices b).length

def gather (b : Bitmap n) (xs : Fin n → α) : List α := (indices b).map xs

def countLeadingOnes (b : Bitmap n) : Nat := ((List.finRange n).takeWhile b).length

/-- `merge_bitmaps`, of the values of a plan. -/
def merge (plan : List (Nat × Bitmap n)) : Bitmap n := fun i => plan.any fun p => p.2 i

/-- Every key of one is a key of the other. -/
def Within (a b : Bitmap n) : Prop := ∀ i, a i = true → b i = true

end Bitmap

/-! ### Requests -/

/-- `TrimPolicy`. -/
inductive TrimPolicy where
  | prefixRun
  | segmentedPrefix
  | sparse
deriving DecidableEq, Repr

/-- `PrefetchMode`. -/
inductive PrefetchMode where
  | lookup
  | warm
deriving DecidableEq, Repr

/-- `PrefetchPhase`. -/
inductive PrefetchPhase where
  | lookup
  | planAndLoad
deriving DecidableEq, Repr

/-- What `reserve_write` answers for a key. -/
inductive WriteResult where
  | success
  | outOfMemory
  | keyNotWritable
  | otherError
deriving DecidableEq, Repr

/-- `PrefetchRequestSpec`, with what the attention windows make of it. -/
structure PrefetchRequestSpec (Key : Type) (n : Nat) where
  keys : Fin n → Key
  distinct : Function.Injective keys
  extraCount : Nat
  policy : TrimPolicy
  mode : PrefetchMode
  /-- `num_object_groups * world_size` -/
  stride : Nat
  /-- `fold_unfold_ranked`, for the chunks and the windows of the request -/
  fold : Bitmap n → Nat × Bitmap n

/-- Bitmaps by adapter. -/
abbrev Plan (n : Nat) : Type := List (Nat × Bitmap n)

/-- `InFlightPrefetchRequest`. -/
structure InFlightPrefetchRequest (Key : Type) (n : Nat) where
  phase : PrefetchPhase
  pendingLookupTasks : List Nat
  lookupResults : Plan n
  /-- `l2_adapter2readlocks` -/
  l2Readlocks : Plan n
  /-- the hit, once it is reported -/
  reportedHit : Option Nat
  loadPlan : Plan n
  pendingLoadTasks : List Nat
  /-- by adapter, the positions in its part of the plan that were loaded -/
  loadResults : List (Nat × (Nat → Bool))
  writeReservedKeys : List Key
  l1Readlocks : Bitmap n

/-! ### Books -/

/-- What the calls of a request have come to. -/
structure Books (Key : Type) where
  /-- the write reservations in L1, taken less given back -/
  writes : Key → Int
  /-- the read locks in L1, taken less given back -/
  reads : Key → Int
  /-- the keys that were reserved at some time -/
  granted : List Key
  /-- the objects in L1 that can be read -/
  readable : Key → Bool
  /-- the lookup locks that an adapter has given out -/
  acquired : Nat → Key → Nat
  /-- the lookup locks that it has got back -/
  returned : Nat → Key → Nat

namespace Books

variable {Key : Type} [DecidableEq Key]

/-- Before the request, with the objects that can be read. -/
def start (readable : Key → Bool) : Books Key where
  writes _ := 0
  reads _ := 0
  granted := []
  readable := readable
  acquired _ _ := 0
  returned _ _ := 0

/-- `reserve_read`, of the keys for which it succeeds. -/
def reserveRead (b : Books Key) (keys : List Key) (extraCount : Nat) : Books Key :=
  { b with reads := fun k => b.reads k + (1 + extraCount) * keys.count k }

/-- `finish_read`. -/
def finishRead (b : Books Key) (keys : List Key) (extraCount : Nat) : Books Key :=
  { b with reads := fun k => b.reads k - (1 + extraCount) * keys.count k }

/-- `reserve_write`, of the keys for which it succeeds: new objects, not readable yet. -/
def reserveWrite (b : Books Key) (keys : List Key) : Books Key :=
  { b with
    writes := fun k => b.writes k + keys.count k
    granted := b.granted ++ keys
    readable := fun k => b.readable k && k ∉ keys }

/-- `finish_write`. -/
def finishWrite (b : Books Key) (keys : List Key) : Books Key :=
  { b with
    writes := fun k => b.writes k - keys.count k
    readable := fun k => b.readable k || k ∈ keys }

/-- `finish_write_and_reserve_read`. -/
def finishWriteAndReserveRead (b : Books Key) (keys : List Key) (extraCount : Nat) : Books Key :=
  (b.finishWrite keys).reserveRead keys extraCount

/-- `delete`. -/
def delete (b : Books Key) (keys : List Key) : Books Key :=
  { b with readable := fun k => b.readable k && k ∉ keys }

/-- An adapter reports a lookup, with what it has locked. -/
def lookedUp (b : Books Key) (adapter : Nat) (keys : List Key) : Books Key :=
  { b with acquired := fun a k => b.acquired a k + if a = adapter then keys.count k else 0 }

/-- `submit_unlock`. -/
def submitUnlock (b : Books Key) (adapter : Nat) (keys : List Key) : Books Key :=
  { b with returned := fun a k => b.returned a k + if a = adapter then keys.count k else 0 }

end Books

/-- `trim_load_plan_with_mask`. -/
def trimLoadPlanWithMask {n : Nat} (plan : Plan n) (mask : Bitmap n) : Plan n :=
  (plan.map fun p => (p.1, p.2.and mask)).filter fun p => p.2.popcount ≠ 0

/-- `PrefetchController`, as far as it is configured. -/
structure PrefetchController (Key : Type) (n : Nat) where
  /-- `select_load_plan`, of the lookup results and the adapters that are not draining -/
  selectLoadPlan : Plan n → List Nat → Plan n
  objectGroupId : Key → Nat
  l1ReserveBatchKeys : Nat

/-- What the controller meets in a turn of its loop. -/
structure Turn (Key : Type) (n : Nat) where
  /-- the adapters whose lookup descriptor is signaled -/
  lookupSignals : List Nat
  queryLookup : Nat → Option (Bitmap n)
  loadSignals : List Nat
  queryLoad : Nat → Option (Nat → Bool)
  /-- the adapters that are not draining -/
  routing : List Nat
  /-- `reserve_write`, of a window -/
  reserveWrite : List Key → Key → WriteResult

/-- A request on its way, with its books. -/
inductive Prefetch (Key : Type) (n : Nat) where
  | running (r : InFlightPrefetchRequest Key n) (b : Books Key)
  | completed (r : InFlightPrefetchRequest Key n) (b : Books Key) (retained : Bitmap n)

namespace PrefetchController

variable {Key : Type} {n : Nat}

/-- The windows in which the keys are reserved, one object group after the other. -/
def windows (c : PrefetchController Key n) (keys : List Key) : List (List Key) :=
  ((keys.insertionSort fun a b => c.objectGroupId a ≤ c.objectGroupId b).splitBy fun a b =>
      c.objectGroupId a == c.objectGroupId b).flatMap fun group =>
    (CacheContext.slices (max 1 c.l1ReserveBatchKeys) group).map Prod.snd

/-- The results of `_reserve_load_buffers`. -/
def reserveLoadBuffers (c : PrefetchController Key n) (turn : Turn Key n) (keys : List Key) :
    List (Key × WriteResult) :=
  (c.windows keys).flatMap fun window => window.map fun k => (k, turn.reserveWrite window k)

end PrefetchController

/-- The keys with a result. -/
def keysWith {Key : Type} (results : List (Key × WriteResult)) (result : WriteResult) :
    List Key :=
  (results.filter fun p => p.2 = result).map Prod.fst

/-- The keys that the adapters have loaded, each of which answers for its own part of the plan. -/
def scatter {n : Nat} (plan : Plan n) (results : List (Nat × (Nat → Bool))) : Bitmap n := fun i =>
  plan.any fun p =>
    match results.lookup p.1 with
    | none => false
    | some loaded => p.2.indices.zipIdx.any fun q => q.1 = i && loaded q.2

namespace PrefetchRequestSpec

variable {Key : Type} [DecidableEq Key] {n : Nat}
variable (spec : PrefetchRequestSpec Key n) (c : PrefetchController Key n)

/-- `build_trim_mask`: the hit, and what is retained of what was found. -/
def buildTrimMask (found : Bitmap n) : Nat × Bitmap n :=
  match spec.policy with
  | .prefixRun => spec.fold found
  | _ => (found.countLeadingOnes / spec.stride, found)

/-- `_lock_l1_keys`. -/
def lockL1Keys (b : Books Key) : Bitmap n × Books Key :=
  let l1Readlocks : Bitmap n := fun i => b.readable (spec.keys i)
  let b := b.reserveRead (l1Readlocks.gather spec.keys) spec.extraCount
  match spec.policy with
  | .prefixRun =>
    let (hitLength, l1Window) := spec.buildTrimMask l1Readlocks
    let withinL1Hit : Bitmap n := .leading (hitLength * spec.stride)
    let evictable := (l1Readlocks.and l1Window.not).and withinL1Hit
    (l1Readlocks.and evictable.not,
      b.finishRead (evictable.gather spec.keys) spec.extraCount)
  | _ => (l1Readlocks, b)

/-- `_release_l2_locks`: the locks that are still held, of those outside `keep` one by one. -/
def releaseL2Locks (keep : Plan n) : Plan n → Books Key → Plan n × Books Key
  | [], b => ([], b)
  | (adapter, held) :: rest, b =>
    let keepBitmap := (keep.lookup adapter).getD Bitmap.empty
    let b := b.submitUnlock adapter ((held.and keepBitmap.not).gather spec.keys)
    let remaining := held.and keepBitmap
    let (rest, b) := releaseL2Locks keep rest b
    (if remaining.popcount = 0 then rest else (adapter, remaining) :: rest, b)

/-- `_finish_request`, the only way to complete. -/
def finishRequest (r : InFlightPrefetchRequest Key n) (b : Books Key) : Prefetch Key n :=
  let loadedBitmap := scatter r.loadPlan r.loadResults
  let loadedKeys := loadedBitmap.gather spec.keys
  let failedKeys := r.writeReservedKeys.filter fun k => k ∉ loadedKeys
  let (l2Readlocks, b) := spec.releaseL2Locks [] r.l2Readlocks b
  let b := match spec.mode with
    | .warm => b.finishWrite loadedKeys
    | .lookup => b.finishWriteAndReserveRead loadedKeys spec.extraCount
  let b := (b.finishWrite failedKeys).delete failedKeys
  let result := loadedBitmap.or r.l1Readlocks
  let (hitLength, retained) := spec.buildTrimMask result
  -- a warm request has no retriever, so that it releases everything it holds
  let (l1Readlocks, b) := match spec.mode with
    | .warm => (Bitmap.empty,
        b.finishRead (r.l1Readlocks.gather spec.keys) spec.extraCount)
    | .lookup => (r.l1Readlocks,
        b.finishRead ((result.and retained.not).gather spec.keys) spec.extraCount)
  .completed
    { r with
      l2Readlocks := l2Readlocks
      l1Readlocks := l1Readlocks
      reportedHit := some (r.reportedHit.getD hitLength) }
    b retained

/-- The last steps of `_transition_to_load_phase`: the locks outside the plan are returned, the
loads are submitted and the hit is reported. -/
def submitLoads (r : InFlightPrefetchRequest Key n) (b : Books Key) (plan : Plan n)
    (hitLength : Nat) : Prefetch Key n :=
  let (l2Readlocks, b) := spec.releaseL2Locks plan r.l2Readlocks b
  .running
    { r with
      loadPlan := plan
      l2Readlocks := l2Readlocks
      pendingLoadTasks := plan.map Prod.fst
      reportedHit := some hitLength }
    b

/-- The load degrades to what the buffers allow, and the other buffers are given up. -/
def truncate (r : InFlightPrefetchRequest Key n) (b : Books Key) (plan : Plan n)
    (reserved : List Key) : Prefetch Key n :=
  let reservedBitmap : Bitmap n := fun i => spec.keys i ∈ reserved
  let (hitLength, retained) := spec.buildTrimMask (reservedBitmap.or r.l1Readlocks)
  let plan := trimLoadPlanWithMask plan retained
  let plannedKeys := (Bitmap.merge plan).gather spec.keys
  let dropped := r.writeReservedKeys.filter fun k => k ∉ plannedKeys
  let r := { r with writeReservedKeys := r.writeReservedKeys.filter fun k => k ∈ plannedKeys }
  let b := (b.finishWrite dropped).delete dropped
  if plan.isEmpty then spec.finishRequest r b else spec.submitLoads r b plan hitLength

/-- Step 3: buffers for the keys of the plan. -/
def reserveAndSubmit (turn : Turn Key n) (r : InFlightPrefetchRequest Key n) (b : Books Key)
    (plan : Plan n) (hitLength : Nat) : Prefetch Key n :=
  let keysToReserve := (Bitmap.merge plan).gather spec.keys
  let results := c.reserveLoadBuffers turn keysToReserve
  let reserved := keysWith results .success
  let contendedKeys := keysWith results .keyNotWritable
  let r := { r with writeReservedKeys := r.writeReservedKeys ++ reserved }
  let b := b.reserveWrite reserved
  if !contendedKeys.isEmpty then spec.finishRequest r b
  else if reserved.length < keysToReserve.length then
    if reserved.isEmpty then spec.finishRequest r b else spec.truncate r b plan reserved
  else spec.submitLoads r b plan hitLength

/-- `_transition_to_load_phase`. -/
def transitionToLoadPhase (turn : Turn Key n) (r : InFlightPrefetchRequest Key n)
    (b : Books Key) : Prefetch Key n :=
  let r := { r with phase := .planAndLoad }
  let loadPlan := c.selectLoadPlan r.lookupResults turn.routing
  let loadPlan := trimLoadPlanWithMask loadPlan r.l1Readlocks.not
  let (hitLength, retained) := spec.buildTrimMask ((Bitmap.merge loadPlan).or r.l1Readlocks)
  let trimmedPlan := trimLoadPlanWithMask loadPlan retained
  if trimmedPlan.isEmpty then spec.finishRequest r b
  else
    let l1FallbackRetain := (spec.buildTrimMask r.l1Readlocks).2
    let stale := (r.l1Readlocks.and retained.not).and l1FallbackRetain.not
    let r := { r with l1Readlocks := r.l1Readlocks.and (retained.or l1FallbackRetain) }
    let b := b.finishRead (stale.gather spec.keys) spec.extraCount
    spec.reserveAndSubmit c turn r b trimmedPlan hitLength

/-- `_start_lookup_phase`, over the content of L1 and the adapters that are not draining. -/
def startLookupPhase (readable : Key → Bool) (routing : List Nat) : Prefetch Key n :=
  let (l1Readlocks, b) := spec.lockL1Keys (.start readable)
  let r : InFlightPrefetchRequest Key n :=
    { phase := .lookup
      pendingLookupTasks := routing
      lookupResults := []
      l2Readlocks := []
      reportedHit := none
      loadPlan := []
      pendingLoadTasks := []
      loadResults := []
      writeReservedKeys := []
      l1Readlocks := l1Readlocks }
  if routing.isEmpty then spec.finishRequest r b else .running r b

/-- `_poll_lookup_results`, of the tasks that were pending. -/
def pollLookupResults (turn : Turn Key n) :
    List Nat → InFlightPrefetchRequest Key n → Books Key →
      InFlightPrefetchRequest Key n × Books Key
  | [], r, b => (r, b)
  | adapter :: pending, r, b =>
    match if adapter ∈ turn.lookupSignals then turn.queryLookup adapter else none with
    | none => pollLookupResults turn pending r b
    | some result =>
      pollLookupResults turn pending
        { r with
          lookupResults := r.lookupResults ++ [(adapter, result)]
          l2Readlocks := r.l2Readlocks ++ [(adapter, result)]
          pendingLookupTasks := r.pendingLookupTasks.erase adapter }
        (b.lookedUp adapter (result.gather spec.keys))

end PrefetchRequestSpec

/-- `_poll_load_results`, of the tasks that were pending. -/
def pollLoadResults {Key : Type} {n : Nat} (turn : Turn Key n) :
    List Nat → InFlightPrefetchRequest Key n → InFlightPrefetchRequest Key n
  | [], r => r
  | adapter :: pending, r =>
    match if adapter ∈ turn.loadSignals then turn.queryLoad adapter else none with
    | none => pollLoadResults turn pending r
    | some loaded =>
      pollLoadResults turn pending
        { r with
          loadResults := r.loadResults ++ [(adapter, loaded)]
          pendingLoadTasks := r.pendingLoadTasks.erase adapter }

namespace PrefetchRequestSpec

variable {Key : Type} [DecidableEq Key] {n : Nat}
variable (spec : PrefetchRequestSpec Key n) (c : PrefetchController Key n)

/-- `_advance_request`. -/
def advanceRequest (turn : Turn Key n) : Prefetch Key n → Prefetch Key n
  | .completed r b retained => .completed r b retained
  | .running r b =>
    match r.phase with
    | .lookup =>
      if turn.lookupSignals.isEmpty then .running r b
      else
        let (r, b) := spec.pollLookupResults turn r.pendingLookupTasks r b
        if r.pendingLookupTasks.isEmpty then spec.transitionToLoadPhase c turn r b
        else .running r b
    | .planAndLoad =>
      if turn.loadSignals.isEmpty then .running r b
      else
        let r := pollLoadResults turn r.pendingLoadTasks r
        if r.pendingLoadTasks.isEmpty then spec.finishRequest r b else .running r b

/-- A request, turn after turn. -/
def run (readable : Key → Bool) (routing : List Nat) (turns : List (Turn Key n)) :
    Prefetch Key n :=
  turns.foldl (fun p turn => spec.advanceRequest c turn p) (spec.startLookupPhase readable routing)

/-- `_cleanup_in_flight_requests`, of a request that is stopped. -/
def cleanupInFlight (r : InFlightPrefetchRequest Key n) (b : Books Key) : Books Key :=
  let b := match r.phase with
    | .planAndLoad => (b.finishWrite r.writeReservedKeys).delete r.writeReservedKeys
    | .lookup => b
  let b := (spec.releaseL2Locks [] r.l2Readlocks b).2
  b.finishRead (r.l1Readlocks.gather spec.keys) spec.extraCount

end PrefetchRequestSpec

end Lmcache

end DgxSpark
