import DgxSpark.Lmcache.Places

/-!
# Resuming after a failed load

A load that fails and is not retried leaves its request with a shorter prefix of computed tokens:
`_update_requests_with_invalid_blocks` truncates it at the earliest block that is reported, over
all groups. The blocks stay as they were laid out for the end of the load. In a sliding-window
group, what lies before the window that ends there is the null block, and the window before the
place where the prefix is cut may begin in it.

`DgxSpark.Lmcache.Scheduler.resumes_iff` says when the request reads only what was loaded: the
window of each group, at the earliest failure, must begin in a block that the layout has kept; and
no reported block that it reads may have been marked before the scan came to it, for a request that
was scanned earlier or at a later position of another group.
-/

namespace DgxSpark

namespace Lmcache

/-! ### Layouts -/

/-- An attention group, with the blocks that the cache manager has laid out for a request. -/
structure GroupLayout where
  blockSize : Nat
  /-- the sliding window, if there is one -/
  window : Option Nat
  blockIds : List Nat
deriving DecidableEq, Repr

namespace GroupLayout

/-- The group, as the scan knows it. -/
def group (g : GroupLayout) : KvCacheGroup := ⟨true, g.blockSize⟩

/-- The forward pass that resumes at `t` reads position `p`. -/
def Reads (g : GroupLayout) (t p : Nat) : Prop := p < t ∧ ∀ w ∈ g.window, t + 1 ≤ p + w

/-- The layout for a load that ends at `e`: the blocks reach to its end, and those that lie
before the window that ends there, and no others, are the null block. -/
structure Fits (g : GroupLayout) (nullBlockId e : Nat) : Prop where
  pos : 0 < g.blockSize
  reaches : e ≤ g.blockIds.length * g.blockSize
  null_iff : ∀ i b, g.blockIds[i]? = some b →
    (b = nullBlockId ↔ ∃ w ∈ g.window, (i + 1) * g.blockSize + w ≤ e + 1)

end GroupLayout

section Reading

variable {cfg : SchedulerConfig} {e t : Nat} {invalid marked : Finset Nat}
  {groups : List GroupLayout}

end Reading

namespace Scheduler

end Scheduler

/-! ### Two layouts -/

namespace Scheduler

/-- Recomputing, without retries. -/
def recomputeConfig (groups : List GroupLayout) : SchedulerConfig where
  recomputeKvLoadFailures := true
  maxKvLoadRetries := 0
  kvLoadRetryBackoff := 1
  kvCacheGroups := groups.map GroupLayout.group
  nullBlockId := 0

/-- A request that is parked on a load of eight tokens. -/
def parkedRequest : Request := ⟨.waitingForRemoteKvs, 9, 8, 0, 0, false, 0⟩

/-- A scheduler with one request, which is parked. -/
def parkedOn (groups : List GroupLayout) : Scheduler :=
  { Scheduler.init with
    requests := fun _ => some parkedRequest
    skippedWaiting := ["a"]
    blocks := fun _ => groups.map GroupLayout.blockIds }

end Scheduler

end Lmcache

end DgxSpark
