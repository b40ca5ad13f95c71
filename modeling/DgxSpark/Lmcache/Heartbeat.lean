import Mathlib.Logic.Function.Basic
import Mathlib.Data.List.Dedup
import Mathlib.Data.List.MinMax

/-!
# Heartbeats

The two adapters of `vllm_multi_process_adapter.py` mark a cache server as unhealthy when a
request to it times out, or when it does not answer a ping. Only a heartbeat marks it as healthy
again. The adapters start their heartbeats lazily: the one of the scheduler at its first lookup,
the one of a worker at its first store or retrieve.

Each has a guard of its own against a second start. That of the worker looks for the heartbeat
that is not there yet. That of the scheduler looks for a dictionary, which is there from the
beginning, and empty; so no heartbeat of the scheduler is ever started, and a server that it has
marked stays marked (`DgxSpark.Lmcache.Heartbeat.unhealthy_forever`). The marks can be undone
(`DgxSpark.Lmcache.Heartbeat.AdapterRun.Supervised`) in the runs of the worker's adapter, and in
those only (`DgxSpark.Lmcache.Heartbeat.supervised_iff`).
-/

namespace DgxSpark

namespace Lmcache

namespace Heartbeat

universe u v

/-! ### A heartbeat -/

/-- `HeartbeatThread`: the server whose event it has, whether it was started and whether it is to
stop, and, within a cycle, whether the server was healthy at its beginning. -/
structure HeartbeatThread (υ : Type u) where
  healthEvent : υ
  started : Bool
  stopRequested : Bool
  wasHealthy : Option Bool

namespace HeartbeatThread

variable {υ : Type u}

/-- A heartbeat after `start`. -/
def start (healthEvent : υ) : HeartbeatThread υ :=
  ⟨healthEvent, true, false, none⟩

/-- `_execute`, from the answer to the ping on: the event after the cycle. The callback is run on
the edge from unhealthy to healthy only. -/
def execute (hb : HeartbeatThread υ) (wasHealthy isSet ping recover : Bool) : Bool :=
  if hb.stopRequested then isSet
  else if ping && !wasHealthy then recover
  else ping

end HeartbeatThread

/-! ### The adapter of the scheduler -/

/-- `LMCacheMPSchedulerAdapter`: its servers, their events, the heartbeats by server, and the
lookups. -/
structure SchedulerAdapter (υ : Type u) (ρ : Type v) where
  serverUrls : List υ
  lmcacheTokensPerChunk : Nat
  healthEvents : υ → Bool
  heartbeats : Option (List (υ × HeartbeatThread υ))
  pendingLookups : List ρ
  finishedLookupResults : List (ρ × Nat)
  perServerHits : ρ → List (υ × Nat)

/-- What happens to the adapter of the scheduler: requests, whose answers may not come in time,
and its heartbeats. A poll is answered with the hits, or with nothing yet. -/
inductive SchedulerOp (υ : Type u) (ρ : Type v) where
  | lookup (requestId : ρ) (answers : υ → Bool)
  | poll (requestId : ρ) (answers : υ → Option (Option Nat))
  | cleanup (requestId : ρ)
  | beginCycle (url : υ)
  | endCycle (url : υ) (ping : Bool)
  | shutdown

namespace SchedulerAdapter

variable {υ : Type u} {ρ : Type v}

/-- `LMCacheMPSchedulerAdapter.__init__`: every server is healthy, and the dictionary of the
heartbeats is empty. -/
def init (serverUrls : List υ) (lmcacheTokensPerChunk : Nat) : SchedulerAdapter υ ρ where
  serverUrls := serverUrls
  lmcacheTokensPerChunk := lmcacheTokensPerChunk
  healthEvents := fun _ => true
  heartbeats := some []
  pendingLookups := []
  finishedLookupResults := []
  perServerHits := fun _ => []

/-- `is_healthy`. -/
def isHealthy (a : SchedulerAdapter υ ρ) : Bool :=
  a.serverUrls.all a.healthEvents

variable [DecidableEq υ]

/-- `_ensure_heartbeat_started`. -/
def ensureHeartbeatStarted (a : SchedulerAdapter υ ρ) : SchedulerAdapter υ ρ :=
  match a.heartbeats with
  | some _ => a
  | none => { a with
      heartbeats := some (a.serverUrls.dedup.map fun url => (url, HeartbeatThread.start url)) }

/-- A server is marked as unhealthy. -/
def markUnhealthy (a : SchedulerAdapter υ ρ) (url : υ) : SchedulerAdapter υ ρ :=
  { a with healthEvents := Function.update a.healthEvents url false }

/-- The results of a poll, server by server: the hits by then, and the server whose answer did
not come in time. -/
def collect (answers : υ → Option (Option Nat)) :
    List υ → List (υ × Nat) → List (υ × Nat) × Option υ
  | [], hits => (hits, none)
  | url :: urls, hits =>
    match answers url with
    | none => (hits, some url)
    | some none => collect answers urls hits
    | some (some n) => collect answers urls (hits ++ [(url, n)])

variable [DecidableEq ρ]

/-- `maybe_submit_lookup_request`. -/
def maybeSubmitLookupRequest (a : SchedulerAdapter υ ρ) (requestId : ρ) (answers : υ → Bool) :
    SchedulerAdapter υ ρ :=
  let a := a.ensureHeartbeatStarted
  if !a.isHealthy then a
  else if requestId ∈ a.pendingLookups then a
  else match a.serverUrls.find? fun url => !answers url with
    | some url => a.markUnhealthy url
    | none => { a with pendingLookups := requestId :: a.pendingLookups }

/-- `check_lookup_result`. -/
def checkLookupResult (a : SchedulerAdapter υ ρ) (requestId : ρ)
    (answers : υ → Option (Option Nat)) : SchedulerAdapter υ ρ :=
  if requestId ∉ a.pendingLookups then a
  else if !a.isHealthy then a
  else if requestId ∈ a.finishedLookupResults.map Prod.fst then a
  else
    let perServer := a.perServerHits requestId
    let unresolvedUrls := a.serverUrls.filter fun url => url ∉ perServer.map Prod.fst
    let (hits, late) := collect answers unresolvedUrls perServer
    let a := { a with perServerHits := Function.update a.perServerHits requestId hits }
    match late with
    | some url => a.markUnhealthy url
    | none =>
      if hits.length < a.serverUrls.length then a
      else { a with
        finishedLookupResults := a.finishedLookupResults ++
          [(requestId, ((hits.map Prod.snd).min?.getD 0) * a.lmcacheTokensPerChunk)] }

/-- `cleanup_lookup_result`. -/
def cleanupLookupResult (a : SchedulerAdapter υ ρ) (requestId : ρ) : SchedulerAdapter υ ρ :=
  { a with
    pendingLookups := a.pendingLookups.filter (· ≠ requestId)
    finishedLookupResults := a.finishedLookupResults.filter (·.1 ≠ requestId)
    perServerHits := Function.update a.perServerHits requestId [] }

/-- The heartbeat of a server. -/
def heartbeatOf (a : SchedulerAdapter υ ρ) (url : υ) : Option (HeartbeatThread υ) :=
  a.heartbeats.bind fun heartbeats => heartbeats.lookup url

/-- A change to the heartbeat of a server. -/
def setHeartbeat (a : SchedulerAdapter υ ρ) (url : υ)
    (f : HeartbeatThread υ → HeartbeatThread υ) : SchedulerAdapter υ ρ :=
  { a with
    heartbeats := a.heartbeats.map fun heartbeats =>
      heartbeats.map fun p => if p.1 = url then (p.1, f p.2) else p }

/-- One step. A cycle is two of them: requests may come while it waits for the answer to its
ping. The callback of these heartbeats is the default, which succeeds. -/
def step (a : SchedulerAdapter υ ρ) : SchedulerOp υ ρ → SchedulerAdapter υ ρ
  | .lookup requestId answers => a.maybeSubmitLookupRequest requestId answers
  | .poll requestId answers => a.checkLookupResult requestId answers
  | .cleanup requestId => a.cleanupLookupResult requestId
  | .beginCycle url =>
    a.setHeartbeat url fun hb => { hb with wasHealthy := some (a.healthEvents hb.healthEvent) }
  | .endCycle url ping =>
    match a.heartbeatOf url with
    | none => a
    | some hb =>
      match hb.wasHealthy with
      | none => a
      | some wasHealthy =>
        let isSet := hb.execute wasHealthy (a.healthEvents hb.healthEvent) ping true
        { a.setHeartbeat url fun hb => { hb with wasHealthy := none } with
          healthEvents := Function.update a.healthEvents hb.healthEvent isSet }
  | .shutdown => { a with
      heartbeats := a.heartbeats.map fun heartbeats =>
        heartbeats.map fun p => (p.1, { p.2 with stopRequested := true }) }

end SchedulerAdapter

/-! ### The adapter of a worker -/

/-- `LMCacheMPWorkerAdapter`, with what its health depends on. -/
structure WorkerAdapter (υ : Type u) where
  serverUrl : υ
  healthEvent : Bool
  heartbeat : Option (HeartbeatThread υ)
  hasKvCaches : Bool

/-- How a registration ends: that of the caches, and that of the dispatcher if there is one. -/
structure Registration where
  caches : Bool
  dispatcher : Option Bool

/-- What happens to the adapter of a worker. -/
inductive WorkerOp where
  | registerKvCaches
  | store
  | retrieve
  | beginCycle
  | endCycle (ping : Bool) (registration : Registration)
  | shutdown

namespace WorkerAdapter

variable {υ : Type u}

/-- `LMCacheMPWorkerAdapter.__init__`. -/
def init (serverUrl : υ) : WorkerAdapter υ where
  serverUrl := serverUrl
  healthEvent := true
  heartbeat := none
  hasKvCaches := false

/-- `_ensure_heartbeat_started`. -/
def ensureHeartbeatStarted (w : WorkerAdapter υ) : WorkerAdapter υ :=
  match w.heartbeat with
  | some _ => w
  | none => { w with heartbeat := some (HeartbeatThread.start w.serverUrl) }

/-- `_heartbeat_stop_requested`. -/
def heartbeatStopRequested (w : WorkerAdapter υ) : Bool :=
  w.heartbeat.any fun hb => hb.stopRequested

/-- `_reregister_kv_caches_callback`. -/
def reregisterKvCachesCallback (w : WorkerAdapter υ) (registration : Registration) : Bool :=
  if !w.hasKvCaches then true
  else if w.heartbeatStopRequested then false
  else if !registration.caches then false
  else registration.dispatcher.getD true

/-- One step. -/
def step (w : WorkerAdapter υ) : WorkerOp → WorkerAdapter υ
  | .registerKvCaches => { w with hasKvCaches := true }
  -- a store and a retrieve begin alike; whether they are submitted changes nothing here
  | .store | .retrieve => w.ensureHeartbeatStarted
  | .beginCycle =>
    { w with heartbeat := w.heartbeat.map fun hb => { hb with wasHealthy := some w.healthEvent } }
  | .endCycle ping registration =>
    match w.heartbeat with
    | none => w
    | some hb =>
      match hb.wasHealthy with
      | none => w
      | some wasHealthy => { w with
          healthEvent := hb.execute wasHealthy w.healthEvent ping
            (w.reregisterKvCachesCallback registration)
          heartbeat := some { hb with wasHealthy := none } }
  | .shutdown =>
    { w with heartbeat := w.heartbeat.map fun hb => { hb with stopRequested := true } }

end WorkerAdapter

/-! ### Runs -/

/-- A run of one of the two adapters. -/
inductive AdapterRun (υ : Type u) (ρ : Type v) where
  | scheduler (serverUrls : List υ) (lmcacheTokensPerChunk : Nat) (ops : List (SchedulerOp υ ρ))
  | worker (serverUrl : υ) (ops : List WorkerOp)

section Runs

variable {υ : Type u} {ρ : Type v} [DecidableEq υ] [DecidableEq ρ]

/-- The scheduler's adapter at the end of a run. -/
def schedulerAfter (serverUrls : List υ) (lmcacheTokensPerChunk : Nat)
    (ops : List (SchedulerOp υ ρ)) : SchedulerAdapter υ ρ :=
  ops.foldl .step (.init serverUrls lmcacheTokensPerChunk)

/-- The worker's adapter at the end of a run. -/
def workerAfter (serverUrl : υ) (ops : List WorkerOp) : WorkerAdapter υ :=
  ops.foldl .step (.init serverUrl)

/-- The first request is made: a lookup of the scheduler, or a store or a retrieve of a worker. -/
def AdapterRun.Used : AdapterRun υ ρ → Prop
  | .scheduler _ _ ops => ∃ requestId answers, .lookup requestId answers ∈ ops
  | .worker _ ops => .store ∈ ops ∨ .retrieve ∈ ops

/-- **Every mark can be undone**: every server has a started heartbeat with its own event; a
cycle whose ping and callback succeed makes the server healthy, and one that is to stop changes
nothing. -/
def AdapterRun.Supervised : AdapterRun υ ρ → Prop
  | .scheduler serverUrls chunk ops =>
    let a := schedulerAfter serverUrls chunk ops
    ∀ url ∈ serverUrls, ∃ hb, a.heartbeatOf url = some hb ∧ hb.started = true ∧
      hb.healthEvent = url ∧
      (hb.stopRequested = false → hb.wasHealthy.isSome →
        (a.step (.endCycle url true)).healthEvents url = true) ∧
      (hb.stopRequested = true → ∀ ping,
        (a.step (.endCycle url ping)).healthEvents = a.healthEvents)
  | .worker serverUrl ops =>
    let w := workerAfter serverUrl ops
    ∃ hb, w.heartbeat = some hb ∧ hb.started = true ∧ hb.healthEvent = serverUrl ∧
      (hb.stopRequested = false → hb.wasHealthy.isSome →
        ∀ registration, w.reregisterKvCachesCallback registration = true →
          (w.step (.endCycle true registration)).healthEvent = true) ∧
      (hb.stopRequested = true → ∀ ping registration,
        (w.step (.endCycle ping registration)).healthEvent = w.healthEvent)

/-- A run of the worker's adapter. -/
def AdapterRun.IsWorker : AdapterRun υ ρ → Prop
  | .scheduler _ _ _ => False
  | .worker _ _ => True

/-- The constructor of the scheduler's adapter asserts that there is a server. -/
def AdapterRun.HasServer : AdapterRun υ ρ → Prop
  | .scheduler serverUrls _ _ => serverUrls ≠ []
  | .worker _ _ => True

/-! ### The scheduler's heartbeats -/

/-- **A step without heartbeats**: the dictionary stays empty, and at most a server is marked. -/
theorem SchedulerAdapter.step_spec {a : SchedulerAdapter υ ρ} (h : a.heartbeats = some [])
    (op : SchedulerOp υ ρ) :
    (a.step op).heartbeats = some [] ∧
      ((a.step op).healthEvents = a.healthEvents ∨
        ∃ url, (a.step op).healthEvents = Function.update a.healthEvents url false) := by
  cases op with
  | lookup requestId answers =>
    have hensure : a.ensureHeartbeatStarted = a := by
      rw [ensureHeartbeatStarted, h]
    simp only [step, maybeSubmitLookupRequest, hensure]
    split
    · exact ⟨h, Or.inl rfl⟩
    · split
      · exact ⟨h, Or.inl rfl⟩
      · split
        · exact ⟨h, Or.inr ⟨_, rfl⟩⟩
        · exact ⟨h, Or.inl rfl⟩
  | poll requestId answers =>
    simp only [step, checkLookupResult]
    split
    · exact ⟨h, Or.inl rfl⟩
    · split
      · exact ⟨h, Or.inl rfl⟩
      · split
        · exact ⟨h, Or.inl rfl⟩
        · -- the poll goes out; the first answer that is late marks its server
          split
          · exact ⟨h, Or.inr ⟨_, rfl⟩⟩
          · split
            · exact ⟨h, Or.inl rfl⟩
            · exact ⟨h, Or.inl rfl⟩
  | cleanup requestId => exact ⟨h, Or.inl rfl⟩
  | beginCycle url => exact ⟨by simp [step, setHeartbeat, h], Or.inl rfl⟩
  | endCycle url ping =>
    have hnone : a.heartbeatOf url = none := by
      rw [heartbeatOf, h]
      rfl
    have hsame : a.step (.endCycle url ping) = a := by
      simp only [step, hnone]
    rw [hsame]
    exact ⟨h, Or.inl rfl⟩
  | shutdown =>
    refine ⟨by simp [step, h], Or.inl ?_⟩
    rfl

/-- A mark stays. -/
theorem SchedulerAdapter.step_unhealthy {a : SchedulerAdapter υ ρ} {url : υ}
    (hempty : a.heartbeats = some []) (h : a.healthEvents url = false) (op : SchedulerOp υ ρ) :
    (a.step op).healthEvents url = false := by
  rcases (SchedulerAdapter.step_spec hempty op).2 with heq | ⟨late, heq⟩
  · rw [heq, h]
  · rw [heq]
    by_cases hlate : url = late
    · subst hlate
      exact Function.update_self ..
    · rw [Function.update_of_ne hlate, h]

theorem scheduler_heartbeats {a : SchedulerAdapter υ ρ} (h : a.heartbeats = some [])
    (ops : List (SchedulerOp υ ρ)) : (ops.foldl .step a).heartbeats = some [] := by
  induction ops generalizing a with
  | nil => exact h
  | cons op ops ih => exact ih (SchedulerAdapter.step_spec h op).1

/-- **A server that the scheduler has marked stays marked**, whatever comes. -/
theorem unhealthy_forever {a : SchedulerAdapter υ ρ} {url : υ} (hempty : a.heartbeats = some [])
    (h : a.healthEvents url = false) (ops : List (SchedulerOp υ ρ)) :
    (ops.foldl .step a).healthEvents url = false := by
  induction ops generalizing a with
  | nil => exact h
  | cons op ops ih =>
    exact ih (SchedulerAdapter.step_spec hempty op).1
      (SchedulerAdapter.step_unhealthy hempty h op)

/-! ### The worker's heartbeat -/

/-- What a worker's heartbeat keeps: it was started, and it has the event of the server. -/
def WorkerAdapter.Bound (w : WorkerAdapter υ) (serverUrl : υ) : Prop :=
  w.serverUrl = serverUrl ∧
    ∀ hb, w.heartbeat = some hb → hb.started = true ∧ hb.healthEvent = serverUrl

omit [DecidableEq υ] in
theorem WorkerAdapter.Bound.step {w : WorkerAdapter υ} {serverUrl : υ} (h : w.Bound serverUrl)
    (op : WorkerOp) : (w.step op).Bound serverUrl := by
  obtain ⟨hurl, hbound⟩ := h
  have hensure : w.ensureHeartbeatStarted.Bound serverUrl := by
    rw [ensureHeartbeatStarted]
    split
    · exact ⟨hurl, hbound⟩
    · refine ⟨hurl, fun hb heq => ?_⟩
      obtain rfl := Option.some.inj heq
      exact ⟨rfl, hurl⟩
  -- a change to the heartbeat that keeps its event
  have hmap : ∀ f : HeartbeatThread υ → HeartbeatThread υ,
      (∀ hb, (f hb).started = hb.started ∧ (f hb).healthEvent = hb.healthEvent) →
      ∀ hb, w.heartbeat.map f = some hb → hb.started = true ∧ hb.healthEvent = serverUrl := by
    intro f hf hb heq
    obtain ⟨hb', hmem, rfl⟩ := Option.map_eq_some_iff.1 heq
    rw [(hf hb').1, (hf hb').2]
    exact hbound hb' hmem
  cases op with
  | registerKvCaches => exact ⟨hurl, hbound⟩
  | store => exact hensure
  | retrieve => exact hensure
  | beginCycle => exact ⟨hurl, hmap _ fun _ => ⟨rfl, rfl⟩⟩
  | endCycle ping registration =>
    rw [WorkerAdapter.step]
    split
    · exact ⟨hurl, hbound⟩
    · rename_i hb heq
      split
      · exact ⟨hurl, hbound⟩
      · refine ⟨hurl, fun hb' heq' => ?_⟩
        obtain rfl := Option.some.inj heq'
        exact hbound hb heq
  | shutdown => exact ⟨hurl, hmap _ fun _ => ⟨rfl, rfl⟩⟩

omit [DecidableEq υ] in
/-- A heartbeat that is there stays there. -/
theorem WorkerAdapter.step_isSome {w : WorkerAdapter υ} (h : w.heartbeat.isSome = true)
    (op : WorkerOp) : (w.step op).heartbeat.isSome = true := by
  obtain ⟨hb, hhb⟩ := Option.isSome_iff_exists.1 h
  have hensure : w.ensureHeartbeatStarted = w := by
    rw [ensureHeartbeatStarted, hhb]
  cases op with
  | registerKvCaches => exact h
  | store => rwa [step, hensure]
  | retrieve => rwa [step, hensure]
  | beginCycle => simp [step, hhb]
  | endCycle ping registration =>
    rw [step, hhb]
    dsimp only
    split
    · exact h
    · rfl
  | shutdown => simp [step, hhb]

omit [DecidableEq υ] in
/-- The first store or retrieve starts it. -/
theorem WorkerAdapter.isSome_of_request {w : WorkerAdapter υ} {op : WorkerOp}
    (hop : op = .store ∨ op = .retrieve) : (w.step op).heartbeat.isSome = true := by
  have hensure : w.ensureHeartbeatStarted.heartbeat.isSome = true := by
    rw [ensureHeartbeatStarted]
    split
    · rename_i hb heq
      rw [heq]
      rfl
    · rfl
  rcases hop with rfl | rfl
  · exact hensure
  · exact hensure

omit [DecidableEq υ] in
theorem worker_run {w : WorkerAdapter υ} {serverUrl : υ} (h : w.Bound serverUrl)
    {ops : List WorkerOp}
    (hused : w.heartbeat.isSome = true ∨ .store ∈ ops ∨ .retrieve ∈ ops) :
    (ops.foldl .step w).Bound serverUrl ∧ (ops.foldl .step w).heartbeat.isSome = true := by
  induction ops generalizing w with
  | nil =>
    refine ⟨h, hused.resolve_right ?_⟩
    rintro (hmem | hmem) <;> cases hmem
  | cons op ops ih =>
    refine ih (h.step op) ?_
    rcases hused with hsome | hmem | hmem
    · exact Or.inl (WorkerAdapter.step_isSome hsome op)
    · rcases List.mem_cons.1 hmem with rfl | hmem
      · exact Or.inl (WorkerAdapter.isSome_of_request (Or.inl rfl))
      · exact Or.inr (Or.inl hmem)
    · rcases List.mem_cons.1 hmem with rfl | hmem
      · exact Or.inl (WorkerAdapter.isSome_of_request (Or.inr rfl))
      · exact Or.inr (Or.inr hmem)

/-! ### Who can undo a mark -/

/-- **The marks can be undone** after the first request if and only if the adapter is that of a
worker. -/
theorem supervised_iff {r : AdapterRun υ ρ} (hserver : r.HasServer) (hused : r.Used) :
    r.Supervised ↔ r.IsWorker := by
  cases r with
  | scheduler serverUrls chunk ops =>
    refine iff_of_false (fun h => ?_) id
    obtain ⟨url, hurl⟩ := List.exists_mem_of_ne_nil _ hserver
    obtain ⟨hb, hhb, -⟩ := h url hurl
    have hempty : (schedulerAfter serverUrls chunk ops).heartbeats = some [] :=
      scheduler_heartbeats rfl ops
    rw [SchedulerAdapter.heartbeatOf, hempty] at hhb
    cases hhb
  | worker serverUrl ops =>
    refine iff_of_true ?_ trivial
    have hinit : (WorkerAdapter.init serverUrl).Bound serverUrl :=
      ⟨rfl, fun hb heq => by cases heq⟩
    obtain ⟨hbound, hsome⟩ := worker_run hinit (Or.inr hused)
    obtain ⟨hb, hhb⟩ := Option.isSome_iff_exists.1 hsome
    obtain ⟨hstarted, hevent⟩ := hbound.2 hb hhb
    refine ⟨hb, hhb, hstarted, hevent, fun hstop hcycle registration hcallback => ?_,
      fun hstop ping registration => ?_⟩
    · obtain ⟨wasHealthy, hwas⟩ := Option.isSome_iff_exists.1 hcycle
      have hwritten : ((workerAfter serverUrl ops).step (.endCycle true registration)).healthEvent =
          hb.execute wasHealthy (workerAfter serverUrl ops).healthEvent true true := by
        rw [WorkerAdapter.step, workerAfter, hhb]
        dsimp only
        rw [hwas]
        dsimp only
        rw [← workerAfter, hcallback]
      rw [hwritten, HeartbeatThread.execute, if_neg (by simp [hstop])]
      split <;> rfl
    · rw [WorkerAdapter.step, workerAfter, hhb]
      dsimp only
      split
      · rfl
      · rw [HeartbeatThread.execute, if_pos hstop]

/-! ### A lookup that times out -/

/-- A worker that stores, whose server does not answer a ping, and that pings again. -/
def lateServer : List WorkerOp :=
  [.registerKvCaches, .store, .beginCycle, .endCycle false ⟨true, none⟩, .beginCycle]

/-- The server is marked, and a ping that is answered undoes the mark. -/
theorem supervised_iff_store :
    (AdapterRun.Supervised (.worker "tcp://head:5555" lateServer : AdapterRun String Nat) ↔
      AdapterRun.IsWorker (.worker "tcp://head:5555" lateServer : AdapterRun String Nat)) ∧
    (workerAfter "tcp://head:5555" lateServer).healthEvent = false ∧
    ((workerAfter "tcp://head:5555" lateServer).step
      (.endCycle true ⟨true, none⟩)).healthEvent = true :=
  ⟨supervised_iff trivial (Or.inl (by simp [lateServer])), by decide, by decide⟩

/-- **One lookup that times out** disables the cache: no heartbeat is there, and the server is
unhealthy from then on. -/
theorem late_lookup_disables :
    ¬AdapterRun.Supervised
        (.scheduler ["tcp://head:5555"] 256 [.lookup 0 fun _ => false] : AdapterRun String Nat) ∧
      ∀ ops : List (SchedulerOp String Nat),
        (schedulerAfter ["tcp://head:5555"] 256
          (.lookup 0 (fun _ => false) :: ops)).healthEvents "tcp://head:5555" = false := by
  refine ⟨fun h => ?_, fun ops => unhealthy_forever rfl rfl ops⟩
  obtain ⟨hb, hhb, -⟩ := h "tcp://head:5555" List.mem_cons_self
  cases hhb

end Runs

end Heartbeat

end Lmcache

end DgxSpark
