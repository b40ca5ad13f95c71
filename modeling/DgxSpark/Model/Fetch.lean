import Mathlib.Logic.Function.Basic
import Mathlib.Logic.Relation
import Mathlib.Tactic
import DgxSpark.Model.Verify

/-!
# Installing a fetched model

`fetch_model` of `scripts/model/fetch.py` downloads a model next to its destination, verifies
it, and moves it into place. Any number of runs may do this at once for one destination. A run
is a sequence of system calls, each of which may fail, and between two of them another run may
make its own; this file is the step relation of such a system (`DgxSpark.Fetch.Step`).

A run is known by where it stands in the source (`DgxSpark.Fetch.Phase`). What the runs share
is the destination, the staging directories beside it, and the lock of the parent directory.
Nothing is assumed of a rename: it would replace whatever is there. That nothing is replaced
follows from the second look at the destination, under the lock.

The result is `DgxSpark.Fetch.atomic_install`: the destination is never anything but what it
was, or one verified tree. Two things the obvious statement overlooks are in
`DgxSpark.Fetch.raises_and_differs`: while a run fails another one may have installed, and a
run may fail after its own rename, when releasing the lock fails.
-/

namespace DgxSpark

namespace Fetch

/-! ### Runs and what they share -/

variable {ι Name Tree : Type}

/-- **Where a run stands.** From the creation of its staging directory on, a run remembers the
name; from its rename on, it also remembers that it has renamed. -/
inductive Phase (Name : Type) where
  /-- before the model lock is loaded -/
  | start
  /-- before `_ensure_external_destination` looks at the destination -/
  | loaded
  /-- before `mkdtemp` -/
  | checked
  /-- before and during the download -/
  | staged (name : Name)
  /-- before and during the removal of the hub cache -/
  | downloaded (name : Name)
  /-- before and during the writing of the marker -/
  | cleaned (name : Name)
  /-- before the verification -/
  | marked (name : Name)
  /-- before the parent lock is opened -/
  | verified (name : Name)
  /-- before `flock(LOCK_EX)` -/
  | opened (name : Name)
  /-- under the lock, before the second look at the destination -/
  | locked (name : Name)
  /-- under the lock, before the rename -/
  | clear (name : Name)
  /-- before `flock(LOCK_UN)` -/
  | unlocking (name : Name) (renamed : Bool)
  /-- before the lock is closed; `ok` when nothing has been raised -/
  | closing (name : Name) (renamed ok : Bool)
  /-- an exception is on its way: before and during `_remove_staging` -/
  | failing (name : Name) (renamed : Bool)
  /-- `fetch_model` has returned -/
  | returned
  /-- `fetch_model` has raised -/
  | raised

/-- The shared directory, and every run with what is known of its past. -/
structure State (ι Name Tree : Type) where
  dest : Option Tree
  staging : Name → Option Tree
  /-- the run that holds the lock of the parent directory -/
  holder : Option ι
  phase : ι → Phase Name
  /-- the destination as a run last saw it -/
  seen : ι → Option (Option Tree)
  renamed : ι → Bool
  /-- unlocking or closing the lock has failed -/
  releaseFailed : ι → Bool

/-- No run has begun. -/
def State.initial (dest : Option Tree) (staging : Name → Option Tree) : State ι Name Tree where
  dest := dest
  staging := staging
  holder := none
  phase := fun _ => .start
  seen := fun _ => none
  renamed := fun _ => false
  releaseFailed := fun _ => false

/-! ### Steps -/

/-- Steps that change nothing outside the run. -/
inductive Local : Phase Name → Phase Name → Prop
  | load : Local .start .loaded
  | loadFails : Local .start .raised
  | pathFails : Local .loaded .raised
  | mkdtempFails : Local .checked .raised
  | download {n} : Local (.staged n) (.downloaded n)
  | downloadFails {n} : Local (.staged n) (.failing n false)
  | removeCache {n} : Local (.downloaded n) (.cleaned n)
  | removeCacheFails {n} : Local (.downloaded n) (.failing n false)
  | writeMarker {n} : Local (.cleaned n) (.marked n)
  | writeMarkerFails {n} : Local (.cleaned n) (.failing n false)
  | verifyFails {n} : Local (.marked n) (.failing n false)
  | openLock {n} : Local (.verified n) (.opened n)
  | openLockFails {n} : Local (.verified n) (.failing n false)
  | flockFails {n} : Local (.opened n) (.unlocking n false)
  | renameFails {n} : Local (.clear n) (.unlocking n false)
  | giveUp {n b} : Local (.failing n b) .raised

/-- Looking at the destination, which is there or not. -/
inductive Looks : Phase Name → Bool → Phase Name → Prop
  /-- `_ensure_external_destination` finds the destination -/
  | exists : Looks .loaded true .raised
  /-- it does not, but the parent directory is not as it must be -/
  | parentFails : Looks .loaded false .raised
  | absent : Looks .loaded false .checked
  /-- `_atomic_install` finds that the destination has appeared -/
  | appeared {n} : Looks (.locked n) true (.unlocking n false)
  | stillAbsent {n} : Looks (.locked n) false (.clear n)

/-- Releasing the lock, without an error. -/
inductive Releases : Phase Name → Phase Name → Prop
  | unlock {n b} : Releases (.unlocking n b) (.closing n b b)
  | close {n} : Releases (.closing n true true) .returned
  | closeFailing {n b} : Releases (.closing n b false) (.failing n b)

/-- Releasing the lock fails. -/
inductive ReleaseFails : Phase Name → Phase Name → Prop
  | unlock {n b} : ReleaseFails (.unlocking n b) (.closing n b false)
  | close {n b ok} : ReleaseFails (.closing n b ok) (.failing n b)

/-- The phases in which a run changes what is in a staging directory. The removal of a
directory takes many calls, the last of which is that of the directory itself. -/
inductive Writes : Phase Name → Name → Prop
  | download {n} : Writes (.staged n) n
  | removeCache {n} : Writes (.downloaded n) n
  | writeMarker {n} : Writes (.cleaned n) n
  | removeStaging {n b} : Writes (.failing n b) n

section Moves

variable [DecidableEq ι]

/-- A run proceeds to another phase. -/
def State.goto (s : State ι Name Tree) (i : ι) (p : Phase Name) : State ι Name Tree :=
  { s with phase := Function.update s.phase i p }

@[simp] theorem State.phase_goto {s : State ι Name Tree} {i : ι} {p : Phase Name} :
    (s.goto i p).phase i = p :=
  Function.update_self _ _ _

variable [DecidableEq Name]

/-- A staging directory changes. -/
def State.write (s : State ι Name Tree) (n : Name) (t : Option Tree) : State ι Name Tree :=
  { s with staging := Function.update s.staging n t }

/-- A run sees the destination. -/
def State.see (s : State ι Name Tree) (i : ι) : State ι Name Tree :=
  { s with seen := Function.update s.seen i (some s.dest) }

/-- The staging directory of a run becomes the destination. -/
def State.install (s : State ι Name Tree) (i : ι) (n : Name) (t : Tree) : State ι Name Tree :=
  { s.write n none with dest := some t, renamed := Function.update s.renamed i true }

/-- A run lets go of the lock, if it has it. -/
def State.release (s : State ι Name Tree) (i : ι) : State ι Name Tree :=
  { s with holder := if s.holder = some i then none else s.holder }

/-- Releasing the lock has failed. -/
def State.fail (s : State ι Name Tree) (i : ι) : State ι Name Tree :=
  { s with releaseFailed := Function.update s.releaseFailed i true }

/-- **One step of one run.** A lock whose release has failed may be held still, or not. -/
inductive Step (accepts : Tree → Prop) (s : State ι Name Tree) (i : ι) :
    State ι Name Tree → Prop
  | internal {q} (h : Local (s.phase i) q) : Step accepts s i (s.goto i q)
  | look {q} (h : Looks (s.phase i) s.dest.isSome q) :
      Step accepts s i ((s.see i).goto i q)
  | mkdtemp {n t} (h : s.phase i = .checked) (fresh : s.staging n = none) :
      Step accepts s i ((s.write n (some t)).goto i (.staged n))
  | write {n t} (h : Writes (s.phase i) n) (there : (s.staging n).isSome) :
      Step accepts s i (s.write n (some t))
  | verify {n t} (h : s.phase i = .marked n) (ht : s.staging n = some t) (ok : accepts t) :
      Step accepts s i (s.goto i (.verified n))
  | flock {n} (h : s.phase i = .opened n) (free : s.holder = none) :
      Step accepts s i ({ s with holder := some i }.goto i (.locked n))
  | rename {n t} (h : s.phase i = .clear n) (ht : s.staging n = some t) :
      Step accepts s i ((s.install i n t).goto i (.unlocking n true))
  | release {q} (h : Releases (s.phase i) q) : Step accepts s i ((s.release i).goto i q)
  | releaseFails {q} (h : ReleaseFails (s.phase i) q) :
      Step accepts s i ((s.fail i).goto i q)
  | releaseFailsReleased {q} (h : ReleaseFails (s.phase i) q) :
      Step accepts s i (((s.release i).fail i).goto i q)
  | removed {n b} (h : s.phase i = .failing n b) :
      Step accepts s i ((s.write n none).goto i .raised)

/-- The states that interleaved runs reach. -/
def Reachable (accepts : Tree → Prop) (s₀ : State ι Name Tree) : State ι Name Tree → Prop :=
  Relation.ReflTransGen (fun s s' => ∃ i, Step accepts s i s') s₀

end Moves

/-! ### What holds of every reachable state -/

/-- The staging directory that is a run's own: from its creation to the rename. -/
def Phase.owned : Phase Name → Option Name
  | .staged n | .downloaded n | .cleaned n | .marked n | .verified n | .opened n | .locked n
  | .clear n => some n
  | .unlocking n false | .closing n false _ | .failing n false => some n
  | _ => none

/-- The staging directory that has been verified and is not moved yet. -/
def Phase.ready : Phase Name → Option Name
  | .verified n | .opened n | .locked n | .clear n => some n
  | _ => none

theorem Phase.owned_of_ready {p : Phase Name} {n : Name} (h : p.ready = some n) :
    p.owned = some n := by
  cases p <;> simp_all [Phase.ready, Phase.owned]

/-- The phases under the lock. -/
def Phase.holds : Phase Name → Bool
  | .locked _ | .clear _ => true
  | _ => false

/-- The phases after the rename. -/
def Phase.installed : Phase Name → Bool
  | .unlocking _ true | .closing _ true _ | .failing _ true | .returned => true
  | _ => false

/-- The phases after a rename in which releasing the lock has failed. -/
def Phase.broken : Phase Name → Bool
  | .closing _ true false | .failing _ true => true
  | _ => false

/-- **The invariant.** What it says of staging directories it says as long as nothing has been
installed; after that, no run gets past the second look. -/
structure Inv (accepts : Tree → Prop) (dest₀ : Option Tree) (s : State ι Name Tree) : Prop where
  staged : s.dest = none → ∀ i n, (s.phase i).owned = some n → (s.staging n).isSome
  apart : s.dest = none → ∀ i j n, (s.phase i).owned = some n → (s.phase j).owned = some n → i = j
  ready : s.dest = none → ∀ i n, (s.phase i).ready = some n →
    ∃ t, s.staging n = some t ∧ accepts t
  holder : ∀ i, (s.phase i).holds → s.holder = some i
  clear : ∀ i n, s.phase i = .clear n → s.dest = none
  settled : ((∀ i, s.renamed i = false) ∧ s.dest = dest₀) ∨
    dest₀ = none ∧ (∃ i, s.renamed i) ∧ ∃ t, s.dest = some t ∧ accepts t
  once : ∀ i j, s.renamed i → s.renamed j → i = j
  installed : ∀ i, (s.phase i).installed → s.renamed i
  moved : ∀ i, s.renamed i →
    (s.phase i).installed ∨ s.phase i = .raised ∧ s.releaseFailed i
  broken : ∀ i, (s.phase i).broken → s.releaseFailed i
  seen : ∀ i d, s.seen i = some d →
    s.dest = d ∨ d = none ∧ ∃ j, s.renamed j

theorem inv_initial (accepts : Tree → Prop) (dest : Option Tree) (staging : Name → Option Tree) :
    Inv accepts dest (State.initial dest staging : State ι Name Tree) := by
  constructor <;> simp [State.initial, Phase.owned, Phase.ready, Phase.holds, Phase.installed,
    Phase.broken]

section Steps

variable {accepts : Tree → Prop} {dest₀ : Option Tree} {s : State ι Name Tree} {i : ι}

/-- Where nothing is installed, nothing has been renamed. -/
theorem Inv.not_renamed (h : Inv accepts dest₀ s) (hd : s.dest = none) (j : ι) :
    s.renamed j = false := by
  rcases h.settled with ⟨hnone, -⟩ | ⟨-, -, t, ht, -⟩
  · exact hnone j
  · rw [hd] at ht
    exact absurd ht (by simp)

/-- A run that has not renamed yet, by its phase. -/
theorem Inv.not_moved (h : Inv accepts dest₀ s) (hlive : s.phase i ≠ .raised)
    (hin : (s.phase i).installed = false) : s.renamed i = false := by
  by_contra hr
  rcases h.moved i (by simpa using hr) with hin' | ⟨hraised, -⟩
  · rw [hin] at hin'
    exact absurd hin' (by simp)
  · exact hlive hraised

/-- **A phase that a run may enter**: what the invariant says of the run there. -/
structure Enters (accepts : Tree → Prop) (s : State ι Name Tree) (i : ι) (q : Phase Name) :
    Prop where
  staged : s.dest = none → ∀ n, q.owned = some n → (s.staging n).isSome
  apart : s.dest = none → ∀ n, q.owned = some n → ∀ j, (s.phase j).owned = some n → j = i
  ready : s.dest = none → ∀ n, q.ready = some n → ∃ t, s.staging n = some t ∧ accepts t
  holder : q.holds → s.holder = some i
  clear : ∀ n, q = .clear n → s.dest = none
  installed : q.installed → s.renamed i
  moved : s.renamed i → q.installed ∨ q = .raised ∧ s.releaseFailed i
  broken : q.broken → s.releaseFailed i

/-- A phase follows another when it claims nothing that the other one does not. -/
structure Follows (p q : Phase Name) : Prop where
  live : p ≠ .raised
  owned : ∀ n, q.owned = some n → p.owned = some n
  ready : ∀ n, q.ready = some n → p.ready = some n
  holds : q.holds → p.holds
  installed : q.installed = true ↔ p.installed = true

theorem Local.follows {p q : Phase Name} (h : Local p q) (hq : q ≠ .raised ∨ p.installed = false) :
    Follows p q ∧ (∀ n, q ≠ .clear n) ∧ (q.broken → p.broken) := by
  cases h <;> refine ⟨⟨?_, ?_, ?_, ?_, ?_⟩, ?_, ?_⟩ <;>
    simp_all [Phase.owned, Phase.ready, Phase.holds, Phase.installed, Phase.broken]

theorem Looks.follows {p q : Phase Name} {there : Bool} (h : Looks p there q) :
    Follows p q ∧ (∀ n, q = .clear n → there = false) ∧ q.broken = false := by
  cases h <;> refine ⟨⟨?_, ?_, ?_, ?_, ?_⟩, ?_, ?_⟩ <;>
    simp [Phase.owned, Phase.ready, Phase.holds, Phase.installed, Phase.broken]

theorem Releases.follows {p q : Phase Name} (h : Releases p q) :
    Follows p q ∧ (∀ n, q ≠ .clear n) ∧ p.holds = false ∧ (q.broken → p.broken) := by
  cases h with
  | @unlock n b =>
    refine ⟨⟨?_, ?_, ?_, ?_, ?_⟩, ?_, ?_, ?_⟩ <;> cases b <;>
      simp [Phase.owned, Phase.ready, Phase.holds, Phase.installed, Phase.broken]
  | close =>
    refine ⟨⟨?_, ?_, ?_, ?_, ?_⟩, ?_, ?_, ?_⟩ <;>
      simp [Phase.owned, Phase.ready, Phase.holds, Phase.installed, Phase.broken]
  | @closeFailing n b =>
    refine ⟨⟨?_, ?_, ?_, ?_, ?_⟩, ?_, ?_, ?_⟩ <;> cases b <;>
      simp [Phase.owned, Phase.ready, Phase.holds, Phase.installed, Phase.broken]

theorem ReleaseFails.follows {p q : Phase Name} (h : ReleaseFails p q) :
    Follows p q ∧ (∀ n, q ≠ .clear n) ∧ p.holds = false := by
  cases h with
  | @unlock n b =>
    refine ⟨⟨?_, ?_, ?_, ?_, ?_⟩, ?_, ?_⟩ <;> cases b <;>
      simp [Phase.owned, Phase.ready, Phase.holds, Phase.installed]
  | @close n b ok =>
    refine ⟨⟨?_, ?_, ?_, ?_, ?_⟩, ?_, ?_⟩ <;> cases b <;>
      simp [Phase.owned, Phase.ready, Phase.holds, Phase.installed]

/-- What does follow may be entered. -/
theorem Inv.enters (h : Inv accepts dest₀ s) {q : Phase Name} (hq : Follows (s.phase i) q)
    (hclear : ∀ n, q = .clear n → s.dest = none) (hbroken : q.broken → s.releaseFailed i) :
    Enters accepts s i q where
  staged hd n hn := h.staged hd i n (hq.owned n hn)
  apart hd n hn j hj := h.apart hd j i n hj (hq.owned n hn)
  ready hd n hn := h.ready hd i n (hq.ready n hn)
  holder hn := h.holder i (hq.holds hn)
  clear := hclear
  installed hn := h.installed i (hq.installed.1 hn)
  moved hn := by
    rcases h.moved i hn with hin | ⟨hraised, -⟩
    · exact .inl (hq.installed.2 hin)
    · exact absurd hraised hq.live
  broken := hbroken

/-- A failing run gives up. -/
theorem Inv.enters_raised (h : Inv accepts dest₀ s) {n : Name} {b : Bool}
    (hi : s.phase i = .failing n b) : Enters accepts s i .raised := by
  refine ⟨by simp [Phase.owned], by simp [Phase.owned], by simp [Phase.ready],
    by simp [Phase.holds], by simp, by simp [Phase.installed], fun hr => .inr ⟨rfl, ?_⟩,
    by simp [Phase.broken]⟩
  rcases h.moved i hr with hin | ⟨-, hfailed⟩
  · cases b with
    | true => exact h.broken i (by simp [hi, Phase.broken])
    | false => exact absurd hin (by simp [hi, Phase.installed])
  · exact hfailed

/-- A run that writes into a staging directory writes into its own, or something has been
installed. -/
theorem Inv.writes (h : Inv accepts dest₀ s) {n : Name} (hi : Writes (s.phase i) n)
    (hd : s.dest = none) : (s.phase i).owned = some n ∧ (s.phase i).ready = none := by
  generalize hp : s.phase i = p at hi
  cases hi with
  | @removeStaging n b =>
    cases b with
    | true =>
      have := h.installed i (by simp [hp, Phase.installed])
      rw [h.not_renamed hd] at this
      exact absurd this (by simp)
    | false => exact ⟨rfl, rfl⟩
  | _ => exact ⟨rfl, rfl⟩

/-- A change of a staging directory that is nobody's verified one. -/
theorem Inv.write [DecidableEq Name] (h : Inv accepts dest₀ s) {n : Name} {t : Option Tree}
    (hstaged : s.dest = none → t = none → ∀ j, (s.phase j).owned ≠ some n)
    (hready : s.dest = none → ∀ j, (s.phase j).ready ≠ some n) :
    Inv accepts dest₀ (s.write n t) := by
  refine ⟨fun hd j m hj => ?_, h.apart, fun hd j m hj => ?_, h.holder, h.clear, h.settled, h.once,
    h.installed, h.moved, h.broken, h.seen⟩
  · by_cases hmn : m = n
    · subst hmn
      rcases t with - | t
      · exact absurd hj (hstaged hd rfl j)
      · simp [State.write]
    · simpa [State.write, hmn] using h.staged hd j m hj
  · have hmn : m ≠ n := by
      rintro rfl
      exact hready hd j hj
    simpa [State.write, hmn] using h.ready hd j m hj

variable [DecidableEq ι]

/-- What holds of every run after one has moved. -/
theorem State.forall_goto {q : Phase Name} {P : ι → Phase Name → Prop} (hi : P i q)
    (h : ∀ j, P j (s.phase j)) (j : ι) : P j ((s.goto i q).phase j) := by
  by_cases hji : j = i
  · subst hji
    simpa [State.goto] using hi
  · simpa [State.goto, hji] using h j

theorem Inv.goto (h : Inv accepts dest₀ s) {q : Phase Name} (hq : Enters accepts s i q) :
    Inv accepts dest₀ (s.goto i q) where
  staged hd := State.forall_goto (P := fun _ p => ∀ n, p.owned = some n → (s.staging n).isSome)
    (hq.staged hd) (h.staged hd)
  apart hd j k n hj hk := by
    by_cases hji : j = i
    · by_cases hki : k = i
      · exact hji.trans hki.symm
      · subst hji
        simp only [State.goto, Function.update_self, Function.update_of_ne hki] at hj hk
        exact (hq.apart hd n hj k hk).symm
    · by_cases hki : k = i
      · subst hki
        simp only [State.goto, Function.update_self, Function.update_of_ne hji] at hj hk
        exact hq.apart hd n hk j hj
      · simp only [State.goto, Function.update_of_ne hji, Function.update_of_ne hki] at hj hk
        exact h.apart hd j k n hj hk
  ready hd := State.forall_goto
    (P := fun _ p => ∀ n, p.ready = some n → ∃ t, s.staging n = some t ∧ accepts t)
    (hq.ready hd) (h.ready hd)
  holder := State.forall_goto (P := fun j p => p.holds → s.holder = some j) hq.holder h.holder
  clear := State.forall_goto (P := fun _ p => ∀ n, p = .clear n → s.dest = none) hq.clear h.clear
  settled := h.settled
  once := h.once
  installed := State.forall_goto (P := fun j p => p.installed → s.renamed j) hq.installed
    h.installed
  moved := State.forall_goto
    (P := fun j p => s.renamed j → p.installed ∨ p = .raised ∧ s.releaseFailed j) hq.moved h.moved
  broken := State.forall_goto (P := fun j p => p.broken → s.releaseFailed j) hq.broken h.broken
  seen := h.seen

/-- A look at the destination. -/
theorem Inv.see (h : Inv accepts dest₀ s) : Inv accepts dest₀ (s.see i) := by
  refine ⟨h.staged, h.apart, h.ready, h.holder, h.clear, h.settled, h.once, h.installed, h.moved,
    h.broken, fun j d hd => ?_⟩
  by_cases hji : j = i
  · subst hji
    left
    simpa [State.see] using hd
  · exact h.seen j d (by simpa [State.see, hji] using hd)

/-- A failure to release the lock. -/
theorem Inv.fail (h : Inv accepts dest₀ s) : Inv accepts dest₀ (s.fail i) := by
  have hmono : ∀ j, s.releaseFailed j → (s.fail i).releaseFailed j := by
    intro j hj
    by_cases hji : j = i
    · subst hji
      simp [State.fail]
    · simpa [State.fail, hji] using hj
  exact ⟨h.staged, h.apart, h.ready, h.holder, h.clear, h.settled, h.once, h.installed,
    fun j hj => (h.moved j hj).imp_right (.imp_right (hmono j)), fun j hj => hmono j (h.broken j hj),
    h.seen⟩

/-- The lock is released by a run that is past the rename. -/
theorem Inv.release (h : Inv accepts dest₀ s) (hi : (s.phase i).holds = false) :
    Inv accepts dest₀ (s.release i) := by
  refine ⟨h.staged, h.apart, h.ready, fun j hj => ?_, h.clear, h.settled, h.once, h.installed,
    h.moved, h.broken, h.seen⟩
  have hholder : s.holder = some j := h.holder j hj
  have hne : j ≠ i := by
    rintro rfl
    exact absurd hj (by simp [State.release, hi])
  rw [State.release, hholder]
  exact if_neg fun hji => hne (Option.some.inj hji)

/-- The lock is taken by a run that has opened it. -/
theorem Inv.flock (h : Inv accepts dest₀ s) {n : Name} (hi : s.phase i = .opened n)
    (free : s.holder = none) :
    Inv accepts dest₀ ({ s with holder := some i }.goto i (.locked n)) := by
  have hnone : ∀ j, (s.phase j).holds = false := fun j => by
    by_contra hj
    rw [h.holder j (by simpa using hj)] at free
    exact absurd free (by simp)
  have htaken : Inv accepts dest₀ { s with holder := some i } :=
    ⟨h.staged, h.apart, h.ready, fun j hj => absurd hj (by simp [hnone j]), h.clear, h.settled,
      h.once, h.installed, h.moved, h.broken, h.seen⟩
  refine htaken.goto ⟨fun hd m hm => ?_, fun hd m hm j hj => ?_, fun hd m hm => ?_, fun _ => rfl,
    by simp, by simp [Phase.installed], fun hr => ?_, by simp [Phase.broken]⟩
  · exact h.staged hd i m (by simpa [hi, Phase.owned] using hm)
  · exact h.apart hd j i m hj (by simpa [hi, Phase.owned] using hm)
  · exact h.ready hd i m (by simpa [hi, Phase.ready] using hm)
  · rw [h.not_moved (by simp [hi]) (by simp [hi, Phase.installed])] at hr
    exact absurd hr (by simp)

/-- The verification has accepted what is staged. -/
theorem Inv.verify (h : Inv accepts dest₀ s) {n : Name} {t : Tree} (hi : s.phase i = .marked n)
    (ht : s.staging n = some t) (ok : accepts t) :
    Inv accepts dest₀ (s.goto i (.verified n)) := by
  refine h.goto ⟨fun hd m hm => ?_, fun hd m hm j hj => ?_, fun hd m hm => ?_,
    by simp [Phase.holds], by simp, by simp [Phase.installed], fun hr => ?_, by simp [Phase.broken]⟩
  · exact h.staged hd i m (by simpa [hi, Phase.owned] using hm)
  · exact h.apart hd j i m hj (by simpa [hi, Phase.owned] using hm)
  · obtain rfl : n = m := by simpa [Phase.ready] using hm
    exact ⟨t, ht, ok⟩
  · rw [h.not_moved (by simp [hi]) (by simp [hi, Phase.installed])] at hr
    exact absurd hr (by simp)

variable [DecidableEq Name]

/-- The verified staging directory becomes the destination. -/
theorem Inv.rename (h : Inv accepts dest₀ s) {n : Name} {t : Tree} (hi : s.phase i = .clear n)
    (ht : s.staging n = some t) :
    Inv accepts dest₀ ((s.install i n t).goto i (.unlocking n true)) := by
  have hd : s.dest = none := h.clear i n hi
  have hnone : ∀ j, s.renamed j = false := h.not_renamed hd
  have hholder : s.holder = some i := h.holder i (by simp [hi, Phase.holds])
  have hok : accepts t := by
    obtain ⟨t', ht', hok⟩ := h.ready hd i n (by simp [hi, Phase.ready])
    rw [ht] at ht'
    exact Option.some.inj ht' ▸ hok
  have hdest₀ : dest₀ = none := by
    rcases h.settled with ⟨-, hsame⟩ | ⟨hnone, -⟩
    · rw [← hsame, hd]
    · exact hnone
  have hrenamed : ∀ j, (s.install i n t).renamed j ↔ j = i := by
    intro j
    by_cases hji : j = i
    · simp [State.install, hji]
    · simp [State.install, hji, hnone j]
  -- the others wait for the lock, so that none of them has seen the place free
  have hothers : ∀ j m, j ≠ i → s.phase j ≠ .clear m := by
    intro j m hji hj
    have := h.holder j (by simp [hj, Phase.holds])
    rw [hholder] at this
    exact hji (Option.some.inj this).symm
  refine {
    staged := fun hsome => absurd hsome (by simp [State.goto, State.install])
    apart := fun hsome => absurd hsome (by simp [State.goto, State.install])
    ready := fun hsome => absurd hsome (by simp [State.goto, State.install])
    holder := State.forall_goto (P := fun j p => p.holds → s.holder = some j)
      (by simp [Phase.holds]) h.holder
    clear := fun j m hj => ?_
    settled := .inr ⟨hdest₀, ⟨i, (hrenamed i).2 rfl⟩, t, rfl, hok⟩
    once := fun j k hj hk => ((hrenamed j).1 hj).trans ((hrenamed k).1 hk).symm
    installed := State.forall_goto (P := fun j p => p.installed → (s.install i n t).renamed j)
      (fun _ => (hrenamed i).2 rfl) fun j hj => absurd (h.installed j hj) (by simp [hnone j])
    moved := fun j hj => ?_
    broken := State.forall_goto (P := fun j p => p.broken → s.releaseFailed j)
      (by simp [Phase.broken]) h.broken
    seen := fun j d hseen => ?_ }
  · by_cases hji : j = i
    · subst hji
      exact absurd hj (by simp [State.goto])
    · have hj' : s.phase j = .clear m := by
        simpa [State.goto, State.install, State.write, hji] using hj
      exact absurd hj' (hothers j m hji)
  · obtain rfl : j = i := (hrenamed j).1 hj
    left
    simp [State.goto, Phase.installed]
  · right
    refine ⟨?_, i, (hrenamed i).2 rfl⟩
    rcases h.seen j d hseen with hsame | ⟨hd', -⟩
    · rw [← hsame, hd]
    · exact hd'

/-- The directory that is made is nobody's. -/
theorem Inv.mkdtemp (h : Inv accepts dest₀ s) {n : Name} {t : Tree} (hi : s.phase i = .checked)
    (fresh : s.staging n = none) :
    Inv accepts dest₀ ((s.write n (some t)).goto i (.staged n)) := by
  have hfree : s.dest = none → ∀ j, (s.phase j).owned ≠ some n := by
    intro hd j hj
    have := h.staged hd j n hj
    rw [fresh] at this
    exact absurd this (by simp)
  have hmade : Inv accepts dest₀ (s.write n (some t)) :=
    h.write (fun hd _ => hfree hd) fun hd j hj => hfree hd j (Phase.owned_of_ready hj)
  refine hmade.goto ⟨fun _ m hm => ?_, fun hd m hm j hj => ?_, by simp [Phase.ready],
    by simp [Phase.holds], by simp, by simp [Phase.installed], fun hr => ?_, by simp [Phase.broken]⟩
  · obtain rfl : n = m := by simpa [Phase.owned] using hm
    simp [State.write]
  · obtain rfl : n = m := by simpa [Phase.owned] using hm
    exact absurd hj (hfree hd j)
  · have := h.not_moved (i := i) (by simp [hi]) (by simp [hi, Phase.installed])
    exact absurd hr (by simp [State.write, this])

/-- **One step keeps the invariant.** -/
theorem Inv.step (h : Inv accepts dest₀ s) {s' : State ι Name Tree} (hs : Step accepts s i s') :
    Inv accepts dest₀ s' := by
  cases hs with
  | @internal q hl =>
    by_cases hq : q ≠ .raised ∨ (s.phase i).installed = false
    · obtain ⟨hfollows, hclear, hbroken⟩ := hl.follows hq
      exact h.goto (h.enters hfollows (fun n hn => absurd hn (hclear n))
        fun hb => h.broken i (hbroken hb))
    · -- only a failing run raises after its rename
      obtain ⟨hraised, hin⟩ := not_or.1 hq
      obtain rfl := not_not.1 hraised
      generalize hp : s.phase i = p at hl hin
      cases hl with
      | giveUp => exact h.goto (h.enters_raised hp)
      | _ => exact absurd rfl hin
  | look hl =>
    obtain ⟨hfollows, hclear, hbroken⟩ := hl.follows
    refine h.see.goto (h.see.enters hfollows (fun n hn => ?_) fun hb => ?_)
    · simpa [State.see] using hclear n hn
    · rw [hbroken] at hb
      exact absurd hb (by simp)
  | mkdtemp hi fresh => exact h.mkdtemp hi fresh
  | write hw there =>
    refine h.write (fun _ ht => absurd ht (by simp)) fun hd j hj => ?_
    obtain ⟨hown, hready⟩ := h.writes hw hd
    obtain rfl : j = i := h.apart hd j i _ (Phase.owned_of_ready hj) hown
    rw [hready] at hj
    exact absurd hj (by simp)
  | verify hi ht ok => exact h.verify hi ht ok
  | flock hi free => exact h.flock hi free
  | rename hi ht => exact h.rename hi ht
  | release hr =>
    obtain ⟨hfollows, hclear, hholds, hbroken⟩ := hr.follows
    have hreleased := h.release hholds
    exact hreleased.goto (hreleased.enters hfollows (fun n hn => absurd hn (hclear n))
      fun hb => h.broken i (hbroken hb))
  | releaseFails hr =>
    obtain ⟨hfollows, hclear, -⟩ := hr.follows
    exact h.fail.goto (h.fail.enters hfollows (fun n hn => absurd hn (hclear n))
      fun _ => by simp [State.fail])
  | releaseFailsReleased hr =>
    obtain ⟨hfollows, hclear, hholds⟩ := hr.follows
    have hreleased := (h.release hholds).fail (i := i)
    exact hreleased.goto (hreleased.enters hfollows (fun n hn => absurd hn (hclear n))
      fun _ => by simp [State.fail])
  | @removed n b hi =>
    have hraised := h.goto (h.enters_raised hi)
    have hgone : Inv accepts dest₀ ((s.goto i .raised).write n none) := by
      have hw : Writes (s.phase i) n := hi ▸ .removeStaging
      have hnone : s.dest = none → ∀ j, ((s.goto i .raised).phase j).owned ≠ some n := by
        intro hd
        obtain ⟨hown, -⟩ := h.writes hw hd
        refine fun j hj => ?_
        by_cases hji : j = i
        · subst hji
          exact absurd hj (by simp [State.goto, Phase.owned])
        · simp only [State.goto, Function.update_of_ne hji] at hj
          exact hji (h.apart hd j i n hj hown)
      exact hraised.write (fun hd _ => hnone hd) fun hd j hj =>
        hnone hd j (Phase.owned_of_ready hj)
    exact hgone

theorem inv_of_reachable {staging : Name → Option Tree}
    (h : Reachable accepts (State.initial dest₀ staging) s) : Inv accepts dest₀ s := by
  induction h with
  | refl => exact inv_initial accepts dest₀ staging
  | tail _ hs ih =>
    obtain ⟨i, hs⟩ := hs
    exact ih.step hs

/-- Only a rename changes the destination. -/
theorem Step.dest_eq {s' : State ι Name Tree} (hs : Step accepts s i s')
    (h' : s'.renamed i = false) : s'.dest = s.dest := by
  cases hs with
  | rename => simp [State.goto, State.install] at h'
  | _ => rfl

/-- A run that has renamed changes the destination no more. -/
theorem Step.dest_eq_of_renamed {s' : State ι Name Tree} (hs : Step accepts s i s')
    (hinv : Inv accepts dest₀ s) (hr : s.renamed i) : s'.dest = s.dest := by
  cases hs with
  | @rename n t hi ht =>
    rw [hinv.not_moved (by simp [hi]) (by simp [hi, Phase.installed])] at hr
    exact absurd hr (by simp)
  | _ => rfl

end Steps

/-! ### The result -/

section Result

variable [DecidableEq ι] [DecidableEq Name]

/-- **Atomic installation**, whatever the runs do and however they interleave. The destination
is what it was or, where nothing was, one tree that a verification accepted. A run that has
raised did not change it: it is as the run last saw it, unless another run has installed since;
or the run had renamed, and releasing the lock failed. At most one run returns. A run changes
the destination only with its one rename. -/
theorem atomic_install (accepts : Tree → Prop) (dest₀ : Option Tree)
    (staging : Name → Option Tree) (s : State ι Name Tree)
    (h : Reachable accepts (State.initial dest₀ staging) s) :
    (s.dest = dest₀ ∨ dest₀ = none ∧ ∃ t, s.dest = some t ∧ accepts t) ∧
      (∀ i, s.phase i = .raised →
        (s.renamed i = false ∧ ∀ d, s.seen i = some d →
          s.dest = d ∨ d = none ∧ ∃ j, j ≠ i ∧ s.renamed j) ∨
        s.renamed i ∧ s.releaseFailed i) ∧
      (∀ i j, s.phase i = .returned → s.phase j = .returned → i = j) ∧
      ∀ i s', Step accepts s i s' →
        s'.dest = s.dest ∨ s.renamed i = false ∧ s'.renamed i := by
  have hinv := inv_of_reachable h
  refine ⟨?_, fun i hi => ?_, fun i j hi hj => ?_, fun i s' hs => ?_⟩
  · rcases hinv.settled with ⟨-, hsame⟩ | ⟨hnone, -, ht⟩
    · exact .inl hsame
    · exact .inr ⟨hnone, ht⟩
  · cases hr : s.renamed i with
    | true =>
      refine .inr ⟨rfl, ?_⟩
      rcases hinv.moved i hr with hin | ⟨-, hfailed⟩
      · exact absurd hin (by simp [hi, Phase.installed])
      · exact hfailed
    | false =>
      refine .inl ⟨rfl, fun d hd => ?_⟩
      rcases hinv.seen i d hd with hsame | ⟨hd, j, hj⟩
      · exact .inl hsame
      · refine .inr ⟨hd, j, ?_, hj⟩
        rintro rfl
        rw [hr] at hj
        exact absurd hj (by simp)
  · exact hinv.once i j (hinv.installed i (by simp [hi, Phase.installed]))
      (hinv.installed j (by simp [hj, Phase.installed]))
  · cases hr : s.renamed i with
    | true => exact .inl (hs.dest_eq_of_renamed hinv hr)
    | false =>
      cases hr' : s'.renamed i with
      | true => exact .inr ⟨rfl, rfl⟩
      | false => exact .inl (hs.dest_eq hr')

theorem Reachable.step {accepts : Tree → Prop} {s₀ s s' : State ι Name Tree} {i : ι}
    (h : Reachable accepts s₀ s) (hs : Step accepts s i s') : Reachable accepts s₀ s' :=
  h.tail ⟨i, hs⟩

theorem Reachable.internal {accepts : Tree → Prop} {s₀ s : State ι Name Tree} {i : ι}
    {p q : Phase Name} (h : Reachable accepts s₀ s) (hp : s.phase i = p) (hl : Local p q) :
    Reachable accepts s₀ (s.goto i q) :=
  h.step (.internal (hp ▸ hl))

theorem Reachable.look {accepts : Tree → Prop} {s₀ s : State ι Name Tree} {i : ι}
    {p q : Phase Name} {there : Bool} (h : Reachable accepts s₀ s) (hp : s.phase i = p)
    (hd : s.dest.isSome = there) (hl : Looks p there q) :
    Reachable accepts s₀ ((s.see i).goto i q) :=
  h.step (.look (by rw [hp, hd]; exact hl))

theorem Reachable.release {accepts : Tree → Prop} {s₀ s : State ι Name Tree} {i : ι}
    {p q : Phase Name} (h : Reachable accepts s₀ s) (hp : s.phase i = p) (hr : Releases p q) :
    Reachable accepts s₀ ((s.release i).goto i q) :=
  h.step (.release (hp ▸ hr))

/-- **An undisturbed run gets past its rename.** -/
theorem Reachable.install {accepts : Tree → Prop} {s₀ s : State ι Name Tree} {i : ι} {n : Name}
    {t : Tree} (h : Reachable accepts s₀ s) (hi : s.phase i = .start) (hd : s.dest = none)
    (hf : s.holder = none) (hn : s.staging n = none) (ht : accepts t) :
    ∃ s', Reachable accepts s₀ s' ∧ s'.phase i = .unlocking n true ∧ s'.dest = some t ∧
      s'.renamed i ∧ s'.seen i = some none ∧ s'.holder = some i ∧
      ∀ j, j ≠ i → s'.phase j = s.phase j ∧ s'.seen j = s.seen j := by
  have h := h.internal hi .load
  have h := h.look (i := i) State.phase_goto (by simpa [State.goto] using hd) .absent
  have h := h.step (.mkdtemp (i := i) (n := n) (t := t) State.phase_goto hn)
  have h := h.internal (i := i) State.phase_goto .download
  have h := h.internal (i := i) State.phase_goto .removeCache
  have h := h.internal (i := i) State.phase_goto .writeMarker
  have h := h.step (.verify (i := i) (t := t) State.phase_goto
    (by simp [State.goto, State.write]) ht)
  have h := h.internal (i := i) State.phase_goto .openLock
  have h := h.step (.flock (i := i) State.phase_goto hf)
  have h := h.look (i := i) State.phase_goto
    (by simpa [State.goto, State.see, State.write] using hd) .stillAbsent
  have h := h.step (.rename (i := i) (t := t) State.phase_goto
    (by simp [State.goto, State.write, State.see]))
  refine ⟨_, h, State.phase_goto, rfl, ?_, ?_, rfl, fun j hj => ⟨?_, ?_⟩⟩
  · simp [State.goto, State.install]
  · simp [State.goto, State.install, State.see, State.write, hd]
  · simp [State.goto, State.install, State.see, State.write, hj]
  · simp [State.goto, State.install, State.see, State.write, hj]

end Result

/-- Two runs for an absent destination, with one staging name and one acceptable tree. -/
def twoRuns : State Bool Unit Unit :=
  State.initial none fun _ => none

/-- **Two runs of which the one that raises does not leave the destination as it last saw it**:
the other one installs in between; or it installs itself, and then the lock cannot be
released. -/
theorem raises_and_differs :
    (∃ s, Reachable (fun _ => True) twoRuns s ∧ s.phase false = .raised ∧
      s.renamed false = false ∧ s.seen false = some none ∧ s.dest = some ()) ∧
    ∃ s, Reachable (fun _ => True) twoRuns s ∧ s.phase true = .raised ∧
      s.renamed true ∧ s.seen true = some none ∧ s.dest = some () := by
  have h₀ : Reachable (fun _ => True) twoRuns twoRuns := .refl
  constructor
  · have h := h₀.internal (i := false) rfl .load
    have h := h.look (i := false) State.phase_goto rfl .absent
    obtain ⟨s, h, -, hd, -, -, -, hothers⟩ :=
      h.install (i := true) (n := ()) (t := ()) rfl rfl rfl rfl trivial
    obtain ⟨hphase, hseen⟩ := hothers false (by simp)
    have hchecked : s.phase false = .checked := hphase.trans State.phase_goto
    have hnot := (inv_of_reachable h).not_moved (i := false) (by simp [hchecked])
      (by simp [hchecked, Phase.installed])
    exact ⟨_, h.internal hchecked .mkdtempFails, State.phase_goto, hnot, hseen, hd⟩
  · obtain ⟨s, h, hphase, hd, hr, hseen, -⟩ :=
      h₀.install (i := true) (n := ()) (t := ()) rfl rfl rfl rfl trivial
    have h := h.step (.releaseFails (i := true) (hphase ▸ ReleaseFails.unlock))
    have h := h.release (i := true) State.phase_goto .closeFailing
    have h := h.internal (i := true) State.phase_goto .giveUp
    exact ⟨_, h, State.phase_goto, hr, hseen, hd⟩

/-- What the verification of a model accepts, with a lock of seven files. -/
def Verifies (tree : Verify.Entry) : Prop :=
  (Verify.verifyModelRoot Verify.asciiRuntime "/model" (some tree) none
    Verify.smallLockFile).toOption.isSome = true

/-- Two runs for an absent destination, each with a staging name of its own. -/
def twoFetches : State Bool Bool Verify.Entry :=
  State.initial none fun _ => none

/-- Both runs have a verified tree; one of them returns, and the other one finds the destination
there and removes its own. -/
theorem atomic_install_twoRuns :
    ∃ s, Reachable Verifies twoFetches s ∧ s.phase true = .returned ∧ s.phase false = .raised ∧
      (s.dest = none ∨ twoFetches.dest = none ∧ ∃ t, s.dest = some t ∧ Verifies t) ∧
      ∀ i, s.phase i = .returned → i = true := by
  have htree : Verifies Verify.smallTree := Verify.verifyModelRoot_smallTree
  have h : Reachable Verifies twoFetches twoFetches := .refl
  -- the first run gets as far as the parent lock
  have h := h.internal (i := false) rfl .load
  have h := h.look (i := false) State.phase_goto rfl .absent
  have h := h.step (.mkdtemp (i := false) (n := false) (t := Verify.smallTree) State.phase_goto rfl)
  have h := h.internal (i := false) State.phase_goto .download
  have h := h.internal (i := false) State.phase_goto .removeCache
  have h := h.internal (i := false) State.phase_goto .writeMarker
  have h := h.step (.verify (i := false) (t := Verify.smallTree) State.phase_goto
    (by simp [State.goto, State.write]) htree)
  have h := h.internal (i := false) State.phase_goto .openLock
  -- the second one installs, and is done
  obtain ⟨s, h, hphase, hdest, -, -, hholder, hothers⟩ :=
    h.install (i := true) (n := true) (t := Verify.smallTree) rfl rfl rfl rfl htree
  have hopened : s.phase false = .opened false := (hothers false (by simp)).1
  have h := h.release (i := true) hphase .unlock
  have h := h.release (i := true) State.phase_goto .close
  -- the first one takes the lock, and looks again
  have h := h.step (.flock (i := false) (n := false)
    (by simpa [State.goto, State.release] using hopened) (by simp [State.goto, State.release, hholder]))
  have h := h.look (i := false) State.phase_goto
    (by simp [State.goto, State.release, hdest]) .appeared
  have h := h.release (i := false) State.phase_goto .unlock
  have h := h.release (i := false) State.phase_goto .closeFailing
  have h := h.step (.removed (i := false) State.phase_goto)
  obtain ⟨hsettled, -, honce, -⟩ := atomic_install Verifies none (fun _ => none) _ h
  have hreturned := fun i hi =>
    honce i true hi (by simp [State.goto, State.write, State.release, State.see])
  exact ⟨_, h, by simp [State.goto, State.write, State.release, State.see], State.phase_goto, hsettled,
    hreturned⟩

end Fetch

end DgxSpark
