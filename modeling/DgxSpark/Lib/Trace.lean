import Mathlib.Data.List.Induction

/-!
# Guarded actions in a trace

A discipline over the events of a run: an action on an object may only happen when a check
of that object came before it, and nothing since then has made the check stale. Events,
objects, and what counts as check, action and staleness are parameters
(`DgxSpark.Trace.Guard`).

A trace keeps the discipline (`DgxSpark.Trace.Guard.Guarded`) when every action in it has a
valid check before it (`DgxSpark.Trace.Guard.Since`). Both are judged at the end of a trace,
one event at a time: `DgxSpark.Trace.Guard.guarded_snoc`, `DgxSpark.Trace.Guard.since_snoc`.
-/

namespace DgxSpark

namespace Trace

universe u v

/-- What is demanded: which events check an object, which act on it, which make an earlier
check of it stale. -/
structure Guard (ε : Type u) (κ : Type v) where
  check : ε → κ → Prop
  act : ε → κ → Prop
  stale : ε → κ → Prop

namespace Guard

variable {ε : Type u} {κ : Type v} (G : Guard ε κ)

/-- A check of the object, and nothing after it that makes it stale. -/
def Since (k : κ) (trace : List ε) : Prop :=
  ∃ before e after, trace = before ++ e :: after ∧ G.check e k ∧ ∀ r ∈ after, ¬G.stale r k

/-- **Every action has its check**, in the part of the trace before it. -/
def Guarded (trace : List ε) : Prop :=
  ∀ before e after k, trace = before ++ e :: after → G.act e k → G.Since k before

variable {G} {k : κ} {trace new : List ε} {e : ε}

theorem guarded_nil : G.Guarded [] := by
  intro before e after k h
  simp at h

/-- What comes later leaves a check valid, as long as none of it makes it stale. -/
theorem Since.append (h : G.Since k trace) (hnew : ∀ r ∈ new, ¬G.stale r k) :
    G.Since k (trace ++ new) := by
  obtain ⟨before, e, after, rfl, hc, hs⟩ := h
  refine ⟨before, e, after ++ new, by simp, hc, fun r hr => ?_⟩
  rcases List.mem_append.1 hr with hr | hr
  · exact hs r hr
  · exact hnew r hr

/-- What came earlier does not matter to a check. -/
theorem Since.prepend (h : G.Since k new) : G.Since k (trace ++ new) := by
  obtain ⟨before, e, after, rfl, hc, hs⟩ := h
  exact ⟨trace ++ before, e, after, by simp, hc, hs⟩

/-- A check at the end is valid. -/
theorem since_snoc (h : G.check e k) : G.Since k (trace ++ [e]) :=
  ⟨trace, e, [], rfl, h, by simp⟩

/-- **One more event**: a trace stays guarded when the action of the new event, if it is one,
has its check. -/
theorem guarded_snoc (h : G.Guarded trace) (he : ∀ k, G.act e k → G.Since k trace) :
    G.Guarded (trace ++ [e]) := by
  intro before a after k heq hact
  rcases List.eq_nil_or_concat after with rfl | ⟨after, b, rfl⟩
  · obtain ⟨rfl, hlast⟩ := List.append_inj' heq rfl
    obtain rfl := List.singleton_inj.1 hlast
    exact he k hact
  · have heq' : trace ++ [e] = (before ++ a :: after) ++ [b] := by simpa using heq
    exact h before a after k (List.append_inj' heq' rfl).1 hact

/-- Events that are no actions can be added freely. -/
theorem Guarded.append_idle (h : G.Guarded trace) (hnew : ∀ r ∈ new, ∀ k, ¬G.act r k) :
    G.Guarded (trace ++ new) := by
  induction new using List.reverseRecOn with
  | nil => simpa using h
  | append_singleton new e ih =>
    rw [← List.append_assoc]
    refine guarded_snoc (ih fun r hr => hnew r (by simp [hr])) fun k hk => ?_
    exact absurd hk (hnew e (by simp) k)

/-- Two guarded traces, one after the other. -/
theorem Guarded.append (h : G.Guarded trace) (hnew : G.Guarded new) :
    G.Guarded (trace ++ new) := by
  induction new using List.reverseRecOn with
  | nil => simpa using h
  | append_singleton new e ih =>
    have hpre : G.Guarded new := fun before a after k heq hact =>
      hnew before a (after ++ [e]) k (by simp [heq]) hact
    rw [← List.append_assoc]
    exact guarded_snoc (ih hpre) fun k hk => (hnew new e [] k (by simp) hk).prepend

end Guard

end Trace

end DgxSpark
