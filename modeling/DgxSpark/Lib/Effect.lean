import Mathlib.Tactic

/-!
# Computations that keep their state when they fail

A program with side effects and exceptions is a function from a state to an outcome
*and* a state: when it raises, what it did before raising has happened. That is the whole
definition (`DgxSpark.Prog`), and it is the reason for not using an exception monad below
the state, where a failed run would forget its effects.

Two ways of speaking about such programs, each with one rule for each construct:

| | |
|---|---|
| `DgxSpark.Prog.Triple` | from a state with `P`, a result satisfies `Q` and an exception `E` |
| `DgxSpark.Prog.Within` | whatever the outcome, start and end are related by a frame |

A frame (`DgxSpark.Frame`) is a reflexive and transitive relation between states: "this
field is unchanged", "the log has only grown", "if the invariant held, it holds". What each
step stays within, a whole run stays within, which is all there is to the induction.
-/

namespace DgxSpark

universe u v w

/-- A computation over a state that ends with a value or an exception, and in both cases
leaves a state. -/
def Prog (σ : Type u) (ε : Type v) (α : Type w) : Type (max u v w) :=
  σ → Except ε α × σ

namespace Prog

variable {σ : Type u} {ε : Type v} {α β γ : Type w}

/-- A value, without effect. -/
protected def pure (a : α) : Prog σ ε α :=
  fun s => (.ok a, s)

/-- One computation after another. -/
protected def bind (x : Prog σ ε α) (f : α → Prog σ ε β) : Prog σ ε β :=
  fun s => match x s with
    | (.ok a, s') => f a s'
    | (.error e, s') => (.error e, s')

/-- Raising an exception. -/
protected def throw (e : ε) : Prog σ ε α :=
  fun s => (.error e, s)

/-- Handling an exception, from the state it left. -/
protected def tryCatch (x : Prog σ ε α) (h : ε → Prog σ ε α) : Prog σ ε α :=
  fun s => match x s with
    | (.ok a, s') => (.ok a, s')
    | (.error e, s') => h e s'

instance : Monad (Prog σ ε) where
  pure := Prog.pure
  bind := Prog.bind

instance : MonadExceptOf ε (Prog σ ε) where
  throw := Prog.throw
  tryCatch := Prog.tryCatch

/-- The state. -/
def get : Prog σ ε σ :=
  fun s => (.ok s, s)

/-- Changing the state. -/
def modify (f : σ → σ) : Prog σ ε PUnit :=
  fun s => (.ok ⟨⟩, f s)

/-- A pure result with its exception. -/
def lift (r : Except ε α) : Prog σ ε α :=
  fun s => (r, s)

/-- A primitive step, given as a function. -/
def ofFn (f : σ → Except ε α × σ) : Prog σ ε α :=
  f

/-- A computation performed on a condition. -/
def when (c : Bool) (x : Prog σ ε PUnit) : Prog σ ε PUnit :=
  if c then x else pure ⟨⟩

/-- The same computation for each item of a list, in order. -/
def each (xs : List β) (f : β → Prog σ ε PUnit) : Prog σ ε PUnit :=
  match xs with
  | [] => pure ⟨⟩
  | x :: xs => f x >>= fun _ => each xs f

/-! ### Running the constructs -/

@[simp] theorem pure_run (a : α) (s : σ) : (pure a : Prog σ ε α) s = (.ok a, s) := rfl

@[simp] theorem throw_run (e : ε) (s : σ) : (throw e : Prog σ ε α) s = (.error e, s) := rfl

@[simp] theorem get_run (s : σ) : (get : Prog σ ε σ) s = (.ok s, s) := rfl

@[simp] theorem modify_run (f : σ → σ) (s : σ) : (modify f : Prog σ ε PUnit) s = (.ok ⟨⟩, f s) :=
  rfl

@[simp] theorem lift_run (r : Except ε α) (s : σ) : (lift r : Prog σ ε α) s = (r, s) := rfl

@[simp] theorem ofFn_run (f : σ → Except ε α × σ) (s : σ) : (ofFn f : Prog σ ε α) s = f s := rfl

theorem bind_run (x : Prog σ ε α) (f : α → Prog σ ε β) (s : σ) :
    (x >>= f) s = match x s with
      | (.ok a, s') => f a s'
      | (.error e, s') => (.error e, s') := rfl

theorem tryCatch_run (x : Prog σ ε α) (h : ε → Prog σ ε α) (s : σ) :
    (tryCatch x h) s = match x s with
      | (.ok a, s') => (.ok a, s')
      | (.error e, s') => h e s' := rfl

theorem bind_ok {x : Prog σ ε α} {f : α → Prog σ ε β} {s s' : σ} {a : α}
    (h : x s = (.ok a, s')) : (x >>= f) s = f a s' := by
  rw [bind_run, h]

/-- A sequence returns only through a return of its first part. -/
theorem bind_eq_ok {x : Prog σ ε α} {f : α → Prog σ ε β} {s t : σ} {b : β} :
    (x >>= f) s = (.ok b, t) ↔ ∃ a s', x s = (.ok a, s') ∧ f a s' = (.ok b, t) := by
  rw [bind_run]
  rcases hx : x s with ⟨a | a, s'⟩ <;> simp

@[simp] theorem pure_bind (a : α) (f : α → Prog σ ε β) : (pure a >>= f : Prog σ ε β) = f a := rfl

theorem bind_assoc (x : Prog σ ε α) (f : α → Prog σ ε β) (g : β → Prog σ ε γ) :
    (x >>= f) >>= g = x >>= fun a => f a >>= g := by
  funext s
  simp only [bind_run]
  rcases x s with ⟨_ | _, _⟩ <;> rfl

@[simp] theorem when_true (x : Prog σ ε PUnit) : when true x = x := rfl

@[simp] theorem when_false (x : Prog σ ε PUnit) : when false x = pure ⟨⟩ := rfl

@[simp] theorem each_nil (f : β → Prog σ ε PUnit) : each [] f = pure ⟨⟩ := rfl

@[simp] theorem each_cons (x : β) (xs : List β) (f : β → Prog σ ε PUnit) :
    each (x :: xs) f = f x >>= fun _ => each xs f := rfl

/-! ### Triples -/

/-- **Two postconditions**: run from a state with `P`, the computation either returns, and
then `Q` holds of its value and state, or raises, and then `E` holds of its exception and
state. -/
def Triple (P : σ → Prop) (x : Prog σ ε α) (Q : α → σ → Prop) (E : ε → σ → Prop) : Prop :=
  ∀ s, P s → match x s with
    | (.ok a, s') => Q a s'
    | (.error e, s') => E e s'

section Rules

variable {P P' : σ → Prop} {Q Q' : α → σ → Prop} {E E' : ε → σ → Prop} {R : β → σ → Prop}

theorem Triple.conseq {x : Prog σ ε α} (h : Triple P x Q E) (hP : ∀ s, P' s → P s)
    (hQ : ∀ a s, Q a s → Q' a s) (hE : ∀ e s, E e s → E' e s) : Triple P' x Q' E' := by
  intro s hs
  have := h s (hP s hs)
  rcases hx : x s with ⟨e | a, s'⟩
  · rw [hx] at this
    exact hE e s' this
  · rw [hx] at this
    exact hQ a s' this

theorem Triple.pre {x : Prog σ ε α} (h : Triple P x Q E) (hP : ∀ s, P' s → P s) :
    Triple P' x Q E :=
  h.conseq hP (fun _ _ h => h) fun _ _ h => h

theorem Triple.post {x : Prog σ ε α} (h : Triple P x Q E) (hQ : ∀ a s, Q a s → Q' a s) :
    Triple P x Q' E :=
  h.conseq (fun _ h => h) hQ fun _ _ h => h

theorem Triple.pure {a : α} (h : ∀ s, P s → Q a s) : Triple P (pure a : Prog σ ε α) Q E :=
  fun s hs => h s hs

theorem Triple.throw {e : ε} (h : ∀ s, P s → E e s) : Triple P (throw e : Prog σ ε α) Q E :=
  fun s hs => h s hs

theorem Triple.lift {r : Except ε α} (hok : ∀ a s, r = .ok a → P s → Q a s)
    (herr : ∀ e s, r = .error e → P s → E e s) : Triple P (Prog.lift r) Q E := by
  intro s hs
  rcases r with e | a
  · exact herr e s rfl hs
  · exact hok a s rfl hs

theorem Triple.get {Q : σ → σ → Prop} (h : ∀ s, P s → Q s s) :
    Triple P (Prog.get : Prog σ ε σ) Q E :=
  fun s hs => h s hs

theorem Triple.modify {Q : PUnit → σ → Prop} {f : σ → σ} (h : ∀ s, P s → Q ⟨⟩ (f s)) :
    Triple P (Prog.modify f : Prog σ ε PUnit) Q E :=
  fun s hs => h s hs

theorem Triple.bind {x : Prog σ ε α} {f : α → Prog σ ε β} (hx : Triple P x Q E)
    (hf : ∀ a, Triple (Q a) (f a) R E) : Triple P (x >>= f) R E := by
  intro s hs
  have := hx s hs
  rw [bind_run]
  rcases hr : x s with ⟨e | a, s'⟩
  · rw [hr] at this
    exact this
  · rw [hr] at this
    exact hf a s' this

/-- After a pure result, what follows may use that it was returned. -/
theorem Triple.bind_lift {r : Except ε α} {f : α → Prog σ ε β}
    (herr : ∀ e s, r = .error e → P s → E e s) (hf : ∀ a, r = .ok a → Triple P (f a) R E) :
    Triple P (Prog.lift r >>= f) R E := by
  intro s hs
  rcases r with e | a
  · exact herr e s rfl hs
  · exact hf a rfl s hs

theorem Triple.tryCatch {x : Prog σ ε α} {h : ε → Prog σ ε α} (hx : Triple P x Q E)
    (hh : ∀ e, Triple (E e) (h e) Q E') : Triple P (tryCatch x h) Q E' := by
  intro s hs
  have := hx s hs
  rw [tryCatch_run]
  rcases hr : x s with ⟨e | a, s'⟩
  · rw [hr] at this
    exact hh e s' this
  · rw [hr] at this
    exact this

theorem Triple.ite {c : Prop} [Decidable c] {x y : Prog σ ε α}
    (hx : c → Triple P x Q E) (hy : ¬c → Triple P y Q E) : Triple P (if c then x else y) Q E := by
  split
  · exact hx ‹_›
  · exact hy ‹_›

theorem Triple.when {Q : PUnit → σ → Prop} {c : Bool} {x : Prog σ ε PUnit}
    (hx : c = true → Triple P x Q E) (hy : c = false → ∀ s, P s → Q ⟨⟩ s) :
    Triple P (Prog.when c x) Q E := by
  cases c
  · exact Triple.pure (hy rfl)
  · exact hx rfl

/-- **The loop rule**: what every iteration preserves, the loop preserves. -/
theorem Triple.each {I : σ → Prop} {xs : List β} {f : β → Prog σ ε PUnit}
    (h : ∀ x ∈ xs, Triple I (f x) (fun _ => I) E) : Triple I (Prog.each xs f) (fun _ => I) E := by
  induction xs with
  | nil => exact Triple.pure fun _ hs => hs
  | cons x xs ih =>
    exact Triple.bind (h x (by simp)) fun _ => ih fun y hy => h y (by simp [hy])

end Rules

end Prog

/-! ### Frames -/

/-- A reflexive and transitive relation between the states before and after a run. -/
structure Frame (σ : Type u) where
  /-- how the state after may differ from the state before -/
  rel : σ → σ → Prop
  refl : ∀ s, rel s s
  trans : ∀ {s t r}, rel s t → rel t r → rel s r

namespace Frame

variable {σ : Type u}

/-- A part of the state is unchanged. -/
def fixed {β : Type v} (f : σ → β) : Frame σ where
  rel s t := f t = f s
  refl _ := rfl
  trans h₁ h₂ := h₂.trans h₁

/-- A property of the state is kept. -/
def keeping (I : σ → Prop) : Frame σ where
  rel s t := I s → I t
  refl _ h := h
  trans h₁ h₂ h := h₂ (h₁ h)

/-- Both of two frames. -/
def and (F G : Frame σ) : Frame σ where
  rel s t := F.rel s t ∧ G.rel s t
  refl s := ⟨F.refl s, G.refl s⟩
  trans h₁ h₂ := ⟨F.trans h₁.1 h₂.1, G.trans h₁.2 h₂.2⟩

/-- A log has only grown, by entries with a property. -/
def logging {β : Type v} (f : σ → List β) (p : β → Prop) : Frame σ where
  rel s t := ∃ new, f t = f s ++ new ∧ ∀ e ∈ new, p e
  refl s := ⟨[], by simp, by simp⟩
  trans := by
    rintro s t r ⟨n, hn, hp⟩ ⟨m, hm, hq⟩
    refine ⟨n ++ m, by rw [hm, hn, List.append_assoc], fun e he => ?_⟩
    rcases List.mem_append.1 he with he | he
    · exact hp e he
    · exact hq e he

end Frame

namespace Prog

variable {σ : Type u} {ε : Type v} {α β : Type w} {F G : Frame σ}

/-- **Staying within a frame**, whatever the outcome. -/
def Within (F : Frame σ) (x : Prog σ ε α) : Prop :=
  ∀ s, F.rel s (x s).2

theorem Within.pure (a : α) : Within F (pure a : Prog σ ε α) :=
  fun s => F.refl s

theorem Within.throw (e : ε) : Within F (throw e : Prog σ ε α) :=
  fun s => F.refl s

theorem Within.lift (r : Except ε α) : Within F (Prog.lift r : Prog σ ε α) :=
  fun s => F.refl s

theorem Within.get : Within F (Prog.get : Prog σ ε σ) :=
  fun s => F.refl s

theorem Within.modify {f : σ → σ} (h : ∀ s, F.rel s (f s)) :
    Within F (Prog.modify f : Prog σ ε PUnit) :=
  h

theorem Within.ofFn {f : σ → Except ε α × σ} (h : ∀ s, F.rel s (f s).2) : Within F (Prog.ofFn f) :=
  h

theorem Within.bind {x : Prog σ ε α} {f : α → Prog σ ε β} (hx : Within F x)
    (hf : ∀ a, Within F (f a)) : Within F (x >>= f) := by
  intro s
  have h₁ := hx s
  rw [bind_run]
  rcases hr : x s with ⟨e | a, s'⟩
  · rwa [hr] at h₁
  · rw [hr] at h₁
    exact F.trans h₁ (hf a s')

/-- After a pure result, what follows may use that it was returned. -/
theorem Within.bind_lift {r : Except ε α} {f : α → Prog σ ε β}
    (hf : ∀ a, r = .ok a → Within F (f a)) : Within F (Prog.lift r >>= f) := by
  intro s
  rcases r with e | a
  · exact F.refl s
  · exact hf a rfl s

theorem Within.tryCatch {x : Prog σ ε α} {h : ε → Prog σ ε α} (hx : Within F x)
    (hh : ∀ e, Within F (h e)) : Within F (tryCatch x h) := by
  intro s
  have h₁ := hx s
  rw [tryCatch_run]
  rcases hr : x s with ⟨e | a, s'⟩
  · rw [hr] at h₁
    exact F.trans h₁ (hh e s')
  · rwa [hr] at h₁

theorem Within.ite {c : Prop} [Decidable c] {x y : Prog σ ε α} (hx : c → Within F x)
    (hy : ¬c → Within F y) : Within F (if c then x else y) := by
  split
  · exact hx ‹_›
  · exact hy ‹_›

theorem Within.when {c : Bool} {x : Prog σ ε PUnit} (hx : c = true → Within F x) :
    Within F (Prog.when c x) := by
  cases c
  · exact Within.pure _
  · exact hx rfl

theorem Within.each {xs : List β} {f : β → Prog σ ε PUnit} (h : ∀ x ∈ xs, Within F (f x)) :
    Within F (Prog.each xs f) := by
  induction xs with
  | nil => exact Within.pure _
  | cons x xs ih =>
    exact Within.bind (h x (by simp)) fun _ => ih fun y hy => h y (by simp [hy])

/-- A property of every value that a computation returns. -/
def Returns (P : α → Prop) (x : Prog σ ε α) : Prop :=
  ∀ s a t, x s = (.ok a, t) → P a

theorem Returns.pure {P : α → Prop} {a : α} (h : P a) : Returns P (pure a : Prog σ ε α) := by
  rintro s b t heq
  cases heq
  exact h

/-- What a sequence returns is what its last part returns. -/
theorem Returns.bind {P : β → Prop} {x : Prog σ ε α} {f : α → Prog σ ε β}
    (hf : ∀ a, Returns P (f a)) : Returns P (x >>= f) := by
  rintro s b t heq
  obtain ⟨a, s', -, h⟩ := bind_eq_ok.1 heq
  exact hf a s' b t h

theorem Returns.bind_lift {P : β → Prop} {r : Except ε α} {f : α → Prog σ ε β}
    (hf : ∀ a, r = .ok a → Returns P (f a)) : Returns P (Prog.lift r >>= f) := by
  rintro s b t heq
  obtain ⟨a, s', h, h'⟩ := bind_eq_ok.1 heq
  exact hf a (congrArg Prod.fst h) s' b t h'

/-- After a computation, what follows may use what is known of its value. -/
theorem Within.bind_returns {P : α → Prop} {x : Prog σ ε α} {f : α → Prog σ ε β}
    (hx : Within F x) (hr : Returns P x) (hf : ∀ a, P a → Within F (f a)) :
    Within F (x >>= f) := by
  intro s
  have h₁ := hx s
  rw [bind_run]
  rcases hs : x s with ⟨e | a, s'⟩
  · rwa [hs] at h₁
  · rw [hs] at h₁
    exact F.trans h₁ (hf a (hr s a s' hs) s')

theorem Triple.bind_returns {P : σ → Prop} {Q : α → σ → Prop} {E : ε → σ → Prop}
    {R : β → σ → Prop} {V : α → Prop} {x : Prog σ ε α} {f : α → Prog σ ε β}
    (hx : Triple P x Q E) (hr : Returns V x) (hf : ∀ a, V a → Triple (Q a) (f a) R E) :
    Triple P (x >>= f) R E := by
  intro s hs
  have h₁ := hx s hs
  rw [bind_run]
  rcases ht : x s with ⟨e | a, s'⟩
  · rw [ht] at h₁
    exact h₁
  · rw [ht] at h₁
    exact hf a (hr s a s' ht) s' h₁

theorem Within.mono {x : Prog σ ε α} (h : Within F x) (hFG : ∀ s t, F.rel s t → G.rel s t) :
    Within G x :=
  fun s => hFG _ _ (h s)

theorem Within.and {x : Prog σ ε α} (h : Within F x) (h' : Within G x) : Within (F.and G) x :=
  fun s => ⟨h s, h' s⟩

/-- A kept invariant, as a triple. -/
theorem Within.triple {I : σ → Prop} {x : Prog σ ε α} (h : Within (.keeping I) x) :
    Triple I x (fun _ => I) (fun _ => I) := by
  intro s hs
  have := h s hs
  rcases hr : x s with ⟨e | a, s'⟩ <;> rwa [hr] at this

/-- A triple with one assertion is a kept invariant. -/
theorem Triple.within {I : σ → Prop} {x : Prog σ ε α}
    (h : Triple I x (fun _ => I) (fun _ => I)) : Within (.keeping I) x := by
  intro s hs
  have := h s hs
  rcases hr : x s with ⟨e | a, s'⟩ <;> rwa [hr] at this

end Prog

end DgxSpark
