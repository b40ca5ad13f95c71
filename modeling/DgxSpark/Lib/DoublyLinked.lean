import Mathlib.Data.List.Chain
import Mathlib.Data.List.Nodup
import Mathlib.Logic.Function.Basic
import Mathlib.Tactic.Tauto

/-!
# Doubly linked lists

Nodes with a link forwards and a link backwards, over any type of nodes, and what it means that
they form a list between two fixed nodes (`DgxSpark.DoublyLinked.Between`): along the links lie
the nodes of the list, each once, forwards and backwards alike, and every other node is loose.

The operations that such structures are made of are `DgxSpark.DoublyLinked.Links.link`, which
makes two nodes neighbours, and `DgxSpark.DoublyLinked.Links.clear`. A node is taken out by
linking its neighbours and clearing it (`DgxSpark.DoublyLinked.Between.unlink`); nodes are put in
by linking them one after the other (`DgxSpark.DoublyLinked.Between.insert`).
-/

namespace DgxSpark

namespace DoublyLinked

universe u

/-- The links of the nodes. -/
@[ext] structure Links (ν : Type u) where
  next : ν → Option ν
  prev : ν → Option ν

namespace Links

variable {ν : Type u}

/-- Nodes that lie one after the other. -/
def Adjacent (s : Links ν) (a b : ν) : Prop :=
  s.next a = some b ∧ s.prev b = some a

/-- A list of nodes along the links. -/
def Chained (s : Links ν) (l : List ν) : Prop :=
  l.IsChain s.Adjacent

/-- A chain reads the forward links of all nodes but its last one and the backward links of all
but its first one. -/
theorem Chained.congr {s s' : Links ν} {l : List ν} (h : s.Chained l)
    (hnext : ∀ x ∈ l.dropLast, s'.next x = s.next x)
    (hprev : ∀ x ∈ l.tail, s'.prev x = s.prev x) : s'.Chained l := by
  induction l with
  | nil => exact List.isChain_nil
  | cons a l ih =>
    cases l with
    | nil => exact List.isChain_singleton a
    | cons b l =>
      obtain ⟨hab, hl⟩ := List.isChain_cons_cons.1 h
      refine List.isChain_cons_cons.2 ⟨⟨?_, ?_⟩, ih hl (fun x hx => ?_) fun x hx => ?_⟩
      · rw [hnext a (by simp), hab.1]
      · rw [hprev b (by simp), hab.2]
      · exact hnext x (by simp [hx])
      · exact hprev x (by simp [List.mem_of_mem_tail hx])

variable [DecidableEq ν]

/-- Make two nodes neighbours. -/
def link (a b : ν) (s : Links ν) : Links ν where
  next := Function.update s.next a (some b)
  prev := Function.update s.prev b (some a)

/-- Cut a node off from its neighbours, on its own side. -/
def clear (a : ν) (s : Links ν) : Links ν where
  next := Function.update s.next a none
  prev := Function.update s.prev a none

/-- Cut off the nodes of a list, one after the other. -/
def clearAll (l : List ν) (s : Links ν) : Links ν :=
  l.foldl (fun s a => s.clear a) s

/-- Link the nodes of a list, each with the next one. -/
def linkAlong : List ν → Links ν → Links ν
  | a :: b :: l, s => linkAlong (b :: l) (s.link a b)
  | _, s => s

@[simp] theorem link_next_self (a b : ν) (s : Links ν) : (s.link a b).next a = some b :=
  Function.update_self ..

@[simp] theorem link_prev_self (a b : ν) (s : Links ν) : (s.link a b).prev b = some a :=
  Function.update_self ..

theorem link_next_of_ne {a b x : ν} (hx : x ≠ a) (s : Links ν) :
    (s.link a b).next x = s.next x :=
  Function.update_of_ne hx ..

theorem link_prev_of_ne {a b x : ν} (hx : x ≠ b) (s : Links ν) :
    (s.link a b).prev x = s.prev x :=
  Function.update_of_ne hx ..

@[simp] theorem clear_next_self (a : ν) (s : Links ν) : (s.clear a).next a = none :=
  Function.update_self ..

@[simp] theorem clear_prev_self (a : ν) (s : Links ν) : (s.clear a).prev a = none :=
  Function.update_self ..

theorem clear_next_of_ne {a x : ν} (hx : x ≠ a) (s : Links ν) :
    (s.clear a).next x = s.next x :=
  Function.update_of_ne hx ..

theorem clear_prev_of_ne {a x : ν} (hx : x ≠ a) (s : Links ν) :
    (s.clear a).prev x = s.prev x :=
  Function.update_of_ne hx ..

theorem clearAll_next {l : List ν} {x : ν} (s : Links ν) :
    (s.clearAll l).next x = if x ∈ l then none else s.next x := by
  induction l generalizing s with
  | nil => simp [clearAll]
  | cons a l ih =>
    have hstep : s.clearAll (a :: l) = (s.clear a).clearAll l := rfl
    rw [hstep, ih]
    by_cases hxa : x = a
    · subst hxa
      simp
    · simp [hxa, clear_next_of_ne hxa]

theorem clearAll_prev {l : List ν} {x : ν} (s : Links ν) :
    (s.clearAll l).prev x = if x ∈ l then none else s.prev x := by
  induction l generalizing s with
  | nil => simp [clearAll]
  | cons a l ih =>
    have hstep : s.clearAll (a :: l) = (s.clear a).clearAll l := rfl
    rw [hstep, ih]
    by_cases hxa : x = a
    · subst hxa
      simp
    · simp [hxa, clear_prev_of_ne hxa]

/-- Linking different nodes, in either order. -/
theorem link_comm {a b x y : ν} (hax : a ≠ x) (hby : b ≠ y) (s : Links ν) :
    (s.link x y).link a b = (s.link a b).link x y := by
  simp only [link, Links.mk.injEq]
  exact ⟨Function.update_comm hax.symm _ _ _, Function.update_comm hby.symm _ _ _⟩

/-- Two nodes can be linked before a list that does not write their links, or after it. -/
theorem linkAlong_link {l : List ν} {a b : ν} (ha : a ∉ l.dropLast) (hb : b ∉ l.tail)
    (s : Links ν) : (s.linkAlong l).link a b = (s.link a b).linkAlong l := by
  induction l generalizing s with
  | nil => rfl
  | cons x l ih =>
    cases l with
    | nil => rfl
    | cons y l =>
      simp only [List.dropLast_cons_cons, List.mem_cons, not_or] at ha
      simp only [List.tail_cons, List.mem_cons, not_or] at hb
      rw [linkAlong, ih ha.2 hb.2, link_comm ha.1 hb.1, linkAlong]

/-- The last two nodes of a list are linked last. -/
theorem linkAlong_concat (l : List ν) (a b : ν) (s : Links ν) :
    s.linkAlong (l ++ [a, b]) = (s.linkAlong (l ++ [a])).link a b := by
  induction l generalizing s with
  | nil => rfl
  | cons x l ih =>
    cases l with
    | nil => rfl
    | cons y l => exact ih (s.link x y)

/-- Linking along a list writes the forward links of all nodes but the last one. -/
theorem linkAlong_next {l : List ν} {x : ν} (hx : x ∉ l.dropLast) (s : Links ν) :
    (s.linkAlong l).next x = s.next x := by
  induction l generalizing s with
  | nil => rfl
  | cons a l ih =>
    cases l with
    | nil => rfl
    | cons b l =>
      simp only [List.dropLast_cons_cons, List.mem_cons, not_or] at hx
      rw [linkAlong, ih hx.2, link_next_of_ne hx.1]

/-- Linking along a list writes the backward links of all nodes but the first one. -/
theorem linkAlong_prev {l : List ν} {x : ν} (hx : x ∉ l.tail) (s : Links ν) :
    (s.linkAlong l).prev x = s.prev x := by
  induction l generalizing s with
  | nil => rfl
  | cons a l ih =>
    cases l with
    | nil => rfl
    | cons b l =>
      simp only [List.tail_cons, List.mem_cons, not_or] at hx
      rw [linkAlong, ih hx.2, link_prev_of_ne hx.1]

/-- Linking along a list of different nodes makes it a chain. -/
theorem chained_linkAlong {l : List ν} (hnodup : l.Nodup) (s : Links ν) :
    (s.linkAlong l).Chained l := by
  induction l generalizing s with
  | nil => exact List.isChain_nil
  | cons a l ih =>
    cases l with
    | nil => exact List.isChain_singleton a
    | cons b l =>
      obtain ⟨ha, hnodup⟩ := List.nodup_cons.1 hnodup
      have hb := (List.nodup_cons.1 hnodup).1
      refine List.isChain_cons_cons.2 ⟨⟨?_, ?_⟩, ih hnodup _⟩
      · rw [linkAlong, linkAlong_next fun h => ha ((List.dropLast_sublist _).subset h), link_next_self]
      · rw [linkAlong, linkAlong_prev (by simpa using hb), link_prev_self]

end Links

open Links

variable {ν : Type u} {first last : ν} {s : Links ν} {l : List ν}

/-- **A list between two nodes.** -/
structure Between (first last : ν) (s : Links ν) (l : List ν) : Prop where
  nodup : (first :: (l ++ [last])).Nodup
  chained : s.Chained (first :: (l ++ [last]))
  first_prev : s.prev first = none
  last_next : s.next last = none
  loose : ∀ x, x ∉ first :: (l ++ [last]) → s.next x = none ∧ s.prev x = none

/-- **A list from nothing**: nodes linked one after the other. -/
theorem between_linkAlong [DecidableEq ν] (h : (first :: (l ++ [last])).Nodup) :
    Between first last (Links.linkAlong (first :: (l ++ [last])) ⟨fun _ => none, fun _ => none⟩)
      l := by
  have hdrop : (first :: (l ++ [last])).dropLast = first :: l := by
    rw [← List.cons_append, List.dropLast_concat]
  refine ⟨h, chained_linkAlong h _, ?_, ?_, fun x hx => ⟨?_, ?_⟩⟩
  · exact linkAlong_prev (List.nodup_cons.1 h).1 _
  · refine linkAlong_next ?_ _
    rw [hdrop]
    rw [← List.cons_append] at h
    exact fun hmem => (List.disjoint_of_nodup_append h) hmem (List.mem_singleton_self last)
  · exact linkAlong_next (fun hmem => hx ((List.dropLast_sublist _).subset hmem)) _
  · exact linkAlong_prev (fun hmem => hx (List.mem_cons_of_mem _ hmem)) _

namespace Between

/-- What comes after the first node. -/
theorem next_first (h : Between first last s l) : s.next first = (l ++ [last]).head? := by
  have hchain := h.chained
  rw [Links.Chained] at hchain
  cases l with
  | nil => exact (List.isChain_cons_cons.1 hchain).1.1
  | cons a l => exact (List.isChain_cons_cons.1 hchain).1.1

/-- What comes after a node of the list. -/
theorem next_mid {l₁ l₂ : List ν} {x : ν} (h : Between first last s (l₁ ++ x :: l₂)) :
    s.next x = (l₂ ++ [last]).head? := by
  have hchain := h.chained
  have heq : first :: (l₁ ++ x :: l₂ ++ [last]) = (first :: l₁) ++ x :: (l₂ ++ [last]) := by
    simp
  rw [Links.Chained, heq] at hchain
  have htail := (List.isChain_split.1 hchain).2
  cases l₂ with
  | nil => exact (List.isChain_cons_cons.1 htail).1.1
  | cons a l => exact (List.isChain_cons_cons.1 htail).1.1

/-- Around any place there are neighbours. -/
theorem adjacent (h : Between first last s l) {l₁ l₂ : List ν} {a b : ν}
    (heq : first :: (l ++ [last]) = l₁ ++ a :: b :: l₂) : s.Adjacent a b := by
  have hchain := h.chained
  rw [Links.Chained, heq] at hchain
  exact (List.isChain_append_cons_cons.1 hchain).2.1

/-- **Forwards and backwards are the inverse of each other.** -/
theorem next_iff_prev (h : Between first last s l) {x y : ν} :
    s.next x = some y ↔ s.prev y = some x := by
  constructor
  · intro hnext
    -- a node with a node after it lies on the list, and is not the last one
    have hx : x ∈ first :: (l ++ [last]) := by
      by_contra hout
      rw [(h.loose x hout).1] at hnext
      cases hnext
    obtain ⟨l₁, l₂, heq⟩ := List.append_of_mem hx
    cases l₂ with
    | nil =>
      have hlast : x = last := by
        rw [← List.cons_append] at heq
        exact (List.cons.inj (List.append_inj' heq rfl).2).1.symm
      rw [hlast, h.last_next] at hnext
      cases hnext
    | cons b l₂ =>
      obtain ⟨hn, hp⟩ := h.adjacent heq
      obtain rfl := Option.some.inj (hn.symm.trans hnext)
      exact hp
  · intro hprev
    have hy : y ∈ first :: (l ++ [last]) := by
      by_contra hout
      rw [(h.loose y hout).2] at hprev
      cases hprev
    obtain ⟨l₁, l₂, heq⟩ := List.append_of_mem hy
    rcases List.eq_nil_or_concat l₁ with rfl | ⟨l₁, a, rfl⟩
    · obtain rfl : first = y := (List.cons.inj heq).1
      rw [h.first_prev] at hprev
      cases hprev
    · have heq' : first :: (l ++ [last]) = l₁ ++ a :: y :: l₂ := by simpa using heq
      obtain ⟨hn, hp⟩ := h.adjacent heq'
      obtain rfl := Option.some.inj (hp.symm.trans hprev)
      exact hn

variable [DecidableEq ν]

/-- **Taking a node out**: its neighbours become neighbours, and it is loose. -/
theorem unlink {l₁ l₂ : List ν} {x : ν} (h : Between first last s (l₁ ++ x :: l₂)) :
    ∃ a b, s.prev x = some a ∧ s.next x = some b ∧
      Between first last ((s.link a b).clear x) (l₁ ++ l₂) := by
  -- the neighbours, with what lies before and after them
  obtain ⟨m₁, a, hleft⟩ : ∃ m₁ a, first :: l₁ = m₁ ++ [a] :=
    ⟨_, _, (List.dropLast_append_getLast (List.cons_ne_nil first l₁)).symm⟩
  obtain ⟨b, m₂, hright⟩ : ∃ b m₂, l₂ ++ [last] = b :: m₂ := by
    cases l₂ with
    | nil => exact ⟨last, [], rfl⟩
    | cons b l₂ => exact ⟨b, l₂ ++ [last], rfl⟩
  have heq : first :: (l₁ ++ x :: l₂ ++ [last]) = m₁ ++ a :: x :: b :: m₂ := by
    have : first :: (l₁ ++ x :: l₂ ++ [last]) = (first :: l₁) ++ x :: (l₂ ++ [last]) := by simp
    rw [this, hleft, hright]
    simp
  have heq' : first :: (l₁ ++ l₂ ++ [last]) = m₁ ++ a :: b :: m₂ := by
    have : first :: (l₁ ++ l₂ ++ [last]) = (first :: l₁) ++ (l₂ ++ [last]) := by simp
    rw [this, hleft, hright]
    simp
  have hnodup := h.nodup
  have hchain := h.chained
  rw [Links.Chained, heq] at hchain
  rw [heq] at hnodup
  obtain ⟨hbefore, hax, hrest⟩ := List.isChain_append_cons_cons.1 hchain
  obtain ⟨hxb, hafter⟩ := List.isChain_cons_cons.1 hrest
  -- the nodes are all different
  obtain ⟨hm₁, hmid, hdisj⟩ := List.nodup_append.1 hnodup
  obtain ⟨ha, hmid⟩ := List.nodup_cons.1 hmid
  obtain ⟨hx, hmid⟩ := List.nodup_cons.1 hmid
  obtain ⟨hb, hm₂⟩ := List.nodup_cons.1 hmid
  simp only [List.mem_cons, not_or] at ha hx hb
  have hout : ∀ y ∈ m₁, y ≠ a ∧ y ≠ x ∧ y ≠ b := by
    intro y hy
    exact ⟨hdisj y hy a (by simp), hdisj y hy x (by simp), hdisj y hy b (by simp)⟩
  refine ⟨a, b, hax.2, hxb.1, ⟨?_, ?_, ?_, ?_, fun y hy => ?_⟩⟩
  · rw [heq']
    exact hnodup.sublist (by simp)
  · rw [Links.Chained, heq']
    refine List.isChain_append_cons_cons.2 ⟨?_, ⟨?_, ?_⟩, ?_⟩
    · refine Links.Chained.congr hbefore (fun y hy => ?_) fun y hy => ?_
      · rw [List.dropLast_concat] at hy
        obtain ⟨hya, hyx, -⟩ := hout y hy
        rw [clear_next_of_ne hyx, link_next_of_ne hya]
      · have hy' : y ∈ m₁ ++ [a] := List.mem_of_mem_tail hy
        have hne : y ≠ x ∧ y ≠ b := by
          rcases List.mem_append.1 hy' with hy' | hy'
          · exact (hout y hy').2
          · rw [List.mem_singleton.1 hy']
            exact ⟨ha.1, ha.2.1⟩
        rw [clear_prev_of_ne hne.1, link_prev_of_ne hne.2]
    · rw [clear_next_of_ne ha.1, link_next_self]
    · rw [clear_prev_of_ne (Ne.symm hx.1), link_prev_self]
    · refine Links.Chained.congr hafter (fun y hy => ?_) fun y hy => ?_
      · have hy' : y ∈ b :: m₂ := (List.dropLast_sublist _).subset hy
        have hne : y ≠ x ∧ y ≠ a := by
          rcases List.mem_cons.1 hy' with rfl | hy'
          · exact ⟨Ne.symm hx.1, Ne.symm ha.2.1⟩
          · exact ⟨fun h => hx.2 (h ▸ hy'), fun h => ha.2.2 (h ▸ hy')⟩
        rw [clear_next_of_ne hne.1, link_next_of_ne hne.2]
      · have hy' : y ∈ m₂ := hy
        have hne : y ≠ x ∧ y ≠ b := ⟨fun h => hx.2 (h ▸ hy'), fun h => hb (h ▸ hy')⟩
        rw [clear_prev_of_ne hne.1, link_prev_of_ne hne.2]
  · -- the first node has nothing before it, and is neither of the two that were written
    have hfirst : first ≠ x ∧ first ≠ b := by
      have hmem : first ∈ m₁ ++ [a] := by rw [← hleft]; simp
      rcases List.mem_append.1 hmem with hf | hf
      · exact (hout first hf).2
      · rw [List.mem_singleton.1 hf]
        exact ⟨ha.1, ha.2.1⟩
    rw [clear_prev_of_ne hfirst.1, link_prev_of_ne hfirst.2, h.first_prev]
  · have hlast : last ≠ x ∧ last ≠ a := by
      have hmem : last ∈ b :: m₂ := by rw [← hright]; simp
      rcases List.mem_cons.1 hmem with hl | hl
      · rw [hl]
        exact ⟨Ne.symm hx.1, Ne.symm ha.2.1⟩
      · exact ⟨fun h => hx.2 (h ▸ hl), fun h => ha.2.2 (h ▸ hl)⟩
    rw [clear_next_of_ne hlast.1, link_next_of_ne hlast.2, h.last_next]
  · by_cases hyx : y = x
    · subst hyx
      exact ⟨clear_next_self _ _, clear_prev_self _ _⟩
    · rw [heq'] at hy
      simp only [List.mem_append, List.mem_cons, not_or] at hy
      have hold := h.loose y (by rw [heq]; simp [hy, hyx])
      rw [clear_next_of_ne hyx, clear_prev_of_ne hyx, link_next_of_ne hy.2.1,
        link_prev_of_ne hy.2.2.1]
      exact hold

/-- **Taking the first nodes out** at once: they are cut off, and what comes after them is
linked with the first node. -/
theorem clearFirst {l₁ l₂ : List ν} {b : ν} (h : Between first last s (l₁ ++ l₂))
    (hb : (l₂ ++ [last]).head? = some b) :
    Between first last ((s.clearAll l₁).link first b) l₂ := by
  obtain ⟨m₂, hright⟩ := List.head?_eq_some_iff.1 hb
  have heq : first :: (l₁ ++ l₂ ++ [last]) = first :: (l₁ ++ b :: m₂) := by
    rw [List.append_assoc, hright]
  have hnodup := h.nodup
  have hchain := h.chained
  rw [heq] at hnodup
  rw [Links.Chained, heq, ← List.cons_append] at hchain
  have hafter := (List.isChain_split.1 hchain).2
  obtain ⟨hfirst, hrest⟩ := List.nodup_cons.1 hnodup
  obtain ⟨-, hlater, hdisj⟩ := List.nodup_append.1 hrest
  rw [List.mem_append, not_or] at hfirst
  have hfb : first ≠ b := fun hfb => hfirst.2 (hfb ▸ List.mem_cons_self)
  have hkept : ∀ y ∈ b :: m₂, y ∉ l₁ := fun y hy hin => hdisj y hin y hy rfl
  have hnext : ∀ y, y ≠ first → y ∉ l₁ →
      ((s.clearAll l₁).link first b).next y = s.next y := by
    intro y hy hin
    rw [link_next_of_ne hy, clearAll_next, if_neg hin]
  have hprev : ∀ y, y ≠ b → y ∉ l₁ → ((s.clearAll l₁).link first b).prev y = s.prev y := by
    intro y hy hin
    rw [link_prev_of_ne hy, clearAll_prev, if_neg hin]
  have hlast : last ∈ b :: m₂ := by
    rw [← hright]
    simp
  refine ⟨?_, ?_, ?_, ?_, fun y hy => ?_⟩
  · rw [hright]
    exact List.nodup_cons.2 ⟨hfirst.2, hlater⟩
  · rw [Links.Chained, hright]
    refine List.isChain_cons_cons.2 ⟨⟨link_next_self _ _ _, link_prev_self _ _ _⟩, ?_⟩
    refine Links.Chained.congr hafter (fun y hy => ?_) fun y hy => ?_
    · have hy' : y ∈ b :: m₂ := (List.dropLast_sublist _).subset hy
      exact hnext y (fun hyf => hfirst.2 (hyf ▸ hy')) (hkept y hy')
    · have hyb : y ≠ b := fun hyb => (List.nodup_cons.1 hlater).1 (hyb ▸ hy)
      exact hprev y hyb (hkept y (List.mem_cons_of_mem _ hy))
  · rw [hprev first hfb hfirst.1, h.first_prev]
  · have hlf : last ≠ first := fun hlf => hfirst.2 (hlf ▸ hlast)
    rw [hnext last hlf (hkept last hlast), h.last_next]
  · rw [hright] at hy
    simp only [List.mem_cons, not_or] at hy
    by_cases hin : y ∈ l₁
    · rw [link_next_of_ne hy.1, link_prev_of_ne hy.2.1, clearAll_next, clearAll_prev, if_pos hin,
        if_pos hin]
      exact ⟨rfl, rfl⟩
    · rw [hnext y hy.1 hin, hprev y hy.2.1 hin]
      exact h.loose y (by rw [heq]; simp [hy, hin])

/-- **Putting nodes in**, between two neighbours: the nodes are linked one after the other. -/
theorem insert {l₁ l₂ m : List ν} {m₁ m₂ : List ν} {a b : ν} (h : Between first last s (l₁ ++ l₂))
    (hleft : first :: l₁ = m₁ ++ [a]) (hright : l₂ ++ [last] = b :: m₂) (hm : m.Nodup)
    (hloose : ∀ x ∈ m, x ∉ first :: (l₁ ++ l₂ ++ [last])) :
    Between first last (s.linkAlong (a :: (m ++ [b]))) (l₁ ++ m ++ l₂) := by
  have heq : first :: (l₁ ++ l₂ ++ [last]) = m₁ ++ a :: b :: m₂ := by
    have : first :: (l₁ ++ l₂ ++ [last]) = (first :: l₁) ++ (l₂ ++ [last]) := by simp
    rw [this, hleft, hright]
    simp
  have heq' : first :: (l₁ ++ m ++ l₂ ++ [last]) = m₁ ++ (a :: (m ++ [b])) ++ m₂ := by
    have : first :: (l₁ ++ m ++ l₂ ++ [last]) = (first :: l₁) ++ m ++ (l₂ ++ [last]) := by simp
    rw [this, hleft, hright]
    simp
  have hnodup := h.nodup
  have hchain := h.chained
  rw [Links.Chained, heq] at hchain
  rw [heq] at hnodup hloose
  obtain ⟨hbefore, -, hafter⟩ := List.isChain_append_cons_cons.1 hchain
  obtain ⟨hm₁, hmid, hdisj⟩ := List.nodup_append.1 hnodup
  obtain ⟨ha, hmid⟩ := List.nodup_cons.1 hmid
  obtain ⟨hb, hm₂⟩ := List.nodup_cons.1 hmid
  simp only [List.mem_append, List.mem_cons, not_or] at ha hb hloose
  have hnew : (a :: (m ++ [b])).Nodup := by
    simp only [List.nodup_cons, List.mem_append, List.mem_singleton, not_or, List.nodup_append]
    exact ⟨⟨fun hin => (hloose a hin).2.1 rfl, ha.1⟩, hm, by simp,
      fun x hx y hy heq => (hloose x hx).2.2.1 (heq.trans hy)⟩
  have hlink := chained_linkAlong hnew s
  -- which links the new chain does not write
  have hnext : ∀ y, y ≠ a → y ∉ m → (s.linkAlong (a :: (m ++ [b]))).next y = s.next y := by
    intro y hya hym
    refine linkAlong_next ?_ s
    have : (a :: (m ++ [b])).dropLast = a :: m := by
      rw [← List.cons_append, List.dropLast_concat]
    rw [this]
    simp [hya, hym]
  have hprev : ∀ y, y ≠ b → y ∉ m → (s.linkAlong (a :: (m ++ [b]))).prev y = s.prev y := by
    intro y hyb hym
    exact linkAlong_prev (by simp [hyb, hym]) s
  refine ⟨?_, ?_, ?_, ?_, fun y hy => ?_⟩
  · rw [heq', List.append_assoc]
    have hperm : (m₁ ++ (a :: (m ++ [b]) ++ m₂)).Perm (m ++ (m₁ ++ a :: b :: m₂)) := by
      have h₁ : m₁ ++ (a :: (m ++ [b]) ++ m₂) = (m₁ ++ [a]) ++ (m ++ (b :: m₂)) := by simp
      have h₂ : m ++ (m₁ ++ a :: b :: m₂) = m ++ ((m₁ ++ [a]) ++ (b :: m₂)) := by simp
      rw [h₁, h₂, ← List.append_assoc, ← List.append_assoc]
      exact List.Perm.append_right _ List.perm_append_comm
    refine hperm.nodup_iff.2 (List.nodup_append.2 ⟨hm, hnodup, ?_⟩)
    rintro x hx y hy rfl
    simp only [List.mem_append, List.mem_cons] at hy
    have := hloose x hx
    tauto
  · rw [Links.Chained, heq', List.append_assoc]
    have hjoin : m₁ ++ (a :: (m ++ [b]) ++ m₂) = m₁ ++ a :: (m ++ b :: m₂) := by simp
    rw [hjoin]
    refine List.isChain_split.2 ⟨?_, ?_⟩
    · refine Links.Chained.congr hbefore (fun y hy => ?_) fun y hy => ?_
      · rw [List.dropLast_concat] at hy
        exact hnext y (hdisj y hy a (by simp)) fun hym => (hloose y hym).1 hy
      · have hy' : y ∈ m₁ ++ [a] := List.mem_of_mem_tail hy
        rcases List.mem_append.1 hy' with hy' | hy'
        · exact hprev y (hdisj y hy' b (by simp)) fun hym => (hloose y hym).1 hy'
        · rw [List.mem_singleton.1 hy']
          exact hprev a ha.1 fun ham => (hloose a ham).2.1 rfl
    · have hmiddle : a :: (m ++ b :: m₂) = (a :: m) ++ b :: m₂ := rfl
      rw [hmiddle]
      refine List.isChain_split.2 ⟨?_, ?_⟩
      · rw [List.cons_append]
        exact hlink
      · refine Links.Chained.congr hafter (fun y hy => ?_) fun y hy => ?_
        · have hy' : y ∈ b :: m₂ := (List.dropLast_sublist _).subset hy
          rcases List.mem_cons.1 hy' with rfl | hy'
          · exact hnext y (Ne.symm ha.1) fun hym => (hloose y hym).2.2.1 rfl
          · exact hnext y (fun h => ha.2 (h ▸ hy')) fun hym => (hloose y hym).2.2.2 hy'
        · have hy' : y ∈ m₂ := hy
          exact hprev y (fun h => hb (h ▸ hy')) fun hym => (hloose y hym).2.2.2 hy'
  · have hmem : first ∈ m₁ ++ [a] := by rw [← hleft]; simp
    have hf : first ≠ b ∧ first ∉ m := by
      rcases List.mem_append.1 hmem with hf | hf
      · exact ⟨hdisj first hf b (by simp), fun hym => (hloose first hym).1 hf⟩
      · rw [List.mem_singleton.1 hf]
        exact ⟨ha.1, fun ham => (hloose a ham).2.1 rfl⟩
    rw [hprev first hf.1 hf.2, h.first_prev]
  · have hmem : last ∈ b :: m₂ := by rw [← hright]; simp
    have hl : last ≠ a ∧ last ∉ m := by
      rcases List.mem_cons.1 hmem with hl | hl
      · rw [hl]
        exact ⟨Ne.symm ha.1, fun hbm => (hloose b hbm).2.2.1 rfl⟩
      · exact ⟨fun h => ha.2 (h ▸ hl), fun hym => (hloose last hym).2.2.2 hl⟩
    rw [hnext last hl.1 hl.2, h.last_next]
  · rw [heq'] at hy
    simp only [List.mem_append, List.mem_cons, List.not_mem_nil, or_false, not_or] at hy
    obtain ⟨⟨hy₁, hya, hym, hyb⟩, hy₂⟩ := hy
    rw [hnext y hya hym, hprev y hyb hym]
    exact h.loose y (by rw [heq]; simp [hy₁, hya, hyb, hy₂])

end Between

end DoublyLinked

end DgxSpark
