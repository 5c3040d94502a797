import Mathlib.Logic.Basic
import Mathlib.Data.List.Basic

/-!
# Runs of an event-driven machine

A machine is a set of start states and a partial step function on events. `Steps C s es t`: the
events `es` lead from `s` to `t` and each of them satisfies `C` in the state it is taken in.

* `Steps.trans`, `Steps.weaken`: composition, a weaker condition;
* `Steps.preserves`: what each step that meets the condition preserves, the run preserves;
* `ReachableUnder.invariant`: the invariant rule, from the start states;
* `runUnder`: a run computed, with its conditions checked on the way;
* `Before`: the order of two entries of a log, kept when the log grows.
-/

namespace Camex.Lib

structure Machine (σ ε : Type*) where
  start : σ → Prop
  next : σ → ε → Option σ

namespace Machine

variable {σ ε : Type*} {M : Machine σ ε}

/-- The events lead from the first state to the last, each meeting `C` where it is taken. -/
inductive Steps (M : Machine σ ε) (C : σ → ε → Prop) : σ → List ε → σ → Prop
  | nil (s : σ) : Steps M C s [] s
  | cons {s t u : σ} {e : ε} {es : List ε} (hstep : M.next s e = some t) (hc : C s e)
      (hrest : Steps M C t es u) : Steps M C s (e :: es) u

/-- States reached from a start state by steps that all meet `C`. -/
def ReachableUnder (M : Machine σ ε) (C : σ → ε → Prop) (t : σ) : Prop :=
  ∃ s es, M.start s ∧ Steps M C s es t

/-- States reached from a start state by any steps. -/
def Reachable (M : Machine σ ε) (t : σ) : Prop := ReachableUnder M (fun _ _ => True) t

theorem Steps.weaken {C D : σ → ε → Prop} (hCD : ∀ s e, C s e → D s e) {s t : σ} {es : List ε}
    (h : Steps M C s es t) : Steps M D s es t := by
  induction h with
  | nil s => exact .nil s
  | cons hstep hc _ ih => exact .cons hstep (hCD _ _ hc) ih

theorem Steps.trans {C : σ → ε → Prop} {s t u : σ} {es fs : List ε} (h₁ : Steps M C s es t)
    (h₂ : Steps M C t fs u) : Steps M C s (es ++ fs) u := by
  induction h₁ with
  | nil s => exact h₂
  | cons hstep hc _ ih => exact .cons hstep hc (ih h₂)

theorem Steps.single {C : σ → ε → Prop} {s t : σ} {e : ε} (hstep : M.next s e = some t)
    (hc : C s e) : Steps M C s [e] t := .cons hstep hc (.nil t)

theorem Steps.preserves {C : σ → ε → Prop} {I : σ → Prop}
    (hI : ∀ s e t, I s → C s e → M.next s e = some t → I t) {s t : σ} {es : List ε}
    (h : Steps M C s es t) (hs : I s) : I t := by
  induction h with
  | nil s => exact hs
  | cons hstep hc _ ih => exact ih (hI _ _ _ hs hc hstep)

theorem ReachableUnder.weaken {C D : σ → ε → Prop} (hCD : ∀ s e, C s e → D s e) {t : σ}
    (h : ReachableUnder M C t) : ReachableUnder M D t := by
  obtain ⟨s, es, hs, hrun⟩ := h
  exact ⟨s, es, hs, hrun.weaken hCD⟩

theorem ReachableUnder.reachable {C : σ → ε → Prop} {t : σ} (h : ReachableUnder M C t) :
    Reachable M t := h.weaken fun _ _ _ => trivial

theorem ReachableUnder.step {C : σ → ε → Prop} {s t : σ} {e : ε} (h : ReachableUnder M C s)
    (hc : C s e) (hstep : M.next s e = some t) : ReachableUnder M C t := by
  obtain ⟨s₀, es, hs₀, hrun⟩ := h
  exact ⟨s₀, es ++ [e], hs₀, hrun.trans (.single hstep hc)⟩

/-- **The invariant rule.** -/
theorem ReachableUnder.invariant {C : σ → ε → Prop} {I : σ → Prop}
    (h0 : ∀ s, M.start s → I s) (hI : ∀ s e t, I s → C s e → M.next s e = some t → I t) {t : σ}
    (h : ReachableUnder M C t) : I t := by
  obtain ⟨s, es, hs, hrun⟩ := h
  exact hrun.preserves hI (h0 s hs)

/-! ## Computed runs -/

/-- The state the events lead to, if each can be taken and meets the condition then. -/
def runUnder (M : Machine σ ε) (C : σ → ε → Prop) [∀ s e, Decidable (C s e)] : σ → List ε → Option σ
  | s, [] => some s
  | s, e :: es => if C s e then (M.next s e).bind fun t => runUnder M C t es else none

theorem runUnder_steps {C : σ → ε → Prop} [∀ s e, Decidable (C s e)] {s t : σ} {es : List ε}
    (h : M.runUnder C s es = some t) : Steps M C s es t := by
  induction es generalizing s with
  | nil =>
    cases h
    exact .nil _
  | cons e es ih =>
    unfold runUnder at h
    split at h
    · obtain ⟨u, hstep, hrest⟩ := Option.bind_eq_some_iff.mp h
      exact .cons hstep ‹_› (ih hrest)
    · cases h

/-- A computed run from a start state reaches the state it computes. -/
theorem runUnder_reachable {C : σ → ε → Prop} [∀ s e, Decidable (C s e)] {s : σ} {l : List ε}
    {p : σ → Bool} (hs : M.start s) (h : (M.runUnder C s l).any p = true) :
    ∃ t, ReachableUnder M C t ∧ p t = true := by
  obtain ⟨t, ht, hp⟩ := (Option.any_eq_true p _).mp h
  exact ⟨t, ⟨s, l, hs, runUnder_steps ht⟩, hp⟩

end Machine

/-! ## The log of a run -/

section Log
variable {ε : Type*} {log out : List ε} {a b : ε}

/-- The first entry came before the second. -/
def Before (a b : ε) (log : List ε) : Prop := [a, b].Sublist log

theorem Before.append (h : Before a b log) : Before a b (log ++ out) := h.trans (List.sublist_append_left _ _)

theorem Before.of_mem (ha : a ∈ log) (hb : b ∈ out) : Before a b (log ++ out) :=
  (List.singleton_sublist.mpr ha).append (List.singleton_sublist.mpr hb)

end Log

end Camex.Lib
