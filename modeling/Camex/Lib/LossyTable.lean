import Mathlib.Data.List.Basic
import Mathlib.Logic.Function.Basic

/-!
# A table that may have no room for a key

The slots of a table have owners or none. A key has a few slots of its own, its probes, that it shares with other
keys; it takes the first of them that has no owner, and nothing is freed.

* `claimSlot`: the slot of a key, taken for it when it has none;
* `Placed`: an owner is in one of its probes, and in one only;
* `CrowdedOut`: the probes of a key all have other owners; it stays so (`CrowdedOut.keeps`);
* `claimSlot_cases`: what a claim does, with `claimSlot_keeps`, `claimSlot_placed`, `claimSlot_some` and
  `claimSlot_none`.
-/

namespace Camex.Lib

variable {σ κ : Type*} [DecidableEq σ] [DecidableEq κ]

/-- The slot of `x`, one without an owner taken for it when it has none. -/
def claimSlot (owner : σ → Option κ) (x : κ) (probes : List σ) : (σ → Option κ) × Option σ :=
  match probes.find? fun k => decide (owner k = some x) with
  | some k => (owner, some k)
  | none =>
    match probes.find? fun k => (owner k).isNone with
    | some k => (Function.update owner k (some x), some k)
    | none => (owner, none)

/-- Every owner is in one of its probes, and in one only. -/
structure Placed (probes : κ → List σ) (owner : σ → Option κ) : Prop where
  mem : ∀ k x, owner k = some x → k ∈ probes x
  unique : ∀ k l x, owner k = some x → owner l = some x → k = l

def HasSlot (owner : σ → Option κ) (x : κ) : Prop := ∃ k, owner k = some x

/-- Others are in all the slots of `x`. -/
def CrowdedOut (probes : κ → List σ) (owner : σ → Option κ) (x : κ) : Prop :=
  ∀ k ∈ probes x, ∃ y, owner k = some y ∧ y ≠ x

def Keeps (owner owner' : σ → Option κ) : Prop := ∀ k x, owner k = some x → owner' k = some x

section

omit [DecidableEq σ] [DecidableEq κ]

theorem Keeps.refl (owner : σ → Option κ) : Keeps owner owner := fun _ _ h => h

theorem Keeps.trans {o₁ o₂ o₃ : σ → Option κ} (h₁ : Keeps o₁ o₂) (h₂ : Keeps o₂ o₃) : Keeps o₁ o₃ :=
  fun k x h => h₂ k x (h₁ k x h)

theorem Placed.empty (probes : κ → List σ) {owner : σ → Option κ} (h : ∀ k, owner k = none) : Placed probes owner := by
  refine ⟨fun k x hk => ?_, fun k l x hk => ?_⟩
  · rw [h k] at hk
    cases hk
  · rw [h k] at hk
    cases hk

theorem CrowdedOut.keeps {probes : κ → List σ} {owner owner' : σ → Option κ} {x : κ}
    (h : CrowdedOut probes owner x) (hk : Keeps owner owner') : CrowdedOut probes owner' x := by
  intro k hmem
  obtain ⟨y, hy, hne⟩ := h k hmem
  exact ⟨y, hk k y hy, hne⟩

theorem CrowdedOut.noSlot {probes : κ → List σ} {owner : σ → Option κ} {x : κ} (h : CrowdedOut probes owner x)
    (hp : Placed probes owner) : ¬ HasSlot owner x := by
  rintro ⟨k, hk⟩
  obtain ⟨y, hy, hne⟩ := h k (hp.mem k x hk)
  rw [hk] at hy
  exact hne (Option.some.inj hy).symm

end

variable {probes : κ → List σ} {owner : σ → Option κ} {x : κ}

/-- A claim: the key has a slot, takes one, or is crowded out. -/
theorem claimSlot_cases (hp : Placed probes owner) :
    (∃ k, owner k = some x ∧ claimSlot owner x (probes x) = (owner, some k)) ∨
    (∃ k ∈ probes x, owner k = none ∧ ¬ HasSlot owner x ∧
      claimSlot owner x (probes x) = (Function.update owner k (some x), some k)) ∨
    (CrowdedOut probes owner x ∧ claimSlot owner x (probes x) = (owner, none)) := by
  unfold claimSlot
  cases hmine : (probes x).find? fun k => decide (owner k = some x) with
  | some k =>
    have hk := List.find?_some hmine
    exact Or.inl ⟨k, by simpa using hk, rfl⟩
  | none =>
    have hnone : ∀ k ∈ probes x, owner k ≠ some x := by simpa using hmine
    cases hfree : (probes x).find? fun k => (owner k).isNone with
    | some k =>
      have hk := List.find?_some hfree
      refine Or.inr (Or.inl ⟨k, List.mem_of_find?_eq_some hfree, by simpa using hk, ?_, rfl⟩)
      rintro ⟨l, hl⟩
      exact hnone l (hp.mem l x hl) hl
    | none =>
      refine Or.inr (Or.inr ⟨fun k hk => ?_, rfl⟩)
      have hfull : ∀ k ∈ probes x, owner k ≠ none := by simpa using hfree
      obtain ⟨y, hy⟩ := Option.ne_none_iff_exists'.mp (hfull k hk)
      refine ⟨y, hy, ?_⟩
      rintro rfl
      exact hnone k hk hy

theorem claimSlot_keeps (hp : Placed probes owner) : Keeps owner (claimSlot owner x (probes x)).1 := by
  rcases claimSlot_cases (x := x) hp with ⟨k, _, heq⟩ | ⟨k, _, hfree, _, heq⟩ | ⟨_, heq⟩
  · rw [heq]
    exact .refl owner
  · rw [heq]
    intro l y hl
    show Function.update owner k (some x) l = some y
    rw [Function.update_of_ne, hl]
    rintro rfl
    rw [hfree] at hl
    cases hl
  · rw [heq]
    exact .refl owner

theorem claimSlot_placed (hp : Placed probes owner) : Placed probes (claimSlot owner x (probes x)).1 := by
  rcases claimSlot_cases (x := x) hp with ⟨k, _, heq⟩ | ⟨k, hmem, _, hnone, heq⟩ | ⟨_, heq⟩
  · rw [heq]
    exact hp
  · rw [heq]
    -- the new owner is at `k` only, the others where they were
    have hnew : ∀ l y, Function.update owner k (some x) l = some y →
        (l = k ∧ y = x) ∨ (l ≠ k ∧ owner l = some y) := by
      intro l y hl
      by_cases hlk : l = k
      · subst hlk
        rw [Function.update_self] at hl
        exact Or.inl ⟨rfl, (Option.some.inj hl).symm⟩
      · rw [Function.update_of_ne hlk] at hl
        exact Or.inr ⟨hlk, hl⟩
    refine ⟨fun l y hl => ?_, fun l m y hl hm => ?_⟩
    · rcases hnew l y hl with ⟨rfl, rfl⟩ | ⟨_, hold⟩
      · exact hmem
      · exact hp.mem l y hold
    · rcases hnew l y hl with ⟨rfl, rfl⟩ | ⟨_, hold⟩
      · rcases hnew m y hm with ⟨rfl, _⟩ | ⟨_, hold⟩
        · rfl
        · exact absurd ⟨m, hold⟩ hnone
      · rcases hnew m y hm with ⟨rfl, rfl⟩ | ⟨_, hold'⟩
        · exact absurd ⟨l, hold⟩ hnone
        · exact hp.unique l m y hold hold'
  · rw [heq]
    exact hp

theorem claimSlot_some (hp : Placed probes owner) {k : σ} (h : (claimSlot owner x (probes x)).2 = some k) :
    (claimSlot owner x (probes x)).1 k = some x := by
  rcases claimSlot_cases (x := x) hp with ⟨l, hl, heq⟩ | ⟨l, _, _, _, heq⟩ | ⟨_, heq⟩
  · rw [heq] at h ⊢
    rw [← Option.some.inj h]
    exact hl
  · rw [heq] at h ⊢
    rw [← Option.some.inj h]
    exact Function.update_self ..
  · rw [heq] at h
    cases h

theorem claimSlot_none (hp : Placed probes owner) (h : (claimSlot owner x (probes x)).2 = none) :
    CrowdedOut probes (claimSlot owner x (probes x)).1 x := by
  rcases claimSlot_cases (x := x) hp with ⟨l, _, heq⟩ | ⟨l, _, _, _, heq⟩ | ⟨hcrowded, heq⟩
  · rw [heq] at h
    cases h
  · rw [heq] at h
    cases h
  · rw [heq]
    exact hcrowded

/-- An owner that was not there before is the key that claimed, which had no slot. -/
theorem claimSlot_new (hp : Placed probes owner) {k : σ} {y : κ} (h : (claimSlot owner x (probes x)).1 k = some y) :
    owner k = some y ∨ (owner k = none ∧ k ∈ probes x ∧ y = x) := by
  rcases claimSlot_cases (x := x) hp with ⟨l, _, heq⟩ | ⟨l, hmem, hfree, _, heq⟩ | ⟨_, heq⟩
  · rw [heq] at h
    exact Or.inl h
  · rw [heq] at h
    by_cases hk : k = l
    · subst hk
      have hself : Function.update owner k (some x) k = some y := h
      rw [Function.update_self] at hself
      exact Or.inr ⟨hfree, hmem, (Option.some.inj hself).symm⟩
    · have hother : Function.update owner l (some x) k = some y := h
      rw [Function.update_of_ne hk] at hother
      exact Or.inl hother
  · rw [heq] at h
    exact Or.inl h

end Camex.Lib
