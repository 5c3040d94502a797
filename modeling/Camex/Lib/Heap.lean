import Mathlib.Algebra.Order.Group.Multiset
import Mathlib.Logic.Function.Basic

/-!
# Allocated blocks and who owns them

A `Heap` maps pointers to blocks, an allocation may be refused and a program that frees or uses a block which is not
allocated sets `fault`. `Mem` is the monad of programs over a heap.

* `Triple` with its rules `pure`, `bind`, `conseq`, `of_fact` and `list`;
* `Owns base own h`: `h` is `base` and the blocks in `own`, which are allocated, each once;
* `Owns.calloc`, `Owns.free`, `Owns.read`, `Owns.write`: the primitives with any blocks beside them;
* `Owns.nothing`: a program that owns nothing in the end left the heap as it was.
-/

namespace Camex.Lib

abbrev Ptr := ℕ

structure Heap (V : Type) where
  blocks : Ptr → Option V
  next : Ptr
  /-- The allocations asked for so far. -/
  calls : ℕ
  /-- A block was freed or used that is not allocated. -/
  fault : Bool
  fresh : ∀ p, next ≤ p → blocks p = none

def Mem (V α : Type) : Type := Heap V → α × Heap V

namespace Mem

variable {V α β : Type}

instance : Monad (Mem V) where
  pure a := fun h => (a, h)
  bind m f := fun h =>
    match m h with
    | (a, h) => f a h

/-- The address of a new block, `none` when the allocation is refused. -/
def calloc (grants : ℕ → Bool) (v : V) : Mem V (Option Ptr) := fun h =>
  if grants h.calls then
    (some h.next,
      { h with
        blocks := Function.update h.blocks h.next (some v)
        next := h.next + 1
        calls := h.calls + 1
        fresh := fun p hp => by
          rw [Function.update_of_ne (Nat.ne_of_gt hp)]
          exact h.fresh p (Nat.le_of_succ_le hp) })
  else (none, { h with calls := h.calls + 1 })

/-- Nothing is done for the null pointer. -/
def free (p : Option Ptr) : Mem V Unit := fun h =>
  match p with
  | none => ((), h)
  | some p =>
    if (h.blocks p).isSome then
      ((), { h with
        blocks := Function.update h.blocks p none
        fresh := fun q hq => by
          rw [Function.update_apply]
          split
          · rfl
          · exact h.fresh q hq })
    else ((), { h with fault := true })

def read (p : Option Ptr) : Mem V (Option V) := fun h =>
  match p.bind h.blocks with
  | some v => (some v, h)
  | none => (none, { h with fault := true })

def write (p : Option Ptr) (v : V) : Mem V Unit := fun h =>
  match p with
  | none => ((), { h with fault := true })
  | some p =>
    if hp : (h.blocks p).isSome then
      ((), { h with
        blocks := Function.update h.blocks p (some v)
        fresh := fun q hq => by
          rw [Function.update_of_ne]
          · exact h.fresh q hq
          · rintro rfl
            rw [h.fresh q hq] at hp
            cases hp })
    else ((), { h with fault := true })

end Mem

/-! ## Triples -/

section Triple

variable {V α β : Type} {P : Heap V → Prop} {Q : α → Heap V → Prop}

/-- From a heap with `P` the program ends with `Q`. -/
def Triple (P : Heap V → Prop) (m : Mem V α) (Q : α → Heap V → Prop) : Prop :=
  ∀ h, P h → Q (m h).1 (m h).2

theorem Triple.pure {a : α} (h : ∀ s, P s → Q a s) : Triple P (pure a : Mem V α) Q := h

theorem Triple.bind {m : Mem V β} {f : β → Mem V α} {R : β → Heap V → Prop} (hm : Triple P m R)
    (hf : ∀ b, Triple (R b) (f b) Q) : Triple P (m >>= f) Q := fun h hp => hf _ _ (hm h hp)

theorem Triple.conseq {m : Mem V α} {P' : Heap V → Prop} {Q' : α → Heap V → Prop} (hm : Triple P' m Q')
    (hpre : ∀ h, P h → P' h) (hpost : ∀ a h, Q' a h → Q a h) : Triple P m Q :=
  fun h hp => hpost _ _ (hm h (hpre h hp))

theorem Triple.of_fact {m : Mem V α} {p : Prop} (hm : p → Triple P m Q) : Triple (fun h => p ∧ P h) m Q :=
  fun h hp => hm hp.1 h hp.2

/-- A loop over a list keeps what its body keeps. -/
theorem Triple.list {β σ : Type} {R : σ → Heap V → Prop} {body : σ → β → Mem V σ}
    (hbody : ∀ s b, Triple (R s) (body s b) R) (l : List β) (s : σ) : Triple (R s) (l.foldlM body s) R := by
  induction l generalizing s with
  | nil => exact .pure fun _ h => h
  | cons b l ih =>
    rw [List.foldlM_cons]
    exact (hbody s b).bind fun s => ih s

end Triple

/-! ## Ownership -/

/-- The block of a pointer, none for the null pointer. -/
def blockOf (p : Option Ptr) : Multiset Ptr := p.elim 0 fun p => {p}

@[simp] theorem blockOf_none : blockOf none = 0 := rfl

/-- The heap is `base` and the blocks in `own`, each allocated once. -/
structure Owns {V : Type} (base : Heap V) (own : Multiset Ptr) (h : Heap V) : Prop where
  nodup : own.Nodup
  live : ∀ p ∈ own, (h.blocks p).isSome = true
  apart : ∀ p ∈ own, base.blocks p = none
  frame : ∀ p ∉ own, h.blocks p = base.blocks p
  fault : h.fault = base.fault

section Owns

variable {V : Type} {base h : Heap V} {own : Multiset Ptr} {p : Option Ptr}

theorem Owns.refl (h : Heap V) : Owns h 0 h :=
  ⟨Multiset.nodup_zero, fun _ hp => absurd hp (Multiset.notMem_zero _),
    fun _ hp => absurd hp (Multiset.notMem_zero _), fun _ _ => rfl, rfl⟩

/-- **Nothing left over**: the heap is the one before. -/
theorem Owns.nothing (ho : Owns base 0 h) : h.blocks = base.blocks ∧ h.fault = base.fault :=
  ⟨funext fun p => ho.frame p (Multiset.notMem_zero p), ho.fault⟩

theorem Owns.calloc (grants : ℕ → Bool) (v : V) :
    Triple (Owns base own) (Mem.calloc grants v) fun p => Owns base (blockOf p + own) := by
  intro h ho
  unfold Mem.calloc
  split
  · have hnew : h.blocks h.next = none := h.fresh h.next le_rfl
    have hout : h.next ∉ own := fun hmem => by
      have hlive := ho.live _ hmem
      rw [hnew] at hlive
      cases hlive
    refine ⟨?_, fun p hp => ?_, fun p hp => ?_, fun p hp => ?_, ho.fault⟩
    · exact Multiset.nodup_cons.mpr ⟨hout, ho.nodup⟩
    · dsimp only
      rcases Multiset.mem_cons.mp hp with rfl | hp
      · rw [Function.update_self]
        rfl
      · rw [Function.update_of_ne (ne_of_mem_of_not_mem hp hout)]
        exact ho.live p hp
    · rcases Multiset.mem_cons.mp hp with rfl | hp
      · rw [← ho.frame _ hout]
        exact hnew
      · exact ho.apart p hp
    · have hp : p ∉ h.next ::ₘ own := hp
      rw [Multiset.mem_cons, not_or] at hp
      dsimp only
      rw [Function.update_of_ne hp.1]
      exact ho.frame p hp.2
  · rw [blockOf_none, zero_add]
    exact ⟨ho.nodup, ho.live, ho.apart, ho.frame, ho.fault⟩

theorem Owns.free {rest : Multiset Ptr} (heq : own = blockOf p + rest) :
    Triple (Owns base own) (Mem.free p) fun _ => Owns base rest := by
  subst heq
  intro h ho
  unfold Mem.free
  cases p with
  | none => rwa [blockOf_none, zero_add] at ho
  | some p =>
    have ho : Owns base (p ::ₘ rest) h := ho
    obtain ⟨hout, hnodup⟩ := Multiset.nodup_cons.mp ho.nodup
    dsimp only
    rw [if_pos (ho.live p (Multiset.mem_cons_self p rest))]
    refine ⟨hnodup, fun q hq => ?_, fun q hq => ho.apart q (Multiset.mem_cons_of_mem hq), fun q hq => ?_, ho.fault⟩
    · dsimp only
      rw [Function.update_of_ne (ne_of_mem_of_not_mem hq hout)]
      exact ho.live q (Multiset.mem_cons_of_mem hq)
    · dsimp only
      by_cases heq : q = p
      · subst heq
        rw [Function.update_self, ho.apart q (Multiset.mem_cons_self q rest)]
      · rw [Function.update_of_ne heq]
        exact ho.frame q (by rw [Multiset.mem_cons, not_or]; exact ⟨heq, hq⟩)

theorem mem_of_blockOf_le {q : Ptr} (hle : blockOf (some q) ≤ own) : q ∈ own :=
  Multiset.mem_of_le hle (Multiset.mem_singleton_self q)

theorem Owns.read (hp : p.isSome = true) (hle : blockOf p ≤ own) :
    Triple (Owns base own) (Mem.read p) fun _ => Owns base own := by
  intro h ho
  obtain ⟨q, rfl⟩ := Option.isSome_iff_exists.mp hp
  obtain ⟨v, hv⟩ := Option.isSome_iff_exists.mp (ho.live q (mem_of_blockOf_le hle))
  unfold Mem.read
  rw [Option.bind_some, hv]
  exact ho

theorem Owns.write (hp : p.isSome = true) (hle : blockOf p ≤ own) (v : V) :
    Triple (Owns base own) (Mem.write p v) fun _ => Owns base own := by
  intro h ho
  obtain ⟨q, rfl⟩ := Option.isSome_iff_exists.mp hp
  have hmem : q ∈ own := mem_of_blockOf_le hle
  unfold Mem.write
  dsimp only
  rw [dif_pos (ho.live q hmem)]
  refine ⟨ho.nodup, fun r hr => ?_, ho.apart, fun r hr => ?_, ho.fault⟩
  · dsimp only
    rw [Function.update_apply]
    split
    · rfl
    · exact ho.live r hr
  · dsimp only
    rw [Function.update_of_ne (ne_of_mem_of_not_mem hmem hr).symm]
    exact ho.frame r hr

theorem Triple.reorder {α : Type} {m : Mem V α} {own' : Multiset Ptr} {Q : α → Heap V → Prop}
    (hm : Triple (Owns base own') m Q) (heq : own = own') : Triple (Owns base own) m Q := heq ▸ hm

end Owns

end Camex.Lib
