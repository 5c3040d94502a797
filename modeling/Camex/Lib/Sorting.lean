import Mathlib.Data.List.Sort
import Mathlib.Data.List.Perm.Basic
import Mathlib.Data.List.TakeWhile

/-!
# Sorting by a comparison function

A `Qsort cmp` sorts by `cmp` and leaves the order of elements that compare equal open, as `qsort` does.

* `Qsort.sort_eq`: where elements that compare equal are equal, the result depends on neither the sort nor the order
  of its input;
* `Qsort.map_eq_of_sorted`: two sorted arrangements agree in all that comparisons see;
* `Qsort.sort_forall₂`: what they do not see takes part in a sort;
* `Qsort.stable`: a sort that keeps the order of equal elements.
-/

namespace Camex.Lib

open Std

variable {α : Type}

/-- A sort by a comparison function. -/
structure Qsort (cmp : α → α → Ordering) where
  sort : List α → List α
  perm : ∀ l, (sort l).Perm l
  sorted : ∀ l, (sort l).Pairwise fun a b => (cmp a b).isLE = true

namespace Qsort

variable {cmp : α → α → Ordering}

theorem eq_of_isLE [OrientedCmp cmp] {a b : α} (hab : (cmp a b).isLE = true) (hba : (cmp b a).isLE = true) :
    cmp a b = .eq := by
  have hswap : cmp b a = (cmp a b).swap := OrientedCmp.eq_swap
  rw [hswap] at hba
  cases h : cmp a b with
  | eq => rfl
  | lt => rw [h] at hba; cases hba
  | gt => rw [h] at hab; cases hab

/-- **A sort by a total order is unique.** -/
theorem sort_eq [OrientedCmp cmp] (q q' : Qsort cmp) {l l' : List α} (hperm : l.Perm l')
    (heq : ∀ a ∈ l, ∀ b ∈ l, cmp a b = .eq → a = b) : q.sort l = q'.sort l' := by
  refine List.Perm.eq_of_pairwise (fun a b ha hb hab hba => ?_) (q.sorted l) (q'.sorted l')
    ((q.perm l).trans (hperm.trans (q'.perm l').symm))
  have ha : a ∈ l := (q.perm l).mem_iff.mp ha
  have hb : b ∈ l := hperm.mem_iff.mpr ((q'.perm l').mem_iff.mp hb)
  exact heq a ha b hb (eq_of_isLE hab hba)

/-- Two sorted arrangements have the same keys, place by place. -/
theorem map_eq_of_sorted [OrientedCmp cmp] {κ : Type} {key : α → κ} {l l' : List α} (hperm : l.Perm l')
    (hl : l.Pairwise fun a b => (cmp a b).isLE = true) (hl' : l'.Pairwise fun a b => (cmp a b).isLE = true)
    (hcmp : ∀ a b a' b', key a = key a' → key b = key b' → cmp a b = cmp a' b')
    (heq : ∀ a b, cmp a b = .eq → key a = key b) : l.map key = l'.map key := by
  have hmap : ∀ m : List α, m.Pairwise (fun a b => (cmp a b).isLE = true) →
      (m.map key).Pairwise fun x y => ∀ a b, key a = x → key b = y → (cmp a b).isLE = true := by
    intro m hm
    rw [List.pairwise_map]
    exact hm.imp fun {a b} hab a' b' ha hb => by rwa [hcmp a' b' a b ha hb]
  refine List.Perm.eq_of_pairwise (fun x y hx hy hxy hyx => ?_) (hmap l hl) (hmap l' hl') (hperm.map key)
  obtain ⟨a, -, rfl⟩ := List.mem_map.mp hx
  obtain ⟨b, -, rfl⟩ := List.mem_map.mp hy
  exact heq a b (eq_of_isLE (hxy a b rfl rfl) (hyx b a rfl rfl))

theorem pairwise_of_forall₂ {R : α → α → Prop} (hR : ∀ a b a' b', R a a' → R b b' → cmp a b = cmp a' b')
    {l m : List α} (h : List.Forall₂ R l m) (hl : l.Pairwise fun a b => (cmp a b).isLE = true) :
    m.Pairwise fun a b => (cmp a b).isLE = true := by
  induction h with
  | nil => exact .nil
  | @cons a a' l m ha h ih =>
    obtain ⟨hhead, htail⟩ := List.pairwise_cons.mp hl
    refine List.pairwise_cons.mpr ⟨fun b' hb' => ?_, ih htail⟩
    obtain ⟨i, hi, rfl⟩ := List.getElem_of_mem hb'
    have hi' : i < l.length := by rwa [h.length_eq]
    rw [← hR a l[i] a' m[i] ha (h.get hi' hi)]
    exact hhead _ (List.getElem_mem hi')

/-- What comparisons do not see takes part in a sort by a total order. -/
theorem sort_forall₂ [OrientedCmp cmp] (q q' : Qsort cmp) {R : α → α → Prop} {l l' : List α}
    (h : List.Forall₂ R l l') (hR : ∀ a b a' b', R a a' → R b b' → cmp a b = cmp a' b')
    (heq : ∀ a ∈ l', ∀ b ∈ l', cmp a b = .eq → a = b) : List.Forall₂ R (q.sort l) (q'.sort l') := by
  obtain ⟨m, hm, hperm⟩ := List.perm_comp_forall₂ (q.perm l) h
  have hsorted := pairwise_of_forall₂ hR hm (q.sorted l)
  have hsort : m = q'.sort l' := by
    refine List.Perm.eq_of_pairwise (fun a b ha hb hab hba => ?_) hsorted (q'.sorted l')
      (hperm.trans (q'.perm l').symm)
    exact heq a (hperm.mem_iff.mp ha) b ((q'.perm l').mem_iff.mp hb) (eq_of_isLE hab hba)
  rwa [← hsort]

/-- The sort by insertion; it keeps the order of equal elements. -/
def stable (cmp : α → α → Ordering) [TransCmp cmp] : Qsort cmp where
  sort := List.insertionSort fun a b => (cmp a b).isLE = true
  perm := List.perm_insertionSort _
  sorted := by
    intro l
    have htotal : Std.Total fun a b => (cmp a b).isLE = true := ⟨fun a b => by
      have hswap : cmp b a = (cmp a b).swap := OrientedCmp.eq_swap
      rw [hswap]
      cases cmp a b <;> simp⟩
    have htrans : IsTrans α fun a b => (cmp a b).isLE = true := ⟨fun _ _ _ hab hbc => TransCmp.isLE_trans hab hbc⟩
    exact List.pairwise_insertionSort _ l

section Stable

variable [TransCmp cmp] {p : α → Bool} {a : α} {l : List α}

theorem stable_cons (a : α) (l : List α) : (stable cmp).sort (a :: l) =
    ((stable cmp).sort l).takeWhile (fun b => decide ¬ (cmp a b).isLE = true) ++
      a :: ((stable cmp).sort l).dropWhile fun b => decide ¬ (cmp a b).isLE = true :=
  List.orderedInsert_eq_take_drop _ _ _

/-- Of a kind the first element stays the first unless one is below it. -/
theorem find?_stable_cons (ha : p a = true) (h : ∀ b ∈ l, p b = true → (cmp a b).isLE = true) :
    ((stable cmp).sort (a :: l)).find? p = some a := by
  have hbefore : (((stable cmp).sort l).takeWhile fun b => decide ¬ (cmp a b).isLE = true).find? p = none := by
    rw [List.find?_eq_none]
    intro b hb hpb
    have hmem : b ∈ l := ((stable cmp).perm l).mem_iff.mp (List.takeWhile_subset _ hb)
    have habove : ¬ (cmp a b).isLE = true := by simpa using List.mem_takeWhile_imp hb
    exact habove (h b hmem hpb)
  rw [stable_cons, List.find?_append, hbefore, Option.none_or, List.find?_cons_of_pos ha]

/-- An element leaves the others in their order. -/
theorem filter_stable_cons (ha : p a = false) :
    ((stable cmp).sort (a :: l)).filter p = ((stable cmp).sort l).filter p := by
  rw [stable_cons, List.filter_append, List.filter_cons_of_neg (by simp [ha]), ← List.filter_append,
    List.takeWhile_append_dropWhile]

end Stable

end Qsort

end Camex.Lib
