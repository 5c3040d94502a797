import Mathlib.Data.List.FinRange
import Mathlib.Data.List.Perm.Subperm
import Mathlib.Logic.Function.Basic

/-!
# Tables of a fixed number of slots

A table is a function on `Fin n`. `lowest p`: the lowest slot that satisfies `p`, what a scan of
the table returns. `forSlots f s`: the loop that runs `f` for every slot in turn, with the rule
`forSlots_induction` for what such a loop preserves and `forSlots_visit` for what is left of one
visit at the end of it. `slotsWith p` are the slots that satisfy `p`, with what one more or less does to their
number.
-/

namespace Camex.Lib

variable {n : ℕ}

/-- The lowest slot that satisfies `p`. -/
def lowest (p : Fin n → Bool) : Option (Fin n) := (List.finRange n).find? p

theorem lowest_some {p : Fin n → Bool} {i : Fin n} (h : lowest p = some i) : p i = true :=
  List.find?_some h

theorem lowest_eq_none {p : Fin n → Bool} : lowest p = none ↔ ∀ i, p i = false := by
  simp [lowest, List.find?_eq_none]

theorem lowest_isSome {p : Fin n → Bool} {i : Fin n} (h : p i = true) : ∃ j, lowest p = some j := by
  cases hl : lowest p with
  | none => rw [lowest_eq_none.mp hl i] at h; cases h
  | some j => exact ⟨j, rfl⟩

theorem lowest_le {p : Fin n → Bool} {i j : Fin n} (h : lowest p = some i) (hj : p j = true) :
    i ≤ j := by
  obtain ⟨-, as, bs, hsplit, has⟩ := List.find?_eq_some_iff_append.mp h
  by_contra hlt
  have hmem : j ∈ as := by
    have hsorted : List.Pairwise (· < ·) (as ++ i :: bs) := by
      rw [← hsplit]; exact List.pairwise_lt_finRange n
    have hin : j ∈ as ++ i :: bs := by rw [← hsplit]; exact List.mem_finRange j
    rcases List.mem_append.mp hin with hin | hin
    · exact hin
    · rcases List.mem_cons.mp hin with rfl | hin
      · exact absurd le_rfl hlt
      · have := (List.pairwise_append.mp hsorted).2.1
        exact absurd (List.rel_of_pairwise_cons this hin).le hlt
  have := has j hmem
  simp [hj] at this

theorem lowest_eq_some {p : Fin n → Bool} {i : Fin n} : lowest p = some i ↔ p i = true ∧ ∀ j < i, p j = false := by
  constructor
  · intro h
    exact ⟨lowest_some h, fun j hj => Bool.eq_false_iff.mpr fun hp => absurd (lowest_le h hp) (not_le.mpr hj)⟩
  · rintro ⟨hi, hbelow⟩
    obtain ⟨j, hj⟩ := lowest_isSome hi
    have hle := lowest_le hj hi
    rcases hle.eq_or_lt with rfl | hlt
    · exact hj
    · exact absurd (lowest_some hj) (Bool.eq_false_iff.mp (hbelow j hlt))

/-- A predicate that at most one slot satisfies is found by the scan wherever it is. -/
theorem lowest_unique {p : Fin n → Bool} {i : Fin n} (hi : p i = true)
    (huniq : ∀ j, p j = true → j = i) : lowest p = some i := by
  obtain ⟨j, hj⟩ := lowest_isSome hi
  rw [hj, huniq j (lowest_some hj)]

theorem lowest_congr {p q : Fin n → Bool} (h : ∀ i, p i = q i) : lowest p = lowest q := by
  rw [funext h]

/-! ## Counting slots -/

/-- The slots that satisfy `p`, in their order. -/
def slotsWith (p : Fin n → Bool) : List (Fin n) := (List.finRange n).filter p

theorem mem_slotsWith {p : Fin n → Bool} {i : Fin n} : i ∈ slotsWith p ↔ p i = true := by
  simp [slotsWith]

theorem nodup_slotsWith (p : Fin n → Bool) : (slotsWith p).Nodup := (List.nodup_finRange n).filter _

theorem length_slotsWith_le {p q : Fin n → Bool} (h : ∀ j, q j = true → p j = true) :
    (slotsWith q).length ≤ (slotsWith p).length :=
  (List.subperm_of_subset (nodup_slotsWith q) fun j hj => mem_slotsWith.mpr (h j (mem_slotsWith.mp hj))).length_le

theorem length_slotsWith_insert {p q : Fin n → Bool} (i : Fin n) (h : ∀ j, q j = true → j = i ∨ p j = true) :
    (slotsWith q).length ≤ (slotsWith p).length + 1 := by
  have hsub : slotsWith q ⊆ i :: slotsWith p := fun j hj =>
    List.mem_cons.mpr ((h j (mem_slotsWith.mp hj)).imp id mem_slotsWith.mpr)
  simpa using (List.subperm_of_subset (nodup_slotsWith q) hsub).length_le

theorem length_slotsWith_erase {p q : Fin n → Bool} {i : Fin n} (hi : p i = true) (hno : q i = false)
    (h : ∀ j, q j = true → p j = true) : (slotsWith q).length + 1 ≤ (slotsWith p).length := by
  have hnodup : (i :: slotsWith q).Nodup :=
    List.nodup_cons.mpr ⟨fun hmem => by simp [mem_slotsWith.mp hmem] at hno, nodup_slotsWith q⟩
  have hsub : i :: slotsWith q ⊆ slotsWith p := fun j hj => by
    rcases List.mem_cons.mp hj with rfl | hj
    · exact mem_slotsWith.mpr hi
    · exact mem_slotsWith.mpr (h j (mem_slotsWith.mp hj))
  exact (List.subperm_of_subset hnodup hsub).length_le

/-! ## Loops over the slots -/

section Loop

variable {σ : Type*}

/-- `for (i = 0; i < n; ++i) f(i)`. -/
def forSlots (f : Fin n → σ → σ) (s : σ) : σ := (List.finRange n).foldl (fun s i => f i s) s

theorem foldl_induction {ι : Type*} (f : ι → σ → σ) {I : σ → Prop} (is : List ι)
    (hI : ∀ i ∈ is, ∀ s, I s → I (f i s)) (s : σ) (hs : I s) :
    I (is.foldl (fun s i => f i s) s) := by
  induction is generalizing s with
  | nil => exact hs
  | cons i is ih =>
    exact ih (fun j hj => hI j (List.mem_cons_of_mem _ hj)) _ (hI i List.mem_cons_self s hs)

theorem forSlots_induction {f : Fin n → σ → σ} {I : σ → Prop} (hI : ∀ i s, I s → I (f i s))
    {s : σ} (hs : I s) : I (forSlots f s) :=
  foldl_induction f _ (fun i _ => hI i) s hs

/-- The visit of slot `i`: the state `u` it starts in has been reached by visits of other slots,
and visits of other slots follow it. `B` is what the visits before keep, `A` what the ones after
keep. -/
theorem forSlots_visit {f : Fin n → σ → σ} {B A : σ → Prop} (i : Fin n)
    (hB : ∀ j s, j ≠ i → B s → B (f j s)) (hvisit : ∀ s, B s → A (f i s))
    (hA : ∀ j s, j ≠ i → A s → A (f j s)) {s : σ} (hs : B s) : A (forSlots f s) := by
  obtain ⟨as, bs, hsplit⟩ := List.append_of_mem (List.mem_finRange i)
  have hnd : (as ++ i :: bs).Nodup := by rw [← hsplit]; exact List.nodup_finRange n
  have has : ∀ j ∈ as, j ≠ i := fun j hj => by
    rintro rfl
    exact (List.nodup_append.mp hnd).2.2 j hj j List.mem_cons_self rfl
  have hbs : ∀ j ∈ bs, j ≠ i := fun j hj => by
    rintro rfl
    exact (List.nodup_cons.mp (List.nodup_append.mp hnd).2.1).1 hj
  unfold forSlots
  rw [hsplit, List.foldl_append, List.foldl_cons]
  refine foldl_induction f bs (fun j hj s => hA j s (hbs j hj)) _ (hvisit _ ?_)
  exact foldl_induction f as (fun j hj s => hB j s (has j hj)) s hs

end Loop

end Camex.Lib
