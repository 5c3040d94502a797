import Camex.Server.Auth

/-!
# The order of the key trials

* `keyLoopIndex`: the index that a turn of the key loop computes, `keyLoopIndex_eq`;
* `globalTrial`, `ownTrial`, `otherTrials`: who is tried first, next and then;
* `keyTrials_right`: the loop goes through the keystore in this order.
-/

namespace Camex

open Lib

/-- What `config_ks_find` returns for a position. -/
def ksPosition : Option ℕ → ℤ
  | some o => o
  | none => -1

/-- The index `i` of turn `n` of the key loop, with `long own`. -/
def keyLoopIndex (own : ℤ) (ahead n : ℕ) : ℕ :=
  if 0 < own ∧ n = ahead then own.toNat
  else if 0 < own ∧ ahead < n ∧ n ≤ own.toNat then n - 1
  else n

theorem keyLoopIndex_eq (own : Option ℕ) (ahead n : ℕ) :
    keyLoopIndex (ksPosition own) ahead n = trialIndex own ahead n := by
  unfold keyLoopIndex trialIndex ksPosition
  cases own with
  | none => simp
  | some o => simp

def hasGlobalEntry (ks : Keystore) : Bool := ks.entries.head?.any fun e => e.owner == []

def globalTrial (ks : Keystore) : List ℕ := if hasGlobalEntry ks then [0] else []

/-- The index of the client's own key, when it has one in the keystore that is not the global one. -/
def ownTrial (ks : Keystore) (own : Option ℕ) : List ℕ := own.toList.filter fun i => i ∉ globalTrial ks

def otherTrials (ks : Keystore) (own : Option ℕ) : List ℕ :=
  (List.range ks.entries.length).filter fun i => i ∉ globalTrial ks ++ ownTrial ks own

/-- The others between two of the indices below `k`, and from there on. -/
theorem range_split {a o k : ℕ} (hao : a ≤ o) (hok : o < k) :
    List.range k = List.range' 0 a ++ (List.range' a (o - a) ++ o :: List.range' (o + 1) (k - o - 1)) := by
  have hrest : o :: List.range' (o + 1) (k - o - 1) = List.range' (a + 1 * (o - a)) (k - o) := by
    rw [show a + 1 * (o - a) = o by omega, show k - o = k - o - 1 + 1 by omega, List.range'_succ]
    congr 2
  rw [hrest, List.range'_append, List.range_eq_range', show o - a + (k - o) = k - a by omega]
  have happ := @List.range'_append 0 a (k - a) 1
  rw [show 0 + 1 * a = a by omega, show a + (k - a) = k by omega] at happ
  exact happ.symm

/-- The turns of the loop with an own key behind `a` that come first. -/
theorem trialIndex_range {a o k : ℕ} (hpos : 0 < o) (hao : a ≤ o) (hok : o < k) :
    (List.range k).map (trialIndex (some o) a) =
      List.range' 0 a ++ o :: (List.range' a (o - a) ++ List.range' (o + 1) (k - o - 1)) := by
  have hsplit : List.range k =
      List.range' 0 a ++ a :: (List.range' (a + 1) (o - a) ++ List.range' (o + 1) (k - o - 1)) := by
    have hturn : List.range' a (o - a) ++ [o] = a :: List.range' (a + 1) (o - a) := by
      rw [← List.range'_succ, List.range'_concat, show a + 1 * (o - a) = o by omega]
    rw [range_split hao hok, ← List.singleton_append, ← List.append_assoc (List.range' a _), hturn, List.cons_append]
  have hshift : (List.range' (a + 1) (o - a)).map (trialIndex (some o) a) = List.range' a (o - a) := by
    have hmap : (List.range' (a + 1) (o - a)).map (trialIndex (some o) a) =
        (List.range' (a + 1) (o - a)).map (· - 1) := by
      refine List.map_congr_left fun n hn => ?_
      rw [List.mem_range'_1] at hn
      unfold trialIndex
      dsimp only
      rw [if_neg (by omega), if_pos (by omega)]
    rw [hmap, List.map_sub_range' (by omega), Nat.add_sub_cancel]
  have hkeep : ∀ l : List ℕ, (∀ n ∈ l, n < a ∨ o < n) → l.map (trialIndex (some o) a) = l := by
    intro l hl
    refine (List.map_congr_left fun n hn => ?_).trans (List.map_id l)
    have := hl n hn
    unfold trialIndex
    dsimp only
    rw [if_neg (by omega), if_neg (by omega)]
    rfl
  have hown : trialIndex (some o) a a = o := if_pos ⟨hpos, rfl⟩
  rw [hsplit, List.map_append, List.map_cons, List.map_append, hown, hshift,
    hkeep _ fun n hn => Or.inl (by rw [List.mem_range'_1] at hn; omega),
    hkeep _ fun n hn => Or.inr (by rw [List.mem_range'_1] at hn; omega)]

/-- Without an own key behind the global one the loop counts. -/
theorem trialIndex_count {own : Option ℕ} (h : own = none ∨ own = some 0) (a k : ℕ) :
    (List.range k).map (trialIndex own a) = List.range k := by
  refine (List.map_congr_left fun n _ => ?_).trans (List.map_id _)
  rcases h with rfl | rfl
  · rfl
  · unfold trialIndex
    simp

theorem filter_range' {s n : ℕ} {l : List ℕ} (h : ∀ i ∈ l, i < s ∨ s + n ≤ i) :
    (List.range' s n).filter (fun i => i ∉ l) = List.range' s n := by
  rw [List.filter_eq_self]
  intro i hi
  rw [List.mem_range'_1] at hi
  have hno : i ∉ l := fun hmem => by have := h i hmem; omega
  simpa using hno

/-- Those below `k` that are not among `a` first ones and `o`. -/
theorem filter_range {a o k : ℕ} (hao : a ≤ o) (hok : o < k) :
    (List.range k).filter (fun i => i ∉ List.range' 0 a ++ [o]) =
      List.range' a (o - a) ++ List.range' (o + 1) (k - o - 1) := by
  rw [range_split hao hok, List.filter_append, List.filter_append]
  have hfirst : (List.range' 0 a).filter (fun i => i ∉ List.range' 0 a ++ [o]) = [] := by
    rw [List.filter_eq_nil_iff]
    intro i hi
    simp only [List.mem_append, hi, true_or, not_true_eq_false, decide_false]
    decide
  have hmem : ∀ i ∈ List.range' 0 a ++ [o], i < a ∨ i = o := by
    intro i hi
    rcases List.mem_append.mp hi with hi | hi
    · rw [List.mem_range'_1] at hi
      exact Or.inl (by omega)
    · exact Or.inr (List.mem_singleton.mp hi)
  rw [hfirst, filter_range' fun i hi => ?_, List.filter_cons_of_neg (by simp), filter_range' fun i hi => ?_]
  · rfl
  · have := hmem i hi
    omega
  · have := hmem i hi
    omega

/-- The key loop goes through the keystore in the right order; `own` is the live client's key in it. -/
structure KeyTrialsRight (ks : Keystore) (own : Option ℕ) : Prop where
  turns : (List.range ks.entries.length).map
    (keyLoopIndex (ksPosition own) (if hasGlobalEntry ks then 1 else 0)) = trialOrder ks own
  order : trialOrder ks own = globalTrial ks ++ ownTrial ks own ++ otherTrials ks own
  once : (trialOrder ks own).Perm (List.range ks.entries.length)

theorem trialOrder_turns (ks : Keystore) (own : Option ℕ) : trialOrder ks own =
    (List.range ks.entries.length).map (trialIndex own (if hasGlobalEntry ks then 1 else 0)) := rfl

/-- What comes first is what is left out of the others. -/
theorem trialOrder_order (ks : Keystore) {own : Option ℕ} (h : ∀ o, own = some o → o < ks.entries.length) :
    trialOrder ks own = globalTrial ks ++ ownTrial ks own ++ otherTrials ks own := by
  have hlen : hasGlobalEntry ks = true → 0 < ks.entries.length := by
    intro hglobal
    unfold hasGlobalEntry at hglobal
    cases hentries : ks.entries with
    | nil =>
      rw [hentries] at hglobal
      cases hglobal
    | cons e es => exact Nat.succ_pos _
  rw [trialOrder_turns]
  unfold otherTrials ownTrial globalTrial
  generalize ks.entries.length = k at h hlen
  cases hglobal : hasGlobalEntry ks with
  | true =>
    have hpos := hlen hglobal
    have hsplit : List.range k = 0 :: (List.range k).filter (fun i => i ∉ [0]) := by
      have hfilter := filter_range (a := 0) (o := 0) (le_refl _) hpos
      have hrange := range_split (a := 0) (o := 0) (le_refl _) hpos
      rw [show List.range' 0 0 ++ [0] = [0] from rfl] at hfilter
      rw [hfilter]
      exact hrange
    cases own with
    | none =>
      rw [trialIndex_count (Or.inl rfl)]
      exact hsplit
    | some o =>
      rcases Nat.eq_zero_or_pos o with rfl | ho
      · rw [trialIndex_count (Or.inr rfl)]
        exact hsplit
      · have hrange := trialIndex_range (a := 1) ho ho (h o rfl)
        have hfilter := filter_range (a := 1) (o := o) ho (h o rfl)
        have hown : (some o).toList.filter (fun i => i ∉ [0]) = [o] := by simp [ho.ne']
        simp only [if_true]
        rw [hown]
        exact hrange.trans (congrArg (fun l => 0 :: o :: l) hfilter.symm)
  | false =>
    simp only [Bool.false_eq_true, if_false]
    cases own with
    | none =>
      rw [trialIndex_count (Or.inl rfl)]
      simp
    | some o =>
      have hfilter := filter_range (a := 0) (o := o) (Nat.zero_le _) (h o rfl)
      have hown : (some o).toList.filter (fun i => i ∉ ([] : List ℕ)) = [o] := by simp
      rw [hown]
      rcases Nat.eq_zero_or_pos o with rfl | ho
      · rw [trialIndex_count (Or.inr rfl)]
        have hrange := range_split (a := 0) (o := 0) (le_refl _) (h 0 rfl)
        exact hrange.trans (congrArg (0 :: ·) hfilter.symm)
      · have hrange := trialIndex_range (a := 0) ho (Nat.zero_le _) (h o rfl)
        exact hrange.trans (congrArg (o :: ·) hfilter.symm)

/-- **The key loop** tries the global key, then the live client's own, then the others. -/
theorem keyTrials_right (ks : Keystore) (known : Option Key) : KeyTrialsRight ks (known.bind (configKsFind ks)) := by
  have hbound : ∀ o, known.bind (configKsFind ks) = some o → o < ks.entries.length := by
    intro o ho
    obtain ⟨key, -, hfind⟩ := Option.bind_eq_some_iff.mp ho
    exact (List.findIdx?_eq_some_iff_getElem.mp hfind).1
  refine ⟨?_, trialOrder_order ks hbound, ?_⟩
  · rw [trialOrder_turns]
    exact List.map_congr_left fun n _ => keyLoopIndex_eq _ _ n
  · have hperm : (trialOrder ks (known.bind (configKsFind ks))).Subperm (List.range ks.entries.length) := by
      refine List.subperm_of_subset (trialOrder_nodup ks _) fun i hi => ?_
      rw [trialOrder_turns] at hi
      obtain ⟨n, hn, rfl⟩ := List.mem_map.mp hi
      rw [List.mem_range] at hn ⊢
      unfold trialIndex
      split
      · exact hn
      · have := hbound _ ‹_›
        split_ifs <;> omega
    refine hperm.perm_of_length_le ?_
    rw [trialOrder_turns, List.length_map]

end Camex
