import Camex.Lib.Ring
import Camex.Session
import Mathlib.Data.Set.Insert

/-!
# What the replay window remembers

`Admits S m`: what the window is for, said about the set `S` of the counters taken so far. `Remembers r S`: the
ring holds the part of `S` in reach of its highest counter.

* `Remembers.check`: `replay_check` takes exactly the counters that are admitted;
* `Remembers.record`: `replay_record` adds such a counter;
* `replayCheck_exact`: which counters a window takes, by those it took before.
-/

namespace Camex

open Lib

/-- A counter that may be taken behind those of `S`: a new one, in a word close enough to each of theirs. -/
structure Admits (S : Set ℕ) (m : ℕ) : Prop where
  limit : m < V2_REJECT_AFTER_MSGS
  fresh : m ∉ S
  recent : ∀ k ∈ S, k / 64 - m / 64 < REPLAY_WORDS

/-! ## The ring -/

/-- The words up to `top` that have a place in the ring hold the bits of `S`. -/
def RingHolds (bits : Fin REPLAY_WORDS → BitVec 64) (top : ℕ) (S : Set ℕ) : Prop :=
  ∀ m, m / 64 ≤ top → top - m / 64 < REPLAY_WORDS →
    ((bits (replayWord (m / 64))).getLsbD (m % 64) = true ↔ m ∈ S)

namespace RingHolds

variable {bits : Fin REPLAY_WORDS → BitVec 64} {top cur : ℕ} {S : Set ℕ}

theorem zero (hS : ∀ m ∈ S, m / 64 ≤ top → ¬ top - m / 64 < REPLAY_WORDS) :
    RingHolds (fun _ => 0) top S := by
  intro m hle hlt
  have hno : m ∉ S := fun hm => hS m hm hle hlt
  simp [hno]

/-- The window moves up: the words it moves over are cleared. -/
theorem advance (h : RingHolds bits cur S) (hS : ∀ m ∈ S, m / 64 ≤ cur) (hle : cur ≤ top) :
    RingHolds (if REPLAY_WORDS ≤ top - cur then fun _ => 0 else clearWords bits (cur + 1) (top - cur)) top S := by
  split
  · refine zero fun m hm _ => ?_
    have := hS m hm
    omega
  · intro m hmtop hfar
    by_cases hm : m / 64 ≤ cur
    · have hkeep : clearWords bits (cur + 1) (top - cur) (replayWord (m / 64)) = bits (replayWord (m / 64)) :=
        ringFill_of_lt (by decide) bits 0 (by omega) (by omega)
      rw [hkeep]
      exact h m hm (by omega)
    · have hclear : clearWords bits (cur + 1) (top - cur) (replayWord (m / 64)) = 0 :=
        ringFill_of_mem (by decide) bits 0 (by omega) (by omega)
      have hno : m ∉ S := fun h => hm (hS m h)
      simp [hclear, hno]

/-- A bit is set in a word that has a place. -/
theorem insert (h : RingHolds bits top S) {k : ℕ} (hle : k / 64 ≤ top) (hfar : top - k / 64 < REPLAY_WORDS) :
    RingHolds (Function.update bits (replayWord (k / 64))
      (bits (replayWord (k / 64)) ||| BitVec.twoPow 64 (k % 64))) top (insert k S) := by
  intro m hmtop hmfar
  have hmem := h m hmtop hmfar
  rw [Set.mem_insert_iff]
  by_cases hplace : replayWord (m / 64) = replayWord (k / 64)
  · have hword : m / 64 = k / 64 := by
      rcases Nat.le_total (m / 64) (k / 64) with hmk | hkm
      · exact ringPos_inj (by decide) hplace hmk (by omega)
      · exact (ringPos_inj (by decide) hplace.symm hkm (by omega)).symm
    rw [hplace, Function.update_self, BitVec.getLsbD_or, BitVec.getLsbD_twoPow, Bool.or_eq_true, ← hplace, hmem,
      Bool.and_eq_true, decide_eq_true_iff, decide_eq_true_iff]
    constructor
    · rintro (h | ⟨-, h⟩)
      · exact Or.inr h
      · exact Or.inl (by omega)
    · rintro (rfl | h)
      · exact Or.inr ⟨Nat.mod_lt _ (by decide), rfl⟩
      · exact Or.inl h
  · rw [Function.update_of_ne hplace, hmem]
    constructor
    · exact Or.inr
    · rintro (rfl | h)
      · exact absurd rfl hplace
      · exact h

end RingHolds

/-! ## The window -/

/-- The window has taken the counters of `S`. -/
structure Remembers (r : ReplayWindow) (S : Set ℕ) : Prop where
  any : r.any = true ↔ S.Nonempty
  max_mem : r.any = true → r.max ∈ S
  le_max : ∀ m ∈ S, m ≤ r.max
  holds : r.any = true → RingHolds r.bits (r.max / 64) S

theorem remembers_zero : Remembers .zero ∅ :=
  ⟨by simp [ReplayWindow.zero], nofun, nofun, nofun⟩

namespace Remembers

variable {r : ReplayWindow} {S : Set ℕ} {m : ℕ}

theorem empty (h : Remembers r S) (hany : r.any = false) : S = ∅ := by
  rw [← Set.not_nonempty_iff_eq_empty, ← h.any, hany]
  decide

/-- **`replay_check`** takes the counters that are admitted. -/
theorem check (h : Remembers r S) : replayCheck r m = true ↔ Admits S m := by
  unfold replayCheck
  by_cases hlimit : V2_REJECT_AFTER_MSGS ≤ m
  · rw [if_pos hlimit]
    exact ⟨nofun, fun ha => absurd ha.limit (by omega)⟩
  · rw [if_neg hlimit]
    have hlimit : m < V2_REJECT_AFTER_MSGS := by omega
    cases hany : r.any with
    | false =>
      have hS := h.empty hany
      exact ⟨fun _ => ⟨hlimit, by simp [hS], by simp [hS]⟩, fun _ => rfl⟩
    | true =>
      by_cases hnew : r.max < m
      · rw [if_pos (by simp [hnew])]
        refine ⟨fun _ => ⟨hlimit, fun hm => ?_, fun k hk => ?_⟩, fun _ => rfl⟩
        · have := h.le_max m hm
          omega
        · have := h.le_max k hk
          have : k / 64 ≤ m / 64 := Nat.div_le_div_right (by omega)
          show k / 64 - m / 64 < 32
          omega
      · rw [if_neg (by simp [hnew])]
        by_cases hold : REPLAY_WORDS ≤ r.max / 64 - m / 64
        · rw [if_pos hold]
          exact ⟨nofun, fun ha => absurd (ha.recent _ (h.max_mem hany)) (by omega)⟩
        · rw [if_neg hold]
          have hbit := h.holds hany m (Nat.div_le_div_right (by omega)) (by omega)
          rw [Bool.not_eq_true', ← Bool.not_eq_true, hbit]
          refine ⟨fun hno => ⟨hlimit, hno, fun k hk => ?_⟩, fun ha => ha.fresh⟩
          have : k / 64 ≤ r.max / 64 := Nat.div_le_div_right (h.le_max k hk)
          omega

/-- **`replay_record`** adds a counter that is admitted. -/
theorem record (h : Remembers r S) (ha : Admits S m) : Remembers (replayRecord r m) (insert m S) := by
  unfold replayRecord
  cases hany : r.any with
  | false =>
    have hS := h.empty hany
    subst hS
    simp only [Bool.not_false, if_true]
    refine ⟨by simp, fun _ => by simp, by simp, fun _ => ?_⟩
    exact (RingHolds.zero fun k hk => absurd hk (Set.notMem_empty k)).insert (le_refl _) (by simp)
  | true =>
    by_cases hnew : r.max < m
    · have hle : r.max / 64 ≤ m / 64 := Nat.div_le_div_right (by omega)
      have hmoved := (h.holds hany).advance (fun k hk => Nat.div_le_div_right (h.le_max k hk)) hle
      simp only [Bool.not_true, Bool.false_eq_true, if_false, if_pos hnew]
      refine ⟨by simp, fun _ => by simp, fun k hk => ?_, fun _ => hmoved.insert (le_refl _) (by simp)⟩
      rcases hk with rfl | hk
      · exact le_refl _
      · have := h.le_max k hk
        show k ≤ m
        omega
    · have hle : m / 64 ≤ r.max / 64 := Nat.div_le_div_right (by omega)
      have hfar := ha.recent _ (h.max_mem hany)
      simp only [Bool.not_true, Bool.false_eq_true, if_false, if_neg hnew]
      refine ⟨by simp [hany], fun _ => Or.inr (h.max_mem hany), fun k hk => ?_, fun _ =>
        (h.holds hany).insert hle hfar⟩
      rcases hk with rfl | hk
      · show k ≤ r.max
        omega
      · exact h.le_max k hk

end Remembers

/-! ## A window that is shown counters -/

/-- `replay_check`, and `replay_record` of a counter that is taken; the counters taken so far are kept beside it. -/
def replayShow (w : ReplayWindow × List ℕ) (m : ℕ) : ReplayWindow × List ℕ :=
  if replayCheck w.1 m then (replayRecord w.1 m, w.2 ++ [m]) else w

/-- What a zeroed window and the list of the counters taken are behind these counters. -/
def replayShown (ns : List ℕ) : ReplayWindow × List ℕ := ns.foldl replayShow (.zero, [])

theorem replayShown_concat (ns : List ℕ) (m : ℕ) : replayShown (ns ++ [m]) = replayShow (replayShown ns) m := by
  unfold replayShown
  rw [List.foldl_append, List.foldl_cons, List.foldl_nil]

theorem replayShown_remembers (ns : List ℕ) : Remembers (replayShown ns).1 {k | k ∈ (replayShown ns).2} := by
  induction ns using List.reverseRecOn with
  | nil =>
    have hnone : {k : ℕ | k ∈ ([] : List ℕ)} = ∅ := by simp
    show Remembers .zero {k | k ∈ ([] : List ℕ)}
    rw [hnone]
    exact remembers_zero
  | append_singleton ns m ih =>
    rw [replayShown_concat]
    unfold replayShow
    by_cases htaken : replayCheck (replayShown ns).1 m = true
    · rw [if_pos htaken]
      have hinsert : {k | k ∈ (replayShown ns).2 ++ [m]} = insert m {k | k ∈ (replayShown ns).2} := by
        ext k
        simp [or_comm]
      show Remembers (replayRecord (replayShown ns).1 m) {k | k ∈ (replayShown ns).2 ++ [m]}
      rw [hinsert]
      exact ih.record (ih.check.mp htaken)
    · rw [if_neg htaken]
      exact ih

/-- Only the largest counter that was taken decides how far back the window reaches. -/
theorem admits_iff_greatest {S : Set ℕ} {m n : ℕ} (hm : IsGreatest S m) :
    Admits S n ↔ n < V2_REJECT_AFTER_MSGS ∧ n ∉ S ∧ (m < n ∨ m / 64 - n / 64 < REPLAY_WORDS) := by
  constructor
  · rintro ⟨hlimit, hfresh, hrecent⟩
    exact ⟨hlimit, hfresh, Or.inr (hrecent m hm.1)⟩
  · rintro ⟨hlimit, hfresh, hreach⟩
    refine ⟨hlimit, hfresh, fun k hk => ?_⟩
    have hkm : k / 64 ≤ m / 64 := Nat.div_le_div_right (hm.2 hk)
    rcases hreach with hnew | hnear
    · have hmn : m / 64 ≤ n / 64 := Nat.div_le_div_right (by omega)
      show k / 64 - n / 64 < 32
      omega
    · omega

/-- **The replay window, exactly**: a counter is taken when it is below the limit, was not taken before, and is the
first one, larger than every one taken, or in one of the ring's words behind the largest. -/
theorem replayCheck_exact (ns : List ℕ) (n : ℕ) :
    replayCheck (replayShown ns).1 n = true ↔
      n < V2_REJECT_AFTER_MSGS ∧ n ∉ (replayShown ns).2 ∧
        ((replayShown ns).2 = [] ∨
          ∃ m, IsGreatest {k | k ∈ (replayShown ns).2} m ∧ (m < n ∨ m / 64 - n / 64 < V2_REPLAY_WINDOW / 64)) := by
  have h := replayShown_remembers ns
  rw [h.check]
  cases hany : (replayShown ns).1.any with
  | false =>
    have hnone := h.empty hany
    have hnil : (replayShown ns).2 = [] :=
      List.eq_nil_iff_forall_not_mem.mpr fun k hk => (Set.eq_empty_iff_forall_notMem.mp hnone k) hk
    rw [hnil]
    refine ⟨fun ha => ⟨ha.limit, List.not_mem_nil, Or.inl rfl⟩, fun ha => ⟨ha.1, by simp, by simp⟩⟩
  | true =>
    have hgreatest : IsGreatest {k | k ∈ (replayShown ns).2} (replayShown ns).1.max := ⟨h.max_mem hany, h.le_max⟩
    have hsome : (replayShown ns).2 ≠ [] := List.ne_nil_of_mem (h.max_mem hany)
    rw [admits_iff_greatest hgreatest]
    refine and_congr_right fun _ => and_congr_right fun _ => ⟨fun hreach => Or.inr ⟨_, hgreatest, hreach⟩, ?_⟩
    rintro (hnil | ⟨m, hm, hreach⟩)
    · exact absurd hnil hsome
    · rwa [hgreatest.unique hm]

end Camex
