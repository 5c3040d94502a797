import Mathlib.Data.List.Range
import Mathlib.Logic.Function.Basic

/-!
# A ring of words over the natural numbers

Word `w` of an unbounded sequence has its place at `w % k` of a ring of `k`.

* `ringPos_inj`: of any `k` words in a row each has a place of its own;
* `ringFill`: the places of `count` words in a row, set one after the other.
-/

namespace Camex.Lib

variable {k : ℕ}

def ringPos (hk : 0 < k) (w : ℕ) : Fin k := ⟨w % k, Nat.mod_lt _ hk⟩

theorem ringPos_inj (hk : 0 < k) {w v : ℕ} (h : ringPos hk w = ringPos hk v) (hle : w ≤ v) (hlt : v - w < k) : w = v := by
  have hmod : v % k = w % k := (congrArg Fin.val h).symm
  have hdiff : (v - w) % k = 0 := Nat.sub_mod_eq_zero_of_mod_eq hmod
  rw [Nat.mod_eq_of_lt hlt] at hdiff
  omega

variable {α : Type*} (hk : 0 < k)

/-- The places of the words `start`, `start + 1`, .. set to `a` one after the other. -/
def ringFill (ring : Fin k → α) (a : α) (start count : ℕ) : Fin k → α :=
  (List.range' start count).foldl (fun b w => Function.update b (ringPos hk w) a) ring

theorem ringFill_succ (ring : Fin k → α) (a : α) (start count : ℕ) :
    ringFill hk ring a start (count + 1) =
      Function.update (ringFill hk ring a start count) (ringPos hk (start + count)) a := by
  unfold ringFill
  rw [List.range'_concat, List.foldl_append, Nat.one_mul]
  rfl

/-- A word among them is set. -/
theorem ringFill_of_mem (ring : Fin k → α) (a : α) {start count w : ℕ} (hle : start ≤ w)
    (hlt : w < start + count) : ringFill hk ring a start count (ringPos hk w) = a := by
  induction count with
  | zero => omega
  | succ count ih =>
    rw [ringFill_succ]
    by_cases hw : ringPos hk w = ringPos hk (start + count)
    · rw [hw, Function.update_self]
    · rw [Function.update_of_ne hw]
      refine ih ?_
      by_contra hno
      have : w = start + count := by omega
      exact hw (by rw [this])

/-- A word before them stays while its place is not one of theirs. -/
theorem ringFill_of_lt (ring : Fin k → α) (a : α) {start count w : ℕ} (hlt : w < start)
    (hfar : start + count ≤ w + k) : ringFill hk ring a start count (ringPos hk w) = ring (ringPos hk w) := by
  induction count with
  | zero => rfl
  | succ count ih =>
    rw [ringFill_succ, Function.update_of_ne, ih (by omega)]
    intro heq
    have := ringPos_inj hk heq (by omega) (by omega)
    omega

end Camex.Lib
