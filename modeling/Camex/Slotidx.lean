import Camex.Lib.Probing
import Camex.Util

/-!
# The hash index (`slotidx.c`)

A `Slotidx` holds pairs of a hash and a slot number. `slotidxInsert_spec` and `slotidxReset_spec` say which pairs it
holds behind each operation, `slotidxFind_some` and `slotidxFind_none` that a lookup answers the lowest of the slots
it holds under the hash that the caller accepts. Stale pairs are harmless: the caller's `match` skips them.
-/

namespace Camex

open Lib

def SLOTIDX_MIN_BUCKETS : ℕ := 16

/-- `slotidx_t`: its buckets, none of them when there is no table, and the number of those that are taken. -/
structure Slotidx where
  buckets : List (Option (BitVec 32 × ℕ))
  used : ℕ
  deriving DecidableEq

/-- `slotidx_free`. -/
def Slotidx.none : Slotidx := ⟨[], 0⟩

/-- The bucket count less one, 0 when there is no table. -/
def Slotidx.mask (x : Slotidx) : ℕ := x.buckets.length - 1

/-- The loop of `buckets_for`: doubles until there are two buckets an entry, 2^30 of them at most. -/
def bucketsLoop (entries : ℕ) : ℕ → ℕ → ℕ
  | 0, n => n
  | fuel + 1, n => if n < entries * 2 ∧ n < 0x40000000 then bucketsLoop entries fuel (n * 2) else n

def bucketsFor (entries : ℕ) : ℕ := bucketsLoop entries 26 SLOTIDX_MIN_BUCKETS

/-- `alloc_table` when there is memory. -/
def allocTable (n : ℕ) : Slotidx := ⟨List.replicate n Option.none, 0⟩

/-- `grow`: whether there is memory for a new table. -/
def slotidxReset (x : Slotidx) (grow : Bool) (entries : ℕ) : Bool × Slotidx :=
  let n := bucketsFor entries
  if x.mask ≠ 0 ∧ x.mask + 1 = n then (true, allocTable n)
  else if grow then (true, allocTable n) else (false, .none)

/-- The bucket numbers from `h & mask` on, in the order the loops look at them. -/
def Slotidx.order (x : Slotidx) (h : BitVec 32) : List ℕ :=
  List.iterate (fun i => (i + 1) &&& x.mask) (h.toNat &&& x.mask) (x.mask + 1)

def slotidxPut (x : Slotidx) (h : BitVec 32) (slot : ℕ) : Slotidx :=
  let r := probePut x.buckets (h, slot) (x.order h)
  ⟨r.1, if r.2 then x.used + 1 else x.used⟩

/-- `none`: -1, there is no memory for a bigger table and the index stays as it is. -/
def slotidxInsert (x : Slotidx) (grow : Bool) (h : BitVec 32) (slot : ℕ) : Option Slotidx :=
  if x.mask = 0 ∨ x.mask + 1 < (x.used + 1) * 2 then
    if !grow then Option.none
    else
      let bigger := allocTable (if x.mask = 0 then SLOTIDX_MIN_BUCKETS else (x.mask + 1) * 2)
      let bigger := x.buckets.foldl (fun b k => match k with
        | Option.none => b
        | some (h, slot) => slotidxPut b h slot) bigger
      some (slotidxPut bigger h slot)
  else some (slotidxPut x h slot)

def slotidxCrowded (x : Slotidx) (live : ℕ) : Bool := live * 2 + SLOTIDX_MIN_BUCKETS < x.used

/-- One bucket of a lookup: its slot when it has the hash, is lower than the best so far and matches. -/
def findStep (h : BitVec 32) (holds : ℕ → Bool) (best : Option ℕ) (k : BitVec 32 × ℕ) : Option ℕ :=
  if k.1 = h ∧ best.all (fun b => decide (k.2 < b)) = true ∧ holds k.2 = true then some k.2 else best

/-- `holds` is the caller's `match(slot, key)`. -/
def slotidxFind (x : Slotidx) (h : BitVec 32) (holds : ℕ → Bool) : Option ℕ :=
  if x.mask = 0 then Option.none
  else (((x.order h).takeWhile fun i => (bucket x.buckets i).isSome).filterMap (bucket x.buckets)).foldl
    (findStep h holds) Option.none

/-! ## Hashes of keys -/

/-- The finaliser of murmur3. -/
def slotidxHashU32 (v : BitVec 32) : BitVec 32 :=
  let v := v ^^^ v >>> 16
  let v := v * 0x85ebca6b#32
  let v := v ^^^ v >>> 13
  let v := v * 0xc2b2ae35#32
  v ^^^ v >>> 16

def fnvStep (h : BitVec 32) (b : UInt8) : BitVec 32 := (h ^^^ b.toBitVec.setWidth 32) * 16777619#32

def slotidxHashBytes (data : Bytes) : BitVec 32 := slotidxHashU32 (data.foldl fnvStep 2166136261#32)

def slotidxHashNocase (s : CStr) : BitVec 32 := slotidxHashU32 ((s.map toLower).foldl fnvStep 2166136261#32)

theorem slotidxHashNocase_congr {a b : CStr} (h : strcaseeq a b = true) :
    slotidxHashNocase a = slotidxHashNocase b := by
  rw [slotidxHashNocase, slotidxHashNocase, strcaseeq_iff.mp h]

/-! ## What an index holds -/

def Slotidx.Has (x : Slotidx) (h : BitVec 32) (slot : ℕ) : Prop := InBuckets x.buckets (h, slot)

/-- Where an entry of the index is looked for first. -/
def Slotidx.home (k : BitVec 32 × ℕ) : ℕ := k.1.toNat

/-- The bucket count is a power of two, at least 16 unless there is no table; no empty bucket stands in the way of a
lookup; `used` counts the buckets taken. -/
structure Slotidx.Shaped (x : Slotidx) : Prop where
  size : x.buckets = [] ∨ ∃ k, 4 ≤ k ∧ x.buckets.length = 2 ^ k
  gaps : NoGaps home x.buckets
  used : x.used = taken x.buckets

/-- The invariant: at most half of the buckets are taken. -/
structure Slotidx.Ok (x : Slotidx) : Prop extends x.Shaped where
  half : x.used * 2 ≤ x.buckets.length

namespace Slotidx

theorem Ok.none : Slotidx.none.Ok where
  size := Or.inl rfl
  gaps := NoGaps.replicate home 0
  used := rfl
  half := le_rfl

theorem not_has_none (h : BitVec 32) (slot : ℕ) : ¬ Slotidx.none.Has h slot := fun hhas => by
  cases inBuckets_iff.mp hhas

theorem Ok.allocTable {k : ℕ} (hk : 4 ≤ k) : (allocTable (2 ^ k)).Ok where
  size := Or.inr ⟨k, hk, List.length_replicate⟩
  gaps := NoGaps.replicate home _
  used := by simp [Camex.allocTable, taken, List.countP_replicate]
  half := Nat.zero_le _

theorem not_has_allocTable (n : ℕ) (h : BitVec 32) (slot : ℕ) : ¬ (Camex.allocTable n).Has h slot := fun hhas => by
  cases (List.mem_replicate.mp (inBuckets_iff.mp hhas)).2

/-- The loops look at the buckets in the order of `probes`. -/
theorem order_eq {x : Slotidx} {k : ℕ} (hlen : x.buckets.length = 2 ^ k) (h : BitVec 32) :
    x.order h = probes x.buckets.length h.toNat := by
  have hpos : 0 < 2 ^ k := by positivity
  have hmask : x.mask + 1 = 2 ^ k := by rw [mask, hlen]; omega
  have hand : ∀ i, i &&& x.mask = i % 2 ^ k := fun i => by
    rw [mask, hlen, Nat.and_two_pow_sub_one_eq_mod]
  unfold order probes
  rw [hmask, hlen]
  simp only [hand]

theorem Shaped.length_pos {x : Slotidx} (hx : x.Shaped) (h : x.buckets ≠ []) :
    ∃ k, 4 ≤ k ∧ x.buckets.length = 2 ^ k := hx.size.resolve_left h

theorem Shaped.put {x : Slotidx} (hx : x.Shaped) (hroom : x.used < x.buckets.length) (h : BitVec 32) (slot : ℕ) :
    (slotidxPut x h slot).Shaped ∧ (slotidxPut x h slot).buckets.length = x.buckets.length ∧
      (slotidxPut x h slot).used ≤ x.used + 1 ∧
      ∀ h' slot', (slotidxPut x h slot).Has h' slot' ↔ h' = h ∧ slot' = slot ∨ x.Has h' slot' := by
  obtain ⟨k, hk, hlen⟩ := hx.length_pos (by rintro hnil; rw [hnil] at hroom; simp at hroom)
  obtain ⟨e, he, hempty⟩ := exists_empty (hx.used ▸ hroom)
  unfold slotidxPut
  rw [order_eq hlen h]
  have hgaps := probePut_noGaps hx.gaps he hempty (h, slot)
  have htaken := probePut_taken he hempty (h, slot) h.toNat
  have hholds := fun b => probePut_holds he hempty (h, slot) h.toNat (b := b)
  have hlen' := probePut_length x.buckets (h, slot) (probes x.buckets.length h.toNat)
  rw [show home (h, slot) = h.toNat from rfl] at hgaps
  generalize probePut x.buckets (h, slot) (probes x.buckets.length h.toNat) = r at hgaps htaken hholds hlen' ⊢
  refine ⟨⟨Or.inr ⟨k, hk, by rw [hlen', hlen]⟩, hgaps, ?_⟩, hlen', ?_, fun h' slot' => ?_⟩
  · dsimp only
    rw [htaken, hx.used]
    split
    · rfl
    · rfl
  · dsimp only
    split
    · exact le_rfl
    · omega
  · rw [Has, hholds, Prod.mk.injEq]
    rfl

/-- The buckets of the old table are put into the new one. -/
theorem Shaped.rehash (l : List (Option (BitVec 32 × ℕ))) {x : Slotidx} (hx : x.Shaped)
    (hroom : x.used + taken l < x.buckets.length) :
    let y := l.foldl (fun b k => match k with
      | Option.none => b
      | some (h, slot) => slotidxPut b h slot) x
    y.Shaped ∧ y.buckets.length = x.buckets.length ∧ y.used ≤ x.used + taken l ∧
      ∀ h slot, y.Has h slot ↔ x.Has h slot ∨ some (h, slot) ∈ l := by
  induction l generalizing x with
  | nil => exact ⟨hx, rfl, le_rfl, by simp⟩
  | cons k l ih =>
    cases k with
    | none =>
      have htaken : taken (Option.none :: l) = taken l := by simp [taken]
      rw [htaken] at hroom ⊢
      obtain ⟨hy, hlen, hused, hhas⟩ := ih hx hroom
      exact ⟨hy, hlen, hused, fun h slot => by simpa using hhas h slot⟩
    | some k =>
      obtain ⟨h₀, slot₀⟩ := k
      have htaken : taken (some (h₀, slot₀) :: l) = taken l + 1 := by simp [taken]
      rw [htaken] at hroom ⊢
      obtain ⟨hput, hputLen, hputUsed, hputHas⟩ := hx.put (by omega) h₀ slot₀
      obtain ⟨hy, hlen, hused, hhas⟩ := ih hput (by omega)
      refine ⟨hy, hlen.trans hputLen, le_trans hused (by omega), fun h slot => ?_⟩
      rw [List.foldl_cons, hhas h slot, hputHas, List.mem_cons, Option.some.injEq, Prod.mk.injEq]
      tauto

theorem Shaped.put_single {x : Slotidx} (hx : x.Shaped) (hs : Single x.buckets) (hroom : x.used < x.buckets.length)
    (h : BitVec 32) (slot : ℕ) : Single (slotidxPut x h slot).buckets := by
  obtain ⟨k, hk, hlen⟩ := hx.length_pos (by rintro hnil; rw [hnil] at hroom; simp at hroom)
  obtain ⟨e, he, hempty⟩ := exists_empty (hx.used ▸ hroom)
  unfold slotidxPut
  rw [order_eq hlen h]
  exact probePut_single hx.gaps hs he hempty (h, slot)

theorem Shaped.rehash_single (l : List (Option (BitVec 32 × ℕ))) {x : Slotidx} (hx : x.Shaped) (hs : Single x.buckets)
    (hroom : x.used + taken l < x.buckets.length) :
    Single (l.foldl (fun b k => match k with
      | Option.none => b
      | some (h, slot) => slotidxPut b h slot) x).buckets := by
  induction l generalizing x with
  | nil => exact hs
  | cons k l ih =>
    cases k with
    | none =>
      have htaken : taken (Option.none :: l) = taken l := by simp [taken]
      rw [htaken] at hroom
      exact ih hx hs hroom
    | some k =>
      obtain ⟨h₀, slot₀⟩ := k
      have htaken : taken (some (h₀, slot₀) :: l) = taken l + 1 := by simp [taken]
      rw [htaken] at hroom
      obtain ⟨hput, hputLen, hputUsed, -⟩ := hx.put (by omega) h₀ slot₀
      have hnext : (slotidxPut x h₀ slot₀).used + taken l < (slotidxPut x h₀ slot₀).buckets.length := by omega
      exact ih hput (hx.put_single hs (by omega) h₀ slot₀) hnext

/-- The new table of an insertion: at least 16 buckets, and twice the old ones. -/
theorem Ok.doubled {x : Slotidx} (hx : x.Ok) :
    ∃ k, 4 ≤ k ∧ (if x.mask = 0 then SLOTIDX_MIN_BUCKETS else (x.mask + 1) * 2) = 2 ^ k ∧
      x.buckets.length * 2 ≤ 2 ^ k := by
  rcases hx.size with hnil | ⟨k, hk, hlen⟩
  · exact ⟨4, le_rfl, by simp [mask, hnil, SLOTIDX_MIN_BUCKETS], by simp [hnil]⟩
  · have hge : 2 ^ 4 ≤ 2 ^ k := Nat.pow_le_pow_right (by decide) hk
    have hpow : 2 ^ (k + 1) = 2 ^ k * 2 := pow_succ 2 k
    have hmask : x.mask + 1 = 2 ^ k := by rw [mask, hlen]; omega
    exact ⟨k + 1, by omega, by rw [if_neg (by omega), hmask, hpow], by rw [hlen, hpow]⟩

/-- The table an insertion puts its pair into: the old one while there is room, else the bigger one. -/
theorem Ok.room {x y : Slotidx} (hx : x.Ok) {grow : Bool} {h : BitVec 32} {slot : ℕ}
    (hinsert : slotidxInsert x grow h slot = some y) :
    ∃ z : Slotidx, z.Shaped ∧ (Single x.buckets → Single z.buckets) ∧ (z.used + 1) * 2 ≤ z.buckets.length ∧
      (∀ h slot, z.Has h slot ↔ x.Has h slot) ∧ y = slotidxPut z h slot := by
  unfold slotidxInsert at hinsert
  have hhalf := hx.half
  split at hinsert
  · rename_i hfull
    cases grow with
    | false => cases hinsert
    | true =>
      rw [if_neg (by simp)] at hinsert
      cases hinsert
      obtain ⟨k, hk, hn, hbig⟩ := hx.doubled
      have hge : 2 ^ 4 ≤ 2 ^ k := Nat.pow_le_pow_right (by decide) hk
      have hlen : (Camex.allocTable (2 ^ k)).buckets.length = 2 ^ k := List.length_replicate
      rw [hn]
      have hused := hx.used
      have hroom : (Camex.allocTable (2 ^ k)).used + taken x.buckets < (Camex.allocTable (2 ^ k)).buckets.length := by
        rw [hlen, ← hused]
        show 0 + x.used < 2 ^ k
        omega
      obtain ⟨hy, hyLen, hyUsed, hyHas⟩ := (Ok.allocTable hk).toShaped.rehash x.buckets hroom
      have hzero : (Camex.allocTable (2 ^ k)).used = 0 := rfl
      rw [hzero, ← hused] at hyUsed
      rw [hlen] at hyLen
      refine ⟨_, hy, fun _ => (Ok.allocTable hk).toShaped.rehash_single x.buckets (.replicate _) hroom,
        by rw [hyLen]; omega, fun h slot => ?_, rfl⟩
      rw [hyHas]
      exact (or_iff_right (not_has_allocTable _ _ _)).trans inBuckets_iff.symm
  · rename_i hroom
    cases hinsert
    have hmask : x.mask + 1 = x.buckets.length := by
      unfold mask at hroom ⊢
      omega
    exact ⟨x, hx.toShaped, id, by omega, fun _ _ => Iff.rfl, rfl⟩

end Slotidx

open Slotidx in
/-- **An insertion** that has the memory it needs adds its pair. -/
theorem slotidxInsert_spec {x y : Slotidx} (hx : x.Ok) {grow : Bool} {h : BitVec 32} {slot : ℕ}
    (hinsert : slotidxInsert x grow h slot = some y) :
    y.Ok ∧ ∀ h' slot', y.Has h' slot' ↔ h' = h ∧ slot' = slot ∨ x.Has h' slot' := by
  obtain ⟨z, hz, -, hroom, hhas, rfl⟩ := hx.room hinsert
  obtain ⟨hy, hyLen, hyUsed, hyHas⟩ := hz.put (by omega) h slot
  refine ⟨⟨hy, by omega⟩, fun h' slot' => ?_⟩
  rw [hyHas, hhas]

/-- No pair gets a second bucket. -/
theorem slotidxInsert_single {x y : Slotidx} (hx : x.Ok) (hs : Single x.buckets) {grow : Bool} {h : BitVec 32}
    {slot : ℕ} (hinsert : slotidxInsert x grow h slot = some y) : Single y.buckets := by
  obtain ⟨z, hz, hsingle, hroom, -, rfl⟩ := hx.room hinsert
  exact hz.put_single (hsingle hs) (by omega) h slot

theorem bucketsLoop_pow (entries fuel : ℕ) {n k : ℕ} (hk : 4 ≤ k) (hn : n = 2 ^ k) :
    ∃ k, 4 ≤ k ∧ bucketsLoop entries fuel n = 2 ^ k := by
  induction fuel generalizing n k with
  | zero => exact ⟨k, hk, hn⟩
  | succ fuel ih =>
    unfold bucketsLoop
    split
    · exact ih (k := k + 1) (by omega) (by rw [hn, pow_succ])
    · exact ⟨k, hk, hn⟩

/-- **A reset** empties the index, with memory for a table or not. -/
theorem slotidxReset_spec (x : Slotidx) (grow : Bool) (entries : ℕ) :
    (slotidxReset x grow entries).2.Ok ∧ ∀ h slot, ¬ (slotidxReset x grow entries).2.Has h slot := by
  obtain ⟨k, hk, hn⟩ := bucketsLoop_pow entries 26 (n := SLOTIDX_MIN_BUCKETS) (k := 4) le_rfl rfl
  have hall : (allocTable (bucketsFor entries)).Ok ∧ ∀ h slot, ¬ (allocTable (bucketsFor entries)).Has h slot := by
    rw [bucketsFor, hn]
    exact ⟨.allocTable hk, Slotidx.not_has_allocTable _⟩
  unfold slotidxReset
  dsimp only
  split
  · exact hall
  · split
    · exact hall
    · exact ⟨.none, Slotidx.not_has_none⟩

theorem slotidxReset_single (x : Slotidx) (grow : Bool) (entries : ℕ) :
    Single (slotidxReset x grow entries).2.buckets := by
  unfold slotidxReset
  dsimp only
  split
  · exact .replicate _
  · split
    · exact .replicate _
    · exact .replicate 0

/-! ## Lookup -/

/-- The best slot behind a lookup's loop: one of those looked at that have the hash and match, and the lowest. -/
theorem foldl_findStep (h : BitVec 32) (holds : ℕ → Bool) (ks : List (BitVec 32 × ℕ)) (best : Option ℕ) :
    let r := ks.foldl (findStep h holds) best
    (∀ slot, r = some slot → best = some slot ∨ (h, slot) ∈ ks ∧ holds slot = true) ∧
      (∀ b, best = some b → ∃ slot, r = some slot ∧ slot ≤ b) ∧
      ∀ slot', (h, slot') ∈ ks → holds slot' = true → ∃ slot, r = some slot ∧ slot ≤ slot' := by
  induction ks generalizing best with
  | nil => exact ⟨fun slot hr => Or.inl hr, fun b hb => ⟨b, hb, le_rfl⟩, by simp⟩
  | cons k ks ih =>
    obtain ⟨hfrom, hbest, hks⟩ := ih (findStep h holds best k)
    obtain ⟨h₀, slot₀⟩ := k
    refine ⟨fun slot hr => ?_, fun b hb => ?_, fun slot' hmem hslot' => ?_⟩
    · rcases hfrom slot hr with hstep | ⟨hmem, hslot⟩
      · unfold findStep at hstep
        split at hstep
        · rename_i htake
          cases hstep
          obtain ⟨rfl, -, hslot⟩ := htake
          exact Or.inr ⟨List.mem_cons_self, hslot⟩
        · exact Or.inl hstep
      · exact Or.inr ⟨List.mem_cons_of_mem _ hmem, hslot⟩
    · subst hb
      by_cases htake : h₀ = h ∧ (some b).all (fun b => decide (slot₀ < b)) = true ∧ holds slot₀ = true
      · obtain ⟨slot, hr, hle⟩ := hbest slot₀ (if_pos htake)
        have hlt : slot₀ < b := by simpa using htake.2.1
        exact ⟨slot, hr, by omega⟩
      · exact hbest b (if_neg htake)
    · rcases List.mem_cons.mp hmem with heq | hmem
      · obtain ⟨rfl, rfl⟩ := Prod.mk.inj heq
        by_cases htake : best.all (fun b => decide (slot' < b)) = true
        · exact hbest slot' (if_pos ⟨rfl, htake, hslot'⟩)
        · -- one that is not higher was found before
          cases best with
          | none => exact absurd rfl htake
          | some b =>
            obtain ⟨slot, hr, hle⟩ := hbest b (if_neg fun hall => htake hall.2.1)
            have hle' : b ≤ slot' := by simpa using htake
            exact ⟨slot, hr, hle.trans hle'⟩
      · exact hks slot' hmem hslot'

namespace Slotidx

/-- The lookup looks at the buckets taken from the home of the hash on. -/
theorem Ok.find_eq {x : Slotidx} (hx : x.Ok) (h : BitVec 32) (holds : ℕ → Bool) :
    slotidxFind x h holds = (probeRun x.buckets h.toNat).foldl (findStep h holds) Option.none := by
  unfold slotidxFind
  rcases hx.size with hnil | ⟨k, hk, hlen⟩
  · rw [if_pos (by simp [mask, hnil])]
    simp [probeRun, probes, hnil, List.iterate]
  · have hge : 2 ^ 4 ≤ 2 ^ k := Nat.pow_le_pow_right (by decide) hk
    rw [if_neg (by rw [mask, hlen]; omega), order_eq hlen h]
    rfl

/-- **A lookup answers the lowest slot** that the index holds under the hash and that matches. -/
theorem Ok.find_some {x : Slotidx} (hx : x.Ok) {h : BitVec 32} {holds : ℕ → Bool} {slot : ℕ}
    (hfind : slotidxFind x h holds = some slot) :
    x.Has h slot ∧ holds slot = true ∧ ∀ slot', x.Has h slot' → holds slot' = true → slot ≤ slot' := by
  rw [hx.find_eq] at hfind
  obtain ⟨hfrom, -, hks⟩ := foldl_findStep h holds (probeRun x.buckets h.toNat) Option.none
  rcases hfrom slot hfind with hnone | ⟨hmem, hslot⟩
  · cases hnone
  · refine ⟨Lib.mem_run hmem, hslot, fun slot' hhas hslot' => ?_⟩
    obtain ⟨best, hbest, hle⟩ := hks slot' (hx.gaps.mem_run hhas) hslot'
    rw [hfind] at hbest
    cases hbest
    exact hle

theorem Ok.find_none {x : Slotidx} (hx : x.Ok) {h : BitVec 32} {holds : ℕ → Bool}
    (hfind : slotidxFind x h holds = Option.none) {slot : ℕ} (hhas : x.Has h slot) : holds slot = false := by
  rw [hx.find_eq] at hfind
  obtain ⟨-, -, hks⟩ := foldl_findStep h holds (probeRun x.buckets h.toNat) Option.none
  cases hslot : holds slot with
  | false => rfl
  | true =>
    obtain ⟨best, hbest, -⟩ := hks slot (hx.gaps.mem_run hhas) hslot
    rw [hfind] at hbest
    cases hbest

end Slotidx

end Camex
