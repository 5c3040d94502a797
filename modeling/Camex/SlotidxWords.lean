import Camex.Lib.Runs
import Camex.Slotidx

/-!
# The hash index in its words (`slotidx.c`)

`slotidx.c` keeps two arrays of 32-bit words: the hashes, and the slots plus one with 0 for an empty bucket. `Rep w x`:
the words `w` are those of the index `x`; each operation on the words is then the one on the index.

* `slotidxInsert_rep`, `slotidxFind_rep`: every probe ends, and the words stay those of an index;
* `IndexRight`: what a caller of the index relies on;
* `index_right`: it holds behind any calls; `not_index_right`: not with the slot 2^32 - 1, which the words cannot hold, and
  a pair inserted again may double the table.
-/

namespace Camex.Words

open Lib

/-! ## `slotidx.c` -/

/-- `slotidx_t`. -/
structure SlotidxWords where
  hash : List (BitVec 32)
  slot : List (BitVec 32)
  mask : BitVec 32
  used : BitVec 32
  deriving DecidableEq

/-- `slotidx_free`. -/
def SlotidxWords.none : SlotidxWords := ⟨[], [], 0, 0⟩

/-- The loop of `buckets_for`; `entries` is a `size_t`. -/
def bucketsLoop (entries : BitVec 64) : ℕ → BitVec 32 → BitVec 32
  | 0, n => n
  | fuel + 1, n =>
    if n.setWidth 64 < entries * 2 ∧ n < 0x40000000#32 then bucketsLoop entries fuel (n <<< 1) else n

def bucketsFor (entries : BitVec 64) : BitVec 32 := bucketsLoop entries 26 16

/-- `alloc_table` when there is memory. -/
def allocTable (n : BitVec 32) : SlotidxWords := ⟨List.replicate n.toNat 0, List.replicate n.toNat 0, n - 1, 0⟩

def slotidxReset (x : SlotidxWords) (grow : Bool) (entries : BitVec 64) : Bool × SlotidxWords :=
  let n := bucketsFor entries
  if x.mask ≠ 0 ∧ x.mask + 1 = n then
    (true, { x with hash := List.replicate n.toNat 0, slot := List.replicate n.toNat 0, used := 0 })
  else if grow then (true, allocTable n) else (false, .none)

/-- The loop of `put` from bucket `i` on; `none` when it does not end within as many steps as there are buckets. -/
def putLoop (x : SlotidxWords) (h slot1 : BitVec 32) : ℕ → BitVec 32 → Option SlotidxWords
  | 0, _ => none
  | fuel + 1, i =>
    if x.slot.getD i.toNat 0 ≠ 0 then
      if x.slot.getD i.toNat 0 = slot1 ∧ x.hash.getD i.toNat 0 = h then some x
      else putLoop x h slot1 fuel ((i + 1) &&& x.mask)
    else some { x with hash := x.hash.set i.toNat h, slot := x.slot.set i.toNat slot1, used := x.used + 1 }

def put (x : SlotidxWords) (h slot1 : BitVec 32) : Option SlotidxWords :=
  putLoop x h slot1 (x.mask.toNat + 1) (h &&& x.mask)

/-- The buckets `is` of the old table put into the bigger one. -/
def rehash (x : SlotidxWords) (is : List ℕ) (bigger : SlotidxWords) : Option SlotidxWords :=
  is.foldlM (fun b i => if x.slot.getD i 0 ≠ 0 then put b (x.hash.getD i 0) (x.slot.getD i 0) else some b) bigger

/-- `false`: -1, there is no memory for a bigger table and the index stays as it is. -/
def slotidxInsert (x : SlotidxWords) (grow : Bool) (h slot : BitVec 32) : Option (Bool × SlotidxWords) :=
  if x.mask = 0 ∨ x.mask + 1 < (x.used + 1) * 2 then
    if !grow then some (false, x)
    else
      let n := if x.mask = 0 then 16 else (x.mask + 1) * 2
      (rehash x (List.range (if x.mask = 0 then 0 else x.mask.toNat + 1)) (allocTable n)).bind fun bigger =>
        (put bigger h (slot + 1)).map fun y => (true, y)
  else (put x h (slot + 1)).map fun y => (true, y)

/-- The loop of `slotidx_find`; `best` is a `long` of 64 bits, `holds` the caller's `match(slot, key)`. -/
def findLoop (x : SlotidxWords) (h : BitVec 32) (holds : BitVec 32 → Bool) : ℕ → BitVec 32 → ℤ → Option ℤ
  | 0, _, _ => none
  | fuel + 1, i, best =>
    if x.slot.getD i.toNat 0 = 0 then some best
    else
      let slot := x.slot.getD i.toNat 0 - 1
      findLoop x h holds fuel ((i + 1) &&& x.mask)
        (if x.hash.getD i.toNat 0 = h ∧ (best < 0 ∨ (slot.toNat : ℤ) < best) ∧ holds slot = true then slot.toNat else best)

def slotidxFind (x : SlotidxWords) (h : BitVec 32) (holds : BitVec 32 → Bool) : Option ℤ :=
  if x.mask = 0 then some (-1) else findLoop x h holds (x.mask.toNat + 1) (h &&& x.mask) (-1)

/-! ## The index that the words hold -/

/-- A bucket; its slot is kept plus one. -/
def bucketOf (h slot1 : BitVec 32) : Option (BitVec 32 × ℕ) := if slot1 = 0 then none else some (h, (slot1 - 1).toNat)

def SlotidxWords.index (w : SlotidxWords) : Slotidx := ⟨List.zipWith bucketOf w.hash w.slot, w.used.toNat⟩

/-- The words are as `slotidx.c` keeps them: two arrays of `mask + 1` words, or none. -/
structure Kept (w : SlotidxWords) : Prop where
  hash : w.hash.length = w.slot.length
  slot : w.slot.length = 0 ∧ w.mask = 0 ∨ w.slot.length = w.mask.toNat + 1 ∧ w.mask ≠ 0
  bound : w.slot.length ≤ 2 ^ 30

namespace Kept

variable {w : SlotidxWords}

theorem length (hw : Kept w) : w.index.buckets.length = w.slot.length := by
  unfold SlotidxWords.index
  rw [List.length_zipWith, hw.hash, min_self]

theorem mask_eq (hw : Kept w) : w.index.mask = w.mask.toNat := by
  unfold Slotidx.mask
  rw [hw.length]
  rcases hw.slot with ⟨hlen, hmask⟩ | ⟨hlen, -⟩
  · rw [hlen, hmask]
    rfl
  · omega

theorem bucket_eq (hw : Kept w) {i : ℕ} (hi : i < w.slot.length) :
    bucket w.index.buckets i = bucketOf (w.hash.getD i 0) (w.slot.getD i 0) := by
  have hi' : i < w.hash.length := by rw [hw.hash]; exact hi
  unfold bucket SlotidxWords.index
  rw [List.getElem?_zipWith, List.getElem?_eq_getElem hi, List.getElem?_eq_getElem hi']
  simp [List.getD_eq_getElem?_getD, hi, hi']

theorem next (hw : Kept w) {i : BitVec 32} (hi : i.toNat < w.slot.length) :
    ((i + 1) &&& w.mask).toNat = (i.toNat + 1) &&& w.index.mask := by
  have hbound := hw.bound
  rw [hw.mask_eq, BitVec.toNat_and, BitVec.toNat_add, Nat.mod_eq_of_lt]
  · rfl
  · show i.toNat + 1 < 2 ^ 32
    omega

theorem home (hw : Kept w) (h : BitVec 32) : (h &&& w.mask).toNat = h.toNat &&& w.index.mask := by
  rw [hw.mask_eq, BitVec.toNat_and]

theorem and_lt (hw : Kept w) (hmask : w.mask ≠ 0) (i : BitVec 32) : (i &&& w.mask).toNat < w.slot.length := by
  rcases hw.slot with ⟨-, hnone⟩ | ⟨hlen, -⟩
  · exact absurd hnone hmask
  · have hle : (i &&& w.mask).toNat ≤ w.mask.toNat := by
      rw [BitVec.toNat_and]
      exact Nat.and_le_right
    omega

end Kept

/-! ## Insertion -/

/-- The words are those of a well-formed index. -/
structure Rep (w : SlotidxWords) (x : Slotidx) : Prop extends Kept w where
  index : w.index = x
  shaped : x.Shaped

theorem bucketOf_eq_iff {h h' slot1 slot1' : BitVec 32} (hs : slot1 ≠ 0) (hs' : slot1' ≠ 0) :
    bucketOf h slot1 = some (h', (slot1' - 1).toNat) ↔ slot1 = slot1' ∧ h = h' := by
  unfold bucketOf
  rw [if_neg hs, Option.some.injEq, Prod.mk.injEq, BitVec.toNat_inj]
  constructor
  · rintro ⟨hh, hsub⟩
    exact ⟨by simpa using congrArg (· + 1#32) hsub, hh⟩
  · rintro ⟨rfl, rfl⟩
    exact ⟨rfl, rfl⟩

theorem zipWith_set (as bs : List (BitVec 32)) (i : ℕ) (a b : BitVec 32) :
    List.zipWith bucketOf (as.set i a) (bs.set i b) = (List.zipWith bucketOf as bs).set i (bucketOf a b) := by
  induction as generalizing bs i with
  | nil => rfl
  | cons c as ih =>
    cases bs with
    | nil => simp
    | cons d bs =>
      cases i with
      | zero => rfl
      | succ i => simp [ih bs i]

theorem putLoop_kept {w : SlotidxWords} (hw : Kept w) (hused : w.used.toNat + 1 < 2 ^ 32) (h : BitVec 32)
    {slot1 : BitVec 32} (hs : slot1 ≠ 0) (fuel : ℕ) {i : BitVec 32} (hi : i.toNat < w.slot.length)
    (hempty : ∃ q ∈ List.iterate (fun i => (i + 1) &&& w.index.mask) i.toNat fuel, bucket w.index.buckets q = none) :
    ∃ w', putLoop w h slot1 fuel i = some w' ∧ Kept w' ∧ w'.mask = w.mask ∧
      w'.index =
        let r := probePut w.index.buckets (h, (slot1 - 1).toNat)
          (List.iterate (fun i => (i + 1) &&& w.index.mask) i.toNat fuel)
        ⟨r.1, if r.2 then w.index.used + 1 else w.index.used⟩ := by
  induction fuel generalizing i with
  | zero =>
    obtain ⟨q, hq, -⟩ := hempty
    cases hq
  | succ fuel ih =>
    have hbucket := hw.bucket_eq hi
    unfold putLoop
    rw [List.iterate]
    by_cases hfree : w.slot.getD i.toNat 0 = 0
    · rw [if_neg (not_not.mpr hfree)]
      rw [hfree] at hbucket
      have hnone : bucket w.index.buckets i.toNat = none := hbucket
      refine ⟨_, rfl, ⟨?_, ?_, ?_⟩, rfl, ?_⟩
      · simp [hw.hash]
      · simpa using hw.slot
      · simpa using hw.bound
      · have hnext : (w.used + 1).toNat = w.used.toNat + 1 := by
          rw [BitVec.toNat_add, Nat.mod_eq_of_lt]
          · rfl
          · exact hused
        rw [probePut, hnone]
        unfold SlotidxWords.index
        dsimp only
        rw [zipWith_set, hnext, bucketOf, if_neg hs]
        rfl
    · rw [if_pos hfree]
      have hsome : bucket w.index.buckets i.toNat = some (w.hash.getD i.toNat 0, (w.slot.getD i.toNat 0 - 1).toNat) := by
        rw [hbucket, bucketOf, if_neg hfree]
      have hiff := @bucketOf_eq_iff (w.hash.getD i.toNat 0) h _ _ hfree hs
      rw [bucketOf, if_neg hfree, Option.some.injEq] at hiff
      rw [probePut, hsome]
      dsimp only
      by_cases hthere : w.slot.getD i.toNat 0 = slot1 ∧ w.hash.getD i.toNat 0 = h
      · rw [if_pos hthere, if_pos (hiff.mpr hthere)]
        exact ⟨w, rfl, hw, rfl, rfl⟩
      · rw [if_neg hthere, if_neg fun heq => hthere (hiff.mp heq), ← hw.next hi]
        refine ih ?_ ?_
        · refine hw.and_lt ?_ _
          rcases hw.slot with ⟨hlen, -⟩ | ⟨-, hmask⟩
          · omega
          · exact hmask
        · obtain ⟨q, hq, hqnone⟩ := hempty
          rw [List.iterate, List.mem_cons] at hq
          rcases hq with rfl | hq
          · rw [hsome] at hqnone
            cases hqnone
          · exact ⟨q, by rwa [hw.next hi], hqnone⟩

namespace Rep

variable {w : SlotidxWords} {x : Slotidx}

theorem length (hw : Rep w x) : x.buckets.length = w.slot.length := by rw [← hw.index, hw.toKept.length]

theorem used (hw : Rep w x) : w.used.toNat = x.used := by rw [← hw.index]; rfl

theorem mask (hw : Rep w x) : w.mask.toNat = x.mask := by rw [← hw.index, hw.toKept.mask_eq]

/-- An index with an empty bucket has a table. -/
theorem mask_ne (hw : Rep w x) (hroom : x.used < x.buckets.length) : w.mask ≠ 0 := by
  rcases hw.slot with ⟨hlen, -⟩ | ⟨-, hmask⟩
  · rw [hw.length, hlen] at hroom
    omega
  · exact hmask

/-- A loop over all buckets comes to an empty one. -/
theorem order_empty (hw : Rep w x) (hroom : x.used < x.buckets.length) (h : BitVec 32) :
    ∃ q ∈ x.order h, bucket x.buckets q = none := by
  obtain ⟨k, -, hlen⟩ := hw.shaped.length_pos (by rintro hnil; rw [hnil] at hroom; simp at hroom)
  obtain ⟨e, he, hempty⟩ := exists_empty (hw.shaped.used ▸ hroom)
  refine ⟨e, ?_, hempty⟩
  rw [Slotidx.order_eq hlen]
  exact mem_probes he _

end Rep

/-- **`put`** ends, with the index's words. -/
theorem put_rep {w : SlotidxWords} {x : Slotidx} (hw : Rep w x) (hroom : x.used < x.buckets.length) (h : BitVec 32)
    {slot1 : BitVec 32} (hs : slot1 ≠ 0) :
    ∃ w', put w h slot1 = some w' ∧ Rep w' (slotidxPut x h (slot1 - 1).toNat) ∧ w'.mask = w.mask := by
  have hbound := hw.bound
  rw [← hw.length] at hbound
  have hmask := hw.mask_ne hroom
  have hempty := hw.order_empty hroom h
  unfold Slotidx.order at hempty
  have hused := hw.used
  obtain ⟨w', hput, hkept, hmask', hindex⟩ := putLoop_kept hw.toKept (by omega) h hs (w.mask.toNat + 1)
    (hw.toKept.and_lt hmask h) (by rwa [hw.index, hw.toKept.home, hw.index, hw.mask])
  refine ⟨w', hput, ⟨hkept, ?_, (hw.shaped.put hroom h _).1⟩, hmask'⟩
  rw [hindex, hw.index, hw.toKept.home, hw.index, hw.mask]
  rfl

/-- **The buckets of the old table** go into the bigger one. -/
theorem rehash_rep {w : SlotidxWords} (hw : Kept w) (is : List ℕ) (his : ∀ i ∈ is, i < w.slot.length)
    {b : SlotidxWords} {y : Slotidx} (hb : Rep b y)
    (hroom : y.used + taken (is.map (bucket w.index.buckets)) < y.buckets.length) :
    ∃ b', rehash w is b = some b' ∧
      Rep b' ((is.map (bucket w.index.buckets)).foldl (fun b k => match k with
        | none => b
        | some (h, slot) => slotidxPut b h slot) y) := by
  induction is generalizing b y with
  | nil => exact ⟨b, rfl, hb⟩
  | cons i is ih =>
    have hi := his i List.mem_cons_self
    have hrest : ∀ j ∈ is, j < w.slot.length := fun j hj => his j (List.mem_cons_of_mem _ hj)
    have hbucket := hw.bucket_eq hi
    unfold rehash
    rw [List.foldlM_cons, List.map_cons, List.foldl_cons]
    rw [List.map_cons] at hroom
    by_cases hfree : w.slot.getD i 0 = 0
    · rw [hfree] at hbucket
      have hnone : bucket w.index.buckets i = none := hbucket
      rw [hnone] at hroom ⊢
      rw [if_neg (not_not.mpr hfree)]
      have htaken : taken (none :: is.map (bucket w.index.buckets)) = taken (is.map (bucket w.index.buckets)) := by
        simp [taken]
      rw [htaken] at hroom
      exact ih hrest hb hroom
    · have hsome : bucket w.index.buckets i = some (w.hash.getD i 0, (w.slot.getD i 0 - 1).toNat) := by
        rw [hbucket, bucketOf, if_neg hfree]
      rw [hsome] at hroom ⊢
      have htaken : taken (some (w.hash.getD i 0, (w.slot.getD i 0 - 1).toNat) :: is.map (bucket w.index.buckets)) =
          taken (is.map (bucket w.index.buckets)) + 1 := by
        simp [taken]
      rw [htaken] at hroom
      rw [if_pos hfree]
      obtain ⟨b₁, hput, hb₁, -⟩ := put_rep hb (by omega) (w.hash.getD i 0) hfree
      obtain ⟨-, hlen, hused, -⟩ := hb.shaped.put (by omega) (w.hash.getD i 0) (w.slot.getD i 0 - 1).toNat
      have hnext : (slotidxPut y (w.hash.getD i 0) (w.slot.getD i 0 - 1).toNat).used +
          taken (is.map (bucket w.index.buckets)) <
          (slotidxPut y (w.hash.getD i 0) (w.slot.getD i 0 - 1).toNat).buckets.length := by omega
      rw [hput]
      exact ih hrest hb₁ hnext

theorem allocTable_rep {n : BitVec 32} {k : ℕ} (hn : n.toNat = 2 ^ k) (hk : 4 ≤ k) (hbound : n.toNat ≤ 2 ^ 30) :
    Rep (allocTable n) (Camex.allocTable (2 ^ k)) := by
  have hge : 2 ^ 4 ≤ 2 ^ k := Nat.pow_le_pow_right (by decide) hk
  have hmask : (n - 1).toNat = n.toNat - 1 := by
    rw [BitVec.toNat_sub_of_le]
    · rfl
    · show 1 ≤ n.toNat
      omega
  refine ⟨⟨by simp [allocTable], Or.inr ⟨?_, fun hzero => ?_⟩, by simpa [allocTable] using hbound⟩, ?_,
    (Slotidx.Ok.allocTable hk).toShaped⟩
  · show (List.replicate n.toNat (0 : BitVec 32)).length = (n - 1).toNat + 1
    rw [List.length_replicate, hmask]
    omega
  · have hzero' : (n - 1).toNat = 0 := by rw [show n - 1 = 0 from hzero]; rfl
    omega
  · unfold SlotidxWords.index allocTable Camex.allocTable
    rw [List.zipWith_replicate', hn]
    rfl

/-- **`slotidx_insert`** ends, with the words of the index behind the insertion. -/
theorem slotidxInsert_rep {w : SlotidxWords} {x : Slotidx} (hw : Rep w x) (hx : x.Ok) (hfew : (x.used + 1) * 2 ≤ 2 ^ 30)
    (grow : Bool) (h : BitVec 32) {slot : BitVec 32} (hslot : slot ≠ 0xFFFFFFFF#32) :
    slotidxInsert w grow h slot = some (false, w) ∨
      ∃ w' y, slotidxInsert w grow h slot = some (true, w') ∧ Camex.slotidxInsert x grow h slot.toNat = some y ∧
        Rep w' y := by
  have hbound := hw.bound
  rw [← hw.length] at hbound
  have hmask := hw.mask
  have hmaskLe : x.mask + 1 ≤ 2 ^ 30 := by
    unfold Slotidx.mask
    omega
  have hslot1 : slot + 1 ≠ 0 := fun hzero => hslot (by
    rw [← BitVec.add_sub_cancel slot 1, show slot + 1 = 0 from hzero]
    rfl)
  have hslotBack : (slot + 1 - 1).toNat = slot.toNat := congrArg BitVec.toNat (BitVec.add_sub_cancel slot 1)
  have hzero : w.mask = 0 ↔ x.mask = 0 := by
    rw [← hmask, ← BitVec.toNat_inj]
    rfl
  have hmaskNext : (w.mask + 1).toNat = x.mask + 1 := by
    rw [BitVec.toNat_add, hmask, Nat.mod_eq_of_lt]
    · rfl
    · show x.mask + 1 < 2 ^ 32
      omega
  have hfull : w.mask + 1 < (w.used + 1) * 2 ↔ x.mask + 1 < (x.used + 1) * 2 := by
    have husedNext : (w.used + 1).toNat = x.used + 1 := by
      rw [BitVec.toNat_add, hw.used, Nat.mod_eq_of_lt]
      · rfl
      · show x.used + 1 < 2 ^ 32
        omega
    have hdouble : ((w.used + 1) * 2).toNat = (x.used + 1) * 2 := by
      rw [BitVec.toNat_mul, husedNext, Nat.mod_eq_of_lt]
      · rfl
      · show (x.used + 1) * 2 < 2 ^ 32
        omega
    rw [BitVec.lt_def, hmaskNext, hdouble]
  unfold slotidxInsert Camex.slotidxInsert
  by_cases hgrow : w.mask = 0 ∨ w.mask + 1 < (w.used + 1) * 2
  · have hgrow' : x.mask = 0 ∨ x.mask + 1 < (x.used + 1) * 2 := by rwa [← hzero, ← hfull]
    rw [if_pos hgrow, if_pos hgrow']
    cases grow with
    | false => exact Or.inl rfl
    | true =>
      right
      rw [if_neg (show ¬ (!true) = true by decide), if_neg (show ¬ (!true) = true by decide)]
      obtain ⟨k, hk, hn, hbig⟩ := hx.doubled
      -- the new size: 16 buckets, or twice a power of two below 2^30
      have hsize : (if w.mask = 0 then 16 else (w.mask + 1) * 2 : BitVec 32).toNat = 2 ^ k ∧ 2 ^ k ≤ 2 ^ 30 := by
        rw [← hn]
        by_cases hnone : w.mask = 0
        · rw [if_pos hnone, if_pos (hzero.mp hnone)]
          decide
        · have hnone' : x.mask ≠ 0 := fun hxz => hnone (hzero.mpr hxz)
          have hpow : (x.mask + 1) * 2 = 2 ^ k := by rwa [if_neg hnone'] at hn
          have hlt : x.mask + 1 < 2 ^ 30 := by
            have := hgrow'.resolve_left hnone'
            omega
          have hk : k ≤ 30 := by
            have hlt' : 2 ^ k < 2 ^ 31 := by omega
            have := (Nat.pow_lt_pow_iff_right (by decide)).mp hlt'
            omega
          rw [if_neg hnone, if_neg hnone', BitVec.toNat_mul, hmaskNext, Nat.mod_eq_of_lt]
          · refine ⟨rfl, ?_⟩
            rw [hpow]
            exact Nat.pow_le_pow_right (by decide) hk
          · show (x.mask + 1) * 2 < 2 ^ 32
            omega
      have halloc := allocTable_rep hsize.1 hk (by rw [hsize.1]; exact hsize.2)
      have hge : 2 ^ 4 ≤ 2 ^ k := Nat.pow_le_pow_right (by decide) hk
      have hlen : (Camex.allocTable (2 ^ k)).buckets.length = 2 ^ k := List.length_replicate
      -- the loop goes over all the buckets, and over none when there is no table
      have hrange : (List.range (if w.mask = 0 then 0 else w.mask.toNat + 1)) = List.range x.buckets.length := by
        rw [hw.length]
        rcases hw.slot with ⟨hlen, hnone⟩ | ⟨hlen, hsome⟩
        · rw [if_pos hnone, hlen]
        · rw [if_neg hsome, hlen]
      have hall : (List.range x.buckets.length).map (bucket w.index.buckets) = x.buckets := by
        rw [hw.index]
        exact map_bucket x.buckets
      have hhalf := hx.half
      have hused := hx.used
      have hroom : (Camex.allocTable (2 ^ k)).used + taken x.buckets < (Camex.allocTable (2 ^ k)).buckets.length := by
        rw [hlen, ← hused]
        show 0 + x.used < 2 ^ k
        omega
      rw [hrange, hn]
      obtain ⟨b, hrehash, hb⟩ := rehash_rep hw.toKept (List.range x.buckets.length)
        (fun i hi => by rw [← hw.length]; exact List.mem_range.mp hi) halloc (by rw [hall]; exact hroom)
      rw [hall] at hb
      obtain ⟨hy, hyLen, hyUsed, -⟩ := (Slotidx.Ok.allocTable hk).toShaped.rehash x.buckets hroom
      have hnil : (Camex.allocTable (2 ^ k)).used = 0 := rfl
      rw [hnil, ← hused] at hyUsed
      rw [hlen] at hyLen
      have hroomY := (hyUsed.trans_lt (show 0 + x.used < 2 ^ k by omega)).trans_eq hyLen.symm
      obtain ⟨w', hput, hw', -⟩ := put_rep hb hroomY h hslot1
      rw [hslotBack] at hw'
      refine ⟨w', _, ?_, rfl, hw'⟩
      dsimp only
      rw [hrehash, Option.bind_some, hput]
      rfl
  · have hgrow' : ¬ (x.mask = 0 ∨ x.mask + 1 < (x.used + 1) * 2) := by rwa [← hzero, ← hfull]
    rw [if_neg hgrow, if_neg hgrow']
    have hmaskLen : x.mask + 1 = x.buckets.length := by
      unfold Slotidx.mask at hgrow' ⊢
      omega
    obtain ⟨w', hput, hw', -⟩ := put_rep hw (by omega) h hslot1
    rw [hslotBack] at hw'
    refine Or.inr ⟨w', _, ?_, rfl, hw'⟩
    rw [hput]
    rfl

/-! ## Reset -/

theorem bucketsLoop_rep {entries : BitVec 64} (hfew : entries.toNat < 2 ^ 29) (fuel : ℕ) {n : BitVec 32} {j : ℕ}
    (hn : n.toNat = 2 ^ j) (hj : 4 ≤ j ∧ j ≤ 30) :
    ∃ k, 4 ≤ k ∧ k ≤ 30 ∧ (bucketsLoop entries fuel n).toNat = 2 ^ k ∧
      Camex.bucketsLoop entries.toNat fuel (2 ^ j) = 2 ^ k := by
  induction fuel generalizing n j with
  | zero => exact ⟨j, hj.1, hj.2, hn, rfl⟩
  | succ fuel ih =>
    have hjle : 2 ^ j ≤ 2 ^ 30 := Nat.pow_le_pow_right (by decide) hj.2
    have hcond : (n.setWidth 64 < entries * 2 ∧ n < 0x40000000#32) ↔ (2 ^ j < entries.toNat * 2 ∧ 2 ^ j < 0x40000000) := by
      have hwide : (n.setWidth 64).toNat = 2 ^ j := by
        rw [BitVec.toNat_setWidth, hn, Nat.mod_eq_of_lt]
        omega
      have htwice : (entries * 2).toNat = entries.toNat * 2 := by
        rw [BitVec.toNat_mul, Nat.mod_eq_of_lt]
        · rfl
        · show entries.toNat * 2 < 2 ^ 64
          omega
      rw [BitVec.lt_def, BitVec.lt_def, hwide, htwice, hn]
      rfl
    unfold bucketsLoop Camex.bucketsLoop
    by_cases hmore : 2 ^ j < entries.toNat * 2 ∧ 2 ^ j < 0x40000000
    · rw [if_pos (hcond.mpr hmore), if_pos hmore, ← pow_succ]
      have hlt : j < 30 := by
        have hpow : 2 ^ j < 2 ^ 30 := hmore.2
        exact (Nat.pow_lt_pow_iff_right (by decide)).mp hpow
      refine ih ?_ ⟨by omega, by omega⟩
      rw [BitVec.toNat_shiftLeft, hn, Nat.shiftLeft_eq, pow_one, Nat.mod_eq_of_lt (by omega), pow_succ]
    · rw [if_neg fun h => hmore (hcond.mp h), if_neg hmore]
      exact ⟨j, hj.1, hj.2, hn, rfl⟩

theorem bucketsFor_rep {entries : BitVec 64} (hfew : entries.toNat < 2 ^ 29) :
    Rep (allocTable (bucketsFor entries)) (Camex.allocTable (Camex.bucketsFor entries.toNat)) ∧
      (bucketsFor entries).toNat = Camex.bucketsFor entries.toNat := by
  obtain ⟨k, hk, hle, hn, hn'⟩ := bucketsLoop_rep (n := 16) (j := 4) hfew 26 rfl ⟨le_rfl, by decide⟩
  have hfor : Camex.bucketsFor entries.toNat = 2 ^ k := hn'
  have hbound : 2 ^ k ≤ 2 ^ 30 := Nat.pow_le_pow_right (by decide) hle
  rw [hfor]
  exact ⟨allocTable_rep hn hk (by rw [show (bucketsFor entries).toNat = 2 ^ k from hn]; exact hbound), hn⟩

theorem none_rep : Rep .none Slotidx.none where
  hash := rfl
  slot := Or.inl ⟨rfl, rfl⟩
  bound := Nat.zero_le _
  index := rfl
  shaped := Slotidx.Ok.none.toShaped

/-- **`slotidx_reset`** leaves the words of the index behind the reset. -/
theorem slotidxReset_rep {w : SlotidxWords} {x : Slotidx} (hw : Rep w x) (grow : Bool) {entries : BitVec 64}
    (hfew : entries.toNat < 2 ^ 29) :
    (slotidxReset w grow entries).1 = (Camex.slotidxReset x grow entries.toNat).1 ∧
      Rep (slotidxReset w grow entries).2 (Camex.slotidxReset x grow entries.toNat).2 := by
  obtain ⟨halloc, hn⟩ := bucketsFor_rep hfew
  have hbound := hw.bound
  rw [← hw.length] at hbound
  have hmask := hw.mask
  have hmaskLe : x.mask ≤ 2 ^ 30 := by
    unfold Slotidx.mask
    omega
  have hsame : (w.mask ≠ 0 ∧ w.mask + 1 = bucketsFor entries) ↔
      (x.mask ≠ 0 ∧ x.mask + 1 = Camex.bucketsFor entries.toNat) := by
    have hnext : (w.mask + 1).toNat = x.mask + 1 := by
      rw [BitVec.toNat_add, hmask, Nat.mod_eq_of_lt]
      · rfl
      · show x.mask + 1 < 2 ^ 32
        omega
    refine and_congr (not_congr ?_) ?_
    · rw [← hmask, ← BitVec.toNat_inj]
      rfl
    · rw [← BitVec.toNat_inj, hnext, hn]
  unfold slotidxReset Camex.slotidxReset
  dsimp only
  by_cases hkeep : w.mask ≠ 0 ∧ w.mask + 1 = bucketsFor entries
  · rw [if_pos hkeep, if_pos (hsame.mp hkeep)]
    have hback : w.mask = bucketsFor entries - 1 := by
      rw [← hkeep.2]
      exact (BitVec.add_sub_cancel w.mask 1).symm
    refine ⟨rfl, ?_⟩
    rw [hback]
    exact halloc
  · rw [if_neg hkeep, if_neg fun h => hkeep (hsame.mpr h)]
    cases grow with
    | false => exact ⟨rfl, none_rep⟩
    | true => exact ⟨rfl, halloc⟩

/-! ## Lookup -/

def toLong (best : Option ℕ) : ℤ := best.elim (-1) fun slot => slot

theorem findStep_long (h : BitVec 32) (holds : BitVec 32 → Bool) (best : Option ℕ) (hash slot : BitVec 32) :
    (if hash = h ∧ (toLong best < 0 ∨ (slot.toNat : ℤ) < toLong best) ∧ holds slot = true then (slot.toNat : ℤ)
      else toLong best) =
      toLong (findStep h (fun k => holds (BitVec.ofNat 32 k)) best (hash, slot.toNat)) := by
  have hlower : (toLong best < 0 ∨ (slot.toNat : ℤ) < toLong best) ↔
      best.all (fun b => decide (slot.toNat < b)) = true := by
    cases best with
    | none => exact ⟨fun _ => rfl, fun _ => Or.inl (by decide)⟩
    | some b =>
      have hpos : ¬ toLong (some b) < 0 := by
        show ¬ (b : ℤ) < 0
        omega
      rw [or_iff_right hpos]
      simp [toLong]
  have hback : BitVec.ofNat 32 slot.toNat = slot := by simp
  unfold findStep
  simp only [hlower, hback]
  split
  · rfl
  · rfl

theorem findLoop_kept {w : SlotidxWords} (hw : Kept w) (h : BitVec 32) (holds : BitVec 32 → Bool) (fuel : ℕ)
    {i : BitVec 32} (best : Option ℕ) (hi : i.toNat < w.slot.length)
    (hempty : ∃ q ∈ List.iterate (fun i => (i + 1) &&& w.index.mask) i.toNat fuel, bucket w.index.buckets q = none) :
    findLoop w h holds fuel i (toLong best) =
      some (toLong ((((List.iterate (fun i => (i + 1) &&& w.index.mask) i.toNat fuel).takeWhile fun i =>
        (bucket w.index.buckets i).isSome).filterMap (bucket w.index.buckets)).foldl
          (findStep h fun k => holds (BitVec.ofNat 32 k)) best)) := by
  induction fuel generalizing i best with
  | zero =>
    obtain ⟨q, hq, -⟩ := hempty
    cases hq
  | succ fuel ih =>
    have hbucket := hw.bucket_eq hi
    unfold findLoop
    rw [List.iterate] at hempty ⊢
    by_cases hfree : w.slot.getD i.toNat 0 = 0
    · rw [hfree] at hbucket
      have hnone : bucket w.index.buckets i.toNat = none := hbucket
      rw [if_pos hfree, List.takeWhile_cons_of_neg (by rw [hnone]; decide)]
      rfl
    · have hsome : bucket w.index.buckets i.toNat = some (w.hash.getD i.toNat 0, (w.slot.getD i.toNat 0 - 1).toNat) := by
        rw [hbucket, bucketOf, if_neg hfree]
      rw [if_neg hfree, List.takeWhile_cons_of_pos (by rw [hsome]; rfl), List.filterMap_cons_some hsome,
        List.foldl_cons, ← hw.next hi]
      dsimp only
      rw [findStep_long]
      refine ih _ ?_ ?_
      · refine hw.and_lt ?_ _
        rcases hw.slot with ⟨hlen, -⟩ | ⟨-, hmask⟩
        · omega
        · exact hmask
      · obtain ⟨q, hq, hqnone⟩ := hempty
        rcases List.mem_cons.mp hq with rfl | hq
        · rw [hsome] at hqnone
          cases hqnone
        · exact ⟨q, by rwa [hw.next hi], hqnone⟩

/-- **`slotidx_find`** ends, with the index's answer. -/
theorem slotidxFind_rep {w : SlotidxWords} {x : Slotidx} (hw : Rep w x) (hx : x.Ok) (h : BitVec 32)
    (holds : BitVec 32 → Bool) :
    slotidxFind w h holds = some (toLong (Camex.slotidxFind x h fun k => holds (BitVec.ofNat 32 k))) := by
  have hmask := hw.mask
  unfold slotidxFind Camex.slotidxFind
  by_cases hnone : w.mask = 0
  · have hnone' : x.mask = 0 := by
      rw [← hmask, hnone]
      rfl
    rw [if_pos hnone, if_pos hnone']
    rfl
  · have hnone' : x.mask ≠ 0 := fun hzero => hnone (by
      rw [← BitVec.toNat_inj, hmask, hzero]
      rfl)
    rw [if_neg hnone, if_neg hnone']
    have hhalf := hx.half
    have hroom : x.used < x.buckets.length := by
      unfold Slotidx.mask at hnone'
      omega
    have hempty := hw.order_empty hroom h
    unfold Slotidx.order at hempty
    have hfind := findLoop_kept hw.toKept h holds (w.mask.toNat + 1) none (hw.toKept.and_lt hnone h)
      (by rwa [hw.index, hw.toKept.home, hw.index, hw.mask])
    rw [hw.toKept.home, hw.index, hw.mask] at hfind
    rw [hmask]
    exact hfind

/-! ## Any calls -/

/-- A call of an index; whether there is memory for a new table is told with it. -/
inductive Call
  | reset (grow : Bool) (entries : BitVec 64)
  | insert (grow : Bool) (h slot : BitVec 32)

/-- An index, and the pairs of a hash and a slot that were inserted since the last reset. -/
structure Indexed where
  index : SlotidxWords
  held : Finset (BitVec 32 × BitVec 32)

/-- The state behind a call; `none` when a probe does not end. -/
def callStep (s : Indexed) : Call → Option Indexed
  | .reset grow entries => some ⟨(slotidxReset s.index grow entries).2, ∅⟩
  | .insert grow h slot =>
    (slotidxInsert s.index grow h slot).map fun r => ⟨r.2, if r.1 then insert (h, slot) s.held else s.held⟩

def Indexed.start : Indexed := ⟨.none, ∅⟩

def indexMachine : Machine Indexed Call where
  start s := s = .start
  next := callStep

def Few (s : Indexed) : Call → Prop
  | .reset _ entries => entries.toNat < 2 ^ 29
  | .insert _ h slot => (insert (h, slot) s.held).card < 2 ^ 29

/-- The slot plus one is not 0, the mark of an empty bucket. -/
def HasWord : Call → Prop
  | .reset _ _ => True
  | .insert _ _ slot => slot ≠ 0xFFFFFFFF#32

/-- The answer of a lookup among the pairs that are held: the lowest slot under the hash that matches, or -1. -/
def Lowest (held : Finset (BitVec 32 × BitVec 32)) (h : BitVec 32) (holds : BitVec 32 → Bool) (answer : ℤ) : Prop :=
  (∃ slot, answer = slot.toNat ∧ (h, slot) ∈ held ∧ holds slot = true ∧
      ∀ slot', (h, slot') ∈ held → holds slot' = true → slot.toNat ≤ slot'.toNat) ∨
    answer = -1 ∧ ∀ slot, (h, slot) ∈ held → holds slot = false

/-- What a caller relies on; `fits` are the calls it may make. -/
structure IndexRight (fits : Indexed → Call → Prop) (s : Indexed) : Prop where
  lookup : ∀ h holds, ∃ answer, slotidxFind s.index h holds = some answer ∧ Lowest s.held h holds answer
  halfEmpty : (s.index.slot.countP fun slot1 => slot1 ≠ 0) * 2 ≤ s.index.slot.length
  ends : ∀ c, fits s c → (callStep s c).isSome = true
  failed : ∀ grow h slot y, slotidxInsert s.index grow h slot = some (false, y) → y = s.index
  again : ∀ grow h slot y, fits s (.insert grow h slot) → (h, slot) ∈ s.held → slotidxInsert s.index grow h slot = some (true, y) →
    y.used = s.index.used ∧ ∀ h' holds, slotidxFind y h' holds = slotidxFind s.index h' holds

/-- The index holds exactly these pairs, each in one bucket. -/
structure Holding (s : Indexed) (x : Slotidx) : Prop where
  rep : Rep s.index x
  ok : x.Ok
  single : Single x.buckets
  has : ∀ h slot, x.Has h slot ↔ ∃ slot', slot = slot'.toNat ∧ (h, slot') ∈ s.held

namespace Holding

variable {s : Indexed} {x : Slotidx}

theorem start : Holding .start .none where
  rep := none_rep
  ok := .none
  single := .replicate 0
  has h slot := ⟨fun hhas => absurd hhas (Slotidx.not_has_none h slot), by rintro ⟨_, _, hmem⟩; simp [Indexed.start] at hmem⟩

/-- The index has as many entries as there are pairs. -/
theorem card (hs : Holding s x) : x.used = s.held.card := by
  have hentries : entries x.buckets = s.held.image fun k => (k.1, k.2.toNat) := by
    ext ⟨h, slot⟩
    rw [mem_entries, Finset.mem_image]
    refine (hs.has h slot).trans ⟨?_, ?_⟩
    · rintro ⟨slot', rfl, hmem⟩
      exact ⟨(h, slot'), hmem, rfl⟩
    · rintro ⟨⟨h', slot'⟩, hmem, heq⟩
      cases heq
      exact ⟨slot', rfl, hmem⟩
  rw [hs.rep.shaped.used, hs.single, hentries, Finset.card_image_of_injective]
  rintro ⟨h, slot⟩ ⟨h', slot'⟩ heq
  have hslot := (Prod.mk.inj heq).2
  rw [BitVec.toNat_inj] at hslot
  exact Prod.ext (Prod.mk.inj heq).1 hslot

theorem lowest (hs : Holding s x) (h : BitVec 32) (holds : BitVec 32 → Bool) :
    Lowest s.held h holds (toLong (Camex.slotidxFind x h fun k => holds (BitVec.ofNat 32 k))) := by
  cases hfind : Camex.slotidxFind x h fun k => holds (BitVec.ofNat 32 k) with
  | none =>
    refine Or.inr ⟨rfl, fun slot hmem => ?_⟩
    have hno := hs.ok.find_none hfind ((hs.has h slot.toNat).mpr ⟨slot, rfl, hmem⟩)
    rwa [BitVec.ofNat_toNat, BitVec.setWidth_eq] at hno
  | some best =>
    obtain ⟨hhas, hholds, hbest⟩ := hs.ok.find_some hfind
    obtain ⟨slot, rfl, hmem⟩ := (hs.has h best).mp hhas
    rw [BitVec.ofNat_toNat, BitVec.setWidth_eq] at hholds
    refine Or.inl ⟨slot, rfl, hmem, hholds, fun slot' hmem' hholds' => ?_⟩
    exact hbest slot'.toNat ((hs.has h slot'.toNat).mpr ⟨slot', rfl, hmem'⟩)
      (by rwa [BitVec.ofNat_toNat, BitVec.setWidth_eq])

theorem reset (hs : Holding s x) (grow : Bool) {entries : BitVec 64} (hfew : entries.toNat < 2 ^ 29) :
    Holding ⟨(slotidxReset s.index grow entries).2, ∅⟩ (Camex.slotidxReset x grow entries.toNat).2 where
  rep := (slotidxReset_rep hs.rep grow hfew).2
  ok := (slotidxReset_spec x grow entries.toNat).1
  single := slotidxReset_single x grow entries.toNat
  has h slot := ⟨fun hhas => absurd hhas ((slotidxReset_spec x grow entries.toNat).2 h slot),
    by rintro ⟨_, _, hmem⟩; simp at hmem⟩

/-- An insertion fails and leaves the words as they are, or the pair is held. -/
theorem insert (hs : Holding s x) (grow : Bool) (h : BitVec 32) {slot : BitVec 32}
    (hfew : (Insert.insert (h, slot) s.held).card < 2 ^ 29) (hslot : slot ≠ 0xFFFFFFFF#32) :
    slotidxInsert s.index grow h slot = some (false, s.index) ∨
      ∃ w' y, slotidxInsert s.index grow h slot = some (true, w') ∧ Holding ⟨w', Insert.insert (h, slot) s.held⟩ y := by
  have hle : s.held.card ≤ (Insert.insert (h, slot) s.held).card := Finset.card_le_card (Finset.subset_insert _ _)
  have hused := hs.card
  rcases slotidxInsert_rep hs.rep hs.ok (by omega) grow h hslot with hfail | ⟨w', y, hinsert, hy, hrep⟩
  · exact Or.inl hfail
  · obtain ⟨hok, hhas⟩ := slotidxInsert_spec hs.ok hy
    refine Or.inr ⟨w', y, hinsert, hrep, hok, slotidxInsert_single hs.ok hs.single hy, fun h' slot' => ?_⟩
    rw [hhas, hs.has]
    constructor
    · rintro (⟨rfl, rfl⟩ | ⟨slot'', rfl, hmem⟩)
      · exact ⟨slot, rfl, Finset.mem_insert_self _ _⟩
      · exact ⟨slot'', rfl, Finset.mem_insert_of_mem hmem⟩
    · rintro ⟨slot'', rfl, hmem⟩
      rcases Finset.mem_insert.mp hmem with heq | hmem
      · cases heq
        exact Or.inl ⟨rfl, rfl⟩
      · exact Or.inr ⟨slot'', rfl, hmem⟩

end Holding

theorem Lowest.unique {held : Finset (BitVec 32 × BitVec 32)} {h : BitVec 32} {holds : BitVec 32 → Bool} {a b : ℤ}
    (ha : Lowest held h holds a) (hb : Lowest held h holds b) : a = b := by
  rcases ha with ⟨slot, rfl, hmem, hslot, hleast⟩ | ⟨rfl, hnone⟩
  · rcases hb with ⟨slot', rfl, hmem', hslot', hleast'⟩ | ⟨-, hnone⟩
    · have h₁ := hleast slot' hmem' hslot'
      have h₂ := hleast' slot hmem hslot
      omega
    · rw [hnone slot hmem] at hslot
      cases hslot
  · rcases hb with ⟨slot', -, hmem', hslot', -⟩ | ⟨rfl, -⟩
    · rw [hnone slot' hmem'] at hslot'
      cases hslot'
    · rfl

theorem slotidxInsert_failed {w y : SlotidxWords} {grow : Bool} {h slot : BitVec 32}
    (hinsert : slotidxInsert w grow h slot = some (false, y)) : y = w := by
  have hno : ∀ r : Option SlotidxWords, r.map (fun y => (true, y)) ≠ some (false, y) := by
    rintro (_ | z) heq
    · cases heq
    · cases heq
  unfold slotidxInsert at hinsert
  split at hinsert
  · split at hinsert
    · cases hinsert
      rfl
    · obtain ⟨b, -, hput⟩ := Option.bind_eq_some_iff.mp hinsert
      exact absurd hput (hno _)
  · exact absurd hinsert (hno _)

theorem countP_bucketOf (hash slot : List (BitVec 32)) (hlen : hash.length = slot.length) :
    (slot.countP fun slot1 => slot1 ≠ 0) = taken (List.zipWith bucketOf hash slot) := by
  induction slot generalizing hash with
  | nil => simp [taken]
  | cons b slot ih =>
    cases hash with
    | nil => cases hlen
    | cons a hash =>
      have hrest := ih hash (Nat.succ.inj hlen)
      unfold taken at hrest ⊢
      rw [List.zipWith_cons_cons, List.countP_cons, List.countP_cons, hrest]
      by_cases hb : b = 0
      · simp [hb, bucketOf]
      · simp [bucketOf]

/-- The calls a caller may make: fewer than 2^29 entries, and slots that fit their words. -/
def Fits (s : Indexed) (c : Call) : Prop := Few s c ∧ HasWord c

instance (s : Indexed) : ∀ c, Decidable (Few s c)
  | .reset _ entries => inferInstanceAs (Decidable (entries.toNat < 2 ^ 29))
  | .insert _ h slot => inferInstanceAs (Decidable ((insert (h, slot) s.held).card < 2 ^ 29))

instance : ∀ c, Decidable (HasWord c)
  | .reset _ _ => isTrue trivial
  | .insert _ _ slot => inferInstanceAs (Decidable (slot ≠ 0xFFFFFFFF#32))

instance (s : Indexed) (c : Call) : Decidable (Fits s c) := inferInstanceAs (Decidable (Few s c ∧ HasWord c))

theorem Holding.step {s t : Indexed} {x : Slotidx} {c : Call} (hs : Holding s x) (hc : Fits s c)
    (hstep : callStep s c = some t) : ∃ y, Holding t y := by
  cases c with
  | reset grow entries =>
    cases hstep
    exact ⟨_, hs.reset grow hc.1⟩
  | insert grow h slot =>
    obtain ⟨r, hinsert, rfl⟩ := Option.map_eq_some_iff.mp hstep
    rcases hs.insert grow h hc.1 hc.2 with hfail | ⟨w', y, hdone, hy⟩
    · rw [hinsert] at hfail
      cases hfail
      exact ⟨x, hs⟩
    · rw [hinsert] at hdone
      cases hdone
      exact ⟨y, hy⟩

theorem Holding.right {s : Indexed} {x : Slotidx} (hs : Holding s x) : IndexRight Fits s where
  lookup h holds := ⟨_, slotidxFind_rep hs.rep hs.ok h holds, hs.lowest h holds⟩
  halfEmpty := by
    have hhalf := hs.ok.half
    rw [hs.ok.used, hs.rep.length, ← hs.rep.index] at hhalf
    rw [countP_bucketOf _ _ hs.rep.hash]
    exact hhalf
  ends c hc := by
    cases c with
    | reset grow entries => rfl
    | insert grow h slot =>
      unfold callStep
      dsimp only
      rcases hs.insert grow h hc.1 hc.2 with hfail | ⟨w', y, hdone, -⟩
      · rw [hfail]
        rfl
      · rw [hdone]
        rfl
  failed _ _ _ _ hinsert := slotidxInsert_failed hinsert
  again grow h slot y hc hmem hinsert := by
    rcases hs.insert grow h hc.1 hc.2 with hfail | ⟨w', z, hdone, hz⟩
    · rw [hinsert] at hfail
      cases hfail
    · rw [hinsert] at hdone
      cases hdone
      rw [Finset.insert_eq_of_mem hmem] at hz
      refine ⟨?_, fun h' holds => ?_⟩
      · rw [← BitVec.toNat_inj, hz.rep.used, hs.rep.used, hz.card, hs.card]
      · rw [slotidxFind_rep hz.rep hz.ok, slotidxFind_rep hs.rep hs.ok,
          (hz.lowest h' holds).unique (hs.lowest h' holds)]

/-- **The index, behind any calls** with slots that fit their words. -/
theorem index_right {s : Indexed} {cs : List Call} (hrun : Machine.Steps indexMachine Fits .start cs s) :
    IndexRight Fits s := by
  obtain ⟨x, hx⟩ := hrun.preserves (I := fun s => ∃ x, Holding s x)
    (fun s c t hs hc hstep => by
      obtain ⟨x, hx⟩ := hs
      exact hx.step hc hstep) ⟨_, .start⟩
  exact hx.right

/-- Three slots, two of them under one hash, and an insertion without memory for its table. -/
def someCalls : List Call := [.insert false 7 3, .insert true 7 3, .insert true 23 1, .insert true 7 2]

theorem index_right_some : ∃ s, s.held = {(7, 3), (23, 1), (7, 2)} ∧ IndexRight Fits s := by
  have hp : (indexMachine.runUnder Fits .start someCalls).any (fun s => s.held == {(7, 3), (23, 1), (7, 2)}) = true := by
    decide +kernel
  obtain ⟨s, hs, hheld⟩ := (Option.any_eq_true _ _).mp hp
  exact ⟨s, beq_iff_eq.mp hheld, index_right (Machine.runUnder_steps hs)⟩

/-- Eight slots under one hash: half of the sixteen buckets. -/
def eightCalls : List Call := (List.range 8).map fun k => .insert true 7 (BitVec.ofNat 32 k)

/-- The slot 2^32 - 1 leaves its bucket empty: it is inserted and not found. And behind eight entries the insertion of one
that is held doubles the table. -/
theorem not_index_right :
    (¬ ∀ (s : Indexed) (cs : List Call), Machine.Steps indexMachine Few .start cs s → IndexRight Few s) ∧
      ¬ ∀ (s : Indexed) (cs : List Call), Machine.Steps indexMachine Fits .start cs s →
        ∀ grow h slot y, (h, slot) ∈ s.held → slotidxInsert s.index grow h slot = some (true, y) → y = s.index := by
  constructor
  · intro h
    have hp : (indexMachine.runUnder Few .start [.insert true 7 0xFFFFFFFF]).any (fun s =>
        decide ((7, 0xFFFFFFFF) ∈ s.held) && slotidxFind s.index 7 (fun _ => true) == some (-1)) = true := by
      decide +kernel
    obtain ⟨s, hs, hp⟩ := (Option.any_eq_true _ _).mp hp
    rw [Bool.and_eq_true, decide_eq_true_eq, beq_iff_eq] at hp
    obtain ⟨answer, hfind, hlowest⟩ := (h s _ (Machine.runUnder_steps hs)).lookup 7 fun _ => true
    rw [hp.2] at hfind
    cases hfind
    rcases hlowest with ⟨slot, hneg, -⟩ | ⟨-, hnone⟩
    · omega
    · cases hnone _ hp.1
  · intro h
    have hp : (indexMachine.runUnder Fits .start eightCalls).any (fun s =>
        decide ((7, 3) ∈ s.held) && (slotidxInsert s.index true 7 3).any fun r => r.1 && r.2 != s.index) = true := by
      decide +kernel
    obtain ⟨s, hs, hp⟩ := (Option.any_eq_true _ _).mp hp
    obtain ⟨hheld, hgrown⟩ := Bool.and_eq_true_iff.mp hp
    obtain ⟨⟨done, y⟩, hinsert, hy⟩ := (Option.any_eq_true _ _).mp hgrown
    obtain ⟨rfl, hne⟩ := Bool.and_eq_true_iff.mp hy
    exact bne_iff_ne.mp hne (h s _ (Machine.runUnder_steps hs) true 7 3 y (of_decide_eq_true hheld) hinsert)

end Camex.Words
