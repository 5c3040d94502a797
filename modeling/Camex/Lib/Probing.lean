import Mathlib.Data.List.Iterate
import Mathlib.Data.List.Count
import Mathlib.Data.Finset.Card

/-!
# Open addressing with linear probing

A table of buckets from which nothing is deleted. An entry `a` is looked for from its home `home a` on, bucket by
bucket and around the end, until an empty bucket.

* `probes N h`: the buckets in the order they are looked at; all of them (`mem_probes`);
* `NoGaps`: no empty bucket stands between the home of an entry and its bucket;
* `probePut`: the loop of an insertion, with `probePut_holds` and `probePut_noGaps`;
* `Single`: no entry is in two buckets, so `entries` are as many as the buckets taken;
* `probeRun`: the buckets a lookup looks at; every entry of a home is among them (`NoGaps.mem_run`).
-/

namespace Camex.Lib

variable {α : Type*}

/-- The bucket `i` of a table; an empty one is `none`. -/
def bucket (t : List (Option α)) (i : ℕ) : Option α := t[i]?.join

def InBuckets (t : List (Option α)) (a : α) : Prop := ∃ i, bucket t i = some a

theorem inBuckets_iff {t : List (Option α)} {a : α} : InBuckets t a ↔ some a ∈ t := by
  simp [InBuckets, bucket, Option.join_eq_some_iff, List.mem_iff_getElem?]

theorem bucket_set_self {t : List (Option α)} {i : ℕ} (h : i < t.length) (a : α) :
    bucket (t.set i (some a)) i = some a := by
  simp [bucket, h]

theorem bucket_set_of_ne {t : List (Option α)} {i j : ℕ} (h : j ≠ i) (x : Option α) :
    bucket (t.set i x) j = bucket t j := by
  simp [bucket, List.getElem?_set_ne (Ne.symm h)]

theorem map_bucket (t : List (Option α)) : (List.range t.length).map (bucket t) = t := by
  refine List.ext_getElem (by simp) fun i hi hi' => ?_
  simp [bucket, hi']

/-- The buckets in the order they are looked at for an entry of home `h`. -/
def probes (N h : ℕ) : List ℕ := List.iterate (fun i => (i + 1) % N) (h % N) N

theorem iterate_succ_mod (N h m : ℕ) : (fun i => (i + 1) % N)^[m] (h % N) = (h + m) % N := by
  induction m with
  | zero => rfl
  | succ m ih =>
    rw [Function.iterate_succ_apply', ih, Nat.mod_add_mod]
    rfl

theorem mem_probes {N p : ℕ} (hp : p < N) (h : ℕ) : p ∈ probes N h := by
  have hlt : h % N < N := Nat.mod_lt _ (by omega)
  refine List.mem_iterate.mpr ⟨(p + (N - h % N)) % N, Nat.mod_lt _ (by omega), ?_⟩
  rw [iterate_succ_mod, ← Nat.mod_add_mod h N, Nat.add_mod_mod]
  rw [show h % N + (p + (N - h % N)) = p + N by omega, Nat.add_mod_right, Nat.mod_eq_of_lt hp]

theorem lt_of_mem_probes {N p h : ℕ} (hp : p ∈ probes N h) : p < N := by
  obtain ⟨m, hm, rfl⟩ := List.mem_iterate.mp hp
  rw [iterate_succ_mod]
  exact Nat.mod_lt _ (by omega)

/-- Between the home of an entry and its bucket no bucket is empty. -/
def NoGaps (home : α → ℕ) (t : List (Option α)) : Prop :=
  ∀ p a, bucket t p = some a → ∃ as bs, probes t.length (home a) = as ++ p :: bs ∧ ∀ q ∈ as, (bucket t q).isSome = true

theorem NoGaps.replicate (home : α → ℕ) (N : ℕ) : NoGaps home (List.replicate N none) := by
  intro p a h
  have hmem : some a ∈ List.replicate N (none : Option α) := inBuckets_iff.mp ⟨p, h⟩
  cases (List.mem_replicate.mp hmem).2

/-! ## Insertion -/

/-- The loop of an insertion over the buckets `is`: an entry that is there already is left, else the first empty
bucket takes it. Whether a bucket was taken is told with the table. -/
def probePut [DecidableEq α] (t : List (Option α)) (a : α) : List ℕ → List (Option α) × Bool
  | [] => (t, false)
  | i :: is =>
    match bucket t i with
    | none => (t.set i (some a), true)
    | some b => if b = a then (t, false) else probePut t a is

theorem probePut_case [DecidableEq α] (t : List (Option α)) (a : α) (is : List ℕ) :
    (∃ as p bs, is = as ++ p :: bs ∧ (∀ q ∈ as, (bucket t q).isSome = true) ∧ bucket t p = none ∧
      probePut t a is = (t.set p (some a), true)) ∨
    (∃ p, bucket t p = some a) ∧ probePut t a is = (t, false) ∨
    ∀ q ∈ is, (bucket t q).isSome = true := by
  induction is with
  | nil => exact Or.inr (Or.inr (by simp))
  | cons i is ih =>
    cases hb : bucket t i with
    | none => exact Or.inl ⟨[], i, is, rfl, by simp, hb, by simp only [probePut, hb]⟩
    | some b =>
      by_cases hba : b = a
      · refine Or.inr (Or.inl ⟨⟨i, hba ▸ hb⟩, ?_⟩)
        simp only [probePut, hb, if_pos hba]
      · have hput : probePut t a (i :: is) = probePut t a is := by simp only [probePut, hb, if_neg hba]
        rw [hput]
        rcases ih with ⟨as, p, bs, rfl, has, hp, h⟩ | hthere | hfull
        · exact Or.inl ⟨i :: as, p, bs, rfl, by simpa [hb] using has, hp, h⟩
        · exact Or.inr (Or.inl hthere)
        · exact Or.inr (Or.inr (by simpa [hb] using hfull))

/-- An insertion of an entry into a table that has an empty bucket: the bucket it takes, if it takes one. -/
theorem probePut_home [DecidableEq α] {t : List (Option α)} {e : ℕ} (he : e < t.length) (hempty : bucket t e = none)
    (a : α) (h : ℕ) :
    (∃ as p bs, probes t.length h = as ++ p :: bs ∧ (∀ q ∈ as, (bucket t q).isSome = true) ∧ bucket t p = none ∧
      probePut t a (probes t.length h) = (t.set p (some a), true)) ∨
    (∃ p, bucket t p = some a) ∧ probePut t a (probes t.length h) = (t, false) := by
  rcases probePut_case t a (probes t.length h) with htaken | hthere | hfull
  · exact Or.inl htaken
  · exact Or.inr hthere
  · have := hfull e (mem_probes he h)
    rw [hempty] at this
    cases this

theorem probePut_noGaps [DecidableEq α] {home : α → ℕ} {t : List (Option α)} (hgaps : NoGaps home t) {e : ℕ}
    (he : e < t.length) (hempty : bucket t e = none) (a : α) :
    NoGaps home (probePut t a (probes t.length (home a))).1 := by
  rcases probePut_home he hempty a (home a) with ⟨as, p, bs, hprobes, has, hp, hput⟩ | ⟨-, hput⟩
  · rw [hput]
    have hlt : p < t.length := lt_of_mem_probes (h := home a) (by rw [hprobes]; simp)
    -- buckets that were taken still are
    have hkeep : ∀ q, (bucket t q).isSome = true → (bucket (t.set p (some a)) q).isSome = true := fun q hq => by
      rw [bucket_set_of_ne]
      · exact hq
      · rintro rfl
        rw [hp] at hq
        cases hq
    intro q b hq
    rw [List.length_set]
    by_cases hqp : q = p
    · subst hqp
      rw [bucket_set_self hlt] at hq
      cases hq
      exact ⟨as, bs, hprobes, fun r hr => hkeep r (has r hr)⟩
    · rw [bucket_set_of_ne hqp] at hq
      obtain ⟨as', bs', hprobes', has'⟩ := hgaps q b hq
      exact ⟨as', bs', hprobes', fun r hr => hkeep r (has' r hr)⟩
  · rw [hput]
    exact hgaps

theorem probePut_holds [DecidableEq α] {t : List (Option α)} {e : ℕ} (he : e < t.length) (hempty : bucket t e = none)
    (a : α) (h : ℕ) {b : α} : InBuckets (probePut t a (probes t.length h)).1 b ↔ b = a ∨ InBuckets t b := by
  rcases probePut_home he hempty a h with ⟨as, p, bs, hprobes, has, hp, hput⟩ | ⟨⟨p, hp⟩, hput⟩
  · rw [hput]
    have hlt : p < t.length := lt_of_mem_probes (h := h) (by rw [hprobes]; simp)
    constructor
    · rintro ⟨q, hq⟩
      by_cases hqp : q = p
      · subst hqp
        rw [bucket_set_self hlt] at hq
        exact Or.inl (Option.some.inj hq).symm
      · rw [bucket_set_of_ne hqp] at hq
        exact Or.inr ⟨q, hq⟩
    · rintro (rfl | ⟨q, hq⟩)
      · exact ⟨p, bucket_set_self hlt b⟩
      · refine ⟨q, ?_⟩
        rwa [bucket_set_of_ne]
        rintro rfl
        rw [hp] at hq
        cases hq
  · rw [hput]
    refine ⟨Or.inr, ?_⟩
    rintro (rfl | hb)
    · exact ⟨p, hp⟩
    · exact hb

def taken (t : List (Option α)) : ℕ := t.countP Option.isSome

theorem exists_empty {t : List (Option α)} (h : taken t < t.length) : ∃ e, e < t.length ∧ bucket t e = none := by
  by_contra hfull
  have hall : ∀ x ∈ t, x.isSome = true := by
    intro x hx
    obtain ⟨e, he, rfl⟩ := List.mem_iff_getElem.mp hx
    cases hx : t[e] with
    | some a => rfl
    | none => exact absurd ⟨e, he, by simp [bucket, List.getElem?_eq_getElem he, hx]⟩ hfull
  rw [taken, List.countP_eq_length.mpr hall] at h
  omega

theorem probePut_length [DecidableEq α] (t : List (Option α)) (a : α) (is : List ℕ) :
    (probePut t a is).1.length = t.length := by
  induction is with
  | nil => rfl
  | cons i is ih =>
    unfold probePut
    cases bucket t i with
    | none => exact List.length_set
    | some b =>
      by_cases hba : b = a
      · simp only [if_pos hba]
      · simp only [if_neg hba]
        exact ih

/-- One more bucket is taken when the insertion says so. -/
theorem probePut_taken [DecidableEq α] {t : List (Option α)} {e : ℕ} (he : e < t.length) (hempty : bucket t e = none)
    (a : α) (h : ℕ) : taken (probePut t a (probes t.length h)).1 =
      taken t + if (probePut t a (probes t.length h)).2 then 1 else 0 := by
  rcases probePut_home he hempty a h with ⟨as, p, bs, hprobes, has, hp, hput⟩ | ⟨-, hput⟩
  · rw [hput]
    have hlt : p < t.length := lt_of_mem_probes (h := h) (by rw [hprobes]; simp)
    have hold : t[p].isSome = false := by
      simp only [bucket, List.getElem?_eq_getElem hlt, Option.join_some] at hp
      rw [hp]
      rfl
    simp [taken, List.countP_set hlt, hold]
  · rw [hput]
    rfl

/-- An entry that took a bucket was in none of those before it. -/
theorem probePut_fresh [DecidableEq α] {t : List (Option α)} {a : α} {is : List ℕ} (hput : (probePut t a is).2 = true)
    {as bs : List ℕ} {q : ℕ} (his : is = as ++ q :: bs) (has : ∀ i ∈ as, (bucket t i).isSome = true) :
    bucket t q ≠ some a := by
  induction as generalizing is with
  | nil =>
    subst his
    intro hq
    rw [List.nil_append, probePut, hq] at hput
    simp at hput
  | cons i as ih =>
    subst his
    obtain ⟨b, hb⟩ := Option.isSome_iff_exists.mp (has i List.mem_cons_self)
    rw [List.cons_append, probePut, hb] at hput
    dsimp only at hput
    split at hput
    · cases hput
    · exact ih hput rfl fun j hj => has j (List.mem_cons_of_mem _ hj)

def entries [DecidableEq α] (t : List (Option α)) : Finset α := (t.filterMap id).toFinset

theorem mem_entries [DecidableEq α] {t : List (Option α)} {a : α} : a ∈ entries t ↔ InBuckets t a := by
  rw [inBuckets_iff]
  simp [entries]

def Single [DecidableEq α] (t : List (Option α)) : Prop := taken t = (entries t).card

theorem Single.replicate [DecidableEq α] (N : ℕ) : Single (List.replicate N (none : Option α)) := by
  have htaken : taken (List.replicate N (none : Option α)) = 0 := by simp [taken, List.countP_replicate]
  have hnone : entries (List.replicate N (none : Option α)) = ∅ := by
    refine Finset.eq_empty_of_forall_notMem fun a ha => ?_
    obtain ⟨i, hi⟩ := mem_entries.mp ha
    cases (List.mem_replicate.mp (inBuckets_iff.mp ⟨i, hi⟩)).2
  rw [Single, htaken, hnone, Finset.card_empty]

theorem probePut_single [DecidableEq α] {home : α → ℕ} {t : List (Option α)} (hgaps : NoGaps home t) (hs : Single t)
    {e : ℕ} (he : e < t.length) (hempty : bucket t e = none) (a : α) :
    Single (probePut t a (probes t.length (home a))).1 := by
  have hentries : entries (probePut t a (probes t.length (home a))).1 = insert a (entries t) := by
    ext b
    rw [mem_entries, probePut_holds he hempty, Finset.mem_insert, mem_entries]
  have htaken := probePut_taken he hempty a (home a)
  unfold Single at hs ⊢
  rw [hentries, htaken, hs]
  by_cases hput : (probePut t a (probes t.length (home a))).2 = true
  · have hnew : a ∉ entries t := by
      intro ha
      obtain ⟨p, hp⟩ := mem_entries.mp ha
      obtain ⟨as, bs, hprobes, has⟩ := hgaps p a hp
      exact probePut_fresh hput hprobes has hp
    rw [if_pos hput, Finset.card_insert_of_notMem hnew]
  · have hold : a ∈ entries t := by
      rcases probePut_home he hempty a (home a) with ⟨as, p, bs, -, -, -, h⟩ | ⟨hthere, -⟩
      · rw [h] at hput
        exact absurd rfl hput
      · exact mem_entries.mpr hthere
    rw [if_neg hput, Finset.insert_eq_of_mem hold]
    rfl

/-! ## Lookup -/

/-- The buckets that a lookup from home `h` looks at: up to the first empty one. -/
def probeRun (t : List (Option α)) (h : ℕ) : List α :=
  ((probes t.length h).takeWhile fun i => (bucket t i).isSome).filterMap (bucket t)

theorem mem_run {t : List (Option α)} {h : ℕ} {a : α} (ha : a ∈ probeRun t h) : InBuckets t a := by
  obtain ⟨i, -, hi⟩ := List.mem_filterMap.mp ha
  exact ⟨i, hi⟩

theorem NoGaps.mem_run {home : α → ℕ} {t : List (Option α)} (hgaps : NoGaps home t) {a : α} (ha : InBuckets t a) :
    a ∈ probeRun t (home a) := by
  obtain ⟨p, hp⟩ := ha
  obtain ⟨as, bs, hprobes, has⟩ := hgaps p a hp
  refine List.mem_filterMap.mpr ⟨p, ?_, hp⟩
  rw [hprobes, List.takeWhile_append_of_pos has, List.takeWhile_cons_of_pos (by simp [hp])]
  simp

end Camex.Lib
