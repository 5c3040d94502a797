import Mathlib.Data.List.Infix
import Camex.Concrete
import Camex.KeystoreIndex

/-!
# Keystore queries are scans

* `KeyIndexed`, `OwnerIndexed`: what the two indexes hold when the entries before `k` are in them;
* `ksFindKey_eq`: a lookup by key is a scan of those entries, also while the index is built;
* `indexEntries_indexed`: the loop;
* `keystoreQueries_right`: the queries of a keystore that was built.
-/

namespace Camex

open Lib

/-- An entry that a key may be used with. -/
def usable (key : Key) (e : KeystoreEntry) : Bool := !e.locked && e.pskKey == key

theorem usable_iff {key : Key} {e : KeystoreEntry} : usable key e = true ↔ e.locked = false ∧ e.pskKey = key := by
  unfold usable
  rw [Bool.and_eq_true, Bool.not_eq_true', beq_iff_eq]

/-- The first entry with a key. -/
structure IsFirst (es : List KeystoreEntry) (key : Key) (slot : ℕ) : Prop where
  here : ∃ e, es[slot]? = some e ∧ usable key e = true
  before : ∀ j < slot, ∀ e, es[j]? = some e → usable key e = false

theorem IsFirst.unique {es : List KeystoreEntry} {key : Key} {i j : ℕ} (hi : IsFirst es key i)
    (hj : IsFirst es key j) : i = j := by
  obtain ⟨e, he, hue⟩ := hi.here
  obtain ⟨d, hd, hud⟩ := hj.here
  rcases Nat.lt_trichotomy i j with hlt | heq | hlt
  · rw [hj.before i hlt e he] at hue
    cases hue
  · exact heq
  · rw [hi.before j hlt d hd] at hud
    cases hud

theorem isFirst_iff {es : List KeystoreEntry} {key : Key} {slot : ℕ} :
    es.findIdx? (usable key) = some slot ↔ IsFirst es key slot := by
  rw [List.findIdx?_eq_some_iff_getElem]
  constructor
  · rintro ⟨hlt, hhere, hbefore⟩
    refine ⟨⟨es[slot], List.getElem?_eq_getElem hlt, hhere⟩, fun j hj e he => ?_⟩
    obtain ⟨hjlt, rfl⟩ := List.getElem?_eq_some_iff.mp he
    exact Bool.eq_false_iff.mpr (hbefore j hj)
  · rintro ⟨⟨e, he, hhere⟩, hbefore⟩
    obtain ⟨hlt, rfl⟩ := List.getElem?_eq_some_iff.mp he
    exact ⟨hlt, hhere, fun j hj => Bool.eq_false_iff.mp (hbefore j hj _ (List.getElem?_eq_getElem _))⟩

theorem exists_isFirst {es : List KeystoreEntry} {key : Key} {i : ℕ} {e : KeystoreEntry} (he : es[i]? = some e)
    (hu : usable key e = true) : ∃ slot ≤ i, IsFirst es key slot := by
  cases hfind : es.findIdx? (usable key) with
  | none =>
    rw [List.findIdx?_eq_none_iff.mp hfind e (List.mem_of_getElem? he)] at hu
    cases hu
  | some slot =>
    have hfirst := isFirst_iff.mp hfind
    refine ⟨slot, ?_, hfirst⟩
    by_contra hlt
    rw [hfirst.before i (by omega) e he] at hu
    cases hu

namespace IndexedKeystore

/-! ## The index by key -/

/-- The index by key of the entries before `k`: each key under its first entry. -/
structure KeyIndexed (es : List KeystoreEntry) (k : ℕ) (x : Slotidx) : Prop where
  ok : x.Ok
  has : ∀ h slot, x.Has h slot ↔ slot < k ∧ ∃ key, h = slotidxHashBytes (keyBytes key) ∧ IsFirst es key slot

/-- The index by owner of the entries before `k`. -/
structure OwnerIndexed (es : List KeystoreEntry) (k : ℕ) (x : Slotidx) : Prop where
  ok : x.Ok
  has : ∀ h slot, x.Has h slot ↔
    slot < k ∧ ∃ e, es[slot]? = some e ∧ e.owner ≠ [] ∧ h = slotidxHashNocase e.owner

theorem ksKeyMatch_iff {ks : IndexedKeystore} {key : Key} {owner : Option CStr} {below : Option ℕ} {slot : ℕ} :
    ks.ksKeyMatch key owner below slot = true ↔ (∀ b ∈ below, slot < b) ∧
      ∃ e, ks.entries[slot]? = some e ∧ usable key e = true ∧ ∀ o ∈ owner, strcaseeq e.owner o = true := by
  unfold ksKeyMatch usable
  rw [Bool.and_eq_true, Option.all_eq_true, Option.any_eq_true]
  simp only [decide_eq_true_eq, Bool.and_eq_true, Option.all_eq_true, and_assoc]
  rfl

/-- A lookup by key answers the first entry with the key, if the owner is right. -/
theorem ksFindKey_some {ks : IndexedKeystore} {k : ℕ} (hks : KeyIndexed ks.entries k ks.byKey) {key : Key}
    {owner : Option CStr} {below : Option ℕ} {slot : ℕ} :
    ks.ksFindKey key owner below = some slot ↔ slot < k ∧ (∀ b ∈ below, slot < b) ∧ IsFirst ks.entries key slot ∧
      ∃ e, ks.entries[slot]? = some e ∧ ∀ o ∈ owner, strcaseeq e.owner o = true := by
  -- of the slots under the hash of a key only the first entry with that key matches
  have hfirst : ∀ s, ks.byKey.Has (slotidxHashBytes (keyBytes key)) s → ks.ksKeyMatch key owner below s = true →
      s < k ∧ (∀ b ∈ below, s < b) ∧ IsFirst ks.entries key s ∧
        ∃ e, ks.entries[s]? = some e ∧ ∀ o ∈ owner, strcaseeq e.owner o = true := by
    intro s hhas hmatch
    obtain ⟨hlt, key', -, hfirst⟩ := (hks.has _ _).mp hhas
    obtain ⟨hbelow, e, he, hu, howner⟩ := ksKeyMatch_iff.mp hmatch
    obtain ⟨e', he', hu'⟩ := hfirst.here
    rw [he] at he'
    obtain rfl := Option.some.inj he'
    have hkey : key' = key := (usable_iff.mp hu').2.symm.trans (usable_iff.mp hu).2
    rw [hkey] at hfirst
    exact ⟨hlt, hbelow, hfirst, e, he, howner⟩
  constructor
  · intro hfind
    obtain ⟨hhas, hmatch, -⟩ := hks.ok.find_some hfind
    exact hfirst slot hhas hmatch
  · rintro ⟨hlt, hbelow, hslot, e, he, howner⟩
    have hhas : ks.byKey.Has (slotidxHashBytes (keyBytes key)) slot := (hks.has _ _).mpr ⟨hlt, key, rfl, hslot⟩
    obtain ⟨e', he', hu⟩ := hslot.here
    have hmatch : ks.ksKeyMatch key owner below slot = true := by
      rw [he] at he'
      obtain rfl := Option.some.inj he'
      exact ksKeyMatch_iff.mpr ⟨hbelow, e, he, hu, howner⟩
    cases hfind : ks.ksFindKey key owner below with
    | none =>
      rw [hks.ok.find_none hfind hhas] at hmatch
      cases hmatch
    | some s =>
      obtain ⟨hhas', hmatch', -⟩ := hks.ok.find_some hfind
      rw [(hfirst s hhas' hmatch').2.2.1.unique hslot]

/-- While the index is built, a lookup tells whether an entry before has the key. -/
theorem ksFindKey_building {ks : IndexedKeystore} {k : ℕ} (hks : KeyIndexed ks.entries k ks.byKey) (key : Key) :
    (ks.ksFindKey key none (some k)).isSome = true ↔ ∃ slot < k, IsFirst ks.entries key slot := by
  rw [Option.isSome_iff_exists]
  refine exists_congr fun slot => ?_
  rw [ksFindKey_some hks]
  constructor
  · rintro ⟨hlt, -, hfirst, -⟩
    exact ⟨hlt, hfirst⟩
  · rintro ⟨hlt, hfirst⟩
    obtain ⟨e, he, -⟩ := hfirst.here
    exact ⟨hlt, fun b hb => Option.some.inj hb ▸ hlt, hfirst, e, he, (fun o ho => nomatch ho)⟩

/-! ## The loop -/

/-- An entry that is left out: nothing is to be found in its slot. -/
theorem has_skip {x : Slotidx} {R : BitVec 32 → ℕ → Prop} {i : ℕ} (hx : ∀ h slot, x.Has h slot ↔ slot < i ∧ R h slot)
    (hno : ∀ h, ¬ R h i) (h : BitVec 32) (slot : ℕ) : x.Has h slot ↔ slot < i + 1 ∧ R h slot := by
  rw [hx]
  constructor
  · rintro ⟨hlt, hr⟩
    exact ⟨by omega, hr⟩
  · rintro ⟨hlt, hr⟩
    rcases Nat.lt_succ_iff_lt_or_eq.mp hlt with hlt | rfl
    · exact ⟨hlt, hr⟩
    · exact absurd hr (hno h)

theorem has_insert {x x' : Slotidx} {R : BitVec 32 → ℕ → Prop} {i : ℕ} {hash : BitVec 32}
    (hx : ∀ h slot, x.Has h slot ↔ slot < i ∧ R h slot)
    (hinsert : ∀ h slot, x'.Has h slot ↔ (h = hash ∧ slot = i) ∨ x.Has h slot) (hat : ∀ h, R h i ↔ h = hash)
    (h : BitVec 32) (slot : ℕ) : x'.Has h slot ↔ slot < i + 1 ∧ R h slot := by
  rw [hinsert, hx]
  constructor
  · rintro (⟨rfl, rfl⟩ | ⟨hlt, hr⟩)
    · exact ⟨Nat.lt_succ_self _, (hat _).mpr rfl⟩
    · exact ⟨by omega, hr⟩
  · rintro ⟨hlt, hr⟩
    rcases Nat.lt_succ_iff_lt_or_eq.mp hlt with hlt | rfl
    · exact Or.inr ⟨hlt, hr⟩
    · exact Or.inl ⟨(hat h).mp hr, rfl⟩

theorem indexKey_indexed {ks ks' : IndexedKeystore} {grow : Bool} {e : KeystoreEntry} {i : ℕ}
    (hks : KeyIndexed ks.entries i ks.byKey) (he : ks.entries[i]? = some e) (h : ks.indexKey grow e i = some ks') :
    ks'.entries = ks.entries ∧ ks'.byOwner = ks.byOwner ∧ KeyIndexed ks.entries (i + 1) ks'.byKey := by
  have hhere : ∀ {key : Key}, IsFirst ks.entries key i → key = e.pskKey ∧ e.locked = false := by
    intro key hfirst
    obtain ⟨e', he', hu⟩ := hfirst.here
    rw [he] at he'
    obtain rfl := Option.some.inj he'
    exact ⟨(usable_iff.mp hu).2.symm, (usable_iff.mp hu).1⟩
  unfold indexKey at h
  by_cases hskip : (e.locked || (ks.ksFindKey e.pskKey none (some i)).isSome) = true
  · rw [if_pos hskip] at h
    obtain rfl := Option.some.inj h
    refine ⟨rfl, rfl, hks.ok, has_skip hks.has ?_⟩
    rintro h ⟨key, -, hfirst⟩
    obtain ⟨rfl, hlocked⟩ := hhere hfirst
    rw [hlocked, Bool.false_or] at hskip
    obtain ⟨j, hj, hfirst'⟩ := (ksFindKey_building hks e.pskKey).mp hskip
    rw [hfirst'.unique hfirst] at hj
    exact lt_irrefl _ hj
  · rw [if_neg hskip] at h
    obtain ⟨x, hinsert, rfl⟩ := Option.map_eq_some_iff.mp h
    obtain ⟨hok, hhas⟩ := slotidxInsert_spec hks.ok hinsert
    rw [Bool.or_eq_true, not_or, Bool.not_eq_true] at hskip
    have hfirst : IsFirst ks.entries e.pskKey i := by
      obtain ⟨slot, hle, hslot⟩ := exists_isFirst he (usable_iff.mpr ⟨hskip.1, rfl⟩)
      rcases Nat.lt_or_eq_of_le hle with hlt | rfl
      · exact absurd ((ksFindKey_building hks e.pskKey).mpr ⟨slot, hlt, hslot⟩) hskip.2
      · exact hslot
    refine ⟨rfl, rfl, hok, has_insert hks.has hhas fun h => ⟨?_, fun hh => ⟨e.pskKey, hh, hfirst⟩⟩⟩
    rintro ⟨key, rfl, hkey⟩
    rw [(hhere hkey).1]

theorem indexOwner_indexed {ks ks' : IndexedKeystore} {grow : Bool} {e : KeystoreEntry} {i : ℕ}
    (hks : OwnerIndexed ks.entries i ks.byOwner) (he : ks.entries[i]? = some e)
    (h : ks.indexOwner grow e i = some ks') :
    ks'.entries = ks.entries ∧ ks'.byKey = ks.byKey ∧ OwnerIndexed ks.entries (i + 1) ks'.byOwner := by
  unfold indexOwner at h
  by_cases howner : e.owner = []
  · rw [if_pos howner] at h
    obtain rfl := Option.some.inj h
    refine ⟨rfl, rfl, hks.ok, has_skip hks.has ?_⟩
    rintro h ⟨e', he', hne, -⟩
    rw [he] at he'
    obtain rfl := Option.some.inj he'
    exact hne howner
  · rw [if_neg howner] at h
    obtain ⟨x, hinsert, rfl⟩ := Option.map_eq_some_iff.mp h
    obtain ⟨hok, hhas⟩ := slotidxInsert_spec hks.ok hinsert
    refine ⟨rfl, rfl, hok, has_insert hks.has hhas fun h => ⟨?_, fun hh => ⟨e, he, howner, hh⟩⟩⟩
    rintro ⟨e', he', -, rfl⟩
    rw [he] at he'
    obtain rfl := Option.some.inj he'
    rfl

/-- Both indexes over all entries. -/
structure Indexed (ks : IndexedKeystore) : Prop where
  key : KeyIndexed ks.entries ks.entries.length ks.byKey
  owner : OwnerIndexed ks.entries ks.entries.length ks.byOwner

theorem KeyIndexed.all {es : List KeystoreEntry} {k : ℕ} {x : Slotidx} (hx : KeyIndexed es k x) (hk : es.length ≤ k) :
    KeyIndexed es es.length x := by
  refine ⟨hx.ok, fun h slot => (hx.has h slot).trans ⟨fun ⟨_, key, hh, hfirst⟩ => ⟨?_, key, hh, hfirst⟩,
    fun ⟨hlt, hrest⟩ => ⟨by omega, hrest⟩⟩⟩
  obtain ⟨e, he, -⟩ := hfirst.here
  exact (List.getElem?_eq_some_iff.mp he).1

theorem OwnerIndexed.all {es : List KeystoreEntry} {k : ℕ} {x : Slotidx} (hx : OwnerIndexed es k x)
    (hk : es.length ≤ k) : OwnerIndexed es es.length x := by
  refine ⟨hx.ok, fun h slot => (hx.has h slot).trans ⟨fun ⟨_, e, he, hrest⟩ => ⟨?_, e, he, hrest⟩,
    fun ⟨hlt, hrest⟩ => ⟨by omega, hrest⟩⟩⟩
  exact (List.getElem?_eq_some_iff.mp he).1

/-- **The loop**: both indexes hold the entries before the one that is next. -/
theorem indexEntries_indexed {grow : ℕ → Bool × Bool} {es : List KeystoreEntry} {ks ks' : IndexedKeystore} {i : ℕ}
    (hkey : KeyIndexed ks.entries i ks.byKey) (howner : OwnerIndexed ks.entries i ks.byOwner)
    (hes : ks.entries.drop i = es) (h : indexEntries grow ks (es.zipIdx i) = some ks') :
    ks'.entries = ks.entries ∧ ks'.Indexed := by
  induction es generalizing ks i with
  | nil =>
    have hlen : ks.entries.length ≤ i := List.drop_eq_nil_iff.mp hes
    obtain rfl := Option.some.inj h
    exact ⟨rfl, hkey.all hlen, howner.all hlen⟩
  | cons e es ih =>
    have he : ks.entries[i]? = some e := by
      rw [← List.head?_drop, hes]
      rfl
    have hrest : ks.entries.drop (i + 1) = es := by
      rw [← List.tail_drop, hes]
      rfl
    obtain ⟨ks₁, h₁, h⟩ := Option.bind_eq_some_iff.mp h
    obtain ⟨ks₂, h₂, h⟩ := Option.bind_eq_some_iff.mp h
    obtain ⟨hentries₁, hsame₁, hkey₁⟩ := indexKey_indexed hkey he h₁
    rw [← hentries₁] at hkey₁ howner he
    rw [← hsame₁] at howner
    obtain ⟨hentries₂, hsame₂, howner₂⟩ := indexOwner_indexed howner he h₂
    rw [← hentries₂] at hkey₁ howner₂
    rw [← hsame₂] at hkey₁
    obtain ⟨hentries, hindexed⟩ := ih hkey₁ howner₂ (by rw [hentries₂, hentries₁, hrest]) h
    exact ⟨hentries.trans (hentries₂.trans hentries₁), hindexed⟩

/-! ## The queries -/

section Queries

variable {ks : IndexedKeystore} (hks : ks.Indexed)

include hks

theorem ksFindKey_scan (key : Key) : ks.ksFindKey key none none = ks.entries.findIdx? (usable key) := by
  refine Option.ext fun slot => ?_
  rw [ksFindKey_some hks.key, isFirst_iff]
  constructor
  · rintro ⟨-, -, hfirst, -⟩
    exact hfirst
  · intro hfirst
    obtain ⟨e, he, -⟩ := hfirst.here
    exact ⟨(List.getElem?_eq_some_iff.mp he).1, (fun b hb => nomatch hb), hfirst, e, he, (fun o ho => nomatch ho)⟩

theorem configKsOwner_scan (key : Key) :
    ks.configKsOwner key = (ks.entries.find? (usable key)).elim [] KeystoreEntry.owner := by
  unfold configKsOwner
  rw [ksFindKey_scan hks]
  cases hfind : ks.entries.findIdx? (usable key) with
  | none => rw [List.find?_eq_none.mpr fun e he => Bool.eq_false_iff.mp (List.findIdx?_eq_none_iff.mp hfind e he)]; rfl
  | some i =>
    have hfirst := isFirst_iff.mp hfind
    obtain ⟨e, he, hu⟩ := hfirst.here
    obtain ⟨hlt, hget⟩ := List.getElem?_eq_some_iff.mp he
    have hscan : ks.entries.find? (usable key) = some e := by
      refine List.find?_eq_some_iff_getElem.mpr ⟨hu, i, hlt, hget, fun j hj => ?_⟩
      rw [hfirst.before j hj _ (List.getElem?_eq_getElem _)]
      rfl
    rw [hscan]
    dsimp only
    rewrite [he]
    rfl

def GlobalFirst (es : List KeystoreEntry) : Prop := ∀ (i : ℕ) (e : KeystoreEntry), es[i]? = some e → e.owner = [] → i = 0

theorem configKsIsGlobal_scan (hglobal : GlobalFirst ks.entries) (key : Key) :
    ks.configKsIsGlobal key = ks.entries.any fun e => usable key e && e.owner == [] := by
  unfold configKsIsGlobal
  rw [Bool.eq_iff_iff, Option.isSome_iff_exists, List.any_eq_true]
  constructor
  · rintro ⟨slot, hfind⟩
    obtain ⟨-, -, hfirst, e, he, howner⟩ := (ksFindKey_some hks.key).mp hfind
    obtain ⟨e', he', hu⟩ := hfirst.here
    rw [he] at he'
    obtain rfl := Option.some.inj he'
    refine ⟨e, List.mem_of_getElem? he, ?_⟩
    rw [hu, strcaseeq_nil.mp (howner [] rfl)]
    rfl
  · rintro ⟨e, hmem, hmatch⟩
    rw [Bool.and_eq_true, beq_iff_eq] at hmatch
    obtain ⟨i, he⟩ := List.mem_iff_getElem?.mp hmem
    have hi := hglobal i e he hmatch.2
    rw [hi] at he
    refine ⟨0, (ksFindKey_some hks.key).mpr ⟨(List.getElem?_eq_some_iff.mp he).1, (fun b hb => nomatch hb),
      ⟨⟨e, he, hmatch.1⟩, fun j hj => absurd hj (Nat.not_lt_zero j)⟩, e, he, ?_⟩⟩
    intro o ho
    rw [← Option.some.inj ho, hmatch.2]
    rfl

theorem ownerFind_scan (owner : CStr) (key : Option Key) :
    (slotidxFind ks.byOwner (slotidxHashNocase owner) (ks.ksOwnerMatch owner key)).isSome =
      ks.entries.any fun e => e.owner != [] && strcaseeq e.owner owner && key.all fun k => usable k e := by
  rw [Bool.eq_iff_iff, Option.isSome_iff_exists, List.any_eq_true]
  constructor
  · rintro ⟨slot, hfind⟩
    obtain ⟨-, hmatch, -⟩ := hks.owner.ok.find_some hfind
    obtain ⟨e, he, hmatch⟩ := (Option.any_eq_true _ _).mp hmatch
    exact ⟨e, List.mem_of_getElem? he, hmatch⟩
  · rintro ⟨e, hmem, hmatch⟩
    obtain ⟨i, he⟩ := List.mem_iff_getElem?.mp hmem
    have hparts := hmatch
    rw [Bool.and_eq_true, Bool.and_eq_true, bne_iff_ne] at hparts
    have hhas : ks.byOwner.Has (slotidxHashNocase owner) i := (hks.owner.has _ _).mpr
      ⟨(List.getElem?_eq_some_iff.mp he).1, e, he, hparts.1.1,
        (slotidxHashNocase_congr hparts.1.2).symm⟩
    cases hfind : slotidxFind ks.byOwner (slotidxHashNocase owner) (ks.ksOwnerMatch owner key) with
    | some slot => exact ⟨slot, rfl⟩
    | none =>
      have hno := hks.owner.ok.find_none hfind hhas
      unfold ksOwnerMatch at hno
      rw [he, Option.any_some] at hno
      exact absurd (hmatch.symm.trans hno) (by decide)

end Queries

/-! ## A keystore that was built -/

section Build

variable {Hs : Type} {N : Noise Hs} {keys : KeyMemory}

theorem sectionEntries_owned {clients : List ServerProfile} (hids : ∀ c ∈ clients, c.clientId ≠ [])
    {es : List KeystoreEntry} (h : sectionEntries N keys clients = some es) : ∀ e ∈ es, e.owner ≠ [] := by
  induction clients generalizing es with
  | nil =>
    obtain rfl := Option.some.inj h
    exact fun e he => nomatch he
  | cons c cs ih =>
    have hrest := fun {es} => @ih (fun d hd => hids d (List.mem_cons_of_mem _ hd)) es
    unfold sectionEntries at h
    split at h
    · exact hrest h
    · split at h
      · cases h
      · obtain ⟨es', hes', rfl⟩ := Option.map_eq_some_iff.mp h
        refine List.forall_mem_cons.mpr ⟨?_, hrest hes'⟩
        rw [keystoreEntryOf_owner]
        intro hnil
        have hid := hids c List.mem_cons_self
        cases hc : c.clientId with
        | nil => exact hid hc
        | cons b id =>
          rw [hc] at hnil
          cases hnil

theorem configBuildKeystore_built {mem : StoreMemory} {ctx : CryptoCtx} {clients : List ServerProfile}
    (hids : ∀ c ∈ clients, c.clientId ≠ []) {ks : IndexedKeystore}
    (h : configBuildKeystore N keys mem ctx clients = some ks) : ks.Indexed ∧ GlobalFirst ks.entries ∧
      (ctx.ready = true → ∃ es, sectionEntries N keys clients = some es ∧ ks.entries = globalEntries ctx ++ es) := by
  unfold configBuildKeystore at h
  by_cases hready : (!ctx.ready) = true
  · rw [if_pos hready] at h
    obtain rfl := Option.some.inj h
    refine ⟨⟨⟨Slotidx.Ok.none, fun h slot => ⟨fun hhas => absurd hhas (Slotidx.not_has_none h slot), ?_⟩⟩,
      ⟨Slotidx.Ok.none, fun h slot => ⟨fun hhas => absurd hhas (Slotidx.not_has_none h slot), ?_⟩⟩⟩, ?_, ?_⟩
    · exact fun ⟨hlt, _⟩ => absurd hlt (Nat.not_lt_zero slot)
    · exact fun ⟨hlt, _⟩ => absurd hlt (Nat.not_lt_zero slot)
    · exact fun i e he => nomatch he
    · intro hr
      rw [hr] at hready
      cases hready
  · rw [if_neg hready] at h
    dsimp only at h
    split at h
    · obtain ⟨es, hes, h⟩ := Option.bind_eq_some_iff.mp h
      obtain ⟨ks', hbuilt, h⟩ := Option.bind_eq_some_iff.mp h
      have hsame : ks' = ks := by
        split at h
        · cases h
        · exact Option.some.inj h
      rw [hsame] at hbuilt
      obtain ⟨hkeyOk, hkeyNone⟩ := slotidxReset_spec .none mem.byKey (clients.length + 1)
      obtain ⟨hownerOk, hownerNone⟩ := slotidxReset_spec .none mem.byOwner (clients.length + 1)
      obtain ⟨hentries, hindexed⟩ := @indexEntries_indexed mem.grow (globalEntries ctx ++ es)
        ⟨globalEntries ctx ++ es, (slotidxReset .none mem.byKey (clients.length + 1)).2,
          (slotidxReset .none mem.byOwner (clients.length + 1)).2⟩ ks 0
        ⟨hkeyOk, fun h slot => ⟨fun hhas => absurd hhas (hkeyNone h slot),
          fun ⟨hlt, _⟩ => absurd hlt (Nat.not_lt_zero slot)⟩⟩
        ⟨hownerOk, fun h slot => ⟨fun hhas => absurd hhas (hownerNone h slot),
          fun ⟨hlt, _⟩ => absurd hlt (Nat.not_lt_zero slot)⟩⟩ rfl hbuilt
      refine ⟨hindexed, ?_, fun _ => ⟨es, hes, hentries⟩⟩
      rw [hentries]
      intro i e he howner
      dsimp only at he
      unfold globalEntries at he
      split at he
      · cases i with
        | zero => rfl
        | succ i => exact absurd howner (sectionEntries_owned hids hes e (List.mem_of_getElem? he))
      · exact absurd howner (sectionEntries_owned hids hes e (List.mem_of_getElem? he))
    · cases h

/-- The queries are scans of the entries; the global key is entry 0, and no other entry is without an owner. -/
structure QueriesRight (ctx : CryptoCtx) (ks : IndexedKeystore) : Prop where
  owner : ∀ key, ks.configKsOwner key = (ks.entries.find? (usable key)).elim [] KeystoreEntry.owner
  find : ∀ key, ks.configKsFind key = ks.entries.findIdx? (usable key)
  contains : ∀ key, ks.configKsContains key = ks.entries.any (usable key)
  isGlobal : ∀ key, ks.configKsIsGlobal key = ks.entries.any fun e => usable key e && e.owner == []
  hasOwner : ∀ id, ks.configKsHasOwner id =
    (id != [] && ks.entries.any fun e => e.owner != [] && strcaseeq e.owner id)
  keyOwnedBy : ∀ key id, ks.configKsKeyOwnedBy key id =
    (id != [] && ks.entries.any fun e => e.owner != [] && strcaseeq e.owner id && usable key e)
  global : ctx.ready = true → ctx.hasGlobal = true → ks.entries.head? = some ⟨ctx.pskKey, [], false⟩
  globalFirst : GlobalFirst ks.entries

/-- **Keystore queries are scans.** -/
theorem keystoreQueries_right {mem : StoreMemory} {ctx : CryptoCtx} {clients : List ServerProfile}
    (hids : ∀ c ∈ clients, c.clientId ≠ []) {ks : IndexedKeystore}
    (h : configBuildKeystore N keys mem ctx clients = some ks) : QueriesRight ctx ks := by
  obtain ⟨hindexed, hglobal, hready⟩ := configBuildKeystore_built hids h
  constructor
  · exact configKsOwner_scan hindexed
  · exact ksFindKey_scan hindexed
  · intro key
    unfold configKsContains
    rw [ksFindKey_scan hindexed, List.findIdx?_isSome]
  · exact configKsIsGlobal_scan hindexed hglobal
  · intro id
    unfold configKsHasOwner
    rw [ownerFind_scan hindexed]
    simp
  · intro key id
    unfold configKsKeyOwnedBy
    rw [ownerFind_scan hindexed]
    simp
  · intro hr hg
    obtain ⟨es, -, hentries⟩ := hready hr
    rw [hentries, globalEntries, if_pos hg]
    rfl
  · exact hglobal

/-! ## The keystore of the server's model -/

theorem sectionEntries_eq {clients : List ServerProfile} {es : List KeystoreEntry}
    (h : sectionEntries N keys clients = some es) :
    es = (clients.filter fun p => p.active && p.profile.psk != []).map (keystoreEntryOf N keys) := by
  induction clients generalizing es with
  | nil =>
    obtain rfl := Option.some.inj h
    rfl
  | cons c cs ih =>
    unfold sectionEntries at h
    by_cases hskip : (!c.active || c.profile.psk == []) = true
    · rw [if_pos hskip] at h
      rw [List.filter_cons_of_neg (by rw [Bool.or_eq_true] at hskip; rcases hskip with h | h <;> simp_all), ih h]
    · rw [if_neg hskip] at h
      split at h
      · cases h
      · obtain ⟨es', hes', rfl⟩ := Option.map_eq_some_iff.mp h
        rw [List.filter_cons_of_pos (by simpa using hskip), ih hes']
        rfl

/-- The entries are those of the keystore that the server is modelled with. -/
theorem configBuildKeystore_entries {mem : StoreMemory} {ctx : CryptoCtx} {db : ServerDb} {ks : IndexedKeystore}
    (h : configBuildKeystore N keys mem ctx db.clients = some ks) (hready : ctx.ready = true) :
    ks.entries = keystoreEntries N keys ctx db := by
  obtain ⟨-, -, hentries⟩ := configBuildKeystore_built db.idsNonempty h
  obtain ⟨es, hes, hks⟩ := hentries hready
  rw [hks, sectionEntries_eq hes]
  rfl

/-- An entry without an owner is found first. -/
theorem find_global {es : List KeystoreEntry} (hglobal : GlobalFirst es) (key : Key) :
    ((es.find? (usable key)).elim false fun e => e.owner == []) = es.any fun e => usable key e && e.owner == [] := by
  cases hfind : es.find? (usable key) with
  | none =>
    have hnone := List.find?_eq_none.mp hfind
    symm
    rw [Option.elim_none, List.any_eq_false]
    intro e he hmatch
    rw [Bool.and_eq_true] at hmatch
    exact hnone e he hmatch.1
  | some e =>
    rw [Option.elim_some, Bool.eq_iff_iff, List.any_eq_true, beq_iff_eq]
    constructor
    · intro howner
      refine ⟨e, List.mem_of_find?_eq_some hfind, ?_⟩
      rw [List.find?_some hfind, howner]
      rfl
    · rintro ⟨e', hmem, hmatch⟩
      rw [Bool.and_eq_true, beq_iff_eq] at hmatch
      obtain ⟨i, he'⟩ := List.mem_iff_getElem?.mp hmem
      have hi := hglobal i e' he' hmatch.2
      rw [hi] at he'
      cases es with
      | nil => cases he'
      | cons d es =>
        obtain rfl : d = e' := Option.some.inj he'
        rw [List.find?_cons_of_pos hmatch.1] at hfind
        rw [← Option.some.inj hfind, hmatch.2]

/-- So the server's queries are those of the indexes. -/
theorem server_queries {ctx : CryptoCtx} {ks : IndexedKeystore} (hks : QueriesRight ctx ks) {store : Keystore}
    (hstore : store.entries = ks.entries) (key : Key) (id : CStr) :
    Camex.configKsOwner store key = ks.configKsOwner key ∧ Camex.configKsFind store key = ks.configKsFind key ∧
      Camex.configKsContains store key = ks.configKsContains key ∧
      Camex.configKsIsGlobal store key = ks.configKsIsGlobal key ∧
      Camex.configKsHasOwner store id = ks.configKsHasOwner id ∧
      Camex.configKsKeyOwnedBy store key id = ks.configKsKeyOwnedBy key id := by
  have hfind : Camex.ksFindKey store key = ks.entries.find? (usable key) := by
    rw [← hstore]
    rfl
  refine ⟨?_, ?_, ?_, ?_, ?_, ?_⟩
  · unfold Camex.configKsOwner
    rw [hks.owner, hfind]
    cases ks.entries.find? (usable key) <;> rfl
  · rw [hks.find, ← hstore]
    rfl
  · unfold Camex.configKsContains
    rw [hks.contains, hfind, Bool.eq_iff_iff, List.find?_isSome, List.any_eq_true]
  · unfold Camex.configKsIsGlobal
    rw [hks.isGlobal, hfind]
    refine Eq.trans ?_ (find_global hks.globalFirst key)
    cases ks.entries.find? (usable key) <;> rfl
  · rw [hks.hasOwner, ← hstore]
    rfl
  · rw [hks.keyOwnedBy, ← hstore]
    rfl

end Build

/-- A section with the global key, two whose IDs differ in case, and one whose key is malformed. -/
def toySections : List ServerProfile :=
  [toySection "a" "A" "" "", toySection "p" "P" "" "", toySection "P" "P" "" "", toySection "x" "!" "" ""]

def toyIndexed : Option IndexedKeystore :=
  configBuildKeystore toyNoise .ample ⟨true, true, true, fun _ => (true, true)⟩ toyCtx toySections

theorem toyIndexed_built : toyIndexed.isSome = true := by decide +kernel

theorem keystoreQueries_right_toy : QueriesRight toyCtx (toyIndexed.get toyIndexed_built) :=
  keystoreQueries_right (by decide) (Option.some_get toyIndexed_built).symm

end IndexedKeystore

end Camex
