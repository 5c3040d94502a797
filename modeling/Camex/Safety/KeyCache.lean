import Mathlib.Data.List.Induction
import Camex.Keys

/-!
# The key cache is not seen

* `Filled`: what is cached is the key of a passphrase that was looked up, under its id;
* `Seen`, `Fresh`: what the flags of an entry say about the calls since the mark;
* `keyFromPassphrase_cases`: what a call may do;
* `keyCache_right`: what a call returns, and what is left after `key_cache_sweep` and after `key_cache_drop_new`.
-/

namespace Camex

open Lib

variable {h : KeyHashes}

/-! ## One call -/

def KeyCache.holds (h : KeyHashes) (c : KeyCache) (psk : CStr) : Bool :=
  c.idKey.any fun idKey => (c.find (h.blake2b idKey psk)).isSome

theorem KeyCache.find_some {c : KeyCache} {id : Bytes} {i : Fin KEY_CACHE_SIZE} (hfind : c.find id = some i) :
    ∃ e, c.slots i = some e ∧ e.id = id := by
  have hany := lowest_some hfind
  cases he : c.slots i with
  | none =>
    rw [he] at hany
    cases hany
  | some e =>
    rw [he, Option.any_some] at hany
    exact ⟨e, rfl, of_decide_eq_true hany⟩

theorem KeyCache.find_none {c : KeyCache} {id : Bytes} (hfind : c.find id = none) {i : Fin KEY_CACHE_SIZE}
    {e : KeyCacheEntry} (he : c.slots i = some e) : e.id ≠ id := by
  have hno := lowest_eq_none.mp hfind i
  rw [he, Option.any_some] at hno
  exact of_decide_eq_false hno

theorem KeyCache.find_isSome {c : KeyCache} {id : Bytes} {i : Fin KEY_CACHE_SIZE} {e : KeyCacheEntry}
    (he : c.slots i = some e) (hid : e.id = id) : (c.find id).isSome := by
  have hhere : (c.slots i).any (fun e => decide (e.id = id)) = true := by
    rw [he, Option.any_some, decide_eq_true hid]
  obtain ⟨j, hj⟩ : ∃ j, c.find id = some j := lowest_isSome hhere
  rw [hj]
  rfl

/-- An entry of the table after an insertion is the new one or was there. -/
theorem KeyCache.insert_slots {c : KeyCache} {e : KeyCacheEntry} {i : Fin KEY_CACHE_SIZE} {e' : KeyCacheEntry}
    (he : (c.insert e).slots i = some e') : e' = e ∨ c.slots i = some e' := by
  have hupdate : ∀ j, Function.update c.slots j (some e) i = some e' → e' = e ∨ c.slots i = some e' := by
    intro j hj
    by_cases hij : i = j
    · rw [hij, Function.update_self] at hj
      exact Or.inl (Option.some.inj hj).symm
    · rw [Function.update_of_ne hij] at hj
      exact Or.inr hj
  unfold KeyCache.insert at he
  split at he
  · exact hupdate _ he
  · exact hupdate _ he

theorem KeyCache.insert_idKey (c : KeyCache) (e : KeyCacheEntry) : (c.insert e).idKey = c.idKey := by
  unfold KeyCache.insert
  split <;> rfl

/-- What a call with an id key does: it finds the key, makes it, or has no memory to make it. -/
inductive PassphraseCase (h : KeyHashes) (c : KeyCache) (idKey : Bytes) (psk : CStr) (memory : Bool) :
    KeyAnswer × KeyCache → Prop
  | hit (i : Fin KEY_CACHE_SIZE) (e : KeyCacheEntry) (held : c.slots i = some e) (id : e.id = h.blake2b idKey psk) :
      PassphraseCase h c idKey psk memory
        (⟨.key e.key, false⟩, { c with slots := Function.update c.slots i (some { e with seen := true }) })
  | made (missed : c.find (h.blake2b idKey psk) = none) (room : memory = true) :
      PassphraseCase h c idKey psk memory
        (⟨.key (h.argon2 psk), true⟩, c.insert ⟨h.blake2b idKey psk, h.argon2 psk, true, true⟩)
  | failed (missed : c.find (h.blake2b idKey psk) = none) (room : memory = false) :
      PassphraseCase h c idKey psk memory (⟨.nomem, false⟩, c)

theorem keyFromPassphrase_cases (c : KeyCache) (idKey : Bytes) (psk : CStr) (memory : Bool) :
    PassphraseCase h c idKey psk memory (keyFromPassphrase h c idKey psk memory) := by
  unfold keyFromPassphrase
  dsimp only
  cases hfind : c.find (h.blake2b idKey psk) with
  | some i =>
    obtain ⟨e, he, hid⟩ := KeyCache.find_some hfind
    dsimp only
    rw [he]
    exact .hit i e he hid
  | none =>
    cases memory with
    | true => exact .made hfind rfl
    | false => exact .failed hfind rfl

/-- What a call does. -/
inductive KeyCallCase (h : KeyHashes) (c : KeyCache) (call : KeyCall) : KeyAnswer × KeyCache → Prop
  | raw (result : KeyResult) (known : rawKey call.psk = some result) : KeyCallCase h c call (⟨result, false⟩, c)
  | uncached (passphrase : rawKey call.psk = none) (noKey : c.idKey = none) :
      KeyCallCase h c call (derive h call.memory call.psk, c)
  | keyed (passphrase : rawKey call.psk = none) (idKey : Bytes) (isKey : (c.ready call.random).idKey = some idKey)
      (r : KeyAnswer × KeyCache) (does : PassphraseCase h (c.ready call.random) idKey call.psk call.memory r) :
      KeyCallCase h c call r

theorem keyFromPsk_cases (c : KeyCache) (call : KeyCall) : KeyCallCase h c call (keyFromPsk h c call) := by
  unfold keyFromPsk
  cases hraw : rawKey call.psk with
  | some result => exact .raw result hraw
  | none =>
    dsimp only
    cases hkey : (c.ready call.random).idKey with
    | none =>
      refine .uncached hraw ?_
      cases hid : c.idKey with
      | none => rfl
      | some k =>
        unfold KeyCache.ready at hkey
        rw [hid] at hkey
        cases hkey
    | some idKey => exact .keyed hraw idKey hkey _ (keyFromPassphrase_cases _ _ _ _)

theorem KeyCache.ready_some {c : KeyCache} {k : Bytes} (hk : c.idKey = some k) (random : Option Bytes) :
    (c.ready random).idKey = some k := by
  unfold KeyCache.ready
  rw [hk]
  rfl

/-! ## What is cached -/

def KeyOf (h : KeyHashes) (c : KeyCache) (e : KeyCacheEntry) (psk : CStr) : Prop :=
  ∃ idKey, c.idKey = some idKey ∧ e.id = h.blake2b idKey psk ∧ e.key = h.argon2 psk

def passphrases (calls : List KeyCall) : List CStr := (calls.map (·.psk)).filter fun psk => (rawKey psk).isNone

def KeyOp.calls : KeyOp → List KeyCall
  | .fromPsk call => [call]
  | _ => []

def lookedUp (ops : List KeyOp) : List CStr := passphrases (ops.flatMap KeyOp.calls)

/-- No two of these have one id. -/
def NoCollision (h : KeyHashes) (psks : List CStr) : Prop :=
  ∀ idKey, ∀ p ∈ psks, ∀ q ∈ psks, h.blake2b idKey p = h.blake2b idKey q → p = q

/-- What is cached are keys of these. -/
structure Filled (h : KeyHashes) (c : KeyCache) (psks : List CStr) : Prop where
  empty : c.idKey = none → ∀ i, c.slots i = none
  entries : ∀ i e, c.slots i = some e → ∃ psk ∈ psks, KeyOf h c e psk

theorem Filled.mono {c : KeyCache} {psks psks' : List CStr} (hc : Filled h c psks) (hsub : psks ⊆ psks') :
    Filled h c psks' :=
  ⟨hc.empty, fun i e he => by
    obtain ⟨psk, hpsk, hkey⟩ := hc.entries i e he
    exact ⟨psk, hsub hpsk, hkey⟩⟩

/-- A cache with some entries less. -/
theorem Filled.fewer {c c' : KeyCache} {psks : List CStr} (hc : Filled h c psks) (hkey : c'.idKey = c.idKey)
    (hslots : ∀ i e', c'.slots i = some e' → ∃ e, c.slots i = some e ∧ e'.id = e.id ∧ e'.key = e.key) :
    Filled h c' psks := by
  constructor
  · intro hnone i
    cases he' : c'.slots i with
    | none => rfl
    | some e' =>
      obtain ⟨e, he, -⟩ := hslots i e' he'
      rw [hc.empty (hkey ▸ hnone) i] at he
      cases he
  · intro i e' he'
    obtain ⟨e, he, hid, hkeys⟩ := hslots i e' he'
    obtain ⟨psk, hpsk, idKey, hidKey, heid, hekey⟩ := hc.entries i e he
    exact ⟨psk, hpsk, idKey, hkey.trans hidKey, hid.trans heid, hkeys.trans hekey⟩

theorem Filled.ready {c : KeyCache} {psks : List CStr} (hc : Filled h c psks) (random : Option Bytes) :
    Filled h (c.ready random) psks := by
  cases hk : c.idKey with
  | some k =>
    refine hc.fewer ((KeyCache.ready_some hk random).trans hk.symm) fun i e' he' => ⟨e', he', rfl, rfl⟩
  | none =>
    have hempty := hc.empty hk
    refine ⟨fun _ => hempty, fun i e he => ?_⟩
    have hslot : c.slots i = some e := he
    rw [hempty i] at hslot
    cases hslot

theorem mem_passphrases {calls : List KeyCall} {psk : CStr} :
    psk ∈ passphrases calls ↔ (∃ call ∈ calls, call.psk = psk) ∧ rawKey psk = none := by
  unfold passphrases
  rw [List.mem_filter, List.mem_map, Option.isNone_iff_eq_none]

/-- A call caches the key of its own passphrase. -/
theorem Filled.fromPsk {c : KeyCache} {psks : List CStr} (hc : Filled h c psks) (call : KeyCall) :
    Filled h (keyFromPsk h c call).2 (psks ++ passphrases [call]) := by
  have hmono := hc.mono (List.subset_append_left psks (passphrases [call]))
  have hcase := @keyFromPsk_cases h c call
  generalize keyFromPsk h c call = r at hcase
  cases hcase with
  | raw result known => exact hmono
  | uncached passphrase noKey => exact hmono
  | keyed passphrase idKey isKey r does =>
    have hready := hmono.ready call.random
    cases does with
    | failed missed room => exact hready
    | hit i e held id =>
      refine hready.fewer rfl fun j e' he' => ?_
      dsimp only at he'
      by_cases hij : j = i
      · rw [hij, Function.update_self] at he'
        rw [hij]
        exact ⟨e, held, by rw [← Option.some.inj he'], by rw [← Option.some.inj he']⟩
      · rw [Function.update_of_ne hij] at he'
        exact ⟨e', he', rfl, rfl⟩
    | made missed room =>
      have hidKey := KeyCache.insert_idKey (c.ready call.random)
        ⟨h.blake2b idKey call.psk, h.argon2 call.psk, true, true⟩
      constructor
      · intro hnone
        rw [hidKey, isKey] at hnone
        cases hnone
      · intro j e' he'
        rcases KeyCache.insert_slots he' with rfl | he'
        · refine ⟨call.psk, List.mem_append_right _ (mem_passphrases.mpr ⟨⟨call, by simp, rfl⟩, passphrase⟩), idKey,
            hidKey.trans isKey, rfl, rfl⟩
        · obtain ⟨psk, hpsk, k, hk, hid, hkey⟩ := hready.entries j e' he'
          exact ⟨psk, hpsk, k, hidKey.trans hk, hid, hkey⟩

theorem passphrases_append (calls calls' : List KeyCall) :
    passphrases (calls ++ calls') = passphrases calls ++ passphrases calls' := by
  unfold passphrases
  rw [List.map_append, List.filter_append]

theorem Filled.step {c : KeyCache} {psks : List CStr} (hc : Filled h c psks) (op : KeyOp) :
    Filled h (keyOp h c op) (psks ++ passphrases op.calls) := by
  have hfilter : ∀ (p : KeyCacheEntry → Bool) (c' : KeyCache), c' = { c with slots := fun i => (c.slots i).filter p } →
      Filled h c' (psks ++ []) := by
    rintro p c' rfl
    rw [List.append_nil]
    exact hc.fewer rfl fun i e' he' => ⟨e', (Option.filter_eq_some_iff.mp he').1, rfl, rfl⟩
  cases op with
  | fromPsk call => exact hc.fromPsk call
  | mark =>
    refine (hc.mono (List.subset_append_left _ _)).fewer rfl fun i e' he' => ?_
    obtain ⟨e, he, rfl⟩ := Option.map_eq_some_iff.mp he'
    exact ⟨e, he, rfl, rfl⟩
  | sweep => exact hfilter _ _ rfl
  | dropNew => exact hfilter _ _ rfl
  | clear => exact ⟨fun _ _ => rfl, fun i e he => nomatch he⟩

/-- **Every entry of a process is the key of a passphrase that it looked up.** -/
theorem filled_run (ops : List KeyOp) : Filled h (keyRun h ops) (lookedUp ops) := by
  induction ops using List.reverseRecOn with
  | nil => exact ⟨fun _ _ => rfl, fun i e he => nomatch he⟩
  | append_singleton ops op ih =>
    have hrun : keyRun h (ops ++ [op]) = keyOp h (keyRun h ops) op := by
      unfold keyRun
      rw [List.foldl_append, List.foldl_cons, List.foldl_nil]
    have hlooked : lookedUp (ops ++ [op]) = lookedUp ops ++ passphrases op.calls := by
      unfold lookedUp
      rw [List.flatMap_append, List.flatMap_singleton, passphrases_append]
    rw [hrun, hlooked]
    exact ih.step op

/-! ## What a call returns -/

/-- A call returns what it would return without the cache, and where the key is cached it needs no memory for it. -/
theorem keyFromPsk_result {c : KeyCache} {psks : List CStr} (hc : Filled h c psks) {call : KeyCall}
    (hcollision : NoCollision h (psks ++ passphrases [call])) : (keyFromPsk h c call).1.result =
      uncachedKey h call.psk (call.memory || c.holds h call.psk) := by
  have hcase := @keyFromPsk_cases h c call
  generalize keyFromPsk h c call = r at hcase
  unfold uncachedKey
  cases hcase with
  | raw result known => rw [known, Option.getD_some]
  | uncached passphrase noKey =>
    have hholds : c.holds h call.psk = false := by
      unfold KeyCache.holds
      rw [noKey]
      rfl
    rw [passphrase, Option.getD_none, hholds, Bool.or_false]
    rfl
  | keyed passphrase idKey isKey r does =>
    rw [passphrase, Option.getD_none]
    -- a key that is cached is cached under the id key that the cache has already
    have hholds : ∀ found : Bool, ((c.ready call.random).find (h.blake2b idKey call.psk)).isSome = found →
        (found = true → c.idKey ≠ none) → c.holds h call.psk = found := by
      intro found hfound hready
      cases hk : c.idKey with
      | some k =>
        have hsame : k = idKey := Option.some.inj ((KeyCache.ready_some hk call.random).symm.trans isKey)
        unfold KeyCache.holds
        rw [hk, hsame]
        exact hfound
      | none =>
        have hno : found = false := by
          cases found with
          | false => rfl
          | true => exact absurd hk (hready rfl)
        unfold KeyCache.holds
        rw [hk, hno]
        rfl
    cases does with
    | failed missed room => rw [hholds false (by rw [missed]; rfl) (fun hf => nomatch hf), room]; rfl
    | made missed room => rw [room, Bool.true_or]; rfl
    | hit i e held id =>
      have hslot : c.slots i = some e := held
      have hsome : c.idKey ≠ none := by
        intro hnone
        rw [hc.empty hnone i] at hslot
        cases hslot
      obtain ⟨psk, hpsk, k, hk, hid, hkey⟩ := hc.entries i e hslot
      have hsame : k = idKey := Option.some.inj ((KeyCache.ready_some hk call.random).symm.trans isKey)
      have hpass : call.psk ∈ psks ++ passphrases [call] :=
        List.mem_append_right _ (mem_passphrases.mpr ⟨⟨call, by simp, rfl⟩, passphrase⟩)
      have hpsks : psk = call.psk :=
        hcollision idKey psk (List.mem_append_left _ hpsk) _ hpass (by rw [← hsame, ← hid, id, hsame])
      rw [hholds true (KeyCache.find_isSome held id) (fun _ => hsome), Bool.or_true, hkey, hpsks]
      rfl

/-! ## Since the mark -/

/-- An entry that was seen is the key of one of these. -/
def SeenBy (h : KeyHashes) (c : KeyCache) (psks : List CStr) : Prop :=
  ∀ i e, c.slots i = some e → e.seen = true → ∃ psk ∈ psks, KeyOf h c e psk

/-- An entry that is not fresh is the key of none of these. -/
def OldFrom (h : KeyHashes) (c : KeyCache) (psks : List CStr) : Prop :=
  ∀ i e, c.slots i = some e → e.fresh = false → ∀ psk ∈ psks, ∀ idKey, c.idKey = some idKey → e.id ≠ h.blake2b idKey psk

theorem keyOf_ready {c : KeyCache} {e : KeyCacheEntry} {psk : CStr} (hkey : KeyOf h c e psk) (random : Option Bytes) :
    KeyOf h (c.ready random) e psk := by
  obtain ⟨k, hk, hrest⟩ := hkey
  exact ⟨k, KeyCache.ready_some hk random, hrest⟩

theorem SeenBy.fromPsk {c : KeyCache} {looked psks : List CStr} (hc : Filled h c looked) (hseen : SeenBy h c psks)
    {call : KeyCall} (hcollision : NoCollision h (looked ++ passphrases [call])) :
    SeenBy h (keyFromPsk h c call).2 (psks ++ passphrases [call]) := by
  have hmono : SeenBy h c (psks ++ passphrases [call]) := by
    intro i e he hflag
    obtain ⟨psk, hpsk, hkey⟩ := hseen i e he hflag
    exact ⟨psk, List.mem_append_left _ hpsk, hkey⟩
  have hcase := @keyFromPsk_cases h c call
  generalize keyFromPsk h c call = r at hcase
  cases hcase with
  | raw result known => exact hmono
  | uncached passphrase noKey => exact hmono
  | keyed passphrase idKey isKey r does =>
    have hpass : call.psk ∈ passphrases [call] := mem_passphrases.mpr ⟨⟨call, by simp, rfl⟩, passphrase⟩
    have hready : SeenBy h (c.ready call.random) (psks ++ passphrases [call]) := by
      intro i e he hflag
      obtain ⟨psk, hpsk, hkey⟩ := hmono i e he hflag
      exact ⟨psk, hpsk, keyOf_ready hkey _⟩
    cases does with
    | failed missed room => exact hready
    | hit i e held id =>
      intro j e' he' hflag
      dsimp only at he'
      by_cases hij : j = i
      · rw [hij, Function.update_self] at he'
        have hentry : e' = { e with seen := true } := (Option.some.inj he').symm
        obtain ⟨psk, hpsk, k, hk, hid, hkey⟩ := (hc.ready call.random).entries i e held
        have hsame : k = idKey := Option.some.inj (hk.symm.trans isKey)
        have hpsks : psk = call.psk := hcollision idKey psk (List.mem_append_left _ hpsk) _
          (List.mem_append_right _ hpass) (by rw [← hsame, ← hid, id, hsame])
        refine ⟨call.psk, List.mem_append_right _ hpass, idKey, isKey, ?_, ?_⟩
        · rw [hentry]
          exact id
        · rw [hentry, ← hpsks]
          exact hkey
      · rw [Function.update_of_ne hij] at he'
        exact hready j e' he' hflag
    | made missed room =>
      have hidKey := KeyCache.insert_idKey (c.ready call.random)
        ⟨h.blake2b idKey call.psk, h.argon2 call.psk, true, true⟩
      intro j e' he' hflag
      rcases KeyCache.insert_slots he' with rfl | he'
      · exact ⟨call.psk, List.mem_append_right _ hpass, idKey, hidKey.trans isKey, rfl, rfl⟩
      · obtain ⟨psk, hpsk, k, hk, hrest⟩ := hready j e' he' hflag
        exact ⟨psk, hpsk, k, hidKey.trans hk, hrest⟩

/-- A key that a call derives is fresh, and it was not cached. -/
theorem OldFrom.fromPsk {c : KeyCache} {looked psks : List CStr} (hc : Filled h c looked) (hold : OldFrom h c psks)
    (call : KeyCall) : OldFrom h (keyFromPsk h c call).2
      (psks ++ if (keyFromPsk h c call).1.derived then [call.psk] else []) := by
  have hcase := @keyFromPsk_cases h c call
  generalize keyFromPsk h c call = r at hcase
  cases hcase with
  | raw result known =>
    intro i e he hflag psk hpsk
    rw [if_neg Bool.false_ne_true, List.append_nil] at hpsk
    exact hold i e he hflag psk hpsk
  | uncached passphrase noKey =>
    intro i e he
    rw [hc.empty noKey i] at he
    cases he
  | keyed passphrase idKey isKey r does =>
    have hready : OldFrom h (c.ready call.random) psks := by
      intro i e he hflag psk hpsk k hk
      cases hck : c.idKey with
      | none =>
        have hslot : c.slots i = some e := he
        rw [hc.empty hck i] at hslot
        cases hslot
      | some k' =>
        have hsame : k' = k := Option.some.inj ((KeyCache.ready_some hck call.random).symm.trans hk)
        exact hold i e he hflag psk hpsk k (hck.trans (congrArg some hsame))
    cases does with
    | failed missed room =>
      intro i e he hflag psk hpsk
      rw [if_neg Bool.false_ne_true, List.append_nil] at hpsk
      exact hready i e he hflag psk hpsk
    | hit i e held id =>
      intro j e' he' hflag psk hpsk k hk
      rw [if_neg Bool.false_ne_true, List.append_nil] at hpsk
      dsimp only at he'
      by_cases hij : j = i
      · rw [hij, Function.update_self] at he'
        have hentry : e' = { e with seen := true } := (Option.some.inj he').symm
        rw [hentry] at hflag ⊢
        exact hready i e held hflag psk hpsk k hk
      · rw [Function.update_of_ne hij] at he'
        exact hready j e' he' hflag psk hpsk k hk
    | made missed room =>
      intro j e' he' hflag psk hpsk k hk
      rw [KeyCache.insert_idKey] at hk
      rcases KeyCache.insert_slots he' with rfl | he'
      · cases hflag
      · rw [if_pos rfl] at hpsk
        rcases List.mem_append.mp hpsk with hpsk | hpsk
        · exact hready j e' he' hflag psk hpsk k hk
        · have hsame : k = idKey := Option.some.inj (hk.symm.trans isKey)
          rw [List.mem_singleton.mp hpsk, hsame]
          exact KeyCache.find_none missed he'

def keyCalls (h : KeyHashes) (c : KeyCache) (calls : List KeyCall) : KeyCache :=
  (calls.map KeyOp.fromPsk).foldl (keyOp h) c

theorem SeenBy.calls {c : KeyCache} {looked psks : List CStr} (hc : Filled h c looked) (hseen : SeenBy h c psks)
    {calls : List KeyCall} (hcollision : NoCollision h (looked ++ passphrases calls)) :
    SeenBy h (keyCalls h c calls) (psks ++ passphrases calls) := by
  induction calls generalizing c looked psks with
  | nil =>
    rw [show passphrases [] = [] from rfl, List.append_nil]
    exact hseen
  | cons call calls ih =>
    have hsplit : passphrases (call :: calls) = passphrases [call] ++ passphrases calls :=
      passphrases_append [call] calls
    rw [hsplit, ← List.append_assoc] at hcollision ⊢
    have hone : NoCollision h (looked ++ passphrases [call]) := fun idKey p hp q hq =>
      hcollision idKey p (List.mem_append_left _ hp) q (List.mem_append_left _ hq)
    exact ih (hc.fromPsk call) (hseen.fromPsk hc hone) hcollision

theorem OldFrom.calls {c : KeyCache} {looked psks : List CStr} (hc : Filled h c looked) (hold : OldFrom h c psks)
    (calls : List KeyCall) : OldFrom h (keyCalls h c calls) (psks ++ derivedBy h c calls) := by
  induction calls generalizing c looked psks with
  | nil =>
    rw [show derivedBy h c [] = [] from rfl, List.append_nil]
    exact hold
  | cons call calls ih =>
    rw [derivedBy, ← List.append_assoc]
    exact ih (hc.fromPsk call) (hold.fromPsk hc call)

/-! ## The cache is not seen -/

/-- What a run shows of its cache. A call needs no memory for a key that is cached. -/
structure KeyCacheRight (h : KeyHashes) (ops : List KeyOp) : Prop where
  returns : ∀ before call after, ops = before ++ .fromPsk call :: after →
    (keyFromPsk h (keyRun h before) call).1.result =
      uncachedKey h call.psk (call.memory || (keyRun h before).holds h call.psk)
  swept : ∀ before calls after, ops = before ++ .mark :: calls.map .fromPsk ++ .sweep :: after →
    ∀ i e, (keyRun h (before ++ .mark :: calls.map .fromPsk ++ [.sweep])).slots i = some e →
      ∃ psk ∈ passphrases calls, KeyOf h (keyRun h (before ++ .mark :: calls.map .fromPsk ++ [.sweep])) e psk
  dropped : ∀ before calls after, ops = before ++ .mark :: calls.map .fromPsk ++ .dropNew :: after →
    ∀ psk ∈ derivedBy h (keyRun h (before ++ [.mark])) calls,
      (keyRun h (before ++ .mark :: calls.map .fromPsk ++ [.dropNew])).holds h psk = false

theorem NoCollision.mono {psks psks' : List CStr} (hno : NoCollision h psks') (hsub : psks ⊆ psks') :
    NoCollision h psks := fun idKey p hp q hq => hno idKey p (hsub hp) q (hsub hq)

theorem lookedUp_append (ops ops' : List KeyOp) : lookedUp (ops ++ ops') = lookedUp ops ++ lookedUp ops' := by
  unfold lookedUp
  rw [List.flatMap_append, passphrases_append]

theorem lookedUp_calls (calls : List KeyCall) : lookedUp (calls.map .fromPsk) = passphrases calls := by
  unfold lookedUp
  rw [List.flatMap_map]
  congr 1
  exact List.flatMap_singleton' calls

theorem keyRun_marked (before : List KeyOp) (calls : List KeyCall) (op : KeyOp) :
    keyRun h (before ++ .mark :: calls.map .fromPsk ++ [op]) =
      keyOp h (keyCalls h (keyRun h (before ++ [.mark])) calls) op := by
  have hsplit : before ++ .mark :: calls.map .fromPsk ++ [op] =
      before ++ [.mark] ++ calls.map KeyOp.fromPsk ++ [op] := by simp
  unfold keyRun keyCalls
  rw [hsplit, List.foldl_append, List.foldl_append, List.foldl_cons, List.foldl_nil]

theorem keyRun_mark (before : List KeyOp) : keyRun h (before ++ [.mark]) = keyCacheMark (keyRun h before) := by
  unfold keyRun
  rw [List.foldl_append, List.foldl_cons, List.foldl_nil]
  rfl

/-- **The key cache is not seen**, but for the memory that it saves. -/
theorem keyCache_right {ops : List KeyOp} (hno : NoCollision h (lookedUp ops)) : KeyCacheRight h ops := by
  constructor
  · rintro before call after rfl
    refine keyFromPsk_result (filled_run before) (hno.mono ?_)
    rw [lookedUp_append]
    refine List.append_subset.mpr ⟨List.subset_append_left _ _, List.subset_append_of_subset_right _ ?_⟩
    rw [show KeyOp.fromPsk call :: after = [KeyOp.fromPsk call] ++ after from rfl, lookedUp_append]
    exact List.subset_append_left _ _
  · rintro before calls after rfl i e he
    rw [keyRun_marked] at he ⊢
    obtain ⟨hcached, hflag⟩ := Option.filter_eq_some_iff.mp he
    have hmarked : SeenBy h (keyRun h (before ++ [.mark])) [] := by
      intro j e' he' hseen
      rw [keyRun_mark] at he'
      obtain ⟨e'', -, rfl⟩ := Option.map_eq_some_iff.mp he'
      cases hseen
    have hlooked : lookedUp (before ++ [.mark]) ++ passphrases calls ⊆
        lookedUp (before ++ .mark :: calls.map .fromPsk ++ .sweep :: after) := by
      have hsplit : before ++ .mark :: calls.map .fromPsk = before ++ [.mark] ++ calls.map KeyOp.fromPsk := by simp
      rw [hsplit, lookedUp_append _ (.sweep :: after), lookedUp_append (before ++ [KeyOp.mark]), lookedUp_calls]
      exact List.subset_append_left _ _
    exact hmarked.calls (filled_run _) (hno.mono hlooked) i e hcached hflag
  · rintro before calls after rfl psk hpsk
    rw [keyRun_marked]
    have hmarked : OldFrom h (keyRun h (before ++ [.mark])) [] := fun _ _ _ _ psk hpsk => nomatch hpsk
    have hold := hmarked.calls (filled_run _) calls
    unfold KeyCache.holds
    cases hk : (keyOp h (keyCalls h (keyRun h (before ++ [.mark])) calls) .dropNew).idKey with
    | none => rfl
    | some idKey =>
      rw [Option.any_some]
      cases hfind : (keyOp h (keyCalls h (keyRun h (before ++ [.mark])) calls) .dropNew).find (h.blake2b idKey psk) with
      | none => rfl
      | some i =>
        obtain ⟨e, he, hid⟩ := KeyCache.find_some hfind
        obtain ⟨hcached, hflag⟩ := Option.filter_eq_some_iff.mp he
        exact absurd hid (hold i e hcached (by simpa using hflag) psk hpsk idKey hk)

/-! ## A process -/

def toyHashes : KeyHashes where
  argon2 pass := (1 :: pass ++ List.replicate KEY_LEN 0).take KEY_LEN
  blake2b idKey pass := (pass ++ idKey ++ List.replicate KEY_LEN 0).take KEY_LEN

/-- A passphrase that is looked up without memory and stays, and one that is swept away. -/
def sweptOps : List KeyOp :=
  [.fromPsk ⟨ascii "one", some [7], true⟩, .mark, .fromPsk ⟨ascii "two", none, true⟩,
    .fromPsk ⟨ascii "two", none, false⟩, .sweep]

/-- A raw key, the lost passphrase without memory and with it, and the one that stayed. -/
def markedCalls : List KeyCall :=
  [⟨ascii "hex:" ++ List.replicate 64 49, none, true⟩, ⟨ascii "one", none, false⟩, ⟨ascii "one", none, true⟩,
    ⟨ascii "two", none, false⟩]

def toyKeyOps : List KeyOp :=
  sweptOps ++ .mark :: markedCalls.map .fromPsk ++ [.dropNew, .fromPsk ⟨ascii "one", none, false⟩]

theorem toyHashes_noCollision : NoCollision toyHashes (lookedUp toyKeyOps) := by
  have hlooked : ∀ p ∈ lookedUp toyKeyOps, p = ascii "one" ∨ p = ascii "two" := by decide +kernel
  have hhead : ∀ (idKey : Bytes) (b : UInt8) (p : CStr), (toyHashes.blake2b idKey (b :: p)).head? = some b := by
    intro idKey b p
    rfl
  have hone : ∀ idKey, toyHashes.blake2b idKey (ascii "one") ≠ toyHashes.blake2b idKey (ascii "two") := fun idKey heq =>
    absurd ((hhead _ _ _).symm.trans ((congrArg List.head? heq).trans (hhead _ _ _))) (by decide)
  intro idKey p hp q hq heq
  rcases hlooked p hp with rfl | rfl <;> rcases hlooked q hq with rfl | rfl
  · rfl
  · exact absurd heq (hone idKey)
  · exact absurd heq.symm (hone idKey)
  · rfl

/-- The passphrase derived since the mark is dropped, the other one is not. -/
theorem keyCache_right_toy : KeyCacheRight toyHashes toyKeyOps ∧
    derivedBy toyHashes (keyRun toyHashes (sweptOps ++ [.mark])) markedCalls = [ascii "one"] ∧
    (keyRun toyHashes (sweptOps ++ .mark :: markedCalls.map .fromPsk ++ [.dropNew])).holds toyHashes (ascii "one") =
      false ∧
    (keyRun toyHashes (sweptOps ++ .mark :: markedCalls.map .fromPsk ++ [.dropNew])).holds toyHashes (ascii "two") =
      true := by
  have hright := keyCache_right toyHashes_noCollision
  have hderived : derivedBy toyHashes (keyRun toyHashes (sweptOps ++ [.mark])) markedCalls = [ascii "one"] := by
    decide +kernel
  refine ⟨hright, hderived, hright.dropped sweptOps markedCalls _ rfl _ ?_, by decide +kernel⟩
  rw [hderived]
  exact List.mem_singleton_self _

/-- A call that finds its key returns it where there is no memory to derive it. -/
theorem not_keyCache : ¬ ∀ (h : KeyHashes) (ops : List KeyOp), NoCollision h (lookedUp ops) →
    ∀ before call after, ops = before ++ .fromPsk call :: after →
      (keyFromPsk h (keyRun h before) call).1.result = uncachedKey h call.psk call.memory := by
  intro hall
  have hcall := hall toyHashes toyKeyOps toyHashes_noCollision
    [.fromPsk ⟨ascii "one", some [7], true⟩, .mark, .fromPsk ⟨ascii "two", none, true⟩]
    ⟨ascii "two", none, false⟩ _ rfl
  exact absurd hcall (by decide +kernel)

end Camex
