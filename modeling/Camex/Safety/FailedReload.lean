import Camex.Concrete
import Camex.Server.ReloadMemory
import Mathlib.Tactic.Abel

/-!
# A reload that fails

Every function that the reload block calls is followed by the blocks it owns: what it gets it puts into its structure
or frees, and it uses no other block (the `_owns` lemmas, with any blocks beside).

* `reloadSwitch_owns`: the new configuration, as far as it got, owns what was allocated;
* `reloadGlobals_failed`: the way back frees it all and puts the copies back;
* `reload_failed`: a reload that fails leaves the program as it was.
-/

namespace Camex.Memory

open Lib

variable {base : Heap Block} {own rest : Multiset Ptr} {grants : ℕ → Bool}

theorem isSome_of_not_isNone {α : Type} {p : Option α} (h : ¬ p.isNone = true) : p.isSome = true := by
  cases p with
  | none => exact absurd rfl h
  | some _ => rfl

/-! ## Indexes -/

def Index.ptrs (x : Index) : Multiset Ptr := blockOf x.hash + blockOf x.slot

def Index.Ok (x : Index) : Prop := x.mask ≠ 0 → x.hash.isSome = true ∧ x.slot.isSome = true

@[simp] theorem Index.ptrs_null : Index.null.ptrs = 0 := rfl

theorem Index.Ok.null : Index.null.Ok := fun h => absurd rfl h

theorem Index.load_owns {x : Index} (hx : x.hash.isSome = true ∧ x.slot.isSome = true) (hle : x.ptrs ≤ own) :
    Triple (Owns base own) x.load fun _ => Owns base own :=
  (Owns.read hx.1 ((Multiset.le_add_right _ _).trans hle)).bind fun _ =>
    (Owns.read hx.2 ((Multiset.le_add_left _ _).trans hle)).bind fun _ => .pure fun _ h => h

/-- What saving a table leaves of an index. -/
def Index.Same (x y : Index) : Prop := y.hash = x.hash ∧ y.slot = x.slot ∧ y.mask = x.mask

theorem Index.Same.ptrs {x y : Index} (h : x.Same y) : y.ptrs = x.ptrs := by
  unfold Index.ptrs
  rw [h.1, h.2.1]

theorem Index.save_owns {x : Index} (hx : x.hash.isSome = true ∧ x.slot.isSome = true) (hle : x.ptrs ≤ own)
    (t : Slotidx) : Triple (Owns base own) (x.save t) fun y h => x.Same y ∧ Owns base own h :=
  (Owns.write hx.1 ((Multiset.le_add_right _ _).trans hle) _).bind fun _ =>
    (Owns.write hx.2 ((Multiset.le_add_left _ _).trans hle) _).bind fun _ => .pure fun _ h => ⟨⟨rfl, rfl, rfl⟩, h⟩

theorem slotidxFree_owns {x : Index} (heq : own = x.ptrs + rest) :
    Triple (Owns base own) (slotidxFree x) fun y h => y = .null ∧ Owns base rest h := by
  refine (Owns.free (?_ : _ = blockOf _ + (blockOf x.slot + rest))).bind fun _ => (Owns.free rfl).bind fun _ =>
    .pure fun _ h => ⟨rfl, h⟩
  rw [heq, Index.ptrs, add_assoc]

theorem allocTable_owns (n : ℕ) : Triple (Owns base own) (allocTable grants n) fun r h =>
    ((r.2 = true → r.1.hash.isSome = true ∧ r.1.slot.isSome = true) ∧ (r.2 = false → r.1 = .null)) ∧
      Owns base (r.1.ptrs + own) h := by
  refine (Owns.calloc grants _).bind fun hash => (Owns.calloc grants _).bind fun slot => ?_
  split
  · refine (slotidxFree_owns (?_ : _ = Index.ptrs _ + own)).bind fun x => .of_fact ?_
    · rw [Index.ptrs]
      abel
    · rintro rfl
      exact .pure fun h ho => ⟨⟨fun hfalse => absurd hfalse (by decide), fun _ => rfl⟩,
        by rwa [Index.ptrs_null, zero_add]⟩
  · rename_i hsome
    simp only [Bool.or_eq_true, Option.isNone_iff_eq_none, not_or] at hsome
    refine .pure fun h ho => ⟨⟨fun _ => ?_, fun hfalse => Bool.noConfusion hfalse⟩, ?_⟩
    · exact ⟨Option.ne_none_iff_isSome.mp hsome.1, Option.ne_none_iff_isSome.mp hsome.2⟩
    · rw [Index.ptrs]
      have heq : blockOf hash + blockOf slot + own = blockOf slot + (blockOf hash + own) := by abel
      rwa [heq]

theorem Index.Ok.of_table {r : Index × Bool} (h : (r.2 = true → r.1.hash.isSome = true ∧ r.1.slot.isSome = true) ∧
    (r.2 = false → r.1 = .null)) : r.1.Ok := by
  cases hr : r.2 with
  | true => exact fun _ => h.1 hr
  | false =>
    rw [h.2 hr]
    exact .null

theorem slotidxReset_owns {x : Index} (hx : x.Ok) (entries : ℕ) :
    Triple (Owns base (x.ptrs + rest)) (slotidxReset grants x entries) fun r h =>
      r.1.Ok ∧ Owns base (r.1.ptrs + rest) h := by
  unfold slotidxReset
  dsimp only
  split
  · rename_i hmask
    refine (Index.save_owns (hx hmask.1) (Multiset.le_add_right _ _) _).bind fun y => .of_fact fun hsame => ?_
    refine .pure fun h ho => ⟨fun _ => ?_, by rwa [hsame.ptrs]⟩
    rw [hsame.1, hsame.2.1]
    exact hx hmask.1
  · exact (slotidxFree_owns rfl).bind fun _ => .of_fact fun _ =>
      (allocTable_owns _).conseq (fun _ h => h) fun r _ h => ⟨.of_table h.1, h.2⟩

theorem slotidxPut_owns {x : Index} (hx : x.hash.isSome = true ∧ x.slot.isSome = true) (hle : x.ptrs ≤ own)
    (h : BitVec 32) (slot : ℕ) :
    Triple (Owns base own) (slotidxPut x h slot) fun y h => x.Same y ∧ Owns base own h :=
  (Index.load_owns hx hle).bind fun _ => Index.save_owns hx hle _

theorem rehash_owns {x bigger : Index} (hx : x.Ok) (hb : bigger.hash.isSome = true ∧ bigger.slot.isSome = true)
    (hxle : x.ptrs ≤ own) (hble : bigger.ptrs ≤ own) :
    Triple (Owns base own) (rehash x bigger) fun y h => bigger.Same y ∧ Owns base own h := by
  unfold rehash
  split
  · exact .pure fun _ h => ⟨⟨rfl, rfl, rfl⟩, h⟩
  · rename_i hmask
    refine (Index.load_owns (hx hmask) hxle).bind fun t => ?_
    refine Triple.conseq (.list (R := fun y h => bigger.Same y ∧ Owns base own h) (fun y k => .of_fact fun hsame => ?_)
      t.buckets bigger) (fun _ h => ⟨⟨rfl, rfl, rfl⟩, h⟩) fun _ _ h => h
    cases k with
    | none => exact .pure fun _ h => ⟨hsame, h⟩
    | some k =>
      have hy : y.hash.isSome = true ∧ y.slot.isSome = true := by rwa [hsame.1, hsame.2.1]
      refine (slotidxPut_owns hy (hsame.ptrs.trans_le hble) k.1 k.2).conseq (fun _ h => h) fun z _ h => ?_
      exact ⟨⟨h.1.1.trans hsame.1, h.1.2.1.trans hsame.2.1, h.1.2.2.trans hsame.2.2⟩, h.2⟩

theorem slotidxInsert_owns {x : Index} (hx : x.Ok) (h : BitVec 32) (slot : ℕ) :
    Triple (Owns base (x.ptrs + rest)) (slotidxInsert grants x h slot) fun r h =>
      r.1.Ok ∧ Owns base (r.1.ptrs + rest) h := by
  unfold slotidxInsert
  split
  · refine (allocTable_owns _).bind fun r => .of_fact fun hr => ?_
    split
    · rename_i hok
      have hb := hr.1 hok
      refine (rehash_owns hx hb ((Multiset.le_add_right _ _).trans (Multiset.le_add_left _ _))
        (Multiset.le_add_right _ _)).bind fun y => .of_fact fun hsame => ?_
      refine (slotidxFree_owns (?_ : _ = Index.ptrs _ + (y.ptrs + rest))).bind fun _ => .of_fact fun _ => ?_
      · rw [hsame.ptrs]
        abel
      · have hy : y.hash.isSome = true ∧ y.slot.isSome = true := by rwa [hsame.1, hsame.2.1]
        refine (slotidxPut_owns hy (Multiset.le_add_right _ _) h slot).bind fun z => .of_fact fun hz => ?_
        refine .pure fun _ ho => ⟨fun _ => ?_, by rwa [hz.ptrs]⟩
        rwa [hz.1, hz.2.1]
    · rename_i hfail
      have hnull := hr.2 (by simpa using hfail)
      exact .pure fun _ ho => ⟨hx, by rwa [hnull, Index.ptrs_null, zero_add] at ho⟩
  · rename_i hmask
    rw [not_or] at hmask
    refine (slotidxPut_owns (hx hmask.1) (Multiset.le_add_right _ _) h slot).bind fun y => .of_fact fun hsame => ?_
    refine .pure fun _ ho => ⟨fun _ => ?_, by rwa [hsame.ptrs]⟩
    rw [hsame.1, hsame.2.1]
    exact hx hmask.1

theorem slotidxFind_owns {x : Index} (hx : x.Ok) (hle : x.ptrs ≤ own) (h : BitVec 32) (holds : ℕ → Bool) :
    Triple (Owns base own) (slotidxFind x h holds) fun _ => Owns base own := by
  unfold slotidxFind
  split
  · exact .pure fun _ h => h
  · rename_i hmask
    exact (Index.load_owns (hx hmask) hle).bind fun _ => .pure fun _ h => h

/-! ## Sections -/

def Store.ptrs (db : Store) : Multiset Ptr := blockOf db.clients + (db.byId.ptrs + db.byIp.ptrs)

/-- The indexes have their arrays, and there is an array unless there is no room. -/
structure Store.Ok (db : Store) : Prop where
  byId : db.byId.Ok
  byIp : db.byIp.Ok
  array : db.clients.isSome = true ∨ db.clientCount = db.clientCap

theorem Store.Ok.null : Store.null.Ok := ⟨.null, .null, Or.inr rfl⟩

theorem Store.sections_owns {db : Store} (hle : blockOf db.clients ≤ own) :
    Triple (Owns base own) db.sections fun cs h => (cs ≠ [] → db.clients.isSome = true) ∧ Owns base own h := by
  unfold Store.sections
  split
  · exact .pure fun _ h => ⟨fun hne => absurd rfl hne, h⟩
  · rename_i hsome
    have hsome : db.clients.isSome = true := isSome_of_not_isNone hsome
    exact (Owns.read hsome hle).bind fun _ => .pure fun _ h => ⟨fun _ => hsome, h⟩

theorem configDbFindClient_owns {db : Store} (hdb : db.Ok) (hle : db.ptrs ≤ own) (clientId : CStr) :
    Triple (Owns base own) (configDbFindClient db clientId) fun _ => Owns base own :=
  (Store.sections_owns ((Multiset.le_add_right _ _).trans hle)).bind fun _ => .of_fact fun _ =>
    slotidxFind_owns hdb.byId (((Multiset.le_add_right _ _).trans (Multiset.le_add_left _ _)).trans hle) _ _

theorem growClients_owns {db : Store} (hdb : db.Ok) :
    Triple (Owns base (db.ptrs + rest)) (growClients grants db) fun r h =>
      (r.1.Ok ∧ (r.2 = true → r.1.clients.isSome = true)) ∧ Owns base (r.1.ptrs + rest) h := by
  unfold growClients
  split
  · rename_i hfull
    dsimp only
    refine (Owns.calloc grants _).bind fun grown => ?_
    split
    · rename_i hnone
      have hnone : grown = none := by simpa using hnone
      subst hnone
      exact .pure fun _ ho => ⟨⟨hdb, fun hfalse => Bool.noConfusion hfalse⟩, by rwa [blockOf_none, zero_add] at ho⟩
    · rename_i hsome
      have hsome : grown.isSome = true := isSome_of_not_isNone hsome
      refine (Store.sections_owns ?_).bind fun cs => .of_fact fun _ =>
        (Owns.write hsome (Multiset.le_add_right _ _) _).bind fun _ =>
          (Owns.free (?_ : _ = blockOf _ + (blockOf grown + (db.byId.ptrs + db.byIp.ptrs) + rest))).bind fun _ => ?_
      · exact ((Multiset.le_add_right _ _).trans (Multiset.le_add_right _ _)).trans (Multiset.le_add_left _ _)
      · rw [Store.ptrs]
        abel
      · exact .pure fun _ ho => ⟨⟨⟨hdb.byId, hdb.byIp, Or.inl hsome⟩, fun _ => hsome⟩, ho⟩
  · rename_i hroom
    exact .pure fun _ ho => ⟨⟨hdb, fun _ => hdb.array.resolve_right hroom⟩, ho⟩

theorem addClient_owns {db : Store} (hdb : db.Ok) (hsome : db.clients.isSome = true) (clientId : CStr) :
    Triple (Owns base (db.ptrs + rest)) (addClient grants db clientId) fun r h =>
      r.1.Ok ∧ Owns base (r.1.ptrs + rest) h := by
  have hsplit : ∀ x : Index, blockOf db.clients + (x.ptrs + db.byIp.ptrs) + rest =
      x.ptrs + (blockOf db.clients + db.byIp.ptrs + rest) := fun x => by abel
  refine Triple.bind (Triple.reorder (slotidxInsert_owns hdb.byId _ _) (hsplit db.byId)) fun r => .of_fact fun hr => ?_
  have hle : blockOf db.clients ≤ r.1.ptrs + (blockOf db.clients + db.byIp.ptrs + rest) :=
    ((Multiset.le_add_right _ _).trans (Multiset.le_add_right _ _)).trans (Multiset.le_add_left _ _)
  split
  · refine (Store.sections_owns hle).bind fun cs => .of_fact fun _ => (Owns.write hsome hle _).bind fun _ => ?_
    exact .pure fun _ ho => ⟨⟨hr, hdb.byIp, Or.inl hsome⟩, by rwa [Store.ptrs, hsplit]⟩
  · exact .pure fun _ ho => ⟨⟨hr, hdb.byIp, Or.inl hsome⟩, by rwa [Store.ptrs, hsplit]⟩

theorem configDbGetClientSlot_owns {db : Store} (hdb : db.Ok) (clientId : CStr) :
    Triple (Owns base (db.ptrs + rest)) (configDbGetClientSlot grants db clientId) fun r h =>
      r.1.Ok ∧ Owns base (r.1.ptrs + rest) h := by
  unfold configDbGetClientSlot
  split
  · exact .pure fun _ ho => ⟨hdb, ho⟩
  · refine (configDbFindClient_owns hdb (Multiset.le_add_right _ _) clientId).bind fun found => ?_
    cases found with
    | some slot => exact .pure fun _ ho => ⟨hdb, ho⟩
    | none =>
      dsimp only
      split
      · exact .pure fun _ ho => ⟨hdb, ho⟩
      · refine (growClients_owns hdb).bind fun r => .of_fact fun hr => ?_
        split
        · rename_i hgrown
          exact addClient_owns hr.1 (hr.2 hgrown) clientId
        · exact .pure fun _ ho => ⟨hr.1, ho⟩

theorem changeClient_owns {db : Store} (hdb : db.Ok) (slot : ℕ) (f : ClientSection → Option ClientSection) :
    Triple (Owns base (db.ptrs + rest)) (changeClient db slot f) fun r h =>
      r.1.Ok ∧ Owns base (r.1.ptrs + rest) h := by
  have hle : blockOf db.clients ≤ db.ptrs + rest := (Multiset.le_add_right _ _).trans (Multiset.le_add_right _ _)
  refine (Store.sections_owns hle).bind fun cs => .of_fact fun hcs => ?_
  cases hc : cs[slot]?.bind f with
  | none => exact .pure fun _ ho => ⟨hdb, ho⟩
  | some c =>
    have hne : cs ≠ [] := by
      rintro rfl
      cases hc
    exact (Owns.write (hcs hne) hle _).bind fun _ => .pure fun _ ho => ⟨hdb, ho⟩

theorem indexIps_owns (cs : List (ClientSection × ℕ)) {byIp : Index} (hx : byIp.Ok) :
    Triple (Owns base (byIp.ptrs + rest)) (indexIps grants byIp cs) fun r h =>
      r.1.Ok ∧ Owns base (r.1.ptrs + rest) h := by
  induction cs generalizing byIp with
  | nil => exact .pure fun _ ho => ⟨hx, ho⟩
  | cons c cs ih =>
    unfold indexIps
    cases c.1.ipBe with
    | none => exact ih hx
    | some ip =>
      refine (slotidxInsert_owns hx _ _).bind fun r => .of_fact fun hr => ?_
      split
      · exact ih hr
      · exact .pure fun _ ho => ⟨hr, ho⟩

theorem configDbIndexIps_owns {db : Store} (hdb : db.Ok) :
    Triple (Owns base (db.ptrs + rest)) (configDbIndexIps grants db) fun r h =>
      r.1.Ok ∧ Owns base (r.1.ptrs + rest) h := by
  have hsplit : ∀ x : Index, blockOf db.clients + (db.byId.ptrs + x.ptrs) + rest =
      x.ptrs + (blockOf db.clients + db.byId.ptrs + rest) := fun x => by abel
  refine Triple.bind (Triple.reorder (slotidxReset_owns hdb.byIp _) (hsplit db.byIp)) fun r => .of_fact fun hr => ?_
  split
  · refine (Store.sections_owns ?_).bind fun cs => .of_fact fun _ =>
      (@indexIps_owns _ (blockOf db.clients + db.byId.ptrs + rest) _ _ _ hr).bind fun r => .of_fact fun hr => ?_
    · exact ((Multiset.le_add_right _ _).trans (Multiset.le_add_right _ _)).trans (Multiset.le_add_left _ _)
    · exact .pure fun _ ho => ⟨⟨hdb.byId, hr, hdb.array⟩, by rwa [Store.ptrs, hsplit]⟩
  · exact .pure fun _ ho => ⟨⟨hdb.byId, hr, hdb.array⟩, by rwa [Store.ptrs, hsplit]⟩

/-! ## The file -/

/-- The array of a file that is being read owns its blocks. -/
def StoreOwns (base : Heap Block) (rest : Multiset Ptr) (s : Store × Heap Block) : Prop :=
  s.1.Ok ∧ Owns base (s.1.ptrs + rest) s.2

theorem configLine_owns {st : Loading (Store × Heap Block)} {text : CStr} (h : StoreOwns base rest st.store) :
    StoreOwns base rest (configLine (memoryStore grants) st text).1.store := by
  unfold configLine
  cases configLineOf text with
  | blank => exact h
  | bad => exact h
  | server => exact h
  | defaults => exact h
  | client clientId =>
    have hslot : StoreOwns base rest ((memoryStore grants).getSlot st.store clientId).1 :=
      configDbGetClientSlot_owns h.1 clientId _ h.2
    dsimp only
    cases hget : (memoryStore grants).getSlot st.store clientId with
    | mk s slot =>
      rw [hget] at hslot
      cases slot with
      | none => exact hslot
      | some slot => exact hslot
  | value key value =>
    dsimp only
    unfold configValue
    split
    · exact h
    · split
      · exact h
      · exact h
    · split
      · exact h
      · split
        · exact h
        · exact h
    · exact changeClient_owns h.1 _ _ _ h.2

/-- **What a file allocates** is in the sections it leaves, also where it is refused. -/
theorem configDbParseFile_owns {s : Store × Heap Block} (h : StoreOwns base rest s) (file : ConfigSource) :
    StoreOwns base rest (configDbParseFile (memoryStore grants) s file).1.store := by
  unfold configDbParseFile
  split
  · exact h
  · exact h
  · exact h
  · rename_i data
    have hlines := configLines_invariant (memoryStore grants) (P := fun st => StoreOwns base rest st.store)
      (fun st text h => configLine_owns h) (show StoreOwns base rest (Loading.start s).store from h)
      (fgetsLines 511 data.length data)
    cases hc : configLines (memoryStore grants) (.start s) (fgetsLines 511 data.length data) with
    | mk st ok =>
      rw [hc] at hlines
      cases ok with
      | false => exact hlines
      | true =>
        have hips : StoreOwns base rest ((memoryStore grants).indexIps st.store).1 :=
          configDbIndexIps_owns hlines.1 _ hlines.2
        dsimp only
        cases hi : (memoryStore grants).indexIps st.store with
        | mk s ok =>
          rw [hi] at hips
          cases ok with
          | false => exact hips
          | true => exact hips

theorem configDbLoadFile_owns (file : ConfigSource) :
    Triple (Owns base own) (configDbLoadFile grants file) fun r h =>
      r.1.store.Ok ∧ Owns base (r.1.store.ptrs + own) h := by
  intro h ho
  have hnull : StoreOwns base own (Store.null, h) := ⟨.null, by rwa [show Store.null.ptrs = 0 from rfl, zero_add]⟩
  exact configDbParseFile_owns hnull file

theorem configDbFree_owns {db : Db} (heq : own = db.store.ptrs + rest) :
    Triple (Owns base own) (configDbFree db) fun _ => Owns base rest := by
  refine (Owns.free (?_ : _ = blockOf _ + (db.store.byId.ptrs + (db.store.byIp.ptrs + rest)))).bind fun _ =>
    (slotidxFree_owns rfl).bind fun _ => .of_fact fun _ => (slotidxFree_owns rfl).bind fun _ => .of_fact fun _ =>
      .pure fun _ h => h
  rw [heq, Store.ptrs]
  abel

theorem wipeProfilePsks_owns {db : Db} (hle : blockOf db.store.clients ≤ own) :
    Triple (Owns base own) (wipeProfilePsks db) fun r h => r.store = db.store ∧ Owns base own h := by
  refine (Store.sections_owns hle).bind fun cs => .of_fact fun _ => ?_
  dsimp only
  split
  · exact .pure fun _ h => ⟨rfl, h⟩
  · rename_i hsome
    exact (Owns.write (isSome_of_not_isNone hsome) hle _).bind fun _ => .pure fun _ h => ⟨rfl, h⟩

/-! ## The keystore -/

def Keystore.ptrs (ks : Keystore) : Multiset Ptr := blockOf ks.entries + (ks.byOwner.ptrs + ks.byKey.ptrs)

/-- A keystore that can be filled. -/
structure Keystore.Ok (ks : Keystore) : Prop where
  entries : ks.entries.isSome = true
  byOwner : ks.byOwner.Ok
  byKey : ks.byKey.Ok

def KeystoreOwns (base : Heap Block) (rest : Multiset Ptr) (ks : Keystore) (h : Heap Block) : Prop :=
  ks.Ok ∧ Owns base (ks.ptrs + rest) h

theorem Keystore.entries_le (ks : Keystore) (rest : Multiset Ptr) : blockOf ks.entries ≤ ks.ptrs + rest :=
  (Multiset.le_add_right _ _).trans (Multiset.le_add_right _ _)

theorem configKeystoreFree_owns {ks : Keystore} (heq : own = ks.ptrs + rest) :
    Triple (Owns base own) (configKeystoreFree ks) fun r h => r = .null ∧ Owns base rest h := by
  refine (Owns.free (?_ : _ = blockOf _ + (ks.byOwner.ptrs + (ks.byKey.ptrs + rest)))).bind fun _ =>
    (slotidxFree_owns rfl).bind fun _ => .of_fact fun _ => (slotidxFree_owns rfl).bind fun _ => .of_fact fun _ =>
      .pure fun _ h => ⟨rfl, h⟩
  rw [heq, Keystore.ptrs]
  abel

theorem newKeystore_owns (cap : ℕ) : Triple (Owns base own) (newKeystore grants cap) fun r h =>
    (r.2 = true → r.1.Ok) ∧ Owns base (r.1.ptrs + own) h := by
  have hptrs : ∀ (entries : Option Ptr) (owner key : Index),
      (Keystore.ptrs ⟨entries, 0, owner, key⟩) + own = owner.ptrs + (key.ptrs + (blockOf entries + own)) := by
    intro entries owner key
    rw [Keystore.ptrs]
    abel
  have hnull : ∀ own : Multiset Ptr, own = Index.null.ptrs + own := fun own => (zero_add own).symm
  refine (Owns.calloc grants _).bind fun entries => ?_
  split
  · refine .pure fun h ho => ⟨fun hfalse => Bool.noConfusion hfalse, ?_⟩
    have heq := hptrs entries .null .null
    rw [← hnull, ← hnull] at heq
    exact heq ▸ ho
  · rename_i hsome
    refine Triple.bind (Triple.reorder (slotidxReset_owns .null cap) (hnull _)) fun key => .of_fact fun hkey => ?_
    split
    · refine Triple.bind (Triple.reorder (slotidxReset_owns .null cap) (hnull _)) fun owner => .of_fact fun howner => ?_
      exact .pure fun h ho => ⟨fun _ => ⟨isSome_of_not_isNone hsome, howner, hkey⟩, hptrs entries _ _ ▸ ho⟩
    · refine .pure fun h ho => ⟨fun hfalse => Bool.noConfusion hfalse, ?_⟩
      have heq := hptrs entries .null key.1
      rw [← hnull] at heq
      exact heq ▸ ho

theorem Keystore.keys_owns {ks : Keystore} (hks : ks.Ok) :
    Triple (Owns base (ks.ptrs + rest)) ks.keys fun _ => Owns base (ks.ptrs + rest) :=
  (Owns.read hks.entries (ks.entries_le rest)).bind fun _ => .pure fun _ h => h

theorem addEntry_owns {ks : Keystore} (hks : ks.Ok) (e : KeystoreEntry) :
    Triple (Owns base (ks.ptrs + rest)) (addEntry ks e) (KeystoreOwns base rest) :=
  (Keystore.keys_owns hks).bind fun _ => (Owns.write hks.entries (ks.entries_le rest) _).bind fun _ =>
    .pure fun _ h => ⟨⟨hks.entries, hks.byOwner, hks.byKey⟩, h⟩

theorem addSections_owns {Hs : Type} (N : Noise Hs) (keys : KeyMemory) (cs : List ClientSection) {ks : Keystore}
    (hks : ks.Ok) : Triple (Owns base (ks.ptrs + rest)) (addSections N keys ks cs) fun r h =>
      KeystoreOwns base rest r.1 h := by
  induction cs generalizing ks with
  | nil => exact .pure fun _ h => ⟨hks, h⟩
  | cons c cs ih =>
    unfold addSections
    split
    · exact ih hks
    · split
      · exact .pure fun _ h => ⟨hks, h⟩
      · exact (addEntry_owns hks _).bind fun ks => .of_fact fun hks => ih hks
      · exact (addEntry_owns hks _).bind fun ks => .of_fact fun hks => ih hks

theorem fillKeystore_owns {Hs : Type} (N : Noise Hs) (keys : KeyMemory) (ctx : CryptoCtx) {db : Db} {ks : Keystore}
    (hks : ks.Ok) (hle : blockOf db.store.clients ≤ rest) :
    Triple (Owns base (ks.ptrs + rest)) (fillKeystore N keys ctx db ks) fun r h => KeystoreOwns base rest r.1 h := by
  have hglobal : Triple (Owns base (ks.ptrs + rest)) (addGlobal ctx ks) (KeystoreOwns base rest) := by
    unfold addGlobal
    split
    · exact addEntry_owns hks _
    · exact .pure fun _ h => ⟨hks, h⟩
  exact hglobal.bind fun ks => .of_fact fun hks =>
    (Store.sections_owns (hle.trans (Multiset.le_add_left _ _))).bind fun _ => .of_fact fun _ =>
      addSections_owns N keys _ hks

theorem indexKey_owns {ks : Keystore} (hks : ks.Ok) (e : KeystoreEntry) (i : ℕ) :
    Triple (Owns base (ks.ptrs + rest)) (indexKey grants ks e i) fun r h => KeystoreOwns base rest r.1 h := by
  have hsplit : ∀ x : Index, blockOf ks.entries + (ks.byOwner.ptrs + x.ptrs) + rest =
      x.ptrs + (blockOf ks.entries + ks.byOwner.ptrs + rest) := fun x => by abel
  have hkey : ks.byKey.ptrs ≤ ks.ptrs + rest :=
    ((Multiset.le_add_left _ _).trans (Multiset.le_add_left _ _)).trans (Multiset.le_add_right _ _)
  unfold indexKey
  split
  · exact .pure fun _ h => ⟨hks, h⟩
  · refine Triple.bind ((Keystore.keys_owns hks).bind fun _ => slotidxFind_owns hks.byKey hkey _ _) fun first => ?_
    split
    · exact .pure fun _ h => ⟨hks, h⟩
    · refine Triple.bind (Triple.reorder (slotidxInsert_owns hks.byKey _ _) (hsplit ks.byKey)) fun r =>
        .of_fact fun hr => ?_
      exact .pure fun _ ho => ⟨⟨hks.entries, hks.byOwner, hr⟩, by rwa [Keystore.ptrs, hsplit]⟩

theorem indexOwner_owns {ks : Keystore} (hks : ks.Ok) (e : KeystoreEntry) (i : ℕ) :
    Triple (Owns base (ks.ptrs + rest)) (indexOwner grants ks e i) fun r h => KeystoreOwns base rest r.1 h := by
  have hsplit : ∀ x : Index, blockOf ks.entries + (x.ptrs + ks.byKey.ptrs) + rest =
      x.ptrs + (blockOf ks.entries + ks.byKey.ptrs + rest) := fun x => by abel
  unfold indexOwner
  split
  · exact .pure fun _ h => ⟨hks, h⟩
  · refine Triple.bind (Triple.reorder (slotidxInsert_owns hks.byOwner _ _) (hsplit ks.byOwner)) fun r =>
      .of_fact fun hr => ?_
    exact .pure fun _ ho => ⟨⟨hks.entries, hr, hks.byKey⟩, by rwa [Keystore.ptrs, hsplit]⟩

theorem indexEntries_owns (es : List (KeystoreEntry × ℕ)) {ks : Keystore} (hks : ks.Ok) :
    Triple (Owns base (ks.ptrs + rest)) (indexEntries grants ks es) fun r h => KeystoreOwns base rest r.1 h := by
  induction es generalizing ks with
  | nil => exact .pure fun _ h => ⟨hks, h⟩
  | cons e es ih =>
    refine (indexKey_owns hks e.1 e.2).bind fun r => .of_fact fun hr => ?_
    split
    · refine (indexOwner_owns hr e.1 e.2).bind fun r => .of_fact fun hr => ?_
      split
      · exact ih hr
      · exact .pure fun _ h => ⟨hr, h⟩
    · exact .pure fun _ h => ⟨hr, h⟩

/-- **The keystore** is built whole or not at all; the sections stay where they are. -/
theorem configBuildKeystore_owns {Hs : Type} (N : Noise Hs) (keys : KeyMemory) (ctx : CryptoCtx) {db : Db}
    (hle : blockOf db.store.clients ≤ own) :
    Triple (Owns base own) (configBuildKeystore grants N keys ctx db) fun r h =>
      r.2.1.store = db.store ∧ Owns base (r.1.ptrs + own) h := by
  have hnull : ∀ own : Multiset Ptr, Keystore.null.ptrs + own = own := fun own => zero_add own
  unfold configBuildKeystore
  split
  · refine (wipeProfilePsks_owns hle).bind fun db' => .of_fact fun hdb => ?_
    exact .pure fun _ ho => ⟨hdb, by rwa [hnull]⟩
  · refine (newKeystore_owns _).bind fun r => .of_fact fun hr => ?_
    have hle' : ∀ ks : Keystore, blockOf db.store.clients ≤ ks.ptrs + own :=
      fun ks => hle.trans (Multiset.le_add_left _ _)
    split
    · rename_i hok
      refine (fillKeystore_owns N keys ctx (hr hok) hle).bind fun r => .of_fact fun hr => ?_
      split
      · refine (wipeProfilePsks_owns (hle' r.1)).bind fun db' => .of_fact fun hdb => ?_
        refine (Keystore.keys_owns hr).bind fun es => (indexEntries_owns _ hr).bind fun r => .of_fact fun hr => ?_
        split
        · exact .pure fun _ ho => ⟨hdb, ho⟩
        · refine (configKeystoreFree_owns rfl).bind fun ks => .of_fact ?_
          rintro rfl
          exact .pure fun _ ho => ⟨hdb, by rwa [hnull]⟩
      · refine (configKeystoreFree_owns rfl).bind fun ks => .of_fact ?_
        rintro rfl
        refine (wipeProfilePsks_owns hle).bind fun db' => .of_fact fun hdb => ?_
        exact .pure fun _ ho => ⟨hdb, by rwa [hnull]⟩
    · refine (configKeystoreFree_owns rfl).bind fun ks => .of_fact ?_
      rintro rfl
      refine (wipeProfilePsks_owns hle).bind fun db' => .of_fact fun hdb => ?_
      exact .pure fun _ ho => ⟨hdb, by rwa [hnull]⟩

/-! ## The reload -/

section Reload

variable {n : ℕ} {Hs : Type} (N : Noise Hs) (env : ReloadEnv n)

def Globals.ptrs (g : Globals) : Multiset Ptr := g.serverDb.store.ptrs + g.serverKs.ptrs

/-- The blocks of the new configuration, as far as it got. -/
def Switched.ptrs (s : Switched) : Multiset Ptr :=
  s.globals.serverDb.store.ptrs + if s.ksRebuilt then s.globals.serverKs.ptrs else 0

theorem reloadGlobalKey_same {Hs : Type} (N : Noise Hs) (keys : KeyMemory) (fromCli : Bool) (fingerprint : Key → Bytes)
    (g : Globals) : (reloadGlobalKey N keys fromCli fingerprint g).1.serverDb.store = g.serverDb.store ∧
      (reloadGlobalKey N keys fromCli fingerprint g).1.serverKs = g.serverKs := by
  unfold reloadGlobalKey
  dsimp only
  split
  · exact ⟨rfl, rfl⟩
  · split
    · exact ⟨rfl, rfl⟩
    · split
      · exact ⟨rfl, rfl⟩
      · exact ⟨rfl, rfl⟩

/-- **The new configuration** owns what was allocated for it, and the old keystore stays in place until it is rebuilt. -/
theorem reloadSwitch_owns (fromCli : Bool) (g : Globals) :
    Triple (Owns base own) (reloadSwitch N env fromCli g) fun s h =>
      ((s.ksRebuilt = false → s.globals.serverKs = g.serverKs) ∧ (s.restore = false → s.ksRebuilt = true)) ∧
        Owns base (s.ptrs + own) h := by
  refine (configDbLoadFile_owns env.file).bind fun r => .of_fact fun hr => ?_
  dsimp only
  split
  · exact .pure fun _ ho => ⟨⟨fun _ => rfl, fun hfalse => Bool.noConfusion hfalse⟩, by
      rwa [Switched.ptrs, if_neg Bool.false_ne_true, add_zero]⟩
  · have hkey := reloadGlobalKey_same N env.keys fromCli env.fingerprint { g with serverDb := r.1 }
    generalize reloadGlobalKey N env.keys fromCli env.fingerprint { g with serverDb := r.1 } = k at hkey
    have hstore : (dropServerKey k.1).serverDb.store = r.1.store := hkey.1
    have hks : (dropServerKey k.1).serverKs = g.serverKs := hkey.2
    split
    · exact .pure fun _ ho => ⟨⟨fun _ => hks, fun hfalse => Bool.noConfusion hfalse⟩, by
        rwa [Switched.ptrs, if_neg Bool.false_ne_true, add_zero, hstore]⟩
    · refine (configBuildKeystore_owns N env.keys _ ?_).bind fun b => .of_fact fun hb => ?_
      · rw [hstore]
        exact (Multiset.le_add_right _ _).trans (Multiset.le_add_right _ _)
      · refine .pure fun _ ho => ⟨⟨fun hfalse => Bool.noConfusion hfalse, fun _ => rfl⟩, ?_⟩
        rw [Switched.ptrs, if_pos rfl, hb, hstore]
        have heq : r.1.store.ptrs + b.1.ptrs + own = b.1.ptrs + (r.1.store.ptrs + own) := by abel
        rwa [heq]

/-- **The way back** frees the new configuration, each block once, and puts the copies back. -/
theorem reloadRestore_owns {saved : Globals} {s : Switched}
    (hs : s.ksRebuilt = false → s.globals.serverKs = saved.serverKs) :
    Triple (Owns base (s.ptrs + own)) (reloadRestore saved s) fun g h => g = saved ∧ Owns base own h := by
  refine (configDbFree_owns (?_ : _ = Store.ptrs _ + ((if s.ksRebuilt then s.globals.serverKs.ptrs else 0) + own))).bind
    fun _ => ?_
  · rw [Switched.ptrs, add_assoc]
  · split
    · exact (configKeystoreFree_owns rfl).bind fun _ => .of_fact fun _ => .pure fun _ ho => ⟨rfl, ho⟩
    · rename_i hks
      refine .pure fun _ ho => ⟨?_, by rwa [zero_add] at ho⟩
      rw [hs (by simpa using hks)]

/-- The copies go when the new configuration stays. -/
theorem reloadRelease_owns {saved : Globals} {s : Switched} :
    Triple (Owns base (s.globals.ptrs + (saved.ptrs + own))) (reloadRelease saved s) fun g h =>
      g = s.globals ∧ Owns base (s.globals.ptrs + own) h := by
  refine (configDbFree_owns (?_ : _ = Store.ptrs _ + (saved.serverKs.ptrs + (s.globals.ptrs + own)))).bind fun _ =>
    (configKeystoreFree_owns rfl).bind fun _ => .of_fact fun _ => .pure fun _ ho => ⟨rfl, ho⟩
  rw [Globals.ptrs, Globals.ptrs]
  abel

/-- **Every reload** leaves the globals the owner of their blocks: none is lost, freed twice or used when it is freed. -/
theorem reloadGlobals_owns (fromCli : Bool) (g : Globals) :
    Triple (Owns base (g.ptrs + own)) (reloadGlobals N env fromCli g) fun r h =>
      (r.2 = false → r.1 = g) ∧ Owns base (r.1.ptrs + own) h := by
  refine (reloadSwitch_owns N env fromCli g).bind fun s => .of_fact fun hs => ?_
  split
  · refine (reloadRestore_owns hs.1).bind fun g' => .of_fact ?_
    rintro rfl
    exact .pure fun _ ho => ⟨fun _ => rfl, ho⟩
  · rename_i hrestore
    have hrebuilt := hs.2 (by simpa using hrestore)
    have hptrs : s.ptrs = s.globals.ptrs := by rw [Switched.ptrs, if_pos hrebuilt, Globals.ptrs]
    rw [hptrs]
    refine reloadRelease_owns.bind fun g' => .of_fact ?_
    rintro rfl
    exact .pure fun _ ho => ⟨fun hfalse => Bool.noConfusion hfalse, ho⟩

/-- **A reload that goes back** leaves every block and every global as it was. -/
theorem reloadGlobals_failed (fromCli : Bool) (g : Globals) (h : Heap Block) :
    Triple (Owns h 0) (reloadGlobals N env fromCli g) fun r h' => r.2 = false → r.1 = g ∧ Owns h 0 h' := by
  refine (reloadSwitch_owns N env fromCli g).bind fun s => .of_fact fun hs => ?_
  split
  · refine (reloadRestore_owns hs.1).bind fun g' => .of_fact ?_
    rintro rfl
    exact .pure fun _ ho _ => ⟨rfl, ho⟩
  · have hrelease : Triple (Owns h (s.ptrs + 0)) (reloadRelease g s) fun _ _ => True := fun _ _ => trivial
    exact hrelease.bind fun _ => .pure fun _ _ hfalse => Bool.noConfusion hfalse

/-! ## The program -/

/-- The globals of a program own their blocks. -/
def Program.Owned (base : Heap Block) (p : Program n) : Prop := Owns base p.globals.ptrs p.heap

theorem Program.revalidate_same (p : Program n) :
    (p.revalidate env).globals = p.globals ∧ (p.revalidate env).heap = p.heap := by
  unfold Program.revalidate
  split
  · exact ⟨rfl, rfl⟩
  · exact ⟨rfl, rfl⟩

theorem Program.Owned.reload {p : Program n} (hp : p.Owned base) : (p.reload N env).1.Owned base := by
  have hp : Owns base (p.globals.ptrs + 0) p.heap := by rwa [add_zero]
  have hrun := reloadGlobals_owns N env p.server.conf.cfg.globalPskFromCli p.globals p.heap hp
  unfold Program.reload Program.Owned
  dsimp only
  split
  · rw [(Program.revalidate_same env _).1, (Program.revalidate_same env _).2]
    exact add_zero (Globals.ptrs _) ▸ hrun.2
  · exact add_zero (Globals.ptrs _) ▸ hrun.2

/-- **Over any reloads**, whatever fails in them, the globals own their blocks and nothing else is touched. -/
theorem Program.Owned.reloads {p : Program n} (hp : p.Owned base) (envs : List (ReloadEnv n)) :
    (envs.foldl (fun p env => (p.reload N env).1) p).Owned base := by
  induction envs generalizing p with
  | nil => exact hp
  | cons env envs ih => exact ih (hp.reload N env)

/-- Nothing of a program has changed but that no reload waits. -/
structure Program.Unchanged (p q : Program n) : Prop where
  blocks : q.heap.blocks = p.heap.blocks
  fault : q.heap.fault = p.heap.fault
  serverDb : q.globals.serverDb = p.globals.serverDb
  serverKs : q.globals.serverKs = p.globals.serverKs
  cryptoCtx : q.globals.cryptoCtx = p.globals.cryptoCtx
  clients : q.server.clients = p.server.clients
  leases : q.server.leases = p.server.leases
  server : q.server = p.server
  currentConfig : q.currentConfig = p.currentConfig
  conf : q.conf = p.conf

/-- **A reload that fails changes nothing.** -/
theorem reload_failed (p : Program n) (hfail : (p.reload N env).2 = false) : p.Unchanged (p.reload N env).1 := by
  have hrun := reloadGlobals_failed N env p.server.conf.cfg.globalPskFromCli p.globals p.heap p.heap (.refl p.heap)
  unfold Program.reload at hfail ⊢
  dsimp only at hfail ⊢
  split at hfail
  · cases hfail
  · rename_i hback
    rw [if_neg hback]
    obtain ⟨hglobals, ho⟩ := hrun (by simpa using hback)
    obtain ⟨hblocks, hfault⟩ := ho.nothing
    refine ⟨hblocks, hfault, by rw [hglobals], by rw [hglobals], by rw [hglobals], rfl, rfl, rfl, rfl, ?_⟩
    unfold Program.conf
    dsimp only
    rw [hglobals, hblocks]

end Reload

def toyProgram : Program 1 where
  heap := ⟨fun _ => none, 0, 0, false, fun _ _ => rfl⟩
  globals := ⟨.zero, .null, ⟨toyCtx, []⟩⟩
  server := toyServer 1 .udp toyDb
  currentConfig := .zero
  controlFromCli := false
  reloadConfig := true

/-- A reload of a file that is not there, with memory for the first allocations. -/
def toyReload (granted : ℕ) : ReloadEnv 1 where
  file := .missing
  grants k := k < granted
  keys := .ample
  fingerprint _ := []
  grow _ := fun _ => true

/-- There is memory for the entries of the keystore and not for its indexes. -/
theorem reload_failed_memory : toyProgram.Unchanged (toyProgram.reload toyNoise (toyReload 1)).1 :=
  reload_failed toyNoise (toyReload 1) toyProgram (by decide +kernel)

end Camex.Memory
