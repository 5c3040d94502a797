import Camex.Config
import Camex.NoiseHandshake
import Camex.Slotidx

/-!
# The keystore with its indexes (`config.c`)

`server_ks` with `by_key` and `by_owner`. Sections may have any IDs here, also such that differ in case only.

* `IndexedKeystore.ksFindKey` and the queries over it;
* `IndexedKeystore.indexEntries`: the loop that builds the indexes, with the lookup in what is built so far;
* `IndexedKeystore.configBuildKeystore`.
-/

namespace Camex

open Lib

/-- `camex_keystore_t`. -/
structure IndexedKeystore where
  entries : List KeystoreEntry
  byKey : Slotidx
  byOwner : Slotidx

namespace IndexedKeystore

def null : IndexedKeystore := ⟨[], .none, .none⟩

/-! ## Queries -/

/-- `ks_key_match`; no owner: any, no bound: all entries. -/
def ksKeyMatch (ks : IndexedKeystore) (key : Key) (owner : Option CStr) (below : Option ℕ) (slot : ℕ) : Bool :=
  below.all (fun b => decide (slot < b)) && ks.entries[slot]?.any fun e =>
    !e.locked && e.pskKey == key && owner.all fun o => strcaseeq e.owner o

/-- `ks_owner_match`; no key: any. -/
def ksOwnerMatch (ks : IndexedKeystore) (owner : CStr) (key : Option Key) (slot : ℕ) : Bool :=
  ks.entries[slot]?.any fun e =>
    e.owner != [] && strcaseeq e.owner owner && key.all fun k => !e.locked && e.pskKey == k

def ksFindKey (ks : IndexedKeystore) (key : Key) (owner : Option CStr) (below : Option ℕ) : Option ℕ :=
  slotidxFind ks.byKey (slotidxHashBytes (keyBytes key)) (ks.ksKeyMatch key owner below)

def configKsOwner (ks : IndexedKeystore) (key : Key) : CStr :=
  match ks.ksFindKey key none none with
  | some i => ks.entries[i]?.elim [] KeystoreEntry.owner
  | none => []

def configKsHasOwner (ks : IndexedKeystore) (clientId : CStr) : Bool :=
  clientId != [] && (slotidxFind ks.byOwner (slotidxHashNocase clientId) (ks.ksOwnerMatch clientId none)).isSome

def configKsKeyOwnedBy (ks : IndexedKeystore) (key : Key) (clientId : CStr) : Bool :=
  clientId != [] && (slotidxFind ks.byOwner (slotidxHashNocase clientId) (ks.ksOwnerMatch clientId (some key))).isSome

def configKsContains (ks : IndexedKeystore) (key : Key) : Bool := (ks.ksFindKey key none none).isSome

def configKsIsGlobal (ks : IndexedKeystore) (key : Key) : Bool := (ks.ksFindKey key (some []) none).isSome

def configKsFind (ks : IndexedKeystore) (key : Key) : Option ℕ := ks.ksFindKey key none none

/-! ## Building it -/

def indexKey (ks : IndexedKeystore) (grow : Bool) (e : KeystoreEntry) (i : ℕ) : Option IndexedKeystore :=
  if e.locked || (ks.ksFindKey e.pskKey none (some i)).isSome then some ks
  else (slotidxInsert ks.byKey grow (slotidxHashBytes (keyBytes e.pskKey)) i).map fun x => { ks with byKey := x }

def indexOwner (ks : IndexedKeystore) (grow : Bool) (e : KeystoreEntry) (i : ℕ) : Option IndexedKeystore :=
  if e.owner = [] then some ks
  else (slotidxInsert ks.byOwner grow (slotidxHashNocase e.owner) i).map fun x => { ks with byOwner := x }

/-- The loop that indexes the entries; `grow i`: is there memory for a bigger index by key, and by owner? -/
def indexEntries (grow : ℕ → Bool × Bool) (ks : IndexedKeystore) :
    List (KeystoreEntry × ℕ) → Option IndexedKeystore
  | [] => some ks
  | (e, i) :: es =>
    (ks.indexKey (grow i).1 e i).bind fun ks =>
      (ks.indexOwner (grow i).2 e i).bind fun ks => indexEntries grow ks es

section Keys

variable {Hs : Type} (N : Noise Hs) (keys : KeyMemory)

/-- The entries of the sections with their own `psk=`; `none`: no memory for a key. -/
def sectionEntries : List ServerProfile → Option (List KeystoreEntry)
  | [] => some []
  | c :: cs =>
    if !c.active || c.profile.psk == [] then sectionEntries cs
    else if derivePskKey N keys c.profile.psk = .noMem then none
    else (sectionEntries cs).map (keystoreEntryOf N keys c :: ·)

/-- The allocations of a build. -/
structure StoreMemory where
  entries : Bool
  byKey : Bool
  byOwner : Bool
  grow : ℕ → Bool × Bool

/-- The global key, when there is one. -/
def globalEntries (ctx : CryptoCtx) : List KeystoreEntry := if ctx.hasGlobal then [⟨ctx.pskKey, [], false⟩] else []

/-- `config_build_keystore`; `none`: not 0. -/
def configBuildKeystore (mem : StoreMemory) (ctx : CryptoCtx) (clients : List ServerProfile) :
    Option IndexedKeystore :=
  if !ctx.ready then some null
  else
    let byKey := slotidxReset .none mem.byKey (clients.length + 1)
    let byOwner := slotidxReset .none mem.byOwner (clients.length + 1)
    if mem.entries && byKey.1 && byOwner.1 then
      (sectionEntries N keys clients).bind fun es =>
        let entries := globalEntries ctx ++ es
        (indexEntries mem.grow ⟨entries, byKey.2, byOwner.2⟩ entries.zipIdx).bind fun ks =>
          if entries.all KeystoreEntry.locked then none else some ks
    else none

end Keys

end IndexedKeystore

end Camex
