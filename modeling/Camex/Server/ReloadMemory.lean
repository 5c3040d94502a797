import Camex.ConfigFile
import Camex.Lib.Heap
import Camex.NoiseHandshake
import Camex.Server.Reload
import Camex.Slotidx

/-!
# The reload block with its memory (`camex_run`, `config.c`, `slotidx.c`)

`server_db` and `server_ks` point to arrays of profiles, of keystore entries and of index buckets. A reload keeps
shallow copies of both aside, reads the new configuration over them and frees one of the two in the end.

* `memoryStore`: the sections of a file in a growing block, with their index;
* `configBuildKeystore`: the keystore with its indexes, or none of it;
* `Program.reload`: the reload block.
-/

namespace Camex.Memory

open Lib

/-- What a block of memory holds. -/
inductive Block
  | clients (cs : List ClientSection)
  | entries (es : List KeystoreEntry)
  | hashes (hs : List (BitVec 32))
  | slots (ss : List ℕ)

def zeroSection : ClientSection := ⟨⟨[], .empty, false⟩, []⟩

def zeroEntry : KeystoreEntry := ⟨0, [], false⟩

def Block.sections : Option Block → List ClientSection
  | some (.clients cs) => cs
  | _ => []

def Block.keys : Option Block → List KeystoreEntry
  | some (.entries es) => es
  | _ => []

/-! ## Hash indexes -/

/-- `slotidx_t`. -/
structure Index where
  hash : Option Ptr
  slot : Option Ptr
  mask : ℕ
  used : ℕ
  deriving DecidableEq

def Index.null : Index := ⟨none, none, 0, 0⟩

/-- The buckets of two arrays; a slot is stored with one added, 0 is an empty bucket. -/
def bucketsOf : Option Block → Option Block → List (Option (BitVec 32 × ℕ))
  | some (.hashes hs), some (.slots ss) => List.zipWith (fun h s => if s = 0 then none else some (h, s - 1)) hs ss
  | _, _ => []

def Index.load (x : Index) : Mem Block Slotidx := do
  let hs ← Mem.read x.hash
  let ss ← Mem.read x.slot
  pure ⟨bucketsOf hs ss, x.used⟩

def Index.save (x : Index) (t : Slotidx) : Mem Block Index := do
  Mem.write x.hash (.hashes (t.buckets.map fun b => b.elim 0 Prod.fst))
  Mem.write x.slot (.slots (t.buckets.map fun b => b.elim 0 fun k => k.2 + 1))
  pure { x with used := t.used }

def slotidxFree (x : Index) : Mem Block Index := do
  Mem.free x.hash
  Mem.free x.slot
  pure .null

section Allocating

-- which of the allocations, counted from the start, `key_locked_calloc` grants
variable (grants : ℕ → Bool)

/-- `alloc_table`; `false`: -1. -/
def allocTable (n : ℕ) : Mem Block (Index × Bool) := do
  let hash ← Mem.calloc grants (.hashes (List.replicate n 0))
  let slot ← Mem.calloc grants (.slots (List.replicate n 0))
  if hash.isNone || slot.isNone then do
    let x ← slotidxFree ⟨hash, slot, 0, 0⟩
    pure (x, false)
  else pure (⟨hash, slot, n - 1, 0⟩, true)

def slotidxReset (x : Index) (entries : ℕ) : Mem Block (Index × Bool) :=
  let n := bucketsFor entries
  if x.mask ≠ 0 ∧ x.mask + 1 = n then do
    let x ← x.save (Camex.allocTable n)
    pure (x, true)
  else do
    let _ ← slotidxFree x
    allocTable grants n

/-- `put`. -/
def slotidxPut (x : Index) (h : BitVec 32) (slot : ℕ) : Mem Block Index := do
  let t ← x.load
  x.save (Camex.slotidxPut t h slot)

/-- The buckets of the old table, put into the bigger one. -/
def rehash (x bigger : Index) : Mem Block Index :=
  if x.mask = 0 then pure bigger
  else do
    let t ← x.load
    t.buckets.foldlM (fun b k => match k with
      | none => pure b
      | some (h, slot) => slotidxPut b h slot) bigger

/-- `slotidx_insert`; `false`: -1. -/
def slotidxInsert (x : Index) (h : BitVec 32) (slot : ℕ) : Mem Block (Index × Bool) :=
  if x.mask = 0 ∨ x.mask + 1 < (x.used + 1) * 2 then do
    let r ← allocTable grants (if x.mask = 0 then SLOTIDX_MIN_BUCKETS else (x.mask + 1) * 2)
    if r.2 then do
      let bigger ← rehash x r.1
      let _ ← slotidxFree x
      let y ← slotidxPut bigger h slot
      pure (y, true)
    else pure (x, false)
  else do
    let y ← slotidxPut x h slot
    pure (y, true)

def slotidxFind (x : Index) (h : BitVec 32) (holds : ℕ → Bool) : Mem Block (Option ℕ) :=
  if x.mask = 0 then pure none
  else do
    let t ← x.load
    pure (Camex.slotidxFind t h holds)

/-! ## The sections -/

/-- The array of sections in `server_db` with its indexes. -/
structure Store where
  clients : Option Ptr
  clientCount : ℕ
  clientCap : ℕ
  byId : Index
  byIp : Index
  deriving DecidableEq

def Store.null : Store := ⟨none, 0, 0, .null, .null⟩

/-- The array; there are no sections without one. -/
def Store.sections (db : Store) : Mem Block (List ClientSection) :=
  if db.clients.isNone then pure []
  else do
    let b ← Mem.read db.clients
    pure (Block.sections b)

def profileIdMatch (count : ℕ) (cs : List ClientSection) (clientId : CStr) (slot : ℕ) : Bool :=
  decide (slot < count) && cs[slot]?.any fun c => c.active && strcaseeq c.clientId clientId

def configDbFindClient (db : Store) (clientId : CStr) : Mem Block (Option ℕ) := do
  let cs ← db.sections
  slotidxFind db.byId (slotidxHashNocase clientId) (profileIdMatch db.clientCount cs clientId)

/-- Room for one more section: a full array is copied into one twice as large, wiped and freed. -/
def growClients (db : Store) : Mem Block (Store × Bool) :=
  if db.clientCount = db.clientCap then
    let cap := if db.clientCap ≠ 0 then db.clientCap * 2 else 16
    do
      let grown ← Mem.calloc grants (.clients (List.replicate cap zeroSection))
      if grown.isNone then pure (db, false)
      else do
        let cs ← db.sections
        Mem.write grown (.clients (cs.take db.clientCount ++ List.replicate (cap - db.clientCount) zeroSection))
        Mem.free db.clients
        pure ({ db with clients := grown, clientCap := cap }, true)
  else pure (db, true)

def addClient (db : Store) (clientId : CStr) : Mem Block (Store × Option ℕ) := do
  let r ← slotidxInsert grants db.byId (slotidxHashNocase clientId) db.clientCount
  if r.2 then do
    let cs ← db.sections
    Mem.write db.clients (.clients (cs.set db.clientCount (.new clientId)))
    pure ({ db with byId := r.1, clientCount := db.clientCount + 1 }, some db.clientCount)
  else pure ({ db with byId := r.1 }, none)

def configDbGetClientSlot (db : Store) (clientId : CStr) : Mem Block (Store × Option ℕ) :=
  if clientId = [] then pure (db, none)
  else do
    let found ← configDbFindClient db clientId
    match found with
    | some slot => pure (db, some slot)
    | none =>
      if CAMEX_CLIENT_ID_LEN ≤ clientId.length ∨ CAMEX_MAX_CLIENTS_LIMIT ≤ db.clientCount then pure (db, none)
      else do
        let r ← growClients grants db
        if r.2 then addClient grants r.1 clientId else pure (r.1, none)

/-- A value of a section that was got. -/
def changeClient (db : Store) (slot : ℕ) (f : ClientSection → Option ClientSection) : Mem Block (Store × Bool) := do
  let cs ← db.sections
  match cs[slot]?.bind f with
  | none => pure (db, false)
  | some c => do
    Mem.write db.clients (.clients (cs.set slot c))
    pure (db, true)

/-- The loop of `config_db_index_ips`. -/
def indexIps (byIp : Index) : List (ClientSection × ℕ) → Mem Block (Index × Bool)
  | [] => pure (byIp, true)
  | (c, i) :: cs =>
    match c.ipBe with
    | none => indexIps byIp cs
    | some ip => do
      let r ← slotidxInsert grants byIp (slotidxHashU32 ip) i
      if r.2 then indexIps r.1 cs else pure (r.1, false)

def configDbIndexIps (db : Store) : Mem Block (Store × Bool) := do
  let r ← slotidxReset grants db.byIp db.clientCount
  if r.2 then do
    let cs ← db.sections
    let r ← indexIps grants r.1 (cs.take db.clientCount).zipIdx
    pure ({ db with byIp := r.1 }, r.2)
  else pure ({ db with byIp := r.1 }, false)

def memoryStore : ClientStore (Store × Heap Block) where
  getSlot s clientId :=
    let r := configDbGetClientSlot grants s.1 clientId s.2
    ((r.1.1, r.2), r.1.2)
  change s slot f :=
    let r := changeClient s.1 slot f s.2
    ((r.1.1, r.2), r.1.2)
  indexIps s :=
    let r := configDbIndexIps grants s.1 s.2
    ((r.1.1, r.2), r.1.2)

/-! ## `server_db` -/

/-- `camex_server_db_t`. -/
structure Db where
  defaults : Profile
  store : Store
  globals : ServerSection
  loaded : Bool

def Db.zero : Db := ⟨.empty, .null, { ServerSection.reset with poolNet := 0, poolPrefix := 0 }, false⟩

def configDbLoadFile (file : ConfigSource) : Mem Block (Db × Bool) := fun h =>
  let r := configDbParseFile (memoryStore grants) (Store.null, h) file
  ((⟨r.1.defaults, r.1.store.1, r.1.globals, r.1.loaded⟩, r.2), r.1.store.2)

def configDbFree (db : Db) : Mem Block Db := do
  Mem.free db.store.clients
  let _ ← slotidxFree db.store.byId
  let _ ← slotidxFree db.store.byIp
  pure .zero

def wipeProfilePsks (db : Db) : Mem Block Db := do
  let cs ← db.store.sections
  let wiped := cs.map fun c => { c with profile := { c.profile with psk := [] } }
  if db.store.clients.isNone then pure ()
  else Mem.write db.store.clients (.clients wiped)
  pure { db with defaults := { db.defaults with psk := [] } }

/-! ## `server_ks` -/

/-- `camex_keystore_t`. -/
structure Keystore where
  entries : Option Ptr
  count : ℕ
  byOwner : Index
  byKey : Index
  deriving DecidableEq

def Keystore.null : Keystore := ⟨none, 0, .null, .null⟩

def configKeystoreFree (ks : Keystore) : Mem Block Keystore := do
  Mem.free ks.entries
  let _ ← slotidxFree ks.byOwner
  let _ ← slotidxFree ks.byKey
  pure .null

def Keystore.keys (ks : Keystore) : Mem Block (List KeystoreEntry) := do
  let b ← Mem.read ks.entries
  pure (Block.keys b)

/-- `ks_key_match` for any owner. -/
def ksKeyMatch (es : List KeystoreEntry) (count below : ℕ) (key : Key) (slot : ℕ) : Bool :=
  decide (slot < count) && decide (slot < below) && es[slot]?.any fun e => !e.locked && e.pskKey == key

/-- `ks_find_key` for any owner. -/
def ksFindKey (ks : Keystore) (key : Key) (below : ℕ) : Mem Block (Option ℕ) := do
  let es ← ks.keys
  slotidxFind ks.byKey (slotidxHashBytes (keyBytes key)) (ksKeyMatch es ks.count below key)

def newKeystore (cap : ℕ) : Mem Block (Keystore × Bool) := do
  let entries ← Mem.calloc grants (.entries (List.replicate cap zeroEntry))
  if entries.isNone then pure ({ Keystore.null with entries := entries }, false)
  else do
    let key ← slotidxReset grants .null cap
    if key.2 then do
      let owner ← slotidxReset grants .null cap
      pure ({ Keystore.null with entries := entries, byKey := key.1, byOwner := owner.1 }, owner.2)
    else pure ({ Keystore.null with entries := entries, byKey := key.1 }, false)

def addEntry (ks : Keystore) (e : KeystoreEntry) : Mem Block Keystore := do
  let es ← ks.keys
  Mem.write ks.entries (.entries (es.set ks.count e))
  pure { ks with count := ks.count + 1 }

section Keys

variable {Hs : Type} (N : Noise Hs) (keys : KeyMemory)

/-- The entries of the sections with their own `psk=`; `false`: no memory for a key. -/
def addSections (ks : Keystore) : List ClientSection → Mem Block (Keystore × Bool)
  | [] => pure (ks, true)
  | c :: cs =>
    if !c.active || c.profile.psk == [] then addSections ks cs
    else
      match derivePskKey N keys c.profile.psk with
      | .noMem => pure (ks, false)
      | .ok key => do
        let ks ← addEntry ks ⟨key, Lib.store CAMEX_CLIENT_ID_LEN c.clientId, false⟩
        addSections ks cs
      | .bad => do
        let ks ← addEntry ks ⟨0, Lib.store CAMEX_CLIENT_ID_LEN c.clientId, true⟩
        addSections ks cs

/-- Of entries with one key the first is indexed by it. -/
def indexKey (ks : Keystore) (e : KeystoreEntry) (i : ℕ) : Mem Block (Keystore × Bool) :=
  if e.locked then pure (ks, true)
  else do
    let first ← ksFindKey ks e.pskKey i
    if first.isSome then pure (ks, true)
    else do
      let r ← slotidxInsert grants ks.byKey (slotidxHashBytes (keyBytes e.pskKey)) i
      pure ({ ks with byKey := r.1 }, r.2)

def indexOwner (ks : Keystore) (e : KeystoreEntry) (i : ℕ) : Mem Block (Keystore × Bool) :=
  if e.owner = [] then pure (ks, true)
  else do
    let r ← slotidxInsert grants ks.byOwner (slotidxHashNocase e.owner) i
    pure ({ ks with byOwner := r.1 }, r.2)

def indexEntries (ks : Keystore) : List (KeystoreEntry × ℕ) → Mem Block (Keystore × Bool)
  | [] => pure (ks, true)
  | (e, i) :: es => do
    let r ← indexKey grants ks e i
    if r.2 then do
      let r ← indexOwner grants r.1 e i
      if r.2 then indexEntries r.1 es else pure (r.1, false)
    else pure (r.1, false)

def addGlobal (ctx : CryptoCtx) (ks : Keystore) : Mem Block Keystore :=
  if ctx.hasGlobal then addEntry ks ⟨ctx.pskKey, [], false⟩ else pure ks

/-- The entries of a keystore with their keys, the global key first. -/
def fillKeystore (ctx : CryptoCtx) (db : Db) (ks : Keystore) : Mem Block (Keystore × Bool) := do
  let ks ← addGlobal ctx ks
  let cs ← db.store.sections
  addSections N keys ks (cs.take db.store.clientCount)

/-- `config_build_keystore` over `server_ks`; `false`: not 0. -/
def configBuildKeystore (ctx : CryptoCtx) (db : Db) : Mem Block (Keystore × Db × Bool) :=
  if !ctx.ready then do
    let db ← wipeProfilePsks db
    pure (.null, db, true)
  else do
    let r ← newKeystore grants (db.store.clientCount + 1)
    if r.2 then do
      let r ← fillKeystore N keys ctx db r.1
      if r.2 then do
        let db ← wipeProfilePsks db
        let es ← r.1.keys
        let r ← indexEntries grants r.1 (es.take r.1.count).zipIdx
        if r.2 then
          -- without a usable key no client could connect
          pure (r.1, db, !(es.take r.1.count).all KeystoreEntry.locked)
        else do
          let ks ← configKeystoreFree r.1
          pure (ks, db, false)
      else do
        let ks ← configKeystoreFree r.1
        let db ← wipeProfilePsks db
        pure (ks, db, false)
    else do
      let ks ← configKeystoreFree r.1
      let db ← wipeProfilePsks db
      pure (ks, db, false)

/-! ## The reload block -/

/-- `camex_crypto_t`, as far as a reload changes it. -/
structure CryptoContext extends CryptoCtx where
  fingerprint : Bytes

/-- The globals that a reload overwrites in place. -/
structure Globals where
  serverDb : Db
  serverKs : Keystore
  cryptoCtx : CryptoContext

/-- What a reload meets. -/
structure ReloadEnv (n : ℕ) where
  file : ConfigSource
  grants : ℕ → Bool
  keys : KeyMemory
  /-- The fingerprint of a global key. -/
  fingerprint : Key → Bytes
  grow : Fin n → Grow

/-- `crypto_init` and what the reload makes of its result; `true`: it has to go back. -/
def reloadCryptoInit (fingerprint : Key → Bytes) (psk : CStr) (ctx : CryptoContext) : CryptoContext × Bool :=
  match derivePskKey N keys psk with
  | .ok key => ({ ctx with ready := true, pskKey := key, fingerprint := fingerprint key, hasGlobal := true }, false)
  | .noMem => ({ ctx with ready := true }, true)
  -- a bad new key must not leave the old one working
  | .bad => ({ ctx with ready := true, pskKey := 0, hasGlobal := false }, false)

/-- The global key follows the file unless it came from the command line. -/
def reloadGlobalKey (fromCli : Bool) (fingerprint : Key → Bytes) (g : Globals) : Globals × Bool :=
  let wiped : Db := { g.serverDb with globals := { g.serverDb.globals with psk := [] } }
  if fromCli then ({ g with serverDb := wiped }, false)
  else if g.serverDb.globals.psk ≠ [] then
    let r := reloadCryptoInit N keys fingerprint g.serverDb.globals.psk g.cryptoCtx
    ({ g with serverDb := wiped, cryptoCtx := r.1 }, r.2)
  else if g.cryptoCtx.hasGlobal then
    ({ g with cryptoCtx := { g.cryptoCtx with pskKey := 0, hasGlobal := false } }, false)
  else (g, false)

def dropServerKey (g : Globals) : Globals :=
  { g with serverDb := { g.serverDb with globals := { g.serverDb.globals with serverKey := [] } } }

end Keys

end Allocating

/-- The globals as far as the reload got with them. -/
structure Switched where
  globals : Globals
  ksRebuilt : Bool
  restore : Bool

section Reload

variable {n : ℕ} {Hs : Type} (N : Noise Hs) (env : ReloadEnv n)

/-- The new configuration over the globals. -/
def reloadSwitch (fromCli : Bool) (g : Globals) : Mem Block Switched := do
  let r ← configDbLoadFile env.grants env.file
  let g := { g with serverDb := r.1 }
  if !r.2 then pure ⟨g, false, true⟩
  else
    let k := reloadGlobalKey N env.keys fromCli env.fingerprint g
    let g := dropServerKey k.1
    if k.2 then pure ⟨g, false, true⟩
    else do
      let r ← configBuildKeystore env.grants N env.keys g.cryptoCtx.toCryptoCtx g.serverDb
      pure ⟨{ g with serverKs := r.1, serverDb := r.2.1 }, true, !r.2.2⟩

/-- The way back to the copies. -/
def reloadRestore (saved : Globals) (s : Switched) : Mem Block Globals := do
  let _ ← configDbFree s.globals.serverDb
  if s.ksRebuilt then do
    let _ ← configKeystoreFree s.globals.serverKs
    pure saved
  else pure { saved with serverKs := s.globals.serverKs }

def reloadRelease (saved : Globals) (s : Switched) : Mem Block Globals := do
  let _ ← configDbFree saved.serverDb
  let _ ← configKeystoreFree saved.serverKs
  pure s.globals

def reloadGlobals (fromCli : Bool) (g : Globals) : Mem Block (Globals × Bool) := do
  let s ← reloadSwitch N env fromCli g
  if s.restore then do
    let g ← reloadRestore g s
    pure (g, false)
  else do
    let g ← reloadRelease g s
    pure (g, true)

end Reload

/-! ## The program -/

/-- What `ServerDb` promises of its parts. -/
def DbValid (defaults : Profile) (clients : List ServerProfile) (globals : ServerGlobals) : Prop :=
  (clients.Pairwise fun a b => strcaseeq a.clientId b.clientId = false) ∧
    (∀ c ∈ clients, c.clientId ≠ []) ∧ (∀ c ∈ clients, c.clientId.length < CAMEX_CLIENT_ID_LEN) ∧
    defaults.Fits ∧ (∀ c ∈ clients, c.profile.Fits) ∧ 8 ≤ globals.poolPrefix ∧ globals.poolPrefix ≤ 30 ∧
    globals.poolNet.toNat % 2 ^ (32 - globals.poolPrefix) = 0

instance (defaults : Profile) (clients : List ServerProfile) (globals : ServerGlobals) :
    Decidable (DbValid defaults clients globals) := inferInstanceAs (Decidable (_ ∧ _))

/-- The database that `server_db` and its blocks are. -/
def Db.value (db : Db) (blocks : Ptr → Option Block) : Option ServerDb :=
  let clients := ((Block.sections (db.store.clients.bind blocks)).take db.store.clientCount).map
    ClientSection.toServerProfile
  if h : DbValid db.defaults clients db.globals.globals then
    some ⟨db.defaults, clients, db.globals.globals, h.1, h.2.1, h.2.2.1, h.2.2.2.1, h.2.2.2.2.1, h.2.2.2.2.2.1,
      h.2.2.2.2.2.2.1, h.2.2.2.2.2.2.2⟩
  else none

/-- The keystore that `server_ks` and its blocks are. -/
def Keystore.value (ks : Keystore) (blocks : Ptr → Option Block) : Option Camex.Keystore :=
  let entries := (Block.keys (ks.entries.bind blocks)).take ks.count
  if h : entries.Pairwise fun a b => strcaseeq a.owner b.owner = false then some ⟨entries, h⟩ else none

/-- The server with its memory. -/
structure Program (n : ℕ) where
  heap : Heap Block
  globals : Globals
  /-- The client table, the leases and what else the server keeps; `conf` is what the globals hold. -/
  server : Server n
  currentConfig : CamexConfig
  controlFromCli : Bool
  reloadConfig : Bool

section Program

variable {n : ℕ} {Hs : Type} (N : Noise Hs) (env : ReloadEnv n)

def Program.conf (p : Program n) : Option Conf := do
  let db ← p.globals.serverDb.value p.heap.blocks
  let ks ← p.globals.serverKs.value p.heap.blocks
  pure { p.server.conf with db := db, ks := ks, ctx := p.globals.cryptoCtx.toCryptoCtx }

/-- What a reload that stays does to the server. -/
def Program.revalidate (p : Program n) : Program n :=
  match p.conf with
  | none => p
  | some conf =>
    let server := serverRevalidate env.grow { p.server with conf := conf }
    { p with
      server := { server with conf := { conf with tunnelIp := serverCheckPool conf.cfg.localCidr } }
      currentConfig := if p.controlFromCli then p.currentConfig
        else { p.currentConfig with controlPath := Lib.store 108 p.globals.serverDb.globals.controlSocket } }

/-- The reload block of `camex_run`; `false`: it went back. -/
def Program.reload (p : Program n) : Program n × Bool :=
  let r := reloadGlobals N env p.server.conf.cfg.globalPskFromCli p.globals p.heap
  let p := { p with heap := r.2, globals := r.1.1, reloadConfig := false }
  if r.1.2 then (p.revalidate env, true) else (p, false)

end Program

end Camex.Memory
