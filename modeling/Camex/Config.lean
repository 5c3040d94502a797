import Camex.Noise
import Camex.Util

/-!
# Profiles, server database and keystore (`config.c`)

`server_db` holds the `[defaults]`, the `[client ID]` sections in file order and the globals of
`[server]`; `server_ks` the global key (owner empty, entry 0) and one entry for each section with
its own `psk=`. The hash indexes over them are not modelled: a lookup is the scan whose answer the
index gives, the first match.

`ServerDb` and `Keystore` carry what the loader guarantees: no two sections, hence no two owners,
have the same ID ignoring case; every text fits its field; the auto pool is an aligned `/8` to `/30`. `KeyAllowed` is the rule which key a client ID may use.
-/

namespace Camex

open Lib

def CAMEX_MAX_ROUTES : ℕ := 16
def CAMEX_CLIENT_ID_LEN : ℕ := 32
def CAMEX_CLIENT_TIMEOUT : Time := 120

/-- `camex_profile_t`. -/
structure Profile where
  localCidr : CStr
  gatewayIp : CStr
  routeCidrs : List CStr
  mtu : ℤ
  peerPort : ℤ
  psk : CStr
  deriving DecidableEq

def Profile.empty : Profile := ⟨[], [], [], 0, 0, []⟩

/-- `camex_server_profile_t`. -/
structure ServerProfile where
  clientId : CStr
  profile : Profile
  active : Bool
  deriving DecidableEq

/-- `has_ip` and `ip_be`, as `config_db_index_ips()` fills them when the file is loaded. -/
def ServerProfile.ipBe (p : ServerProfile) : Option Ip :=
  if !p.active || p.profile.localCidr == [] then none else cidrIp p.profile.localCidr

/-- `camex_server_globals_t`: the keys the modelled functions read. -/
structure ServerGlobals where
  psk : CStr
  denyUnknownClients : Bool
  clientIsolation : Bool
  poolNet : Ip
  poolPrefix : ℕ
  clientTimeout : ℕ
  deriving DecidableEq

/-- The texts of a profile fit their fields (`config_db_apply_kv`). -/
def Profile.Fits (p : Profile) : Prop :=
  p.localCidr.length < 32 ∧ p.gatewayIp.length < 16 ∧ p.routeCidrs.length ≤ CAMEX_MAX_ROUTES ∧
    ∀ r ∈ p.routeCidrs, r.length < 32

instance (p : Profile) : Decidable p.Fits := by unfold Profile.Fits; infer_instance

/-- `camex_server_db_t` behind `config_db_load_file()`. -/
structure ServerDb where
  defaults : Profile
  clients : List ServerProfile
  globals : ServerGlobals
  idsDistinct : clients.Pairwise fun a b => strcaseeq a.clientId b.clientId = false
  idsNonempty : ∀ c ∈ clients, c.clientId ≠ []
  idsShort : ∀ c ∈ clients, c.clientId.length < CAMEX_CLIENT_ID_LEN
  defaultsFit : defaults.Fits
  profilesFit : ∀ c ∈ clients, c.profile.Fits
  poolPrefixMin : 8 ≤ globals.poolPrefix
  poolPrefixMax : globals.poolPrefix ≤ 30
  poolNetAligned : globals.poolNet.toNat % 2 ^ (32 - globals.poolPrefix) = 0

def configProfileMerge (dst src : Profile) : Profile :=
  { dst with
    localCidr := if src.localCidr ≠ [] then store 32 src.localCidr else dst.localCidr
    gatewayIp := if src.gatewayIp ≠ [] then store 16 src.gatewayIp else dst.gatewayIp
    mtu := if 0 < src.mtu then src.mtu else dst.mtu
    peerPort := if src.peerPort ≠ 0 then src.peerPort else dst.peerPort
    routeCidrs := dst.routeCidrs ++
      (src.routeCidrs.map (store 32)).take (CAMEX_MAX_ROUTES - dst.routeCidrs.length) }

def configDbFindClient (db : ServerDb) (clientId : CStr) : Option ServerProfile :=
  if clientId = [] then none
  else db.clients.find? fun p => p.active && strcaseeq p.clientId clientId

def configDbFindProfileByIp (db : ServerDb) (ip : Ip) : Option ServerProfile :=
  db.clients.find? fun p => p.active && p.ipBe == some ip

/-- `config_db_lookup_profile`; it never fails for a given `profile`. -/
def configDbLookupProfile (db : ServerDb) (clientId : CStr) : Profile :=
  match configDbFindClient db clientId with
  | some p => configProfileMerge db.defaults p.profile
  | none => db.defaults

/-- `profile_ip()`: the address of a client's own section. -/
def profileIp (db : ServerDb) (clientId : CStr) : Option Ip :=
  (configDbFindClient db clientId).bind ServerProfile.ipBe

/-- `profile_owner_of_ip()`: the ID whose section has this address. -/
def profileOwnerOfIp (db : ServerDb) (ip : Ip) : Option CStr :=
  (configDbFindProfileByIp db ip).map ServerProfile.clientId

/-! ## The keystore -/

/-- `camex_keystore_entry_t`; a locked entry's key was wiped. -/
structure KeystoreEntry where
  pskKey : Key
  owner : CStr
  locked : Bool
  deriving DecidableEq

/-- `camex_keystore_t`. -/
structure Keystore where
  entries : List KeystoreEntry
  ownersDistinct : entries.Pairwise fun a b => strcaseeq a.owner b.owner = false

def Keystore.empty : Keystore := ⟨[], .nil⟩

/-- `ks_find_key(key, NULL, ..)`: the first usable entry with this key. -/
def ksFindKey (ks : Keystore) (key : Key) : Option KeystoreEntry :=
  ks.entries.find? fun e => !e.locked && e.pskKey == key

def configKsFind (ks : Keystore) (key : Key) : Option ℕ :=
  ks.entries.findIdx? fun e => !e.locked && e.pskKey == key

def configKsOwner (ks : Keystore) (key : Key) : CStr :=
  match ksFindKey ks key with
  | some e => e.owner
  | none => []

def configKsHasOwner (ks : Keystore) (clientId : CStr) : Bool :=
  clientId != [] && ks.entries.any fun e => e.owner != [] && strcaseeq e.owner clientId

def configKsKeyOwnedBy (ks : Keystore) (key : Key) (clientId : CStr) : Bool :=
  clientId != [] && ks.entries.any fun e =>
    e.owner != [] && strcaseeq e.owner clientId && (!e.locked && e.pskKey == key)

def configKsContains (ks : Keystore) (key : Key) : Bool := (ksFindKey ks key).isSome

/-- `config_ks_is_global`; of equal keys only the first is in the index by key. -/
def configKsIsGlobal (ks : Keystore) (key : Key) : Bool :=
  match ksFindKey ks key with
  | some e => e.owner == []
  | none => false

/-- Which key a client ID may use: its own when it has one, locked or not, else the global one. -/
def KeyAllowed (ks : Keystore) (key : Key) (clientId : CStr) : Prop :=
  if configKsHasOwner ks clientId then configKsKeyOwnedBy ks key clientId = true
  else configKsIsGlobal ks key = true

instance (ks : Keystore) (key : Key) (clientId : CStr) : Decidable (KeyAllowed ks key clientId) := by
  unfold KeyAllowed
  infer_instance

/-! ## Building it -/

variable {Hs : Type} (N : Noise Hs)

/-- Which allocations fail while a keystore is built. -/
structure KeyMemory where
  /-- No memory for the Argon2id work area of this passphrase. -/
  noArgon : CStr → Bool
  /-- No memory for the keystore or its indexes. -/
  noStore : Bool

def KeyMemory.ample : KeyMemory := ⟨fun _ => false, false⟩

inductive KeyRc
  | ok (key : Key)
  | bad
  | noMem
  deriving DecidableEq

def derivePskKey (mem : KeyMemory) (psk : CStr) : KeyRc :=
  match N.keyFromPsk psk with
  | none => .bad
  | some key => if mem.noArgon psk then .noMem else .ok key

theorem derivePskKey_ample (psk : CStr) : derivePskKey N .ample psk ≠ .noMem := by
  unfold derivePskKey
  split
  · exact nofun
  · rw [if_neg (by simp [KeyMemory.ample])]
    exact nofun

/-- The entry of a section with its own `psk=`: locked when the key is malformed. -/
def keystoreEntryOf (mem : KeyMemory) (p : ServerProfile) : KeystoreEntry :=
  match derivePskKey N mem p.profile.psk with
  | .ok key => ⟨key, store CAMEX_CLIENT_ID_LEN p.clientId, false⟩
  | _ => ⟨0, store CAMEX_CLIENT_ID_LEN p.clientId, true⟩

def pskSections (db : ServerDb) : List ServerProfile :=
  db.clients.filter fun p => p.active && p.profile.psk != []

/-- The entries in their order: the global key, then the sections'. -/
def keystoreEntries (mem : KeyMemory) (ctx : CryptoCtx) (db : ServerDb) : List KeystoreEntry :=
  (if ctx.hasGlobal then [⟨ctx.pskKey, [], false⟩] else []) ++
    (pskSections db).map (keystoreEntryOf N mem)

variable {N}

@[simp] theorem keystoreEntryOf_owner (mem : KeyMemory) (p : ServerProfile) :
    (keystoreEntryOf N mem p).owner = store CAMEX_CLIENT_ID_LEN p.clientId := by
  unfold keystoreEntryOf
  split <;> rfl

theorem mem_pskSections {db : ServerDb} {p : ServerProfile} (h : p ∈ pskSections db) :
    p ∈ db.clients := List.mem_of_mem_filter h

theorem keystoreEntries_distinct (mem : KeyMemory) (ctx : CryptoCtx) (db : ServerDb) :
    (keystoreEntries N mem ctx db).Pairwise fun a b => strcaseeq a.owner b.owner = false := by
  have howner : ∀ p ∈ pskSections db, store CAMEX_CLIENT_ID_LEN p.clientId = p.clientId :=
    fun p hp => store_of_lt (db.idsShort p (mem_pskSections hp))
  have hsections : ((pskSections db).map (keystoreEntryOf N mem)).Pairwise
      fun a b => strcaseeq a.owner b.owner = false := by
    rw [List.pairwise_map]
    refine (db.idsDistinct.filter _).imp_of_mem fun {a b} ha hb hab => ?_
    rwa [keystoreEntryOf_owner, keystoreEntryOf_owner, howner a ha, howner b hb]
  unfold keystoreEntries
  split
  · rw [List.singleton_append, List.pairwise_cons]
    refine ⟨fun e he => ?_, hsections⟩
    obtain ⟨p, hp, rfl⟩ := List.mem_map.mp he
    rw [keystoreEntryOf_owner, howner p hp, strcaseeq_comm, Bool.eq_false_iff]
    exact fun h => db.idsNonempty p (mem_pskSections hp) (strcaseeq_nil.mp h)
  · exact hsections

variable (N)

inductive BuildRc
  | ok (ks : Keystore)
  /-- No key is usable: no client could connect. -/
  | noKey
  | noMem

def configBuildKeystore (mem : KeyMemory) (ctx : CryptoCtx) (db : ServerDb) : BuildRc :=
  if !ctx.ready then .ok .empty
  else if mem.noStore || (pskSections db).any fun p => derivePskKey N mem p.profile.psk == .noMem then
    .noMem
  else
    let ks : Keystore := ⟨keystoreEntries N mem ctx db, keystoreEntries_distinct mem ctx db⟩
    if ks.entries.all KeystoreEntry.locked then .noKey else .ok ks

theorem configBuildKeystore_ample (ctx : CryptoCtx) (db : ServerDb) :
    configBuildKeystore N .ample ctx db =
      if !ctx.ready then .ok .empty
      else if (keystoreEntries N .ample ctx db).all KeystoreEntry.locked then .noKey
      else .ok ⟨keystoreEntries N .ample ctx db, keystoreEntries_distinct .ample ctx db⟩ := by
  have hmem : ¬ (KeyMemory.ample.noStore ||
      (pskSections db).any fun p => derivePskKey N .ample p.profile.psk == .noMem) = true := by
    simp [show KeyMemory.ample.noStore = false from rfl, derivePskKey_ample]
  unfold configBuildKeystore
  rw [if_neg hmem]

end Camex
