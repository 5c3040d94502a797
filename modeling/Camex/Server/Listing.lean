import Camex.ConfigFile
import Camex.Server.State

/-!
# The lists of the clients (`server.c`)

What the control socket says of the clients: `serverClientsIndex` for the start page, `serverClientsList` for the nginx
map, and `serverStateHash`, the fingerprint that `WAIT` compares. They read the table of the live clients and the
sections of the file.

* `Listing`: what they read;
* `LiveRecord`, `ConfRecord` and their lines;
* `stateStream`: the bytes that the fingerprint is made of, `serverStateHash_eq`.
-/

namespace Camex

open Lib

/-- The clients, the file that is loaded, and the time. -/
structure Listing (n : ℕ) where
  clients : Table n
  file : Loading (List ClientSection)
  now : Time

def CAMEX_PEER_PORT_DEFAULT : ℤ := 8080

/-! ## Numbers -/

/-- An integer as a `double` holds it: 53 bits, to the nearest, half to even. -/
def roundDouble (v : ℤ) : ℤ :=
  let k := v.natAbs.log2 - 52
  let q := v.natAbs / 2 ^ k
  let r := v.natAbs % 2 ^ k
  let q := if 2 ^ k < 2 * r ∨ (2 * r = 2 ^ k ∧ q % 2 = 1) then q + 1 else q
  v.sign * (q * 2 ^ k : ℕ)

def difftime (a b : Time) : ℤ := roundDouble (a - b)

theorem roundDouble_small {v : ℤ} (h : v.natAbs < 2 ^ 53) : roundDouble v = v := by
  have hlog : v.natAbs.log2 - 52 = 0 := by
    rcases Nat.eq_zero_or_pos v.natAbs with h0 | h0
    · rw [h0]
      rfl
    · have := (Nat.log2_lt (by omega)).mpr h
      omega
  unfold roundDouble
  rw [hlog]
  simp [Nat.mod_one, Int.sign_mul_abs]

/-! ## Lookups -/

/-- `config_db_find_client` among the sections with their names. -/
def findSection (file : Loading (List ClientSection)) (clientId : CStr) : Option ClientSection :=
  if clientId = [] then none else file.store.find? fun p => p.active && strcaseeq p.clientId clientId

def configDbPeerPort (file : Loading (List ClientSection)) (clientId : CStr) : ℤ :=
  let port := match findSection file clientId with
    | some p => if p.profile.peerPort ≠ 0 then p.profile.peerPort else file.defaults.peerPort
    | none => file.defaults.peerPort
  if port ≠ 0 then port else CAMEX_PEER_PORT_DEFAULT

/-- `status_name`; empty for none. -/
def statusName (file : Loading (List ClientSection)) (clientId : CStr) : CStr :=
  match findSection file clientId with
  | some p => p.name
  | none => []

def ageS (now t : Time) : ℤ := if 0 < difftime now t then difftime now t else 0

def recordIdOk (id : CStr) : Bool := id.all fun b => !(b ≤ 0x20 || b == 0x7f)

/-! ## Records -/

variable {n : ℕ}

/-- A client with an ID and an address. -/
def listed (c : ServerClient) : Bool := c.active && c.registered && c.clientId != [] && c.ipBe != 0

/-- The listed clients in the order of their slots. -/
def Listing.live (s : Listing n) : List ServerClient := ((List.finRange n).map s.clients).filter listed

/-- The fields of a live record. -/
structure LiveRecord where
  id : CStr
  ip : Ip
  conf : Bool
  since : ℤ
  last : Option ℤ
  hsAge : ℤ
  handshakes : ℕ
  rx : ℕ
  tx : ℕ
  peer : Ip
  port : ℤ
  name : CStr
  deriving DecidableEq

/-- The fields of the record of a section that is not connected. -/
structure ConfRecord where
  id : CStr
  ip : Option Ip
  name : CStr
  deriving DecidableEq

def liveRecord (s : Listing n) (c : ServerClient) : LiveRecord where
  id := c.clientId
  ip := c.ipBe
  conf := (findSection s.file c.clientId).isSome
  since := if c.sessionSince ≠ 0 then ageS s.now c.sessionSince else 0
  last := if c.lastData ≠ 0 then some (ageS s.now c.lastData) else none
  hsAge := if c.lastHs ≠ 0 then ageS s.now c.lastHs else 0
  handshakes := c.handshakes
  rx := c.rxBytes
  tx := c.txBytes
  peer := c.addr.ip
  port := configDbPeerPort s.file c.clientId
  name := statusName s.file c.clientId

def confRecord (p : ClientSection) : ConfRecord := ⟨p.clientId, p.ipBe, p.name⟩

def tab : CStr := [9]

def nameField (name : CStr) : CStr := if name = [] then [] else tab ++ name

def LiveRecord.line (r : LiveRecord) : CStr :=
  ascii "L\t" ++ r.id ++ tab ++ ipText r.ip ++ tab ++ natText (if r.conf then 1 else 0) ++ tab ++ intText r.since ++
    tab ++ (match r.last with
      | some v => intText v
      | none => [45]) ++
    tab ++ intText r.hsAge ++ tab ++ natText (r.handshakes % 2 ^ 32) ++ tab ++ natText (r.rx % 2 ^ 64) ++ tab ++
    natText (r.tx % 2 ^ 64) ++ tab ++ (if r.peer ≠ 0 then ipText r.peer else [45]) ++ tab ++
    (if 0 < r.port then intText r.port else [45]) ++ nameField r.name

def ConfRecord.line (r : ConfRecord) : CStr :=
  ascii "O\t" ++ r.id ++ tab ++ r.ip.elim [45] ipText ++ nameField r.name

def Listing.liveRecords (s : Listing n) : List LiveRecord :=
  (s.live.filter fun c => recordIdOk c.clientId).map (liveRecord s)

/-- A section whose client is connected: the first entry with its ID is a listed one. -/
def connected (s : Listing n) (p : ClientSection) : Bool :=
  match serverFindByClientId s.clients p.clientId with
  | some i => (s.clients i).registered && (s.clients i).ipBe != 0
  | none => false

/-- The records of `server_clients_index` for the sections. -/
def Listing.confRecords (s : Listing n) : List ConfRecord :=
  (s.file.store.filter fun p => p.active && p.clientId != [] && recordIdOk p.clientId && !connected s p).map confRecord

def serverClientsIndex (s : Listing n) : CStr :=
  s.liveRecords.flatMap (fun r => r.line ++ [10]) ++ s.confRecords.flatMap fun r => r.line ++ [10]

/-- A line of `server_clients_list`. -/
def listLine (s : Listing n) (names : Bool) (c : ServerClient) : CStr :=
  c.clientId ++ 32 :: ipText c.ipBe ++
    (if names ∧ statusName s.file c.clientId ≠ [] then 32 :: statusName s.file c.clientId else [])

def serverClientsList (s : Listing n) (names : Bool) : CStr :=
  (s.live.filter fun c => recordIdOk c.clientId).flatMap fun c => listLine s names c ++ [10]

/-! ## The fingerprint -/

def stateStep (h : UInt64) (b : UInt8) : UInt64 := (h ^^^ b.toUInt64) * 1099511628211

def stateMix (h : UInt64) (field : Bytes) : UInt64 := stateStep (field.foldl stateStep h) 0xff

/-- An address in memory, in network order. -/
def ipBytes (ip : Ip) : Bytes :=
  [UInt8.ofNat (ip.toNat / 2 ^ 24), UInt8.ofNat (ip.toNat / 2 ^ 16), UInt8.ofNat (ip.toNat / 2 ^ 8), UInt8.ofNat ip.toNat]

/-- An `int` in memory, on a little-endian machine. -/
def intBytes (v : ℤ) : Bytes :=
  let u := (v % 2 ^ 32).toNat
  [UInt8.ofNat u, UInt8.ofNat (u / 2 ^ 8), UInt8.ofNat (u / 2 ^ 16), UInt8.ofNat (u / 2 ^ 24)]

def clientFields (s : Listing n) (c : ServerClient) : List Bytes :=
  [c.clientId, ipBytes c.ipBe, ipBytes c.addr.ip, intBytes (configDbPeerPort s.file c.clientId),
    statusName s.file c.clientId]

def sectionFields (p : ClientSection) : List Bytes :=
  [p.clientId, [if p.ipBe.isSome then 1 else 0], ipBytes (p.ipBe.getD 0), p.name]

def Listing.sections (s : Listing n) : List ClientSection :=
  s.file.store.filter fun p => p.active && p.clientId != []

def stateFields (s : Listing n) : List Bytes :=
  s.file.globals.domain :: (s.live.flatMap (clientFields s) ++ s.sections.flatMap sectionFields)

def serverStateHash (s : Listing n) : UInt64 := (stateFields s).foldl stateMix 14695981039346656037

def fieldBytes (field : Bytes) : Bytes := field ++ [0xff]

/-- **The bytes that the fingerprint is made of.** -/
def stateStream (s : Listing n) : Bytes := (stateFields s).flatMap fieldBytes

theorem stateMix_eq (h : UInt64) (field : Bytes) : stateMix h field = (fieldBytes field).foldl stateStep h := by
  unfold stateMix fieldBytes
  rw [List.foldl_append]
  rfl

/-- The fingerprint is FNV-1a of the stream. -/
theorem serverStateHash_eq (s : Listing n) :
    serverStateHash s = (stateStream s).foldl stateStep 14695981039346656037 := by
  unfold serverStateHash stateStream
  generalize (14695981039346656037 : UInt64) = h
  induction stateFields s generalizing h with
  | nil => rfl
  | cons field fields ih =>
    rw [List.foldl_cons, ih, stateMix_eq, List.flatMap_cons, List.foldl_append]

end Camex
