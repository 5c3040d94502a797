import Camex.Server.Data
import Camex.Slotidx

/-!
# The indexes of the client table (`server.c`)

An `IndexedTable` is the client table with its three hash indexes: current, pending and previous addresses, client IDs,
peer addresses. The setters add the key they set; nothing is deleted, and a crowded index or one that cannot grow is
rebuilt from the table. `TableOp` is an operation on a slot, with what the allocator gives it.

* `KeysIndexed`: every key of an active entry is in its index while the indexes are in use;
* `serverIndexRebuild_spec`, `serverIndexAdd_spec`: what the indexes hold behind the two.
-/

namespace Camex

open Lib

variable {n : ℕ}

/-! ## Keys -/

inductive WhichIndex
  | ip
  | id
  | addr
  deriving DecidableEq

/-- The keys that an entry has in the indexes. -/
inductive EntryKey
  | ip
  | pending
  | prev
  | id
  | addr
  deriving DecidableEq

def EntryKey.index : EntryKey → WhichIndex
  | .ip | .pending | .prev => .ip
  | .id => .id
  | .addr => .addr

def addrIsSet (addr : SockAddr) : Bool := addr.ip != 0 || addr.port != 0

/-- `hash_addr`: the bytes of the address and of the port. -/
def hashAddr (addr : SockAddr) : BitVec 32 :=
  slotidxHashBytes ((List.range 4).map (fun k => UInt8.ofNat (addr.ip.toNat / 2 ^ (8 * (3 - k)) % 256)) ++
    [UInt8.ofNat (addr.port.toNat / 256), UInt8.ofNat (addr.port.toNat % 256)])

/-- The keys of an entry with their hashes, in the order in which a rebuild takes them. -/
def entryKeys (c : ServerClient) : List (EntryKey × BitVec 32) :=
  (if c.ipBe != 0 then [(.ip, slotidxHashU32 c.ipBe)] else []) ++
  ((if c.pendingIpBe != 0 then [(.pending, slotidxHashU32 c.pendingIpBe)] else []) ++
  ((if c.prev.valid && c.prevIpBe != 0 then [(.prev, slotidxHashU32 c.prevIpBe)] else []) ++
  ((if c.clientId != [] then [(.id, slotidxHashNocase c.clientId)] else []) ++
  (if addrIsSet c.addr then [(.addr, hashAddr c.addr)] else []))))

/-! ## The indexes -/

/-- `idx_ip`, `idx_id`, `idx_addr` and `idx_ok`. -/
structure ClientIndexes where
  ip : Slotidx
  id : Slotidx
  addr : Slotidx
  ok : Bool

def ClientIndexes.get (x : ClientIndexes) : WhichIndex → Slotidx
  | .ip => x.ip
  | .id => x.id
  | .addr => x.addr

def ClientIndexes.set (x : ClientIndexes) (w : WhichIndex) (y : Slotidx) : ClientIndexes :=
  match w with
  | .ip => { x with ip := y }
  | .id => { x with id := y }
  | .addr => { x with addr := y }

structure IndexedTable (n : ℕ) where
  clients : Table n
  idx : ClientIndexes

/-- Whether there is memory for what a rebuild allocates: the three tables, and a bigger one for each key. -/
structure RebuildMem (n : ℕ) where
  ip : Bool
  id : Bool
  addr : Bool
  key : Fin n → EntryKey → Bool

/-- Whether there is memory for a bigger table, and for a rebuild. -/
structure AddMem (n : ℕ) where
  grow : Bool
  rebuild : RebuildMem n

/-- The keys of an entry are inserted. `none`: there is no memory for one of them. -/
def indexKeys (mem : EntryKey → Bool) (slot : ℕ) : List (EntryKey × BitVec 32) → ClientIndexes → Option ClientIndexes
  | [], x => some x
  | (k, h) :: ks, x =>
    match slotidxInsert (x.get k.index) (mem k) h slot with
    | none => none
    | some y => indexKeys mem slot ks (x.set k.index y)

def resetIndexes (x : ClientIndexes) (mem : RebuildMem n) : ClientIndexes :=
  let ip := slotidxReset x.ip mem.ip n
  if !ip.1 then { x with ip := ip.2, ok := false }
  else
    let id := slotidxReset x.id mem.id n
    if !id.1 then { x with ip := ip.2, id := id.2, ok := false }
    else
      let addr := slotidxReset x.addr mem.addr n
      ⟨ip.2, id.2, addr.2, addr.1⟩

/-- One slot of a rebuild. Without memory the lookups scan from then on: what the indexes hold does not matter. -/
def indexEntry (clients : Table n) (mem : RebuildMem n) (i : Fin n) (x : ClientIndexes) : ClientIndexes :=
  if x.ok && (clients i).active then
    match indexKeys (mem.key i) i (entryKeys (clients i)) x with
    | none => { x with ok := false }
    | some y => y
  else x

def serverIndexRebuild (t : IndexedTable n) (mem : RebuildMem n) : IndexedTable n :=
  { t with idx := forSlots (indexEntry t.clients mem) (resetIndexes t.idx mem) }

/-- How many stale keys crowd an index: an entry has up to three addresses. -/
def indexLive (n : ℕ) (w : WhichIndex) : ℕ := if w = .ip then n * 3 else n

def serverIndexAdd (t : IndexedTable n) (w : WhichIndex) (h : BitVec 32) (i : Fin n) (mem : AddMem n) :
    IndexedTable n :=
  if !t.idx.ok then t
  else if slotidxCrowded (t.idx.get w) (indexLive n w) then serverIndexRebuild t mem.rebuild
  else
    match slotidxInsert (t.idx.get w) mem.grow h i with
    | none => serverIndexRebuild t mem.rebuild
    | some y => { t with idx := t.idx.set w y }

/-! ## The setters -/

namespace IndexedTable

def setClient (t : IndexedTable n) (i : Fin n) (c : ServerClient) : IndexedTable n :=
  { t with clients := Function.update t.clients i c }

def setIp (t : IndexedTable n) (i : Fin n) (ip : Ip) (mem : AddMem n) : IndexedTable n :=
  if (t.clients i).ipBe = ip then t
  else
    let t := t.setClient i { t.clients i with ipBe := ip }
    if ip ≠ 0 then serverIndexAdd t .ip (slotidxHashU32 ip) i mem else t

def assignIp (t : IndexedTable n) (i : Fin n) (ip : Ip) (mem : AddMem n) : IndexedTable n :=
  let c := t.clients i
  if c.cur.valid && c.ipBe != 0 && ip != c.ipBe then
    if c.pendingIpBe ≠ ip then
      serverIndexAdd (t.setClient i { c with pendingIpBe := ip }) .ip (slotidxHashU32 ip) i mem
    else t
  else (t.setClient i { c with pendingIpBe := 0 }).setIp i ip mem

/-- `server_restore_ip`: both addresses are indexed again, a rebuild may have dropped them. -/
def restoreIp (t : IndexedTable n) (i : Fin n) (ip pendingIp : Ip) (mem memIp memPending : AddMem n) :
    IndexedTable n :=
  let t := t.setIp i ip mem
  let t := t.setClient i { t.clients i with pendingIpBe := pendingIp }
  let t := if ip ≠ 0 then serverIndexAdd t .ip (slotidxHashU32 ip) i memIp else t
  if pendingIp ≠ 0 then serverIndexAdd t .ip (slotidxHashU32 pendingIp) i memPending else t

def setId (t : IndexedTable n) (i : Fin n) (clientId : CStr) (mem : AddMem n) : IndexedTable n :=
  if (t.clients i).clientId = clientId then t
  else
    let id := store CAMEX_CLIENT_ID_LEN clientId
    let t := t.setClient i { t.clients i with clientId := id }
    if id ≠ [] then serverIndexAdd t .id (slotidxHashNocase id) i mem else t

def setAddr (t : IndexedTable n) (i : Fin n) (addr : SockAddr) (mem : AddMem n) : IndexedTable n :=
  if netSockaddrEqual (t.clients i).addr addr && addrIsSet addr then t
  else
    let t := t.setClient i { t.clients i with addr := addr }
    if addrIsSet addr then serverIndexAdd t .addr (hashAddr addr) i mem else t

/-- The promotion in `server_handle_data`: the current session and its address become the previous ones, and a pending
address becomes the current one. -/
def promote (t : IndexedTable n) (i : Fin n) (now : Time) (mem : AddMem n) : IndexedTable n :=
  let c := t.clients i
  let t := t.setClient i
    { c with
      prev := c.cur, prevUntil := now + V2_PREV_SESSION_GRACE, prevIpBe := c.ipBe, cur := c.next, next := .wiped }
  if c.pendingIpBe ≠ 0 then
    let t := t.setIp i c.pendingIpBe mem
    t.setClient i { t.clients i with pendingIpBe := 0 }
  else t

end IndexedTable

/-! ## Lookups -/

/-- What a match callback says of a slot number. -/
def atSlot (t : Table n) (p : ServerClient → Bool) (slot : ℕ) : Bool := if h : slot < n then p (t ⟨slot, h⟩) else false

def toSlot (slot : Option ℕ) : Option (Fin n) := slot.bind fun k => if h : k < n then some ⟨k, h⟩ else none

namespace IndexedTable

def findByIp (t : IndexedTable n) (ip : Ip) : Option (Fin n) :=
  if t.idx.ok then
    match slotidxFind t.idx.ip (slotidxHashU32 ip) (atSlot t.clients fun c => matchCurIp c ip) with
    | some k => toSlot (some k)
    | none => toSlot (slotidxFind t.idx.ip (slotidxHashU32 ip) (atSlot t.clients fun c => matchIp c ip))
  else serverFindByIp t.clients ip

def findByClientId (t : IndexedTable n) (clientId : CStr) : Option (Fin n) :=
  if clientId = [] then none
  else if t.idx.ok then
    toSlot (slotidxFind t.idx.id (slotidxHashNocase clientId) (atSlot t.clients fun c => matchId c clientId))
  else serverFindByClientId t.clients clientId

def findByAddr (t : IndexedTable n) (addr : SockAddr) : Option (Fin n) :=
  if t.idx.ok && addrIsSet addr then
    toSlot (slotidxFind t.idx.addr (hashAddr addr) (atSlot t.clients fun c => matchAddr c addr))
  else serverFindByAddr t.clients addr

end IndexedTable

/-! ## Operations on a slot -/

/-- An entry with the keys and sessions of `c` and the other fields of `d`. -/
def ServerClient.withKeysOf (d c : ServerClient) : ServerClient :=
  { d with
    active := c.active, addr := c.addr, ipBe := c.ipBe, pendingIpBe := c.pendingIpBe, prevIpBe := c.prevIpBe
    clientId := c.clientId, cur := c.cur, next := c.next, prev := c.prev }

/-- An operation on a slot. -/
inductive SlotOp
  /-- The slot is wiped and taken, at an accept or for a handshake. -/
  | take (fd : ℤ) (now : Time)
  | drop
  | setIp (ip : Ip)
  | assignIp (ip : Ip)
  | restoreIp (ip pendingIp : Ip)
  | setId (clientId : CStr)
  | setAddr (addr : SockAddr)
  | promote (now : Time)
  /-- `pending_ip_be = 0`. -/
  | clearPending
  /-- `prev` is wiped and `prev_ip_be = 0`. -/
  | clearPrev
  /-- A session is set up, put back, wiped or used; `prev` gets one by a promotion only. -/
  | setCur (x : Session)
  | setNext (x : Session)
  | usePrev (x : Session)
  /-- Fields that are neither keys nor sessions. -/
  | touch (d : ServerClient)

def SlotOp.entry : SlotOp → ServerClient → ServerClient
  | .take fd now, _ => { ServerClient.taken with tcpFd := fd, lastSeen := now, connectedAt := now }
  | .drop, _ => .wiped
  | .setIp ip, c => serverSetIp c ip
  | .assignIp ip, c => serverAssignIp c ip
  | .restoreIp ip pendingIp, c => serverRestoreIp c ip pendingIp
  | .setId clientId, c => serverSetId c clientId
  | .setAddr addr, c => serverSetAddr c addr
  | .promote now, c => Camex.promote c now
  | .clearPending, c => { c with pendingIpBe := 0 }
  | .clearPrev, c => { c with prev := .wiped, prevIpBe := 0 }
  | .setCur x, c => { c with cur := x }
  | .setNext x, c => { c with next := x }
  | .usePrev x, c => { c with prev := { x with valid := c.prev.valid } }
  | .touch d, c => d.withKeysOf c

/-- An operation with its slot, and the memory for its insertions in turn. -/
structure TableOp (n : ℕ) where
  slot : Fin n
  op : SlotOp
  mem : ℕ → AddMem n

def applyOp (t : IndexedTable n) (o : TableOp n) : IndexedTable n :=
  match o.op with
  | .setIp ip => t.setIp o.slot ip (o.mem 0)
  | .assignIp ip => t.assignIp o.slot ip (o.mem 0)
  | .restoreIp ip pendingIp => t.restoreIp o.slot ip pendingIp (o.mem 0) (o.mem 1) (o.mem 2)
  | .setId clientId => t.setId o.slot clientId (o.mem 0)
  | .setAddr addr => t.setAddr o.slot addr (o.mem 0)
  | .promote now => t.promote o.slot now (o.mem 0)
  | .take fd now => t.setClient o.slot (SlotOp.entry (.take fd now) (t.clients o.slot))
  | .drop => t.setClient o.slot (SlotOp.entry .drop (t.clients o.slot))
  | .clearPending => t.setClient o.slot (SlotOp.entry .clearPending (t.clients o.slot))
  | .clearPrev => t.setClient o.slot (SlotOp.entry .clearPrev (t.clients o.slot))
  | .setCur x => t.setClient o.slot (SlotOp.entry (.setCur x) (t.clients o.slot))
  | .setNext x => t.setClient o.slot (SlotOp.entry (.setNext x) (t.clients o.slot))
  | .usePrev x => t.setClient o.slot (SlotOp.entry (.usePrev x) (t.clients o.slot))
  | .touch d => t.setClient o.slot (SlotOp.entry (.touch d) (t.clients o.slot))

/-- `server_clients_init`: all slots free, no table allocated yet. -/
def clientsInit (mem : RebuildMem n) : IndexedTable n :=
  serverIndexRebuild ⟨fun _ => .wiped, ⟨.none, .none, .none, false⟩⟩ mem

/-! ## What the indexes hold -/

def ClientIndexes.Has (x : ClientIndexes) (w : WhichIndex) (h : BitVec 32) (slot : ℕ) : Prop := (x.get w).Has h slot

theorem ClientIndexes.get_set (x : ClientIndexes) (w w' : WhichIndex) (y : Slotidx) :
    (x.set w y).get w' = if w' = w then y else x.get w' := by
  cases w <;> cases w' <;> rfl

@[simp] theorem ClientIndexes.ok_set (x : ClientIndexes) (w : WhichIndex) (y : Slotidx) : (x.set w y).ok = x.ok := by
  cases w <;> rfl

/-- The three tables are well formed. -/
def ClientIndexes.Ok (x : ClientIndexes) : Prop := ∀ w, (x.get w).Ok

theorem ClientIndexes.Ok.insert {x : ClientIndexes} (hx : x.Ok) {w : WhichIndex} {grow : Bool} {h : BitVec 32}
    {slot : ℕ} {y : Slotidx} (hy : slotidxInsert (x.get w) grow h slot = some y) :
    (x.set w y).Ok ∧ (x.set w y).Has w h slot ∧
      ∀ w' h' slot', x.Has w' h' slot' → (x.set w y).Has w' h' slot' := by
  obtain ⟨hok, hhas⟩ := slotidxInsert_spec (hx w) hy
  refine ⟨fun w' => ?_, ?_, fun w' h' slot' hold => ?_⟩
  · rw [x.get_set]
    split
    · exact hok
    · exact hx w'
  · rw [Has, x.get_set, if_pos rfl]
    exact (hhas h slot).mpr (Or.inl ⟨rfl, rfl⟩)
  · rw [Has, x.get_set]
    split
    · rename_i hw
      subst hw
      exact (hhas h' slot').mpr (Or.inr hold)
    · exact hold

theorem indexKeys_spec {mem : EntryKey → Bool} {slot : ℕ} {ks : List (EntryKey × BitVec 32)} {x y : ClientIndexes}
    (hx : x.Ok) (h : indexKeys mem slot ks x = some y) :
    y.Ok ∧ y.ok = x.ok ∧ (∀ w h' slot', x.Has w h' slot' → y.Has w h' slot') ∧
      ∀ k ∈ ks, y.Has k.1.index k.2 slot := by
  induction ks generalizing x with
  | nil =>
    cases h
    exact ⟨hx, rfl, fun _ _ _ hold => hold, by simp⟩
  | cons k ks ih =>
    obtain ⟨k, h₀⟩ := k
    unfold indexKeys at h
    cases hinsert : slotidxInsert (x.get k.index) (mem k) h₀ slot with
    | none => rw [hinsert] at h; cases h
    | some z =>
      rw [hinsert] at h
      obtain ⟨hz, hself, hmono⟩ := hx.insert hinsert
      obtain ⟨hy, hok, hmono', hks⟩ := ih hz h
      refine ⟨hy, hok.trans (x.ok_set _ _), fun w h' slot' hold => hmono' _ _ _ (hmono _ _ _ hold), ?_⟩
      rintro k' hk'
      rcases List.mem_cons.mp hk' with rfl | hk'
      · exact hmono' _ _ _ hself
      · exact hks k' hk'

theorem resetIndexes_ok {x : ClientIndexes} (hx : x.Ok) (mem : RebuildMem n) : (resetIndexes x mem).Ok := by
  unfold resetIndexes
  dsimp only
  split
  · intro w
    cases w with
    | ip => exact (slotidxReset_spec _ _ _).1
    | id => exact hx .id
    | addr => exact hx .addr
  · split
    · intro w
      cases w with
      | ip => exact (slotidxReset_spec _ _ _).1
      | id => exact (slotidxReset_spec _ _ _).1
      | addr => exact hx .addr
    · intro w
      cases w with
      | ip => exact (slotidxReset_spec _ _ _).1
      | id => exact (slotidxReset_spec _ _ _).1
      | addr => exact (slotidxReset_spec _ _ _).1

/-- One slot of a rebuild: while there is memory, what was held is, and the entry's keys are. -/
theorem indexEntry_spec (clients : Table n) (mem : RebuildMem n) (i : Fin n) {x : ClientIndexes} (hx : x.Ok) :
    (indexEntry clients mem i x).Ok ∧ ((indexEntry clients mem i x).ok = true →
      x.ok = true ∧ (∀ w h slot, x.Has w h slot → (indexEntry clients mem i x).Has w h slot) ∧
        ((clients i).active = true → ∀ k ∈ entryKeys (clients i), (indexEntry clients mem i x).Has k.1.index k.2 i)) := by
  unfold indexEntry
  split
  · rename_i hif
    obtain ⟨hok, hactive⟩ := (Bool.and_eq_true _ _).mp hif
    cases hkeys : indexKeys (mem.key i) i (entryKeys (clients i)) x with
    | none =>
      refine ⟨fun w => ?_, fun hfalse => by cases hfalse⟩
      cases w with
      | ip => exact hx .ip
      | id => exact hx .id
      | addr => exact hx .addr
    | some y =>
      obtain ⟨hy, -, hmono, hks⟩ := indexKeys_spec hx hkeys
      exact ⟨hy, fun _ => ⟨hok, hmono, fun _ => hks⟩⟩
  · rename_i hif
    refine ⟨hx, fun hok => ⟨hok, fun _ _ _ hold => hold, fun hactive => ?_⟩⟩
    exact absurd ((Bool.and_eq_true _ _).mpr ⟨hok, hactive⟩) hif

/-- Every key of an active entry is in its index while the indexes are in use; of the entry `i`, the keys `but` may be
missing. -/
structure IndexedBut (t : IndexedTable n) (i : Fin n) (but : WhichIndex → BitVec 32 → Prop) : Prop where
  ok : t.idx.Ok
  keys : t.idx.ok = true → ∀ j, (t.clients j).active = true → ∀ k ∈ entryKeys (t.clients j),
    t.idx.Has k.1.index k.2 j ∨ j = i ∧ but k.1.index k.2

/-- Every key of an active entry is in its index while the indexes are in use. -/
structure KeysIndexed (t : IndexedTable n) : Prop where
  ok : t.idx.Ok
  keys : t.idx.ok = true → ∀ j, (t.clients j).active = true → ∀ k ∈ entryKeys (t.clients j),
    t.idx.Has k.1.index k.2 j

theorem KeysIndexed.but {t : IndexedTable n} (h : KeysIndexed t) (i : Fin n) (but : WhichIndex → BitVec 32 → Prop) :
    IndexedBut t i but := ⟨h.ok, fun hok j hj k hk => Or.inl (h.keys hok j hj k hk)⟩

theorem IndexedBut.indexed {t : IndexedTable n} {i : Fin n} {but : WhichIndex → BitVec 32 → Prop}
    (h : IndexedBut t i but) (hno : ∀ w h, ¬ but w h) : KeysIndexed t :=
  ⟨h.ok, fun hok j hj k hk => (h.keys hok j hj k hk).resolve_right fun hbut => hno _ _ hbut.2⟩

/-- **A rebuild** takes all keys from the table. -/
theorem serverIndexRebuild_spec {t : IndexedTable n} (hx : t.idx.Ok) (mem : RebuildMem n) :
    KeysIndexed (serverIndexRebuild t mem) := by
  have hok : ∀ x, x.Ok → (forSlots (indexEntry t.clients mem) x).Ok := fun x hx =>
    forSlots_induction (I := ClientIndexes.Ok) (fun i x hx => (indexEntry_spec t.clients mem i hx).1) hx
  refine ⟨hok _ (resetIndexes_ok hx mem), fun hfinal i => ?_⟩
  have hvisit := forSlots_visit (f := indexEntry t.clients mem) (B := ClientIndexes.Ok)
    (A := fun x => x.Ok ∧ (x.ok = true → (t.clients i).active = true →
      ∀ k ∈ entryKeys (t.clients i), x.Has k.1.index k.2 i)) (s := resetIndexes t.idx mem) i
  refine (hvisit (fun j x _ hx => (indexEntry_spec t.clients mem j hx).1) (fun x hx => ?_) ?_
    (resetIndexes_ok hx mem)).2 hfinal
  · obtain ⟨hok, hkeys⟩ := indexEntry_spec t.clients mem i hx
    exact ⟨hok, fun hok' => (hkeys hok').2.2⟩
  · rintro j x - ⟨hx, hheld⟩
    obtain ⟨hok, hkeys⟩ := indexEntry_spec t.clients mem j hx
    refine ⟨hok, fun hok' hactive k hk => ?_⟩
    obtain ⟨hxok, hmono, -⟩ := hkeys hok'
    exact hmono _ _ _ (hheld hxok hactive k hk)

/-- **Adding a key** that an entry has. -/
theorem serverIndexAdd_spec {t : IndexedTable n} {i : Fin n} {but : WhichIndex → BitVec 32 → Prop}
    (ht : IndexedBut t i but) (w : WhichIndex) (h : BitVec 32) (mem : AddMem n) :
    (serverIndexAdd t w h i mem).clients = t.clients ∧
      IndexedBut (serverIndexAdd t w h i mem) i fun w' h' => but w' h' ∧ ¬ (w' = w ∧ h' = h) := by
  unfold serverIndexAdd
  split
  · rename_i hoff
    exact ⟨rfl, ht.ok, fun hok => by simp [hok] at hoff⟩
  · split
    · exact ⟨rfl, (serverIndexRebuild_spec ht.ok mem.rebuild).but i _⟩
    · cases hinsert : slotidxInsert (t.idx.get w) mem.grow h i with
      | none => exact ⟨rfl, (serverIndexRebuild_spec ht.ok mem.rebuild).but i _⟩
      | some y =>
        obtain ⟨hok, hself, hmono⟩ := ht.ok.insert hinsert
        refine ⟨rfl, hok, fun hon j hj k hk => ?_⟩
        rw [ClientIndexes.ok_set] at hon
        rcases ht.keys hon j hj k hk with hhas | ⟨rfl, hbut⟩
        · exact Or.inl (hmono _ _ _ hhas)
        · by_cases hnew : k.1.index = w ∧ k.2 = h
          · obtain ⟨hw, hh⟩ := hnew
            exact Or.inl (by rw [hw, hh]; exact hself)
          · exact Or.inr ⟨rfl, hbut, hnew⟩

end Camex
