import Camex.Server.Lease
import Camex.Slotidx

/-!
# The indexes of the lease table (`server.c`)

An `IndexedLeases` is the lease table with its two hash indexes. A drop leaves its entries behind; an add inserts the
row it writes, and an index that is crowded, out of memory or of another size is rebuilt from the table.

* `LeasesIndexed`: every lease is in both indexes while they are in use;
* `LeasesIndexed.byIp`, `LeasesIndexed.byId`: the lookups answer what the scans of the table do;
* `LeasesIndexed.add`: an add keeps them so, and its table is that of `serverLeaseAdd`.
-/

namespace Camex

open Lib

/-- `idx_lease_ip`, `idx_lease_id` and `lease_idx_ok`. -/
structure LeaseIndexes where
  ip : Slotidx
  id : Slotidx
  ok : Bool

structure IndexedLeases where
  table : LeaseTable
  idx : LeaseIndexes

/-- Whether there is memory for what a rebuild allocates: the two tables, and a bigger one for each row. -/
structure LeaseRebuildMem where
  ip : Bool
  id : Bool
  row : ℕ → Bool × Bool

/-- A call of `server_lease_add` with what it meets: the pool, the time, the answers of the allocator. -/
structure LeaseAdd where
  conf : Conf
  now : Time
  clientId : CStr
  ip : Ip
  prev : Bool
  /-- An ID is that of an entry, which fits the field of a lease. -/
  fits : clientId.length < CAMEX_CLIENT_ID_LEN
  /-- `realloc` succeeds. -/
  grow : Bool
  insertIp : Bool
  insertId : Bool
  rebuild : LeaseRebuildMem

def LeaseAdd.lease (op : LeaseAdd) : ServerLease := ⟨op.clientId, op.ip, op.now, op.prev⟩

def matchLeaseIp (ls : LeaseTable) (ip : Ip) (k : ℕ) : Bool := ip != 0 && decide (k < ls.cap) && (ls.at k).ipBe == ip

def matchLeaseId (ls : LeaseTable) (clientId : CStr) (k : ℕ) : Bool :=
  decide (k < ls.cap) && (ls.at k).ipBe != 0 && !(ls.at k).prev && strcaseeq (ls.at k).id clientId

/-- The two insertions of a row; `none`: there is no memory for one of them. -/
def insertLease (x : LeaseIndexes) (mem : Bool × Bool) (l : ServerLease) (k : ℕ) : LeaseIndexes × Bool :=
  match slotidxInsert x.ip mem.1 (slotidxHashU32 l.ipBe) k with
  | none => (x, false)
  | some ip =>
    match slotidxInsert x.id mem.2 (slotidxHashNocase l.id) k with
    | none => ({ x with ip := ip }, false)
    | some id => ({ x with ip := ip, id := id }, true)

/-- The loop of `server_lease_index_rebuild`. -/
def rebuildRows (ls : LeaseTable) (mem : LeaseRebuildMem) : List ℕ → LeaseIndexes → LeaseIndexes
  | [], x => x
  | k :: ks, x =>
    if (ls.at k).ipBe = 0 then rebuildRows ls mem ks x
    else
      match insertLease x (mem.row k) (ls.at k) k with
      | (x, true) => rebuildRows ls mem ks x
      | (x, false) => { x with ok := false }

namespace IndexedLeases

/-- `server_lease_index_rebuild`. -/
def rebuild (t : IndexedLeases) (mem : LeaseRebuildMem) : IndexedLeases :=
  let ip := slotidxReset t.idx.ip mem.ip t.table.cap
  if !ip.1 then { t with idx := { t.idx with ip := ip.2, ok := false } }
  else
    let id := slotidxReset t.idx.id mem.id t.table.cap
    if !id.1 then { t with idx := ⟨ip.2, id.2, false⟩ }
    else { t with idx := rebuildRows t.table mem (List.range t.table.cap) ⟨ip.2, id.2, true⟩ }

/-- `server_lease_by_ip`. -/
def byIp (t : IndexedLeases) (ip : Ip) : Option ℕ :=
  if ip = 0 then none
  else if t.idx.ok then slotidxFind t.idx.ip (slotidxHashU32 ip) (matchLeaseIp t.table ip)
  else (List.range t.table.cap).find? (matchLeaseIp t.table ip)

/-- `server_lease_by_id`. -/
def byId (t : IndexedLeases) (clientId : CStr) : Option ℕ :=
  if clientId = [] then none
  else if t.idx.ok then slotidxFind t.idx.id (slotidxHashNocase clientId) (matchLeaseId t.table clientId)
  else (List.range t.table.cap).find? (matchLeaseId t.table clientId)

/-- `server_lease_drop`: the entries in the indexes go stale. -/
def drop (t : IndexedLeases) (l : Option ℕ) : IndexedLeases := { t with table := serverLeaseDrop t.table l }

def replaced (t : IndexedLeases) (op : LeaseAdd) : IndexedLeases :=
  let t := if op.prev then t else t.drop (t.byId op.clientId)
  t.drop (t.byIp op.ip)

/-- The row of a new lease is written; a table that grew is not the one that was indexed. -/
def written (t : IndexedLeases) (op : LeaseAdd) : IndexedLeases × ℕ :=
  let target := leaseTarget op.conf op.now op.grow t.table
  (⟨leaseWritten op.conf op.now op.grow t.table ⟨store CAMEX_CLIENT_ID_LEN op.clientId, op.ip, op.now, op.prev⟩,
    { t.idx with ok := t.idx.ok && target.1.cap == t.table.cap }⟩, target.2)

def indexed (t : IndexedLeases) (op : LeaseAdd) (k : ℕ) : IndexedLeases :=
  if !t.idx.ok || slotidxCrowded t.idx.ip t.table.cap || slotidxCrowded t.idx.id t.table.cap then t.rebuild op.rebuild
  else
    match insertLease t.idx (op.insertIp, op.insertId) (t.table.at k) k with
    | (idx, true) => { t with idx := idx }
    | (idx, false) => { t with idx := idx }.rebuild op.rebuild

def add (t : IndexedLeases) (op : LeaseAdd) : IndexedLeases :=
  if t.table.cap = 0 ∨ op.ip = 0 ∨ op.clientId = [] then t
  else
    let r := (t.replaced op).written op
    r.1.indexed op r.2

/-- The leases of `server_clients_init`; `none`: `calloc` failed. -/
def init (slots : Option ℕ) (mem : LeaseRebuildMem) : IndexedLeases :=
  rebuild ⟨⟨List.replicate (slots.getD 0) .unused, 0, 0, 0⟩, ⟨.none, .none, false⟩⟩ mem

end IndexedLeases

/-! ## What the indexes hold -/

def LeaseIndexes.Has (x : LeaseIndexes) (l : ServerLease) (k : ℕ) : Prop :=
  x.ip.Has (slotidxHashU32 l.ipBe) k ∧ x.id.Has (slotidxHashNocase l.id) k

/-- Every lease is in both indexes while they are in use. -/
structure LeasesIndexed (t : IndexedLeases) : Prop where
  ip : t.idx.ip.Ok
  id : t.idx.id.Ok
  rows : t.idx.ok = true → ∀ k, (t.table.at k).ipBe ≠ 0 → t.idx.Has (t.table.at k) k

/-- Two insertions add their row and keep the others. -/
theorem insertLease_spec {x : LeaseIndexes} (hip : x.ip.Ok) (hid : x.id.Ok) (mem : Bool × Bool) (l : ServerLease)
    (k : ℕ) : let r := insertLease x mem l k
    r.1.ip.Ok ∧ r.1.id.Ok ∧ r.1.ok = x.ok ∧
      (r.2 = true → r.1.Has l k ∧ ∀ l' k', x.Has l' k' → r.1.Has l' k') := by
  unfold insertLease
  cases hinsertIp : slotidxInsert x.ip mem.1 (slotidxHashU32 l.ipBe) k with
  | none => exact ⟨hip, hid, rfl, fun hfalse => Bool.noConfusion hfalse⟩
  | some ip =>
    obtain ⟨hip', hhasIp⟩ := slotidxInsert_spec hip hinsertIp
    dsimp only
    cases hinsertId : slotidxInsert x.id mem.2 (slotidxHashNocase l.id) k with
    | none => exact ⟨hip', hid, rfl, fun hfalse => Bool.noConfusion hfalse⟩
    | some id =>
      obtain ⟨hid', hhasId⟩ := slotidxInsert_spec hid hinsertId
      refine ⟨hip', hid', rfl, fun _ => ⟨⟨?_, ?_⟩, fun l' k' hold => ⟨?_, ?_⟩⟩⟩
      · exact (hhasIp _ _).mpr (Or.inl ⟨rfl, rfl⟩)
      · exact (hhasId _ _).mpr (Or.inl ⟨rfl, rfl⟩)
      · exact (hhasIp _ _).mpr (Or.inr hold.1)
      · exact (hhasId _ _).mpr (Or.inr hold.2)

theorem rebuildRows_spec (ls : LeaseTable) (mem : LeaseRebuildMem) (ks : List ℕ) {x : LeaseIndexes} (hip : x.ip.Ok)
    (hid : x.id.Ok) : let y := rebuildRows ls mem ks x
    y.ip.Ok ∧ y.id.Ok ∧ (y.ok = true → (∀ l k, x.Has l k → y.Has l k) ∧
      ∀ k ∈ ks, (ls.at k).ipBe ≠ 0 → y.Has (ls.at k) k) := by
  induction ks generalizing x with
  | nil => exact ⟨hip, hid, fun _ => ⟨fun _ _ h => h, by simp⟩⟩
  | cons k ks ih =>
    unfold rebuildRows
    split
    · rename_i hfree
      obtain ⟨hip', hid', hrows⟩ := ih hip hid
      refine ⟨hip', hid', fun hok => ⟨(hrows hok).1, fun k' hk' hne => ?_⟩⟩
      rcases List.mem_cons.mp hk' with rfl | hk'
      · exact absurd hfree hne
      · exact (hrows hok).2 k' hk' hne
    · obtain ⟨hip', hid', -, hself⟩ := insertLease_spec hip hid (mem.row k) (ls.at k) k
      dsimp only at hip' hid' hself ⊢
      cases hinsert : insertLease x (mem.row k) (ls.at k) k with
      | mk y ok =>
        rw [hinsert] at hip' hid' hself
        cases ok with
        | false => exact ⟨hip', hid', fun hfalse => Bool.noConfusion hfalse⟩
        | true =>
          obtain ⟨hip'', hid'', hrows⟩ := ih hip' hid'
          obtain ⟨hhas, hmono⟩ := hself rfl
          refine ⟨hip'', hid'', fun hok => ⟨fun l k h => (hrows hok).1 l k (hmono l k h), fun k' hk' hne => ?_⟩⟩
          rcases List.mem_cons.mp hk' with rfl | hk'
          · exact (hrows hok).1 _ _ hhas
          · exact (hrows hok).2 k' hk' hne

@[simp] theorem IndexedLeases.rebuild_table (t : IndexedLeases) (mem : LeaseRebuildMem) :
    (t.rebuild mem).table = t.table := by
  unfold IndexedLeases.rebuild
  dsimp only
  split
  · rfl
  · split
    · rfl
    · rfl

/-- **A rebuild** indexes every lease, or the indexes are out of use. -/
theorem LeasesIndexed.rebuild {t : IndexedLeases} (hid : t.idx.id.Ok) (mem : LeaseRebuildMem) :
    LeasesIndexed (t.rebuild mem) := by
  unfold IndexedLeases.rebuild
  dsimp only
  split
  · exact ⟨(slotidxReset_spec _ _ _).1, hid, fun hfalse => Bool.noConfusion hfalse⟩
  · split
    · exact ⟨(slotidxReset_spec _ _ _).1, (slotidxReset_spec _ _ _).1, fun hfalse => Bool.noConfusion hfalse⟩
    · obtain ⟨hip, hid', hrows⟩ := rebuildRows_spec t.table mem (List.range t.table.cap)
        (x := ⟨(slotidxReset t.idx.ip mem.ip t.table.cap).2, (slotidxReset t.idx.id mem.id t.table.cap).2, true⟩)
        (slotidxReset_spec _ _ _).1 (slotidxReset_spec _ _ _).1
      exact ⟨hip, hid', fun hok k hne => (hrows hok).2 k (List.mem_range.mpr (LeaseTable.lt_cap hne)) hne⟩

/-! ## Lookups -/

def IsLowest (p : ℕ → Bool) : Option ℕ → Prop
  | some k => p k = true ∧ ∀ j, p j = true → k ≤ j
  | none => ∀ k, p k = false

theorem IsLowest.unique {p : ℕ → Bool} {r r' : Option ℕ} (h : IsLowest p r) (h' : IsLowest p r') : r = r' := by
  cases r with
  | none =>
    cases r' with
    | none => rfl
    | some k => exact absurd h'.1 (by rw [h k]; exact Bool.false_ne_true)
  | some j =>
    cases r' with
    | none => exact absurd h.1 (by rw [h' j]; exact Bool.false_ne_true)
    | some k => rw [le_antisymm (h.2 k h'.1) (h'.2 j h.1)]

theorem IsLowest.scan {p : ℕ → Bool} {n : ℕ} (hp : ∀ k, p k = true → k < n) :
    IsLowest p ((List.range n).find? p) := by
  cases h : (List.range n).find? p with
  | none =>
    intro k
    rw [Bool.eq_false_iff]
    intro hk
    exact List.find?_eq_none.mp h k (List.mem_range.mpr (hp k hk)) hk
  | some k =>
    obtain ⟨hk, -, hlow⟩ := List.find?_range_eq_some.mp h
    refine ⟨hk, fun j hj => ?_⟩
    by_contra hlt
    have hnot := hlow j (by omega)
    rw [hj] at hnot
    cases hnot

theorem IsLowest.findIdx {α : Type} {l : List α} {q : α → Bool} {p : ℕ → Bool}
    (hp : ∀ k, p k = l[k]?.any q) : IsLowest p (l.findIdx? q) := by
  cases h : l.findIdx? q with
  | none =>
    intro k
    rw [hp k]
    cases hk : l[k]? with
    | none => rfl
    | some a => simpa using List.findIdx?_eq_none_iff.mp h a (List.mem_of_getElem? hk)
  | some k =>
    obtain ⟨hlt, hk, hlow⟩ := List.findIdx?_eq_some_iff_getElem.mp h
    refine ⟨by rw [hp k, List.getElem?_eq_getElem hlt]; exact hk, fun j hj => ?_⟩
    by_contra hjk
    have hjlt : j < l.length := by omega
    rw [hp j, List.getElem?_eq_getElem hjlt] at hj
    exact hlow j (by omega) hj

/-- A lookup in an index that holds every row with the property. -/
theorem IsLowest.find {x : Slotidx} (hx : x.Ok) {h : BitVec 32} {p : ℕ → Bool}
    (hp : ∀ k, p k = true → x.Has h k) : IsLowest p (slotidxFind x h p) := by
  cases hfind : slotidxFind x h p with
  | none =>
    intro k
    rw [Bool.eq_false_iff]
    intro hk
    have hnot := hx.find_none hfind (hp k hk)
    rw [hk] at hnot
    cases hnot
  | some k =>
    obtain ⟨-, hk, hlow⟩ := hx.find_some hfind
    exact ⟨hk, fun j hj => hlow j (hp j hj) hj⟩

theorem LeaseTable.getElem?_any (ls : LeaseTable) (q : ServerLease → Bool) (k : ℕ) :
    ls.slots[k]?.any q = (decide (k < ls.cap) && q (ls.at k)) := by
  unfold LeaseTable.at LeaseTable.cap
  rw [List.getD_eq_getElem?_getD]
  by_cases hk : k < ls.slots.length
  · rw [List.getElem?_eq_getElem hk, decide_eq_true hk]
    rfl
  · rw [List.getElem?_eq_none (by omega), decide_eq_false hk]
    rfl

namespace LeasesIndexed

variable {t : IndexedLeases}

/-- **A lookup by address** answers what the scan of the table does. -/
theorem byIp (h : LeasesIndexed t) (ip : Ip) : t.byIp ip = serverLeaseByIp t.table ip := by
  unfold IndexedLeases.byIp serverLeaseByIp
  split
  · rfl
  · rename_i hip
    have hmatch : ∀ k, matchLeaseIp t.table ip k = (decide (k < t.table.cap) && (t.table.at k).ipBe == ip) := by
      intro k
      have hne : (ip != 0) = true := bne_iff_ne.mpr hip
      rw [matchLeaseIp, hne, Bool.true_and]
    have hscan : IsLowest (matchLeaseIp t.table ip) (t.table.slots.findIdx? fun l => l.ipBe == ip) :=
      .findIdx fun k => by rw [hmatch, LeaseTable.getElem?_any]
    split
    · rename_i hok
      refine IsLowest.unique (.find h.ip fun k hk => ?_) hscan
      rw [hmatch, Bool.and_eq_true, beq_iff_eq] at hk
      have hhas := (h.rows hok k (by rw [hk.2]; exact hip)).1
      rwa [hk.2] at hhas
    · refine IsLowest.unique (.scan fun k hk => ?_) hscan
      rw [hmatch, Bool.and_eq_true, decide_eq_true_eq] at hk
      exact hk.1

/-- **A lookup by ID** answers what the scan of the table does. -/
theorem byId (h : LeasesIndexed t) (clientId : CStr) : t.byId clientId = serverLeaseById t.table clientId := by
  unfold IndexedLeases.byId serverLeaseById
  split
  · rfl
  · have hscan : IsLowest (matchLeaseId t.table clientId)
        (t.table.slots.findIdx? fun l => l.ipBe != 0 && !l.prev && strcaseeq l.id clientId) := by
      refine .findIdx fun k => ?_
      rw [LeaseTable.getElem?_any, matchLeaseId]
      simp only [Bool.and_assoc]
    split
    · rename_i hok
      refine IsLowest.unique (.find h.id fun k hk => ?_) hscan
      simp only [matchLeaseId, Bool.and_eq_true, bne_iff_ne] at hk
      have hhas := (h.rows hok k hk.1.1.2).2
      rwa [slotidxHashNocase_congr hk.2] at hhas
    · refine IsLowest.unique (.scan fun k hk => ?_) hscan
      simp only [matchLeaseId, Bool.and_eq_true, decide_eq_true_eq] at hk
      exact hk.1.1.1

/-! ## The operations -/

theorem drop (h : LeasesIndexed t) (l : Option ℕ) : LeasesIndexed (t.drop l) := by
  refine ⟨h.ip, h.id, fun hok k hne => ?_⟩
  rcases serverLeaseDrop_at t.table l k with hat | ⟨-, hat⟩
  · have hne : ((serverLeaseDrop t.table l).at k).ipBe ≠ 0 := hne
    show t.idx.Has ((serverLeaseDrop t.table l).at k) k
    rw [hat] at hne ⊢
    exact h.rows hok k hne
  · have hne : ((serverLeaseDrop t.table l).at k).ipBe ≠ 0 := hne
    rw [hat] at hne
    exact absurd rfl hne

theorem replaced (h : LeasesIndexed t) (op : LeaseAdd) : LeasesIndexed (t.replaced op) ∧
    (t.replaced op).table = leaseReplaced t.table op.clientId op.ip op.prev := by
  unfold IndexedLeases.replaced leaseReplaced
  cases op.prev with
  | true =>
    refine ⟨h.drop _, ?_⟩
    show serverLeaseDrop t.table (t.byIp op.ip) = _
    rw [h.byIp]
    rfl
  | false =>
    have hdrop := h.drop (t.byId op.clientId)
    refine ⟨hdrop.drop _, ?_⟩
    show serverLeaseDrop (t.drop (t.byId op.clientId)).table ((t.drop (t.byId op.clientId)).byIp op.ip) = _
    rw [hdrop.byIp, h.byId]
    rfl

end LeasesIndexed

theorem leaseWritten_row (conf : Conf) (now : Time) (grow : Bool) {ls : LeaseTable} (hcap : ls.cap ≠ 0)
    (l : ServerLease) : let k := (leaseTarget conf now grow ls).2
    k < (leaseWritten conf now grow ls l).cap ∧
      ∀ j, (leaseWritten conf now grow ls l).at j = if j = k then l else ls.at j := by
  obtain ⟨ls', k, htarget, hk, hat, -⟩ := leaseTarget_spec conf now grow hcap
  unfold leaseWritten
  rw [htarget]
  refine ⟨?_, fun j => ?_⟩
  · show k < (ls'.slots.set k l).length
    rw [List.length_set]
    exact hk
  · rw [LeaseTable.at_set _ hk]
    split
    · rfl
    · exact hat j

/-- **An add** keeps the indexes right, and its table is that of the scans. -/
theorem LeasesIndexed.add {t : IndexedLeases} (h : LeasesIndexed t) (op : LeaseAdd) : LeasesIndexed (t.add op) ∧
    (t.add op).table = serverLeaseAdd op.conf op.now op.grow t.table op.clientId op.ip op.prev := by
  unfold IndexedLeases.add
  split
  · rename_i htrivial
    exact ⟨h, (serverLeaseAdd_trivial htrivial).symm⟩
  · rename_i hadd
    obtain ⟨hreplaced, htable⟩ := h.replaced op
    have hcap : (t.replaced op).table.cap ≠ 0 := by
      rw [htable, leaseReplaced_cap]
      exact (not_or.mp hadd).1
    obtain ⟨hk, hat⟩ := leaseWritten_row op.conf op.now op.grow hcap
      ⟨store CAMEX_CLIENT_ID_LEN op.clientId, op.ip, op.now, op.prev⟩
    rw [serverLeaseAdd_eq hadd, ← htable]
    dsimp only
    generalize t.replaced op = u at hreplaced hcap hk hat ⊢
    unfold IndexedLeases.indexed IndexedLeases.written
    dsimp only
    split
    · refine ⟨LeasesIndexed.rebuild ?_ op.rebuild, IndexedLeases.rebuild_table _ _⟩
      exact hreplaced.id
    · rename_i huse
      simp only [Bool.or_eq_true, Bool.not_eq_true', not_or, Bool.not_eq_false, Bool.and_eq_true] at huse
      obtain ⟨hip, hid, hok, hself⟩ := insertLease_spec
        (x := { u.idx with ok := u.idx.ok &&
          (leaseTarget op.conf op.now op.grow u.table).1.cap == u.table.cap }) hreplaced.ip hreplaced.id
        (op.insertIp, op.insertId)
        ((leaseWritten op.conf op.now op.grow u.table ⟨store CAMEX_CLIENT_ID_LEN op.clientId, op.ip, op.now, op.prev⟩).at
          (leaseTarget op.conf op.now op.grow u.table).2) (leaseTarget op.conf op.now op.grow u.table).2
      dsimp only at hip hid hok hself ⊢
      split
      · rename_i idx hinsert
        rw [hinsert] at hip hid hok hself
        refine ⟨⟨hip, hid, fun _ j hne => ?_⟩, rfl⟩
        obtain ⟨hhas, hmono⟩ := hself rfl
        by_cases hj : j = (leaseTarget op.conf op.now op.grow u.table).2
        · subst hj
          exact hhas
        · have hold := hat j
          rw [if_neg hj] at hold
          dsimp only at hne ⊢
          rw [hold] at hne ⊢
          exact hmono _ _ (hreplaced.rows huse.1.1.1 j hne)
      · rename_i idx hinsert
        rw [hinsert] at hid
        refine ⟨LeasesIndexed.rebuild ?_ op.rebuild, IndexedLeases.rebuild_table _ _⟩
        exact hid

end Camex
