import Camex.Server.State

/-!
# Leases of gone clients and the end of an entry (`server.c`)

* `serverLeaseByIp`, `serverLeaseById`, `serverLeaseDrop`, `serverLeaseAdd`: the lease table;
* `serverEndClient`, `serverDropEntry`: an entry ends, with or without a lease;
* `LeaseTable.AddressesDistinct`: no address is leased twice, kept by both table operations.
-/

namespace Camex

open Lib

variable {n : ℕ}

/-! ## The pool's range -/

def poolSize (db : ServerDb) : BitVec 32 := 1#32 <<< (32 - db.globals.poolPrefix)

def poolGateway (db : ServerDb) : Ip := db.globals.poolNet + 1

def poolFirst (db : ServerDb) : Ip := db.globals.poolNet + 2

def poolLast (db : ServerDb) : Ip := db.globals.poolNet + poolSize db - 2

def poolHas (db : ServerDb) (ip : Ip) : Bool :=
  ip != 0 && decide (poolFirst db ≤ ip) && decide (ip ≤ poolLast db)

/-! ## The lease table -/

def SERVER_LEASE_MAX : ℕ := 2 ^ 20

/-- `server_lease_cap`. -/
def LeaseTable.cap (ls : LeaseTable) : ℕ := ls.slots.length

def LeaseTable.at (ls : LeaseTable) (k : ℕ) : ServerLease := ls.slots.getD k .unused

def serverLeaseByIp (ls : LeaseTable) (ip : Ip) : Option ℕ :=
  if ip = 0 then none else ls.slots.findIdx? fun l => l.ipBe == ip

def serverLeaseById (ls : LeaseTable) (clientId : CStr) : Option ℕ :=
  if clientId = [] then none
  else ls.slots.findIdx? fun l => l.ipBe != 0 && !l.prev && strcaseeq l.id clientId

def serverLeaseDrop (ls : LeaseTable) (l : Option ℕ) : LeaseTable :=
  match l with
  | none => ls
  | some k =>
    if (ls.at k).ipBe = 0 then ls
    else { ls with slots := ls.slots.set k .unused, used := ls.used - 1 }

def serverLeaseAllows (ls : LeaseTable) (ip : Ip) (clientId : CStr) : Bool :=
  match serverLeaseByIp ls ip with
  | none => true
  | some k => strcaseeq (ls.at k).id clientId

/-- The first free slot from the cursor on, when the counter says there is one. -/
def leaseFree (ls : LeaseTable) : Option ℕ :=
  if ls.used < ls.cap then
    ((List.range ls.cap).map fun i => (ls.next + i) % ls.cap).find? fun k => (ls.at k).ipBe == 0
  else none

def leaseOldest (ls : LeaseTable) : ℕ :=
  (List.range ls.cap).foldl (fun b k => if (ls.at k).since < (ls.at b).since then k else b) 0

/-- The table grown to `cap` slots and its first new slot. -/
def leaseGrow (ls : LeaseTable) (cap : ℕ) : LeaseTable × ℕ :=
  ({ ls with slots := ls.slots ++ List.replicate (cap - ls.cap) .unused, next := ls.cap + 1 }, ls.cap)

/-- The slot `server_lease_add` takes for a new lease, in the table as it is then: a free one, else
the oldest lease's, else, when that one is still young, one the table grows by. `grow`: `realloc`
succeeds. -/
def leaseTarget (conf : Conf) (now : Time) (grow : Bool) (ls : LeaseTable) : LeaseTable × ℕ :=
  let (ls, k) :=
    match leaseFree ls with
    | some k => ({ ls with next := (k + 1) % ls.cap }, k)
    | none => (ls, leaseOldest ls)
  if (ls.at k).ipBe ≠ 0 ∧ now - (ls.at k).since < serverLeaseMin conf then
    let cap := min (ls.cap * 2) (min (poolSize conf.db).toNat SERVER_LEASE_MAX)
    if ls.cap < cap ∧ grow then leaseGrow ls cap
    else ({ ls with lost := ls.lost + 1 }, k)
  else (ls, k)

/-- `server_lease_add`, first part: the leases the new one replaces are dropped. -/
def leaseReplaced (ls : LeaseTable) (clientId : CStr) (ip : Ip) (prev : Bool) : LeaseTable :=
  let ls := if prev then ls else serverLeaseDrop ls (serverLeaseById ls clientId)
  serverLeaseDrop ls (serverLeaseByIp ls ip)

/-- `server_lease_add`, second part: the lease is written. -/
def leaseWritten (conf : Conf) (now : Time) (grow : Bool) (ls : LeaseTable) (l : ServerLease) :
    LeaseTable :=
  let (ls, k) := leaseTarget conf now grow ls
  { ls with
    used := if (ls.at k).ipBe = 0 then ls.used + 1 else ls.used
    slots := ls.slots.set k l }

def serverLeaseAdd (conf : Conf) (now : Time) (grow : Bool) (ls : LeaseTable) (clientId : CStr)
    (ip : Ip) (prev : Bool) : LeaseTable :=
  if ls.cap = 0 ∨ ip = 0 ∨ clientId = [] then ls
  else
    leaseWritten conf now grow (leaseReplaced ls clientId ip prev)
      ⟨store CAMEX_CLIENT_ID_LEN clientId, ip, now, prev⟩

/-! ## What the operations do to the slots -/

def LeaseTable.AddressesDistinct (ls : LeaseTable) : Prop :=
  ∀ j k, (ls.at j).ipBe = (ls.at k).ipBe → (ls.at j).ipBe ≠ 0 → j = k

theorem LeaseTable.at_of_cap_le {ls : LeaseTable} {k : ℕ} (h : ls.cap ≤ k) : ls.at k = .unused := by
  unfold LeaseTable.at
  rw [List.getD_eq_getElem?_getD, List.getElem?_eq_none h, Option.getD_none]

theorem LeaseTable.lt_cap {ls : LeaseTable} {k : ℕ} (h : (ls.at k).ipBe ≠ 0) : k < ls.cap := by
  by_contra hk
  rw [LeaseTable.at_of_cap_le (by omega)] at h
  exact h rfl

theorem LeaseTable.at_set (ls : LeaseTable) {k : ℕ} (hk : k < ls.cap) (l : ServerLease) (u v : ℕ)
    (w : ℕ) (j : ℕ) :
    LeaseTable.at ⟨ls.slots.set k l, u, v, w⟩ j = if j = k then l else ls.at j := by
  have hk' : k < ls.slots.length := hk
  simp only [LeaseTable.at, List.getD_eq_getElem?_getD, List.getElem?_set]
  by_cases h : k = j
  · subst h
    simp [hk']
  · simp [h, Ne.symm h]

theorem serverLeaseByIp_some {ls : LeaseTable} {ip : Ip} {k : ℕ} (h : serverLeaseByIp ls ip = some k) :
    ip ≠ 0 ∧ (ls.at k).ipBe = ip := by
  unfold serverLeaseByIp at h
  split at h
  · cases h
  · rename_i hip
    obtain ⟨hk, hp, -⟩ := List.findIdx?_eq_some_iff_getElem.mp h
    refine ⟨hip, ?_⟩
    simpa [LeaseTable.at, hk] using hp

theorem serverLeaseByIp_none {ls : LeaseTable} {ip : Ip} (h : serverLeaseByIp ls ip = none)
    (hip : ip ≠ 0) (k : ℕ) : (ls.at k).ipBe ≠ ip := by
  unfold serverLeaseByIp at h
  rw [if_neg hip, List.findIdx?_eq_none_iff] at h
  by_cases hk : k < ls.slots.length
  · have := h ls.slots[k] (List.getElem_mem hk)
    simpa [LeaseTable.at, hk] using this
  · rw [LeaseTable.at_of_cap_le (Nat.le_of_not_lt hk)]
    exact Ne.symm hip

/-- The address a scan finds is the one of the only slot that has it. -/
theorem serverLeaseByIp_eq {ls : LeaseTable} (hd : ls.AddressesDistinct) {k : ℕ}
    (h : (ls.at k).ipBe ≠ 0) : serverLeaseByIp ls (ls.at k).ipBe = some k := by
  cases hf : serverLeaseByIp ls (ls.at k).ipBe with
  | none => exact absurd rfl (serverLeaseByIp_none hf h k)
  | some j => rw [hd j k (serverLeaseByIp_some hf).2 ((serverLeaseByIp_some hf).2 ▸ h)]

/-- A drop empties its slot and leaves the others. -/
theorem serverLeaseDrop_at (ls : LeaseTable) (o : Option ℕ) (j : ℕ) :
    (serverLeaseDrop ls o).at j = ls.at j ∨ o = some j ∧ (serverLeaseDrop ls o).at j = .unused := by
  unfold serverLeaseDrop
  split
  · exact Or.inl rfl
  · rename_i k
    split
    · exact Or.inl rfl
    · rename_i hk
      rw [LeaseTable.at_set ls (LeaseTable.lt_cap hk)]
      split
      · rename_i hj
        exact Or.inr ⟨by rw [hj], rfl⟩
      · exact Or.inl rfl

theorem serverLeaseDrop_at_of_ne {ls : LeaseTable} {o : Option ℕ} {j : ℕ} (h : o ≠ some j) :
    (serverLeaseDrop ls o).at j = ls.at j :=
  (serverLeaseDrop_at ls o j).resolve_right fun h' => h h'.1

theorem serverLeaseDrop_ip (ls : LeaseTable) (k : ℕ) : ((serverLeaseDrop ls (some k)).at k).ipBe = 0 := by
  unfold serverLeaseDrop
  dsimp only
  split
  · assumption
  · rename_i hk
    rw [LeaseTable.at_set ls (LeaseTable.lt_cap hk), if_pos rfl]
    rfl

@[simp] theorem serverLeaseDrop_cap (ls : LeaseTable) (o : Option ℕ) :
    (serverLeaseDrop ls o).cap = ls.cap := by
  unfold serverLeaseDrop LeaseTable.cap
  split
  · rfl
  · split <;> simp

/-- After a drop no slot has an address that none had before. -/
theorem serverLeaseDrop_addressesDistinct {ls : LeaseTable} (hd : ls.AddressesDistinct)
    (o : Option ℕ) : (serverLeaseDrop ls o).AddressesDistinct := by
  intro j k hjk hj
  rcases serverLeaseDrop_at ls o j with hj' | ⟨-, hj'⟩
  · rcases serverLeaseDrop_at ls o k with hk' | ⟨-, hk'⟩
    · rw [hj', hk'] at hjk
      rw [hj'] at hj
      exact hd j k hjk hj
    · rw [hk'] at hjk
      exact absurd hjk hj
  · rw [hj'] at hj
    exact absurd rfl hj

/-! ## Where a lease is written -/

theorem leaseFree_some {ls : LeaseTable} {k : ℕ} (h : leaseFree ls = some k) :
    k < ls.cap ∧ (ls.at k).ipBe = 0 := by
  unfold leaseFree at h
  split at h
  · rename_i hu
    have hmem := List.mem_of_find?_eq_some h
    simp only [List.mem_map, List.mem_range] at hmem
    obtain ⟨i, -, rfl⟩ := hmem
    exact ⟨Nat.mod_lt _ (by omega), by simpa using List.find?_some h⟩
  · cases h

theorem leaseOldest_lt {ls : LeaseTable} (h : ls.cap ≠ 0) : leaseOldest ls < ls.cap := by
  unfold leaseOldest
  refine foldl_induction (fun k b => if (ls.at k).since < (ls.at b).since then k else b)
    (List.range ls.cap) (I := (· < ls.cap)) (fun k hk b hb => ?_) 0 (by omega)
  rw [List.mem_range] at hk
  split <;> assumption

theorem leaseGrow_at (ls : LeaseTable) (cap j : ℕ) : (leaseGrow ls cap).1.at j = ls.at j := by
  simp only [leaseGrow, LeaseTable.at, List.getD_eq_getElem?_getD, List.getElem?_append]
  split
  · rfl
  · rename_i hj
    rw [List.getElem?_eq_none (by omega : ls.slots.length ≤ j), List.getElem?_replicate]
    split <;> rfl

/-- The slot for a new lease is in the table, which is otherwise as it was; it is free, or what is
lost there is old, or the loss is counted. -/
theorem leaseTarget_spec (conf : Conf) (now : Time) (grow : Bool) {ls : LeaseTable}
    (hcap : ls.cap ≠ 0) :
    ∃ ls' k, leaseTarget conf now grow ls = (ls', k) ∧ k < ls'.cap ∧ (∀ j, ls'.at j = ls.at j) ∧
      ls.lost ≤ ls'.lost ∧ ls.cap ≤ ls'.cap ∧
      ((ls.at k).ipBe ≠ 0 → now - (ls.at k).since < serverLeaseMin conf → ls.lost < ls'.lost) := by
  obtain ⟨ls₁, k, hsel, hk, hat, hcap₁, hlost⟩ : ∃ ls₁ k,
      (match leaseFree ls with
        | some k => ({ ls with next := (k + 1) % ls.cap }, k)
        | none => (ls, leaseOldest ls)) = (ls₁, k) ∧ k < ls.cap ∧ (∀ j, ls₁.at j = ls.at j) ∧
        ls₁.cap = ls.cap ∧ ls₁.lost = ls.lost := by
    cases hf : leaseFree ls with
    | none => exact ⟨ls, leaseOldest ls, rfl, leaseOldest_lt hcap, fun _ => rfl, rfl, rfl⟩
    | some k => exact ⟨_, k, rfl, (leaseFree_some hf).1, fun _ => rfl, rfl, rfl⟩
  unfold leaseTarget
  rw [hsel]
  dsimp only
  split
  · split
    · -- the slot is the first of the new ones
      rename_i hgrow
      refine ⟨_, _, rfl, ?_, fun j => (leaseGrow_at _ _ j).trans (hat j), hlost.ge, ?_, fun hne => ?_⟩
      · have := hgrow.1
        simp only [LeaseTable.cap, List.length_append, List.length_replicate] at *
        omega
      · simp only [LeaseTable.cap, List.length_append, List.length_replicate] at *
        omega
      · simp only [hcap₁, LeaseTable.at_of_cap_le le_rfl] at hne
        exact absurd rfl hne
    · refine ⟨_, _, rfl, hcap₁.symm ▸ hk, hat, ?_, hcap₁.ge, fun _ _ => ?_⟩ <;> dsimp only <;> omega
  · rename_i hyoung
    refine ⟨_, _, rfl, hcap₁.symm ▸ hk, hat, hlost.ge, hcap₁.ge, fun hne hlt => ?_⟩
    rw [hat] at hyoung
    exact absurd ⟨hne, hlt⟩ hyoung

theorem leaseWritten_spec (conf : Conf) (now : Time) (grow : Bool) (ls : LeaseTable)
    (hcap : ls.cap ≠ 0) (l : ServerLease) :
    ∃ k, (∀ j, (leaseWritten conf now grow ls l).at j = if j = k then l else ls.at j) ∧
      ls.lost ≤ (leaseWritten conf now grow ls l).lost ∧
      ls.cap ≤ (leaseWritten conf now grow ls l).cap ∧
      ((ls.at k).ipBe ≠ 0 → now - (ls.at k).since < serverLeaseMin conf →
        ls.lost < (leaseWritten conf now grow ls l).lost) := by
  obtain ⟨ls', k, htarget, hk, hat, hlost, hcap', hyoung⟩ := leaseTarget_spec conf now grow hcap
  unfold leaseWritten
  rw [htarget]
  refine ⟨k, fun j => ?_, hlost, ?_, hyoung⟩
  · rw [LeaseTable.at_set _ hk]
    split
    · rfl
    · exact hat j
  · simpa [LeaseTable.cap] using hcap'

@[simp] theorem leaseReplaced_cap (ls : LeaseTable) (clientId : CStr) (ip : Ip) (prev : Bool) :
    (leaseReplaced ls clientId ip prev).cap = ls.cap := by
  unfold leaseReplaced
  cases prev <;> simp

theorem leaseReplaced_addressesDistinct {ls : LeaseTable} (hd : ls.AddressesDistinct)
    (clientId : CStr) (ip : Ip) (prev : Bool) :
    (leaseReplaced ls clientId ip prev).AddressesDistinct := by
  unfold leaseReplaced
  refine serverLeaseDrop_addressesDistinct ?_ _
  split
  · exact hd
  · exact serverLeaseDrop_addressesDistinct hd _

/-- Nobody has the address of the lease that is about to be written. -/
theorem leaseReplaced_ip {ls : LeaseTable} (hd : ls.AddressesDistinct) (clientId : CStr) {ip : Ip}
    (hip : ip ≠ 0) (prev : Bool) (j : ℕ) : ((leaseReplaced ls clientId ip prev).at j).ipBe ≠ ip := by
  unfold leaseReplaced
  generalize hls₀ : (if prev = true then ls else serverLeaseDrop ls (serverLeaseById ls clientId)) = ls₀
  have hd₀ : ls₀.AddressesDistinct := by
    rw [← hls₀]
    split
    · exact hd
    · exact serverLeaseDrop_addressesDistinct hd _
  dsimp only
  intro hj
  rcases serverLeaseDrop_at ls₀ (serverLeaseByIp ls₀ ip) j with hat | ⟨-, hat⟩
  · have hf : serverLeaseByIp ls₀ ip = some j := by
      rw [hat] at hj
      rw [← hj]
      exact serverLeaseByIp_eq hd₀ (hj ▸ hip)
    rw [hf, serverLeaseDrop_ip] at hj
    exact hip hj.symm
  · rw [hat] at hj
    exact hip hj.symm

/-! ## Adding a lease -/

section Add

variable {conf : Conf} {now : Time} {grow : Bool} {ls : LeaseTable} {clientId : CStr} {ip : Ip}
  {prev : Bool}

theorem serverLeaseAdd_trivial (h : ls.cap = 0 ∨ ip = 0 ∨ clientId = []) :
    serverLeaseAdd conf now grow ls clientId ip prev = ls := by
  unfold serverLeaseAdd
  rw [if_pos h]

theorem serverLeaseAdd_eq (h : ¬ (ls.cap = 0 ∨ ip = 0 ∨ clientId = [])) :
    serverLeaseAdd conf now grow ls clientId ip prev =
      leaseWritten conf now grow (leaseReplaced ls clientId ip prev)
        ⟨store CAMEX_CLIENT_ID_LEN clientId, ip, now, prev⟩ := by
  unfold serverLeaseAdd
  rw [if_neg h]

theorem serverLeaseAdd_addressesDistinct (hd : ls.AddressesDistinct) :
    (serverLeaseAdd conf now grow ls clientId ip prev).AddressesDistinct := by
  by_cases h : ls.cap = 0 ∨ ip = 0 ∨ clientId = []
  · rwa [serverLeaseAdd_trivial h]
  · rw [serverLeaseAdd_eq h]
    simp only [not_or] at h
    obtain ⟨k, hat, -⟩ := leaseWritten_spec conf now grow
      (leaseReplaced ls clientId ip prev) (by simpa using h.1)
      ⟨store CAMEX_CLIENT_ID_LEN clientId, ip, now, prev⟩
    have hnone := leaseReplaced_ip hd clientId h.2.1 prev
    intro a b hab ha
    rw [hat a] at ha
    rw [hat a, hat b] at hab
    split at hab <;> split at hab <;> rename_i h₁ h₂
    · rw [h₁, h₂]
    · exact absurd hab.symm (hnone b)
    · exact absurd hab (hnone a)
    · rw [if_neg h₁] at ha
      exact leaseReplaced_addressesDistinct hd _ _ _ a b hab ha

theorem leaseReplaced_at (ls : LeaseTable) (clientId : CStr) (ip : Ip) (prev : Bool) (j : ℕ) :
    (leaseReplaced ls clientId ip prev).at j = ls.at j ∨ (leaseReplaced ls clientId ip prev).at j = .unused := by
  unfold leaseReplaced
  dsimp only
  generalize hls₀ : (if prev = true then ls else serverLeaseDrop ls (serverLeaseById ls clientId)) = ls₀
  have h₀ : ls₀.at j = ls.at j ∨ ls₀.at j = .unused := by
    rw [← hls₀]
    split
    · exact Or.inl rfl
    · exact (serverLeaseDrop_at ls _ j).imp id And.right
  rcases serverLeaseDrop_at ls₀ (serverLeaseByIp ls₀ ip) j with h | ⟨-, h⟩
  · rw [h]
    exact h₀
  · exact Or.inr h

/-- A lease in the table after an add is the new one or was there before. -/
theorem serverLeaseAdd_at {j : ℕ} (hne : ((serverLeaseAdd conf now grow ls clientId ip prev).at j).ipBe ≠ 0) :
    (serverLeaseAdd conf now grow ls clientId ip prev).at j = ls.at j ∨
      (serverLeaseAdd conf now grow ls clientId ip prev).at j =
        ⟨store CAMEX_CLIENT_ID_LEN clientId, ip, now, prev⟩ := by
  by_cases h : ls.cap = 0 ∨ ip = 0 ∨ clientId = []
  · exact Or.inl (by rw [serverLeaseAdd_trivial h])
  · rw [serverLeaseAdd_eq h] at hne ⊢
    rw [not_or] at h
    obtain ⟨k, hat, -⟩ := leaseWritten_spec conf now grow
      (leaseReplaced ls clientId ip prev) (by simpa using h.1)
      ⟨store CAMEX_CLIENT_ID_LEN clientId, ip, now, prev⟩
    rw [hat j] at hne ⊢
    split
    · exact Or.inr rfl
    · rename_i hjk
      rw [if_neg hjk] at hne
      rcases leaseReplaced_at ls clientId ip prev j with hold | hold
      · exact Or.inl hold
      · rw [hold] at hne
        exact absurd rfl hne

end Add

/-! ## The end of an entry -/

/-- The leases `server_end_client` adds for an entry. -/
def leasesOfEnded (conf : Conf) (now : Time) (grow : Grow) (c : ServerClient) (ls : LeaseTable) :
    LeaseTable :=
  if c.active && c.registered && c.autoClient && c.clientId != [] then
    let ls :=
      if poolHas conf.db c.ipBe && (profileOwnerOfIp conf.db c.ipBe).isNone then
        serverLeaseAdd conf now (grow false) ls c.clientId c.ipBe false
      else ls
    if c.prev.valid && c.prevIpBe != c.ipBe && poolHas conf.db c.prevIpBe &&
        (profileOwnerOfIp conf.db c.prevIpBe).isNone then
      serverLeaseAdd conf now (grow true) ls c.clientId c.prevIpBe true
    else ls
  else ls

/-- A lease that an ending entry leaves behind is for an address it held, or was there before. -/
theorem leasesOfEnded_at (conf : Conf) (now : Time) (grow : Grow) (c : ServerClient) (ls : LeaseTable) {j : ℕ}
    (hne : ((leasesOfEnded conf now grow c ls).at j).ipBe ≠ 0) :
    (leasesOfEnded conf now grow c ls).at j = ls.at j ∨
      c.active = true ∧ (((leasesOfEnded conf now grow c ls).at j).ipBe = c.ipBe ∨
        c.prev.valid = true ∧ ((leasesOfEnded conf now grow c ls).at j).ipBe = c.prevIpBe) := by
  unfold leasesOfEnded at hne ⊢
  split at hne
  · rename_i hended
    rw [if_pos hended]
    simp only [Bool.and_eq_true] at hended
    have hactive := hended.1.1.1
    dsimp only at hne ⊢
    generalize hls₁ : (if (poolHas conf.db c.ipBe && (profileOwnerOfIp conf.db c.ipBe).isNone) = true then
      serverLeaseAdd conf now (grow false) ls c.clientId c.ipBe false else ls) = ls₁ at hne ⊢
    have hown : (ls₁.at j).ipBe ≠ 0 → ls₁.at j = ls.at j ∨ (ls₁.at j).ipBe = c.ipBe := by
      intro h₁
      rw [← hls₁] at h₁ ⊢
      split at h₁
      · rename_i hpool
        rw [if_pos hpool]
        refine (serverLeaseAdd_at h₁).imp id fun h => ?_
        rw [h]
      · rename_i hpool
        rw [if_neg hpool]
        exact Or.inl rfl
    split at hne
    · rename_i hprev
      rw [if_pos hprev]
      simp only [Bool.and_eq_true] at hprev
      rcases serverLeaseAdd_at hne with h | h
      · rw [h] at hne ⊢
        exact (hown hne).imp id fun h => ⟨hactive, Or.inl h⟩
      · rw [h]
        exact Or.inr ⟨hactive, Or.inr ⟨hprev.1.1.1, rfl⟩⟩
    · rename_i hprev
      rw [if_neg hprev]
      exact (hown hne).imp id fun h => ⟨hactive, Or.inl h⟩
  · rename_i hended
    rw [if_neg hended]
    exact Or.inl rfl

def serverDropEntry (s : Server n) (i : Fin n) : Server n :=
  { s.setClient i .wiped with sockets := netTcpClose s.sockets (s.clients i).tcpFd }

def serverEndClient (grow : Grow) (i : Fin n) (s : Server n) : Server n :=
  serverDropEntry { s with leases := leasesOfEnded s.conf s.now grow (s.clients i) s.leases } i

section End

variable (grow : Grow) (i : Fin n) (s : Server n)

@[simp] theorem serverDropEntry_self : (serverDropEntry s i).clients i = .wiped := Function.update_self ..

@[simp] theorem serverDropEntry_of_ne {j : Fin n} (h : j ≠ i) :
    (serverDropEntry s i).clients j = s.clients j := Function.update_of_ne h ..

@[simp] theorem serverEndClient_self : (serverEndClient grow i s).clients i = .wiped :=
  Function.update_self ..

@[simp] theorem serverEndClient_of_ne {j : Fin n} (h : j ≠ i) :
    (serverEndClient grow i s).clients j = s.clients j := Function.update_of_ne h ..

@[simp] theorem serverEndClient_leases : (serverEndClient grow i s).leases =
    leasesOfEnded s.conf s.now grow (s.clients i) s.leases := rfl

@[simp] theorem serverEndClient_conf : (serverEndClient grow i s).conf = s.conf := rfl

end End

end Camex
