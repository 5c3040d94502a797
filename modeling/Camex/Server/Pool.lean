import Camex.Server.Lease

/-!
# The auto pool (`server.c`)

* `serverIpUsable`: may an entry have this address from the pool;
* `serverAutoPoolTake`: the walk from the cursor, which falls back to the oldest lease that is past
  its time; `mem_poolHosts` says which hosts it visits, `serverAutoPoolTake_some` and
  `serverAutoPoolTake_leased` what the address it answers is.
-/

namespace Camex

open Lib

variable {n : ℕ}

/-- `server_check_pool`: the server's own tunnel address, zero without one. -/
def serverCheckPool (serverCidr : CStr) : Ip := (cidrIp serverCidr).getD 0

/-- Nobody but slot `i` is found as the user of an address. -/
def ipFreeFor (s : Server n) (i : Fin n) (ip : Ip) : Bool :=
  match serverFindByIp s.clients ip with
  | none => true
  | some user => user == i

/-- `server_ip_usable`; the entry is slot `i`. -/
def serverIpUsable (s : Server n) (i : Fin n) (ip : Ip) (clientId : CStr) : Bool :=
  if !poolHas s.conf.db ip || ip == s.conf.tunnelIp || (profileOwnerOfIp s.conf.db ip).isSome then
    false
  else ipFreeFor s i ip && serverLeaseAllows s.leases ip clientId

/-- Is the lease of `ip` one that the walk may give away when the pool has nothing else? -/
def leaseGivable (s : Server n) (i : Fin n) (ip : Ip) (l : ServerLease) : Bool :=
  ip != s.conf.tunnelIp && (profileOwnerOfIp s.conf.db ip).isNone && ipFreeFor s i ip &&
    decide (serverLeaseMin s.conf ≤ s.now - l.since)

/-- The oldest such lease so far, with the host at `ip` looked at too. -/
def poolCandidate (s : Server n) (i : Fin n) (ip : Ip) (oldest : Option ServerLease) :
    Option ServerLease :=
  match serverLeaseByIp s.leases ip with
  | none => oldest
  | some k =>
    let l := s.leases.at k
    if leaseGivable s i ip l && oldest.all fun o => decide (l.since < o.since) then some l else oldest

inductive PoolWalk
  | found (host : Ip)
  | exhausted (oldest : Option ServerLease)
  deriving DecidableEq

/-- The loop of the walk over the hosts still to be looked at. -/
def poolWalk (s : Server n) (i : Fin n) (clientId : CStr) : List Ip → Option ServerLease → PoolWalk
  | [], oldest => .exhausted oldest
  | host :: hosts, oldest =>
    if serverIpUsable s i host clientId then .found host
    else poolWalk s i clientId hosts (poolCandidate s i host oldest)

def poolHosts (db : ServerDb) (next : Ip) : List Ip :=
  let first := poolFirst db
  let size := poolLast db - first + 1
  let start := if first ≤ next ∧ next ≤ poolLast db then next - first else 0
  (List.range size.toNat).map fun k => first + (start + BitVec.ofNat 32 k) % size

/-- `server_auto_pool_take`: the cursor and the address taken. -/
def serverAutoPoolTake (s : Server n) (i : Fin n) : PoolCursor × Option Ip :=
  let g := s.conf.db.globals
  if s.pool.fullAt = s.now ∧ s.pool.fullAt ≠ 0 ∧ s.pool.fullNet = g.poolNet ∧
      s.pool.fullPrefix = g.poolPrefix then (s.pool, none)
  else
    match poolWalk s i (s.clients i).clientId (poolHosts s.conf.db s.pool.next) none with
    | .found host =>
      ({ s.pool with next := if host < poolLast s.conf.db then host + 1 else poolFirst s.conf.db },
        some host)
    | .exhausted (some l) => (s.pool, some l.ipBe)
    | .exhausted none =>
      ({ s.pool with fullAt := s.now, fullNet := g.poolNet, fullPrefix := g.poolPrefix }, none)

/-! ## The hosts of the walk -/

section Hosts

variable (db : ServerDb)

theorem poolSize_toNat : (poolSize db).toNat = 2 ^ (32 - db.globals.poolPrefix) := by
  have hmin := db.poolPrefixMin
  unfold poolSize
  rw [BitVec.toNat_shiftLeft, show (1#32).toNat = 1 from rfl, Nat.shiftLeft_eq, one_mul]
  exact Nat.mod_eq_of_lt (Nat.pow_lt_pow_right (by decide) (by omega))

/-- The pool is four addresses or more, and lies below the end of the address space. -/
theorem pool_bounds : 4 ≤ (poolSize db).toNat ∧ (poolSize db).toNat ≤ 2 ^ 24 ∧
    db.globals.poolNet.toNat + (poolSize db).toNat ≤ 2 ^ 32 := by
  have hmin := db.poolPrefixMin
  have hmax := db.poolPrefixMax
  have halign := db.poolNetAligned
  have hnet := db.globals.poolNet.isLt
  rw [poolSize_toNat]
  refine ⟨?_, Nat.pow_le_pow_right (by decide) (by omega), ?_⟩
  · calc 4 = 2 ^ 2 := rfl
      _ ≤ 2 ^ (32 - db.globals.poolPrefix) := Nat.pow_le_pow_right (by decide) (by omega)
  · obtain ⟨q, hq⟩ := Nat.dvd_of_mod_eq_zero halign
    rw [hq] at hnet ⊢
    have hsplit : 2 ^ 32 = 2 ^ (32 - db.globals.poolPrefix) * 2 ^ db.globals.poolPrefix := by
      rw [← Nat.pow_add]
      congr 1
      omega
    rw [hsplit] at hnet ⊢
    have hlt : q < 2 ^ db.globals.poolPrefix := lt_of_mul_lt_mul_left hnet (Nat.zero_le _)
    calc 2 ^ (32 - db.globals.poolPrefix) * q + 2 ^ (32 - db.globals.poolPrefix)
        = 2 ^ (32 - db.globals.poolPrefix) * (q + 1) := (Nat.mul_succ _ _).symm
      _ ≤ 2 ^ (32 - db.globals.poolPrefix) * 2 ^ db.globals.poolPrefix :=
          Nat.mul_le_mul_left _ hlt

theorem poolFirst_toNat : (poolFirst db).toNat = db.globals.poolNet.toNat + 2 := by
  obtain ⟨h₁, h₂, h₃⟩ := pool_bounds db
  unfold poolFirst
  rw [BitVec.toNat_add]
  have : (2 : Ip).toNat = 2 := rfl
  omega

theorem poolLast_toNat :
    (poolLast db).toNat = db.globals.poolNet.toNat + (poolSize db).toNat - 2 := by
  obtain ⟨h₁, h₂, h₃⟩ := pool_bounds db
  have hnet := db.globals.poolNet.isLt
  unfold poolLast
  rw [BitVec.toNat_sub, BitVec.toNat_add]
  have : (2 : Ip).toNat = 2 := rfl
  omega

theorem poolHas_iff {ip : Ip} : poolHas db ip = true ↔
    (poolFirst db).toNat ≤ ip.toNat ∧ ip.toNat ≤ (poolLast db).toNat := by
  have hfirst := poolFirst_toNat db
  unfold poolHas
  simp only [Bool.and_eq_true, bne_iff_ne, decide_eq_true_eq, BitVec.le_def]
  refine ⟨fun h => ⟨h.1.2, h.2⟩, fun h => ⟨⟨?_, h.1⟩, h.2⟩⟩
  rintro rfl
  have : (0 : Ip).toNat = 0 := rfl
  omega

/-- The walk goes around the pool once, from its start on. -/
theorem poolHosts_eq (next : Ip) : ∃ start < (poolSize db).toNat - 3,
    poolHosts db next = (List.range ((poolSize db).toNat - 3)).map fun k =>
      BitVec.ofNat 32 ((poolFirst db).toNat + (start + k) % ((poolSize db).toNat - 3)) := by
  obtain ⟨h₁, h₂, h₃⟩ := pool_bounds db
  have hfirst := poolFirst_toNat db
  have hlast := poolLast_toNat db
  have hsize : (poolLast db - poolFirst db + 1).toNat = (poolSize db).toNat - 3 := by
    rw [BitVec.toNat_add, BitVec.toNat_sub]
    have : (1 : Ip).toNat = 1 := rfl
    omega
  unfold poolHosts
  dsimp only
  generalize hstart : (if poolFirst db ≤ next ∧ next ≤ poolLast db then next - poolFirst db else 0) = start
  have hstart : start.toNat < (poolSize db).toNat - 3 := by
    rw [← hstart]
    split
    · rename_i hin
      simp only [BitVec.le_def] at hin
      rw [BitVec.toNat_sub]
      omega
    · show 0 < _
      omega
  refine ⟨start.toNat, hstart, ?_⟩
  rw [hsize]
  refine List.map_congr_left fun k hk => ?_
  have hmod := Nat.mod_lt (start.toNat + k) (show 0 < (poolSize db).toNat - 3 by omega)
  have hk' : (start + BitVec.ofNat 32 k).toNat = start.toNat + k := by
    have := List.mem_range.mp hk
    rw [BitVec.toNat_add, BitVec.toNat_ofNat]
    omega
  apply BitVec.eq_of_toNat_eq
  rw [BitVec.toNat_add, BitVec.toNat_umod, hsize, hk', BitVec.toNat_ofNat]

/-- **The walk visits the client addresses of the pool**, and these only. -/
theorem mem_poolHosts {next ip : Ip} : ip ∈ poolHosts db next ↔ poolHas db ip = true := by
  obtain ⟨h₁, h₂, h₃⟩ := pool_bounds db
  have hfirst := poolFirst_toNat db
  have hlast := poolLast_toNat db
  obtain ⟨start, hstart, hhosts⟩ := poolHosts_eq db next
  rw [hhosts, poolHas_iff, List.mem_map]
  simp only [List.mem_range]
  constructor
  · rintro ⟨k, hk, rfl⟩
    have hmod := Nat.mod_lt (start + k) (show 0 < (poolSize db).toNat - 3 by omega)
    rw [BitVec.toNat_ofNat, Nat.mod_eq_of_lt (by omega)]
    omega
  · intro hip
    generalize hS : (poolSize db).toNat - 3 = size at *
    refine ⟨(ip.toNat - (poolFirst db).toNat + (size - start)) % size, Nat.mod_lt _ (by omega), ?_⟩
    apply BitVec.eq_of_toNat_eq
    rw [Nat.add_mod_mod, show start + (ip.toNat - (poolFirst db).toNat + (size - start)) =
      ip.toNat - (poolFirst db).toNat + size by omega, Nat.add_mod_right, Nat.mod_eq_of_lt (by omega),
      BitVec.toNat_ofNat]
    omega

/-- **It visits each of them once.** -/
theorem poolHosts_nodup (next : Ip) : (poolHosts db next).Nodup := by
  obtain ⟨h₁, h₂, h₃⟩ := pool_bounds db
  have hfirst := poolFirst_toNat db
  obtain ⟨start, hstart, hhosts⟩ := poolHosts_eq db next
  rw [hhosts]
  refine List.Nodup.map_on (fun k hk l hl heq => ?_) List.nodup_range
  rw [List.mem_range] at hk hl
  generalize hsize : (poolSize db).toNat - 3 = size at *
  have hmodk := Nat.mod_lt (start + k) (show 0 < size by omega)
  have hmodl := Nat.mod_lt (start + l) (show 0 < size by omega)
  have hmod : (start + k) % size = (start + l) % size := by
    have hnat := congrArg BitVec.toNat heq
    rw [BitVec.toNat_ofNat, BitVec.toNat_ofNat] at hnat
    omega
  -- two places less than a round apart with one host are one place
  have hk' := Nat.div_add_mod (start + k) size
  have hl' := Nat.div_add_mod (start + l) size
  rw [hmod] at hk'
  have hround : ∀ m, m < size → (start + m) / size = if start + m < size then 0 else 1 := by
    intro m hm
    split
    · exact Nat.div_eq_of_lt ‹_›
    · exact Nat.div_eq_of_lt_le (by omega) (by omega)
  rw [hround k hk] at hk'
  rw [hround l hl] at hl'
  split at hk' <;> split at hl' <;> omega

end Hosts

/-! ## What the walk answers -/

theorem serverIpUsable_iff {s : Server n} {i : Fin n} {ip : Ip} {clientId : CStr} :
    serverIpUsable s i ip clientId = true ↔
      poolHas s.conf.db ip = true ∧ ip ≠ s.conf.tunnelIp ∧ profileOwnerOfIp s.conf.db ip = none ∧
        ipFreeFor s i ip = true ∧ serverLeaseAllows s.leases ip clientId = true := by
  unfold serverIpUsable
  split
  · rename_i h
    simp only [Bool.or_eq_true, Bool.not_eq_true', beq_iff_eq] at h
    constructor
    · intro h'
      cases h'
    · rintro ⟨hp, ht, ho, -⟩
      rcases h with (h | h) | h
      · rw [hp] at h
        cases h
      · exact absurd h ht
      · rw [ho] at h
        cases h
  · rename_i h
    simp only [Bool.or_eq_true, Bool.not_eq_true', beq_iff_eq, not_or, Bool.not_eq_false,
      Option.not_isSome_iff_eq_none] at h
    rw [Bool.and_eq_true]
    exact ⟨fun h' => ⟨h.1.1, h.1.2, h.2, h'⟩, fun h' => h'.2.2.2⟩

theorem poolHas_ne_zero {db : ServerDb} {ip : Ip} (h : poolHas db ip = true) : ip ≠ 0 := by
  unfold poolHas at h
  simp only [Bool.and_eq_true, bne_iff_ne] at h
  exact h.1.1

/-- The address of a lease the walk may give away. -/
structure Givable (s : Server n) (i : Fin n) (ip : Ip) : Prop where
  ne_zero : ip ≠ 0
  ne_tunnel : ip ≠ s.conf.tunnelIp
  no_profile : profileOwnerOfIp s.conf.db ip = none
  free : ipFreeFor s i ip = true
  old : ∃ k, serverLeaseByIp s.leases ip = some k ∧
    serverLeaseMin s.conf ≤ s.now - (s.leases.at k).since

theorem poolCandidate_some {s : Server n} {i : Fin n} {ip : Ip} {oldest : Option ServerLease}
    (ho : ∀ l, oldest = some l → Givable s i l.ipBe) {l : ServerLease}
    (h : poolCandidate s i ip oldest = some l) : Givable s i l.ipBe := by
  unfold poolCandidate at h
  split at h
  · exact ho l h
  · rename_i k hk
    dsimp only at h
    split at h
    · rename_i hg
      cases h
      obtain ⟨hip, hat⟩ := serverLeaseByIp_some hk
      simp only [leaseGivable, Bool.and_eq_true, bne_iff_ne, Option.isNone_iff_eq_none,
        decide_eq_true_eq] at hg
      obtain ⟨⟨⟨⟨ht, hp⟩, hf⟩, hold⟩, -⟩ := hg
      rw [hat]
      exact ⟨hip, ht, hp, hf, k, hk, hold⟩
    · exact ho l h

theorem poolWalk_spec {s : Server n} {i : Fin n} (clientId : CStr) (hosts : List Ip)
    {oldest : Option ServerLease} (ho : ∀ l, oldest = some l → Givable s i l.ipBe) :
    match poolWalk s i clientId hosts oldest with
    | .found host => serverIpUsable s i host clientId = true
    | .exhausted oldest => ∀ l, oldest = some l → Givable s i l.ipBe := by
  induction hosts generalizing oldest with
  | nil => exact ho
  | cons host hosts ih =>
    unfold poolWalk
    by_cases h : serverIpUsable s i host clientId = true
    · rw [if_pos h]
      exact h
    · rw [if_neg h]
      exact ih fun l hl => poolCandidate_some ho hl

/-- **What the pool gives** is usable for the entry or the address of a lease past its time. -/
theorem serverAutoPoolTake_some {s : Server n} {i : Fin n} {pool : PoolCursor} {ip : Ip}
    (h : serverAutoPoolTake s i = (pool, some ip)) :
    serverIpUsable s i ip (s.clients i).clientId = true ∨ Givable s i ip := by
  unfold serverAutoPoolTake at h
  dsimp only at h
  split at h
  · cases h
  · have hw := @poolWalk_spec _ s i (s.clients i).clientId (poolHosts s.conf.db s.pool.next) none nofun
    split at h
    · rename_i host hwalk
      rw [hwalk] at hw
      cases h
      exact Or.inl hw
    · rename_i l hwalk
      rw [hwalk] at hw
      cases h
      exact Or.inr (hw l rfl)
    · cases h

/-- A walk that finds nothing has looked at every host; what it answers is one of them. -/
theorem poolWalk_exhausted {s : Server n} {i : Fin n} {clientId : CStr} {hosts : List Ip}
    {oldest o : Option ServerLease} (h : poolWalk s i clientId hosts oldest = .exhausted o) :
    (∀ host ∈ hosts, serverIpUsable s i host clientId = false) ∧
      ∀ l, o = some l → oldest = some l ∨ l.ipBe ∈ hosts := by
  induction hosts generalizing oldest with
  | nil =>
    cases h
    exact ⟨nofun, fun l hl => Or.inl hl⟩
  | cons host hosts ih =>
    unfold poolWalk at h
    split at h
    · cases h
    · rename_i husable
      obtain ⟨hnone, hl⟩ := ih h
      refine ⟨fun x hx => ?_, fun l hlo => ?_⟩
      · rcases List.mem_cons.mp hx with rfl | hx
        · simpa using husable
        · exact hnone x hx
      · rcases hl l hlo with hcand | hmem
        · unfold poolCandidate at hcand
          split at hcand
          · exact Or.inl hcand
          · rename_i k hk
            dsimp only at hcand
            split at hcand
            · cases hcand
              exact Or.inr (List.mem_cons.mpr (Or.inl (serverLeaseByIp_some hk).2))
            · exact Or.inl hcand
        · exact Or.inr (List.mem_cons_of_mem _ hmem)

/-- **A leased address is given only when the pool has no other**: the walk found no usable one. -/
theorem serverAutoPoolTake_leased {s : Server n} {i : Fin n} {pool : PoolCursor} {ip : Ip}
    (h : serverAutoPoolTake s i = (pool, some ip)) :
    serverIpUsable s i ip (s.clients i).clientId = true ∨
      Givable s i ip ∧ poolHas s.conf.db ip = true ∧
        ∀ host, poolHas s.conf.db host = true → serverIpUsable s i host (s.clients i).clientId = false := by
  rcases serverAutoPoolTake_some h with hu | hg
  · exact Or.inl hu
  · by_cases hu : serverIpUsable s i ip (s.clients i).clientId = true
    · exact Or.inl hu
    · refine Or.inr ⟨hg, ?_⟩
      unfold serverAutoPoolTake at h
      dsimp only at h
      split at h
      · cases h
      · split at h
        · rename_i host hwalk
          have hw := @poolWalk_spec _ s i (s.clients i).clientId (poolHosts s.conf.db s.pool.next) none nofun
          rw [hwalk] at hw
          cases h
          exact absurd hw hu
        · rename_i l hwalk
          cases h
          obtain ⟨hnone, hl⟩ := poolWalk_exhausted hwalk
          have hmem := (hl l rfl).resolve_left nofun
          exact ⟨(mem_poolHosts _).mp hmem, fun host hhost => hnone host ((mem_poolHosts _).mpr hhost)⟩
        · cases h

theorem ipFreeFor_of_usable {s : Server n} {i : Fin n} {ip : Ip} {clientId : CStr}
    (h : serverIpUsable s i ip clientId = true ∨ Givable s i ip) : ipFreeFor s i ip = true :=
  h.elim (fun h => (serverIpUsable_iff.mp h).2.2.2.1) Givable.free

end Camex
