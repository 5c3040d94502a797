import Camex.Concrete
import Camex.Server.Pool

/-!
# The walk of the pool is complete

* `FreeButLeased`: an address that only another ID's lease past its time keeps from an entry;
* `poolWalk_oldest`: a walk that finds no usable address has the oldest such lease;
* `poolTake_complete`: when an address is taken from the pool, and which one.
-/

namespace Camex

open Lib

variable {n : ℕ}

/-- A client address of the pool, free except for a lease (slot `k`) past its time. -/
structure LeasedAt (s : Server n) (i : Fin n) (ip : Ip) (k : ℕ) : Prop where
  has : poolHas s.conf.db ip = true
  ne_tunnel : ip ≠ s.conf.tunnelIp
  no_profile : profileOwnerOfIp s.conf.db ip = none
  free : ipFreeFor s i ip = true
  lease : serverLeaseByIp s.leases ip = some k
  other : serverLeaseAllows s.leases ip (s.clients i).clientId = false
  old : serverLeaseMin s.conf ≤ s.now - (s.leases.at k).since

/-- An address that only another ID's lease past its time keeps from an entry. -/
def FreeButLeased (s : Server n) (i : Fin n) (ip : Ip) : Prop := ∃ k, LeasedAt s i ip k

def PoolFoundFull (s : Server n) : Prop :=
  s.pool.fullAt = s.now ∧ s.pool.fullAt ≠ 0 ∧ s.pool.fullNet = s.conf.db.globals.poolNet ∧
    s.pool.fullPrefix = s.conf.db.globals.poolPrefix

/-- A lease of one of the hosts looked at that may be given away. -/
structure Candidate (s : Server n) (i : Fin n) (hosts : List Ip) (l : ServerLease) : Prop where
  mem : l.ipBe ∈ hosts
  lease : ∃ k, serverLeaseByIp s.leases l.ipBe = some k ∧ s.leases.at k = l
  givable : leaseGivable s i l.ipBe l = true

/-- The lease of the walk is a candidate, and no candidate is older. -/
structure Oldest (s : Server n) (i : Fin n) (hosts : List Ip) (oldest : Option ServerLease) : Prop where
  candidate : ∀ l, oldest = some l → Candidate s i hosts l
  oldest : ∀ l, Candidate s i hosts l → ∃ o, oldest = some o ∧ o.since ≤ l.since

theorem Oldest.nil (s : Server n) (i : Fin n) : Oldest s i [] none where
  candidate _ h := by cases h
  oldest l h := by cases h.mem

theorem Candidate.mono {s : Server n} {i : Fin n} {hosts hosts' : List Ip} {l : ServerLease}
    (h : Candidate s i hosts l) (hsub : hosts ⊆ hosts') : Candidate s i hosts' l := ⟨hsub h.mem, h.lease, h.givable⟩

theorem Oldest.snoc {s : Server n} {i : Fin n} {hosts : List Ip} {oldest : Option ServerLease}
    (h : Oldest s i hosts oldest) (host : Ip) : Oldest s i (hosts ++ [host]) (poolCandidate s i host oldest) := by
  have hsub : hosts ⊆ hosts ++ [host] := List.subset_append_left hosts [host]
  unfold poolCandidate
  cases hk : serverLeaseByIp s.leases host with
  | none =>
    refine ⟨fun l hl => (h.candidate l hl).mono hsub, fun l hl => h.oldest l ⟨?_, hl.lease, hl.givable⟩⟩
    rcases List.mem_append.mp hl.mem with hmem | hmem
    · exact hmem
    · obtain ⟨k, hlk, -⟩ := hl.lease
      rw [List.mem_singleton.mp hmem, hk] at hlk
      cases hlk
  | some k =>
    have hip := (serverLeaseByIp_some hk).2
    have hself : ∀ l, Candidate s i (hosts ++ [host]) l → Candidate s i hosts l ∨ l = s.leases.at k := by
      intro l hl
      rcases List.mem_append.mp hl.mem with hmem | hmem
      · exact Or.inl ⟨hmem, hl.lease, hl.givable⟩
      · obtain ⟨k', hlk, rfl⟩ := hl.lease
        rw [List.mem_singleton.mp hmem, hk] at hlk
        cases hlk
        exact Or.inr rfl
    dsimp only
    by_cases hgiv : leaseGivable s i host (s.leases.at k) = true
    · have hcand : Candidate s i (hosts ++ [host]) (s.leases.at k) := by
        refine ⟨?_, ⟨k, by rw [hip]; exact hk, rfl⟩, by rw [hip]; exact hgiv⟩
        rw [hip]
        exact List.mem_append_right hosts (List.mem_singleton_self host)
      by_cases hnew : oldest.all (fun o => decide ((s.leases.at k).since < o.since)) = true
      · rw [if_pos (by rw [hgiv, hnew]; rfl)]
        refine ⟨fun l hl => ?_, fun l hl => ?_⟩
        · cases hl
          exact hcand
        · rcases hself l hl with hold | rfl
          · obtain ⟨o, rfl, hle⟩ := h.oldest l hold
            have hlt : (s.leases.at k).since < o.since := by simpa using hnew
            exact ⟨_, rfl, hlt.le.trans hle⟩
          · exact ⟨_, rfl, le_rfl⟩
      · rw [if_neg (by rw [hgiv, Bool.true_and]; exact hnew)]
        refine ⟨fun l hl => (h.candidate l hl).mono hsub, fun l hl => ?_⟩
        rcases hself l hl with hold | rfl
        · exact h.oldest l hold
        · cases oldest with
          | none => exact absurd rfl hnew
          | some o =>
            have hle : o.since ≤ (s.leases.at k).since := by simpa using hnew
            exact ⟨o, rfl, hle⟩
    · rw [if_neg (by simp [hgiv])]
      refine ⟨fun l hl => (h.candidate l hl).mono hsub, fun l hl => ?_⟩
      rcases hself l hl with hold | rfl
      · exact h.oldest l hold
      · have hg := hl.givable
        rw [hip] at hg
        exact absurd hg hgiv

/-- **A walk that finds no usable host** has looked at all of them, and has the oldest lease. -/
theorem poolWalk_oldest {s : Server n} {i : Fin n} {clientId : CStr} (hosts : List Ip) {seen : List Ip}
    {oldest o : Option ServerLease} (hold : Oldest s i seen oldest)
    (hwalk : poolWalk s i clientId hosts oldest = .exhausted o) : Oldest s i (seen ++ hosts) o := by
  induction hosts generalizing seen oldest with
  | nil =>
    cases hwalk
    rwa [List.append_nil]
  | cons host hosts ih =>
    unfold poolWalk at hwalk
    split at hwalk
    · cases hwalk
    · have hrest := ih (hold.snoc host) hwalk
      rwa [List.append_assoc, List.singleton_append] at hrest

theorem poolWalk_found {s : Server n} {i : Fin n} {clientId : CStr} {hosts : List Ip} {oldest : Option ServerLease}
    {host : Ip} (hwalk : poolWalk s i clientId hosts oldest = .found host) :
    serverIpUsable s i host clientId = true := by
  induction hosts generalizing oldest with
  | nil => cases hwalk
  | cons h hosts ih =>
    unfold poolWalk at hwalk
    split at hwalk
    · cases hwalk
      assumption
    · exact ih hwalk

/-- With no usable address in the pool the candidates are the addresses that a lease of another ID keeps. -/
theorem candidate_iff {s : Server n} {i : Fin n} {next : Ip}
    (hnone : ∀ host, serverIpUsable s i host (s.clients i).clientId = false) {k : ℕ} {ip : Ip}
    (hk : serverLeaseByIp s.leases ip = some k) :
    Candidate s i (poolHosts s.conf.db next) (s.leases.at k) ↔ LeasedAt s i ip k := by
  have hip := (serverLeaseByIp_some hk).2
  constructor
  · rintro ⟨hmem, -, hgiv⟩
    rw [hip, mem_poolHosts] at hmem
    rw [hip] at hgiv
    simp only [leaseGivable, Bool.and_eq_true, bne_iff_ne, Option.isNone_iff_eq_none, decide_eq_true_eq] at hgiv
    obtain ⟨⟨⟨htunnel, hprofile⟩, hfree⟩, hold⟩ := hgiv
    refine ⟨hmem, htunnel, hprofile, hfree, hk, ?_, hold⟩
    -- all but the lease is as a usable address has it
    cases hallows : serverLeaseAllows s.leases ip (s.clients i).clientId with
    | false => rfl
    | true =>
      have husable := serverIpUsable_iff.mpr ⟨hmem, htunnel, hprofile, hfree, hallows⟩
      rw [hnone ip] at husable
      cases husable
  · intro h
    refine ⟨by rw [hip, mem_poolHosts]; exact h.has, ⟨k, by rw [hip]; exact hk, rfl⟩, ?_⟩
    rw [hip]
    simp only [leaseGivable, Bool.and_eq_true, bne_iff_ne, Option.isNone_iff_eq_none, decide_eq_true_eq]
    exact ⟨⟨⟨h.ne_tunnel, h.no_profile⟩, h.free⟩, h.old⟩

/-- The address that is taken. -/
structure PoolTaken (s : Server n) (i : Fin n) (ip : Ip) : Prop where
  has : poolHas s.conf.db ip = true
  which : serverIpUsable s i ip (s.clients i).clientId = true ∨
    (∀ host, serverIpUsable s i host (s.clients i).clientId = false) ∧
      ∃ k, LeasedAt s i ip k ∧ ∀ ip' k', LeasedAt s i ip' k' → (s.leases.at k).since ≤ (s.leases.at k').since

/-- What the walk comes to: a usable address, the one of the oldest lease, or none because there is none. -/
theorem serverAutoPoolTake_cases {s : Server n} (i : Fin n) (hfull : ¬ PoolFoundFull s) :
    (∃ pool ip, serverAutoPoolTake s i = (pool, some ip) ∧ PoolTaken s i ip) ∨
      ((serverAutoPoolTake s i).2 = none ∧ (∀ host, serverIpUsable s i host (s.clients i).clientId = false) ∧
        ∀ ip, ¬ FreeButLeased s i ip) := by
  unfold PoolFoundFull at hfull
  rw [serverAutoPoolTake, if_neg hfull]
  cases hwalk : poolWalk s i (s.clients i).clientId (poolHosts s.conf.db s.pool.next) none with
  | found host =>
    have husable := poolWalk_found hwalk
    exact Or.inl ⟨_, host, rfl, (serverIpUsable_iff.mp husable).1, Or.inl husable⟩
  | exhausted o =>
    have hold := poolWalk_oldest (poolHosts s.conf.db s.pool.next) (.nil s i) hwalk
    rw [List.nil_append] at hold
    have hnone : ∀ host, serverIpUsable s i host (s.clients i).clientId = false := by
      intro host
      cases husable : serverIpUsable s i host (s.clients i).clientId with
      | false => rfl
      | true =>
        have hmem : host ∈ poolHosts s.conf.db s.pool.next :=
          (mem_poolHosts s.conf.db).mpr (serverIpUsable_iff.mp husable).1
        rw [← husable, (poolWalk_exhausted hwalk).1 host hmem]
    cases o with
    | none =>
      refine Or.inr ⟨rfl, hnone, ?_⟩
      rintro ip ⟨k, hleased⟩
      obtain ⟨o, hno, -⟩ := hold.oldest _ ((candidate_iff hnone hleased.lease).mpr hleased)
      cases hno
    | some l =>
      have hcand := hold.candidate l rfl
      obtain ⟨k, hk, rfl⟩ := hcand.lease
      have hleased := (candidate_iff hnone hk).mp hcand
      refine Or.inl ⟨_, _, rfl, hleased.has, Or.inr ⟨hnone, k, hleased, fun ip' k' hleased' => ?_⟩⟩
      obtain ⟨o, ho, hle⟩ := hold.oldest _ ((candidate_iff hnone hleased'.lease).mpr hleased')
      cases ho
      exact hle

/-- **The pool's walk is complete**: an address is taken exactly when one is usable or kept by a lease past its time
only, a usable one if there is any; and from every cursor the walk looks at each client address of the pool once. -/
theorem poolTake_complete {s : Server n} (i : Fin n) (hfull : ¬ PoolFoundFull s) :
    ((serverAutoPoolTake s i).2.isSome = true ↔
        (∃ ip, serverIpUsable s i ip (s.clients i).clientId = true) ∨ ∃ ip, FreeButLeased s i ip) ∧
      (∀ pool ip, serverAutoPoolTake s i = (pool, some ip) → PoolTaken s i ip) ∧
      ∀ next, (poolHosts s.conf.db next).Nodup ∧ ∀ ip, ip ∈ poolHosts s.conf.db next ↔ poolHas s.conf.db ip = true := by
  refine ⟨?_, fun pool ip htake => ?_, fun next => ⟨poolHosts_nodup _ next, fun ip => mem_poolHosts _⟩⟩
  · rcases serverAutoPoolTake_cases i hfull with ⟨pool, ip, htake, -, hwhich⟩ | ⟨hnone, hunusable, hunleased⟩
    · rw [htake]
      refine ⟨fun _ => ?_, fun _ => rfl⟩
      rcases hwhich with husable | ⟨-, k, hleased, -⟩
      · exact Or.inl ⟨ip, husable⟩
      · exact Or.inr ⟨ip, k, hleased⟩
    · rw [hnone]
      refine ⟨(by rintro ⟨⟩), ?_⟩
      rintro (⟨ip, husable⟩ | ⟨ip, hleased⟩)
      · rw [hunusable ip] at husable
        cases husable
      · exact absurd hleased (hunleased ip)
  · rcases serverAutoPoolTake_cases i hfull with ⟨pool', ip', htake', htaken⟩ | ⟨hnone, -⟩
    · rw [htake] at htake'
      cases htake'
      exact htaken
    · rw [htake] at hnone
      cases hnone

/-- A pool of five addresses, with the cursor on the last but one. Two clients hold an address each; the others are leased
to clients that are gone, for different times. -/
def leasedPool : Server 3 :=
  let s := toyServer 3 .udp widePoolDb
  { s with
    clients := fun i => { ServerClient.wiped with
      active := true
      clientId := [ascii "c", ascii "d", ascii "e"].getD i []
      ipBe := [0, 0x0a000006#32, 0x0a000003#32].getD i 0 }
    now := 100000
    pool := { s.pool with next := 0x0a000005#32 }
    leases := { s.leases with
      slots := [⟨ascii "a", 0x0a000005#32, 300, false⟩, ⟨ascii "b", 0x0a000002#32, 100, false⟩,
        ⟨ascii "f", 0x0a000004#32, 99990, false⟩]
      used := 3 } }

/-- The walk passes the end of the pool and takes the address of the oldest lease. -/
theorem poolTake_complete_leased :
    poolHosts leasedPool.conf.db leasedPool.pool.next =
        [0x0a000005#32, 0x0a000006#32, 0x0a000002#32, 0x0a000003#32, 0x0a000004#32] ∧
      (serverAutoPoolTake leasedPool 0).2 = some 0x0a000002#32 ∧
      ∃ k, LeasedAt leasedPool 0 0x0a000002#32 k ∧ ∀ ip' k', LeasedAt leasedPool 0 ip' k' →
        (leasedPool.leases.at k).since ≤ (leasedPool.leases.at k').since := by
  have htake : serverAutoPoolTake leasedPool 0 = ((serverAutoPoolTake leasedPool 0).1, some 0x0a000002#32) := by
    decide +kernel
  refine ⟨by decide +kernel, by rw [htake], ?_⟩
  have htaken := (poolTake_complete 0 (by unfold PoolFoundFull; decide +kernel)).2.1 _ _ htake
  rcases htaken.which with husable | ⟨-, hleased⟩
  · exact absurd husable (by decide +kernel)
  · exact hleased

end Camex
