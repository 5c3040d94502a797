import Camex.Concrete
import Camex.Server.DescriptorSteps

/-!
# TCP slots

`TcpSlots`: every open connection is the one of one active entry, no active entry is on a closed one, and the
limits for connections before their handshake hold. `Timely`: none of these was accepted too long ago. A run of a
TCP server closes no descriptor twice, keeps `TcpSlots`, and has `Timely` behind every expiry pass
(`tcpSlots_run`), when a handshake adopts connections for registered entries only (`AdoptsRegistered`).
-/

namespace Camex

open Lib

variable {n : ℕ} {Hs : Type} {N : Noise Hs}

def connOf (conns : List Conn) (fd : ℤ) : Option Conn := conns.find? fun k => k.fd == fd

structure TcpSlots (s : Server n) (conns : List Conn) : Prop where
  held : ∀ k ∈ conns, ∃! i, (s.clients i).active = true ∧ (s.clients i).tcpFd = k.fd
  opened : ∀ i, (s.clients i).active = true → 0 ≤ (s.clients i).tcpFd →
    (s.clients i).tcpFd ∈ conns.map Conn.fd
  total : (preauthSlots s.clients).length ≤ preauthMax n
  perSource : ∀ ip, ((preauthSlots s.clients).filter fun i =>
    (connOf conns (s.clients i).tcpFd).any fun k => k.peer.ip == ip).length ≤ CAMEX_TCP_PREAUTH_PER_IP

/-- No connection before its handshake was accepted too long ago. -/
def Timely (s : Server n) (conns : List Conn) : Prop :=
  ∀ i ∈ preauthSlots s.clients, ∀ k ∈ connOf conns (s.clients i).tcpFd, s.now - k.since ≤ CAMEX_TCP_PREAUTH_TIMEOUT

instance (s : Server n) (conns : List Conn) : Decidable (Timely s conns) := by
  unfold Timely
  infer_instance

variable (N) in
/-- What holds in a state with these open connections, and behind an expiry pass that runs its checks then. -/
def TcpKept (s : Server n) (conns : List Conn) : Prop :=
  TcpSlots s conns ∧ ∀ grow, s.now ≠ s.lastExpireCheck →
    ∃ conns', ledgerStep N s (.expire grow) conns = some conns' ∧ Timely (serverStep N s (.expire grow)).1 conns'

/-! ## From the invariant -/

section Invariant

variable {s : Server n} {conns : List Conn}

theorem connOf_mem {k : Conn} (hdistinct : (conns.map Conn.fd).Nodup) (hk : k ∈ conns) :
    connOf conns k.fd = some k := by
  unfold connOf
  cases hfind : conns.find? fun k' => k'.fd == k.fd with
  | none =>
    have := List.find?_eq_none.mp hfind k hk
    simp at this
  | some k' =>
    have heq : k'.fd = k.fd := by simpa using List.find?_some hfind
    rw [List.inj_on_of_nodup_map hdistinct (List.mem_of_find?_eq_some hfind) hk heq]

theorem Slots.connOf (h : Slots True s conns) {i : Fin n} (hi : i ∈ preauthSlots s.clients) :
    connOf conns (s.clients i).tcpFd = some ⟨(s.clients i).tcpFd, (s.clients i).addr, (s.clients i).connectedAt⟩ := by
  rw [preauthSlots_eq, mem_slotsWith, Bool.and_eq_true] at hi
  exact connOf_mem h.distinct (h.preauth trivial i hi.1 hi.2)

theorem Slots.tcpSlots (h : Slots True s conns) (hlimits : Limits s) : TcpSlots s conns where
  held k hk := by
    obtain ⟨i, hactive, hi⟩ := h.held k hk
    refine ⟨i, ⟨hactive, hi⟩, fun j hj => ?_⟩
    exact h.one i j hactive hj.1 (hi ▸ h.fd k hk) (hj.2.trans hi.symm)
  opened i hactive hi := h.tcpFd_mem hactive hi
  total := hlimits.total
  perSource ip := by
    have heq : ((preauthSlots s.clients).filter fun i =>
        (Camex.connOf conns (s.clients i).tcpFd).any fun k => k.peer.ip == ip) =
        (preauthSlots s.clients).filter fun i => (s.clients i).addr.ip == ip := by
      refine List.filter_congr fun i hi => ?_
      rw [h.connOf hi]
      rfl
    rw [heq]
    exact hlimits.perIp ip

/-- Behind a pass that runs its checks no entry is past its time for the handshake. -/
theorem serverExpireClients_timely (grow : Fin n → Grow) (hruns : s.now ≠ s.lastExpireCheck) (i : Fin n)
    (hactive : ((serverExpireClients grow s).clients i).active = true)
    (hpre : ((serverExpireClients grow s).clients i).preauth = true) :
    s.now - ((serverExpireClients grow s).clients i).connectedAt ≤ CAMEX_TCP_PREAUTH_TIMEOUT := by
  unfold serverExpireClients at hactive hpre ⊢
  rw [if_neg hruns] at hactive hpre ⊢
  revert hactive hpre
  refine forSlots_entry (serverExpireClient_slotWise grow)
    (R := fun _ c => c.active = true → c.preauth = true → s.now - c.connectedAt ≤ CAMEX_TCP_PREAUTH_TIMEOUT)
    (s := { s with lastExpireCheck := s.now }) i fun t _ hnow hi hactive hpre => ?_
  unfold serverExpireClient at hactive hpre ⊢
  dsimp only at hactive hpre hnow ⊢
  split at hactive
  · rename_i hinactive
    rw [hactive] at hinactive
    cases hinactive
  · rename_i hi'
    rw [if_neg hi'] at hpre ⊢
    split at hactive
    · rw [serverEndClient_self] at hactive
      cases hactive
    · rename_i hnot
      rw [if_neg hnot, Server.setClient_self] at hpre ⊢
      have hsame := expireSessions_sameConn (K := True) (t.clients i) t.now
      obtain ⟨hpre₀, -, hsince⟩ := hsame.preauth trivial (by simpa using hi') hpre
      simp only [Server.setClient_now, expired, hpre₀, if_true] at hnot
      rw [hsince, ← hnow]
      exact not_lt.mp fun hlate => hnot (decide_eq_true hlate)

theorem serverExpireClients_now (grow : Fin n → Grow) (s : Server n) : (serverExpireClients grow s).now = s.now := by
  unfold serverExpireClients
  split
  · rfl
  · exact forSlots_now (serverExpireClient_slotWise grow) _

end Invariant

/-! ## Runs -/

/-- **TCP slots**, along every run of a TCP server. -/
theorem tcpSlots_run {s₀ s : Server n} {es : List (Event n)} (hs₀ : Started N s₀)
    (htcp : s₀.conf.cfg.transport = .tcp)
    (hrun : Machine.Steps (serverMachine N n) (OnInit N AdoptsRegistered) s₀ es s) :
    ∃ conns, ledger N s₀ es [] = some conns ∧ TcpKept N s conns := by
  obtain ⟨conns, hledger, h⟩ := (Ledgered.start (K := True) hs₀ htcp).run (fun _ _ _ hC => hC) hrun
  refine ⟨conns, hledger, h.slots.tcpSlots (h.limits trivial), fun grow hruns => ?_⟩
  obtain ⟨conns', hclose, hslots', -⟩ := ledgerStep_slots (N := N) (e := .expire grow) h.slots h.tcp
    (fun i => sound_reachable h.reachable i) trivial fun _ _ hcall => by cases hcall
  refine ⟨conns', hclose, fun i hi k hk => ?_⟩
  rw [hslots'.connOf hi] at hk
  cases hk
  rw [preauthSlots_eq, mem_slotsWith, Bool.and_eq_true] at hi
  have := serverExpireClients_timely grow hruns i hi.1 hi.2
  rwa [← serverExpireClients_now grow s] at this

/-! ## Runs of a TCP server -/

/-- A connection whose peer sends these frames. -/
def tcpAccept {n : ℕ} (fd : ℤ) (src : SockAddr) (frames : List Bytes) : Event n :=
  .accept fd src (streamBytes frames) true

def tcpRead {n : ℕ} (fd : ℤ) (env : PacketEnv) : Event n :=
  .readable fd (fun _ => 0) [.bytes 2, .bytes RECV_MAX] env

/-- A client that registers on its connection, and one whose handshake fails. -/
def toyTcpRun : List (Event 4) :=
  [tcpAccept 7 (toySource 1 1000) [initPacket 65 1 "MODE=AUTO CLIENT_ID=a"], tcpRead 7 (toyEnv 1),
    tcpAccept 8 (toySource 2 1000) [initPacket 65 2 "MODE=AUTO CLIENT_ID=b"],
    tcpRead 8 { toyEnv 2 with sent := false }, .tick 108]

theorem tcpSlots_run_two : ∃ (s : Server 4) (conns : List Conn),
    conns.map Conn.fd = [8, 7] ∧ TcpKept toyNoise s conns := by
  have hp : ((toyMachine 4).runUnder (OnInit toyNoise AdoptsRegistered) (toyServer 4 .tcp toyDb) toyTcpRun).any
      (fun _ => (ledger toyNoise (toyServer 4 .tcp toyDb) toyTcpRun []).map (·.map Conn.fd) == some [8, 7]) =
      true := by decide +kernel
  obtain ⟨s, hs, hfds⟩ := (Option.any_eq_true _ _).mp hp
  obtain ⟨conns, hledger, hkept⟩ :=
    tcpSlots_run (toyServer_started 4 .tcp toyDb) rfl (Machine.runUnder_steps hs)
  rw [hledger, beq_iff_eq] at hfds
  exact ⟨s, conns, Option.some.inj hfds, hkept⟩

/-- A failed handshake leaves its ID on the entry of its connection; an older connection that sends one with this
ID moves there, and waits longer than it may. -/
theorem not_tcpSlots_run : ¬ ∀ (s₀ s : Server 4) (es : List (Event 4)), Started toyNoise s₀ →
    s₀.conf.cfg.transport = .tcp → Machine.Steps (toyMachine 4) (fun _ _ => True) s₀ es s →
    ∃ conns, ledger toyNoise s₀ es [] = some conns ∧ TcpKept toyNoise s conns := by
  intro h
  let es : List (Event 4) :=
    [tcpAccept 7 (toySource 1 1000) [initPacket 65 2 "MODE=AUTO CLIENT_ID=a"], .tick 108,
      tcpAccept 8 (toySource 2 1000) [initPacket 65 1 "MODE=AUTO CLIENT_ID=a"],
      tcpRead 8 { toyEnv 1 with sent := false }, tcpRead 7 { toyEnv 2 with sent := false }, .tick 111]
  have hp : ((toyMachine 4).runUnder (fun _ _ => True) (toyServer 4 .tcp toyDb) es).any (fun s =>
      (ledger toyNoise (toyServer 4 .tcp toyDb) es []).any fun conns =>
        decide (s.now ≠ s.lastExpireCheck) &&
          (ledgerStep toyNoise s (.expire fun _ _ => true) conns).any fun conns' =>
            !decide (Timely (serverStep toyNoise s (.expire fun _ _ => true)).1 conns')) = true := by
    decide +kernel
  obtain ⟨s, hs, hlate⟩ := (Option.any_eq_true _ _).mp hp
  obtain ⟨conns, hledger, -, hkept⟩ := h (toyServer 4 .tcp toyDb) s es (toyServer_started 4 .tcp toyDb) rfl
    (Machine.runUnder_steps hs)
  rw [hledger, Option.any_some, Bool.and_eq_true, decide_eq_true_eq] at hlate
  obtain ⟨conns', hstep, htimely⟩ := hkept (fun _ _ => true) hlate.1
  rw [hstep, Option.any_some, decide_eq_true htimely] at hlate
  exact absurd hlate.2 (by decide)

end Camex
