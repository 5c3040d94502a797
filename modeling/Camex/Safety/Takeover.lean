import Camex.Concrete
import Camex.Server.InitEntry

/-!
# Whose live entry a handshake takes

`SameClient`: the handshake has the ID of the entry it lands on, and its key or one that is assigned
to that ID. Of the ways to a live entry only the one by the source of the INIT can miss this, and it
does when the entry there has another ID (`SourceIsSelf`): `noTakeover_iff`.
-/

namespace Camex

open Lib

variable {n : ℕ} {Hs : Type} {N : Noise Hs}

def SameClient (ks : Keystore) (c : ServerClient) (r : Register) : Prop :=
  strcaseeq c.clientId r.clientId = true ∧ (r.key = c.pskKey ∨ KeyAllowed ks r.key c.clientId)

/-- A live entry that is at the source of the INIT, and that the lookups lead to, has its ID. -/
def SourceIsSelf (s : Server n) (r : Register) (src : SockAddr) (fd : ℤ) : Prop :=
  ∀ i, serverFindByAddr s.clients src = some i → LeadsTo s r src fd i →
    (s.clients i).Live (serverClientTimeout s.conf) s.now →
    strcaseeq (s.clients i).clientId r.clientId = true

instance (ks : Keystore) (c : ServerClient) (r : Register) : Decidable (SameClient ks c r) := by
  unfold SameClient
  infer_instance

instance (s : Server n) (r : Register) (src : SockAddr) (fd : ℤ) :
    Decidable (SourceIsSelf s r src fd) := by
  unfold SourceIsSelf
  infer_instance

/-- What a key may be used for does not depend on the case of the ID. -/
theorem KeyAllowed.congr {ks : Keystore} {key : Key} {a b : CStr} (hab : strcaseeq a b = true)
    (h : KeyAllowed ks key a) : KeyAllowed ks key b := by
  have hnil : (a != []) = (b != []) := by
    rw [Bool.eq_iff_iff, bne_iff_ne, bne_iff_ne, ne_eq, ne_eq, not_iff_not]
    constructor
    · rintro rfl
      exact strcaseeq_nil.mp (strcaseeq_symm hab)
    · rintro rfl
      exact strcaseeq_nil.mp hab
  have hcase : ∀ e : KeystoreEntry, strcaseeq e.owner b = strcaseeq e.owner a := fun e =>
    (strcaseeq_congr_right hab e.owner).symm
  have hhas : configKsHasOwner ks b = configKsHasOwner ks a := by
    simp only [configKsHasOwner, hnil, hcase]
  have hown : configKsKeyOwnedBy ks key b = configKsKeyOwnedBy ks key a := by
    simp only [configKsKeyOwnedBy, hnil, hcase]
  unfold KeyAllowed at h ⊢
  rwa [hhas, hown]

section

variable {s : Server n} {r : Register} {src : SockAddr} {fd : ℤ} {j : Fin n}

/-- The register of an accepted handshake, with the way to its entry. -/
theorem serverHandleInit_accepted {env : PacketEnv} {pkt : Bytes} {reply : CStr} {packet : Bytes}
    (ho : (serverHandleInit N s env pkt src fd).2 = .accepted j false r reply packet) :
    Carries N s.conf pkt r ∧ LeadsTo s r src fd j := by
  have hfate := serverHandleInit_fate (N := N) s env pkt src fd j
  rw [ho] at hfate
  cases hfate with
  | alone _ hno => exact (hno _ _ _ _ rfl).elim
  | adopted _ _ _ _ _ _ _ _ _ _ hno => exact (hno _ _ _ _ rfl).elim
  | unused _ _ _ _ _ h => cases h
  | restored _ _ _ _ _ h => cases h
  | accepted r' hr _ ht m _ reply' h =>
    cases h
    exact ⟨hr, ht.leadsTo⟩

/-- **Takeover of a live client**: a handshake that is accepted on a live entry is its client's exactly
when the entry at its source is not another client's that it lands on. The entry of a slot whose client was
evicted for the handshake is new (`fresh`), not that client's. -/
theorem noTakeover_iff {env : PacketEnv} {pkt : Bytes} {reply : CStr} {packet : Bytes}
    (ho : (serverHandleInit N s env pkt src fd).2 = .accepted j false r reply packet)
    (hlive : (s.clients j).Live (serverClientTimeout s.conf) s.now) :
    SameClient s.conf.ks (s.clients j) r ↔ SourceIsSelf s r src fd := by
  obtain ⟨hr, hleads⟩ := serverHandleInit_accepted ho
  constructor
  · intro hsame i _ hi _
    rw [hleads.eq hi]
    exact hsame.1
  · intro hself
    have hid : strcaseeq (s.clients j).clientId r.clientId = true :=
      hleads.cases.elim id fun hsrc => hself j hsrc hleads hlive
    exact ⟨hid, Or.inr (hr.keyAllowed.congr (strcaseeq_symm hid))⟩

end

/-! ## Runs -/

/-- Is the INIT accepted on an entry that was live, and is it then its client's? -/
def takesLive (s : Server n) (o : InitOutcome n) (same : Bool) : Bool :=
  match o with
  | .accepted j false r _ _ =>
    decide ((s.clients j).Live (serverClientTimeout s.conf) s.now) &&
      (decide (SameClient s.conf.ks (s.clients j) r) == same)
  | _ => false

theorem takesLive_accepted {s : Server n} {o : InitOutcome n} {same : Bool}
    (h : takesLive s o same = true) : ∃ j r reply packet, o = .accepted j false r reply packet ∧
      (s.clients j).Live (serverClientTimeout s.conf) s.now ∧
      (SameClient s.conf.ks (s.clients j) r ↔ same = true) := by
  unfold takesLive at h
  split at h
  · rename_i j r reply packet
    simp only [Bool.and_eq_true, decide_eq_true_eq, beq_iff_eq] at h
    exact ⟨j, r, reply, packet, rfl, h.1, by rw [← h.2, decide_eq_true_iff]⟩
  · cases h

/-- The client renews its session from another port. -/
theorem noTakeover_iff_renewed : ∃ (s : Server 3) (j : Fin 3) (r : Register),
    (s.clients j).Live (serverClientTimeout s.conf) s.now ∧
      (SameClient s.conf.ks (s.clients j) r ↔ SourceIsSelf s r (toySource 1 1001) (-1)) := by
  obtain ⟨s, -, hp⟩ := Machine.runUnder_reachable (M := toyMachine 3) (C := fun _ _ => True)
    (l := liveClient)
    (p := fun s => takesLive s (serverHandleInit toyNoise s (toyEnv 2)
      (initPacket 65 2 "MODE=MANUAL CLIENT_ID=a LOCAL_IP=10.0.0.5") (toySource 1 1001) (-1)).2 true)
    (toyServer_started 3 .udp toyDb) (by decide +kernel)
  obtain ⟨j, r, reply, packet, ho, hlive, -⟩ := takesLive_accepted hp
  exact ⟨s, j, r, hlive, noTakeover_iff ho hlive⟩

/-- From the source of a live client and for its address, another one's key is enough. -/
theorem not_noTakeover : ¬ ∀ (s : Server 3), Machine.Reachable (toyMachine 3) s →
    ∀ env pkt src fd j r reply packet,
      (serverHandleInit toyNoise s env pkt src fd).2 = .accepted j false r reply packet →
      (s.clients j).Live (serverClientTimeout s.conf) s.now → SameClient s.conf.ks (s.clients j) r := by
  intro h
  obtain ⟨s, hs, hp⟩ := Machine.runUnder_reachable (M := toyMachine 3) (C := fun _ _ => True)
    (l := liveClient)
    (p := fun s => takesLive s (serverHandleInit toyNoise s (toyEnv 2)
      (initPacket 80 2 "MODE=MANUAL CLIENT_ID=p LOCAL_IP=10.0.0.5") (toySource 1 1000) (-1)).2 false)
    (toyServer_started 3 .udp toyDb) (by decide +kernel)
  obtain ⟨j, r, reply, packet, ho, hlive, hnot⟩ := takesLive_accepted hp
  exact absurd (hnot.mp (h s hs _ _ _ _ j r reply packet ho hlive)) (by decide)

end Camex
