import Camex.ClientMoves
import Camex.Safety.Handshake
import Camex.Server.Confirm

/-!
# A client and its server

* `ClientTraced`: what the log of a client has of its handshakes and sessions; `client_traced`: every run keeps it;
* `handshake_agrees`: a RESP to the client's own INIT, opened, gives both sides the same keys;
* `peersLogged`: a client that knows the server's public key, the server, and a network that brings any bytes at any
  time, also those of other clients. The log has what both sides did, in the order they did it;
* `Ideal`: a log in which nobody forged a message.
-/

namespace Camex

open Lib Machine

variable {n : ℕ} {C : Crypto} {ctx : ClientCtx}

/-! ## The log of a client -/

variable (C) in
/-- A RESP opened by a handshake in state `hs`, with the session made. -/
inductive OpenedBy (hs : NoiseHs) (resp : Bytes) : SessionId → Prop
  | mk {payload : Bytes} {hs' : NoiseHs}
      (hread : succeeded (noiseReadMsg2 C.prims hs (resp.drop V2_RESP_HDR) (CAMEX_CONTROL_MAX - 1)) = some (payload, hs')) :
      OpenedBy hs resp ⟨v2ReadU32 resp 9, v2ReadU32 resp 5, (noiseSplit C.prims hs').1, (noiseSplit C.prims hs').2⟩

variable (C) in
/-- A RESP is opened by a handshake that sent its INIT; a packet is sealed on a session that a RESP made. -/
def ClientEntry (log : List ClientNote) : ClientNote → Prop
  | .opened x hs resp => OpenedBy C hs resp x ∧ ∃ packet, ClientNote.init x.localIndex hs packet ∈ log
  | .sealed x _ _ _ => ∃ hs resp, ClientNote.opened x hs resp ∈ log
  | .init _ _ _ | .taken _ _ _ => True

variable (C ctx) in
structure ClientTraced (s : ClientLoop) (log : List ClientNote) : Prop where
  built : ∀ index hs packet, ClientNote.init index hs packet ∈ log → InitBuilt C ctx index hs packet
  pending : s.netOpen = true → s.core.hsPending = true → ∃ packet, ClientNote.init s.core.hsIndex s.core.hs packet ∈ log
  made : ∀ x ∈ s.core.held, ∃ hs resp, ClientNote.opened x.ident hs resp ∈ log
  entries : Each (ClientEntry C) log

theorem mem_append_of_made {log : List ClientNote} {x : SessionId} (h : ∃ hs resp, ClientNote.opened x hs resp ∈ log)
    (more : List ClientNote) : ∃ hs resp, ClientNote.opened x hs resp ∈ log ++ more := by
  obtain ⟨hs, resp, h⟩ := h
  exact ⟨hs, resp, List.mem_append_left _ h⟩

/-- A move that sends no INIT and makes no session. -/
theorem ClientTraced.noted {s t : ClientLoop} {log : List ClientNote} {a : ClientNote} (h : ClientTraced C ctx s log)
    (ha : ∀ index hs packet, a ≠ .init index hs packet) (hentry : ClientEntry C log a)
    (hopen : t.netOpen = true → s.netOpen = true)
    (hcore : t.core = { s.core with cur := t.core.cur, prev := t.core.prev })
    (hheld : ∀ x ∈ t.core.held, ∃ y ∈ s.core.held, y.ident = x.ident) : ClientTraced C ctx t (log ++ [a]) := by
  refine ⟨fun index hs packet hmem => ?_, fun hnet hpending => ?_, fun x hx => ?_, each_concat.mpr ⟨h.entries, hentry⟩⟩
  · exact h.built index hs packet ((mem_concat.mp hmem).resolve_right fun heq => ha _ _ _ heq.symm)
  · rw [hcore] at hpending ⊢
    obtain ⟨packet, hmem⟩ := h.pending (hopen hnet) hpending
    exact ⟨packet, List.mem_append_left _ hmem⟩
  · obtain ⟨y, hy, heq⟩ := hheld x hx
    rw [← heq]
    exact mem_append_of_made (h.made y hy) _

theorem ClientMove.traced {s t : ClientLoop} {notes log : List ClientNote} (hmove : ClientMove C ctx s notes t)
    (h : ClientTraced C ctx s log) : ClientTraced C ctx t (log ++ notes) := by
  cases hmove with
  | kept hcore hopen =>
    rw [List.append_nil]
    exact ⟨h.built, fun hnet => by rw [hcore]; exact h.pending (hopen hnet), by rw [hcore]; exact h.made, h.entries⟩
  | spoiled hcore hdead =>
    rw [List.append_nil]
    refine ⟨h.built, fun hnet hpending => ?_, by rw [hcore]; exact h.made, h.entries⟩
    rw [hcore] at hpending
    rcases hdead with hdead | hdead
    · exact absurd (hnet.symm.trans hdead) (by decide)
    · exact absurd (hpending.symm.trans hdead) (by decide)
  | wiped hcore =>
    rw [List.append_nil]
    refine ⟨h.built, fun _ hpending => ?_, ?_, h.entries⟩
    · rw [hcore] at hpending
      cases hpending
    · rw [hcore]
      rintro x ⟨hv, rfl | rfl⟩ <;> cases hv
  | @init _ index hs packet hbuilt hcore =>
    refine ⟨fun index' hs' packet' hmem => ?_, fun _ _ => ?_, fun x hx => ?_, each_concat.mpr ⟨h.entries, trivial⟩⟩
    · rcases mem_concat.mp hmem with hmem | heq
      · exact h.built _ _ _ hmem
      · cases heq
        exact hbuilt
    · rw [hcore]
      exact ⟨packet, List.mem_append_right _ (List.mem_singleton_self _)⟩
    · rw [hcore] at hx
      exact mem_append_of_made (h.made x hx) _
  | @opened _ resp payload hs hopen hpending hindex hread hcore =>
    obtain ⟨packet, hinit⟩ := h.pending hopen hpending
    refine ⟨fun index' hs' packet' hmem => h.built _ _ _ ((mem_concat.mp hmem).resolve_right nofun), fun _ hp => ?_,
      fun x hx => ?_, each_concat.mpr ⟨h.entries, ?_, packet, ?_⟩⟩
    · rw [hcore] at hp
      cases hp
    · obtain ⟨hv, rfl | rfl⟩ := hx
      · exact ⟨_, _, List.mem_append_right _ (List.mem_singleton_self _)⟩
      · rw [hcore] at hv ⊢
        dsimp only at hv ⊢
        split at hv
        · rename_i hcur
          rw [if_pos hcur]
          exact mem_append_of_made (h.made _ ⟨hcur, Or.inl rfl⟩) _
        · cases hv
    · rw [hcore]
      have hopened := OpenedBy.mk hread
      rw [hindex] at hopened
      exact hopened
    · rw [hcore]
      exact hinit
  | @sealed _ cur plain packet size hseal hcore hopen =>
    obtain ⟨hvalid, hcur⟩ := sessionSeal_session C.noise hseal
    refine h.noted (fun _ _ _ heq => by cases heq) (h.made _ ⟨hvalid, Or.inl rfl⟩) hopen (by rw [hcore]) ?_
    rw [hcore]
    rintro x ⟨hv, rfl | rfl⟩
    · exact ⟨s.core.cur, ⟨hvalid, Or.inl rfl⟩, by rw [hcur]; rfl⟩
    · exact ⟨s.core.prev, ⟨hv, Or.inr rfl⟩, rfl⟩
  | @takenCur _ cur plain packet size htake hcore hopen =>
    obtain ⟨hvalid, hcur⟩ := sessionOpen_session C.noise htake
    refine h.noted (fun _ _ _ heq => by cases heq) trivial hopen (by rw [hcore]) ?_
    rw [hcore]
    rintro x ⟨hv, rfl | rfl⟩
    · exact ⟨s.core.cur, ⟨hvalid, Or.inl rfl⟩, by rw [hcur]; rfl⟩
    · exact ⟨s.core.prev, ⟨hv, Or.inr rfl⟩, rfl⟩
  | @takenPrev _ prev plain packet size htake hcore hopen =>
    obtain ⟨hvalid, hprev⟩ := sessionOpen_session C.noise htake
    refine h.noted (fun _ _ _ heq => by cases heq) trivial hopen (by rw [hcore]) ?_
    rw [hcore]
    rintro x ⟨hv, rfl | rfl⟩
    · exact ⟨s.core.cur, ⟨hv, Or.inl rfl⟩, rfl⟩
    · exact ⟨s.core.prev, ⟨hvalid, Or.inr rfl⟩, by rw [hprev]; rfl⟩

theorem client_traced {s : ClientLoop} {log : List ClientNote} (h : (clientLogged C ctx).Reachable (s, log)) :
    ClientTraced C ctx s log := by
  refine clientMoves_invariant (I := ClientTraced C ctx) (fun config now => ?_) (fun s log notes t hs hmove => hmove.traced hs) h
  refine ⟨fun _ _ _ hmem => absurd hmem List.not_mem_nil, fun _ hpending => ?_, ?_, trivial⟩
  · cases hpending
  · rintro x ⟨hv, rfl | rfl⟩ <;> cases hv

/-! ## Both sides of a handshake -/

section Messages

variable {P : NoisePrims} {i r hs : NoiseHs} {psk es seed : Key} {payload msg : Bytes} {size : ℕ}

theorem noiseWriteMsg1_some (hP : P.Lawful) (h : noiseWriteMsg1 P i psk seed payload size = (hs, some msg)) :
    i.initiator = true ∧ NOISE_MSG1_OVERHEAD + payload.length ≤ size ∧ P.x25519 seed i.sPub ≠ 0 ∧
      msg.length = NOISE_MSG1_OVERHEAD + payload.length := by
  have hkeys := mixEphemeral_sameKeys (P := P) (mixKeyAndHash P i (keyBytes psk)) seed
  have hpriv : (mixEphemeral P (mixKeyAndHash P i (keyBytes psk)) seed).ePriv = seed := hkeys.ePriv
  have hpub : (mixEphemeral P (mixKeyAndHash P i (keyBytes psk)) seed).sPub = i.sPub := hkeys.sPub
  unfold noiseWriteMsg1 at h
  split at h
  · cases h
  · rename_i hfits
    simp only [Bool.not_eq_true', not_or, Bool.not_eq_false, not_lt] at hfits
    dsimp only at h
    generalize mixEphemeral P (mixKeyAndHash P i (keyBytes psk)) seed = a at h hpriv hpub
    cases hdh : dh P a.ePriv a.sPub with
    | none =>
      rw [hdh] at h
      cases h
    | some shared =>
      rw [hdh] at h
      have hmsg := Option.some.inj (Prod.mk.inj h).2
      refine ⟨hfits.1, by omega, ?_, ?_⟩
      · unfold dh at hdh
        rw [hpriv, hpub] at hdh
        intro hzero
        rw [if_pos hzero] at hdh
        cases hdh
      · rw [← hmsg]
        exact message_length hP _ _ _

theorem noiseWriteMsg2_some (hP : P.Lawful) (h : noiseWriteMsg2 P r seed payload size = (hs, some msg)) :
    r.initiator = false ∧ NOISE_MSG2_OVERHEAD + payload.length ≤ size ∧ P.x25519 seed r.re ≠ 0 ∧
      msg.length = NOISE_MSG2_OVERHEAD + payload.length := by
  have hkeys := mixEphemeral_sameKeys (P := P) r seed
  have hpriv : (mixEphemeral P r seed).ePriv = seed := hkeys.ePriv
  have hre : (mixEphemeral P r seed).re = r.re := hkeys.re
  unfold noiseWriteMsg2 at h
  split at h
  · cases h
  · rename_i hfits
    simp only [not_or, Bool.not_eq_true, not_lt] at hfits
    dsimp only at h
    generalize mixEphemeral P r seed = a at h hpriv hre
    cases hdh : dh P a.ePriv a.re with
    | none =>
      rw [hdh] at h
      cases h
    | some shared =>
      rw [hdh] at h
      have hmsg := Option.some.inj (Prod.mk.inj h).2
      refine ⟨hfits.1, by omega, ?_, ?_⟩
      · unfold dh at hdh
        rw [hpriv, hre] at hdh
        intro hzero
        rw [if_pos hzero] at hdh
        cases hdh
      · rw [← hmsg]
        exact message_length hP _ _ _

theorem noiseReadMsg1_fits (h : (noiseReadMsg1 P r psk es msg size).2 = some payload) :
    msg.length ≤ NOISE_MSG1_OVERHEAD + size := by
  unfold noiseReadMsg1 readMsg1 at h
  by_contra hlong
  rw [if_pos (Or.inr (Or.inr (by omega)))] at h
  cases h

theorem noiseReadMsg2_fits (h : (noiseReadMsg2 P i msg size).2 = some payload) :
    msg.length ≤ NOISE_MSG2_OVERHEAD + size := by
  unfold noiseReadMsg2 readMsg2 at h
  by_contra hlong
  rw [if_pos (Or.inr (Or.inr (by omega)))] at h
  cases h

theorem succeeded_some {x : NoiseHs × Option Bytes} (h : succeeded x = some (payload, hs)) : x = (hs, some payload) := by
  obtain ⟨t, p⟩ := x
  cases p with
  | none => cases h
  | some p =>
    cases h
    rfl

variable {i' r' : NoiseHs} {payload' : Bytes} {size' : ℕ}

theorem message1_sides (hP : P.Lawful) (ht : SameTranscript i r) (hr : r.initiator = false)
    (hpub : i.sPub = P.publicKey r.sPriv) (hwrite : noiseWriteMsg1 P i psk seed payload size = (i', some msg))
    (hes : noiseMsg1Es P r msg = some es) (hread : noiseReadMsg1 P r psk es msg size' = (r', some payload')) :
    SameTranscript i' r' ∧ (i'.ePriv = seed ∧ i'.initiator = true) ∧ r'.re = P.publicKey seed ∧ r'.initiator = false ∧
      payload' = payload := by
  obtain ⟨hi, hfit, hdh, hlen⟩ := noiseWriteMsg1_some hP hwrite
  have hsize : payload.length ≤ size' := by
    have hfits := noiseReadMsg1_fits (congrArg Prod.snd hread)
    omega
  obtain ⟨i₁, msg₁, es₁, r₁, hwrite₁, hes₁, hread₁, hsame, hi₁, hre, hr₁⟩ :=
    message1_agrees hP ht hi hr hpub psk seed hdh hfit hsize
  cases hwrite.symm.trans hwrite₁
  cases hes.symm.trans hes₁
  cases hread.symm.trans hread₁
  exact ⟨hsame, hi₁, hre, hr₁, rfl⟩

/-- A message 2 that the initiator read as it was written. -/
theorem message2_sides (hP : P.Lawful) (ht : SameTranscript i r) (hi : i.initiator = true)
    (hre : r.re = P.publicKey i.ePriv) (hwrite : noiseWriteMsg2 P r seed payload size = (r', some msg))
    (hread : noiseReadMsg2 P i msg size' = (i', some payload')) :
    noiseSplit P i' = noiseSplit P r' ∧ payload' = payload := by
  obtain ⟨hr, hfit, hdh, hlen⟩ := noiseWriteMsg2_some hP hwrite
  have hsize : payload.length ≤ size' := by
    have hfits := noiseReadMsg2_fits (congrArg Prod.snd hread)
    omega
  obtain ⟨r₁, msg₁, i₁, hwrite₁, hread₁, hsame⟩ := message2_agrees hP ht hi hr hre seed hdh hfit hsize
  cases hwrite.symm.trans hwrite₁
  cases hread.symm.trans hread₁
  refine ⟨?_, rfl⟩
  unfold noiseSplit
  rw [hsame.ck]

end Messages

theorem crypto_lawful (hdh : ∀ a b, C.x25519 a (C.publicKey b) = C.x25519 b (C.publicKey a)) : C.prims.Lawful where
  decrypt_encrypt key n ad plain := C.aeadRead_aeadWrite key n ad plain
  length_encrypt key n ad plain := C.aeadWrite_length key n ad plain
  dh_comm := hdh

/-- Message 1 stands between the header of an INIT and its mac. -/
theorem initMessage1_built (index : BitVec 32) (msg : Bytes) (mac : Tag) :
    initMessage1 (CAMEX_MAGIC ++ V2_TYPE_INIT :: (v2WriteU32 index ++ msg) ++ mac.val) = msg := by
  have hmac : mac.val.length = V2_MAC_LEN := mac.property
  have hhdr : (CAMEX_MAGIC ++ V2_TYPE_INIT :: v2WriteU32 index).length = V2_INIT_HDR := rfl
  unfold initMessage1
  rw [List.length_append, hmac, Nat.add_sub_cancel, List.take_left]
  rw [show CAMEX_MAGIC ++ V2_TYPE_INIT :: (v2WriteU32 index ++ msg) =
    CAMEX_MAGIC ++ V2_TYPE_INIT :: v2WriteU32 index ++ msg from (List.append_assoc _ (V2_TYPE_INIT :: v2WriteU32 index) _).symm]
  exact List.drop_left' hhdr

/-- The server's index and the client's in a RESP. -/
theorem resp_indexes (index remote : BitVec 32) (msg : Bytes) :
    v2ReadU32 (CAMEX_MAGIC ++ V2_TYPE_RESP :: (v2WriteU32 index ++ v2WriteU32 remote ++ msg)) 5 = index ∧
      v2ReadU32 (CAMEX_MAGIC ++ V2_TYPE_RESP :: (v2WriteU32 index ++ v2WriteU32 remote ++ msg)) 9 = remote := by
  refine ⟨?_, ?_⟩
  · rw [show CAMEX_MAGIC ++ V2_TYPE_RESP :: (v2WriteU32 index ++ v2WriteU32 remote ++ msg) =
      CAMEX_MAGIC ++ [V2_TYPE_RESP] ++ (v2WriteU32 index ++ (v2WriteU32 remote ++ msg)) by simp]
    exact v2ReadU32_writeU32 index _ _ rfl
  · rw [show CAMEX_MAGIC ++ V2_TYPE_RESP :: (v2WriteU32 index ++ v2WriteU32 remote ++ msg) =
      CAMEX_MAGIC ++ V2_TYPE_RESP :: v2WriteU32 index ++ (v2WriteU32 remote ++ msg) by simp]
    exact v2ReadU32_writeU32 remote _ _ rfl

theorem resp_drop (index remote : BitVec 32) (msg : Bytes) :
    (CAMEX_MAGIC ++ V2_TYPE_RESP :: (v2WriteU32 index ++ v2WriteU32 remote ++ msg)).drop V2_RESP_HDR = msg := rfl

/-- **Both sides agree** on a message 1 that is read with the PSK it was written with, and on the message 2 written
behind it: the sessions have each other's keys, and each other's indexes where the RESP came as it was. -/
theorem handshake_agrees (hdh : ∀ a b, C.x25519 a (C.publicKey b) = C.x25519 b (C.publicKey a)) {priv : Key}
    (hpub : C.publicKey priv = ctx.serverPub) {index : BitVec 32} {hs : NoiseHs} {packet init resp resp' : Bytes}
    {x y : SessionId} (hbuilt : InitBuilt C ctx index hs packet)
    (hresp : Response C.noise (noiseInitResponder C.prims CAMEX_NOISE_PROLOGUE priv ctx.serverPub) ctx.pskKey init y resp')
    (hopened : OpenedBy C hs resp x) (hmsg1 : initMessage1 init = initMessage1 packet)
    (hmsg2 : resp.drop V2_RESP_HDR = resp'.drop V2_RESP_HDR) :
    x.kSend = y.kRecv ∧ x.kRecv = y.kSend ∧
      (resp = resp' → x.remoteIndex = y.localIndex ∧ x.localIndex = y.remoteIndex) := by
  have hP := crypto_lawful hdh
  obtain ⟨-, seed, payload, msg1, hwrite1, rfl⟩ := hbuilt
  rw [initMessage1_built] at hmsg1
  cases hresp with
  | @mk es seed' payload' reply msg2 r r' index' hes hread1 hwrite2 =>
    cases hopened with
    | @mk payload2 hs' hread2 =>
      rw [hmsg1] at hes hread1
      rw [hmsg2, resp_drop] at hread2
      obtain ⟨hsame, ⟨hseed, hi⟩, hre, -, -⟩ :=
        message1_sides hP (init_sameTranscript CAMEX_NOISE_PROLOGUE priv ctx.serverPub) rfl hpub.symm hwrite1 hes
          (succeeded_some hread1)
      obtain ⟨hsplit, -⟩ := message2_sides hP hsame hi (by rw [hre, hseed]) (succeeded_some hwrite2) (succeeded_some hread2)
      refine ⟨congrArg Prod.fst hsplit, congrArg Prod.snd hsplit, fun hresp => ?_⟩
      rw [hresp]
      exact resp_indexes index' (initClientIndex init) msg2

/-! ## Both sides together -/

abbrev PeersNote (n : ℕ) := ClientNote ⊕ ServerNote n

/-- A client that has the public key of the server, and the server, with what anyone sends to either of them. -/
def peersMachine (C : Crypto) (ctx : ClientCtx) (n : ℕ) : Machine (ClientLoop × Server n) (ClientEvent ⊕ Event n) :=
  (clientLoopMachine C ctx).interleave (serverMachine C.noise n) fun _ s =>
    s.conf.ctx.serverPub = ctx.serverPub ∧ C.publicKey s.conf.ctx.serverPriv = ctx.serverPub

abbrev peersLogged (C : Crypto) (ctx : ClientCtx) (n : ℕ) :
    Machine ((ClientLoop × Server n) × List (PeersNote n)) (ClientEvent ⊕ Event n) :=
  (peersMachine C ctx n).logged (outBoth (clientNotes C ctx) (serverNotes C.noise))

section

variable {c : ClientLoop} {s : Server n} {log : List (PeersNote n)}

/-- The responder starts every handshake with the private key to the client's public one. -/
theorem peers_base (h : (peersLogged C ctx n).Reachable ((c, s), log)) : ∃ priv, C.publicKey priv = ctx.serverPub ∧
    initBase C.noise s.conf.ctx = noiseInitResponder C.prims CAMEX_NOISE_PROLOGUE priv ctx.serverPub := by
  refine h.unlogged.invariant (I := fun x : ClientLoop × Server n => ∃ priv, C.publicKey priv = ctx.serverPub ∧
    initBase C.noise x.2.conf.ctx = noiseInitResponder C.prims CAMEX_NOISE_PROLOGUE priv ctx.serverPub) ?_ ?_
  · rintro ⟨c, s⟩ ⟨-, -, hpub, hpriv⟩
    refine ⟨s.conf.ctx.serverPriv, hpriv, ?_⟩
    rw [← hpub]
    rfl
  · rintro ⟨c, s⟩ e ⟨c', s'⟩ hx _ hstep
    cases e with
    | inl e =>
      obtain ⟨-, rfl⟩ := interleave_inl hstep
      exact hx
    | inr e =>
      obtain ⟨hnext, -⟩ := interleave_inr hstep
      dsimp only at hnext hx ⊢
      rw [serverMachine_next hnext, (serverStep_case C.noise s e).initBase]
      exact hx

end

/-! ## Nobody forges -/

/-- A packet sealed: its key, the packet and what is in it. -/
def SessionNote.sent : SessionNote → Option (Key × Bytes × Bytes)
  | .sealed x _ plain packet => some (x.kSend, packet, plain)
  | _ => none

def SessionNote.received : SessionNote → Option (Key × Bytes × Bytes)
  | .taken x packet plain => some (x.kRecv, packet, plain)
  | _ => none

def Sealed (log : List SessionNote) (key : Key) (packet : Bytes) : Prop :=
  ∃ p ∈ log.filterMap SessionNote.sent, p.1 = key ∧ p.2.1 = packet

instance (log : List SessionNote) (key : Key) (packet : Bytes) : Decidable (Sealed log key packet) :=
  inferInstanceAs (Decidable (∃ p ∈ log.filterMap SessionNote.sent, p.1 = key ∧ p.2.1 = packet))

/-- An INIT sent: the index, the state behind message 1, and message 1. -/
def ClientNote.began : ClientNote → Option (BitVec 32 × NoiseHs × Bytes)
  | .init index hs packet => some (index, hs, initMessage1 packet)
  | _ => none

/-- A RESP sent: the PSK, message 1, the session and message 2. -/
structure Reply where
  key : Key
  message1 : Bytes
  session : SessionId
  message2 : Bytes

def ServerNote.reply : ServerNote n → Option Reply
  | .answered _ _ key init y resp => some ⟨key, initMessage1 init, y, resp.drop V2_RESP_HDR⟩
  | _ => none

section

variable (log : List (PeersNote n))

/-- What the client did with its sessions, and what the server did. -/
def clientSide : List SessionNote := (lefts log).filterMap ClientNote.note
def serverSide : List SessionNote := (rights log).map ServerNote.note

/-- The server read this message 1 with this key and wrote this message 2. -/
def Replied (key : Key) (msg reply : Bytes) : Prop :=
  ∃ r ∈ (rights log).filterMap ServerNote.reply, r.key = key ∧ r.message1 = msg ∧ r.message2 = reply

/-- A session that the server made of a message 1 of the client. -/
def MadeForClient (y : SessionId) : Prop :=
  ∃ r ∈ (rights log).filterMap ServerNote.reply, r.session = y ∧
    ∃ b ∈ (lefts log).filterMap ClientNote.began, b.2.2 = r.message1

instance (key : Key) (msg reply : Bytes) : Decidable (Replied log key msg reply) :=
  inferInstanceAs (Decidable (∃ r ∈ (rights log).filterMap ServerNote.reply, _))

instance (y : SessionId) : Decidable (MadeForClient log y) :=
  inferInstanceAs (Decidable (∃ r ∈ (rights log).filterMap ServerNote.reply, r.session = y ∧
    ∃ b ∈ (lefts log).filterMap ClientNote.began, b.2.2 = r.message1))

variable (ctx) in
/-- What a side opens with a key that only the other side has, that one sealed before; and a message 2 is sealed
behind its message 1 and the PSK. -/
def Genuine (before : List (PeersNote n)) : PeersNote n → Prop
  | .inl (.opened x hs resp) => ∀ b ∈ (lefts before).filterMap ClientNote.began, b.1 = x.localIndex → b.2.1 = hs →
      Replied before ctx.pskKey b.2.2 (resp.drop V2_RESP_HDR)
  | .inl (.taken x packet _) => Sealed (serverSide before) x.kRecv packet
  | .inr (.taken _ _ y packet _) => MadeForClient log y → Sealed (clientSide before) y.kRecv packet
  | _ => True

variable (ctx) in
/-- A log in which nobody forged a message. -/
def Ideal : Prop := Each (Genuine ctx log) log

instance decidableGenuine (before : List (PeersNote n)) : ∀ a, Decidable (Genuine ctx log before a)
  | .inl (.opened x hs resp) =>
    inferInstanceAs (Decidable (∀ b ∈ (lefts before).filterMap ClientNote.began, b.1 = x.localIndex → b.2.1 = hs →
      Replied before ctx.pskKey b.2.2 (resp.drop V2_RESP_HDR)))
  | .inl (.taken x packet _) => inferInstanceAs (Decidable (Sealed (serverSide before) x.kRecv packet))
  | .inr (.taken _ _ y packet _) =>
    inferInstanceAs (Decidable (MadeForClient log y → Sealed (clientSide before) y.kRecv packet))
  | .inl (.init _ _ _) | .inl (.sealed _ _ _ _) => isTrue trivial
  | .inr (.answered _ _ _ _ _ _) | .inr (.sealed _ _ _ _ _) => isTrue trivial

instance : Decidable (Ideal ctx log) := inferInstanceAs (Decidable (Each (Genuine ctx log) log))

end

end Camex
