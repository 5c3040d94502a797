import Camex.ClientLoop

/-!
# The client's steps as moves

`ClientMove` is what the client can do with its handshake and its sessions: send an INIT, spoil or wipe the
handshake, make a session of a RESP, seal a packet, take one. `clientStep_moves`: a step is a sequence of moves whose
notes are those of the step. What holds of every run is shown for one move at a time (`clientMoves_invariant`).
-/

namespace Camex

open Lib

variable {C : Crypto} {ctx : ClientCtx}

/-- The handshake and the sessions. -/
structure ClientCore where
  hs : NoiseHs
  hsPending : Bool
  hsIndex : BitVec 32
  cur : Session
  prev : Session

def Client.core (c : Client) : ClientCore := ⟨c.hs, c.hsPending, c.hsIndex, c.cur, c.prev⟩

def ClientLoop.core (s : ClientLoop) : ClientCore := s.client.core

def ClientCore.held (c : ClientCore) : Set Session := { x | x.valid = true ∧ (x = c.cur ∨ x = c.prev) }

variable (C ctx) in
/-- An INIT as `client_send_init` builds it, and the state behind message 1. -/
structure InitBuilt (index : BitVec 32) (hs : NoiseHs) (packet : Bytes) : Prop where
  nonzero : index ≠ 0
  built : ∃ seed payload msg,
    noiseWriteMsg1 C.prims (noiseInitInitiator C.prims CAMEX_NOISE_PROLOGUE ctx.serverPub) ctx.pskKey seed payload
      (NOISE_MSG1_OVERHEAD + (V2_TIMESTAMP_LEN + CAMEX_CONTROL_MAX)) = (hs, some msg) ∧
    packet = CAMEX_MAGIC ++ V2_TYPE_INIT :: (v2WriteU32 index ++ msg) ++
      (C.mac1 ctx.serverPub (CAMEX_MAGIC ++ V2_TYPE_INIT :: (v2WriteU32 index ++ msg))).val

variable (C ctx) in
/-- One move, with its notes. A socket that opens comes with an INIT or without sessions. -/
inductive ClientMove (s : ClientLoop) : List ClientNote → ClientLoop → Prop
  | kept {t : ClientLoop} (hcore : t.core = s.core) (hopen : t.netOpen = true → s.netOpen = true) : ClientMove s [] t
  /-- A handshake given up in the middle: it is not pending, or the socket is closed. -/
  | spoiled {t : ClientLoop} {hs : NoiseHs} {index : BitVec 32}
      (hcore : t.core = { s.core with hs := hs, hsIndex := index })
      (hdead : t.netOpen = false ∨ s.core.hsPending = false) : ClientMove s [] t
  | wiped {t : ClientLoop} (hcore : t.core = { s.core with hs := .zero, hsPending := false, cur := .wiped, prev := .wiped }) :
      ClientMove s [] t
  | init {t : ClientLoop} {index : BitVec 32} {hs : NoiseHs} {packet : Bytes} (hbuilt : InitBuilt C ctx index hs packet)
      (hcore : t.core = { s.core with hs := hs, hsPending := true, hsIndex := index }) :
      ClientMove s [.init index hs packet] t
  /-- A RESP to the handshake under way. -/
  | opened {t : ClientLoop} {resp payload : Bytes} {hs : NoiseHs} (hopen : s.netOpen = true)
      (hpending : s.core.hsPending = true) (hindex : v2ReadU32 resp 9 = s.core.hsIndex)
      (hread : succeeded (noiseReadMsg2 C.prims s.core.hs (resp.drop V2_RESP_HDR) (CAMEX_CONTROL_MAX - 1)) =
        some (payload, hs))
      (hcore : t.core =
        { hs := .zero, hsPending := false, hsIndex := s.core.hsIndex
          cur := sessionInit s.core.hsIndex (v2ReadU32 resp 5) (noiseSplit C.prims hs).1 (noiseSplit C.prims hs).2 s.now
          prev := if s.core.cur.valid then s.core.cur else .wiped }) :
      ClientMove s [.opened t.core.cur.ident s.core.hs resp] t
  | sealed {t : ClientLoop} {cur : Session} {plain packet : Bytes} {size : ℕ}
      (hseal : sessionSeal C.noise s.core.cur plain size = some (packet, cur))
      (hcore : t.core = { s.core with cur := cur }) (hopen : t.netOpen = true → s.netOpen = true) :
      ClientMove s [.sealed s.core.cur.ident s.core.cur.sendN plain packet] t
  | takenCur {t : ClientLoop} {x : Session} {plain packet : Bytes} {size : ℕ}
      (htake : sessionOpen C.noise s.core.cur packet size = some (plain, x))
      (hcore : t.core = { s.core with cur := x }) (hopen : t.netOpen = true → s.netOpen = true) :
      ClientMove s [.taken s.core.cur.ident packet plain] t
  | takenPrev {t : ClientLoop} {x : Session} {plain packet : Bytes} {size : ℕ}
      (htake : sessionOpen C.noise s.core.prev packet size = some (plain, x))
      (hcore : t.core = { s.core with prev := x }) (hopen : t.netOpen = true → s.netOpen = true) :
      ClientMove s [.taken s.core.prev.ident packet plain] t

variable (C ctx) in
inductive ClientMoves : ClientLoop → List ClientNote → ClientLoop → Prop
  | nil (s : ClientLoop) : ClientMoves s [] s
  | cons {s t u : ClientLoop} {notes more : List ClientNote} (hmove : ClientMove C ctx s notes t)
      (hrest : ClientMoves t more u) : ClientMoves s (notes ++ more) u

section

variable {s t u : ClientLoop} {notes more : List ClientNote}

theorem ClientMove.moves (h : ClientMove C ctx s notes t) : ClientMoves C ctx s notes t := by
  rw [← List.append_nil notes]
  exact .cons h (.nil t)

theorem ClientMoves.trans (h : ClientMoves C ctx s notes t) (h' : ClientMoves C ctx t more u) :
    ClientMoves C ctx s (notes ++ more) u := by
  induction h with
  | nil s => exact h'
  | cons hmove _ ih =>
    rw [List.append_assoc]
    exact .cons hmove (ih h')

/-- A move that notes nothing, before others. -/
theorem ClientMove.then (h : ClientMove C ctx s [] t) (h' : ClientMoves C ctx t notes u) : ClientMoves C ctx s notes u :=
  .cons h h'

end

/-! ## What a CONFIG may change -/

/-- A configuration with the tunnel and the ID of a CONFIG. -/
def SameButTunnel (config config' : CamexConfig) : Prop :=
  config' = { config with
    localIp := config'.localIp, localCidr := config'.localCidr, gatewayIp := config'.gatewayIp
    routeCidrs := config'.routeCidrs, routeCount := config'.routeCount, mtu := config'.mtu
    clientId := config'.clientId }

theorem SameButTunnel.refl (config : CamexConfig) : SameButTunnel config config := rfl

theorem SameButTunnel.trans {a b c : CamexConfig} (h : SameButTunnel a b) (h' : SameButTunnel b c) : SameButTunnel a c := by
  unfold SameButTunnel at h h' ⊢
  rw [h] at h'
  exact h'

theorem protoParseConfig_sameButTunnel {message : Bytes} {config config' : CamexConfig}
    (h : protoParseConfig message config = some config') : SameButTunnel config config' := by
  unfold protoParseConfig at h
  split at h
  · split at h
    · cases h
    · split at h
      · cases h
      · split at h
        · cases h
        · obtain ⟨config₁, happly, rfl⟩ := Option.map_eq_some_iff.mp h
          have happlied : SameButTunnel config config₁ := by
            unfold configApplyProfile at happly
            split at happly
            · cases happly
            · cases happly
              rfl
          split
          · exact happlied.trans rfl
          · exact happlied
  · cases h

theorem clientReopen_sameButTunnel (o : Outcome) (s : ClientTunnel) (next : CamexConfig) (localIp : CStr) :
    SameButTunnel s.current (clientReopen o s next localIp).2.current := by
  unfold clientReopen
  dsimp only
  split
  · split <;> exact .refl _
  · exact rfl

theorem camexClientReconfigure_sameButTunnel (o : Outcome) (s : ClientTunnel) (next : CamexConfig) :
    SameButTunnel s.current (camexClientReconfigure o s next).2.current := by
  unfold camexClientReconfigure
  split
  · exact .refl _
  · split
    · exact clientReopen_sameButTunnel _ _ _ _
    · split
      · exact .refl _
      · split
        · exact .refl _
        · exact clientReopen_sameButTunnel _ _ _ _

theorem clientTakeConfig_sameButTunnel {c c' : Client} {o : Outcome} {payload : Bytes}
    (h : clientTakeConfig c o payload = some c') : SameButTunnel c.link.current c'.link.current := by
  unfold clientTakeConfig at h
  split at h
  · cases h
    exact .refl _
  · split at h
    · obtain ⟨config, happly, rfl⟩ := Option.map_eq_some_iff.mp h
      unfold clientApplyConfigResponse at happly
      split at happly
      · cases happly
      · obtain ⟨config₁, hparse, rfl⟩ := Option.map_eq_some_iff.mp happly
        refine (protoParseConfig_sameButTunnel hparse).trans ?_
        dsimp only
        split <;> rfl
    · cases h
      unfold clientCheckConfigChange
      split
      · exact .refl _
      · split
        · exact .refl _
        · split
          · exact camexClientReconfigure_sameButTunnel _ _ _
          · exact .refl _

/-! ## Handshakes -/

variable (C ctx) in
/-- What `client_send_init` comes to: an INIT, or a handshake spoiled. -/
inductive InitTried (s : ClientLoop) : List ClientNote → Bool → ClientLoop → Prop
  | unsent (hs : NoiseHs) (index : BitVec 32) :
      InitTried s [] false { s with client := { s.client with hs := hs, hsIndex := index } }
  | sent {index : BitVec 32} {hs : NoiseHs} {packet : Bytes} (hbuilt : InitBuilt C ctx index hs packet) (ok : Bool)
      (hok : ok = true → s.netOpen = true) :
      InitTried s [.init index hs packet] ok
        { s with client := { s.client with hs := hs, hsIndex := index, hsPending := true }, hsSent := s.now }

variable (C ctx) in
theorem clientSendInit_tried (s : ClientLoop) (env : InitEnv) :
    InitTried C ctx s (clientSendInit C ctx s env).2.1 (clientSendInit C ctx s env).2.2 (clientSendInit C ctx s env).1 := by
  unfold clientSendInit
  split
  · exact .unsent s.client.hs s.client.hsIndex
  · cases protoBuildRegister s.client.link.current CAMEX_CONTROL_MAX with
    | none => exact .unsent s.client.hs s.client.hsIndex
    | some message =>
      dsimp only
      cases env.seed with
      | none => exact .unsent s.client.hs s.client.hsIndex
      | some seed =>
        dsimp only
        split
        · exact .unsent _ 0
        · rename_i hindex
          generalize hwrite : noiseWriteMsg1 C.prims _ ctx.pskKey seed (v2Timestamp env.time ++ message) _ = q
          obtain ⟨hs, msg⟩ := q
          dsimp only
          cases msg with
          | none => exact .unsent hs env.index
          | some msg =>
            refine .sent ⟨hindex, seed, _, msg, hwrite, rfl⟩ _ fun h => ?_
            rw [decide_eq_true_eq] at h
            by_contra hclosed
            rw [netClientSend, if_neg hclosed] at h
            omega

variable (C ctx) in
theorem clientStartHandshake_tried (s : ClientLoop) (env : InitEnv) :
    InitTried C ctx { s with hsStarted := s.now } (clientStartHandshake C ctx s env).2.1
      (clientStartHandshake C ctx s env).2.2 (clientStartHandshake C ctx s env).1 := clientSendInit_tried C ctx _ env

theorem InitTried.netOpen {s t : ClientLoop} {notes : List ClientNote} {ok : Bool} (h : InitTried C ctx s notes ok t) :
    t.netOpen = s.netOpen := by
  cases h <;> rfl

/-- A handshake tried, and the state it ends in put where nothing of the protocol changes. -/
theorem InitTried.moves {s s' t t' : ClientLoop} {notes : List ClientNote} {ok : Bool}
    (h : InitTried C ctx s' notes ok t') (hs : s'.core = s.core) (ht : t.core = t'.core)
    (hdead : ok = false → t.netOpen = false ∨ s.core.hsPending = false) : ClientMoves C ctx s notes t := by
  cases h with
  | unsent hs' index =>
    have hcore : t.core = { s.core with hs := hs', hsIndex := index } := by
      rw [ht, ← hs]
      rfl
    exact (ClientMove.spoiled hcore (hdead rfl)).moves
  | sent hbuilt ok hok =>
    refine (ClientMove.init hbuilt ?_).moves
    rw [ht, ← hs]
    rfl

/-! ## Packets -/

variable (C) in
def newSession (c : ClientCore) (hs : NoiseHs) (resp : Bytes) (now : Time) : Session :=
  sessionInit c.hsIndex (v2ReadU32 resp 5) (noiseSplit C.prims hs).1 (noiseSplit C.prims hs).2 now

variable (C) in
/-- What a packet comes to. -/
inductive PacketTaken (c : Client) (now : Time) (pkt : Bytes) : ClientOutcome → ClientCore → Prop
  | refused : PacketTaken c now pkt .refused c.core
  | unconfirmed {payload : Bytes} {hs : NoiseHs} (hpending : c.hsPending = true) (hindex : v2ReadU32 pkt 9 = c.hsIndex)
      (hread : succeeded (noiseReadMsg2 C.prims c.hs (pkt.drop V2_RESP_HDR) (CAMEX_CONTROL_MAX - 1)) = some (payload, hs)) :
      PacketTaken c now pkt (.connected none)
        ⟨.zero, false, c.hsIndex, newSession C c.core hs pkt now, if c.cur.valid then c.cur else .wiped⟩
  | confirmed {payload ka : Bytes} {hs : NoiseHs} {cur : Session} (hpending : c.hsPending = true)
      (hindex : v2ReadU32 pkt 9 = c.hsIndex)
      (hread : succeeded (noiseReadMsg2 C.prims c.hs (pkt.drop V2_RESP_HDR) (CAMEX_CONTROL_MAX - 1)) = some (payload, hs))
      (hseal : sessionSeal C.noise (newSession C c.core hs pkt now) [] V2_OVERHEAD = some (ka, cur)) :
      PacketTaken c now pkt (.connected (some ka))
        ⟨.zero, false, c.hsIndex, cur, if c.cur.valid then c.cur else .wiped⟩
  | cur {plain : Bytes} {x : Session} (hsession : clientSession c (v2DataReceiver pkt) now = some false)
      (htake : sessionOpen C.noise c.cur pkt TUN_PACKET_MAX = some (plain, x)) :
      PacketTaken c now pkt (if plain = [] then .keepalive else .tun plain) { c.core with cur := x }
  | prev {plain : Bytes} {x : Session} (hsession : clientSession c (v2DataReceiver pkt) now = some true)
      (htake : sessionOpen C.noise c.prev pkt TUN_PACKET_MAX = some (plain, x)) :
      PacketTaken c now pkt (if plain = [] then .keepalive else .tun plain) { c.core with prev := x }

theorem clientTakeConfig_core {c c' : Client} {o : Outcome} {payload : Bytes}
    (h : clientTakeConfig c o payload = some c') : c'.core = c.core := by
  unfold clientTakeConfig at h
  split at h
  · cases h
    rfl
  · split at h
    · obtain ⟨config, -, rfl⟩ := Option.map_eq_some_iff.mp h
      rfl
    · cases h
      rfl

theorem clientHandleResp_taken (c : Client) (o : Outcome) (now : Time) (pkt : Bytes) :
    PacketTaken C c now pkt (clientHandleResp C c o now pkt).2 (clientHandleResp C c o now pkt).1.core := by
  unfold clientHandleResp
  split
  · exact .refused
  rename_i hours
  rw [not_or, not_not, Bool.not_eq_true', Bool.not_eq_false] at hours
  cases hread : succeeded (noiseReadMsg2 C.prims c.hs (pkt.drop V2_RESP_HDR) (CAMEX_CONTROL_MAX - 1)) with
  | none => exact .refused
  | some q =>
    obtain ⟨payload, hs⟩ := q
    dsimp only
    cases htake : clientTakeConfig c o payload with
    | none => exact .refused
    | some c₁ =>
      have hcore : c₁.core = c.core := clientTakeConfig_core htake
      have hindex : c₁.hsIndex = c.hsIndex := congrArg ClientCore.hsIndex hcore
      have hprev : (if c₁.cur.valid then c₁.cur else .wiped) = if c.cur.valid then c.cur else .wiped := by
        rw [show c₁.cur = c.cur from congrArg ClientCore.cur hcore]
      have hnew : (clientStartSession c₁ (v2ReadU32 pkt 5) (noiseSplit C.prims hs) now).cur =
          newSession C c.core hs pkt now := by
        show sessionInit c₁.hsIndex _ _ _ _ = _
        rw [hindex]
        rfl
      dsimp only
      rw [hnew]
      cases hseal : sessionSeal C.noise (newSession C c.core hs pkt now) [] V2_OVERHEAD with
      | none =>
        have hdone : PacketTaken C c now pkt (.connected none) _ := .unconfirmed hours.1 hours.2 hread
        rw [← hnew, ← hindex, ← hprev] at hdone
        exact hdone
      | some q =>
        have hdone := PacketTaken.confirmed hours.1 hours.2 hread hseal
        rw [← hindex, ← hprev] at hdone
        exact hdone

theorem clientHandleNetPacket_taken (c : Client) (o : Outcome) (now : Time) (pkt : Bytes) :
    PacketTaken C c now pkt (clientHandleNetPacket C c o now pkt).2 (clientHandleNetPacket C c o now pkt).1.core := by
  unfold clientHandleNetPacket
  dsimp only
  split
  · exact clientHandleResp_taken c o now pkt
  · split
    · exact .refused
    · cases hsession : clientSession c (v2DataReceiver pkt) now with
      | none => exact .refused
      | some onPrev =>
        dsimp only
        cases hopen : sessionOpen C.noise (if onPrev then c.prev else c.cur) pkt TUN_PACKET_MAX with
        | none => exact .refused
        | some q =>
          obtain ⟨plain, x⟩ := q
          cases onPrev with
          | false => exact .cur hsession hopen
          | true => exact .prev hsession hopen

def Client.withCore (c : Client) (core : ClientCore) : Client :=
  { c with hs := core.hs, hsPending := core.hsPending, hsIndex := core.hsIndex, cur := core.cur, prev := core.prev }

theorem clientHandleNetPacket_moves {s t : ClientLoop} (hopen : s.netOpen = true) (o : Outcome) (pkt : Bytes)
    (hcore : t.core = (clientHandleNetPacket C s.client o s.now pkt).1.core) :
    ClientMoves C ctx s (clientPacketNotes C s.client o s.now pkt) t := by
  have htaken := clientHandleNetPacket_taken (C := C) s.client o s.now pkt
  unfold clientPacketNotes
  generalize clientHandleNetPacket C s.client o s.now pkt = q at hcore htaken
  obtain ⟨c, outcome⟩ := q
  dsimp only at hcore htaken
  have hcur : c.cur = t.core.cur := (congrArg ClientCore.cur hcore).symm
  rw [← hcore] at htaken
  generalize hdone : t.core = core at htaken hcur
  cases htaken with
  | refused => exact (ClientMove.kept hdone fun _ => hopen).moves
  | unconfirmed hpending hindex hread =>
    dsimp only
    rw [hcur, ← show t.core.cur = _ from congrArg ClientCore.cur hdone]
    exact (ClientMove.opened hopen hpending hindex hread hdone).moves
  | @confirmed payload ka hs cur hpending hindex hread hseal =>
    dsimp only
    obtain ⟨-, rfl⟩ := sessionSeal_session C.noise hseal
    let made : ClientCore := ⟨.zero, false, s.core.hsIndex, newSession C s.core hs pkt s.now,
      if s.core.cur.valid then s.core.cur else .wiped⟩
    let mid : ClientLoop := { s with client := s.client.withCore made }
    have hmade : ClientMove C ctx s [.opened mid.core.cur.ident s.core.hs pkt] mid :=
      .opened hopen hpending hindex hread rfl
    have hsealed : ClientMove C ctx mid [.sealed mid.core.cur.ident mid.core.cur.sendN [] ka] t :=
      .sealed hseal hdone fun _ => hopen
    rw [hcur]
    exact hmade.moves.trans hsealed.moves
  | @cur plain x hsession htake =>
    have hmove : ClientMove C ctx s [.taken s.core.cur.ident pkt plain] t := .takenCur htake hdone fun _ => hopen
    have hreceiver : clientReceiver s.client s.now pkt = s.core.cur.ident := by
      rw [clientReceiver, hsession]
      rfl
    split_ifs with hempty
    · dsimp only
      rw [hreceiver, ← hempty]
      exact hmove.moves
    · dsimp only
      rw [hreceiver]
      exact hmove.moves
  | @prev plain x hsession htake =>
    have hmove : ClientMove C ctx s [.taken s.core.prev.ident pkt plain] t := .takenPrev htake hdone fun _ => hopen
    have hreceiver : clientReceiver s.client s.now pkt = s.core.prev.ident := by
      rw [clientReceiver, hsession]
      rfl
    split_ifs with hempty
    · dsimp only
      rw [hreceiver, ← hempty]
      exact hmove.moves
    · dsimp only
      rw [hreceiver]
      exact hmove.moves

theorem clientSeal_netOpen {s t : ClientLoop} {plain : Bytes} {size : ℕ} {note : ClientNote}
    (h : clientSeal C s plain size = some (t, note)) : t.netOpen = s.netOpen := by
  unfold clientSeal at h
  obtain ⟨q, -, heq⟩ := Option.map_eq_some_iff.mp h
  cases heq
  rfl

theorem clientSeal_move {s t u : ClientLoop} {plain : Bytes} {size : ℕ} {note : ClientNote}
    (h : clientSeal C s plain size = some (t, note)) (hcore : u.core = t.core)
    (hopen : u.netOpen = true → s.netOpen = true) : ClientMove C ctx s [note] u := by
  unfold clientSeal at h
  obtain ⟨⟨packet, cur⟩, hseal, heq⟩ := Option.map_eq_some_iff.mp h
  cases heq
  exact .sealed hseal hcore hopen

theorem clientHandleTunPacket_moves (s : ClientLoop) (packet : Bytes) (sent : ℤ) :
    ClientMoves C ctx s (clientHandleTunPacket C s packet sent).2.1 (clientHandleTunPacket C s packet sent).1 := by
  unfold clientHandleTunPacket
  split
  · exact .nil s
  · split
    · exact .nil s
    · cases hseal : clientSeal C s packet (TUN_PACKET_MAX + V2_OVERHEAD) with
      | none => exact .nil s
      | some q =>
        obtain ⟨t, note⟩ := q
        exact (clientSeal_move hseal rfl fun hopen => (clientSeal_netOpen hseal).symm.trans hopen).moves

/-! ## Timers -/

theorem clientReconnect_moves (s : ClientLoop) (socket : Bool) (env : InitEnv) :
    ClientMoves C ctx s (clientReconnect C ctx s socket env).2 (clientReconnect C ctx s socket env).1 := by
  unfold clientReconnect
  dsimp only
  split
  · exact (ClientMove.wiped rfl).moves
  · generalize hmid : ({ s with
      client := { clientWipe s.client with established := false, lastRecv := s.now, lastKeepalive := s.now }
      netOpen := true, reconnectAt := 0 } : ClientLoop) = mid
    have hwiped : ClientMove C ctx s [] mid := .wiped (by rw [← hmid]; rfl)
    have hpending : mid.core.hsPending = false := by rw [← hmid]; rfl
    refine hwiped.then ?_
    have htried := clientStartHandshake_tried C ctx mid env
    generalize clientStartHandshake C ctx mid env = q at htried
    obtain ⟨t, notes, ok⟩ := q
    cases ok with
    | false => exact htried.moves rfl rfl fun _ => Or.inr hpending
    | true => exact htried.moves rfl rfl nofun

theorem clientKeepalive_moves (s : ClientLoop) :
    ClientMoves C ctx s (clientKeepalive C s).2 (clientKeepalive C s).1 := by
  unfold clientKeepalive
  split
  · cases hseal : clientSeal C s [] V2_OVERHEAD with
    | none =>
      have hkept : ClientMove C ctx s [] { s with client := { s.client with lastKeepalive := s.now } } := .kept rfl id
      exact hkept.moves
    | some q =>
      obtain ⟨t, note⟩ := q
      have hmove : ClientMove C ctx s [note] { t with client := { t.client with lastKeepalive := t.now } } :=
        clientSeal_move hseal rfl fun hopen => (clientSeal_netOpen hseal).symm.trans hopen
      exact hmove.moves
  · exact .nil s

theorem clientRekey_moves (s : ClientLoop) (env : InitEnv) :
    ClientMoves C ctx s (clientRekey C ctx s env).2 (clientRekey C ctx s env).1 := by
  unfold clientRekey
  split
  · rename_i hdue
    have hpending : s.core.hsPending = false := by simpa [ClientLoop.core, Client.core] using hdue.2.1
    have htried := clientStartHandshake_tried C ctx s env
    generalize clientStartHandshake C ctx s env = q at htried
    obtain ⟨t, notes, ok⟩ := q
    exact htried.moves rfl rfl fun _ => Or.inr hpending
  · exact .nil s

/-- A handshake sent again; when that fails the socket is closed. -/
theorem clientRetransmit_moves {s t u : ClientLoop} {env : InitEnv} {notes : List ClientNote} {ok : Bool}
    (h : clientRetransmit C ctx s env = (t, notes, ok)) (hcore : u.core = t.core)
    (hopen : u.netOpen = true → s.netOpen = true) (hclosed : ok = false → u.netOpen = false) :
    ClientMoves C ctx s notes u := by
  unfold clientRetransmit at h
  split at h
  · have htried := clientSendInit_tried C ctx s env
    rw [h] at htried
    exact htried.moves rfl hcore fun hfail => Or.inl (hclosed hfail)
  · cases h
    exact (ClientMove.kept hcore hopen).moves

variable (C ctx) in
theorem clientRetransmit_netOpen (s : ClientLoop) (env : InitEnv) :
    (clientRetransmit C ctx s env).1.netOpen = s.netOpen := by
  unfold clientRetransmit
  split
  · exact (clientSendInit_tried C ctx s env).netOpen
  · rfl

theorem clientTick_moves (s : ClientLoop) (env : TickEnv) :
    ClientMoves C ctx s (clientTick C ctx s env).2 (clientTick C ctx s env).1 := by
  unfold clientTick
  split
  · split
    · exact clientReconnect_moves s _ _
    · exact .nil s
  · split
    · have hdown : ClientMove C ctx s [] (clientLinkDown s) := .kept rfl id
      exact hdown.then (clientReconnect_moves _ _ _)
    · cases hagain : clientRetransmit C ctx s env.init with
      | mk t q =>
        obtain ⟨notes, ok⟩ := q
        cases ok with
        | false => exact clientRetransmit_moves hagain rfl nofun fun _ => rfl
        | true =>
          have hopen : t.netOpen = s.netOpen := by
            rw [← clientRetransmit_netOpen C ctx s env.init, hagain]
          exact (clientRetransmit_moves hagain rfl (hopen ▸ id) nofun).trans
            ((clientRekey_moves t env.init).trans (clientKeepalive_moves _))

/-! ## Steps -/

theorem clientWaitReconnect_closed (s : ClientLoop) (attempts : List Attempt) :
    clientWaitReconnect C ctx { s with netOpen := false } attempts = clientWaitReconnect C ctx s attempts := by
  cases attempts <;> rfl

theorem clientWaitReconnect_moves {s t : ClientLoop} {attempts : List Attempt} {notes : List ClientNote}
    (h : clientWaitReconnect C ctx s attempts = some (t, notes)) : ClientMoves C ctx s notes t := by
  induction attempts generalizing s t notes with
  | nil => cases h
  | cons a attempts ih =>
    rw [clientWaitReconnect] at h
    dsimp only at h
    split at h
    · have hclosed : ClientMove C ctx s [] { s with netOpen := false } := .kept rfl fun h => absurd h (by simp)
      exact hclosed.then (ih h)
    · have htried := clientStartHandshake_tried C ctx { s with netOpen := true, now := a.now } a.init
      generalize clientStartHandshake C ctx { s with netOpen := true, now := a.now } a.init = q at h htried
      obtain ⟨u, first, ok⟩ := q
      cases ok with
      | true =>
        cases h
        exact htried.moves rfl rfl nofun
      | false =>
        obtain ⟨⟨v, more⟩, hrest, heq⟩ := Option.map_eq_some_iff.mp h
        cases heq
        rw [← clientWaitReconnect_closed] at hrest
        have hfailed : ClientMoves C ctx s first { u with netOpen := false } :=
          htried.moves rfl rfl fun _ => Or.inl rfl
        exact hfailed.trans (ih hrest)

theorem clientWaitAgain_moves {s t : ClientLoop} {env : WaitEnv} {notes : List ClientNote}
    (h : clientWaitAgain C ctx s env = some (t, notes)) : ClientMoves C ctx s notes t := by
  obtain ⟨⟨u, notes⟩, hagain, heq⟩ := Option.map_eq_some_iff.mp h
  cases heq
  have hset : ClientMove C ctx u [] { u with point := .waiting env.since } := .kept rfl id
  rw [← List.append_nil notes]
  exact (clientWaitReconnect_moves hagain).trans hset.moves

theorem clientWait_moves {s t : ClientLoop} {since : Time} {env : WaitEnv} {notes : List ClientNote}
    (h : clientWait C ctx s since env = some (t, notes)) : ClientMoves C ctx s notes t := by
  unfold clientWait at h
  dsimp only at h
  have hset : ClientMove C ctx s [] { s with now := env.now } := .kept rfl id
  refine hset.then ?_
  split at h
  · exact clientWaitAgain_moves h
  rename_i hgood
  have hopen : s.netOpen = true := by
    rw [not_or, Bool.not_eq_true', Bool.not_eq_false] at hgood
    exact hgood.1
  cases hagain : clientRetransmit C ctx { s with now := env.now } env.init with
  | mk u q =>
    obtain ⟨first, ok⟩ := q
    rw [hagain] at h
    have hsame : u.netOpen = s.netOpen := by
      have := clientRetransmit_netOpen C ctx { s with now := env.now } env.init
      rwa [hagain] at this
    cases ok with
    | false =>
      obtain ⟨⟨v, more⟩, hrest, heq⟩ := Option.map_eq_some_iff.mp h
      cases heq
      exact (clientRetransmit_moves (u := { u with netOpen := false }) hagain rfl nofun fun _ => rfl).trans
        (clientWaitAgain_moves (by rwa [clientWaitAgain, clientWaitReconnect_closed]))
    | true =>
      have hsent := clientRetransmit_moves hagain rfl (hsame ▸ id) nofun
      dsimp only at h
      split at h
      · cases h
        exact hsent
      · obtain ⟨⟨v, more⟩, hrest, heq⟩ := Option.map_eq_some_iff.mp h
        cases heq
        exact hsent.trans (clientWaitAgain_moves hrest)
      · cases h
        refine hsent.trans (clientHandleNetPacket_moves (hsame.trans hopen) _ _ ?_)
        unfold clientWaitPacket
        dsimp only
        split
        · split <;> rfl
        · split <;> rfl
        · rfl
        · rfl

theorem clientFirstHandshake_moves {s t : ClientLoop} {env : InitEnv} {notes : List ClientNote}
    (hpending : s.core.hsPending = false) (h : clientFirstHandshake C ctx s env = (t, notes)) :
    ClientMoves C ctx s notes t := by
  unfold clientFirstHandshake at h
  have htried := clientStartHandshake_tried C ctx s env
  generalize clientStartHandshake C ctx s env = q at h htried
  obtain ⟨t, notes, ok⟩ := q
  cases h
  exact htried.moves rfl rfl fun _ => Or.inr hpending

theorem clientOpen_moves {s t : ClientLoop} {opened : Option Backend} {added : ℕ → Bool} {env : InitEnv}
    {notes : List ClientNote} (hpending : s.client.link.current.autoConfig = false → s.core.hsPending = false)
    (h : clientOpen C ctx s opened added env = some (t, notes)) : ClientMoves C ctx s notes t := by
  obtain ⟨tunnel, -, heq⟩ := Option.map_eq_some_iff.mp h
  have hcurrent : (camexClientInstallRoutes added { s.client.link with tunnel := some tunnel }).current =
      s.client.link.current := rfl
  dsimp only at heq
  rw [hcurrent] at heq
  split at heq
  · cases heq
    refine ClientMove.moves (.kept rfl id)
  · rename_i hmanual
    generalize hmid : ({ s with
      client := { s.client with link := camexClientInstallRoutes added { s.client.link with tunnel := some tunnel } }
      linkUp := true, point := .head } : ClientLoop) = mid at heq
    have hset : ClientMove C ctx s [] mid := .kept (by rw [← hmid]; rfl) (by rw [← hmid]; exact id)
    have hidle : mid.core.hsPending = false := by
      rw [← hmid]
      exact hpending (by simpa using hmanual)
    exact hset.then (clientFirstHandshake_moves hidle heq)

/-- Where no handshake can be under way, and where the configuration asks for auto mode. -/
structure Placed (s : ClientLoop) : Prop where
  starting : s.point = .starting → s.core.hsPending = false
  waiting : ∀ since, s.point = .waiting since → s.client.link.current.autoConfig = true
  configured : s.point = .configured → s.client.link.current.autoConfig = true

/-- **A step is a sequence of moves.** -/
theorem clientStep_moves {s t : ClientLoop} {e : ClientEvent} {notes : List ClientNote} (hs : Placed s)
    (h : clientStep C ctx s e = some (t, notes)) : ClientMoves C ctx s notes t := by
  unfold clientStep at h
  cases e with
  | begin now env =>
    dsimp only at h
    split at h
    · rename_i hpoint
      have hset : ClientMove C ctx s [] { s with now := now, point := .waiting now } := .kept rfl id
      exact hset.then (clientFirstHandshake_moves (hs.starting hpoint.1) (Option.some.inj h))
    · cases h
  | wait env =>
    dsimp only at h
    split at h
    · exact clientWait_moves h
    · cases h
  | start now opened added env =>
    dsimp only at h
    split at h
    · rename_i hpoint
      have hset : ClientMove C ctx s [] { s with now := now } := .kept rfl id
      refine hset.then (clientOpen_moves (fun hmanual => ?_) h)
      rcases hpoint with hpoint | hpoint
      · exact absurd (hs.configured hpoint) (by rw [show s.client.link.current.autoConfig = false from hmanual]; decide)
      · exact hs.starting hpoint.1
    · cases h
  | pass now =>
    dsimp only at h
    split at h
    · cases h
      have hset : ClientMove C ctx s [] { s with now := now, point := .pass } := .kept rfl id
      exact hset.moves
    · cases h
  | packet bytes o =>
    dsimp only at h
    split at h
    · rename_i hpoint
      cases h
      exact clientHandleNetPacket_moves hpoint.2 _ _ rfl
    · cases h
  | lost =>
    dsimp only at h
    split at h
    · cases h
      have hclosed : ClientMove C ctx s [] { s with netOpen := false } := .kept rfl fun h => absurd h (by simp)
      exact hclosed.moves
    · cases h
  | tun packet sent =>
    dsimp only at h
    split at h
    · cases h
      exact clientHandleTunPacket_moves s packet sent
    · cases h
  | tick env =>
    dsimp only at h
    split at h
    · cases h
      have hset : ClientMove C ctx (clientTick C ctx s env).1 [] { (clientTick C ctx s env).1 with point := .head } :=
        .kept rfl id
      rw [← List.append_nil (clientTick C ctx s env).2]
      exact (clientTick_moves s env).trans hset.moves
    · cases h

/-! ## What the steps leave alone -/

/-- All stays but the handshake, the number of packets sealed and the clocks. -/
structure SameRest (s t : ClientLoop) : Prop where
  link : t.client.link = s.client.link
  point : t.point = s.point
  reconnectAt : t.reconnectAt = s.reconnectAt
  cur : t.client.cur = { s.client.cur with sendN := t.client.cur.sendN }
  prev : t.client.prev = s.client.prev
  prevUntil : t.client.prevUntil = s.client.prevUntil
  established : t.client.established = s.client.established
  received : t.client.configReceived = s.client.configReceived

theorem SameRest.refl (s : ClientLoop) : SameRest s s := ⟨rfl, rfl, rfl, rfl, rfl, rfl, rfl, rfl⟩

theorem SameRest.trans {s t u : ClientLoop} (h : SameRest s t) (h' : SameRest t u) : SameRest s u := by
  refine ⟨h'.link.trans h.link, h'.point.trans h.point, h'.reconnectAt.trans h.reconnectAt, ?_, h'.prev.trans h.prev,
    h'.prevUntil.trans h.prevUntil, h'.established.trans h.established, h'.received.trans h.received⟩
  rw [h'.cur, h.cur]

theorem SameRest.valid {s t : ClientLoop} (h : SameRest s t) : t.client.cur.valid = s.client.cur.valid := by
  rw [h.cur]

theorem SameRest.created {s t : ClientLoop} (h : SameRest s t) : t.client.cur.created = s.client.cur.created := by
  rw [h.cur]

theorem InitTried.sameRest {s t : ClientLoop} {notes : List ClientNote} {ok : Bool}
    (h : InitTried C ctx s notes ok t) : SameRest s t := by
  cases h <;> exact ⟨rfl, rfl, rfl, rfl, rfl, rfl, rfl, rfl⟩

variable (C ctx) in
theorem clientStartHandshake_sameRest (s : ClientLoop) (env : InitEnv) :
    SameRest s (clientStartHandshake C ctx s env).1 := by
  have hset : SameRest s { s with hsStarted := s.now } := ⟨rfl, rfl, rfl, rfl, rfl, rfl, rfl, rfl⟩
  exact hset.trans (clientStartHandshake_tried C ctx s env).sameRest

variable (C ctx) in
theorem clientRetransmit_sameRest (s : ClientLoop) (env : InitEnv) : SameRest s (clientRetransmit C ctx s env).1 := by
  unfold clientRetransmit
  split
  · exact (clientSendInit_tried C ctx s env).sameRest
  · exact .refl s

theorem clientHandleTunPacket_sameRest (s : ClientLoop) (packet : Bytes) (sent : ℤ) :
    SameRest s (clientHandleTunPacket C s packet sent).1 := by
  unfold clientHandleTunPacket
  split
  · exact .refl s
  · split
    · exact .refl s
    · unfold clientSeal
      cases hseal : sessionSeal C.noise s.client.cur packet (TUN_PACKET_MAX + V2_OVERHEAD) with
      | none => exact .refl s
      | some q =>
        obtain ⟨packet, cur⟩ := q
        obtain ⟨-, rfl⟩ := sessionSeal_session C.noise hseal
        exact ⟨rfl, rfl, rfl, rfl, rfl, rfl, rfl, rfl⟩

theorem clientWaitReconnect_sameRest {s t : ClientLoop} {attempts : List Attempt} {notes : List ClientNote}
    (h : clientWaitReconnect C ctx s attempts = some (t, notes)) : SameRest s t := by
  induction attempts generalizing s t notes with
  | nil => cases h
  | cons a attempts ih =>
    rw [clientWaitReconnect] at h
    dsimp only at h
    split at h
    · have hclosed : SameRest s { s with netOpen := false } := ⟨rfl, rfl, rfl, rfl, rfl, rfl, rfl, rfl⟩
      exact hclosed.trans (ih h)
    · have hopen : SameRest s { s with netOpen := true, now := a.now } := ⟨rfl, rfl, rfl, rfl, rfl, rfl, rfl, rfl⟩
      have hsame := hopen.trans (clientStartHandshake_sameRest C ctx _ a.init)
      generalize clientStartHandshake C ctx { s with netOpen := true, now := a.now } a.init = q at h hsame
      obtain ⟨u, first, ok⟩ := q
      cases ok with
      | true =>
        cases h
        exact hsame
      | false =>
        obtain ⟨⟨v, more⟩, hrest, heq⟩ := Option.map_eq_some_iff.mp h
        cases heq
        exact hsame.trans (ih hrest)

theorem clientHandleNetPacket_sameButTunnel (c : Client) (o : Outcome) (now : Time) (pkt : Bytes) :
    SameButTunnel c.link.current (clientHandleNetPacket C c o now pkt).1.link.current := by
  unfold clientHandleNetPacket
  dsimp only
  split
  · unfold clientHandleResp
    split
    · exact .refl _
    · split
      · exact .refl _
      · split
        · exact .refl _
        · rename_i htake
          dsimp only
          have hconfig := clientTakeConfig_sameButTunnel htake
          split <;> exact hconfig
  · split
    · exact .refl _
    · split
      · exact .refl _
      · split
        · exact .refl _
        · unfold clientReceived
          dsimp only
          split <;> exact .refl _

/-- The client waits on, or it has its configuration. -/
structure Waits (s t : ClientLoop) : Prop where
  config : SameButTunnel s.client.link.current t.client.link.current
  reconnectAt : t.reconnectAt = s.reconnectAt
  point : (∃ since, t.point = .waiting since) ∨ t.point = .configured

theorem SameRest.waits {s t : ClientLoop} (h : SameRest s t) (hpoint : ∃ since, t.point = .waiting since) : Waits s t :=
  ⟨by rw [h.link]; exact .refl _, h.reconnectAt, Or.inl hpoint⟩

theorem SameRest.thenWaits {s t u : ClientLoop} (h : SameRest s t) (h' : Waits t u) : Waits s u :=
  ⟨by rw [← h.link]; exact h'.config, h'.reconnectAt.trans h.reconnectAt, h'.point⟩

theorem clientWaitAgain_waits {s t : ClientLoop} {env : WaitEnv} {notes : List ClientNote}
    (h : clientWaitAgain C ctx s env = some (t, notes)) : Waits s t := by
  obtain ⟨⟨u, notes⟩, hagain, heq⟩ := Option.map_eq_some_iff.mp h
  cases heq
  have hsame := clientWaitReconnect_sameRest hagain
  exact ⟨by rw [hsame.link]; exact .refl _, hsame.reconnectAt, Or.inl ⟨env.since, rfl⟩⟩

theorem clientWaitPacket_waits {s : ClientLoop} (hpoint : ∃ since, s.point = .waiting since) (since : Time)
    (bytes : Bytes) (o : Outcome) : Waits s (clientWaitPacket C s since bytes o) := by
  have hconfig := clientHandleNetPacket_sameButTunnel (C := C) s.client o s.now bytes
  unfold clientWaitPacket
  dsimp only
  split
  · split
    · exact ⟨hconfig, rfl, Or.inr rfl⟩
    · exact ⟨hconfig, rfl, Or.inl ⟨since, rfl⟩⟩
  · split
    · exact ⟨hconfig, rfl, Or.inr rfl⟩
    · exact ⟨hconfig, rfl, Or.inl ⟨since, rfl⟩⟩
  · exact ⟨hconfig, rfl, Or.inl hpoint⟩
  · exact ⟨hconfig, rfl, Or.inl hpoint⟩

theorem clientWait_waits {s t : ClientLoop} {since : Time} {env : WaitEnv} {notes : List ClientNote}
    (hpoint : s.point = .waiting since) (h : clientWait C ctx s since env = some (t, notes)) : Waits s t := by
  unfold clientWait at h
  dsimp only at h
  have hset : SameRest s { s with now := env.now } := ⟨rfl, rfl, rfl, rfl, rfl, rfl, rfl, rfl⟩
  split at h
  · exact hset.thenWaits (clientWaitAgain_waits h)
  have hsame := hset.trans (clientRetransmit_sameRest C ctx { s with now := env.now } env.init)
  generalize clientRetransmit C ctx { s with now := env.now } env.init = q at h hsame
  obtain ⟨u, first, ok⟩ := q
  have hplace : ∃ since, u.point = .waiting since := ⟨since, hsame.point.trans hpoint⟩
  cases ok with
  | false =>
    obtain ⟨⟨v, more⟩, hrest, heq⟩ := Option.map_eq_some_iff.mp h
    cases heq
    exact hsame.thenWaits (clientWaitAgain_waits hrest)
  | true =>
    dsimp only at h
    split at h
    · cases h
      exact hsame.waits hplace
    · obtain ⟨⟨v, more⟩, hrest, heq⟩ := Option.map_eq_some_iff.mp h
      cases heq
      exact hsame.thenWaits (clientWaitAgain_waits hrest)
    · cases h
      exact hsame.thenWaits (clientWaitPacket_waits hplace _ _ _)

theorem placed_running {s : ClientLoop} (h : s.point = .head ∨ s.point = .pass) : Placed s := by
  rcases h with h | h
  · exact ⟨fun h' => (nomatch h'.symm.trans h), fun _ h' => (nomatch h'.symm.trans h),
      fun h' => (nomatch h'.symm.trans h)⟩
  · exact ⟨fun h' => (nomatch h'.symm.trans h), fun _ h' => (nomatch h'.symm.trans h),
      fun h' => (nomatch h'.symm.trans h)⟩

theorem Waits.placed {s t : ClientLoop} (h : Waits s t) (hauto : s.client.link.current.autoConfig = true) : Placed t := by
  have hmode : t.client.link.current.autoConfig = true := (congrArg CamexConfig.autoConfig h.config).trans hauto
  refine ⟨fun hstart => ?_, fun _ _ => hmode, fun _ => hmode⟩
  rcases h.point with ⟨since, hpoint⟩ | hpoint
  · exact (nomatch hstart.symm.trans hpoint)
  · exact (nomatch hstart.symm.trans hpoint)

variable (C ctx) in
theorem clientFirstHandshake_sameRest (s : ClientLoop) (env : InitEnv) :
    SameRest s (clientFirstHandshake C ctx s env).1 := clientStartHandshake_sameRest C ctx s env

/-- Where a step ends, outside the wait for the configuration. -/
theorem clientOpen_running {s t : ClientLoop} {opened : Option Backend} {added : ℕ → Bool} {env : InitEnv}
    {notes : List ClientNote} (h : clientOpen C ctx s opened added env = some (t, notes)) : t.point = .head := by
  obtain ⟨tunnel, -, heq⟩ := Option.map_eq_some_iff.mp h
  dsimp only at heq
  split at heq
  · cases heq
    rfl
  · rw [← show _ = t from congrArg Prod.fst heq]
    exact (clientFirstHandshake_sameRest C ctx _ env).point

theorem clientStep_placed {s t : ClientLoop} {e : ClientEvent} {notes : List ClientNote} (hs : Placed s)
    (h : clientStep C ctx s e = some (t, notes)) : Placed t := by
  unfold clientStep at h
  cases e with
  | begin now env =>
    dsimp only at h
    split at h
    · rename_i hpoint
      have hsame := clientFirstHandshake_sameRest C ctx { s with now := now, point := .waiting now } env
      rw [Option.some.inj h] at hsame
      have hwaits : Waits s t := ⟨by rw [hsame.link]; exact .refl _, hsame.reconnectAt, Or.inl ⟨now, hsame.point⟩⟩
      exact hwaits.placed hpoint.2
    · cases h
  | wait env =>
    dsimp only at h
    split at h
    · rename_i since hpoint
      exact (clientWait_waits hpoint h).placed (hs.waiting since hpoint)
    · cases h
  | start now opened added env =>
    dsimp only at h
    split at h
    · exact placed_running (Or.inl (clientOpen_running h))
    · cases h
  | pass now =>
    dsimp only at h
    split at h
    · cases h
      exact placed_running (Or.inr rfl)
    · cases h
  | packet bytes o =>
    dsimp only at h
    split at h
    · rename_i hpoint
      cases h
      exact placed_running (Or.inr hpoint.1)
    · cases h
  | lost =>
    dsimp only at h
    split at h
    · rename_i hpoint
      cases h
      exact placed_running (Or.inr hpoint)
    · cases h
  | tun packet sent =>
    dsimp only at h
    split at h
    · rename_i hpoint
      cases h
      exact placed_running (Or.inr ((clientHandleTunPacket_sameRest s packet sent).point.trans hpoint))
    · cases h
  | tick env =>
    dsimp only at h
    split at h
    · cases h
      exact placed_running (Or.inl rfl)
    · cases h

theorem clientLoopMachine_next {s t : ClientLoop} {e : ClientEvent} (h : (clientLoopMachine C ctx).next s e = some t) :
    clientStep C ctx s e = some (t, clientNotes C ctx s e) := by
  obtain ⟨⟨u, notes⟩, hstep, rfl⟩ := Option.map_eq_some_iff.mp h
  rw [clientNotes, hstep]
  rfl

theorem placed_reachable {s : ClientLoop} (h : (clientLoopMachine C ctx).Reachable s) : Placed s := by
  refine h.invariant ?_ fun s e t hs _ hstep => clientStep_placed hs (clientLoopMachine_next hstep)
  rintro s ⟨config, now, rfl⟩
  exact ⟨fun _ => rfl, nofun, nofun⟩

/-- **What every move preserves holds in every run**, of the state and of what was noted so far. -/
theorem clientMoves_invariant {I : ClientLoop → List ClientNote → Prop} (h0 : ∀ config now, I (clientInit config now) [])
    (hI : ∀ s log notes t, I s log → ClientMove C ctx s notes t → I t (log ++ notes)) {s : ClientLoop}
    {log : List ClientNote} (h : (clientLogged C ctx).Reachable (s, log)) : I s log := by
  have hmoves : ∀ s notes t, ClientMoves C ctx s notes t → ∀ log, I s log → I t (log ++ notes) := by
    intro s notes t hmoves
    induction hmoves with
    | nil s =>
      intro log hs
      rwa [List.append_nil]
    | cons hmove _ ih =>
      intro log hs
      rw [← List.append_assoc]
      exact ih _ (hI _ _ _ _ hs hmove)
  refine h.logged_invariant ?_ ?_
  · rintro s ⟨config, now, rfl⟩
    exact h0 config now
  · intro s log e t hreach hs _ hnext
    exact hmoves _ _ _ (clientStep_moves (placed_reachable hreach) (clientLoopMachine_next hnext)) log hs

end Camex
