import Camex.ClientTunnel
import Camex.PacketMemory

/-!
# A client's packets (`client.c`)

`clientHandleNetPacket` is `client_handle_net_packet`: a RESP ends the handshake under way and starts a session, DATA
is opened on the current session or, for a while, on the one before. In the namespace `Raw` the same on memory, with
the arrays `payload`, `message`, `ka` and `plain`.

* `Raw.clientHandleResp_eq`, `Raw.clientHandleNetPacket_eq`: no packet makes the client leave one of its arrays, and
  it does what the function on lists says.
-/

namespace Camex

open Lib

/-- `client_state_t` with `current_config`, the tunnel and `reconnect_backoff`. -/
structure Client where
  hs : NoiseHs
  hsPending : Bool
  hsIndex : BitVec 32
  cur : Session
  prev : Session
  prevUntil : Time
  lastRecv : Time
  lastKeepalive : Time
  configReceived : Bool
  established : Bool
  confirmPending : Bool
  reconnectBackoff : ℕ
  link : ClientTunnel

/-- What became of a packet from the server. -/
inductive ClientOutcome
  | refused
  /-- A session, with the keepalive that confirms it. -/
  | connected (ka : Option Bytes)
  | keepalive
  /-- To the tunnel device. -/
  | tun (packet : Bytes)
  deriving DecidableEq

/-! ## RESP -/

/-- The CONFIG of an auto client: the first one is taken over, a later one is applied to the tunnel. -/
def clientTakeConfig (c : Client) (o : Outcome) (payload : Bytes) : Option Client :=
  if !c.link.current.autoConfig then some c
  else if !c.configReceived then
    (clientApplyConfigResponse payload c.link.current).map fun config =>
      { c with configReceived := true, link := { c.link with current := config } }
  else some { c with link := (clientCheckConfigChange payload o c.link).2 }

/-- The new session; the old one keeps receiving for a while. -/
def clientStartSession (c : Client) (serverIndex : BitVec 32) (keys : Key × Key) (now : Time) : Client :=
  { c with
    hs := .zero
    hsPending := false
    prev := if c.cur.valid then c.cur else .wiped
    prevUntil := if c.cur.valid then now + V2_PREV_SESSION_GRACE else c.prevUntil
    cur := sessionInit c.hsIndex serverIndex keys.1 keys.2 now
    lastRecv := now
    established := true
    confirmPending := true
    reconnectBackoff := 0 }

section

variable (C : Crypto)

def clientHandleResp (c : Client) (o : Outcome) (now : Time) (pkt : Bytes) : Client × ClientOutcome :=
  if !c.hsPending ∨ v2ReadU32 pkt 9 ≠ c.hsIndex then (c, .refused)
  else
    match succeeded (noiseReadMsg2 C.prims c.hs (pkt.drop V2_RESP_HDR) (CAMEX_CONTROL_MAX - 1)) with
    | none => (c, .refused)
    | some (payload, hs) =>
      match clientTakeConfig c o payload with
      | none => (c, .refused)
      | some c =>
        let c := clientStartSession c (v2ReadU32 pkt 5) (noiseSplit C.prims hs) now
        match sessionSeal C.noise c.cur [] V2_OVERHEAD with
        | none => (c, .connected none)
        | some (ka, cur) => ({ c with cur := cur, lastKeepalive := now }, .connected (some ka))

/-! ## DATA -/

/-- The session a DATA packet names; `true`: the one before. -/
def clientSession (c : Client) (idx : BitVec 32) (now : Time) : Option Bool :=
  if c.cur.valid && idx == c.cur.localIndex then some false
  else if c.prev.valid && idx == c.prev.localIndex && decide (now ≤ c.prevUntil) then some true
  else none

/-- The client once a packet on its session is authenticated. -/
def clientReceived (c : Client) (onPrev : Bool) (x : Session) (now : Time) : Client :=
  let c := if onPrev then { c with prev := x } else { c with cur := x, confirmPending := false }
  { c with lastRecv := now, reconnectBackoff := 0 }

def clientHandleNetPacket (c : Client) (o : Outcome) (now : Time) (pkt : Bytes) : Client × ClientOutcome :=
  let type := v2PacketType pkt
  if type = V2_TYPE_RESP then clientHandleResp C c o now pkt
  else if type ≠ V2_TYPE_DATA then (c, .refused)
  else
    match clientSession c (v2DataReceiver pkt) now with
    | none => (c, .refused)
    | some onPrev =>
      match sessionOpen C.noise (if onPrev then c.prev else c.cur) pkt TUN_PACKET_MAX with
      | none => (c, .refused)
      | some (plain, x) => (clientReceived c onPrev x now, if plain = [] then .keepalive else .tun plain)

end

/-! ## In memory -/

namespace Raw

variable {k : ℕ}

/-- The copy of a payload in `message`, with a NUL behind, as a string. -/
def controlMessage (payload : Area k) (payloadLen : ℕ) : Checked CStr := do
  let text ← payload.read 0 payloadLen
  let message ← (Area.fresh CAMEX_CONTROL_MAX).write 0 text
  let message ← message.write payloadLen [0]
  message.string

def clientApplyConfigResponse (payload : Area k) (payloadLen : ℕ) (config : CamexConfig) :
    Checked (Option CamexConfig) :=
  if CAMEX_CONTROL_MAX ≤ payloadLen then return none
  else do
    let message ← controlMessage payload payloadLen
    return (protoParseConfig message config).map fun config =>
      match parseLocalCidr config.localCidr with
      | some (localIp, _) => { config with localIp := store 16 localIp }
      | none => config

def clientCheckConfigChange (payload : Area k) (len : ℕ) (o : Outcome) (s : ClientTunnel) :
    Checked (Option Bool × ClientTunnel) :=
  if CAMEX_CONTROL_MAX ≤ len then return (none, s)
  else do
    let message ← controlMessage payload len
    match protoParseConfig message s.current with
    | none => return (none, s)
    | some probe =>
      if s.pending = true ∨ probe.localCidr ≠ s.current.localCidr ∨ probe.gatewayIp ≠ s.current.gatewayIp ∨
          probe.mtu ≠ s.current.mtu ∨ probe.routeCount ≠ s.current.routeCount ∨
          probe.routeCidrs ≠ s.current.routeCidrs then
        let (rc, s) := camexClientReconfigure o s probe
        return (some rc, s)
      else return (none, s)

def clientTakeConfig (c : Client) (o : Outcome) (payload : Area k) (payloadLen : ℕ) : Checked (Option Client) :=
  if !c.link.current.autoConfig then return some c
  else if !c.configReceived then do
    let config ← clientApplyConfigResponse payload payloadLen c.link.current
    return config.map fun config => { c with configReceived := true, link := { c.link with current := config } }
  else do
    let (_, link) ← clientCheckConfigChange payload payloadLen o c.link
    return some { c with link := link }

variable (C : Crypto)

def clientHandleResp (c : Client) (o : Outcome) (now : Time) (buffer : Slice) (len : ℕ) :
    Checked (Client × ClientOutcome) := do
  let serverIndex ← v2ReadU32 (buffer.add 5)
  if !c.hsPending then return (c, .refused)
  else do
    let clientIndex ← v2ReadU32 (buffer.add 9)
    if clientIndex ≠ c.hsIndex then return (c, .refused)
    else do
      let msgLen ← sizeSub len V2_RESP_HDR
      let opened ← noiseReadMsg2 C c.hs (buffer.add V2_RESP_HDR) msgLen (Area.fresh CAMEX_CONTROL_MAX)
        (CAMEX_CONTROL_MAX - 1)
      match opened with
      | none => return (c, .refused)
      | some (payload, payloadLen, hs) => do
        let taken ← clientTakeConfig c o payload payloadLen
        match taken with
        | none => return (c, .refused)
        | some c => do
          let c := clientStartSession c serverIndex (noiseSplit C.prims hs) now
          let sealed ← sessionSeal C c.cur (.start []) 0 (Area.fresh V2_OVERHEAD) V2_OVERHEAD
          match sealed with
          | none => return (c, .connected none)
          | some (ka, kaLen, cur) => do
            let ka ← ka.read 0 kaLen
            return ({ c with cur := cur, lastKeepalive := now }, .connected (some ka))

def clientHandleNetPacket (c : Client) (o : Outcome) (now : Time) (buffer : Slice) (len : ℕ) :
    Checked (Client × ClientOutcome) := do
  let type ← v2PacketType buffer len
  if type = V2_TYPE_RESP then clientHandleResp C c o now buffer len
  else if type ≠ V2_TYPE_DATA then return (c, .refused)
  else do
    let idx ← v2DataReceiver buffer
    match clientSession c idx now with
    | none => return (c, .refused)
    | some onPrev => do
      let opened ← sessionOpen C (if onPrev then c.prev else c.cur) buffer len (Area.fresh TUN_PACKET_MAX) TUN_PACKET_MAX
      match opened with
      | none => return (c, .refused)
      | some (plain, plainLen, x) => do
        let c := clientReceived c onPrev x now
        if plainLen = 0 then return (c, .keepalive)
        else return (c, .tun (← plain.read 0 plainLen))

section

variable {C} {payload : Area k} {buffer : Slice} {bytes pkt : Bytes}

/-- The text of a payload and its NUL fit `message`. -/
theorem controlMessage_eq (hpayload : payload.Holds bytes) (hlen : bytes.length < CAMEX_CONTROL_MAX) :
    controlMessage payload bytes.length = .ok (untilNul bytes) := by
  refine Safe.eq ?_
  unfold controlMessage
  refine .bind_ok hpayload.read_all ?_
  refine .bind (Area.write_start _ (by omega)) fun message hmessage => ?_
  refine .bind (hmessage.write rfl [0] (by rw [List.length_singleton]; omega)) fun message hmessage => ?_
  exact .of_eq hmessage.string rfl

theorem protoParseConfig_untilNul (bytes : Bytes) (config : CamexConfig) :
    protoParseConfig (untilNul bytes) config = protoParseConfig bytes config := by
  have hidem : untilNul (untilNul bytes) = untilNul bytes := List.takeWhile_idem
  unfold protoParseConfig
  rw [hidem]

theorem clientApplyConfigResponse_eq (hpayload : payload.Holds bytes) (config : CamexConfig) :
    clientApplyConfigResponse payload bytes.length config = .ok (Camex.clientApplyConfigResponse bytes config) := by
  refine Safe.eq ?_
  unfold clientApplyConfigResponse Camex.clientApplyConfigResponse
  refine .ite (fun hlong => ?_) fun hfits => ?_
  · rw [if_pos hlong]
    exact .pure rfl
  rw [if_neg hfits]
  refine .bind_ok (controlMessage_eq hpayload (not_le.mp hfits)) (.pure ?_)
  rewrite [protoParseConfig_untilNul]
  rfl

theorem clientCheckConfigChange_eq (hpayload : payload.Holds bytes) (o : Outcome) (t : ClientTunnel) :
    clientCheckConfigChange payload bytes.length o t = .ok (Camex.clientCheckConfigChange bytes o t) := by
  refine Safe.eq ?_
  unfold clientCheckConfigChange Camex.clientCheckConfigChange
  refine .ite (fun hlong => ?_) fun hfits => ?_
  · rw [if_pos hlong]
    exact .pure rfl
  rw [if_neg hfits]
  refine .bind_ok (controlMessage_eq hpayload (not_le.mp hfits)) ?_
  rw [protoParseConfig_untilNul]
  cases protoParseConfig bytes t.current with
  | none => exact .pure rfl
  | some probe =>
    dsimp only
    refine .ite (fun hchanged => ?_) fun hsame => ?_
    · rw [if_pos hchanged]
      exact .pure rfl
    · rw [if_neg hsame]
      exact .pure rfl

theorem clientTakeConfig_eq (c : Client) (o : Outcome) (hpayload : payload.Holds bytes) :
    clientTakeConfig c o payload bytes.length = .ok (Camex.clientTakeConfig c o bytes) := by
  refine Safe.eq ?_
  unfold clientTakeConfig Camex.clientTakeConfig
  refine .ite (fun hmanual => ?_) fun hauto => ?_
  · rw [if_pos hmanual]
    exact .pure rfl
  rw [if_neg hauto]
  refine .ite (fun hfirst => ?_) fun hlater => ?_
  · rw [if_pos hfirst]
    exact .bind_ok (clientApplyConfigResponse_eq hpayload _) (.pure rfl)
  · rw [if_neg hlater]
    exact .bind_ok (clientCheckConfigChange_eq hpayload o _) (.pure rfl)

/-- **A RESP** stays inside the client's arrays. -/
theorem clientHandleResp_eq (c : Client) (o : Outcome) (now : Time) (hbuffer : buffer.Has pkt)
    (hlen : V2_RESP_HDR ≤ pkt.length) :
    clientHandleResp C c o now buffer pkt.length = .ok (Camex.clientHandleResp C c o now pkt) := by
  have hhdr : V2_RESP_HDR = 13 := rfl
  refine Safe.eq ?_
  unfold clientHandleResp Camex.clientHandleResp
  refine .bind_ok (v2ReadU32_eq hbuffer (by omega)) ?_
  refine .ite (fun hidle => ?_) fun hpending => ?_
  · rw [if_pos (Or.inl hidle)]
    exact .pure rfl
  refine .bind_ok (v2ReadU32_eq hbuffer (by omega)) ?_
  refine .ite (fun hother => ?_) fun hours => ?_
  · rw [if_pos (Or.inr hother)]
    exact .pure rfl
  rw [if_neg (not_or.mpr ⟨hpending, hours⟩)]
  have hmsg : (pkt.drop V2_RESP_HDR).length = pkt.length - V2_RESP_HDR := List.length_drop
  have hopen := noiseReadMsg2_safe (C := C) c.hs (hbuffer.add hlen) (Area.fresh CAMEX_CONTROL_MAX)
    (Nat.sub_le CAMEX_CONTROL_MAX 1)
  rw [hmsg] at hopen
  generalize succeeded (Camex.noiseReadMsg2 C.prims c.hs (pkt.drop V2_RESP_HDR) (CAMEX_CONTROL_MAX - 1)) = expected
    at hopen ⊢
  refine .bind_ok (sizeSub_eq hlen) ?_
  refine .bind hopen fun opened hopened => ?_
  cases hopened with
  | none => exact .pure rfl
  | @some x y h =>
    obtain ⟨payload, payloadLen, hs⟩ := x
    obtain ⟨bytes, hs'⟩ := y
    obtain ⟨hheld, hlen, -, hstate⟩ := h
    obtain rfl : hs = hs' := hstate
    obtain rfl : payloadLen = bytes.length := hlen
    refine .bind_ok (clientTakeConfig_eq c o hheld) ?_
    dsimp only
    cases Camex.clientTakeConfig c o bytes with
    | none => exact .pure rfl
    | some c =>
      dsimp only
      generalize clientStartSession c (Camex.v2ReadU32 pkt 5) (noiseSplit C.prims hs) now = c
      have hseal := sessionSeal_safe (C := C) c.cur (Slice.has_start []) (Area.fresh V2_OVERHEAD) le_rfl
      rw [List.length_nil] at hseal
      generalize Camex.sessionSeal C.noise c.cur [] V2_OVERHEAD = expected at hseal ⊢
      refine .bind hseal fun sealed hsealed => ?_
      cases hsealed with
      | none => exact .pure rfl
      | @some x y h =>
        obtain ⟨ka, kaLen, cur⟩ := x
        obtain ⟨sent, cur'⟩ := y
        obtain ⟨hka, hlen, -, hstate⟩ := h
        obtain rfl : cur = cur' := hstate
        obtain rfl : kaLen = sent.length := hlen
        exact .bind_ok hka.read_all (.pure rfl)

/-- **No packet** makes the client leave an array or a length go below zero. -/
theorem clientHandleNetPacket_eq (c : Client) (o : Outcome) (now : Time) (hbuffer : buffer.Has pkt) :
    clientHandleNetPacket C c o now buffer pkt.length = .ok (Camex.clientHandleNetPacket C c o now pkt) := by
  have hoverhead : V2_OVERHEAD = 33 := rfl
  refine Safe.eq ?_
  unfold clientHandleNetPacket Camex.clientHandleNetPacket
  dsimp only
  refine .bind_ok (v2PacketType_eq hbuffer) ?_
  refine .ite (fun hresp => ?_) fun hno => ?_
  · rw [if_pos hresp]
    have hlen := v2PacketType_resp hresp
    exact .of_eq (clientHandleResp_eq c o now hbuffer (by omega)) rfl
  rw [if_neg hno]
  refine .ite (fun hother => ?_) fun hdata => ?_
  · rw [if_pos hother]
    exact .pure rfl
  rw [if_neg hdata]
  have hlen := v2PacketType_data (not_not.mp hdata)
  refine .bind_ok (v2ReadU32_eq hbuffer (by omega)) ?_
  rw [show Camex.v2ReadU32 pkt 5 = Camex.v2DataReceiver pkt from rfl]
  cases clientSession c (Camex.v2DataReceiver pkt) now with
  | none => exact .pure rfl
  | some onPrev =>
    dsimp only
    generalize (if onPrev then c.prev else c.cur) = x
    have hopen := sessionOpen_safe (C := C) x hbuffer (Area.fresh TUN_PACKET_MAX) le_rfl
    generalize Camex.sessionOpen C.noise x pkt TUN_PACKET_MAX = expected at hopen ⊢
    refine .bind hopen fun opened hopened => ?_
    cases hopened with
    | none => exact .pure rfl
    | @some x y h =>
      obtain ⟨plain, plainLen, x⟩ := x
      obtain ⟨bytes, x'⟩ := y
      obtain ⟨hheld, hlen, -, hstate⟩ := h
      obtain rfl : x = x' := hstate
      obtain rfl : plainLen = bytes.length := hlen
      dsimp only
      refine .ite (fun hempty => ?_) fun hsome => ?_
      · rw [if_pos (List.length_eq_zero_iff.mp hempty)]
        exact .pure rfl
      · rw [if_neg fun h => hsome (List.length_eq_zero_iff.mpr h)]
        exact .bind_ok hheld.read_all (.pure rfl)

end

end Raw

end Camex
