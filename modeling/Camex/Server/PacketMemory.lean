import Camex.PacketMemory
import Camex.Server.Data

/-!
# The server's packets in memory (`server.c`)

`server_handle_packet` with the arrays it uses: `payload` and `message` for what an INIT holds, `reply` and `resp` for
its answer, `plain`, `ka` and `out` for DATA packets.

* `Raw.initAuthenticate_safe`, `Raw.initMessage2_safe`, `Raw.serverHandleInit_safe`;
* `Raw.serverHandleData_safe`;
* `Raw.serverHandlePacket_safe`: no packet makes the server leave one of its arrays.
-/

namespace Camex.Raw

open Lib

variable {n : ℕ} (C : Crypto)

/-! ## What an INIT holds -/

/-- `sizeof(payload)`. -/
abbrev INIT_PAYLOAD_SIZE : ℕ := V2_TIMESTAMP_LEN + CAMEX_CONTROL_MAX

/-- The REGISTER behind a payload of message 1: its text goes into `message`, with a NUL behind. -/
def readRegister (db : ServerDb) (ks : Keystore) (key : Key) (payload : Area INIT_PAYLOAD_SIZE) (payloadLen : ℕ) :
    Checked (Option Register) :=
  if payloadLen < V2_TIMESTAMP_LEN then return none
  else do
    let textLen ← sizeSub payloadLen V2_TIMESTAMP_LEN
    let text ← payload.read V2_TIMESTAMP_LEN textLen
    let message ← (Area.fresh CAMEX_CONTROL_MAX).write 0 text
    let message ← message.write textLen [0]
    let message ← message.string
    let ts ← payload.read 0 V2_TIMESTAMP_LEN
    match protoParseRegister message with
    | none => return none
    | some text =>
      match serverRegisterAllowed db ks key text.clientId text.localIp text.autoRequest with
      | none => return none
      | some clientId => return some ⟨key, readTimestamp ts, clientId, text.localIp, text.autoRequest⟩

def keyTrials (ks : Keystore) (own : Option ℕ) (now : Time) (fresh : Bool → Option (BitVec 128)) (a : Ip)
    (base : NoiseHs) (es : Key) (buffer : Slice) (len : ℕ) (payload : Area INIT_PAYLOAD_SIZE) :
    List ℕ → Budget → Source n → Checked (Budget × Option (Key × Area INIT_PAYLOAD_SIZE × ℕ × NoiseHs))
  | [], b, _ => return (b, none)
  | i :: is, b, src =>
    match ks.entries[i]? with
    | none => return (b, none)
    | some e =>
      if e.locked then keyTrials ks own now fresh a base es buffer len payload is b src
      else
        let (b, src, ok) := trialBudget C.noise ks own now fresh a i e b src
        if !ok then return (b, none)
        else do
          let msgLen ← sizeSub len V2_INIT_HDR
          let opened ← noiseReadMsg1 C base e.pskKey es (buffer.add V2_INIT_HDR) msgLen payload (INIT_PAYLOAD_SIZE - 1)
          match opened with
          | some (payload, payloadLen, hs) => return (b, some (e.pskKey, payload, payloadLen, hs))
          | none => keyTrials ks own now fresh a base es buffer len payload is b src

/-- `server_handle_init` up to `server_entry_for`; the mac is behind the first `len - V2_MAC_LEN` bytes. -/
def initAuthenticate (s : Server n) (env : PacketEnv) (buffer : Slice) (len : ℕ) (src : SockAddr) :
    Checked (Server n × Option (Register × NoiseHs)) :=
  let ctx := s.conf.ctx
  let ks := s.conf.ks
  if !ctx.hasServerKey then return (s, none)
  else do
    let len ← sizeSub len V2_MAC_LEN
    let covered ← buffer.read len
    let mac ← (Area.fresh V2_MAC_LEN).write 0 (C.mac1 ctx.serverPub covered).val
    let mac ← mac.read 0 V2_MAC_LEN
    let got ← (buffer.add len).read V2_MAC_LEN
    if mac ≠ got then return (s, none)
    else
      let (s, source) := serverSourceFor s src
      let (b, source, ok) := serverHandshakeBudget C.noise s.budget s.now env.shareKey src.ip source
      let s := { s with budget := b }
      if !ok then return (s, none)
      else do
        let msgLen ← sizeSub len V2_INIT_HDR
        let es ← noiseMsg1Es C (initBase C.noise ctx) (buffer.add V2_INIT_HDR) msgLen
        match es with
        | none => return (s, none)
        | some es => do
          let own := source.known.bind fun i => configKsFind ks (s.clients i).pskKey
          let (b, opened) ← keyTrials C ks own s.now env.shareKey src.ip (initBase C.noise ctx) es buffer len
            (Area.fresh INIT_PAYLOAD_SIZE) (trialOrder ks own) s.budget source
          let s := { s with budget := b }
          match opened with
          | none => return (s, none)
          | some (key, payload, payloadLen, hs) => do
            let register ← readRegister s.conf.db ks key payload payloadLen
            match register with
            | none => return (s, none)
            | some r =>
              match initCheck s r with
              | (s, true) => return (s, some (r, hs))
              | (s, false) => return (s, none)

section

variable {C} {payload : Area INIT_PAYLOAD_SIZE} {buffer : Slice} {bytes pkt : Bytes}

/-- The text of a payload and its NUL fit `message`. -/
theorem readRegister_eq (db : ServerDb) (ks : Keystore) (key : Key) (hpayload : payload.Holds bytes)
    (hlen : bytes.length ≤ INIT_PAYLOAD_SIZE - 1) :
    readRegister db ks key payload bytes.length = .ok (Camex.readRegister db ks key bytes) := by
  have hcontrol : CAMEX_CONTROL_MAX = 1024 := rfl
  have hts : V2_TIMESTAMP_LEN = 12 := rfl
  unfold INIT_PAYLOAD_SIZE at hlen
  refine Safe.eq ?_
  unfold readRegister Camex.readRegister
  refine .ite (fun hshort => ?_) fun hshort => ?_
  · rw [if_pos hshort]
    exact .pure rfl
  rw [if_neg hshort]
  have hdrop : (bytes.drop V2_TIMESTAMP_LEN).length = bytes.length - V2_TIMESTAMP_LEN := List.length_drop
  have htext : payload.read V2_TIMESTAMP_LEN (bytes.length - V2_TIMESTAMP_LEN) = .ok (bytes.drop V2_TIMESTAMP_LEN) := by
    rw [hpayload.read (by omega), List.take_of_length_le (by omega)]
  refine .bind_ok (sizeSub_eq (by omega)) ?_
  refine .bind_ok htext ?_
  refine .bind (Area.write_start _ (by omega)) fun message hmessage => ?_
  refine .bind (hmessage.write hdrop [0] (by rw [List.length_singleton]; omega)) fun message hmessage => ?_
  refine .bind_ok hmessage.string ?_
  refine .bind_ok (hpayload.read (by omega)) ?_
  have hread : readTimestamp ((bytes.drop 0).take V2_TIMESTAMP_LEN) = readTimestamp bytes := by
    unfold readTimestamp
    rw [List.drop_zero, List.take_take]
    rfl
  have huntil : untilNul (bytes.drop V2_TIMESTAMP_LEN) = beforeByte 0 (bytes.drop V2_TIMESTAMP_LEN) := rfl
  rw [hread, huntil]
  cases protoParseRegister (beforeByte 0 (bytes.drop V2_TIMESTAMP_LEN)) with
  | none => exact .pure rfl
  | some text =>
    dsimp only
    cases serverRegisterAllowed db ks key text.clientId text.localIp text.autoRequest with
    | none => exact .pure rfl
    | some clientId => exact .pure rfl

/-- A key trial with its payload: the key, and what the array holds. -/
def Opened (x : Key × Area INIT_PAYLOAD_SIZE × ℕ × NoiseHs) (y : Key × Bytes × NoiseHs) : Prop :=
  x.1 = y.1 ∧ Received (INIT_PAYLOAD_SIZE - 1) x.2 y.2

theorem keyTrials_safe (ks : Keystore) (own : Option ℕ) (now : Time) (fresh : Bool → Option (BitVec 128)) (a : Ip)
    (base : NoiseHs) (es : Key) (hbuffer : buffer.Has bytes) (hlen : V2_INIT_HDR ≤ bytes.length)
    (payload : Area INIT_PAYLOAD_SIZE) (is : List ℕ) (b : Budget) (src : Source n) :
    Safe (keyTrials C ks own now fresh a base es buffer bytes.length payload is b src) fun r =>
      r.1 = (Camex.keyTrials C.noise ks own now fresh a base es (bytes.drop V2_INIT_HDR) is b src).1 ∧
        Option.Rel Opened r.2 (Camex.keyTrials C.noise ks own now fresh a base es (bytes.drop V2_INIT_HDR) is b src).2 := by
  induction is generalizing b src with
  | nil => exact .pure ⟨rfl, .none⟩
  | cons i is ih =>
    unfold keyTrials Camex.keyTrials
    cases ks.entries[i]? with
    | none => exact .pure ⟨rfl, .none⟩
    | some e =>
      dsimp only
      refine .ite (fun hlocked => ?_) fun hlocked => ?_
      · rw [if_pos hlocked]
        exact ih b src
      rw [if_neg hlocked]
      generalize trialBudget C.noise ks own now fresh a i e b src = budget
      obtain ⟨b, src, ok⟩ := budget
      dsimp only
      refine .ite (fun hok => ?_) fun hok => ?_
      · rw [if_pos hok]
        exact .pure ⟨rfl, .none⟩
      rw [if_neg hok]
      have hmsg : (bytes.drop V2_INIT_HDR).length = bytes.length - V2_INIT_HDR := List.length_drop
      have hopen := noiseReadMsg1_safe (C := C) base e.pskKey es (hbuffer.add hlen) payload (Nat.sub_le INIT_PAYLOAD_SIZE 1)
      rw [hmsg] at hopen
      have hsize : INIT_PAYLOAD_MAX = INIT_PAYLOAD_SIZE - 1 := rfl
      rw [hsize]
      generalize C.noise.readMsg1 base e.pskKey es (bytes.drop V2_INIT_HDR) (INIT_PAYLOAD_SIZE - 1) = expected at hopen ⊢
      refine .bind_ok (sizeSub_eq hlen) ?_
      refine .bind hopen fun opened hopened => ?_
      cases hopened with
      | none => exact ih b src
      | some h => exact .pure ⟨rfl, .some ⟨rfl, h⟩⟩

/-- Every length an INIT is cut at is one `v2_packet_type` has checked. -/
theorem initAuthenticate_eq (s : Server n) (env : PacketEnv) (hbuffer : buffer.Has pkt)
    (hlen : V2_INIT_HDR + V2_MAC_LEN ≤ pkt.length) (src : SockAddr) :
    initAuthenticate C s env buffer pkt.length src = .ok (Camex.initAuthenticate C.noise s env pkt src) := by
  have hmaclen : V2_MAC_LEN = 16 := rfl
  have hhdr : V2_INIT_HDR = 9 := rfl
  refine Safe.eq ?_
  unfold initAuthenticate Camex.initAuthenticate
  dsimp only
  refine .ite (fun hkey => ?_) fun hkey => ?_
  · rw [hkey, Bool.true_or, if_pos rfl]
    exact .pure rfl
  rw [Bool.not_eq_true] at hkey
  rw [hkey, Bool.false_or]
  have htake : (pkt.take (pkt.length - V2_MAC_LEN)).length = pkt.length - V2_MAC_LEN := by
    rw [List.length_take]
    omega
  have hgot : (buffer.add (pkt.length - V2_MAC_LEN)).read V2_MAC_LEN = .ok (pkt.drop (pkt.length - V2_MAC_LEN)) := by
    rw [hbuffer.read_at (by omega), List.take_of_length_le (by rw [List.length_drop]; omega)]
  refine .bind_ok (sizeSub_eq (by omega)) ?_
  refine .bind_ok (hbuffer.read (by omega)) ?_
  have hmac := (C.mac1 s.conf.ctx.serverPub (pkt.take (pkt.length - V2_MAC_LEN))).property
  refine .bind (Area.write_start _ (le_of_eq hmac)) fun mac hheld => ?_
  have hread := hheld.read_all
  rw [hmac] at hread
  refine .bind_ok hread ?_
  refine .bind_ok hgot ?_
  have hmacOk : initMacOk C.noise s.conf.ctx pkt =
      ((C.mac1 s.conf.ctx.serverPub (pkt.take (pkt.length - V2_MAC_LEN))).val == pkt.drop (pkt.length - V2_MAC_LEN)) := rfl
  rw [hmacOk]
  refine .ite (fun hbad => ?_) fun hgood => ?_
  · rw [beq_false_of_ne hbad, Bool.not_false, if_pos rfl]
    exact .pure rfl
  rw [not_not] at hgood
  rw [hgood, beq_self_eq_true, Bool.not_true, if_neg Bool.false_ne_true]
  generalize serverSourceFor s src = x
  obtain ⟨s₁, source⟩ := x
  dsimp only
  generalize serverHandshakeBudget C.noise s₁.budget s₁.now env.shareKey src.ip source = x
  obtain ⟨budget, source, ok⟩ := x
  dsimp only
  refine .ite (fun hok => ?_) fun hok => ?_
  · rw [if_pos hok]
    exact .pure rfl
  rw [if_neg hok]
  -- message 1 is what is left between the header and the mac
  have hcovered := hbuffer.take (pkt.length - V2_MAC_LEN)
  have hmsg : (initMessage1 pkt).length = pkt.length - V2_MAC_LEN - V2_INIT_HDR := by
    unfold initMessage1
    rw [List.length_drop, htake]
  have hmessage1 : (buffer.add V2_INIT_HDR).Has (initMessage1 pkt) := hcovered.add (by omega)
  have hes := noiseMsg1Es_eq (C := C) (initBase C.noise s.conf.ctx) hmessage1
  rw [hmsg] at hes
  refine .bind_ok (sizeSub_eq (by omega)) ?_
  refine .bind_ok hes ?_
  have hmsg1Es : C.noise.msg1Es = Camex.noiseMsg1Es C.prims := rfl
  rw [hmsg1Es]
  cases Camex.noiseMsg1Es C.prims (initBase C.noise s.conf.ctx) (initMessage1 pkt) with
  | none => exact .pure rfl
  | some es =>
    dsimp only
    generalize source.known.bind (fun i => configKsFind s.conf.ks (s₁.clients i).pskKey) = own
    have htrials := keyTrials_safe (C := C) s.conf.ks own s₁.now env.shareKey src.ip (initBase C.noise s.conf.ctx) es
      hcovered (by omega) (Area.fresh INIT_PAYLOAD_SIZE) (trialOrder s.conf.ks own) budget source
    rw [htake, show (pkt.take (pkt.length - V2_MAC_LEN)).drop V2_INIT_HDR = initMessage1 pkt from rfl] at htrials
    refine .bind htrials fun tried htried => ?_
    generalize Camex.keyTrials C.noise s.conf.ks own s₁.now env.shareKey src.ip (initBase C.noise s.conf.ctx) es
      (initMessage1 pkt) (trialOrder s.conf.ks own) budget source = expected at htried ⊢
    obtain ⟨budget', opened⟩ := tried
    obtain ⟨budget'', expected⟩ := expected
    obtain ⟨hbudget, hopened⟩ := htried
    obtain rfl : budget' = budget'' := hbudget
    dsimp only at hopened ⊢
    cases hopened with
    | none => exact .pure rfl
    | @some x y h =>
      obtain ⟨key, payload, payloadLen, hs⟩ := x
      obtain ⟨key', bytes, hs'⟩ := y
      obtain ⟨hkey', hheld, hlength, hfits, hstate⟩ := h
      obtain rfl : key = key' := hkey'
      obtain rfl : hs = hs' := hstate
      obtain rfl : payloadLen = bytes.length := hlength
      refine .bind_ok (readRegister_eq _ _ _ hheld hfits) ?_
      dsimp only
      cases Camex.readRegister s₁.conf.db s.conf.ks key bytes with
      | none => exact .pure rfl
      | some r =>
        dsimp only
        generalize initCheck _ r = checked
        obtain ⟨s₂, passed⟩ := checked
        cases passed <;> exact .pure rfl

end

/-! ## The answer of an INIT -/

variable {k : ℕ}

/-- `append_control_field`: what `vsnprintf` leaves at the offset, and the offset behind the field, `none` for -1. -/
def appendControlField (buffer : Area k) (size offset : ℕ) (field : CStr) : Checked (Area k × Option ℕ) :=
  if size ≤ offset then return (buffer, none)
  else do
    let room ← sizeSub size offset
    let buffer ← buffer.write offset (store room field ++ [0])
    return (buffer, if room ≤ field.length then none else some (offset + field.length))

def appendFields (size : ℕ) : List CStr → Area k → ℕ → Checked (Option (Area k))
  | [], buffer, _ => return some buffer
  | field :: fields, buffer, offset => do
    let (buffer, appended) ← appendControlField buffer size offset field
    match appended with
    | none => return none
    | some offset => appendFields size fields buffer offset

def protoBuildConfig (clientId : CStr) (profile : Profile) (buffer : Area k) (size : ℕ) : Checked (Option (Area k)) :=
  appendFields size (configFields clientId profile) buffer 0

def serverBuildConfig (s : Server n) (i : Fin n) (clientId hintIp : CStr) (message : Area CAMEX_CONTROL_MAX) :
    Checked (PoolCursor × ServerClient × Option (Area CAMEX_CONTROL_MAX)) :=
  let profile := configDbLookupProfile s.conf.db clientId
  if profile.localCidr = [] ∨ profile.gatewayIp = [] then
    if clientId = [] then return (s.pool, s.clients i, none)
    else
      let c := buildConfigSeed s i clientId hintIp
      match buildConfigIp (s.setClient i c) i clientId with
      | (pool, none) => return (pool, c, none)
      | (pool, some ip) => do
        let profile := { profile with
          localCidr := poolCidr s.conf.db ip, gatewayIp := ipText (poolGateway s.conf.db) }
        let message ← protoBuildConfig clientId profile message CAMEX_CONTROL_MAX
        return (pool, serverAssignIp c ip, message)
  else do
    let message ← protoBuildConfig clientId profile message CAMEX_CONTROL_MAX
    return (s.pool, s.clients i, message)

/-- The address and the answer of a handshake, `reply` a fresh array. -/
def initConfigure (s : Server n) (i : Fin n) (r : Register) :
    Checked (PoolCursor × ServerClient × Option (Area CAMEX_CONTROL_MAX)) :=
  let reply := Area.fresh CAMEX_CONTROL_MAX
  if r.auto then
    serverBuildConfig (s.setClient i (initProfileIp s.conf.db (s.clients i) r)) i r.clientId r.localIp reply
  else do
    let reply ← reply.write 0 (store CAMEX_CONTROL_MAX manualReply ++ [0])
    return (s.pool, { s.clients i with pendingIpBe := 0 }, some reply)

/-- Message 2 with its session keys, in `resp`. -/
def initMessage2 (env : PacketEnv) (c : ServerClient) (i : Fin n) (clientIndex : BitVec 32) (hs : NoiseHs)
    (reply : Area CAMEX_CONTROL_MAX) : Checked (Option Message2) :=
  match env.seed with
  | none => return none
  | some seed =>
    match serverNewIndex c i env.newIndex with
    | none => return none
    | some index => do
      let resp ← (Area.fresh (V2_RESP_HDR + RESP_MAX)).write 0 CAMEX_MAGIC
      let resp ← resp.write 4 [V2_TYPE_RESP]
      let resp ← resp.write 5 (v2WriteU32 index)
      let resp ← resp.write 9 (v2WriteU32 clientIndex)
      let text ← reply.string
      let room ← sizeSub (V2_RESP_HDR + RESP_MAX) V2_RESP_HDR
      let written ← noiseWriteMsg2 C hs seed (.start text) text.length resp V2_RESP_HDR room
      match written with
      | none => return none
      | some (resp, respLen, hs) => do
        let packet ← resp.read 0 (V2_RESP_HDR + respLen)
        return some ⟨index, packet, C.noise.split hs⟩

/-- The new session waits in `next` while there is a current one. -/
def initSession (c : ServerClient) (r : Register) (clientIndex : BitVec 32) (m : Message2) (now : Time) : ServerClient :=
  let session := sessionInit m.index clientIndex m.keys.2 m.keys.1 now
  let c := if c.cur.valid then { c with next := session } else { c with cur := session }
  { c with pskKey := r.key, hsTs := r.ts, registered := true }

/-- `server_handle_init` behind `server_entry_for`. -/
def initRegister (e : Entry n) (env : PacketEnv) (clientIndex : BitVec 32) (src : SockAddr) (fd : ℤ) (r : Register)
    (hs : NoiseHs) : Checked (Server n × InitOutcome n) := do
  let before := e.server.clients e.slot
  let now := e.server.now
  let (pool, c, reply) ← initConfigure (e.server.setClient e.slot (initClaim before r src fd now)) e.slot r
  match reply with
  | none => return (initFail e pool c .none, .failed e.slot e.fresh)
  | some reply => do
    let answered ← initMessage2 C env c e.slot clientIndex hs reply
    match answered with
    | none => return (initFail e pool c .none, .failed e.slot e.fresh)
    | some m => do
      let c' := initSession c r clientIndex m now
      let text ← reply.string
      if env.sent then return (initDone e pool c' r, .accepted e.slot e.fresh r text m.packet)
      else return (initFail e pool c' (savedSession c), .failed e.slot e.fresh)

def serverHandleInit (s : Server n) (env : PacketEnv) (buffer : Slice) (len : ℕ) (src : SockAddr) (fd : ℤ) :
    Checked (Server n × InitOutcome n) := do
  let clientIndex ← v2ReadU32 (buffer.add 5)
  let (s, authenticated) ← initAuthenticate C s env buffer len src
  match authenticated with
  | none => return (s, .refused)
  | some (r, hs) =>
    match serverEntryFor s r src fd env.grow with
    | none => return (s, .refused)
    | some e => initRegister C e env clientIndex src fd r hs

section

variable {C} {buffer : Slice} {pkt : Bytes}

def HoldsText (a : Area k) (text : CStr) : Prop := a.Holds (text ++ [0])

theorem appendFields_safe {size : ℕ} (hsize : size ≤ k) (fields : List CStr) {buffer : Area k} {text : CStr}
    (hbuffer : buffer.Holds text) :
    Safe (appendFields size fields buffer text.length) fun r =>
      Option.Rel (fun a t => a.Holds t ∧ (fields ≠ [] → HoldsText a t)) r
        (fields.foldl (Camex.appendControlField size) (some text)) := by
  induction fields generalizing buffer text with
  | nil => exact .pure (.some ⟨hbuffer, fun h => absurd rfl h⟩)
  | cons field fields ih =>
    have hnone : fields.foldl (Camex.appendControlField size) none = none := List.foldl_fixed' (fun _ => rfl) fields
    rw [List.foldl_cons]
    unfold appendFields appendControlField
    by_cases hfull : size ≤ text.length
    · rw [if_pos hfull, show Camex.appendControlField size (some text) field = none from if_pos (by omega), hnone]
      exact .pure .none
    rw [if_neg hfull, bind_assoc]
    refine .bind_ok (sizeSub_eq (by omega)) ?_
    have hstored : (store (size - text.length) field ++ [0]).length ≤ size - text.length := by
      unfold store
      rw [List.length_append, List.length_take, List.length_singleton]
      omega
    rw [bind_assoc]
    refine .bind (hbuffer.write rfl _ (by omega)) fun buffer hwritten => ?_
    rw [pure_bind]
    dsimp only
    by_cases hfits : size - text.length ≤ field.length
    · rw [if_pos hfits, show Camex.appendControlField size (some text) field = none from if_pos (by omega), hnone]
      exact .pure .none
    rw [if_neg hfits, show Camex.appendControlField size (some text) field = some (text ++ field) from if_neg (by omega),
      ← List.length_append]
    rw [store_of_lt (by omega), ← List.append_assoc] at hwritten
    cases fields with
    | nil => exact .pure (.some ⟨hwritten.of_append, fun _ => hwritten⟩)
    | cons f fields =>
      exact (ih hwritten.of_append).mono fun r hr => optionRel_imp hr fun a t h => ⟨h.1, fun _ => h.2 (by simp)⟩

theorem protoBuildConfig_safe (clientId : CStr) (profile : Profile) (buffer : Area k) {size : ℕ} (hsize : size ≤ k) :
    Safe (protoBuildConfig clientId profile buffer size) fun r =>
      Option.Rel HoldsText r (Camex.protoBuildConfig clientId profile size) := by
  have hne : configFields clientId profile ≠ [] := by simp [configFields]
  exact (appendFields_safe hsize _ buffer.holds_nil).mono fun r hr => optionRel_imp hr fun a t h => h.2 hne

def Configured (x : PoolCursor × ServerClient × Option (Area k)) (y : PoolCursor × ServerClient × Option CStr) : Prop :=
  x.1 = y.1 ∧ x.2.1 = y.2.1 ∧ Option.Rel HoldsText x.2.2 y.2.2

/-- The answer of an INIT and its NUL fit `reply`. -/
theorem initConfigure_safe (s : Server n) (i : Fin n) (r : Register) :
    Safe (initConfigure s i r) fun x => Configured x (Camex.initConfigure s i r) := by
  unfold initConfigure Camex.initConfigure
  dsimp only
  refine .ite (fun hauto => ?_) fun hauto => ?_
  · rw [if_pos hauto]
    generalize s.setClient i (initProfileIp s.conf.db (s.clients i) r) = s'
    unfold serverBuildConfig Camex.serverBuildConfig
    dsimp only
    refine .ite (fun hpool => ?_) fun hpool => ?_
    · rw [if_pos hpool]
      refine .ite (fun hid => ?_) fun hid => ?_
      · rw [if_pos hid]
        exact .pure ⟨rfl, rfl, .none⟩
      rw [if_neg hid]
      generalize buildConfigIp (s'.setClient i (buildConfigSeed s' i r.clientId r.localIp)) i r.clientId = taken
      obtain ⟨pool, ip⟩ := taken
      cases ip with
      | none => exact .pure ⟨rfl, rfl, .none⟩
      | some ip => exact .bind (protoBuildConfig_safe _ _ _ le_rfl) fun message h => .pure ⟨rfl, rfl, h⟩
    · rw [if_neg hpool]
      exact .bind (protoBuildConfig_safe _ _ _ le_rfl) fun message h => .pure ⟨rfl, rfl, h⟩
  · rw [if_neg hauto]
    have hstored : store CAMEX_CONTROL_MAX manualReply = manualReply := by decide
    have hlen : (manualReply ++ [0]).length ≤ CAMEX_CONTROL_MAX := by decide
    rw [hstored]
    exact .bind (Area.write_start _ hlen) fun reply h => .pure ⟨rfl, rfl, .some h⟩

theorem initMessage2_safe (env : PacketEnv) (c : ServerClient) (i : Fin n) (pkt : Bytes) (hs : NoiseHs)
    {reply : Area CAMEX_CONTROL_MAX} {text : CStr} (hreply : HoldsText reply text) :
    Safe (initMessage2 C env c i (initClientIndex pkt) hs reply)
      (· = Camex.initMessage2 C.noise env c i pkt hs (untilNul text)) := by
  have hmagic : CAMEX_MAGIC.length = 4 := by decide
  have hmax : RESP_MAX = 1072 := rfl
  have hresphdr : V2_RESP_HDR = 13 := rfl
  unfold initMessage2 Camex.initMessage2
  cases env.seed with
  | none => exact .pure rfl
  | some seed =>
    dsimp only
    cases serverNewIndex c i env.newIndex with
    | none => exact .pure rfl
    | some index =>
      dsimp only
      generalize hclient : initClientIndex pkt = client
      have hindex : (v2WriteU32 index).length = 4 := rfl
      have hclientIndex : (v2WriteU32 client).length = 4 := rfl
      have hhdr : (CAMEX_MAGIC ++ [V2_TYPE_RESP] ++ v2WriteU32 index ++ v2WriteU32 client).length = V2_RESP_HDR := by
        rw [List.length_append, List.length_append, List.length_append, hmagic, hindex, hclientIndex]
        rfl
      refine .bind (Area.write_start _ (by omega)) fun resp hresp => ?_
      refine .bind (hresp.write hmagic [V2_TYPE_RESP] (by rw [List.length_singleton]; omega)) fun resp hresp => ?_
      refine .bind (hresp.write (by rw [List.length_append, hmagic]; rfl) (v2WriteU32 index) (by omega))
        fun resp hresp => ?_
      refine .bind (hresp.write (by rw [List.length_append, List.length_append, hmagic, hindex]; rfl)
        (v2WriteU32 client) (by omega)) fun resp hresp => ?_
      refine .bind_ok hreply.string ?_
      refine .bind_ok (sizeSub_eq (by omega)) ?_
      rw [Nat.add_sub_cancel_left]
      have hwrite := noiseWriteMsg2_safe (C := C) hs seed (Slice.has_start (untilNul text)) hresp hhdr le_rfl
      generalize C.noise.writeMsg2 hs seed (untilNul text) RESP_MAX = expected at hwrite ⊢
      refine .bind hwrite fun written hwritten => ?_
      cases hwritten with
      | none => exact .pure rfl
      | @some x y h =>
        obtain ⟨resp, respLen, hs'⟩ := x
        obtain ⟨msg, hs''⟩ := y
        obtain ⟨hheld, hlen, hstate⟩ := h
        obtain rfl : hs' = hs'' := hstate
        obtain rfl : respLen = msg.length := hlen
        have hread := hheld.read_all
        rw [List.length_append, hhdr] at hread
        refine .bind_ok hread (.pure ?_)
        simp only [List.append_assoc, List.cons_append, List.nil_append]

/-- The answer to a handshake has no NUL inside. -/
def PlainReply (e : Entry n) (src : SockAddr) (fd : ℤ) (r : Register) : Prop :=
  ∀ reply, (Camex.initConfigure (e.server.setClient e.slot (initClaim (e.server.clients e.slot) r src fd e.server.now))
    e.slot r).2.2 = some reply → ∀ b ∈ reply, b ≠ 0

theorem initRegister_safe (e : Entry n) (env : PacketEnv) (pkt : Bytes) (src : SockAddr) (fd : ℤ) (r : Register)
    (hs : NoiseHs) :
    Safe (initRegister C e env (initClientIndex pkt) src fd r hs) fun x =>
      PlainReply e src fd r → x = Camex.initRegister C.noise e env pkt src fd r hs := by
  unfold initRegister Camex.initRegister PlainReply
  dsimp only
  refine .bind (initConfigure_safe _ e.slot r) fun x hx => ?_
  generalize Camex.initConfigure _ e.slot r = y at hx ⊢
  obtain ⟨pool, c, reply⟩ := x
  obtain ⟨pool', c', text⟩ := y
  obtain ⟨hpool, hc, hreply⟩ := hx
  obtain rfl : pool = pool' := hpool
  obtain rfl : c = c' := hc
  dsimp only at hreply ⊢
  cases hreply with
  | none => exact .pure fun _ => rfl
  | @some reply text hreply =>
    dsimp only
    refine .bind (initMessage2_safe env c e.slot pkt hs hreply) fun answered hanswered => ?_
    have huntil : (∀ t, some text = some t → ∀ b ∈ t, b ≠ 0) → untilNul text = text := fun h =>
      List.takeWhile_eq_self_iff.mpr fun b hb => by simpa using h text rfl b hb
    subst hanswered
    cases hanswered : Camex.initMessage2 C.noise env c e.slot pkt hs (untilNul text) with
    | none =>
      refine .pure fun hplain => ?_
      rw [huntil hplain] at hanswered
      rw [hanswered]
    | some m =>
      refine .bind_ok hreply.string (.ite (fun hsent => .pure fun hplain => ?_) fun hsent => .pure fun hplain => ?_)
      · rw [huntil hplain] at hanswered ⊢
        rw [hanswered]
        dsimp only
        rw [if_pos hsent]
        rfl
      · rw [huntil hplain] at hanswered
        rw [hanswered]
        dsimp only
        rw [if_neg hsent]
        rfl

/-- **An INIT** stays inside its arrays. -/
theorem serverHandleInit_safe (s : Server n) (env : PacketEnv) (hbuffer : buffer.Has pkt)
    (hlen : V2_INIT_HDR + V2_MAC_LEN ≤ pkt.length) (src : SockAddr) (fd : ℤ) :
    Safe (serverHandleInit C s env buffer pkt.length src fd) fun x =>
      (∀ s₁ r hs e, Camex.initAuthenticate C.noise s env pkt src = (s₁, some (r, hs)) →
        serverEntryFor s₁ r src fd env.grow = some e → PlainReply e src fd r) →
      x = Camex.serverHandleInit C.noise s env pkt src fd := by
  have hhdr : V2_INIT_HDR = 9 := rfl
  unfold serverHandleInit Camex.serverHandleInit
  refine .bind_ok (v2ReadU32_eq hbuffer (by omega)) ?_
  refine .bind_ok (initAuthenticate_eq s env hbuffer hlen src) ?_
  cases hauth : Camex.initAuthenticate C.noise s env pkt src with
  | mk s₁ authenticated =>
    cases authenticated with
    | none => exact .pure fun _ => rfl
    | some authenticated =>
      obtain ⟨r, hs⟩ := authenticated
      dsimp only
      cases hentry : serverEntryFor s₁ r src fd env.grow with
      | none => exact .pure fun _ => rfl
      | some e => exact (initRegister_safe e env pkt src fd r hs).mono fun x hx hplain => hx (hplain s₁ r hs e rfl hentry)

end

/-! ## DATA -/

def ipv4ParseEndpoints (packet : Slice) (len : ℕ) : Checked (Option (Ip × Ip)) :=
  if len < 20 then return none
  else do
    let b := (← packet.byte).toNat
    if b / 16 ≠ 4 ∨ b % 16 < 5 ∨ len < b % 16 * 4 then return none
    else do
      let srcIp ← v2ReadU32 (packet.add 12)
      let dstIp ← v2ReadU32 (packet.add 16)
      return some (srcIp, dstIp)

/-- The entry and the session an index names. -/
def dataSession (s : Server n) (idx : BitVec 32) (fd : ℤ) : Option (Fin n × Which) :=
  match slotOfIndex n idx with
  | none => none
  | some i =>
    if (s.clients i).active then
      match sessionOf (s.clients i) idx s.now with
      | none => none
      | some w => if 0 ≤ fd ∧ (s.clients i).tcpFd ≠ fd then none else some (i, w)
    else none

def serverForwardPacket (s : Server n) (env : PacketEnv) (packet : Slice) (len : ℕ) (dst : Ip) :
    Checked (Server n × Forwarded n) :=
  match serverFindByIp s.clients dst with
  | none => return (s, .tun (← packet.read len))
  | some j => do
    let sealed ← sessionSeal C (s.clients j).cur packet len (Area.fresh (TUN_PACKET_MAX + V2_OVERHEAD))
      (TUN_PACKET_MAX + V2_OVERHEAD)
    match sealed with
    | none => return (s, .failed)
    | some (out, outLen, x) => do
      let out ← out.read 0 outLen
      return (s.setClient j (countSent (s.clients j) x (sendAccepted s.conf (s.clients j) env) len), .client j out)

/-- `server_handle_data` once the packet is authenticated. -/
def dataDeliver (s : Server n) (env : PacketEnv) (i : Fin n) (w : Which) (plain : Slice) (len : ℕ) :
    Checked (Server n × DataOutcome n) :=
  let c := s.clients i
  if len = 0 then do
    let sealed ← sessionSeal C c.cur (.start []) 0 (Area.fresh V2_OVERHEAD) V2_OVERHEAD
    match sealed with
    | none => return (s, .keepalive i w)
    | some (ka, kaLen, x) => do
      let _ ← ka.read 0 kaLen
      return (s.setClient i (countSent c x (sendAccepted s.conf c env) 0), .keepalive i w)
  else do
    let endpoints ← ipv4ParseEndpoints plain len
    match endpoints with
    | none => return (s, .notIpv4 i w)
    | some (srcIp, dstIp) =>
      if ownIp c w = 0 ∨ srcIp ≠ ownIp c w then return (s, .spoofed i w)
      else if serverClientIsolation s.conf ∧ (serverFindByIp s.clients dstIp).any (· ≠ i) then
        return ({ s.setClient i { c with isolationDrops := c.isolationDrops + 1 } with
          isolationDrops := s.isolationDrops + 1 }, .isolated i w)
      else do
        let (s, f) ← serverForwardPacket C s env plain len dstIp
        return (s, .forwarded i w f)

def serverHandleData (s : Server n) (env : PacketEnv) (buffer : Slice) (len : ℕ) (src : SockAddr) (fd : ℤ) :
    Checked (Server n × DataOutcome n) := do
  let idx ← v2DataReceiver buffer
  match dataSession s idx fd with
  | none => return (s, .dropped)
  | some (i, w) => do
    let opened ← sessionOpen C ((s.clients i).session w) buffer len (Area.fresh TUN_PACKET_MAX) TUN_PACKET_MAX
    match opened with
    | none => return (s, .dropped)
    | some (plain, plainLen, x) => do
      let packet ← plain.read 0 plainLen
      dataDeliver C (dataReceived s i w x src fd plainLen) env i w (.start packet) plainLen

def serverHandlePacket (s : Server n) (env : PacketEnv) (buffer : Slice) (len : ℕ) (src : SockAddr) (fd : ℤ) :
    Checked (Server n × PacketOutcome n) :=
  if len = 0 then return (s, .ignored)
  else do
    let type ← v2PacketType buffer len
    if type = V2_TYPE_INIT then
      let (s, o) ← serverHandleInit C s env buffer len src fd
      return (s, .init o)
    else if type = V2_TYPE_DATA then
      let (s, o) ← serverHandleData C s env buffer len src fd
      return (s, .data o)
    else return (s, .ignored)

section

variable {C} {p buffer : Slice} {pkt packet bytes : Bytes}

theorem ipv4ParseEndpoints_eq (hpacket : p.Has packet) :
    ipv4ParseEndpoints p packet.length = .ok (Camex.ipv4ParseEndpoints packet) := by
  refine Safe.eq ?_
  unfold ipv4ParseEndpoints Camex.ipv4ParseEndpoints
  refine .ite (fun hshort => ?_) fun hshort => ?_
  · rw [if_pos hshort]
    exact .pure rfl
  rw [if_neg hshort]
  have hfirst : packet.headD 0 = packet.getD 0 0 := by cases packet <;> rfl
  refine .bind_ok (hpacket.byte (by omega)) ?_
  rw [hfirst]
  dsimp only
  refine .ite (fun hbad => ?_) fun hgood => ?_
  · rw [if_pos hbad]
    exact .pure rfl
  rw [if_neg hgood]
  refine .bind_ok (v2ReadU32_eq hpacket (by omega)) ?_
  exact .bind_ok (v2ReadU32_eq hpacket (by omega)) (.pure rfl)

theorem serverForwardPacket_eq (s : Server n) (env : PacketEnv) (hpacket : p.Has packet) (dst : Ip) :
    serverForwardPacket C s env p packet.length dst = .ok (Camex.serverForwardPacket C.noise s env packet dst) := by
  refine Safe.eq ?_
  unfold serverForwardPacket Camex.serverForwardPacket
  cases serverFindByIp s.clients dst with
  | none => exact .bind_ok hpacket.read_all (.pure rfl)
  | some j =>
    dsimp only
    have hseal := sessionSeal_safe (C := C) (s.clients j).cur hpacket (Area.fresh (TUN_PACKET_MAX + V2_OVERHEAD)) le_rfl
    generalize Camex.sessionSeal C.noise (s.clients j).cur packet (TUN_PACKET_MAX + V2_OVERHEAD) = expected at hseal ⊢
    refine .bind hseal fun sealed hsealed => ?_
    cases hsealed with
    | none => exact .pure rfl
    | @some x y h =>
      obtain ⟨out, outLen, x⟩ := x
      obtain ⟨bytes, x'⟩ := y
      obtain ⟨hheld, hlen, -, hstate⟩ := h
      obtain rfl : x = x' := hstate
      obtain rfl : outLen = bytes.length := hlen
      exact .bind_ok hheld.read_all (.pure rfl)

theorem dataDeliver_eq (s : Server n) (env : PacketEnv) (i : Fin n) (w : Which) (hplain : p.Has bytes) :
    dataDeliver C s env i w p bytes.length = .ok (Camex.dataDeliver C.noise s env i w bytes) := by
  refine Safe.eq ?_
  unfold dataDeliver Camex.dataDeliver
  dsimp only
  refine .ite (fun hempty => ?_) fun hsome => ?_
  · rw [if_pos (List.length_eq_zero_iff.mp hempty)]
    have hseal := sessionSeal_safe (C := C) (s.clients i).cur (Slice.has_start []) (Area.fresh V2_OVERHEAD) le_rfl
    rw [List.length_nil] at hseal
    generalize Camex.sessionSeal C.noise (s.clients i).cur [] V2_OVERHEAD = expected at hseal ⊢
    refine .bind hseal fun sealed hsealed => ?_
    cases hsealed with
    | none => exact .pure rfl
    | @some x y h =>
      obtain ⟨ka, kaLen, x⟩ := x
      obtain ⟨bytes, x'⟩ := y
      obtain ⟨hheld, hlen, -, hstate⟩ := h
      obtain rfl : x = x' := hstate
      obtain rfl : kaLen = bytes.length := hlen
      exact .bind_ok hheld.read_all (.pure rfl)
  · rw [if_neg fun h => hsome (List.length_eq_zero_iff.mpr h)]
    refine .bind_ok (ipv4ParseEndpoints_eq hplain) ?_
    cases Camex.ipv4ParseEndpoints bytes with
    | none => exact .pure rfl
    | some endpoints =>
      obtain ⟨srcIp, dstIp⟩ := endpoints
      dsimp only
      refine .ite (fun hspoofed => ?_) fun hown => ?_
      · rw [if_pos hspoofed]
        exact .pure rfl
      rw [if_neg hown]
      refine .ite (fun hisolated => ?_) fun hthrough => ?_
      · rw [if_pos hisolated]
        exact .pure rfl
      rw [if_neg hthrough]
      exact .bind_ok (serverForwardPacket_eq s env hplain dstIp) (.pure rfl)

/-- **A DATA packet** stays inside its arrays and does what the model on lists says. -/
theorem serverHandleData_eq (s : Server n) (env : PacketEnv) (hbuffer : buffer.Has pkt)
    (hlen : V2_OVERHEAD ≤ pkt.length) (src : SockAddr) (fd : ℤ) :
    serverHandleData C s env buffer pkt.length src fd = .ok (Camex.serverHandleData C.noise s env pkt src fd) := by
  have hoverhead : V2_OVERHEAD = 33 := rfl
  have hsession : dataSession s (Camex.v2DataReceiver pkt) fd = Camex.dataSession s pkt fd := rfl
  refine Safe.eq ?_
  unfold serverHandleData Camex.serverHandleData
  refine .bind_ok (v2ReadU32_eq hbuffer (by omega)) ?_
  rw [show Camex.v2ReadU32 pkt 5 = Camex.v2DataReceiver pkt from rfl, hsession]
  cases Camex.dataSession s pkt fd with
  | none => exact .pure rfl
  | some found =>
    obtain ⟨i, w⟩ := found
    dsimp only
    have hopen := sessionOpen_safe (C := C) ((s.clients i).session w) hbuffer (Area.fresh TUN_PACKET_MAX) le_rfl
    generalize Camex.sessionOpen C.noise ((s.clients i).session w) pkt TUN_PACKET_MAX = expected at hopen ⊢
    refine .bind hopen fun opened hopened => ?_
    cases hopened with
    | none => exact .pure rfl
    | @some x y h =>
      obtain ⟨plain, plainLen, x⟩ := x
      obtain ⟨bytes, x'⟩ := y
      obtain ⟨hheld, hlen, -, hstate⟩ := h
      obtain rfl : x = x' := hstate
      obtain rfl : plainLen = bytes.length := hlen
      refine .bind_ok hheld.read_all ?_
      exact .of_eq (dataDeliver_eq _ env i w (Slice.has_start bytes)) rfl

/-- **No packet** makes the server leave an array or a length go below zero; and what becomes of the packet is what
the model on lists says, for an INIT if its answer has no NUL inside. -/
theorem serverHandlePacket_safe (s : Server n) (env : PacketEnv) (hbuffer : buffer.Has pkt) (src : SockAddr) (fd : ℤ) :
    Safe (serverHandlePacket C s env buffer pkt.length src fd) fun x =>
      (∀ s₁ r hs e, Camex.initAuthenticate C.noise s env pkt src = (s₁, some (r, hs)) →
        serverEntryFor s₁ r src fd env.grow = some e → PlainReply e src fd r) →
      x = Camex.serverHandlePacket C.noise s env pkt src fd := by
  have hmac : V2_MAC_LEN = 16 := rfl
  have hhdr : V2_INIT_HDR = 9 := rfl
  unfold serverHandlePacket Camex.serverHandlePacket
  dsimp only
  refine .ite (fun hempty => ?_) fun hsome => ?_
  · obtain rfl := List.length_eq_zero_iff.mp hempty
    exact .pure fun _ => rfl
  refine .bind_ok (v2PacketType_eq hbuffer) ?_
  refine .ite (fun hinit => ?_) fun hno => ?_
  · rw [if_pos hinit]
    have hlen := v2PacketType_init hinit
    refine .bind (serverHandleInit_safe s env hbuffer (by omega) src fd) fun x hx => .pure fun hplain => ?_
    rw [hx hplain]
  rw [if_neg hno]
  refine .ite (fun hdata => ?_) fun hno => ?_
  · rw [if_pos hdata]
    exact .bind_ok (serverHandleData_eq s env hbuffer (v2PacketType_data hdata) src fd) (.pure fun _ => rfl)
  · rw [if_neg hno]
    exact .pure fun _ => rfl

end

end Camex.Raw
