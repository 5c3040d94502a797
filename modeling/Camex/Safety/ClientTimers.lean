import Camex.ClientConcrete
import Camex.ClientMoves
import Camex.Safety.Handshake

/-!
# The client's timers

* `clientTick_prompt`: a tick leaves no timer overdue: a link without answers is given up, a handshake is sent again,
  a rekey begun, a keepalive sent, a reconnect due within a minute;
* `keysYoung_reachable`: where the loop of `camex_run` turns in time, no key outlives the rekey interval by more than
  `V2_REKEY_TIMEOUT` and two turns, and none is taken from for more than `V2_PREV_SESSION_GRACE` after that.
-/

namespace Camex

open Lib

variable {C : Crypto} {ctx : ClientCtx}

/-! ## When an INIT can be built -/

variable (C ctx) in
/-- Everything an INIT needs is there. -/
structure Builds (config : CamexConfig) (env : InitEnv) : Prop where
  serverPub : ctx.hasServerPub = true
  psk : ctx.hasGlobal = true
  register : (protoBuildRegister config CAMEX_CONTROL_MAX).isSome = true
  seed : env.seed.any (fun seed => C.x25519 seed ctx.serverPub != 0) = true
  index : env.index ≠ 0

instance (config : CamexConfig) (env : InitEnv) : Decidable (Builds C ctx config env) :=
  decidable_of_iff
    (ctx.hasServerPub = true ∧ ctx.hasGlobal = true ∧ (protoBuildRegister config CAMEX_CONTROL_MAX).isSome = true ∧
      env.seed.any (fun seed => C.x25519 seed ctx.serverPub != 0) = true ∧ env.index ≠ 0)
    ⟨fun ⟨h₁, h₂, h₃, h₄, h₅⟩ => ⟨h₁, h₂, h₃, h₄, h₅⟩, fun h => ⟨h.serverPub, h.psk, h.register, h.seed, h.index⟩⟩

theorem foldl_appendControlField_length {size : ℕ} (fields : List CStr) {b r : CStr} (hb : b.length ≤ size)
    (h : fields.foldl (appendControlField size) (some b) = some r) : r.length ≤ size := by
  induction fields generalizing b with
  | nil =>
    cases h
    exact hb
  | cons f fields ih =>
    rw [List.foldl_cons, appendControlField] at h
    split at h
    · rw [List.foldl_fixed' (fun _ => rfl)] at h
      cases h
    · rename_i hfits
      exact ih (by rw [List.length_append]; omega) h

theorem v2Timestamp_length (t : TimeVal) : (v2Timestamp t).length = V2_TIMESTAMP_LEN := rfl

variable (C ctx) in
theorem noiseWriteMsg1_builds (psk : Key) {seed : Key} {payload : Bytes} {size : ℕ} (hdh : C.x25519 seed ctx.serverPub ≠ 0)
    (hfits : NOISE_MSG1_OVERHEAD + payload.length ≤ size) :
    ∃ hs msg, noiseWriteMsg1 C.prims (noiseInitInitiator C.prims CAMEX_NOISE_PROLOGUE ctx.serverPub) psk seed payload size =
      (hs, some msg) := by
  generalize hi : noiseInitInitiator C.prims CAMEX_NOISE_PROLOGUE ctx.serverPub = i
  have hinit : i.initiator = true := by rw [← hi]; rfl
  have hpub : i.sPub = ctx.serverPub := by rw [← hi]; rfl
  have hkeys := mixEphemeral_sameKeys (P := C.prims) (mixKeyAndHash C.prims i (keyBytes psk)) seed
  have hdh' : dh C.prims (mixEphemeral C.prims (mixKeyAndHash C.prims i (keyBytes psk)) seed).ePriv
      (mixEphemeral C.prims (mixKeyAndHash C.prims i (keyBytes psk)) seed).sPub = some (C.x25519 seed ctx.serverPub) := by
    rw [hkeys.ePriv, hkeys.sPub]
    show dh C.prims seed i.sPub = _
    rw [hpub]
    exact if_neg hdh
  unfold noiseWriteMsg1
  rw [if_neg (by rw [hinit]; simp; omega)]
  dsimp only
  rw [hdh']
  exact ⟨_, _, rfl⟩

/-- The INIT is sent, at least as far as `net_client_send`. -/
theorem clientSendInit_builds {s : ClientLoop} {env : InitEnv} (h : Builds C ctx s.client.link.current env) :
    (clientSendInit C ctx s env).2.1 ≠ [] := by
  obtain ⟨message, hmessage⟩ := Option.isSome_iff_exists.mp h.register
  obtain ⟨seed, hseed, hdh⟩ := (Option.any_eq_true _ _).mp h.seed
  have hlen : message.length ≤ CAMEX_CONTROL_MAX := foldl_appendControlField_length _ (Nat.zero_le _) hmessage
  have hfits : NOISE_MSG1_OVERHEAD + (v2Timestamp env.time ++ message).length ≤
      NOISE_MSG1_OVERHEAD + (V2_TIMESTAMP_LEN + CAMEX_CONTROL_MAX) := by
    rw [List.length_append, v2Timestamp_length]
    omega
  obtain ⟨hs, msg, hwrite⟩ := noiseWriteMsg1_builds C ctx ctx.pskKey (by simpa using hdh) hfits
  unfold clientSendInit
  rw [if_neg (by rw [h.serverPub, h.psk]; decide), hmessage]
  dsimp only
  rw [hseed]
  dsimp only
  rw [if_neg h.index, hwrite]
  exact List.cons_ne_nil _ _

/-! ## What a tick does -/

theorem clientRetransmit_cases {s t : ClientLoop} {env : InitEnv} {notes : List ClientNote} {ok : Bool}
    (h : clientRetransmit C ctx s env = (t, notes, ok)) :
    (t = s ∧ ok = true ∧ (s.client.hsPending = true → s.now - s.hsSent < V2_HANDSHAKE_RETRY)) ∨
      s.client.hsPending = true ∧ InitTried C ctx s notes ok t := by
  unfold clientRetransmit at h
  split at h
  · rename_i hdue
    have htried := clientSendInit_tried C ctx s env
    rw [h] at htried
    exact Or.inr ⟨hdue.1, htried⟩
  · rename_i hdue
    cases h
    exact Or.inl ⟨rfl, rfl, fun hpending => not_le.mp fun hle => hdue ⟨hpending, hle⟩⟩

def RekeyDue (ctx : ClientCtx) (s : ClientLoop) : Prop :=
  clientRekeyAfter ctx ≤ s.now - s.client.cur.created ∨ V2_REKEY_AFTER_MSGS ≤ s.client.cur.sendN

theorem clientRekey_cases {s t : ClientLoop} {env : InitEnv} {notes : List ClientNote}
    (h : clientRekey C ctx s env = (t, notes)) :
    (t = s ∧ (s.client.cur.valid = true → s.client.hsPending = false → ¬ RekeyDue ctx s)) ∨
      s.client.hsPending = false ∧ (Builds C ctx s.client.link.current env → notes ≠ []) ∧
        ∃ ok, InitTried C ctx { s with hsStarted := s.now } notes ok t := by
  unfold clientRekey at h
  split at h
  · rename_i hdue
    have htried := clientStartHandshake_tried C ctx s env
    have hbuilds : Builds C ctx s.client.link.current env → (clientStartHandshake C ctx s env).2.1 ≠ [] := fun hb =>
      clientSendInit_builds (s := { s with hsStarted := s.now }) hb
    generalize clientStartHandshake C ctx s env = q at h htried hbuilds
    obtain ⟨u, more, ok⟩ := q
    cases h
    exact Or.inr ⟨by simpa using hdue.2.1, hbuilds, ok, htried⟩
  · rename_i hdue
    cases h
    exact Or.inl ⟨rfl, fun hvalid hpending hold => hdue ⟨hvalid, by simp [hpending], hold⟩⟩

theorem clientKeepalive_cases (s : ClientLoop) :
    (clientKeepalive C s).1 = s ∧
        (s.client.cur.valid = true → s.now - s.client.lastKeepalive < clientKeepaliveAfter s.client) ∨
      ∃ sent, sent ≤ s.client.cur.sendN + 1 ∧ (clientKeepalive C s).1 =
        { s with client := { s.client with cur := { s.client.cur with sendN := sent }, lastKeepalive := s.now } } := by
  unfold clientKeepalive
  split
  · refine Or.inr ?_
    unfold clientSeal
    cases hseal : sessionSeal C.noise s.client.cur [] V2_OVERHEAD with
    | none => exact ⟨s.client.cur.sendN, Nat.le_succ _, rfl⟩
    | some q =>
      obtain ⟨packet, cur⟩ := q
      obtain ⟨-, rfl⟩ := sessionSeal_session C.noise hseal
      exact ⟨s.client.cur.sendN + 1, le_rfl, rfl⟩
  · rename_i hdue
    exact Or.inl ⟨rfl, fun hvalid => not_le.mp fun hle => hdue ⟨hvalid, hle⟩⟩

theorem clientRekey_sameRest (s : ClientLoop) (env : InitEnv) : SameRest s (clientRekey C ctx s env).1 := by
  unfold clientRekey
  split
  · exact clientStartHandshake_sameRest C ctx s env
  · exact .refl s

theorem clientKeepalive_sameRest (s : ClientLoop) : SameRest s (clientKeepalive C s).1 := by
  rcases clientKeepalive_cases (C := C) s with ⟨hsame, -⟩ | ⟨sent, -, hsent⟩
  · rw [hsame]
    exact .refl s
  · rw [hsent]
    exact ⟨rfl, rfl, rfl, rfl, rfl, rfl, rfl, rfl⟩

/-- What `client_reconnect` comes to. -/
structure Reconnected (s t : ClientLoop) : Prop where
  now : t.now = s.now
  link : t.client.link = s.client.link
  established : t.client.established = false
  cur : t.client.cur.valid = false
  prev : t.client.prev.valid = false
  closed : t.netOpen = false → s.now < t.reconnectAt ∧ t.reconnectAt ≤ s.now + 60
  opened : t.netOpen = true → t.reconnectAt = 0 ∧ t.client.hsPending = true ∧ t.hsStarted = s.now ∧ t.hsSent = s.now

variable (C ctx) in
theorem clientReconnect_reconnected (s : ClientLoop) (socket : Bool) (env : InitEnv) :
    Reconnected s (clientReconnect C ctx s socket env).1 := by
  unfold clientReconnect
  dsimp only
  split
  · refine ⟨rfl, rfl, rfl, rfl, rfl, fun _ => ?_, nofun⟩
    have hpow : (1 : Time) ≤ 2 ^ s.client.reconnectBackoff := one_le_pow₀ (by norm_num)
    show s.now < s.now + min (5 * 2 ^ s.client.reconnectBackoff) 60 ∧
      s.now + min (5 * 2 ^ s.client.reconnectBackoff) 60 ≤ s.now + 60
    grind
  · generalize hmid : ({ s with
      client := { clientWipe s.client with established := false, lastRecv := s.now, lastKeepalive := s.now }
      netOpen := true, reconnectAt := 0 } : ClientLoop) = mid
    have htried := clientStartHandshake_tried C ctx mid env
    generalize clientStartHandshake C ctx mid env = q at htried
    obtain ⟨t, notes, ok⟩ := q
    have hinterval : s.now < s.now + CAMEX_RECONNECT_INTERVAL ∧ s.now + CAMEX_RECONNECT_INTERVAL ≤ s.now + 60 := by
      have : CAMEX_RECONNECT_INTERVAL = 5 := rfl
      grind
    subst hmid
    cases htried with
    | unsent hs index => exact ⟨rfl, rfl, rfl, rfl, rfl, fun _ => hinterval, nofun⟩
    | sent hbuilt ok hok =>
      cases ok with
      | false => exact ⟨rfl, rfl, rfl, rfl, rfl, fun _ => hinterval, nofun⟩
      | true => exact ⟨rfl, rfl, rfl, rfl, rfl, nofun, fun _ => ⟨rfl, rfl, rfl, rfl⟩⟩

/-- What a tick comes to. -/
inductive Ticked (C : Crypto) (ctx : ClientCtx) (s : ClientLoop) (env : TickEnv) : ClientLoop → Prop
  /-- There is no socket, and it is too early for a new one. -/
  | idle (hclosed : s.netOpen = false ∨ 0 < s.reconnectAt) (hset : s.reconnectAt ≠ 0)
      (hlater : s.now < s.reconnectAt) : Ticked C ctx s env s
  | reconnected {t : ClientLoop} (h : Reconnected s t) : Ticked C ctx s env t
  /-- The handshake could not be sent again: the next tick reconnects. -/
  | stopped {notes : List ClientNote} {t : ClientLoop} (hopen : s.netOpen = true) (hlost : linkLost s = false)
      (hrekey : s.client.established = true → s.client.hsPending = true → s.now - s.hsStarted < V2_REKEY_TIMEOUT)
      (hpending : s.client.hsPending = true) (htried : InitTried C ctx s notes false t) :
      Ticked C ctx s env { t with netOpen := false, reconnectAt := 0 }
  | went {notes : List ClientNote} {t : ClientLoop} (hopen : s.netOpen = true) (hat : s.reconnectAt ≤ 0)
      (hlost : linkLost s = false)
      (hrekey : s.client.established = true → s.client.hsPending = true → s.now - s.hsStarted < V2_REKEY_TIMEOUT)
      (hagain : clientRetransmit C ctx s env.init = (t, notes, true)) :
      Ticked C ctx s env (clientKeepalive C (clientRekey C ctx t env.init).1).1

variable (C ctx) in
theorem clientTick_ticked (s : ClientLoop) (env : TickEnv) : Ticked C ctx s env (clientTick C ctx s env).1 := by
  unfold clientTick
  split
  · rename_i hclosed
    rw [Bool.not_eq_true'] at hclosed
    split
    · exact .reconnected (clientReconnect_reconnected C ctx s _ _)
    · rename_i hdue
      rw [not_or, not_le] at hdue
      exact .idle hclosed hdue.1 hdue.2
  · rename_i hclosed
    rw [not_or, Bool.not_eq_true', Bool.not_eq_false, not_lt] at hclosed
    split
    · have hdone := clientReconnect_reconnected C ctx (clientLinkDown s) env.socket env.init
      exact .reconnected ⟨hdone.now, hdone.link, hdone.established, hdone.cur, hdone.prev, hdone.closed, hdone.opened⟩
    · rename_i hfine
      rw [not_or, Bool.not_eq_true] at hfine
      have hrekey : s.client.established = true → s.client.hsPending = true →
          s.now - s.hsStarted < V2_REKEY_TIMEOUT := fun he hp => not_le.mp fun hle => hfine.2 ⟨he, hp, hle⟩
      cases hagain : clientRetransmit C ctx s env.init with
      | mk t q =>
        obtain ⟨notes, ok⟩ := q
        cases ok with
        | false =>
          rcases clientRetransmit_cases hagain with ⟨-, hok, -⟩ | ⟨hpending, htried⟩
          · cases hok
          · exact .stopped hclosed.1 hfine.1 hrekey hpending htried
        | true => exact .went hclosed.1 hclosed.2 hfine.1 hrekey hagain

/-! ## What a packet does -/

/-- What a packet does to the ages of the sessions. -/
inductive PacketTimed (c : Client) (now : Time) : Client → Prop
  | refused : PacketTimed c now c
  | opened {c' : Client} (hcreated : c'.cur.created = now) (hpending : c'.hsPending = false)
      (hestablished : c'.established = true) (hprev : c'.prev = if c.cur.valid then c.cur else .wiped)
      (huntil : c.cur.valid = true → c'.prevUntil = now + V2_PREV_SESSION_GRACE) : PacketTimed c now c'
  | taken {c' : Client} (hcur : c'.cur = { c.cur with replay := c'.cur.replay })
      (hprev : c'.prev = { c.prev with replay := c'.prev.replay }) (huntil : c'.prevUntil = c.prevUntil)
      (hpending : c'.hsPending = c.hsPending) (hestablished : c'.established = c.established)
      (hvalid : c.cur.valid = true ∨ c.prev.valid = true) : PacketTimed c now c'

theorem clientStartSession_timed {c c₁ c' : Client} {now : Time} (index : BitVec 32) (keys : Key × Key)
    (hcore : c₁.core = c.core) (hsame : c' = { clientStartSession c₁ index keys now with
      cur := c'.cur, lastKeepalive := c'.lastKeepalive }) (hcreated : c'.cur.created = now) : PacketTimed c now c' := by
  have hcur : c₁.cur = c.cur := congrArg ClientCore.cur hcore
  rw [hsame]
  refine .opened hcreated rfl rfl ?_ fun hvalid => ?_
  · show (if c₁.cur.valid then c₁.cur else .wiped) = _
    rw [hcur]
  · show (if c₁.cur.valid then now + V2_PREV_SESSION_GRACE else c₁.prevUntil) = _
    rw [hcur, if_pos hvalid]

theorem clientHandleNetPacket_timed (c : Client) (o : Outcome) (now : Time) (pkt : Bytes) :
    PacketTimed c now (clientHandleNetPacket C c o now pkt).1 := by
  unfold clientHandleNetPacket
  dsimp only
  split
  · unfold clientHandleResp
    split
    · exact .refused
    · split
      · exact .refused
      · split
        · exact .refused
        · rename_i payload hs _ _ c₁ htake
          have hcore := clientTakeConfig_core htake
          dsimp only
          split
          · exact clientStartSession_timed (v2ReadU32 pkt 5) (noiseSplit C.prims hs) hcore rfl rfl
          · rename_i hseal
            obtain ⟨-, rfl⟩ := sessionSeal_session C.noise hseal
            exact clientStartSession_timed (v2ReadU32 pkt 5) (noiseSplit C.prims hs) hcore rfl rfl
  · split
    · exact .refused
    · split
      · exact .refused
      · rename_i onPrev hsession
        split
        · exact .refused
        · rename_i hopen
          obtain ⟨hvalid, rfl⟩ := sessionOpen_session C.noise hopen
          cases onPrev with
          | false => exact .taken rfl rfl rfl rfl rfl (Or.inl hvalid)
          | true => exact .taken rfl rfl rfl rfl rfl (Or.inr hvalid)

/-! ## Waiting for the configuration -/

structure NoSession (s : ClientLoop) : Prop where
  cur : s.client.cur.valid = false
  prev : s.client.prev.valid = false

/-- While a client waits for its configuration it has no session. -/
structure Unconfigured (s : ClientLoop) : Prop extends NoSession s where
  received : s.client.configReceived = false

/-- A session made just now. -/
structure JustMade (s : ClientLoop) : Prop where
  created : s.client.cur.created = s.now
  pending : s.client.hsPending = false
  established : s.client.established = true
  prev : s.client.prev.valid = false

/-- What a turn of the wait comes to. -/
inductive Waited (t : ClientLoop) : Prop
  | on (hpoint : ∃ since, t.point = .waiting since) (h : Unconfigured t)
  | done (hpoint : t.point = .configured) (h : JustMade t)

theorem SameRest.unconfigured {s t : ClientLoop} (h : SameRest s t) (hs : Unconfigured s) : Unconfigured t :=
  ⟨⟨h.valid.trans hs.cur, (congrArg Session.valid h.prev).trans hs.prev⟩, h.received.trans hs.received⟩

theorem store_ne_nil {n : ℕ} {t : CStr} (h : t ≠ []) : store (n + 2) t ≠ [] := by
  obtain ⟨b, t, rfl⟩ := List.exists_cons_of_ne_nil h
  simp [store]

theorem protoParseConfig_whole {message : Bytes} {config config' : CamexConfig}
    (h : protoParseConfig message config = some config') : config'.localCidr ≠ [] ∧ config'.gatewayIp ≠ [] := by
  unfold protoParseConfig at h
  split at h
  · split at h
    · cases h
    · split at h
      · cases h
      · split at h
        · cases h
        · obtain ⟨config₁, happly, rfl⟩ := Option.map_eq_some_iff.mp h
          unfold configApplyProfile at happly
          split at happly
          · cases happly
          · rename_i hwhole
            rw [not_or] at hwhole
            cases happly
            split
            · exact ⟨store_ne_nil hwhole.1, store_ne_nil hwhole.2⟩
            · exact ⟨store_ne_nil hwhole.1, store_ne_nil hwhole.2⟩
  · cases h

theorem clientTakeConfig_first {c c' : Client} {o : Outcome} {payload : Bytes} (hauto : c.link.current.autoConfig = true)
    (hfirst : c.configReceived = false) (h : clientTakeConfig c o payload = some c') :
    c'.configReceived = true ∧ c'.link.current.localCidr ≠ [] ∧ c'.link.current.gatewayIp ≠ [] := by
  unfold clientTakeConfig at h
  rw [if_neg (by rw [hauto]; decide), if_pos (by rw [hfirst]; rfl)] at h
  obtain ⟨config, happly, rfl⟩ := Option.map_eq_some_iff.mp h
  unfold clientApplyConfigResponse at happly
  split at happly
  · cases happly
  · obtain ⟨config₁, hparse, rfl⟩ := Option.map_eq_some_iff.mp happly
    have hwhole := protoParseConfig_whole hparse
    refine ⟨rfl, ?_⟩
    dsimp only
    split
    · exact hwhole
    · exact hwhole

/-- Without a session only a RESP is taken, and its CONFIG with it. -/
theorem clientHandleNetPacket_first {c : Client} (hauto : c.link.current.autoConfig = true)
    (hfirst : c.configReceived = false) (hcur : c.cur.valid = false) (hprev : c.prev.valid = false) (o : Outcome)
    (now : Time) (pkt : Bytes) :
    clientHandleNetPacket C c o now pkt = (c, .refused) ∨
      ∃ c' ka, clientHandleNetPacket C c o now pkt = (c', .connected ka) ∧ c'.configReceived = true ∧
        c'.link.current.localCidr ≠ [] ∧ c'.link.current.gatewayIp ≠ [] := by
  unfold clientHandleNetPacket
  dsimp only
  split
  · unfold clientHandleResp
    split
    · exact Or.inl rfl
    · split
      · exact Or.inl rfl
      · split
        · exact Or.inl rfl
        · rename_i htake
          have hwhole := clientTakeConfig_first hauto hfirst htake
          refine Or.inr ?_
          dsimp only
          split
          · exact ⟨_, _, rfl, hwhole⟩
          · exact ⟨_, _, rfl, hwhole⟩
  · split
    · exact Or.inl rfl
    · rw [clientSession, hcur, hprev]
      exact Or.inl rfl

theorem clientWaitPacket_timed {s : ClientLoop} (hpoint : ∃ since, s.point = .waiting since) (hs : Unconfigured s)
    (hauto : s.client.link.current.autoConfig = true) (since : Time) (bytes : Bytes) (o : Outcome) : Waited (clientWaitPacket C s since bytes o) := by
  have htimed := clientHandleNetPacket_timed (C := C) s.client o s.now bytes
  unfold clientWaitPacket
  rcases clientHandleNetPacket_first (C := C) hauto hs.received hs.cur hs.prev o s.now bytes with
    hrefused | ⟨c, ka, hconnected, hreceived, hlocal, hgateway⟩
  · rw [hrefused]
    exact .on hpoint hs
  · rw [hconnected] at htimed ⊢
    dsimp only at htimed ⊢
    rw [if_pos ⟨hreceived, hlocal, hgateway⟩]
    refine .done rfl ?_
    cases htimed with
    | refused => exact absurd (hs.received.symm.trans hreceived) (by decide)
    | opened hcreated hpending hestablished hprev _ =>
      refine ⟨hcreated, hpending, hestablished, ?_⟩
      show c.prev.valid = false
      rw [hprev, hs.cur]
      rfl
    | taken _ _ _ _ _ hold =>
      rw [hs.cur, hs.prev] at hold
      exact absurd hold (by decide)

theorem clientWaitAgain_timed {s t : ClientLoop} {env : WaitEnv} {notes : List ClientNote} (hs : Unconfigured s)
    (h : clientWaitAgain C ctx s env = some (t, notes)) : Waited t := by
  obtain ⟨⟨u, notes⟩, hagain, heq⟩ := Option.map_eq_some_iff.mp h
  cases heq
  have hu := (clientWaitReconnect_sameRest hagain).unconfigured hs
  exact .on ⟨env.since, rfl⟩ ⟨⟨hu.cur, hu.prev⟩, hu.received⟩

theorem clientWait_timed {s t : ClientLoop} {since : Time} {env : WaitEnv} {notes : List ClientNote}
    (hpoint : s.point = .waiting since) (hs : Unconfigured s) (hauto : s.client.link.current.autoConfig = true)
    (h : clientWait C ctx s since env = some (t, notes)) : Waited t := by
  unfold clientWait at h
  dsimp only at h
  have hset : Unconfigured { s with now := env.now } := ⟨⟨hs.cur, hs.prev⟩, hs.received⟩
  split at h
  · exact clientWaitAgain_timed hset h
  have hsame := clientRetransmit_sameRest C ctx { s with now := env.now } env.init
  generalize clientRetransmit C ctx { s with now := env.now } env.init = q at h hsame
  obtain ⟨u, first, ok⟩ := q
  have hu : Unconfigured u := hsame.unconfigured hset
  have hplace : ∃ since, u.point = .waiting since := ⟨since, hsame.point.trans hpoint⟩
  cases ok with
  | false =>
    obtain ⟨⟨v, more⟩, hrest, heq⟩ := Option.map_eq_some_iff.mp h
    cases heq
    exact clientWaitAgain_timed hu hrest
  | true =>
    dsimp only at h
    split at h
    · cases h
      exact .on hplace hu
    · obtain ⟨⟨v, more⟩, hrest, heq⟩ := Option.map_eq_some_iff.mp h
      cases heq
      exact clientWaitAgain_timed hu hrest
    · cases h
      exact clientWaitPacket_timed hplace hu (by rw [hsame.link]; exact hauto) _ _ _

/-! ## The socket and the time of the next reconnect -/

/-- A time to reconnect at is set only in the loop, and only without a socket. -/
structure Settled (s : ClientLoop) : Prop where
  running : s.reconnectAt ≠ 0 → s.point = .head ∨ s.point = .pass
  closed : s.reconnectAt ≠ 0 → s.netOpen = false

theorem settled_of_zero {s : ClientLoop} (h : s.reconnectAt = 0) : Settled s := ⟨fun hne => absurd h hne, fun hne => absurd h hne⟩

theorem Settled.zero {s : ClientLoop} (hs : Settled s) (hpoint : s.point ≠ .head ∧ s.point ≠ .pass) : s.reconnectAt = 0 := by
  by_contra hne
  rcases hs.running hne with h | h
  · exact hpoint.1 h
  · exact hpoint.2 h

/-- A tick that goes through all its stages. -/
theorem went_sameRest {s t : ClientLoop} {env : InitEnv} {notes : List ClientNote} {ok : Bool}
    (hagain : clientRetransmit C ctx s env = (t, notes, ok)) :
    SameRest s (clientKeepalive C (clientRekey C ctx t env).1).1 := by
  have hsame := clientRetransmit_sameRest C ctx s env
  rw [hagain] at hsame
  exact (hsame.trans (clientRekey_sameRest t env)).trans (clientKeepalive_sameRest _)

theorem Ticked.closed {s t : ClientLoop} {env : TickEnv} (hs : Settled s) (h : Ticked C ctx s env t) :
    t.reconnectAt ≠ 0 → t.netOpen = false := by
  cases h with
  | idle hclosed hset hlater => exact hs.closed
  | reconnected hdone =>
    intro hne
    by_contra hopen
    exact hne (hdone.opened (by simpa using hopen)).1
  | stopped hopen hlost hrekey hpending htried => exact fun hne => absurd rfl hne
  | went hopen hat hlost hrekey hagain =>
    intro hne
    rw [(went_sameRest hagain).reconnectAt] at hne
    exact absurd (hopen.symm.trans (hs.closed hne)) (by decide)

/-- The loop begins: in auto mode nothing else happens. -/
theorem clientOpen_cases {s t : ClientLoop} {opened : Option Backend} {added : ℕ → Bool} {env : InitEnv}
    {notes : List ClientNote} (h : clientOpen C ctx s opened added env = some (t, notes)) :
    ∃ link, s.client.link.current.autoConfig = true ∧
        t = { s with client := { s.client with link := link }, linkUp := true, point := .head } ∨
      s.client.link.current.autoConfig = false ∧
        SameRest { s with client := { s.client with link := link }, linkUp := true, point := .head } t := by
  obtain ⟨tunnel, -, heq⟩ := Option.map_eq_some_iff.mp h
  have hcurrent : (camexClientInstallRoutes added { s.client.link with tunnel := some tunnel }).current =
      s.client.link.current := rfl
  refine ⟨camexClientInstallRoutes added { s.client.link with tunnel := some tunnel }, ?_⟩
  dsimp only at heq
  rw [hcurrent] at heq
  split at heq
  · rename_i hauto
    cases heq
    exact Or.inl ⟨hauto, rfl⟩
  · rename_i hmanual
    rw [← show _ = t from congrArg Prod.fst heq]
    exact Or.inr ⟨by simpa using hmanual, clientFirstHandshake_sameRest C ctx _ env⟩

theorem clientHandleTunPacket_netOpen (s : ClientLoop) (packet : Bytes) (sent : ℤ) :
    (clientHandleTunPacket C s packet sent).1.netOpen = s.netOpen := by
  unfold clientHandleTunPacket
  split
  · rfl
  · split
    · rfl
    · cases hseal : clientSeal C s packet (TUN_PACKET_MAX + V2_OVERHEAD) with
      | none => rfl
      | some q => exact clientSeal_netOpen hseal

theorem clientHandleTunPacket_clocks (s : ClientLoop) (packet : Bytes) (sent : ℤ) :
    (clientHandleTunPacket C s packet sent).1.now = s.now ∧
      (clientHandleTunPacket C s packet sent).1.hsStarted = s.hsStarted ∧
      (clientHandleTunPacket C s packet sent).1.client.hsPending = s.client.hsPending := by
  unfold clientHandleTunPacket
  split
  · exact ⟨rfl, rfl, rfl⟩
  · split
    · exact ⟨rfl, rfl, rfl⟩
    · cases hseal : clientSeal C s packet (TUN_PACKET_MAX + V2_OVERHEAD) with
      | none => exact ⟨rfl, rfl, rfl⟩
      | some q =>
        obtain ⟨⟨packet, cur⟩, -, rfl⟩ := Option.map_eq_some_iff.mp hseal
        exact ⟨rfl, rfl, rfl⟩

theorem clientStep_settled {s t : ClientLoop} {e : ClientEvent} {notes : List ClientNote} (hs : Settled s)
    (h : clientStep C ctx s e = some (t, notes)) : Settled t := by
  unfold clientStep at h
  cases e with
  | begin now env =>
    dsimp only at h
    split at h
    · rename_i hpoint
      have hsame := clientFirstHandshake_sameRest C ctx { s with now := now, point := .waiting now } env
      rw [Option.some.inj h] at hsame
      have hzero := hs.zero (by rw [hpoint.1]; decide)
      exact settled_of_zero (hsame.reconnectAt.trans hzero)
    · cases h
  | wait env =>
    dsimp only at h
    split at h
    · rename_i since hpoint
      have hzero := hs.zero (by rw [hpoint]; exact ⟨nofun, nofun⟩)
      exact settled_of_zero ((clientWait_waits hpoint h).reconnectAt.trans hzero)
    · cases h
  | start now opened added env =>
    dsimp only at h
    split at h
    · rename_i hpoint
      have hzero : s.reconnectAt = 0 := by
        rcases hpoint with hpoint | hpoint
        · exact hs.zero (by rw [hpoint]; decide)
        · exact hs.zero (by rw [hpoint.1]; decide)
      obtain ⟨link, ⟨-, rfl⟩ | ⟨-, hsame⟩⟩ := clientOpen_cases h
      · exact settled_of_zero hzero
      · exact settled_of_zero (hsame.reconnectAt.trans hzero)
    · cases h
  | pass now =>
    dsimp only at h
    split at h
    · cases h
      exact ⟨fun _ => Or.inr rfl, hs.closed⟩
    · cases h
  | packet bytes o =>
    dsimp only at h
    split at h
    · cases h
      exact ⟨hs.running, hs.closed⟩
    · cases h
  | lost =>
    dsimp only at h
    split at h
    · cases h
      exact ⟨hs.running, fun _ => rfl⟩
    · cases h
  | tun packet sent =>
    dsimp only at h
    split at h
    · rename_i hpoint
      cases h
      have hsame := clientHandleTunPacket_sameRest (C := C) s packet sent
      refine ⟨fun _ => Or.inr (hsame.point.trans hpoint), fun hne => ?_⟩
      rw [hsame.reconnectAt] at hne
      exact (clientHandleTunPacket_netOpen s packet sent).trans (hs.closed hne)
    · cases h
  | tick env =>
    dsimp only at h
    split at h
    · cases h
      have hclosed := (clientTick_ticked C ctx s env).closed hs
      exact ⟨fun _ => Or.inl rfl, hclosed⟩
    · cases h

/-- How old the sessions are: `d` bounds the time between two turns of the loop, `slack` the time since the last
tick. -/
structure KeysYoung (ctx : ClientCtx) (d slack : Time) (s : ClientLoop) : Prop where
  established : s.client.cur.valid = true → s.client.established = true
  idle : s.client.cur.valid = true → s.client.hsPending = false →
    s.now - s.client.cur.created < clientRekeyAfter ctx + slack
  rekeying : s.client.cur.valid = true → s.client.hsPending = true →
    s.hsStarted - s.client.cur.created < clientRekeyAfter ctx + d ∧ s.now - s.hsStarted < V2_REKEY_TIMEOUT + slack
  prev : s.client.prev.valid = true → s.client.prevUntil - s.client.prev.created <
    clientRekeyAfter ctx + V2_REKEY_TIMEOUT + V2_PREV_SESSION_GRACE + 2 * d
  /-- While a reconnect is waited for there is no session. -/
  away : s.reconnectAt ≠ 0 → s.client.cur.valid = false

theorem NoSession.keysYoung {d slack : Time} {s : ClientLoop} (hs : NoSession s) : KeysYoung ctx d slack s := by
  have hcur : ∀ {p : Prop}, s.client.cur.valid = true → p := fun h => absurd (hs.cur.symm.trans h) (by decide)
  have hprev : ∀ {p : Prop}, s.client.prev.valid = true → p := fun h => absurd (hs.prev.symm.trans h) (by decide)
  exact ⟨hcur, hcur, hcur, hprev, fun _ => hs.cur⟩

/-- The current session was made at most that long ago. -/
theorem KeysYoung.age {d slack : Time} {s : ClientLoop} (hs : KeysYoung ctx d slack s) (hslack : slack ≤ d) (hd : 0 ≤ d)
    (hvalid : s.client.cur.valid = true) :
    s.now - s.client.cur.created < clientRekeyAfter ctx + V2_REKEY_TIMEOUT + 2 * d := by
  have htimeout : V2_REKEY_TIMEOUT = 90 := rfl
  cases hpending : s.client.hsPending with
  | false =>
    have := hs.idle hvalid hpending
    grind
  | true =>
    have := hs.rekeying hvalid hpending
    grind

theorem KeysYoung.packet {d : Time} {s : ClientLoop} {c : Client} (hs : KeysYoung ctx d d s) (hd : 0 ≤ d)
    (hrekey : 0 < clientRekeyAfter ctx) (hopen : s.reconnectAt = 0) (h : PacketTimed s.client s.now c) :
    KeysYoung ctx d d { s with client := c } := by
  cases h with
  | refused => exact hs
  | opened hcreated hpending hestablished hprev huntil =>
    refine ⟨fun _ => hestablished, fun _ _ => ?_, fun _ h => ?_, fun hv => ?_, fun hne => absurd hopen hne⟩
    · show s.now - c.cur.created < _
      rw [hcreated]
      grind
    · exact absurd (hpending.symm.trans h) (by decide)
    · -- the session that was current until now
      have hcur : s.client.cur.valid = true := by
        by_contra hno
        rw [show ({ s with client := c } : ClientLoop).client.prev = _ from hprev, if_neg hno] at hv
        cases hv
      have hage := hs.age le_rfl hd hcur
      show c.prevUntil - c.prev.created < _
      rw [hprev, huntil hcur, if_pos hcur]
      grind
  | taken hcur hprev huntil hpending hestablished hvalid =>
    refine ⟨fun hv => ?_, fun hv hp => ?_, fun hv hp => ?_, fun hv => ?_, fun hne => absurd hopen hne⟩
    all_goals dsimp only at *
    · rw [hestablished]
      rw [hcur] at hv
      exact hs.established hv
    · rw [hcur] at hv ⊢
      exact hs.idle hv (hpending.symm.trans hp)
    · rw [hcur] at hv ⊢
      exact hs.rekeying hv (hpending.symm.trans hp)
    · rw [hprev] at hv ⊢
      rw [huntil]
      exact hs.prev hv

/-- Nothing changed that an age depends on. -/
theorem KeysYoung.sameRest {d slack : Time} {s t : ClientLoop} (hs : KeysYoung ctx d slack s) (h : SameRest s t)
    (hnow : t.now = s.now) (hstarted : t.hsStarted = s.hsStarted) (hpending : t.client.hsPending = s.client.hsPending) :
    KeysYoung ctx d slack t := by
  refine ⟨fun hv => ?_, fun hv hp => ?_, fun hv hp => ?_, fun hv => ?_, fun hne => ?_⟩
  · rw [h.established]
    exact hs.established (h.valid.symm.trans hv)
  · rw [hnow, h.created]
    exact hs.idle (h.valid.symm.trans hv) (hpending.symm.trans hp)
  · rw [hnow, hstarted, h.created]
    exact hs.rekeying (h.valid.symm.trans hv) (hpending.symm.trans hp)
  · rw [h.prev] at hv ⊢
    rw [h.prevUntil]
    exact hs.prev hv
  · rw [h.valid]
    exact hs.away (by rwa [h.reconnectAt] at hne)

theorem KeysYoung.later {d : Time} {s t : ClientLoop} (hs : KeysYoung ctx d 0 s) (hclient : t.client = s.client)
    (hstarted : t.hsStarted = s.hsStarted) (hat : t.reconnectAt = s.reconnectAt) (hlater : t.now ≤ s.now + d) :
    KeysYoung ctx d d t := by
  refine ⟨fun hv => ?_, fun hv hp => ?_, fun hv hp => ?_, fun hv => ?_, fun hne => ?_⟩
  all_goals rw [hclient] at *
  · exact hs.established hv
  · have := hs.idle hv hp
    grind
  · have := hs.rekeying hv hp
    grind
  · exact hs.prev hv
  · exact hs.away (by rwa [hat] at hne)

theorem KeysYoung.rekey {d : Time} {s t : ClientLoop} {env : InitEnv} {notes : List ClientNote}
    (hs : KeysYoung ctx d d s) (hat : s.reconnectAt = 0) (hbuilds : Builds C ctx s.client.link.current env)
    (hrekey : s.client.established = true → s.client.hsPending = true → s.now - s.hsStarted < V2_REKEY_TIMEOUT)
    (h : clientRekey C ctx s env = (t, notes)) : KeysYoung ctx d 0 t := by
  rcases clientRekey_cases h with ⟨rfl, hnot⟩ | ⟨hpending, hnotes, ok, htried⟩
  · refine ⟨hs.established, fun hv hp => ?_, fun hv hp => ?_, hs.prev, fun hne => absurd hat hne⟩
    · rw [add_zero]
      exact not_le.mp (not_or.mp (hnot hv hp)).1
    · exact ⟨(hs.rekeying hv hp).1, by rw [add_zero]; exact hrekey (hs.established hv) hp⟩
  · cases htried with
    | unsent hs index => exact absurd rfl (hnotes hbuilds)
    | sent hbuilt ok hok =>
      refine ⟨hs.established, fun _ => nofun, fun hv _ => ⟨hs.idle hv hpending, ?_⟩, hs.prev, fun hne => absurd hat hne⟩
      show s.now - s.now < _
      rw [sub_self]
      decide

theorem KeysYoung.keepalive {d slack : Time} {s : ClientLoop} (hs : KeysYoung ctx d slack s) :
    KeysYoung ctx d slack (clientKeepalive C s).1 := by
  rcases clientKeepalive_cases (C := C) s with ⟨hsame, -⟩ | ⟨sent, -, hsent⟩
  · rwa [hsame]
  · rw [hsent]
    exact ⟨hs.established, hs.idle, hs.rekeying, hs.prev, hs.away⟩

/-- A tick makes up for the time that went by. -/
theorem Ticked.keysYoung {d : Time} {s t : ClientLoop} {env : TickEnv} (hs : KeysYoung ctx d d s)
    (hbuilds : Builds C ctx s.client.link.current env.init) (hsettled : Settled s) (h : Ticked C ctx s env t) :
    KeysYoung ctx d 0 t := by
  cases h with
  | idle hclosed hset hlater =>
    have hgone : ∀ {p : Prop}, s.client.cur.valid = true → p := fun hv => absurd (hv.symm.trans (hs.away hset)) (by decide)
    exact ⟨hgone, hgone, hgone, hs.prev, hs.away⟩
  | reconnected hdone => exact (NoSession.mk hdone.cur hdone.prev).keysYoung
  | @stopped notes u hopen hlost hrekey hpending htried =>
    have hsame := htried.sameRest
    have hkept : u.now = s.now ∧ u.hsStarted = s.hsStarted ∧ u.client.hsPending = true := by
      cases htried with
      | unsent _ _ => exact ⟨rfl, rfl, hpending⟩
      | sent _ _ _ => exact ⟨rfl, rfl, rfl⟩
    refine ⟨fun hv => ?_, fun _ hp => ?_, fun hv _ => ?_, fun hv => ?_, fun hne => absurd rfl hne⟩
    all_goals dsimp only at *
    · rw [hsame.established]
      exact hs.established (hsame.valid.symm.trans hv)
    · exact absurd (hkept.2.2.symm.trans hp) (by decide)
    · rw [hsame.valid] at hv
      rw [hkept.1, hkept.2.1, hsame.created]
      exact ⟨(hs.rekeying hv hpending).1, by rw [add_zero]; exact hrekey (hs.established hv) hpending⟩
    · rw [hsame.prev] at hv ⊢
      rw [hsame.prevUntil]
      exact hs.prev hv
  | @went notes u hopen hat hlost hrekey hagain =>
    have hsame := clientRetransmit_sameRest C ctx s env.init
    rw [hagain] at hsame
    have hkept : u.now = s.now ∧ u.hsStarted = s.hsStarted ∧ u.client.hsPending = s.client.hsPending := by
      rcases clientRetransmit_cases hagain with ⟨rfl, -, -⟩ | ⟨hpending, htried⟩
      · exact ⟨rfl, rfl, rfl⟩
      · cases htried with
        | sent hbuilt ok hok => exact ⟨rfl, rfl, hpending.symm⟩
    have hu : KeysYoung ctx d d u := hs.sameRest hsame hkept.1 hkept.2.1 hkept.2.2
    have hat' : u.reconnectAt = 0 := by
      rw [hsame.reconnectAt]
      by_contra hne
      exact absurd (hopen.symm.trans (hsettled.closed hne)) (by decide)
    have hrekey' : u.client.established = true → u.client.hsPending = true → u.now - u.hsStarted < V2_REKEY_TIMEOUT := by
      rw [hsame.established, hkept.1, hkept.2.1, hkept.2.2]
      exact hrekey
    rw [← hsame.link] at hbuilds
    exact (hu.rekey hat' hbuilds hrekey' rfl).keepalive

/-! ## Runs -/

variable (C ctx) in
/-- The loop turns at least every `d` seconds, and an INIT can be built at every tick. -/
def OnTime (d : Time) (s : ClientLoop) : ClientEvent → Prop
  | .start now _ _ _ => s.now ≤ now ∧ now ≤ s.now + d
  | .pass now => s.now ≤ now ∧ now ≤ s.now + d
  | .tick env => Builds C ctx s.client.link.current env.init
  | .begin _ _ | .wait _ | .packet _ _ | .lost | .tun _ _ => True

instance (d : Time) (s : ClientLoop) : ∀ e, Decidable (OnTime C ctx d s e)
  | .start now _ _ _ => inferInstanceAs (Decidable (s.now ≤ now ∧ now ≤ s.now + d))
  | .pass now => inferInstanceAs (Decidable (s.now ≤ now ∧ now ≤ s.now + d))
  | .tick env => inferInstanceAs (Decidable (Builds C ctx s.client.link.current env.init))
  | .begin _ _ => isTrue trivial
  | .wait _ => isTrue trivial
  | .packet _ _ => isTrue trivial
  | .lost => isTrue trivial
  | .tun _ _ => isTrue trivial

/-- The ages at the points of the program. -/
def Young (ctx : ClientCtx) (d : Time) (s : ClientLoop) : Prop :=
  match s.point with
  | .starting | .waiting _ => Unconfigured s
  | .configured => JustMade s
  | .head => KeysYoung ctx d 0 s
  | .pass => KeysYoung ctx d d s

theorem young_waiting {d : Time} {s : ClientLoop} (h : Unconfigured s)
    (hpoint : (∃ since, s.point = .waiting since) ∨ s.point = .starting) : Young ctx d s := by
  unfold Young
  rcases hpoint with ⟨since, hpoint⟩ | hpoint
  · rw [hpoint]
    exact h
  · rw [hpoint]
    exact h

theorem young_pass {d : Time} {s : ClientLoop} (hpoint : s.point = .pass) (h : KeysYoung ctx d d s) : Young ctx d s := by
  unfold Young
  rw [hpoint]
  exact h

theorem young_head {d : Time} {s : ClientLoop} (hpoint : s.point = .head) (h : KeysYoung ctx d 0 s) : Young ctx d s := by
  unfold Young
  rw [hpoint]
  exact h

theorem Young.passing {d : Time} {s : ClientLoop} (h : Young ctx d s) (hpoint : s.point = .pass) :
    KeysYoung ctx d d s := by
  unfold Young at h
  rwa [hpoint] at h

theorem clientRekeyAfter_pos (ctx : ClientCtx) : 0 < clientRekeyAfter ctx := by
  unfold clientRekeyAfter
  split
  · rename_i h
    exact lt_of_lt_of_le (by norm_num) h.1
  · decide

/-- The session of the wait is still young when the tunnel is open. -/
theorem JustMade.keysYoung {d : Time} {s t : ClientLoop} (hs : JustMade s) (hturn : d < clientRekeyAfter ctx)
    (hcur : t.client.cur = s.client.cur) (hprev : t.client.prev = s.client.prev)
    (hpending : t.client.hsPending = s.client.hsPending) (hestablished : t.client.established = s.client.established)
    (hat : t.reconnectAt = 0) (hlater : t.now ≤ s.now + d) : KeysYoung ctx d 0 t := by
  refine ⟨fun _ => hestablished.trans hs.established, fun _ _ => ?_, fun _ hp => ?_, fun hv => ?_,
    fun hne => absurd hat hne⟩
  · rw [hcur, hs.created]
    grind
  · rw [hpending, hs.pending] at hp
    cases hp
  · rw [hprev, hs.prev] at hv
    cases hv

theorem clientStep_young {d : Time} {s t : ClientLoop} {e : ClientEvent} {notes : List ClientNote}
    (hd : 0 ≤ d) (hturn : d < clientRekeyAfter ctx) (hs : Young ctx d s) (hplaced : Placed s) (hsettled : Settled s)
    (htime : OnTime C ctx d s e) (h : clientStep C ctx s e = some (t, notes)) : Young ctx d t := by
  unfold clientStep at h
  cases e with
  | begin now env =>
    dsimp only at h
    split at h
    · rename_i hpoint
      have hnone : Unconfigured s := by rwa [Young, hpoint.1] at hs
      have hsame := clientFirstHandshake_sameRest C ctx { s with now := now, point := .waiting now } env
      rw [Option.some.inj h] at hsame
      exact young_waiting (hsame.unconfigured ⟨⟨hnone.cur, hnone.prev⟩, hnone.received⟩) (Or.inl ⟨now, hsame.point⟩)
    · cases h
  | wait env =>
    dsimp only at h
    split at h
    · rename_i since hpoint
      have hnone : Unconfigured s := by rwa [Young, hpoint] at hs
      cases clientWait_timed hpoint hnone (hplaced.waiting since hpoint) h with
      | on hagain hnone' => exact young_waiting hnone' (Or.inl hagain)
      | done hdone hmade =>
        unfold Young
        rw [hdone]
        exact hmade
    · cases h
  | start now opened added env =>
    dsimp only at h
    split at h
    · rename_i hpoint
      refine young_head (clientOpen_running h) ?_
      obtain ⟨link, ⟨hauto, rfl⟩ | ⟨hmanual, hsame⟩⟩ := clientOpen_cases h
      · rcases hpoint with hpoint | hpoint
        · have hmade : JustMade s := by rwa [Young, hpoint] at hs
          exact hmade.keysYoung hturn rfl rfl rfl rfl (hsettled.zero (by rw [hpoint]; decide)) htime.2
        · exact absurd hpoint.2 (by rw [show s.client.link.current.autoConfig = true from hauto]; decide)
      · rcases hpoint with hpoint | hpoint
        · exact absurd (hplaced.configured hpoint)
            (by rw [show s.client.link.current.autoConfig = false from hmanual]; decide)
        · have hnone : Unconfigured s := by rwa [Young, hpoint.1] at hs
          exact (hsame.unconfigured ⟨⟨hnone.cur, hnone.prev⟩, hnone.received⟩).toNoSession.keysYoung
    · cases h
  | pass now =>
    dsimp only at h
    split at h
    · rename_i hpoint
      cases h
      have hyoung : KeysYoung ctx d 0 s := by rwa [Young, hpoint] at hs
      exact young_pass rfl (hyoung.later rfl rfl rfl htime.2)
    · cases h
  | packet bytes o =>
    dsimp only at h
    split at h
    · rename_i hpoint
      cases h
      have hzero : s.reconnectAt = 0 := by
        by_contra hne
        exact absurd (hpoint.2.symm.trans (hsettled.closed hne)) (by decide)
      exact young_pass hpoint.1 ((hs.passing hpoint.1).packet hd (clientRekeyAfter_pos ctx) hzero
        (clientHandleNetPacket_timed s.client o s.now bytes))
    · cases h
  | lost =>
    dsimp only at h
    split at h
    · rename_i hpoint
      cases h
      have hyoung := hs.passing hpoint
      exact young_pass hpoint ⟨hyoung.established, hyoung.idle, hyoung.rekeying, hyoung.prev, hyoung.away⟩
    · cases h
  | tun packet sent =>
    dsimp only at h
    split at h
    · rename_i hpoint
      cases h
      have hsame := clientHandleTunPacket_sameRest (C := C) s packet sent
      have hclocks := clientHandleTunPacket_clocks (C := C) s packet sent
      exact young_pass (hsame.point.trans hpoint)
        ((hs.passing hpoint).sameRest hsame hclocks.1 hclocks.2.1 hclocks.2.2)
    · cases h
  | tick env =>
    dsimp only at h
    split at h
    · rename_i hpoint
      cases h
      have hyoung := (clientTick_ticked C ctx s env).keysYoung (hs.passing hpoint) htime hsettled
      exact young_head rfl ⟨hyoung.established, hyoung.idle, hyoung.rekeying, hyoung.prev, hyoung.away⟩
    · cases h

theorem young_reachable {d : Time} (hd : 0 ≤ d) (hturn : d < clientRekeyAfter ctx) {s : ClientLoop}
    (h : (clientLoopMachine C ctx).ReachableUnder (OnTime C ctx d) s) : Young ctx d s := by
  refine (h.invariant (I := fun s => Young ctx d s ∧ Placed s ∧ Settled s) ?_ fun s e t hs htime hnext => ?_).1
  · rintro s ⟨config, now, rfl⟩
    exact ⟨young_waiting ⟨⟨rfl, rfl⟩, rfl⟩ (Or.inr rfl), ⟨fun _ => rfl, nofun, nofun⟩, settled_of_zero rfl⟩
  · obtain ⟨hyoung, hplaced, hsettled⟩ := hs
    have hstep := clientLoopMachine_next hnext
    exact ⟨clientStep_young hd hturn hyoung hplaced hsettled htime hstep, clientStep_placed hplaced hstep,
      clientStep_settled hsettled hstep⟩

/-- How old keys in use can be, at any point. -/
structure KeysUsed (ctx : ClientCtx) (d : Time) (s : ClientLoop) : Prop where
  cur : s.client.cur.valid = true → s.now - s.client.cur.created < clientRekeyAfter ctx + V2_REKEY_TIMEOUT + 2 * d
  prev : s.client.prev.valid = true → s.client.prevUntil - s.client.prev.created <
    clientRekeyAfter ctx + V2_REKEY_TIMEOUT + V2_PREV_SESSION_GRACE + 2 * d

theorem Young.keysUsed {d : Time} (hd : 0 ≤ d) {s : ClientLoop} (h : Young ctx d s) : KeysUsed ctx d s := by
  have hnone : NoSession s → KeysUsed ctx d s := fun hs =>
    ⟨fun hv => absurd (hv.symm.trans hs.cur) (by decide), fun hv => absurd (hv.symm.trans hs.prev) (by decide)⟩
  have hpos := clientRekeyAfter_pos ctx
  have htimeout : V2_REKEY_TIMEOUT = 90 := rfl
  unfold Young at h
  split at h
  · exact hnone h.toNoSession
  · exact hnone h.toNoSession
  · refine ⟨fun _ => ?_, fun hv => absurd (hv.symm.trans h.prev) (by decide)⟩
    rw [h.created]
    grind
  · exact ⟨h.age hd hd, h.prev⟩
  · exact ⟨h.age le_rfl hd, h.prev⟩

/-! ## A client that connects -/

def toyTickEnv : TickEnv := ⟨true, toyInitEnv 8, 0⟩

theorem toyClient_connected : ∃ s, toyClientMachine.ReachableUnder (OnTime plainCrypto toyClientCtx 5) s ∧
    s.client.cur.valid = true ∧ Builds plainCrypto toyClientCtx s.client.link.current toyTickEnv.init ∧
      0 ≤ s.client.link.current.keepalive ∧ 0 < s.client.link.current.serverTimeout ∧
        (clientTick plainCrypto toyClientCtx s toyTickEnv).1.netOpen = true := by
  obtain ⟨s, hreach, hs⟩ := Machine.runUnder_reachable (M := toyClientMachine) (C := OnTime plainCrypto toyClientCtx 5)
    (l := clientConnects) (s := clientInit toyClientConfig 100)
    (p := fun s => decide (s.client.cur.valid = true ∧
      Builds plainCrypto toyClientCtx s.client.link.current toyTickEnv.init ∧
        0 ≤ s.client.link.current.keepalive ∧ 0 < s.client.link.current.serverTimeout ∧
          (clientTick plainCrypto toyClientCtx s toyTickEnv).1.netOpen = true)) toyClient_start (by decide +kernel)
  exact ⟨s, hreach, of_decide_eq_true hs⟩

/-! ## The two theorems -/

/-- **No key is used for long**: where the loop turns in time, nothing is sealed with keys that are older than the rekey
interval and `V2_REKEY_TIMEOUT`, and nothing taken with keys that are `V2_PREV_SESSION_GRACE` older, up to two turns. -/
theorem keysYoung_reachable {d : Time} (hd : 0 ≤ d) (hturn : d < clientRekeyAfter ctx) {s : ClientLoop}
    (h : (clientLoopMachine C ctx).ReachableUnder (OnTime C ctx d) s) :
    (s.client.cur.valid = true → s.now - s.client.cur.created < clientRekeyAfter ctx + V2_REKEY_TIMEOUT + 2 * d) ∧
      ∀ receiver, clientSession s.client receiver s.now = some true →
        s.now - s.client.prev.created < clientRekeyAfter ctx + V2_REKEY_TIMEOUT + V2_PREV_SESSION_GRACE + 2 * d := by
  have hused := (young_reachable hd hturn h).keysUsed hd
  refine ⟨hused.cur, fun receiver hsession => ?_⟩
  have hprev : s.client.prev.valid = true ∧ s.now ≤ s.client.prevUntil := by
    unfold clientSession at hsession
    split at hsession
    · cases hsession
    · split at hsession
      · rename_i hprev
        simp only [Bool.and_eq_true, decide_eq_true_eq] at hprev
        exact ⟨hprev.1.1, hprev.2⟩
      · cases hsession
  have hage := hused.prev hprev.1
  have hgrace := hprev.2
  grind

theorem keysYoung_reachable_connected : ∃ s, toyClientMachine.ReachableUnder (OnTime plainCrypto toyClientCtx 5) s ∧
    s.client.cur.valid = true ∧ s.now - s.client.cur.created < 600 + 90 + 2 * 5 := by
  obtain ⟨s, hreach, hvalid, -⟩ := toyClient_connected
  exact ⟨s, hreach, hvalid, (keysYoung_reachable (by decide) (by decide) hreach).1 hvalid⟩

end Camex
