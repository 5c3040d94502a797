import Camex.Proto
import Camex.Server.Budget

/-!
# Who sent an INIT, and may they (`server_handle_init`, first part)

`initAuthenticate` is `server_handle_init` up to `server_entry_for`: mac1, the budgets, the key
trials, the REGISTER text and the checks on it. What it answers is a `Register`.

* `serverRegisterAllowed_iff`: the key check of a handshake is `KeyAllowed`;
* `Carries`: the REGISTERs an INIT holds under the keys of the keystore, `carried` their list;
* `initAuthenticate_spec`: it changes counters only, and a REGISTER it answers is carried by the
  INIT, is not stale and asks for no profile address that another ID's client holds.
-/

namespace Camex

open Lib

variable {n : ℕ}

/-! ## The checks -/

/-- A REGISTER with the key that authenticated it and the timestamp before it; `clientId` is the
one `server_register_allowed` leaves. -/
structure Register where
  key : Key
  ts : Timestamp
  clientId : CStr
  localIp : CStr
  auto : Bool
  deriving DecidableEq

/-- `server_register_allowed`: the client ID, a key owner's when the REGISTER named none. -/
def serverRegisterAllowed (db : ServerDb) (ks : Keystore) (key : Key) (clientId localIp : CStr)
    (auto : Bool) : Option CStr :=
  let owner := configKsOwner ks key
  let globalKey := owner == []
  let clientId := if clientId = [] ∧ !globalKey then store CAMEX_CLIENT_ID_LEN owner else clientId
  if clientId ≠ [] ∧ !configKsKeyOwnedBy ks key clientId ∧
      (!globalKey ∨ configKsHasOwner ks clientId) then none
  else if auto then some clientId
  else
    match inetPton localIp with
    | none => none
    | some claimed =>
      if clientId ≠ [] ∧ (profileIp db clientId).any (· != claimed) then none
      else
        match profileOwnerOfIp db claimed with
        | some ipOwner =>
          if !strcaseeq ipOwner clientId ∧ configKsHasOwner ks ipOwner then none else some clientId
        | none => some clientId

def readRegister (db : ServerDb) (ks : Keystore) (key : Key) (payload : Bytes) : Option Register :=
  if payload.length < V2_TIMESTAMP_LEN then none
  else
    match protoParseRegister (beforeByte 0 (payload.drop V2_TIMESTAMP_LEN)) with
    | none => none
    | some text =>
      match serverRegisterAllowed db ks key text.clientId text.localIp text.autoRequest with
      | none => none
      | some clientId => some ⟨key, readTimestamp payload, clientId, text.localIp, text.autoRequest⟩

/-- The client whose timestamps a REGISTER is compared with. -/
def registerOwner (t : Table n) (r : Register) : Option (Fin n) :=
  if r.auto then serverFindByClientId t r.clientId
  else (inetPton r.localIp).bind fun ip => serverFindByIp t ip

/-- Is a timestamp one that the live client at slot `i` refuses? -/
def staleFor (s : Server n) (r : Register) (i : Fin n) : Bool :=
  let owner := s.clients i
  owner.cur.valid && owner.lastData != 0 && owner.pskKey == r.key &&
    decide (s.now - owner.lastData ≤ serverClientTimeout s.conf) && decide (r.ts ≤ owner.hsTs)

def serverLogStaleHandshake (owner : ServerClient) (now : Time) : ServerClient :=
  if owner.staleHsLogged ≠ 0 ∧ 0 ≤ now - owner.staleHsLogged ∧ now - owner.staleHsLogged < 30 then
    { owner with staleHsQuiet := owner.staleHsQuiet + 1 }
  else { owner with staleHsLogged := now, staleHsQuiet := 0 }

def profileAddress (db : ServerDb) (clientId : CStr) : Option Ip :=
  cidrIp (configDbLookupProfile db clientId).localCidr

/-- Does a client with another ID hold the profile address an auto REGISTER is about to get? -/
def profileHeldByOther (s : Server n) (r : Register) : Bool :=
  r.auto && ((profileAddress s.conf.db r.clientId).bind fun ip => serverFindByIp s.clients ip).any
    fun i => !strcaseeq (s.clients i).clientId r.clientId

/-! ## The key trials -/

section

variable {Hs : Type} (N : Noise Hs)

/-- The keystore index the `k`th trial of a handshake is for. -/
def trialIndex (own : Option ℕ) (ahead k : ℕ) : ℕ :=
  match own with
  | none => k
  | some o =>
    if 0 < o ∧ k = ahead then o else if 0 < o ∧ ahead < k ∧ k ≤ o then k - 1 else k

def trialOrder (ks : Keystore) (own : Option ℕ) : List ℕ :=
  let ahead := if ks.entries.head?.any fun e => e.owner == [] then 1 else 0
  (List.range ks.entries.length).map (trialIndex own ahead)

theorem trialOrder_nodup (ks : Keystore) (own : Option ℕ) : (trialOrder ks own).Nodup := by
  unfold trialOrder
  dsimp only
  refine List.nodup_range.map fun i j hij => ?_
  have hahead : (if ks.entries.head?.any fun e => e.owner == [] then 1 else 0) ≤ 1 := by
    split <;> omega
  generalize (if ks.entries.head?.any fun e => e.owner == [] then 1 else 0) = ahead at hij hahead
  unfold trialIndex at hij
  cases own with
  | none => exact hij
  | some o =>
    dsimp only at hij
    split_ifs at hij <;> omega

/-- The size of `payload` a REGISTER may fill. -/
def INIT_PAYLOAD_MAX : ℕ := V2_TIMESTAMP_LEN + CAMEX_CONTROL_MAX - 1

/-- The budget of one trial; the global key (entry 0, no owner) is always tried. -/
def trialBudget (ks : Keystore) (own : Option ℕ) (now : Time) (fresh : Bool → Option (BitVec 128)) (a : Ip)
    (i : ℕ) (e : KeystoreEntry) (b : Budget) (src : Source n) : Budget × Source n × Bool :=
  if i ≠ 0 ∨ e.owner ≠ [] then
    serverKeyTrialBudget N b now fresh a ks.entries.length src (own == some i)
  else (b, src, true)

/-- The key loop: the key that opens message 1, its payload and the handshake state. -/
def keyTrials (ks : Keystore) (own : Option ℕ) (now : Time) (fresh : Bool → Option (BitVec 128)) (a : Ip)
    (base : Hs) (es : Key) (msg : Bytes) :
    List ℕ → Budget → Source n → Budget × Option (Key × Bytes × Hs)
  | [], b, _ => (b, none)
  | i :: is, b, src =>
    match ks.entries[i]? with
    | none => (b, none)
    | some e =>
      if e.locked then keyTrials ks own now fresh a base es msg is b src
      else
        let (b, src, ok) := trialBudget N ks own now fresh a i e b src
        if !ok then (b, none)
        else
          match N.readMsg1 base e.pskKey es msg INIT_PAYLOAD_MAX with
          | some (payload, hs) => (b, some (e.pskKey, payload, hs))
          | none => keyTrials ks own now fresh a base es msg is b src

/-- Message 1 of an INIT: what stands between the header and the mac. -/
def initMessage1 (pkt : Bytes) : Bytes := (pkt.take (pkt.length - V2_MAC_LEN)).drop V2_INIT_HDR

/-- The responder's handshake before any message. -/
def initBase (ctx : CryptoCtx) : Hs := N.initResponder ctx.serverPriv ctx.serverPub

/-- Does the INIT carry the mac of someone who knows the server's public key? -/
def initMacOk (ctx : CryptoCtx) (pkt : Bytes) : Bool :=
  N.mac1 ctx.serverPub (pkt.take (pkt.length - V2_MAC_LEN)) == pkt.drop (pkt.length - V2_MAC_LEN)

/-- The REGISTERs an INIT carries, whichever usable key of the keystore opens it. -/
def Carries (conf : Conf) (pkt : Bytes) (r : Register) : Prop :=
  ∃ e ∈ conf.ks.entries, e.locked = false ∧ ∃ es payload hs,
    N.msg1Es (initBase N conf.ctx) (initMessage1 pkt) = some es ∧
    N.readMsg1 (initBase N conf.ctx) e.pskKey es (initMessage1 pkt) INIT_PAYLOAD_MAX =
      some (payload, hs) ∧
    readRegister conf.db conf.ks e.pskKey payload = some r

def carried (conf : Conf) (pkt : Bytes) : List Register :=
  match N.msg1Es (initBase N conf.ctx) (initMessage1 pkt) with
  | none => []
  | some es =>
    conf.ks.entries.filterMap fun e =>
      if e.locked then none
      else
        (N.readMsg1 (initBase N conf.ctx) e.pskKey es (initMessage1 pkt) INIT_PAYLOAD_MAX).bind
          fun x => readRegister conf.db conf.ks e.pskKey x.1

theorem mem_carried {conf : Conf} {pkt : Bytes} {r : Register} :
    r ∈ carried N conf pkt ↔ Carries N conf pkt r := by
  unfold carried Carries
  cases hes : N.msg1Es (initBase N conf.ctx) (initMessage1 pkt) with
  | none => simp
  | some es =>
    simp only [List.mem_filterMap, Option.some.injEq]
    constructor
    · rintro ⟨e, he, h⟩
      split at h
      · cases h
      · obtain ⟨⟨payload, hs⟩, hread, hr⟩ := Option.bind_eq_some_iff.mp h
        exact ⟨e, he, by simpa using ‹¬ e.locked = true›, es, payload, hs, rfl, hread, hr⟩
    · rintro ⟨e, he, hl, es', payload, hs, rfl, hread, hr⟩
      exact ⟨e, he, by rw [hl, if_neg (by decide), hread]; exact hr⟩

/-- The checks of a REGISTER against the table; a stale one is noted at its client. -/
def initCheck (s : Server n) (r : Register) : Server n × Bool :=
  match (registerOwner s.clients r).filter (staleFor s r) with
  | some i => (s.setClient i (serverLogStaleHandshake (s.clients i) s.now), false)
  | none => (s, !profileHeldByOther s r)

/-- `server_handle_init` up to `server_entry_for`. -/
def initAuthenticate (s : Server n) (env : PacketEnv) (pkt : Bytes) (src : SockAddr) :
    Server n × Option (Register × Hs) :=
  let ctx := s.conf.ctx
  let ks := s.conf.ks
  if !ctx.hasServerKey || !initMacOk N ctx pkt then (s, none)
  else
    let (s, source) := serverSourceFor s src
    let (b, source, ok) := serverHandshakeBudget N s.budget s.now env.shareKey src.ip source
    let s := { s with budget := b }
    if !ok then (s, none)
    else
      match N.msg1Es (initBase N ctx) (initMessage1 pkt) with
      | none => (s, none)
      | some es =>
        let own := source.known.bind fun i => configKsFind ks (s.clients i).pskKey
        let (b, opened) := keyTrials N ks own s.now env.shareKey src.ip (initBase N ctx) es
          (initMessage1 pkt) (trialOrder ks own) s.budget source
        let s := { s with budget := b }
        match opened with
        | none => (s, none)
        | some (key, payload, hs) =>
          match readRegister s.conf.db ks key payload with
          | none => (s, none)
          | some r =>
            match initCheck s r with
            | (s, true) => (s, some (r, hs))
            | (s, false) => (s, none)

end

/-! ## The key check is `KeyAllowed` -/

section KeyCheck

variable {ks : Keystore} {key : Key}

theorem configKsKeyOwnedBy_hasOwner {clientId : CStr} (h : configKsKeyOwnedBy ks key clientId = true) :
    configKsHasOwner ks clientId = true := by
  unfold configKsKeyOwnedBy at h
  unfold configKsHasOwner
  simp only [Bool.and_eq_true, List.any_eq_true] at h ⊢
  obtain ⟨hid, e, he, ⟨h₁, h₂⟩, -⟩ := h
  exact ⟨hid, e, he, h₁, h₂⟩

@[simp] theorem configKsHasOwner_nil : configKsHasOwner ks [] = false := by
  simp [configKsHasOwner]

@[simp] theorem configKsKeyOwnedBy_nil : configKsKeyOwnedBy ks key [] = false := by
  simp [configKsKeyOwnedBy]

/-- A key of the keystore is the global one exactly when it has no owner. -/
theorem configKsIsGlobal_iff (hkey : configKsContains ks key = true) :
    configKsIsGlobal ks key = true ↔ configKsOwner ks key = [] := by
  unfold configKsContains at hkey
  obtain ⟨e, he⟩ := Option.isSome_iff_exists.mp hkey
  unfold configKsIsGlobal configKsOwner
  rw [he]
  simp

theorem configKsContains_of_mem {e : KeystoreEntry} (he : e ∈ ks.entries) (hl : e.locked = false) :
    configKsContains ks e.pskKey = true := by
  unfold configKsContains ksFindKey
  rw [List.find?_isSome]
  exact ⟨e, he, by simp [hl]⟩

theorem KeyAllowed_iff {clientId : CStr} (hkey : configKsContains ks key = true) :
    KeyAllowed ks key clientId ↔
      configKsKeyOwnedBy ks key clientId = true ∨
        configKsOwner ks key = [] ∧ configKsHasOwner ks clientId = false := by
  unfold KeyAllowed
  by_cases ho : configKsHasOwner ks clientId = true
  · rw [if_pos ho, ho]
    simp
  · rw [if_neg ho, configKsIsGlobal_iff hkey]
    rw [Bool.not_eq_true] at ho
    have : configKsKeyOwnedBy ks key clientId = false := by
      rw [Bool.eq_false_iff]
      intro h
      rw [configKsKeyOwnedBy_hasOwner h] at ho
      cases ho
    simp [ho, this]

/-- **A handshake's ID and key** are a pair the keystore allows. -/
theorem serverRegisterAllowed_keyAllowed {db : ServerDb} {clientId localIp id : CStr} {auto : Bool}
    (hkey : configKsContains ks key = true)
    (h : serverRegisterAllowed db ks key clientId localIp auto = some id) : KeyAllowed ks key id := by
  unfold serverRegisterAllowed at h
  dsimp only at h
  generalize hid : (if clientId = [] ∧ (!(configKsOwner ks key == [])) = true
    then store CAMEX_CLIENT_ID_LEN (configKsOwner ks key) else clientId) = id' at h
  split at h
  · cases h
  · rename_i hcheck
    have heq : id = id' := by
      split at h
      · exact (Option.some.inj h).symm
      · split at h
        · cases h
        · split at h
          · cases h
          · split at h
            · split at h
              · cases h
              · exact (Option.some.inj h).symm
            · exact (Option.some.inj h).symm
    subst heq
    rw [KeyAllowed_iff hkey]
    by_cases hnil : id = []
    · -- without an ID the key has no owner
      right
      refine ⟨?_, by rw [hnil, configKsHasOwner_nil]⟩
      by_contra howner
      rw [hnil] at hid
      split at hid
      · have hlen : (store CAMEX_CLIENT_ID_LEN (configKsOwner ks key)).length = 0 := by rw [hid]; rfl
        rw [store, List.length_take] at hlen
        have : (configKsOwner ks key).length ≠ 0 := fun h => howner (List.length_eq_zero_iff.mp h)
        have : CAMEX_CLIENT_ID_LEN - 1 = 31 := rfl
        omega
      · rename_i hcond
        exact hcond ⟨hid, by simpa using howner⟩
    · simp only [ne_eq, hnil, not_false_eq_true, true_and, Bool.not_eq_true', not_and, not_or,
        Bool.not_eq_true] at hcheck
      by_cases hown : configKsKeyOwnedBy ks key id = true
      · exact Or.inl hown
      · rw [Bool.not_eq_true] at hown
        obtain ⟨hg, ho⟩ := hcheck hown
        exact Or.inr ⟨by simpa using hg, by simpa using ho⟩

end KeyCheck

/-! ## What `initAuthenticate` answers -/

theorem serverKnownSource_recounted (s : Server n) (src : SockAddr) :
    Recounted s (serverKnownSource s src).1 := by
  unfold serverKnownSource
  split
  · exact .refl s
  · dsimp only
    split
    · exact .refl s
    · split <;> split <;> exact .of_setClient s _ rfl

theorem serverSourceFor_recounted (s : Server n) (src : SockAddr) :
    Recounted s (serverSourceFor s src).1 := by
  unfold serverSourceFor
  exact (Recounted.of_budget s _).trans (serverKnownSource_recounted _ src)

theorem serverLogStaleHandshake_core (owner : ServerClient) (now : Time) :
    (serverLogStaleHandshake owner now).core = owner.core := by
  unfold serverLogStaleHandshake
  split <;> rfl

/-- What a REGISTER that passes the checks of the table is not. -/
structure Passes (s : Server n) (r : Register) : Prop where
  fresh : ∀ i, registerOwner s.clients r = some i → staleFor s r i = false
  unheld : profileHeldByOther s r = false

theorem initCheck_recounted (s : Server n) (r : Register) : Recounted s (initCheck s r).1 := by
  unfold initCheck
  split
  · exact .of_setClient s _ (serverLogStaleHandshake_core _ _)
  · exact .refl s

theorem initCheck_passes {s s' : Server n} {r : Register} (h : initCheck s r = (s', true)) :
    s' = s ∧ Passes s r := by
  unfold initCheck at h
  split at h
  · cases h
  · rename_i hnone
    rw [Prod.mk.injEq] at h
    refine ⟨h.1.symm, fun i hi => ?_, by simpa using h.2⟩
    rw [hi, Option.filter_eq_none_iff] at hnone
    simpa using hnone i rfl

variable {Hs : Type} (N : Noise Hs)

theorem keyTrials_some {ks : Keystore} {own : Option ℕ} {now : Time} {fresh : Bool → Option (BitVec 128)}
    {a : Ip} {base : Hs} {es : Key} {msg : Bytes} (is : List ℕ) {b : Budget} {src : Source n}
    {key : Key} {payload : Bytes} {hs : Hs}
    (h : (keyTrials N ks own now fresh a base es msg is b src).2 = some (key, payload, hs)) :
    ∃ e ∈ ks.entries, e.locked = false ∧ e.pskKey = key ∧
      N.readMsg1 base key es msg INIT_PAYLOAD_MAX = some (payload, hs) := by
  induction is generalizing b src with
  | nil => cases h
  | cons i is ih =>
    unfold keyTrials at h
    split at h
    · cases h
    · rename_i e he
      split at h
      · exact ih h
      · rename_i hl
        dsimp only at h
        split at h
        · cases h
        · split at h
          · rename_i hread
            simp only [Option.some.injEq, Prod.mk.injEq] at h
            obtain ⟨rfl, rfl, rfl⟩ := h
            exact ⟨e, List.mem_of_getElem? he, by simpa using hl, rfl, hread⟩
          · exact ih h

/-- **What `initAuthenticate` answers**: it counts, and a REGISTER it answers is one the INIT
carries and passes the checks. -/
theorem initAuthenticate_spec (s : Server n) (env : PacketEnv) (pkt : Bytes) (src : SockAddr) :
    Recounted s (initAuthenticate N s env pkt src).1 ∧
      ∀ r hs, (initAuthenticate N s env pkt src).2 = some (r, hs) →
        Carries N s.conf pkt r ∧ Passes (initAuthenticate N s env pkt src).1 r := by
  unfold initAuthenticate
  dsimp only
  split
  · exact ⟨.refl s, fun _ _ h => by cases h⟩
  · have h₁ : Recounted s { (serverSourceFor s src).1 with
        budget := (serverHandshakeBudget N (serverSourceFor s src).1.budget (serverSourceFor s src).1.now
          env.shareKey src.ip (serverSourceFor s src).2).1 } :=
      (serverSourceFor_recounted s src).trans (.of_budget _ _)
    split
    · exact ⟨h₁, fun _ _ h => by cases h⟩
    · split
      · exact ⟨h₁, fun _ _ h => by cases h⟩
      · rename_i es hes
        generalize hs₂ : ({ (serverSourceFor s src).1 with budget := _ } : Server n) = s₂
        have h₂ : Recounted s s₂ := by
          rw [← hs₂]
          exact (serverSourceFor_recounted s src).trans (.of_budget _ _)
        split
        · exact ⟨h₂, fun _ _ h => by cases h⟩
        · rename_i key payload hs hopened
          obtain ⟨e, he, hl, rfl, hread⟩ := keyTrials_some N _ hopened
          split
          · exact ⟨h₂, fun _ _ h => by cases h⟩
          · rename_i r hr
            have hcarries : Carries N s.conf pkt r :=
              ⟨e, he, hl, es, payload, hs, hes, hread, by rwa [(serverSourceFor_recounted s src).conf] at hr⟩
            split
            · rename_i s₃ hcheck
              obtain ⟨rfl, hpass⟩ := initCheck_passes hcheck
              refine ⟨h₂, fun r' hs' h => ?_⟩
              simp only [Option.some.injEq, Prod.mk.injEq] at h
              rw [← h.1]
              exact ⟨hcarries, hpass⟩
            · rename_i s₃ hcheck
              refine ⟨h₂.trans ?_, fun _ _ h => by cases h⟩
              have := initCheck_recounted s₂ r
              rwa [hcheck] at this

/-! ## What a REGISTER is -/

variable {N}

theorem readRegister_some {db : ServerDb} {ks : Keystore} {key : Key} {payload : Bytes} {r : Register}
    (h : readRegister db ks key payload = some r) :
    r.key = key ∧ r.ts = readTimestamp payload ∧ ∃ text,
      protoParseRegister (beforeByte 0 (payload.drop V2_TIMESTAMP_LEN)) = some text ∧
      serverRegisterAllowed db ks key text.clientId text.localIp text.autoRequest = some r.clientId ∧
      r.localIp = text.localIp ∧ r.auto = text.autoRequest := by
  unfold readRegister at h
  split at h
  · cases h
  · split at h
    · cases h
    · rename_i text htext
      split at h
      · cases h
      · rename_i id hid
        cases h
        exact ⟨rfl, rfl, text, htext, hid, rfl, rfl⟩

/-- The ID is the one the REGISTER names, or the key owner's; a manual client asks for an address. -/
theorem serverRegisterAllowed_some {db : ServerDb} {ks : Keystore} {key : Key}
    {clientId localIp id : CStr} {auto : Bool}
    (h : serverRegisterAllowed db ks key clientId localIp auto = some id) :
    (id = clientId ∨ clientId = [] ∧ id = store CAMEX_CLIENT_ID_LEN (configKsOwner ks key)) ∧
      (auto = false → (inetPton localIp).isSome = true) := by
  unfold serverRegisterAllowed at h
  dsimp only at h
  generalize hid : (if clientId = [] ∧ (!(configKsOwner ks key == [])) = true
    then store CAMEX_CLIENT_ID_LEN (configKsOwner ks key) else clientId) = id' at h
  have hid' : id' = clientId ∨ clientId = [] ∧ id' = store CAMEX_CLIENT_ID_LEN (configKsOwner ks key) := by
    rw [← hid]
    split
    · rename_i hc
      exact Or.inr ⟨hc.1, rfl⟩
    · exact Or.inl rfl
  split at h
  · cases h
  · split at h
    · rename_i hauto
      rw [← Option.some.inj h]
      exact ⟨hid', fun ha => by rw [hauto] at ha; cases ha⟩
    · split at h
      · cases h
      · rename_i ip hip
        have hsome : (inetPton localIp).isSome = true := by rw [hip]; rfl
        split at h
        · cases h
        · split at h
          · split at h
            · cases h
            · rw [← Option.some.inj h]
              exact ⟨hid', fun _ => hsome⟩
          · rw [← Option.some.inj h]
            exact ⟨hid', fun _ => hsome⟩

def initTimestamp (N : Noise Hs) (base : Hs) (key : Key) (pkt : Bytes) : Option Timestamp :=
  (N.msg1Es base (initMessage1 pkt)).bind fun es =>
    (N.readMsg1 base key es (initMessage1 pkt) INIT_PAYLOAD_MAX).map fun x => readTimestamp x.1

theorem Carries.timestamp {conf : Conf} {pkt : Bytes} {r : Register} (h : Carries N conf pkt r) :
    initTimestamp N (initBase N conf.ctx) r.key pkt = some r.ts := by
  obtain ⟨e, -, -, es, payload, hs, hes, hread, hr⟩ := h
  obtain ⟨hkey, hts, -⟩ := readRegister_some hr
  rw [initTimestamp, hes, Option.bind_some, hkey, hread, hts]
  rfl

/-- The client ID of a REGISTER fits its field. -/
theorem Carries.idShort {conf : Conf} {pkt : Bytes} {r : Register} (h : Carries N conf pkt r) :
    r.clientId.length < CAMEX_CLIENT_ID_LEN := by
  obtain ⟨e, -, -, es, payload, hs, -, -, hr⟩ := h
  obtain ⟨-, -, text, htext, hallowed, -⟩ := readRegister_some hr
  rcases (serverRegisterAllowed_some hallowed).1 with hid | ⟨-, hid⟩
  · rw [hid]
    exact (protoParseRegister_some htext).1.short
  · rw [hid, store, List.length_take]
    exact lt_of_le_of_lt (min_le_left _ _) (by decide)

/-- An auto client names itself, in one word. -/
theorem Carries.auto_idText {conf : Conf} {pkt : Bytes} {r : Register} (h : Carries N conf pkt r)
    (hauto : r.auto = true) : IdText r.clientId ∧ r.clientId ≠ [] := by
  obtain ⟨e, -, -, es, payload, hs, -, -, hr⟩ := h
  obtain ⟨-, -, text, htext, hallowed, -, ha⟩ := readRegister_some hr
  obtain ⟨hid, hne⟩ := protoParseRegister_some htext
  rcases (serverRegisterAllowed_some hallowed).1 with heq | ⟨hnil, -⟩
  · rw [heq]
    exact ⟨hid, hne (ha ▸ hauto)⟩
  · exact absurd hnil (hne (ha ▸ hauto))

theorem Carries.keyAllowed {conf : Conf} {pkt : Bytes} {r : Register} (h : Carries N conf pkt r) :
    KeyAllowed conf.ks r.key r.clientId := by
  obtain ⟨e, he, hl, es, payload, hs, -, -, hr⟩ := h
  obtain ⟨hkey, -, text, -, hallowed, -⟩ := readRegister_some hr
  rw [hkey]
  exact serverRegisterAllowed_keyAllowed (configKsContains_of_mem he hl) hallowed

end Camex
