import Camex.ClientConfig
import Camex.NginxMap

/-!
# The configuration file (`config.c`)

`configDbParseFile` reads a file line by line into `server_db`, whose growing array of sections is a `ClientStore`:
the lines are read in the same way wherever the sections live. `configDbLoadFile` keeps them in a list.

* `ProfileLoaded`: what the checks of the keys let through;
* `FileOk.db`: the database that a file makes has what `ServerDb` promises.
-/

namespace Camex

open Lib

def CAMEX_MAX_CLIENTS_LIMIT : ℕ := 65534
def CAMEX_CLIENT_TIMEOUT_MIN : ℕ := 60
def IFNAMSIZ : ℕ := 16

/-- `camex_server_globals_t`, all of it. -/
structure ServerSection where
  bindIp : CStr
  localCidr : CStr
  tunDev : CStr
  bindDev : CStr
  pidFile : CStr
  controlSocket : CStr
  domain : CStr
  psk : CStr
  port : ℤ
  mtu : ℤ
  encrypt : Bool
  encryptSet : Bool
  denyUnknownClients : Bool
  clientIsolation : Bool
  serverKey : CStr
  poolNet : Ip
  poolPrefix : ℕ
  poolSet : Bool
  maxClients : ℕ
  clientTimeout : ℕ
  deriving DecidableEq

/-- The globals of `config_server_db_reset`. -/
def ServerSection.reset : ServerSection :=
  ⟨[], [], [], [], [], [], [], [], 0, 0, false, false, false, false, [], 0x0AC80000, 24, false, 0, 0⟩

def ServerSection.globals (g : ServerSection) : ServerGlobals :=
  ⟨g.psk, g.denyUnknownClients, g.clientIsolation, g.poolNet, g.poolPrefix, g.clientTimeout⟩

/-- `camex_server_profile_t` with its display name. -/
structure ClientSection extends ServerProfile where
  name : CStr
  deriving DecidableEq

def ClientSection.new (clientId : CStr) : ClientSection := ⟨⟨clientId, .empty, true⟩, []⟩

/-! ## Values -/

def trimWhitespace (text : CStr) : CStr := ((text.dropWhile isSpace).reverse.dropWhile isSpace).reverse

def parsePort (value : CStr) : Option ℤ :=
  if value = [] then none
  else
    match strtol value with
    | some (v, []) => if v < 1 ∨ 65535 < v then none else some v
    | _ => none

/-- `yes`, `true`, `1` or `no`, `false`, `0`. -/
def parseBool (value : CStr) : Option Bool :=
  if strcaseeq value (ascii "yes") || strcaseeq value (ascii "true") || value == ascii "1" then some true
  else if strcaseeq value (ascii "no") || strcaseeq value (ascii "false") || value == ascii "0" then some false
  else none

def configParsePool (value : CStr) : Option (Ip × ℕ) :=
  match afterByte 47 value with
  | none => none
  | some rest =>
    if 16 ≤ (beforeByte 47 value).length then none
    else
      match inetPton (beforeByte 47 value), strtoul rest with
      | some host, some (p, []) =>
        if p < 8 ∨ 30 < p then none
        else if host.toNat % 2 ^ (32 - p) ≠ 0 then none
        else some (host, p)
      | _, _ => none

/-- `parse_client_timeout`, `parse_max_clients`: a number without a sign, within bounds. -/
def parseBounded (low high : ℕ) (value : CStr) : Option ℕ :=
  if value.head? = some 45 then none
  else
    match strtoul value with
    | some (v, []) => if v < low ∨ high < v then none else some v
    | _ => none

def parseClientTimeout (value : CStr) : Option ℕ := 
  parseBounded CAMEX_CLIENT_TIMEOUT_MIN CAMEX_CLIENT_TIMEOUT.toNat value

def parseMaxClients (value : CStr) : Option ℕ := parseBounded 1 CAMEX_MAX_CLIENTS_LIMIT value

def parsePeerPort (value : CStr) : Option ℤ :=
  if value = ascii "none" then some (-1)
  else if !value.all isDigit ∨ 5 < value.length then none
  else
    match strtol value with
    | some (v, []) => if v < 1 ∨ 65535 < v then none else some v
    | _ => none

/-- `config_db_apply_kv`; an unknown key is ignored. -/
def configDbApplyKv (p : Profile) (key value : CStr) : Option Profile :=
  if key = ascii "local_cidr" then (copyOption 32 value).map fun v => { p with localCidr := v }
  else if key = ascii "gateway_ip" then (copyOption 16 value).map fun v => { p with gatewayIp := v }
  else if key = ascii "route_cidr" then configProfileAppendRoute p value
  else if key = ascii "mtu" then (parseMtu value).map fun v => { p with mtu := v }
  else if key = ascii "psk" then (copyOption 128 value).map fun v => { p with psk := v }
  else if key = ascii "peer_port" then (parsePeerPort value).map fun v => { p with peerPort := v }
  else some p

/-- The keys of `[server]` and what each does with its value; `none`: the value is refused. -/
def serverKeys : List (String × (ServerSection → CStr → Option ServerSection)) :=
  [("port", fun g value => (parsePort value).map fun v => { g with port := v }),
    ("bind_ip", fun g value => (copyOption 16 value).map fun v => { g with bindIp := v }),
    ("local_cidr", fun g value => (copyOption 32 value).map fun v => { g with localCidr := v }),
    ("mtu", fun g value => (parseMtu value).map fun v => { g with mtu := v }),
    ("encrypt", fun g value => (parseBool value).map fun v => { g with encrypt := v, encryptSet := true }),
    ("allow_unknown_clients", fun g value => (parseBool value).map fun v => { g with denyUnknownClients := !v }),
    ("client_isolation", fun g value => (parseBool value).map fun v => { g with clientIsolation := v }),
    ("server_key", fun g value => (copyOption 64 value).map fun v => { g with serverKey := v }),
    ("psk", fun g value => (copyOption 128 value).map fun v => { g with psk := v }),
    ("auto_pool", fun g value =>
      (configParsePool value).map fun v => { g with poolNet := v.1, poolPrefix := v.2, poolSet := true }),
    ("max_clients", fun g value => (parseMaxClients value).map fun v => { g with maxClients := v }),
    ("client_timeout", fun g value => (parseClientTimeout value).map fun v => { g with clientTimeout := v }),
    ("tun_dev", fun g value => (copyOption 256 value).map fun v => { g with tunDev := v }),
    ("bind_dev", fun g value => (copyOption IFNAMSIZ value).map fun v => { g with bindDev := v }),
    ("pid_file", fun g value => (copyOption 256 value).map fun v => { g with pidFile := v }),
    ("control_socket", fun g value => (copyOption 108 value).map fun v => { g with controlSocket := v }),
    ("domain", fun g value =>
      if !validHostname value then none else (copyOption 254 value).map fun v => { g with domain := v }),
    ("name", fun _ _ => none),
    ("peer_port", fun _ _ => none)]

/-- A key of `[server]`: an unknown one is ignored. -/
def serverKv (g : ServerSection) (key value : CStr) : Option ServerSection :=
  match serverKeys.find? fun k => ascii k.1 == key with
  | some k => k.2 g value
  | none => some g

/-! ## Lines -/

/-- What `fgets` with a buffer of `size + 1` bytes takes of the data. -/
def fgets (size : ℕ) (data : Bytes) : Bytes :=
  data.take (min size (((data.take size).takeWhile (· ≠ 10)).length + 1))

/-- The lines that `fgets` gives until the end of the file; each takes a byte at least. -/
def fgetsLines (size : ℕ) : ℕ → Bytes → List CStr
  | 0, _ => []
  | fuel + 1, data =>
    if data = [] then []
    else untilNul (fgets size data) :: fgetsLines size fuel (data.drop (fgets size data).length)

/-- Where the values of the file go. -/
inductive Section
  | none
  | defaults
  | client (slot : ℕ)
  | server
  deriving DecidableEq

/-- The growing array of sections with its indexes: an operation that fails leaves it as it is by then. -/
structure ClientStore (S : Type) where
  /-- `config_db_get_client_slot`. -/
  getSlot : S → CStr → S × Option ℕ
  /-- A change of a section, which may be refused. -/
  change : S → ℕ → (ClientSection → Option ClientSection) → S × Bool
  /-- `config_db_index_ips`. -/
  indexIps : S → S × Bool

/-- `server_db` while a file is read. -/
structure Loading (S : Type) where
  store : S
  defaults : Profile
  globals : ServerSection
  current : Section
  loaded : Bool

/-- Behind `config_server_db_reset`. -/
def Loading.start {S : Type} (store : S) : Loading S := ⟨store, .empty, .reset, .none, false⟩

/-- What a trimmed line is. -/
inductive ConfigLine
  | blank
  | server
  | defaults
  | client (clientId : CStr)
  | value (key value : CStr)
  | bad
  deriving DecidableEq

def sectionLine (content : CStr) : ConfigLine :=
  if strcaseeq content (ascii "server") then .server
  else if strcaseeq content (ascii "defaults") then .defaults
  else if strcaseeq (content.take 6) (ascii "client") &&
      (content.drop 6 == [] || (content.drop 6).head?.any isSpace) then
    if trimWhitespace (content.drop 6) = [] then .bad else .client (trimWhitespace (content.drop 6))
  else .bad

def configLineOf (text : CStr) : ConfigLine :=
  let line := trimWhitespace text
  if line = [] ∨ line.head? = some 35 ∨ line.head? = some 59 then .blank
  else if line.head? = some 91 then
    if line.length < 2 ∨ line.getLast? ≠ some 93 then .bad
    else sectionLine (trimWhitespace line.dropLast.tail)
  else
    match afterByte 61 line with
    | none => .bad
    | some rest =>
      let key := trimWhitespace (beforeByte 61 line)
      let value := trimWhitespace rest
      if key = [] ∨ value = [] then .bad else .value key value

section Loader

variable {S : Type} (ops : ClientStore S)

/-- A value of a `[client ID]` section. -/
def clientKv (key value : CStr) (c : ClientSection) : Option ClientSection :=
  if key = ascii "name" then if camexNameValid value then some { c with name := store 65 value } else none
  else (configDbApplyKv c.profile key value).map fun p => { c with profile := p }

def configValue (st : Loading S) (key value : CStr) : Loading S × Bool :=
  match st.current with
  | .none => (st, false)
  | .server =>
    match serverKv st.globals key value with
    | none => (st, false)
    | some g => ({ st with globals := g }, true)
  | .defaults =>
    if key = ascii "name" then (st, false)
    else
      match configDbApplyKv st.defaults key value with
      | none => (st, false)
      | some p => ({ st with defaults := p }, true)
  | .client slot =>
    let r := ops.change st.store slot (clientKv key value)
    ({ st with store := r.1 }, r.2)

/-- The body of the loop of `config_db_parse_file`; `false`: the file is refused. -/
def configLine (st : Loading S) (text : CStr) : Loading S × Bool :=
  match configLineOf text with
  | .blank => (st, true)
  | .bad => (st, false)
  | .server => ({ st with current := .server }, true)
  | .defaults => ({ st with current := .defaults }, true)
  | .client clientId =>
    match ops.getSlot st.store clientId with
    | (store, none) => ({ st with store := store }, false)
    | (store, some slot) => ({ st with store := store, current := .client slot }, true)
  | .value key value => configValue ops st key value

def configLines (st : Loading S) : List CStr → Loading S × Bool
  | [] => (st, true)
  | text :: texts =>
    match configLine ops st text with
    | (st, true) => configLines st texts
    | (st, false) => (st, false)

/-- What `fopen` and `fgets` meet at the path. -/
inductive ConfigSource
  | noPath
  | missing
  | unreadable
  | content (data : Bytes)
  deriving DecidableEq

/-- `config_db_parse_file`; `store`: no sections. A missing file is an empty configuration. -/
def configDbParseFile (store : S) (file : ConfigSource) : Loading S × Bool :=
  match file with
  | .noPath => (.start store, true)
  | .missing => (.start store, true)
  | .unreadable => (.start store, false)
  | .content data =>
    match configLines ops (.start store) (fgetsLines 511 data.length data) with
    | (st, false) => (st, false)
    | (st, true) =>
      match ops.indexIps st.store with
      | (store, false) => ({ st with store := store }, false)
      | (store, true) => ({ st with store := store, loaded := true }, true)

/-- What every line of a kind preserves, a file of such lines does. -/
theorem configLines_invariant_of {P : Loading S → Prop} {Q : CStr → Prop}
    (hstep : ∀ st text, Q text → P st → P (configLine ops st text).1) {st : Loading S} (h : P st) {texts : List CStr}
    (htexts : ∀ text ∈ texts, Q text) : P (configLines ops st texts).1 := by
  induction texts generalizing st with
  | nil => exact h
  | cons text texts ih =>
    obtain ⟨htext, hrest⟩ := List.forall_mem_cons.mp htexts
    have hline := hstep st text htext h
    unfold configLines
    cases hc : configLine ops st text with
    | mk st' ok =>
      rw [hc] at hline
      cases ok with
      | true => exact ih hline hrest
      | false => exact hline

/-- What every line preserves, a file that is read does. -/
theorem configLines_invariant {P : Loading S → Prop} (hstep : ∀ st text, P st → P (configLine ops st text).1)
    {st : Loading S} (h : P st) (texts : List CStr) : P (configLines ops st texts).1 :=
  @configLines_invariant_of S ops P (fun _ => True) (fun st text _ hst => hstep st text hst) st h texts fun _ _ => trivial

end Loader

/-! ## What the checks let through -/

/-- A profile as the keys of a file make it. -/
structure ProfileLoaded (p : Profile) : Prop where
  fits : p.Fits
  mtu : p.mtu = 0 ∨ 576 ≤ p.mtu ∧ p.mtu ≤ 9000
  routes : ∀ route ∈ p.routeCidrs, CidrChecked route

theorem ProfileLoaded.empty : ProfileLoaded .empty :=
  ⟨by decide, Or.inl rfl, by simp [Profile.empty]⟩

theorem configDbApplyKv_loaded {p p' : Profile} {key value : CStr} (h : configDbApplyKv p key value = some p')
    (hp : ProfileLoaded p) : ProfileLoaded p' := by
  obtain ⟨⟨hlocal, hgateway, hcount, hshort⟩, hmtu, hroutes⟩ := hp
  unfold configDbApplyKv at h
  split at h
  · obtain ⟨v, hv, rfl⟩ := Option.map_eq_some_iff.mp h
    obtain ⟨rfl, hlen⟩ := copyOption_some hv
    exact ⟨⟨hlen, hgateway, hcount, hshort⟩, hmtu, hroutes⟩
  split at h
  · obtain ⟨v, hv, rfl⟩ := Option.map_eq_some_iff.mp h
    obtain ⟨rfl, hlen⟩ := copyOption_some hv
    exact ⟨⟨hlocal, hlen, hcount, hshort⟩, hmtu, hroutes⟩
  split at h
  · obtain ⟨rfl, hne, hlen, hroom, hvalid⟩ := configProfileAppendRoute_some h
    refine ⟨⟨hlocal, hgateway, ?_, fun route hmem => ?_⟩, hmtu, fun route hmem => ?_⟩
    · rw [List.length_append, List.length_singleton]
      omega
    · rcases List.mem_append.mp hmem with hmem | hmem
      · exact hshort route hmem
      · rwa [List.mem_singleton.mp hmem]
    · rcases List.mem_append.mp hmem with hmem | hmem
      · exact hroutes route hmem
      · rw [List.mem_singleton.mp hmem]
        exact validateRouteCidr_checked hne hvalid
  split at h
  · obtain ⟨v, hv, rfl⟩ := Option.map_eq_some_iff.mp h
    exact ⟨⟨hlocal, hgateway, hcount, hshort⟩, Or.inr (parseMtu_some hv).2, hroutes⟩
  split at h
  · obtain ⟨v, -, rfl⟩ := Option.map_eq_some_iff.mp h
    exact ⟨⟨hlocal, hgateway, hcount, hshort⟩, hmtu, hroutes⟩
  split at h
  · obtain ⟨v, -, rfl⟩ := Option.map_eq_some_iff.mp h
    exact ⟨⟨hlocal, hgateway, hcount, hshort⟩, hmtu, hroutes⟩
  · rw [← Option.some.inj h]
    exact ⟨⟨hlocal, hgateway, hcount, hshort⟩, hmtu, hroutes⟩

/-- An auto pool within its bounds. -/
structure PoolOk (net : Ip) (prefixLen : ℕ) : Prop where
  min : 8 ≤ prefixLen
  max : prefixLen ≤ 30
  aligned : net.toNat % 2 ^ (32 - prefixLen) = 0

theorem configParsePool_ok {value : CStr} {net : Ip} {prefixLen : ℕ}
    (h : configParsePool value = some (net, prefixLen)) : PoolOk net prefixLen := by
  unfold configParsePool at h
  split at h
  · cases h
  · split at h
    · cases h
    · split at h
      · split at h
        · cases h
        · rename_i hbounds
          split at h
          · cases h
          · rename_i haligned
            obtain ⟨rfl, rfl⟩ := Prod.mk.inj (Option.some.inj h)
            exact ⟨by omega, by omega, not_not.mp haligned⟩
      · cases h

/-- A value stored elsewhere leaves the pool alone. -/
theorem PoolOk.stored {α : Type} {value : Option α} {f : α → ServerSection} {g g' : ServerSection}
    (hg : PoolOk g.poolNet g.poolPrefix) (h : value.map f = some g')
    (hf : ∀ v, (f v).poolNet = g.poolNet ∧ (f v).poolPrefix = g.poolPrefix) :
    PoolOk g'.poolNet g'.poolPrefix := by
  obtain ⟨v, -, rfl⟩ := Option.map_eq_some_iff.mp h
  rwa [(hf v).1, (hf v).2]

theorem serverKv_pool {g g' : ServerSection} {key value : CStr} (h : serverKv g key value = some g')
    (hg : PoolOk g.poolNet g.poolPrefix) : PoolOk g'.poolNet g'.poolPrefix := by
  unfold serverKv at h
  split at h
  · rename_i k hk
    have hmem := List.mem_of_find?_eq_some hk
    clear hk
    simp only [serverKeys, List.mem_cons, List.not_mem_nil, or_false] at hmem
    rcases hmem with rfl | rfl | rfl | rfl | rfl | rfl | rfl | rfl | rfl | rfl | rfl | rfl | rfl | rfl | rfl | rfl |
      rfl | rfl | rfl
    case inr.inr.inr.inr.inr.inr.inr.inr.inr.inl =>
      obtain ⟨v, hv, rfl⟩ := Option.map_eq_some_iff.mp h
      exact configParsePool_ok hv
    all_goals dsimp only at h
    case inr.inr.inr.inr.inr.inr.inr.inr.inr.inr.inr.inr.inr.inr.inr.inr.inl =>
      split at h
      · cases h
      · exact hg.stored h fun _ => ⟨rfl, rfl⟩
    all_goals first
      | exact hg.stored h fun _ => ⟨rfl, rfl⟩
      | cases h
  · rwa [← Option.some.inj h]

/-! ## A file in a list -/

/-- The sections in file order, with memory for every one. -/
def listStore : ClientStore (List ClientSection) where
  getSlot cs clientId :=
    match cs.findIdx? fun c => c.active && strcaseeq c.clientId clientId with
    | some i => (cs, some i)
    | none =>
      if clientId = [] ∨ CAMEX_CLIENT_ID_LEN ≤ clientId.length ∨ CAMEX_MAX_CLIENTS_LIMIT ≤ cs.length then (cs, none)
      else (cs ++ [.new clientId], some cs.length)
  change cs slot f :=
    match cs[slot]? with
    | none => (cs, false)
    | some c =>
      match f c with
      | none => (cs, false)
      | some c' => (cs.set slot c', true)
  indexIps cs := (cs, true)

/-- What a file makes, whatever it says. -/
structure FileOk (st : Loading (List ClientSection)) : Prop where
  defaults : ProfileLoaded st.defaults
  profiles : ∀ c ∈ st.store, ProfileLoaded c.profile
  ids : ∀ c ∈ st.store, c.clientId ≠ [] ∧ c.clientId.length < CAMEX_CLIENT_ID_LEN ∧ c.active = true
  distinct : (st.store.map fun c => c.clientId).Pairwise fun a b => strcaseeq a b = false
  pool : PoolOk st.globals.poolNet st.globals.poolPrefix

theorem FileOk.start : FileOk (.start []) where
  defaults := .empty
  profiles := by simp [Loading.start]
  ids := by simp [Loading.start]
  distinct := .nil
  pool := ⟨by decide, by decide, by decide⟩

theorem clientKv_some {key value : CStr} {c c' : ClientSection} (h : clientKv key value c = some c') :
    c'.clientId = c.clientId ∧ c'.active = c.active ∧ (ProfileLoaded c.profile → ProfileLoaded c'.profile) := by
  unfold clientKv at h
  split at h
  · split at h
    · rw [← Option.some.inj h]
      exact ⟨rfl, rfl, id⟩
    · cases h
  · obtain ⟨p, hp, rfl⟩ := Option.map_eq_some_iff.mp h
    exact ⟨rfl, rfl, configDbApplyKv_loaded hp⟩

theorem FileOk.change {st : Loading (List ClientSection)} (h : FileOk st) (slot : ℕ) (key value : CStr) :
    FileOk { st with store := (listStore.change st.store slot (clientKv key value)).1 } := by
  unfold listStore
  dsimp only
  cases hc : st.store[slot]? with
  | none => exact h
  | some c =>
    have hmem := List.mem_of_getElem? hc
    dsimp only
    cases hkv : clientKv key value c with
    | none => exact h
    | some c' =>
      obtain ⟨hid, hactive, hloaded⟩ := clientKv_some hkv
      refine ⟨h.defaults, fun x hx => ?_, fun x hx => ?_, ?_, h.pool⟩
      · rcases List.mem_or_eq_of_mem_set hx with hx | rfl
        · exact h.profiles x hx
        · exact hloaded (h.profiles c hmem)
      · rcases List.mem_or_eq_of_mem_set hx with hx | rfl
        · exact h.ids x hx
        · rw [hid, hactive]
          exact h.ids c hmem
      · have hsame : (st.store.set slot c').map (fun c => c.clientId) = st.store.map fun c => c.clientId := by
          rw [List.map_set, hid]
          obtain ⟨hlt, rfl⟩ := List.getElem?_eq_some_iff.mp hc
          refine List.ext_getElem (by simp) fun i h₁ h₂ => ?_
          rw [List.getElem_set]
          split
          · rename_i hi
            subst hi
            rw [List.getElem_map]
          · rfl
        show ((st.store.set slot c').map fun c => c.clientId).Pairwise _
        rw [hsame]
        exact h.distinct

theorem FileOk.getSlot {st : Loading (List ClientSection)} (h : FileOk st) (clientId : CStr) :
    FileOk { st with store := (listStore.getSlot st.store clientId).1 } := by
  unfold listStore
  dsimp only
  cases hfind : st.store.findIdx? fun c => c.active && strcaseeq c.clientId clientId with
  | some i => exact h
  | none =>
    dsimp only
    split
    · exact h
    · rename_i hroom
      rw [not_or, not_or, not_le] at hroom
      obtain ⟨hne, hshort, -⟩ := hroom
      have hnew : ∀ c ∈ st.store, strcaseeq c.clientId clientId = false := by
        intro c hc
        have hnot := List.findIdx?_eq_none_iff.mp hfind c hc
        rw [(h.ids c hc).2.2, Bool.true_and] at hnot
        exact hnot
      refine ⟨h.defaults, fun x hx => ?_, fun x hx => ?_, ?_, h.pool⟩
      · rcases List.mem_append.mp hx with hx | hx
        · exact h.profiles x hx
        · rw [List.mem_singleton.mp hx]
          exact .empty
      · rcases List.mem_append.mp hx with hx | hx
        · exact h.ids x hx
        · rw [List.mem_singleton.mp hx]
          exact ⟨hne, hshort, rfl⟩
      · show ((st.store ++ [ClientSection.new clientId]).map fun c => c.clientId).Pairwise _
        rw [List.map_append, List.pairwise_append]
        refine ⟨h.distinct, List.pairwise_singleton _ _, fun a ha b hb => ?_⟩
        obtain ⟨c, hc, rfl⟩ := List.mem_map.mp ha
        rw [List.map_singleton, List.mem_singleton] at hb
        rw [hb]
        exact hnew c hc

theorem FileOk.of_current {st : Loading (List ClientSection)} (h : FileOk st) (current : Section) :
    FileOk { st with current := current } := ⟨h.defaults, h.profiles, h.ids, h.distinct, h.pool⟩

theorem FileOk.line {st : Loading (List ClientSection)} (h : FileOk st) (text : CStr) :
    FileOk (configLine listStore st text).1 := by
  unfold configLine
  cases configLineOf text with
  | blank => exact h
  | bad => exact h
  | server => exact h.of_current .server
  | defaults => exact h.of_current .defaults
  | client clientId =>
    have hslot := h.getSlot clientId
    dsimp only
    cases hget : listStore.getSlot st.store clientId with
    | mk store slot =>
      rw [hget] at hslot
      cases slot with
      | none => exact hslot
      | some slot => exact hslot.of_current (.client slot)
  | value key value =>
    dsimp only
    unfold configValue
    split
    · exact h
    · split
      · exact h
      · rename_i hkv
        exact ⟨h.defaults, h.profiles, h.ids, h.distinct, serverKv_pool hkv h.pool⟩
    · split
      · exact h
      · split
        · exact h
        · rename_i hkv
          exact ⟨configDbApplyKv_loaded hkv h.defaults, h.profiles, h.ids, h.distinct, h.pool⟩
    · exact h.change _ key value

theorem fileOk_parse (file : ConfigSource) : FileOk (configDbParseFile listStore [] file).1 := by
  unfold configDbParseFile
  split
  · exact .start
  · exact .start
  · exact .start
  · rename_i data
    have hlines := configLines_invariant listStore (P := FileOk) (fun st text h => h.line text) .start
      (fgetsLines 511 data.length data)
    cases hc : configLines listStore (.start []) (fgetsLines 511 data.length data) with
    | mk st ok =>
      rw [hc] at hlines
      cases ok with
      | false => exact hlines
      | true => exact ⟨hlines.defaults, hlines.profiles, hlines.ids, hlines.distinct, hlines.pool⟩

def FileOk.db {st : Loading (List ClientSection)} (h : FileOk st) : ServerDb where
  defaults := st.defaults
  clients := st.store.map ClientSection.toServerProfile
  globals := st.globals.globals
  idsDistinct := by
    rw [List.pairwise_map]
    exact List.pairwise_map.mp h.distinct
  idsNonempty := List.forall_mem_map.mpr fun c hc => (h.ids c hc).1
  idsShort := List.forall_mem_map.mpr fun c hc => (h.ids c hc).2.1
  defaultsFit := h.defaults.fits
  profilesFit := List.forall_mem_map.mpr fun c hc => (h.profiles c hc).fits
  poolPrefixMin := h.pool.min
  poolPrefixMax := h.pool.max
  poolNetAligned := h.pool.aligned

/-- `config_db_load_file`: the database, when the file is accepted. -/
def configDbLoadFile (file : ConfigSource) : Option ServerDb :=
  if (configDbParseFile listStore [] file).2 then some (fileOk_parse file).db else none

theorem configDbLoadFile_profiles {file : ConfigSource} {db : ServerDb} (h : configDbLoadFile file = some db) :
    ProfileLoaded db.defaults ∧ ∀ c ∈ db.clients, ProfileLoaded c.profile := by
  unfold configDbLoadFile at h
  split at h
  · have hok := fileOk_parse file
    rw [← Option.some.inj h]
    exact ⟨hok.defaults, List.forall_mem_map.mpr hok.profiles⟩
  · cases h

example : configDbLoadFile (.content (ascii "[client cam]\nmtu = 100\n")) = none := by decide +kernel

end Camex
