import Camex.Proto

/-!
# A client's configuration (`camex_config_t`, `proto.c`)

`CamexConfig` is the configuration of a running program. `protoBuildRegister` writes the REGISTER of a client,
`protoParseConfig` reads the CONFIG it is answered and puts it into the configuration as a whole, or not at all.
-/

namespace Camex

open Lib

/-- `route_cidrs[CAMEX_MAX_ROUTES][32]`: the buffers, with the bytes behind each NUL. -/
abbrev RouteArray := Fin CAMEX_MAX_ROUTES → Bytes

/-- `camex_config_t`. -/
structure CamexConfig where
  bindIp : CStr
  localIp : CStr
  localCidr : CStr
  gatewayIp : CStr
  serverHost : CStr
  port : ℤ
  routeCidrs : RouteArray
  routeCount : ℕ
  mtu : ℤ
  encrypt : Bool
  psk : CStr
  clientId : CStr
  configPath : CStr
  autoConfig : Bool
  transport : ℕ
  serverMode : Bool
  pidFile : CStr
  bindDev : CStr
  tunDev : CStr
  serverTimeout : ℤ
  keepalive : ℤ
  serverKeyFile : CStr
  serverPubkey : CStr
  controlPath : CStr
  clientIsolation : Bool
  statusQuery : Bool
  statusJson : Bool
  statusNginxMap : Bool
  statusNginxIndex : Bool
  mapDomain : CStr
  mapPort : ℤ
  mapHttpPort : ℤ
  mapDefault : CStr
  statusWait : Option CStr
  statusWaitTimeout : ℤ

def CamexConfig.zero : CamexConfig where
  bindIp := []
  localIp := []
  localCidr := []
  gatewayIp := []
  serverHost := []
  port := 0
  routeCidrs := fun _ => List.replicate 32 0
  routeCount := 0
  mtu := 0
  encrypt := false
  psk := []
  clientId := []
  configPath := []
  autoConfig := false
  transport := 0
  serverMode := false
  pidFile := []
  bindDev := []
  tunDev := []
  serverTimeout := 0
  keepalive := 0
  serverKeyFile := []
  serverPubkey := []
  controlPath := []
  clientIsolation := false
  statusQuery := false
  statusJson := false
  statusNginxMap := false
  statusNginxIndex := false
  mapDomain := []
  mapPort := 0
  mapHttpPort := 0
  mapDefault := []
  statusWait := none
  statusWaitTimeout := 0

def CamexConfig.routes (c : CamexConfig) : List CStr :=
  ((List.finRange CAMEX_MAX_ROUTES).take c.routeCount).map fun i => untilNul (c.routeCidrs i)

/-- A field with another name, whose first letter is another one. -/
theorem tokenValue_field (key name : String) {value : CStr} {size : ℕ}
    (h : (ascii key ++ [61]).head? ≠ (ascii name ++ [61]).head?) :
    tokenValue (ascii key) size (ascii name ++ 61 :: value) = none := by
  refine tokenValue_other fun heq => h ?_
  rw [heq]
  cases ascii name <;> rfl

/-! ## REGISTER -/

def registerFields (config : CamexConfig) : List CStr :=
  [CAMEX_CTRL_WORD ++ ascii " REGISTER", ctrlField "VER" (natText CAMEX_PROTO_VER)] ++
    (if config.autoConfig then
      [ascii " MODE=AUTO" ++ ctrlField "CLIENT_ID" config.clientId] ++
        if config.localIp ≠ [] then [ctrlField "LOCAL_IP" config.localIp] else []
    else
      [ascii " MODE=MANUAL" ++ ctrlField "LOCAL_IP" config.localIp] ++
        if config.clientId ≠ [] then [ctrlField "CLIENT_ID" config.clientId] else []) ++
    [[10]]

def protoBuildRegister (config : CamexConfig) (size : ℕ) : Option CStr :=
  (registerFields config).foldl (appendControlField size) (some [])

/-! ## Values of a CONFIG -/

def parseMtu (value : CStr) : Option ℤ :=
  if value = [] then none
  else
    match strtol value with
    | some (v, []) => if v < 576 ∨ 9000 < v then none else some v
    | _ => none

def validateRouteCidr (cidr : CStr) : Bool :=
  if cidr = [] then true
  else if 32 ≤ cidr.length then false
  else
    match afterByte 47 cidr with
    | none => false
    | some rest =>
      let buffer := beforeByte 47 cidr
      if buffer = [] ∨ rest = [] then false
      else
        match inetPton buffer with
        | none => false
        | some _ =>
          match strtol rest with
          | some (prefixLen, []) => decide (¬ (prefixLen < 0 ∨ 32 < prefixLen))
          | _ => false

/-- `append_route_option`, `config_profile_append_route`. -/
def configProfileAppendRoute (profile : Profile) (value : CStr) : Option Profile :=
  if value = [] then none
  else if CAMEX_MAX_ROUTES ≤ profile.routeCidrs.length then none
  else if !validateRouteCidr value then none
  else if 32 ≤ value.length then none
  else some { profile with routeCidrs := profile.routeCidrs ++ [value] }

/-- What `parse_local_cidr` and `validate_route_cidr` check. -/
def CidrChecked (s : CStr) : Prop :=
  ∃ (ip : Ip) (p : CStr) (v : ℤ), s = ipText ip ++ 47 :: p ∧ p ≠ [] ∧ strtol p = some (v, []) ∧ 0 ≤ v ∧ v ≤ 32

theorem validateRouteCidr_checked {cidr : CStr} (hne : cidr ≠ []) (h : validateRouteCidr cidr = true) :
    CidrChecked cidr := by
  unfold validateRouteCidr at h
  rw [if_neg hne] at h
  split at h
  · cases h
  · split at h
    · cases h
    · rename_i rest hrest
      dsimp only at h
      split at h
      · cases h
      · rename_i hempty
        rw [not_or] at hempty
        split at h
        · cases h
        · rename_i ip hip
          split at h
          · rename_i v hv
            have hbound := of_decide_eq_true h
            rw [not_or, not_lt, not_lt] at hbound
            refine ⟨ip, rest, v, ?_, hempty.2, hv, hbound.1, hbound.2⟩
            rw [← inetPton_some hip]
            exact afterByte_some hrest
          · cases h

theorem parseLocalCidr_checked {cidr : CStr} (h : (parseLocalCidr cidr).isSome = true) : CidrChecked cidr := by
  unfold parseLocalCidr at h
  split at h
  · cases h
  · split at h
    · cases h
    · rename_i rest hrest
      dsimp only at h
      split at h
      · cases h
      · rename_i hempty
        rw [not_or] at hempty
        split at h
        · cases h
        · rename_i ip hip
          split at h
          · rename_i v hv
            split at h
            · cases h
            · rename_i hbound
              rw [not_or, not_lt, not_lt] at hbound
              refine ⟨ip, rest, v, ?_, hempty.2, hv, hbound.1, hbound.2⟩
              rw [← inetPton_some hip]
              exact afterByte_some hrest
          · cases h

theorem parseMtu_some {value : CStr} {v : ℤ} (h : parseMtu value = some v) :
    strtol value = some (v, []) ∧ 576 ≤ v ∧ v ≤ 9000 := by
  unfold parseMtu at h
  split at h
  · cases h
  · split at h
    · rename_i w hw
      split at h
      · cases h
      · rename_i hbound
        rw [not_or, not_lt, not_lt] at hbound
        rw [← Option.some.inj h]
        exact ⟨hw, hbound⟩
    · cases h

theorem configProfileAppendRoute_some {p p' : Profile} {value : CStr}
    (h : configProfileAppendRoute p value = some p') :
    p' = { p with routeCidrs := p.routeCidrs ++ [value] } ∧ value ≠ [] ∧ value.length < 32 ∧
      p.routeCidrs.length < CAMEX_MAX_ROUTES ∧ validateRouteCidr value = true := by
  unfold configProfileAppendRoute at h
  split at h
  · cases h
  · rename_i hne
    split at h
    · cases h
    · rename_i hroom
      split at h
      · cases h
      · rename_i hvalid
        split at h
        · cases h
        · rename_i hlen
          exact ⟨(Option.some.inj h).symm, hne, by omega, by omega, by simpa using hvalid⟩

def configApplyProfile (config : CamexConfig) (profile : Profile) : Option CamexConfig :=
  if profile.localCidr = [] ∨ profile.gatewayIp = [] then none
  else some
    { config with
      localCidr := store 32 profile.localCidr
      gatewayIp := store 16 profile.gatewayIp
      routeCidrs := fun i =>
        match profile.routeCidrs[i.val]? with
        | some route => putString (config.routeCidrs i) (store 32 route)
        | none => config.routeCidrs i
      routeCount := min profile.routeCidrs.length CAMEX_MAX_ROUTES
      mtu := if 0 < profile.mtu then profile.mtu else config.mtu }

/-! ## CONFIG -/

/-- What a CONFIG says, staged. -/
structure ConfigText where
  profile : Profile
  clientId : CStr
  deriving DecidableEq

/-- One token of a CONFIG behind its first two words; `none` rejects the message. -/
def protoConfigToken (c : ConfigText) (token : CStr) : Option ConfigText :=
  match tokenValue (ascii "CLIENT_ID") CAMEX_CLIENT_TOKEN_LEN token with
  | some value => (copyOption CAMEX_CLIENT_ID_LEN value).map fun v => { c with clientId := v }
  | none =>
  match tokenValue (ascii "LOCAL_CIDR") CAMEX_CLIENT_TOKEN_LEN token with
  | some value => (copyOption 32 value).map fun v => { c with profile := { c.profile with localCidr := v } }
  | none =>
  match tokenValue (ascii "GATEWAY_IP") CAMEX_CLIENT_TOKEN_LEN token with
  | some value => (copyOption 16 value).map fun v => { c with profile := { c.profile with gatewayIp := v } }
  | none =>
  match tokenValue (ascii "ROUTE_CIDR") CAMEX_CLIENT_TOKEN_LEN token with
  | some value => (configProfileAppendRoute c.profile value).map fun p => { c with profile := p }
  | none =>
  match tokenValue (ascii "MTU") CAMEX_CLIENT_TOKEN_LEN token with
  | some value => (parseMtu value).map fun v => { c with profile := { c.profile with mtu := v } }
  | none =>
  match tokenValue (ascii "VER") CAMEX_CLIENT_TOKEN_LEN token with
  | some _ => some c
  | none => none

/-- The checks of a CONFIG that was read, and its ID against the client's own. -/
def configAccepted (config : CamexConfig) (c : ConfigText) : Bool :=
  (c.profile.localCidr == [] || (parseLocalCidr c.profile.localCidr).isSome) &&
    (c.profile.gatewayIp == [] || (inetPton c.profile.gatewayIp).isSome) &&
    (config.clientId == [] || c.clientId == [] || strcaseeq config.clientId c.clientId)

/-- `proto_parse_config`: the configuration with the CONFIG in it; `none`: -1, it stays as it was. -/
def protoParseConfig (message : Bytes) (config : CamexConfig) : Option CamexConfig :=
  match tokens isCtrlDelim (untilNul message) with
  | w :: v :: rest =>
    if w ≠ CAMEX_CTRL_WORD ∨ v ≠ ascii "CONFIG" then none
    else
      match rest.foldlM protoConfigToken ⟨.empty, config.clientId⟩ with
      | none => none
      | some c =>
        if !configAccepted config c then none
        else
          (configApplyProfile config c.profile).map fun config =>
            if c.clientId ≠ [] then { config with clientId := c.clientId } else config
  | _ => none

end Camex
