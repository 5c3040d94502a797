import Camex.ConfigFile
import Camex.Safety.ConfigText
import Mathlib.Algebra.Group.Action.Defs
import Mathlib.Algebra.Order.BigOperators.Group.List

/-!
# CONFIG, from a configuration file to the client

The server merges the section of a client into the defaults and writes the result into a CONFIG, the client reads it.

* `ProfileLoaded.merge`, `protoBuildConfig_fits`: a profile that was loaded fits a CONFIG;
* `tokens_config`: what the client reads in it, word by word;
* `configRoundTrip_iff`: a well-formed profile arrives as it is exactly when its address and its routes are one
  word each.
-/

namespace Camex

open Lib

def Profile.WellFormed (p : Profile) : Prop :=
  (parseLocalCidr p.localCidr).isSome = true ∧ (inetPton p.gatewayIp).isSome = true

/-- No blank inside the address or a route. -/
def Profile.OneWord (p : Profile) : Prop :=
  (∀ b ∈ p.localCidr, isCtrlDelim b = false) ∧ ∀ route ∈ p.routeCidrs, ∀ b ∈ route, isCtrlDelim b = false

instance (p : Profile) : Decidable p.WellFormed := inferInstanceAs (Decidable (_ ∧ _))

instance (p : Profile) : Decidable p.OneWord := inferInstanceAs (Decidable (_ ∧ _))

/-- A client of this ID accepts the text and takes over the profile. -/
def ConfigSurvives (clientId : CStr) (p : Profile) (text : CStr) : Prop :=
  ∀ config : CamexConfig, config.clientId = clientId → ∃ config', protoParseConfig text config = some config' ∧
    config'.localCidr = p.localCidr ∧ config'.gatewayIp = p.gatewayIp ∧
    config'.mtu = (if 0 < p.mtu then p.mtu else config.mtu) ∧ config'.routes = p.routeCidrs

/-- The CONFIG of a profile fits its buffer and, for a well-formed profile, arrives. -/
def ConfigRoundTrip (clientId : CStr) (p : Profile) : Prop :=
  ∃ text, protoBuildConfig clientId p CAMEX_CONTROL_MAX = some text ∧
    (p.WellFormed → ConfigSurvives clientId p text)

/-! ## The profile -/

theorem ProfileLoaded.merge {dst src : Profile} (hd : ProfileLoaded dst) (hs : ProfileLoaded src) :
    ProfileLoaded (configProfileMerge dst src) := by
  obtain ⟨⟨hdl, hdg, hdc, hdr⟩, hdm, hdk⟩ := hd
  obtain ⟨⟨hsl, hsg, -, hsr⟩, hsm, hsk⟩ := hs
  have hroutes : ∀ route ∈ (configProfileMerge dst src).routeCidrs, route ∈ dst.routeCidrs ∨ route ∈ src.routeCidrs := by
    intro route hroute
    unfold configProfileMerge at hroute
    rcases List.mem_append.mp hroute with hroute | hroute
    · exact Or.inl hroute
    · obtain ⟨r, hr, rfl⟩ := List.mem_map.mp (List.mem_of_mem_take hroute)
      rw [store_of_lt (hsr r hr)]
      exact Or.inr hr
  refine ⟨⟨?_, ?_, ?_, fun route hroute => ?_⟩, ?_, fun route hroute => ?_⟩
  · unfold configProfileMerge
    dsimp only
    split
    · rwa [store_of_lt hsl]
    · exact hdl
  · unfold configProfileMerge
    dsimp only
    split
    · rwa [store_of_lt hsg]
    · exact hdg
  · unfold configProfileMerge
    rw [List.length_append, List.length_take]
    omega
  · exact (hroutes route hroute).elim (hdr route) (hsr route)
  · unfold configProfileMerge
    dsimp only
    split
    · exact hsm
    · exact hdm
  · exact (hroutes route hroute).elim (hdk route) (hsk route)

theorem configDbLookupProfile_loaded {file : ConfigSource} {db : ServerDb} (h : configDbLoadFile file = some db)
    (clientId : CStr) : ProfileLoaded (configDbLookupProfile db clientId) := by
  obtain ⟨hdefaults, hclients⟩ := configDbLoadFile_profiles h
  unfold configDbLookupProfile
  split
  · rename_i p hp
    unfold configDbFindClient at hp
    split at hp
    · cases hp
    · exact hdefaults.merge (hclients p (List.mem_of_find?_eq_some hp))
  · exact hdefaults

/-! ## The text -/

/-- Fields whose lengths sum up to less than the size of the buffer fit it. -/
theorem foldl_appendControlField_fits {size : ℕ} (fields : List CStr) {b : CStr}
    (h : b.length + fields.flatten.length < size) :
    fields.foldl (appendControlField size) (some b) = some (b ++ fields.flatten) := by
  induction fields generalizing b with
  | nil => simp
  | cons f fs ih =>
    rw [List.flatten_cons, List.length_append] at h
    have hfits : appendControlField size (some b) f = some (b ++ f) := by
      unfold appendControlField
      dsimp only
      rw [if_neg (by omega)]
    rw [List.foldl_cons, hfits, ih (by rw [List.length_append]; omega), List.flatten_cons, List.append_assoc]

/-- The names and values of a CONFIG in their order. -/
def configPairs (clientId : CStr) (p : Profile) : List (String × CStr) :=
  ("VER", natText CAMEX_PROTO_VER) ::
    ((if clientId ≠ [] then [("CLIENT_ID", clientId)] else []) ++
      ((if 0 < p.mtu then [("MTU", intText p.mtu)] else []) ++
        ("LOCAL_CIDR", p.localCidr) :: ("GATEWAY_IP", p.gatewayIp) ::
          p.routeCidrs.map fun route => ("ROUTE_CIDR", route)))

def pairField (x : String × CStr) : CStr := ctrlField x.1 x.2

def pairToken (x : String × CStr) : CStr := ascii x.1 ++ 61 :: x.2

theorem configFields_eq (clientId : CStr) {p : Profile} (hlocal : p.localCidr ≠ []) (hgateway : p.gatewayIp ≠ []) :
    configFields clientId p =
      (CAMEX_CTRL_WORD ++ ascii " CONFIG") :: ((configPairs clientId p).map pairField ++ [[10]]) := by
  unfold configFields configPairs
  rw [if_pos hlocal, if_pos hgateway]
  by_cases hid : clientId = []
  · by_cases hmtu : 0 < p.mtu
    · simp [hid, hmtu, pairField]
    · simp [hid, hmtu, pairField]
  · by_cases hmtu : 0 < p.mtu
    · simp [hid, hmtu, pairField]
    · simp [hid, hmtu, pairField]

section Built

variable {clientId : CStr} {p : Profile}

theorem intText_length {v : ℤ} (h : 0 < v) (hle : v ≤ 9000) : (intText v).length ≤ 4 := by
  unfold intText
  rw [if_neg (by omega)]
  exact natText_length (by decide) (by omega)

theorem sum_map_const_le {α : Type} (l : List α) (f : α → ℕ) {k : ℕ} (h : ∀ x ∈ l, f x ≤ k) :
    (l.map f).sum ≤ l.length * k := by
  have hbound := List.sum_le_card_nsmul (l.map f) k (by simpa using h)
  rwa [List.length_map, smul_eq_mul] at hbound

/-- **A loaded profile fits a CONFIG.** -/
theorem protoBuildConfig_fits (hp : ProfileLoaded p) (hlocal : p.localCidr ≠ []) (hgateway : p.gatewayIp ≠ [])
    (hid : clientId.length < CAMEX_CLIENT_ID_LEN) :
    protoBuildConfig clientId p CAMEX_CONTROL_MAX =
      some ((CAMEX_CTRL_WORD ++ ascii " CONFIG") ++ ((configPairs clientId p).map pairField ++ [[10]]).flatten) := by
  obtain ⟨⟨hl, hg, hcount, hroutes⟩, hmtu, -⟩ := hp
  have hlen : ∀ (name : String) (value : CStr), (ctrlField name value).length = (ascii name).length + value.length + 2 := by
    intro name value
    unfold ctrlField
    rw [List.length_cons, List.length_append, List.length_cons]
    omega
  have hid' : ((if clientId ≠ [] then [("CLIENT_ID", clientId)] else []).map fun x : String × CStr =>
      (pairField x).length).sum ≤ 42 := by
    have hname : (ascii "CLIENT_ID").length = 9 := by decide
    have hlt : clientId.length < 32 := hid
    split
    · simp only [List.map_cons, List.map_nil, List.sum_cons, List.sum_nil, pairField, hlen, hname]
      omega
    · simp
  have hmtu' : ((if 0 < p.mtu then [("MTU", intText p.mtu)] else []).map fun x : String × CStr =>
      (pairField x).length).sum ≤ 9 := by
    have hname : (ascii "MTU").length = 3 := by decide
    split
    · rename_i hpos
      have htext := intText_length hpos (by omega)
      simp only [List.map_cons, List.map_nil, List.sum_cons, List.sum_nil, pairField, hlen, hname]
      omega
    · simp
  have hroutes' : (p.routeCidrs.map fun route => (ctrlField "ROUTE_CIDR" route).length).sum ≤ 16 * 43 := by
    have hname : (ascii "ROUTE_CIDR").length = 10 := by decide
    refine (sum_map_const_le p.routeCidrs _ (k := 43) fun route hroute => ?_).trans
      (Nat.mul_le_mul_right 43 hcount)
    have hlt := hroutes route hroute
    rw [hlen, hname]
    omega
  have hver : (ctrlField "VER" (natText CAMEX_PROTO_VER)).length = 6 := by decide
  have hcidr : (ctrlField "LOCAL_CIDR" p.localCidr).length ≤ 43 := by
    have hname : (ascii "LOCAL_CIDR").length = 10 := by decide
    rw [hlen, hname]
    omega
  have hip : (ctrlField "GATEWAY_IP" p.gatewayIp).length ≤ 27 := by
    have hname : (ascii "GATEWAY_IP").length = 10 := by decide
    rw [hlen, hname]
    omega
  have hword : CAMEX_CTRL_WORD.length = 5 := by decide
  have hconfig : (ascii " CONFIG").length = 7 := by decide
  have htotal : (((configPairs clientId p).map pairField).flatten).length ≤ 6 + (42 + (9 + (43 + (27 + 16 * 43)))) := by
    rw [List.length_flatten, List.map_map]
    unfold configPairs
    rw [List.map_cons, List.sum_cons, List.map_append, List.sum_append, List.map_append, List.sum_append,
      List.map_cons, List.sum_cons, List.map_cons, List.sum_cons, List.map_map]
    exact Nat.add_le_add hver.le (Nat.add_le_add hid' (Nat.add_le_add hmtu' (Nat.add_le_add hcidr
      (Nat.add_le_add hip hroutes'))))
  unfold protoBuildConfig
  rw [configFields_eq clientId hlocal hgateway, foldl_appendControlField_fits, List.flatten_cons, List.nil_append]
  rw [List.flatten_cons, List.length_append, List.flatten_append, List.length_append, List.length_append, hword,
    hconfig, List.length_nil]
  have hend : ([[10]] : List CStr).flatten.length = 1 := rfl
  have hmax : CAMEX_CONTROL_MAX = 1024 := rfl
  omega

/-- **A CONFIG of one-word values**, word by word. -/
theorem tokens_config (hwords : ∀ x ∈ configPairs clientId p, (∀ b ∈ ascii x.1, isCtrlDelim b = false) ∧
      ∀ b ∈ x.2, isCtrlDelim b = false) :
    tokens isCtrlDelim ((CAMEX_CTRL_WORD ++ ascii " CONFIG") ++
        ((configPairs clientId p).map pairField ++ [[10]]).flatten) =
      CAMEX_CTRL_WORD :: ascii "CONFIG" :: (configPairs clientId p).map pairToken := by
  have hhead : tokens isCtrlDelim (CAMEX_CTRL_WORD ++ ascii " CONFIG") = [CAMEX_CTRL_WORD, ascii "CONFIG"] := by
    decide +kernel
  have hend : tokens isCtrlDelim [10] = [] := by decide +kernel
  have hdelim : ∀ f ∈ (configPairs clientId p).map pairField ++ [[10]],
      ∃ d u, f = d :: u ∧ isCtrlDelim d = true := by
    intro f hf
    rcases List.mem_append.mp hf with hf | hf
    · obtain ⟨x, -, rfl⟩ := List.mem_map.mp hf
      exact ⟨32, _, rfl, rfl⟩
    · rw [List.mem_singleton.mp hf]
      exact ⟨10, [], rfl, rfl⟩
  have hpairs : ((configPairs clientId p).map pairField).flatMap (tokens isCtrlDelim) =
      (configPairs clientId p).map pairToken := by
    generalize configPairs clientId p = xs at hwords
    induction xs with
    | nil => rfl
    | cons x xs ih =>
      obtain ⟨hx, hxs⟩ := List.forall_mem_cons.mp hwords
      rw [List.map_cons, List.flatMap_cons, ih hxs, pairField, tokens_ctrlField hx.1 hx.2]
      rfl
  rw [tokens_fields _ hdelim, hhead, List.flatMap_append, hpairs, List.flatMap_singleton, hend, List.append_nil]
  rfl

end Built

/-! ## Reading it back -/

theorem protoConfigToken_ver (c : ConfigText) {value : CStr} (hne : value ≠ []) (hlen : value.length < 32) :
    protoConfigToken c (ascii "VER" ++ 61 :: value) = some c := by
  unfold protoConfigToken
  rw [tokenValue_field "CLIENT_ID" "VER" (by decide), tokenValue_field "LOCAL_CIDR" "VER" (by decide),
    tokenValue_field "GATEWAY_IP" "VER" (by decide), tokenValue_field "ROUTE_CIDR" "VER" (by decide),
    tokenValue_field "MTU" "VER" (by decide), tokenValue_self hne (hlen.trans (by decide))]

theorem protoConfigToken_id (c : ConfigText) {value : CStr} (hne : value ≠ []) (hlen : value.length < 32) :
    protoConfigToken c (ascii "CLIENT_ID" ++ 61 :: value) = some { c with clientId := value } := by
  unfold protoConfigToken
  rw [tokenValue_self hne (hlen.trans (by decide))]
  dsimp only
  unfold copyOption
  rw [if_neg (by rw [not_or]; exact ⟨hne, not_le.mpr hlen⟩)]
  rfl

theorem protoConfigToken_mtu (c : ConfigText) {mtu : ℤ} (hlow : 576 ≤ mtu) (hhigh : mtu ≤ 9000) :
    protoConfigToken c (ascii "MTU" ++ 61 :: intText mtu) =
      some { c with profile := { c.profile with mtu := mtu } } := by
  have htext : intText mtu = natText mtu.natAbs := if_neg (by omega)
  have hne : intText mtu ≠ [] := htext ▸ natText_ne_nil _
  have hlen : (intText mtu).length < CAMEX_CLIENT_TOKEN_LEN :=
    lt_of_le_of_lt (intText_length (by omega) hhigh) (by decide)
  have hparse : parseMtu (intText mtu) = some mtu := by
    unfold parseMtu
    rw [if_neg hne, htext, strtol_natText]
    dsimp only
    rw [if_neg (by omega)]
    exact congrArg some (by omega)
  unfold protoConfigToken
  rw [tokenValue_field "CLIENT_ID" "MTU" (by decide), tokenValue_field "LOCAL_CIDR" "MTU" (by decide),
    tokenValue_field "GATEWAY_IP" "MTU" (by decide), tokenValue_field "ROUTE_CIDR" "MTU" (by decide),
    tokenValue_self hne hlen]
  dsimp only
  rw [hparse]
  rfl

theorem protoConfigToken_local (c : ConfigText) {value : CStr} (hne : value ≠ []) (hlen : value.length < 32) :
    protoConfigToken c (ascii "LOCAL_CIDR" ++ 61 :: value) =
      some { c with profile := { c.profile with localCidr := value } } := by
  unfold protoConfigToken
  rw [tokenValue_field "CLIENT_ID" "LOCAL_CIDR" (by decide), tokenValue_self hne (hlen.trans (by decide))]
  dsimp only
  unfold copyOption
  rw [if_neg (by rw [not_or]; exact ⟨hne, not_le.mpr hlen⟩)]
  rfl

theorem protoConfigToken_gateway (c : ConfigText) {value : CStr} (hne : value ≠ []) (hlen : value.length < 16) :
    protoConfigToken c (ascii "GATEWAY_IP" ++ 61 :: value) =
      some { c with profile := { c.profile with gatewayIp := value } } := by
  unfold protoConfigToken
  rw [tokenValue_field "CLIENT_ID" "GATEWAY_IP" (by decide), tokenValue_field "LOCAL_CIDR" "GATEWAY_IP" (by decide),
    tokenValue_self hne (hlen.trans (by decide))]
  dsimp only
  unfold copyOption
  rw [if_neg (by rw [not_or]; exact ⟨hne, not_le.mpr hlen⟩)]
  rfl

theorem protoConfigToken_route (c : ConfigText) {value : CStr} (hne : value ≠ []) (hlen : value.length < 32)
    (hvalid : validateRouteCidr value = true) (hroom : c.profile.routeCidrs.length < CAMEX_MAX_ROUTES) :
    protoConfigToken c (ascii "ROUTE_CIDR" ++ 61 :: value) =
      some { c with profile := { c.profile with routeCidrs := c.profile.routeCidrs ++ [value] } } := by
  unfold protoConfigToken
  rw [tokenValue_field "CLIENT_ID" "ROUTE_CIDR" (by decide), tokenValue_field "LOCAL_CIDR" "ROUTE_CIDR" (by decide),
    tokenValue_field "GATEWAY_IP" "ROUTE_CIDR" (by decide), tokenValue_self hne (hlen.trans (by decide))]
  dsimp only
  unfold configProfileAppendRoute
  rw [if_neg hne, if_neg (not_le.mpr hroom), if_neg (by simp [hvalid]), if_neg (not_le.mpr hlen)]
  rfl

section Read

variable {clientId : CStr} {p : Profile}

theorem foldlM_optional {α β : Type} (f : β → α → Option β) (cond : Prop) [Decidable cond] (x : α) (xs : List α)
    (b : β) : ((if cond then [x] else []) ++ xs).foldlM f b =
      (if cond then f b x else some b).bind fun b => xs.foldlM f b := by
  by_cases hc : cond
  · rw [if_pos hc, if_pos hc]
    rfl
  · rw [if_neg hc, if_neg hc]
    rfl

theorem CidrChecked.validRoute {cidr : CStr} (h : CidrChecked cidr) (hlen : cidr.length < 32) :
    validateRouteCidr cidr = true := by
  obtain ⟨ip, rest, v, rfl, hne, hv, hlow, hhigh⟩ := h
  obtain ⟨hbefore, hafter⟩ := beforeByte_append (ipText_noSlash ip) rest
  have hip := (ipText_shape ip).2.1
  unfold validateRouteCidr
  rw [if_neg (by simp), if_neg (by omega), hafter]
  dsimp only
  rw [hbefore, if_neg (by rw [not_or]; exact ⟨hip, hne⟩), inetPton_ipText]
  dsimp only
  rw [hv]
  exact decide_eq_true (by omega)

theorem foldlM_routeTokens {routes : List CStr} (c : ConfigText)
    (hroutes : ∀ route ∈ routes, route.length < 32 ∧ CidrChecked route)
    (hroom : c.profile.routeCidrs.length + routes.length ≤ CAMEX_MAX_ROUTES) :
    ((routes.map fun route => ("ROUTE_CIDR", route)).map pairToken).foldlM protoConfigToken c =
      some { c with profile := { c.profile with routeCidrs := c.profile.routeCidrs ++ routes } } := by
  induction routes generalizing c with
  | nil => simp
  | cons route routes ih =>
    obtain ⟨⟨hlen, hchecked⟩, hrest⟩ := List.forall_mem_cons.mp hroutes
    have hne : route ≠ [] := by
      obtain ⟨ip, rest, -, rfl, -⟩ := hchecked
      simp
    rw [List.length_cons] at hroom
    have htoken := protoConfigToken_route c hne hlen (hchecked.validRoute hlen) (by omega)
    rw [List.map_cons, List.map_cons, List.foldlM_cons, pairToken, htoken, Option.bind_eq_bind, Option.bind_some,
      ih _ hrest (by rw [List.length_append, List.length_singleton]; omega)]
    simp

def stagedProfile (p : Profile) : Profile :=
  { Profile.empty with
    localCidr := p.localCidr
    gatewayIp := p.gatewayIp
    mtu := if 0 < p.mtu then p.mtu else 0
    routeCidrs := p.routeCidrs }

/-- The words of a loaded profile are taken over one after the other. -/
theorem foldlM_configPairs (hp : ProfileLoaded p) (hlocal : p.localCidr ≠ []) (hgateway : p.gatewayIp ≠ [])
    (hid : clientId.length < CAMEX_CLIENT_ID_LEN) :
    ((configPairs clientId p).map pairToken).foldlM protoConfigToken ⟨.empty, clientId⟩ =
      some ⟨stagedProfile p, clientId⟩ := by
  obtain ⟨⟨hl, hg, hcount, hshort⟩, hmtu, hchecked⟩ := hp
  have hver := protoConfigToken_ver ⟨.empty, clientId⟩ (natText_ne_nil CAMEX_PROTO_VER)
    (lt_of_le_of_lt (natText_length (by decide) (by decide : CAMEX_PROTO_VER < 10 ^ 1)) (by decide))
  have hidToken : (if clientId ≠ [] then protoConfigToken ⟨.empty, clientId⟩ (pairToken ("CLIENT_ID", clientId))
      else some ⟨.empty, clientId⟩) = some ⟨.empty, clientId⟩ := by
    split
    · rename_i hne
      exact protoConfigToken_id ⟨.empty, clientId⟩ hne hid
    · rfl
  have hmtuToken : (if 0 < p.mtu then protoConfigToken ⟨.empty, clientId⟩ (pairToken ("MTU", intText p.mtu))
      else some ⟨.empty, clientId⟩) =
      some ⟨{ Profile.empty with mtu := if 0 < p.mtu then p.mtu else 0 }, clientId⟩ := by
    split
    · exact protoConfigToken_mtu ⟨.empty, clientId⟩ (by omega) (by omega)
    · rfl
  have hpairs : (configPairs clientId p).map pairToken = pairToken ("VER", natText CAMEX_PROTO_VER) ::
      ((if clientId ≠ [] then [pairToken ("CLIENT_ID", clientId)] else []) ++
        ((if 0 < p.mtu then [pairToken ("MTU", intText p.mtu)] else []) ++
          pairToken ("LOCAL_CIDR", p.localCidr) :: pairToken ("GATEWAY_IP", p.gatewayIp) ::
            (p.routeCidrs.map fun route => ("ROUTE_CIDR", route)).map pairToken)) := by
    unfold configPairs
    rw [List.map_cons, List.map_append, List.map_append, List.map_cons, List.map_cons, apply_ite (List.map pairToken),
      apply_ite (List.map pairToken)]
    rfl
  rw [hpairs, List.foldlM_cons, pairToken, hver, Option.bind_eq_bind, Option.bind_some, foldlM_optional, hidToken,
    Option.bind_some, foldlM_optional, hmtuToken, Option.bind_some, List.foldlM_cons, pairToken,
    protoConfigToken_local _ hlocal hl, Option.bind_eq_bind, Option.bind_some, List.foldlM_cons, pairToken,
    protoConfigToken_gateway _ hgateway hg, Option.bind_eq_bind, Option.bind_some, foldlM_routeTokens]
  · rfl
  · exact fun route hroute => ⟨hshort route hroute, hchecked route hroute⟩
  · show (0 : ℕ) + p.routeCidrs.length ≤ CAMEX_MAX_ROUTES
    omega

/-! ## Bytes -/

theorem isDigit_ne_zero {b : UInt8} (h : isDigit b = true) : b ≠ 0 := by
  rintro rfl
  exact absurd h (by decide)

theorem intText_noNul (v : ℤ) : ∀ b ∈ intText v, b ≠ 0 := by
  intro b hb
  unfold intText at hb
  split at hb
  · rcases List.mem_cons.mp hb with rfl | hb
    · decide
    · exact isDigit_ne_zero (natText_isDigit _ b hb)
  · exact isDigit_ne_zero (natText_isDigit _ b hb)

theorem ipText_noNul (ip : Ip) : ∀ b ∈ ipText ip, b ≠ 0 := by
  intro b hb
  rcases (ipText_shape ip).2.2 b hb with h | rfl
  · exact isDigit_ne_zero h
  · decide

theorem CidrChecked.noNul {cidr : CStr} (h : CidrChecked cidr) : ∀ b ∈ cidr, b ≠ 0 := by
  obtain ⟨ip, rest, v, rfl, -, hv, -, -⟩ := h
  intro b hb
  rcases List.mem_append.mp hb with hb | hb
  · exact ipText_noNul ip b hb
  · rcases List.mem_cons.mp hb with rfl | hb
    · decide
    · rcases strtol_bytes hv b hb with h | rfl | rfl | h
      · rintro rfl
        exact absurd h (by decide)
      · decide
      · decide
      · exact isDigit_ne_zero h

theorem configPairs_words (hp : ProfileLoaded p) (hwell : p.WellFormed) (hone : p.OneWord)
    (hid : ∀ b ∈ clientId, isCtrlDelim b = false ∧ b ≠ 0) :
    ∀ x ∈ configPairs clientId p, (∀ b ∈ ascii x.1, isCtrlDelim b = false ∧ b ≠ 0) ∧
      ∀ b ∈ x.2, isCtrlDelim b = false ∧ b ≠ 0 := by
  obtain ⟨ip, hip⟩ := Option.isSome_iff_exists.mp hwell.2
  have hgateway := inetPton_some hip
  have hlocal := (parseLocalCidr_checked hwell.1).noNul
  have hnames : ∀ name ∈ ["VER", "CLIENT_ID", "MTU", "LOCAL_CIDR", "GATEWAY_IP", "ROUTE_CIDR"],
      ∀ b ∈ ascii name, isCtrlDelim b = false ∧ b ≠ 0 := by decide +kernel
  intro x hx
  unfold configPairs at hx
  rw [List.mem_cons, List.mem_append, List.mem_append, List.mem_cons, List.mem_cons, List.mem_map] at hx
  rcases hx with rfl | hx | hx | rfl | rfl | ⟨route, hroute, rfl⟩
  · refine ⟨hnames _ (by simp), fun b hb => ?_⟩
    have hdigit := natText_isDigit CAMEX_PROTO_VER b hb
    exact ⟨digit_noDelim hdigit, isDigit_ne_zero hdigit⟩
  · split at hx
    · rw [List.mem_singleton.mp hx]
      exact ⟨hnames _ (by simp), hid⟩
    · cases hx
  · split at hx
    · rename_i hpos
      rw [List.mem_singleton.mp hx]
      exact ⟨hnames _ (by simp), fun b hb => ⟨intText_noDelim hpos b hb, intText_noNul _ b hb⟩⟩
    · cases hx
  · exact ⟨hnames _ (by simp), fun b hb => ⟨hone.1 b hb, hlocal b hb⟩⟩
  · refine ⟨hnames _ (by simp), ?_⟩
    rw [hgateway]
    exact fun b hb => ⟨ipText_noDelim ip b hb, ipText_noNul ip b hb⟩
  · exact ⟨hnames _ (by simp), fun b hb =>
      ⟨hone.2 route hroute b hb, (hp.routes route hroute).noNul b hb⟩⟩

/-- A text of fields without a NUL is what stands before its end. -/
theorem untilNul_config (hwords : ∀ x ∈ configPairs clientId p, (∀ b ∈ ascii x.1, isCtrlDelim b = false ∧ b ≠ 0) ∧
      ∀ b ∈ x.2, isCtrlDelim b = false ∧ b ≠ 0) :
    untilNul ((CAMEX_CTRL_WORD ++ ascii " CONFIG") ++ ((configPairs clientId p).map pairField ++ [[10]]).flatten) =
      (CAMEX_CTRL_WORD ++ ascii " CONFIG") ++ ((configPairs clientId p).map pairField ++ [[10]]).flatten := by
  refine List.takeWhile_eq_self_iff.mpr fun b hb => decide_eq_true ?_
  have hhead : ∀ b ∈ CAMEX_CTRL_WORD ++ ascii " CONFIG", b ≠ 0 := by decide +kernel
  rcases List.mem_append.mp hb with hb | hb
  · exact hhead b hb
  · obtain ⟨f, hf, hb⟩ := List.mem_flatten.mp hb
    rcases List.mem_append.mp hf with hf | hf
    · obtain ⟨x, hx, rfl⟩ := List.mem_map.mp hf
      unfold pairField ctrlField at hb
      rcases List.mem_cons.mp hb with rfl | hb
      · decide
      · rcases List.mem_append.mp hb with hb | hb
        · exact ((hwords x hx).1 b hb).2
        · rcases List.mem_cons.mp hb with rfl | hb
          · decide
          · exact ((hwords x hx).2 b hb).2
    · rw [List.mem_singleton.mp hf, List.mem_singleton] at hb
      rw [hb]
      decide

/-! ## The round trip -/

/-- A well-formed profile of one-word values arrives. -/
theorem ConfigSurvives.of_oneWord (hp : ProfileLoaded p) (hwell : p.WellFormed) (hone : p.OneWord)
    (hid : clientId.length < CAMEX_CLIENT_ID_LEN) (hword : ∀ b ∈ clientId, isCtrlDelim b = false ∧ b ≠ 0)
    (hlocal : p.localCidr ≠ []) (hgateway : p.gatewayIp ≠ []) :
    ConfigSurvives clientId p ((CAMEX_CTRL_WORD ++ ascii " CONFIG") ++
      ((configPairs clientId p).map pairField ++ [[10]]).flatten) := by
  have hwords := configPairs_words hp hwell hone hword
  have hfold := foldlM_configPairs hp hlocal hgateway hid
  rintro config rfl
  have haccept : configAccepted config ⟨stagedProfile p, config.clientId⟩ = true := by
    unfold configAccepted stagedProfile
    simp only [hwell.1, hwell.2, Bool.or_true, strcaseeq_refl, Bool.and_true]
  have happly : ∃ config₁, configApplyProfile config (stagedProfile p) = some config₁ ∧
      config₁.localCidr = p.localCidr ∧ config₁.gatewayIp = p.gatewayIp ∧
      config₁.mtu = (if 0 < p.mtu then p.mtu else config.mtu) ∧ config₁.routes = p.routeCidrs := by
    have hsome : (configApplyProfile config (stagedProfile p)).isSome = true := by
      unfold configApplyProfile
      rw [if_neg (by rw [not_or]; exact ⟨hlocal, hgateway⟩)]
      rfl
    obtain ⟨config₁, hconfig₁⟩ := Option.isSome_iff_exists.mp hsome
    have hroutes : config₁.routes = (stagedProfile p).routeCidrs :=
      configApplyProfile_routes hconfig₁ ⟨hp.fits.2.2.1, hp.fits.2.2.2, hp.routes⟩
        fun route hroute => (hp.routes route hroute).noNul
    obtain ⟨-, -, hfields⟩ := configApplyProfile_some hconfig₁
    refine ⟨config₁, hconfig₁, ?_, ?_, ?_, hroutes⟩
    · rw [hfields]
      exact store_of_lt hp.fits.1
    · rw [hfields]
      exact store_of_lt hp.fits.2.1
    · rw [hfields]
      show (if 0 < (if 0 < p.mtu then p.mtu else 0) then (if 0 < p.mtu then p.mtu else 0) else config.mtu) = _
      by_cases hpos : 0 < p.mtu
      · simp only [if_pos hpos]
      · simp only [if_neg hpos, lt_irrefl, if_false]
  obtain ⟨config₁, hconfig₁, hl, hg, hm, hr⟩ := happly
  have hparse : protoParseConfig ((CAMEX_CTRL_WORD ++ ascii " CONFIG") ++
      ((configPairs config.clientId p).map pairField ++ [[10]]).flatten) config =
      some (if config.clientId ≠ [] then { config₁ with clientId := config.clientId } else config₁) := by
    unfold protoParseConfig
    rw [untilNul_config hwords, tokens_config fun x hx => ⟨fun b hb => ((hwords x hx).1 b hb).1,
      fun b hb => ((hwords x hx).2 b hb).1⟩]
    dsimp only
    rw [if_neg (by simp), hfold]
    dsimp only
    rw [if_neg (by simp [haccept]), hconfig₁]
    rfl
  refine ⟨_, hparse, ?_⟩
  split
  · exact ⟨hl, hg, hm, hr⟩
  · exact ⟨hl, hg, hm, hr⟩

theorem configValues_noDelim {name : String} {message : Bytes} {v : CStr} (h : v ∈ configValues name message) :
    ∀ b ∈ v, isCtrlDelim b = false := by
  intro b hb
  obtain ⟨t, ht, htv⟩ := List.mem_filterMap.mp h
  exact tokens_noDelim (List.mem_of_mem_drop ht) b (tokenValue_subset htv b hb)

theorem ConfigSurvives.oneWord {text : CStr} (h : ConfigSurvives clientId p text) : p.OneWord := by
  obtain ⟨config', hparse, hlocal, -, -, hroutes⟩ := h { CamexConfig.zero with clientId := clientId } rfl
  have hparts := protoParseConfig_parts hparse
  constructor
  · rw [← hlocal]
    exact configValues_noDelim (List.mem_of_getLast? hparts.localCidr)
  · intro route hroute
    rw [← hroutes, hparts.routes] at hroute
    exact configValues_noDelim hroute

end Read

/-- **A CONFIG arrives as the profile it was made of** exactly when its address and its routes are one word each. -/
theorem configRoundTrip_iff {file : ConfigSource} {db : ServerDb} {clientId : CStr}
    (hload : configDbLoadFile file = some db) (hshort : clientId.length < CAMEX_CLIENT_ID_LEN)
    (hid : ∀ b ∈ clientId, isCtrlDelim b = false ∧ b ≠ 0)
    (hlocal : (configDbLookupProfile db clientId).localCidr ≠ [])
    (hgateway : (configDbLookupProfile db clientId).gatewayIp ≠ []) :
    ConfigRoundTrip clientId (configDbLookupProfile db clientId) ↔
      ((configDbLookupProfile db clientId).WellFormed → (configDbLookupProfile db clientId).OneWord) := by
  have hp := configDbLookupProfile_loaded hload clientId
  have hfits := protoBuildConfig_fits hp hlocal hgateway hshort
  constructor
  · rintro ⟨text, -, hsurvives⟩ hwell
    exact (hsurvives hwell).oneWord
  · intro hone
    exact ⟨_, hfits, fun hwell => .of_oneWord hp hwell (hone hwell) hshort hid hlocal hgateway⟩

/-- A file that gives every client the addresses and a route. -/
def routedFile (route : String) : ConfigSource :=
  .content (ascii "[defaults]\nlocal_cidr=10.0.0.2/24\ngateway_ip=10.0.0.1\nroute_cidr=" ++ ascii route)

def routedProfile (route : String) : Profile :=
  { Profile.empty with
    localCidr := ascii "10.0.0.2/24", gatewayIp := ascii "10.0.0.1", routeCidrs := [ascii route] }

theorem configRoundTrip_routed :
    ∃ db, configDbLoadFile (routedFile "10.1.0.0/16") = some db ∧
      ConfigRoundTrip (ascii "cam") (configDbLookupProfile db (ascii "cam")) := by
  have hload : (configDbLoadFile (routedFile "10.1.0.0/16")).map (configDbLookupProfile · (ascii "cam")) =
      some (routedProfile "10.1.0.0/16") := by decide +kernel
  obtain ⟨db, hdb, hprofile⟩ := Option.map_eq_some_iff.mp hload
  exact ⟨db, hdb, (configRoundTrip_iff hdb (by decide) (by decide +kernel) (by rw [hprofile]; decide +kernel)
    (by rw [hprofile]; decide +kernel)).mpr fun _ => by rw [hprofile]; decide +kernel⟩

/-- A route with a blank behind its slash is loaded and sent, and the client refuses the CONFIG. -/
theorem configRoundTrip_blank :
    ∃ db, configDbLoadFile (routedFile "10.1.0.0/ 16") = some db ∧
      (configDbLookupProfile db (ascii "cam")).localCidr ≠ [] ∧
      (configDbLookupProfile db (ascii "cam")).gatewayIp ≠ [] ∧
      ¬ ConfigRoundTrip (ascii "cam") (configDbLookupProfile db (ascii "cam")) := by
  have hload : (configDbLoadFile (routedFile "10.1.0.0/ 16")).map (configDbLookupProfile · (ascii "cam")) =
      some (routedProfile "10.1.0.0/ 16") := by decide +kernel
  obtain ⟨db, hdb, hprofile⟩ := Option.map_eq_some_iff.mp hload
  refine ⟨db, hdb, ?_⟩
  rw [hprofile]
  refine ⟨by decide +kernel, by decide +kernel, ?_⟩
  rintro ⟨text, -, hsurvives⟩
  have hone := (hsurvives (by decide +kernel)).oneWord
  exact absurd hone (by decide +kernel)

end Camex
