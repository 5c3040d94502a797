import Camex.ClientConfig

/-!
# CONFIG, checked whole

* `ConfigRead`: what the tokens of a CONFIG say, field by field;
* `StoredWhole`: what a configuration holds once a CONFIG was put into it;
* `configFromNetwork`: a CONFIG that is refused changes nothing, and one that is accepted is `StoredWhole` exactly
  when nothing but one or two digits stands behind the slashes of its addresses.
-/

namespace Camex

open Lib

/-- The values of a field among tokens, in their order. -/
def fieldValues (name : String) (ts : List CStr) : List CStr :=
  ts.filterMap (tokenValue (ascii name) CAMEX_CLIENT_TOKEN_LEN)

def configValues (name : String) (message : Bytes) : List CStr :=
  fieldValues name ((tokens isCtrlDelim (untilNul message)).drop 2)

/-- `a.b.c.d/p`: an address as `inet_ntop` writes it and one or two digits, at most 32. -/
def CidrText (s : CStr) : Prop :=
  ∃ (ip : Ip) (p : CStr), s = ipText ip ++ 47 :: p ∧ (p.length = 1 ∨ p.length = 2) ∧
    (∀ b ∈ p, isDigit b = true) ∧ digitsValue p ≤ 32

/-- Behind the slash stand at most two bytes, digits. -/
def plainPrefix (cidr : CStr) : Bool :=
  (afterByte 47 cidr).all fun p => decide (p.length ≤ 2) && p.all isDigit

/-- The address that counts and the routes of a message have plain prefixes. -/
def PlainPrefixes (message : Bytes) : Prop :=
  ∀ v ∈ (configValues "LOCAL_CIDR" message).getLast?.toList ++ configValues "ROUTE_CIDR" message,
    plainPrefix v = true

instance (message : Bytes) : Decidable (PlainPrefixes message) :=
  inferInstanceAs (Decidable (∀ v ∈ _, plainPrefix v = true))

/-- A configuration that took over the CONFIG of a message. -/
structure StoredWhole (message : Bytes) (config config' : CamexConfig) : Prop where
  localCidr : CidrText config'.localCidr
  gatewayIp : ∃ ip : Ip, config'.gatewayIp = ipText ip
  routeCount : config'.routeCount ≤ CAMEX_MAX_ROUTES
  routesText : ∀ route ∈ config'.routes, CidrText route
  routes : config'.routes = configValues "ROUTE_CIDR" message
  mtu : (configValues "MTU" message = [] ∧ config'.mtu = config.mtu) ∨
    ∃ v, (configValues "MTU" message).getLast? = some v ∧ strtol v = some (config'.mtu, []) ∧
      576 ≤ config'.mtu ∧ config'.mtu ≤ 9000
  clientId : config.clientId ≠ [] → strcaseeq config.clientId config'.clientId = true
  frame : config' = { config with
    localCidr := config'.localCidr, gatewayIp := config'.gatewayIp, routeCidrs := config'.routeCidrs,
    routeCount := config'.routeCount, mtu := config'.mtu, clientId := config'.clientId }

/-- `proto_parse_config` with its result and the configuration it leaves. -/
def protoParseConfigInto (message : Bytes) (config : CamexConfig) : Bool × CamexConfig :=
  match protoParseConfig message config with
  | some config' => (true, config')
  | none => (false, config)

/-! ## Values -/

theorem tokenValue_head {key t v : CStr} {size : ℕ} (h : tokenValue key size t = some v) :
    (key ++ [61]).head? = t.head? := by
  by_contra hne
  rw [tokenValue_other hne] at h
  cases h

theorem tokenValue_exclusive {key other : String} {t v : CStr} {size size' : ℕ}
    (hne : (ascii other ++ [61]).head? ≠ (ascii key ++ [61]).head?)
    (h : tokenValue (ascii key) size t = some v) : tokenValue (ascii other) size' t = none :=
  tokenValue_other (by rwa [← tokenValue_head h])

theorem fieldValues_append (name : String) (ts us : List CStr) :
    fieldValues name (ts ++ us) = fieldValues name ts ++ fieldValues name us := List.filterMap_append

theorem fieldValues_some {name : String} {t v : CStr}
    (h : tokenValue (ascii name) CAMEX_CLIENT_TOKEN_LEN t = some v) : fieldValues name [t] = [v] := by
  simp [fieldValues, h]

theorem fieldValues_none {name : String} {t : CStr}
    (h : tokenValue (ascii name) CAMEX_CLIENT_TOKEN_LEN t = none) : fieldValues name [t] = [] := by
  simp [fieldValues, h]

/-! ## Tokens -/

/-- The last value of a field, or what was there before. -/
def lastValue (name : String) (ts : List CStr) (v : CStr) : CStr := (fieldValues name ts).getLast?.getD v

theorem lastValue_append (name : String) (ts us : List CStr) (v : CStr) :
    lastValue name (ts ++ us) v = lastValue name us (lastValue name ts v) := by
  unfold lastValue
  rw [fieldValues_append, List.getLast?_append]
  cases (fieldValues name us).getLast? <;> rfl

/-- What tokens say about an MTU. -/
def MtuRead (ts : List CStr) (mtu mtu' : ℤ) : Prop :=
  (fieldValues "MTU" ts = [] ∧ mtu' = mtu) ∨
    ∃ v, (fieldValues "MTU" ts).getLast? = some v ∧ parseMtu v = some mtu'

/-- What the tokens of a CONFIG say. -/
structure ConfigRead (ts : List CStr) (c c' : ConfigText) : Prop where
  clientId : c'.clientId = lastValue "CLIENT_ID" ts c.clientId
  localCidr : c'.profile.localCidr = lastValue "LOCAL_CIDR" ts c.profile.localCidr
  gatewayIp : c'.profile.gatewayIp = lastValue "GATEWAY_IP" ts c.profile.gatewayIp
  routes : c'.profile.routeCidrs = c.profile.routeCidrs ++ fieldValues "ROUTE_CIDR" ts
  mtu : MtuRead ts c.profile.mtu c'.profile.mtu

theorem ConfigRead.nil (c : ConfigText) : ConfigRead [] c c :=
  ⟨rfl, rfl, rfl, (List.append_nil _).symm, Or.inl ⟨rfl, rfl⟩⟩

theorem MtuRead.trans {ts us : List CStr} {m₁ m₂ m₃ : ℤ} (h₁ : MtuRead ts m₁ m₂) (h₂ : MtuRead us m₂ m₃) :
    MtuRead (ts ++ us) m₁ m₃ := by
  unfold MtuRead
  rw [fieldValues_append, List.getLast?_append]
  rcases h₂ with ⟨hus, rfl⟩ | ⟨v, hv, hparse⟩
  · rw [hus, List.append_nil, List.getLast?_nil, Option.none_or]
    exact h₁
  · exact Or.inr ⟨v, by rw [hv]; rfl, hparse⟩

theorem ConfigRead.trans {ts us : List CStr} {c₁ c₂ c₃ : ConfigText} (h₁ : ConfigRead ts c₁ c₂)
    (h₂ : ConfigRead us c₂ c₃) : ConfigRead (ts ++ us) c₁ c₃ where
  clientId := by rw [lastValue_append, ← h₁.clientId, h₂.clientId]
  localCidr := by rw [lastValue_append, ← h₁.localCidr, h₂.localCidr]
  gatewayIp := by rw [lastValue_append, ← h₁.gatewayIp, h₂.gatewayIp]
  routes := by rw [h₂.routes, h₁.routes, fieldValues_append, List.append_assoc]
  mtu := h₁.mtu.trans h₂.mtu

theorem lastValue_some {name : String} {t v w : CStr}
    (h : tokenValue (ascii name) CAMEX_CLIENT_TOKEN_LEN t = some v) : lastValue name [t] w = v := by
  rw [lastValue, fieldValues_some h]
  rfl

theorem lastValue_none {name : String} {t w : CStr}
    (h : tokenValue (ascii name) CAMEX_CLIENT_TOKEN_LEN t = none) : lastValue name [t] w = w := by
  rw [lastValue, fieldValues_none h]
  rfl

/-- What one token says: the field it names takes the value, the others stay. -/
theorem protoConfigToken_read {c c' : ConfigText} {t : CStr} (h : protoConfigToken c t = some c') :
    ConfigRead [t] c c' := by
  unfold protoConfigToken at h
  cases hid : tokenValue (ascii "CLIENT_ID") CAMEX_CLIENT_TOKEN_LEN t with
  | some value =>
    rw [hid] at h
    obtain ⟨v, hv, rfl⟩ := Option.map_eq_some_iff.mp h
    obtain ⟨rfl, -⟩ := copyOption_some hv
    exact
      { clientId := (lastValue_some hid).symm
        localCidr := (lastValue_none (tokenValue_exclusive (by decide) hid)).symm
        gatewayIp := (lastValue_none (tokenValue_exclusive (by decide) hid)).symm
        routes := by rw [fieldValues_none (tokenValue_exclusive (by decide) hid), List.append_nil]
        mtu := Or.inl ⟨fieldValues_none (tokenValue_exclusive (by decide) hid), rfl⟩ }
  | none =>
  rw [hid] at h
  cases hlocal : tokenValue (ascii "LOCAL_CIDR") CAMEX_CLIENT_TOKEN_LEN t with
  | some value =>
    rw [hlocal] at h
    obtain ⟨v, hv, rfl⟩ := Option.map_eq_some_iff.mp h
    obtain ⟨rfl, -⟩ := copyOption_some hv
    exact
      { clientId := (lastValue_none hid).symm
        localCidr := (lastValue_some hlocal).symm
        gatewayIp := (lastValue_none (tokenValue_exclusive (by decide) hlocal)).symm
        routes := by rw [fieldValues_none (tokenValue_exclusive (by decide) hlocal), List.append_nil]
        mtu := Or.inl ⟨fieldValues_none (tokenValue_exclusive (by decide) hlocal), rfl⟩ }
  | none =>
  rw [hlocal] at h
  cases hgateway : tokenValue (ascii "GATEWAY_IP") CAMEX_CLIENT_TOKEN_LEN t with
  | some value =>
    rw [hgateway] at h
    obtain ⟨v, hv, rfl⟩ := Option.map_eq_some_iff.mp h
    obtain ⟨rfl, -⟩ := copyOption_some hv
    exact
      { clientId := (lastValue_none hid).symm
        localCidr := (lastValue_none hlocal).symm
        gatewayIp := (lastValue_some hgateway).symm
        routes := by rw [fieldValues_none (tokenValue_exclusive (by decide) hgateway), List.append_nil]
        mtu := Or.inl ⟨fieldValues_none (tokenValue_exclusive (by decide) hgateway), rfl⟩ }
  | none =>
  rw [hgateway] at h
  cases hroute : tokenValue (ascii "ROUTE_CIDR") CAMEX_CLIENT_TOKEN_LEN t with
  | some value =>
    rw [hroute] at h
    obtain ⟨p, hp, rfl⟩ := Option.map_eq_some_iff.mp h
    obtain ⟨rfl, -⟩ := configProfileAppendRoute_some hp
    exact
      { clientId := (lastValue_none hid).symm
        localCidr := (lastValue_none hlocal).symm
        gatewayIp := (lastValue_none hgateway).symm
        routes := by rw [fieldValues_some hroute]
        mtu := Or.inl ⟨fieldValues_none (tokenValue_exclusive (by decide) hroute), rfl⟩ }
  | none =>
  rw [hroute] at h
  cases hmtu : tokenValue (ascii "MTU") CAMEX_CLIENT_TOKEN_LEN t with
  | some value =>
    rw [hmtu] at h
    obtain ⟨v, hv, rfl⟩ := Option.map_eq_some_iff.mp h
    exact
      { clientId := (lastValue_none hid).symm
        localCidr := (lastValue_none hlocal).symm
        gatewayIp := (lastValue_none hgateway).symm
        routes := by rw [fieldValues_none hroute, List.append_nil]
        mtu := Or.inr ⟨value, by rw [fieldValues_some hmtu]; rfl, hv⟩ }
  | none =>
  rw [hmtu] at h
  have hc : c' = c := by
    cases hver : tokenValue (ascii "VER") CAMEX_CLIENT_TOKEN_LEN t with
    | some value => rw [hver] at h; exact (Option.some.inj h).symm
    | none => rw [hver] at h; cases h
  subst hc
  exact
    { clientId := (lastValue_none hid).symm
      localCidr := (lastValue_none hlocal).symm
      gatewayIp := (lastValue_none hgateway).symm
      routes := by rw [fieldValues_none hroute, List.append_nil]
      mtu := Or.inl ⟨fieldValues_none hmtu, rfl⟩ }

theorem foldlM_configRead {ts : List CStr} {c c' : ConfigText} (h : ts.foldlM protoConfigToken c = some c') :
    ConfigRead ts c c' := by
  induction ts generalizing c with
  | nil =>
    rw [← Option.some.inj h]
    exact .nil c
  | cons t ts ih =>
    rw [List.foldlM_cons] at h
    obtain ⟨c₁, hc₁, hrest⟩ := Option.bind_eq_some_iff.mp h
    exact (protoConfigToken_read hc₁).trans (ih hrest)

/-! ## Addresses with a prefix -/

theorem ipText_noSlash (ip : Ip) : (47 : UInt8) ∉ ipText ip := by
  intro h
  rcases (ipText_shape ip).2.2 47 h with h | h <;> exact absurd h (by decide)

theorem plainPrefix_text (ip : Ip) (p : CStr) :
    plainPrefix (ipText ip ++ 47 :: p) = (decide (p.length ≤ 2) && p.all isDigit) := by
  unfold plainPrefix
  rw [(beforeByte_append (ipText_noSlash ip) p).2]
  rfl

theorem CidrText.plain {s : CStr} (h : CidrText s) : plainPrefix s = true := by
  obtain ⟨ip, p, rfl, hlen, hdigits, -⟩ := h
  rw [plainPrefix_text, Bool.and_eq_true, decide_eq_true_eq, List.all_eq_true]
  exact ⟨by omega, hdigits⟩

/-- **The form of a checked address** is right exactly when its prefix is plain. -/
theorem CidrChecked.text_iff {s : CStr} (h : CidrChecked s) : CidrText s ↔ plainPrefix s = true := by
  refine ⟨CidrText.plain, fun hplain => ?_⟩
  obtain ⟨ip, p, v, rfl, hne, hv, -, hle⟩ := h
  rw [plainPrefix_text, Bool.and_eq_true, decide_eq_true_eq, List.all_eq_true] at hplain
  obtain ⟨hlen, hdigits⟩ := hplain
  have hpos := List.length_pos_iff.mpr hne
  rw [strtol_digits hne hdigits] at hv
  have hvalue : (digitsValue p : ℤ) = v := congrArg Prod.fst (Option.some.inj hv)
  exact ⟨ip, p, rfl, by omega, hdigits, by omega⟩

/-! ## What was staged -/

/-- The routes of a CONFIG that is being read. -/
structure RoutesChecked (routes : List CStr) : Prop where
  count : routes.length ≤ CAMEX_MAX_ROUTES
  short : ∀ route ∈ routes, route.length < 32
  checked : ∀ route ∈ routes, CidrChecked route

theorem protoConfigToken_fits {c c' : ConfigText} {t : CStr} (h : protoConfigToken c t = some c')
    (hr : RoutesChecked c.profile.routeCidrs) : RoutesChecked c'.profile.routeCidrs := by
  have hread := protoConfigToken_read h
  cases hroute : tokenValue (ascii "ROUTE_CIDR") CAMEX_CLIENT_TOKEN_LEN t with
  | none =>
    rw [hread.routes, fieldValues_none hroute, List.append_nil]
    exact hr
  | some value =>
    unfold protoConfigToken at h
    rw [tokenValue_exclusive (by decide) hroute, tokenValue_exclusive (by decide) hroute,
      tokenValue_exclusive (by decide) hroute, hroute] at h
    obtain ⟨p, hp, rfl⟩ := Option.map_eq_some_iff.mp h
    obtain ⟨rfl, hne, hlen, hroom, hvalid⟩ := configProfileAppendRoute_some hp
    refine ⟨?_, fun route hmem => ?_, fun route hmem => ?_⟩
    · rw [List.length_append, List.length_singleton]
      omega
    · rcases List.mem_append.mp hmem with hmem | hmem
      · exact hr.short route hmem
      · rwa [List.mem_singleton.mp hmem]
    · rcases List.mem_append.mp hmem with hmem | hmem
      · exact hr.checked route hmem
      · rw [List.mem_singleton.mp hmem]
        exact validateRouteCidr_checked hne hvalid

theorem foldlM_routesChecked {ts : List CStr} {c c' : ConfigText} (h : ts.foldlM protoConfigToken c = some c')
    (hr : RoutesChecked c.profile.routeCidrs) : RoutesChecked c'.profile.routeCidrs := by
  induction ts generalizing c with
  | nil => rwa [← Option.some.inj h]
  | cons t ts ih =>
    rw [List.foldlM_cons] at h
    obtain ⟨c₁, hc₁, hrest⟩ := Option.bind_eq_some_iff.mp h
    exact ih hrest (protoConfigToken_fits hc₁ hr)

/-! ## What is stored -/

theorem configApplyProfile_some {config config' : CamexConfig} {profile : Profile}
    (h : configApplyProfile config profile = some config') :
    profile.localCidr ≠ [] ∧ profile.gatewayIp ≠ [] ∧ config' = { config with
      localCidr := store 32 profile.localCidr, gatewayIp := store 16 profile.gatewayIp
      routeCidrs := config'.routeCidrs, routeCount := min profile.routeCidrs.length CAMEX_MAX_ROUTES
      mtu := if 0 < profile.mtu then profile.mtu else config.mtu } := by
  unfold configApplyProfile at h
  split at h
  · cases h
  · rename_i hne
    rw [not_or] at hne
    exact ⟨hne.1, hne.2, by rw [← Option.some.inj h]⟩

theorem configApplyProfile_routes {config config' : CamexConfig} {profile : Profile}
    (h : configApplyProfile config profile = some config') (hr : RoutesChecked profile.routeCidrs)
    (hnul : ∀ route ∈ profile.routeCidrs, ∀ b ∈ route, b ≠ 0) : config'.routes = profile.routeCidrs := by
  unfold configApplyProfile at h
  split at h
  · cases h
  · rw [← Option.some.inj h]
    have hcount := hr.count
    unfold CamexConfig.routes
    refine List.ext_getElem ?_ fun k h₁ h₂ => ?_
    · rw [List.length_map, List.length_take, List.length_finRange]
      show min (min profile.routeCidrs.length CAMEX_MAX_ROUTES) CAMEX_MAX_ROUTES = profile.routeCidrs.length
      omega
    · have hmem := List.getElem_mem h₂
      simp only [List.getElem_map, List.getElem_take, List.getElem_finRange, Fin.val_cast,
        List.getElem?_eq_getElem h₂]
      rw [store_of_lt (hr.short _ hmem), untilNul_putString (hnul _ hmem)]

theorem protoParseConfig_some {message : Bytes} {config config' : CamexConfig}
    (h : protoParseConfig message config = some config') :
    ∃ c config₁, ((tokens isCtrlDelim (untilNul message)).drop 2).foldlM protoConfigToken
        ⟨.empty, config.clientId⟩ = some c ∧ configAccepted config c = true ∧
      configApplyProfile config c.profile = some config₁ ∧
      config' = if c.clientId ≠ [] then { config₁ with clientId := c.clientId } else config₁ := by
  unfold protoParseConfig at h
  split at h
  · rename_i w v rest htokens
    rw [htokens]
    split at h
    · cases h
    · split at h
      · cases h
      · rename_i c hfold
        split at h
        · cases h
        · rename_i haccept
          obtain ⟨config₁, happly, rfl⟩ := Option.map_eq_some_iff.mp h
          exact ⟨c, config₁, hfold, by simpa using haccept, happly, rfl⟩
  · cases h

theorem fieldValues_noNul {message : Bytes} {name : String} :
    ∀ v ∈ configValues name message, ∀ b ∈ v, b ≠ 0 := by
  intro v hv b hb
  obtain ⟨t, ht, htv⟩ := List.mem_filterMap.mp hv
  exact untilNul_ne_zero message b (tokens_subset (List.mem_of_mem_drop ht) b (tokenValue_subset htv b hb))

section Accepted

variable {message : Bytes} {config config' : CamexConfig}

/-- The parts of an accepted CONFIG that are right in any case. -/
structure StoredParts (message : Bytes) (config config' : CamexConfig) : Prop where
  localCidr : (configValues "LOCAL_CIDR" message).getLast? = some config'.localCidr
  localChecked : CidrChecked config'.localCidr
  gatewayIp : ∃ ip : Ip, config'.gatewayIp = ipText ip
  routeCount : config'.routeCount ≤ CAMEX_MAX_ROUTES
  routesChecked : ∀ route ∈ config'.routes, CidrChecked route
  routes : config'.routes = configValues "ROUTE_CIDR" message
  mtu : (configValues "MTU" message = [] ∧ config'.mtu = config.mtu) ∨
    ∃ v, (configValues "MTU" message).getLast? = some v ∧ strtol v = some (config'.mtu, []) ∧
      576 ≤ config'.mtu ∧ config'.mtu ≤ 9000
  clientId : config.clientId ≠ [] → strcaseeq config.clientId config'.clientId = true
  frame : config' = { config with
    localCidr := config'.localCidr, gatewayIp := config'.gatewayIp, routeCidrs := config'.routeCidrs,
    routeCount := config'.routeCount, mtu := config'.mtu, clientId := config'.clientId }

theorem protoParseConfig_parts (h : protoParseConfig message config = some config') :
    StoredParts message config config' := by
  obtain ⟨c, config₁, hfold, haccept, happly, hconfig⟩ := protoParseConfig_some h
  have hread := foldlM_configRead hfold
  have hchecked := foldlM_routesChecked hfold
    ⟨Nat.zero_le _, by simp [Profile.empty], by simp [Profile.empty]⟩
  obtain ⟨hlocal, hgateway, happlied⟩ := configApplyProfile_some happly
  unfold configAccepted at haccept
  simp only [Bool.and_eq_true, Bool.or_eq_true, beq_iff_eq, hlocal, hgateway, false_or] at haccept
  obtain ⟨⟨hcidr, hip⟩, hid⟩ := haccept
  obtain ⟨ip, hip⟩ := Option.isSome_iff_exists.mp hip
  have hlen : c.profile.localCidr.length < 32 := by
    by_contra hlen
    unfold parseLocalCidr at hcidr
    rw [if_pos (Or.inr (not_lt.mp hlen))] at hcidr
    cases hcidr
  have hlastLocal : (configValues "LOCAL_CIDR" message).getLast? = some c.profile.localCidr := by
    have hlast := hread.localCidr
    unfold lastValue at hlast
    unfold configValues
    cases hv : (fieldValues "LOCAL_CIDR" ((tokens isCtrlDelim (untilNul message)).drop 2)).getLast? with
    | none =>
      rw [hv] at hlast
      exact absurd hlast hlocal
    | some v =>
      rw [hv] at hlast
      rw [hlast]
      rfl
  have hroutes : c.profile.routeCidrs = configValues "ROUTE_CIDR" message := hread.routes
  have happliedRoutes := configApplyProfile_routes happly hchecked
    (by rw [hroutes]; exact fieldValues_noNul)
  have hfields : config'.localCidr = c.profile.localCidr ∧ config'.gatewayIp = ipText ip ∧
      config'.routeCount = min c.profile.routeCidrs.length CAMEX_MAX_ROUTES ∧
      config'.routes = c.profile.routeCidrs ∧
      config'.mtu = (if 0 < c.profile.mtu then c.profile.mtu else config.mtu) ∧
      config'.clientId = (if c.clientId ≠ [] then c.clientId else config.clientId) := by
    have hstore : store 16 c.profile.gatewayIp = ipText ip := by
      rw [inetPton_some hip]
      exact store_of_lt (by have := (ipText_shape ip).1; omega)
    have hclient₁ : config₁.clientId = config.clientId := by rw [happlied]
    have hcidr₁ : config₁.localCidr = c.profile.localCidr := by rw [happlied]; exact store_of_lt hlen
    have hgateway₁ : config₁.gatewayIp = ipText ip := by rw [happlied]; exact hstore
    have hcount₁ : config₁.routeCount = min c.profile.routeCidrs.length CAMEX_MAX_ROUTES := by rw [happlied]
    have hmtu₁ : config₁.mtu = if 0 < c.profile.mtu then c.profile.mtu else config.mtu := by rw [happlied]
    rw [hconfig]
    by_cases hc : c.clientId = []
    · simp only [hc, ne_eq, not_true, if_false]
      exact ⟨hcidr₁, hgateway₁, hcount₁, happliedRoutes, hmtu₁, hclient₁⟩
    · simp only [hc, ne_eq, not_false_iff, if_true]
      exact ⟨hcidr₁, hgateway₁, hcount₁, happliedRoutes, hmtu₁, trivial⟩
  obtain ⟨hcidr', hgateway', hcount', hroutes', hmtu', hid'⟩ := hfields
  refine
    { localCidr := by rw [hcidr', hlastLocal]
      localChecked := by rw [hcidr']; exact parseLocalCidr_checked hcidr
      gatewayIp := ⟨ip, hgateway'⟩
      routeCount := by rw [hcount']; exact min_le_right _ _
      routesChecked := by rw [hroutes']; exact hchecked.checked
      routes := by rw [hroutes', hroutes]
      mtu := ?_
      clientId := fun hne => ?_
      frame := ?_ }
  · rw [hmtu']
    rcases hread.mtu with ⟨hnone, hzero⟩ | ⟨v, hv, hparse⟩
    · have hzero : c.profile.mtu = 0 := hzero
      rw [hzero]
      exact Or.inl ⟨hnone, rfl⟩
    · obtain ⟨hstrtol, hlow, hhigh⟩ := parseMtu_some hparse
      rw [if_pos (by omega)]
      exact Or.inr ⟨v, hv, hstrtol, hlow, hhigh⟩
  · rw [hid']
    rcases hid with (hid | hid) | hid
    · exact absurd hid hne
    · rw [if_neg (by simpa using hid)]
      exact strcaseeq_refl _
    · have hcid : c.clientId ≠ [] := fun hnil => by
        rw [hnil, strcaseeq_nil] at hid
        exact hne hid
      rwa [if_pos hcid]
  · rw [hconfig, happlied]
    split <;> rfl

theorem StoredParts.whole_iff (h : StoredParts message config config') :
    StoredWhole message config config' ↔ PlainPrefixes message := by
  have hvalues : ∀ v ∈ (configValues "LOCAL_CIDR" message).getLast?.toList ++ configValues "ROUTE_CIDR" message,
      v = config'.localCidr ∨ v ∈ config'.routes := by
    intro v hv
    rw [h.localCidr, ← h.routes] at hv
    rcases List.mem_append.mp hv with hv | hv
    · exact Or.inl (List.mem_singleton.mp hv)
    · exact Or.inr hv
  constructor
  · intro hwhole v hv
    rcases hvalues v hv with rfl | hv
    · exact hwhole.localCidr.plain
    · exact (hwhole.routesText v hv).plain
  · intro hplain
    have hlocal : plainPrefix config'.localCidr = true :=
      hplain _ (List.mem_append_left _ (by rw [h.localCidr]; exact List.mem_singleton_self _))
    have hroutes : ∀ route ∈ config'.routes, plainPrefix route = true := fun route hroute =>
      hplain _ (List.mem_append_right _ (h.routes ▸ hroute))
    exact ⟨h.localChecked.text_iff.mpr hlocal, h.gatewayIp, h.routeCount,
      fun route hroute => (h.routesChecked route hroute).text_iff.mpr (hroutes route hroute), h.routes, h.mtu,
      h.clientId, h.frame⟩

end Accepted

/-- **A CONFIG is checked whole.** One that is refused leaves the configuration as it was; one that is accepted is
stored as it should be exactly when its prefixes are plain. -/
theorem configFromNetwork (message : Bytes) (config : CamexConfig) :
    ((protoParseConfigInto message config).1 = false → (protoParseConfigInto message config).2 = config) ∧
      ((protoParseConfigInto message config).1 = true →
        (StoredWhole message config (protoParseConfigInto message config).2 ↔ PlainPrefixes message)) := by
  unfold protoParseConfigInto
  cases h : protoParseConfig message config with
  | none => exact ⟨fun _ => rfl, fun hfalse => absurd hfalse Bool.noConfusion⟩
  | some config' =>
    exact ⟨fun hfalse => absurd hfalse (Bool.noConfusion), fun _ => (protoParseConfig_parts h).whole_iff⟩

/-- The prefix `+24` is accepted and stored. -/
theorem configFromNetwork_sign :
    ∃ message, (protoParseConfigInto message CamexConfig.zero).1 = true ∧
      ¬ StoredWhole message CamexConfig.zero (protoParseConfigInto message CamexConfig.zero).2 := by
  refine ⟨ascii "CAMEX CONFIG LOCAL_CIDR=10.0.0.2/+24 GATEWAY_IP=10.0.0.1", by decide +kernel, fun hwhole => ?_⟩
  have hplain := hwhole.localCidr.plain
  exact absurd hplain (by decide +kernel)

end Camex
