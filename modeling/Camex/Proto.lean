import Camex.Config

/-!
# Control messages (`proto.c`)

`protoParseRegister` reads the REGISTER text of message 1 and `protoBuildConfig` writes the CONFIG
text of message 2.
-/

namespace Camex

open Lib

def CAMEX_CTRL_WORD : CStr := ascii "CAMEX"
def CAMEX_PROTO_VER : ℕ := 2
def CAMEX_CLIENT_TOKEN_LEN : ℕ := 64
def CAMEX_CONTROL_MAX : ℕ := 1024

/-- The delimiters `" \t\r\n"`. -/
def isCtrlDelim (b : UInt8) : Bool := b == 32 || b == 9 || b == 13 || b == 10

/-- What a REGISTER asks for; empty strings where it names nothing. -/
structure RegisterText where
  clientId : CStr
  localIp : CStr
  autoRequest : Bool
  sawMode : Bool
  deriving DecidableEq

/-- One token of a REGISTER behind its first two words; `none` rejects the message. -/
def protoRegisterToken (r : RegisterText) (token : CStr) : Option RegisterText :=
  match tokenValue (ascii "VER") CAMEX_CLIENT_TOKEN_LEN token with
  | some value =>
    match strtoul value with
    | some (pv, []) => if CAMEX_PROTO_VER < pv % 2 ^ 32 then none else some r
    | _ => none
  | none =>
  match tokenValue (ascii "MODE") CAMEX_CLIENT_TOKEN_LEN token with
  | some value =>
    if strcaseeq value (ascii "AUTO") then some { r with autoRequest := true, sawMode := true }
    else if strcaseeq value (ascii "MANUAL") then
      some { r with autoRequest := false, sawMode := true }
    else none
  | none =>
  match tokenValue (ascii "CLIENT_ID") CAMEX_CLIENT_TOKEN_LEN token with
  | some value => (copyOption CAMEX_CLIENT_ID_LEN value).map fun v => { r with clientId := v }
  | none =>
  match tokenValue (ascii "LOCAL_IP") CAMEX_CLIENT_TOKEN_LEN token with
  | some value => (copyOption 16 value).map fun v => { r with localIp := v }
  | none =>
  if !r.sawMode && r.clientId == [] && r.localIp == [] then
    match inetPton token with
    | some _ => (copyOption 16 token).map fun v => { r with localIp := v, autoRequest := false }
    | none => none
  else none

/-- `proto_parse_register` with empty outputs. -/
def protoParseRegister (message : CStr) : Option RegisterText :=
  match tokens isCtrlDelim message with
  | w :: v :: rest =>
    if w ≠ CAMEX_CTRL_WORD ∨ v ≠ ascii "REGISTER" then none
    else
      match rest.foldlM protoRegisterToken ⟨[], [], false, false⟩ with
      | none => none
      | some r =>
        if r.autoRequest then
          if r.clientId = [] then none else some r
        else if r.localIp = [] then none else some r
  | _ => none

theorem copyOption_some {size : ℕ} {value v : CStr} (h : copyOption size value = some v) :
    v = value ∧ value.length < size := by
  unfold copyOption at h
  split at h
  · cases h
  · rename_i hlen
    simp only [not_or, not_le] at hlen
    exact ⟨(Option.some.inj h).symm, hlen.2⟩

theorem tokenValue_subset {key token value : CStr} {size : ℕ} (h : tokenValue key size token = some value) :
    ∀ b ∈ value, b ∈ token := by
  unfold tokenValue at h
  split at h
  · rw [(copyOption_some h).1]
    exact fun b hb => List.mem_of_mem_drop hb
  · cases h

/-- An ID a REGISTER can name: it fits its field and is one word. -/
structure IdText (clientId : CStr) : Prop where
  short : clientId.length < CAMEX_CLIENT_ID_LEN
  noDelim : ∀ b ∈ clientId, isCtrlDelim b = false

/-- A token leaves the client ID alone or stores one that fits. -/
theorem protoRegisterToken_clientId {r r' : RegisterText} {token : CStr}
    (ht : ∀ b ∈ token, isCtrlDelim b = false) (h : protoRegisterToken r token = some r') :
    r'.clientId = r.clientId ∨ IdText r'.clientId := by
  unfold protoRegisterToken at h
  split at h
  · split at h
    · split at h
      · cases h
      · exact Or.inl (by rw [Option.some.inj h])
    · cases h
  · split at h
    · split at h
      · exact Or.inl (by rw [← Option.some.inj h])
      · split at h
        · exact Or.inl (by rw [← Option.some.inj h])
        · cases h
    · split at h
      · rename_i value hvalue
        obtain ⟨v, hv, rfl⟩ := Option.map_eq_some_iff.mp h
        obtain ⟨rfl, hlen⟩ := copyOption_some hv
        exact Or.inr ⟨hlen, fun b hb => ht b (tokenValue_subset hvalue b hb)⟩
      · split at h
        · obtain ⟨v, -, rfl⟩ := Option.map_eq_some_iff.mp h
          exact Or.inl rfl
        · split at h
          · split at h
            · obtain ⟨v, -, rfl⟩ := Option.map_eq_some_iff.mp h
              exact Or.inl rfl
            · cases h
          · cases h

theorem foldlM_registerToken_clientId {ts : List CStr} (hts : ∀ t ∈ ts, ∀ b ∈ t, isCtrlDelim b = false)
    {r r' : RegisterText} (h : ts.foldlM protoRegisterToken r = some r') (hr : IdText r.clientId) :
    IdText r'.clientId := by
  induction ts generalizing r with
  | nil =>
    rw [← Option.some.inj h]
    exact hr
  | cons t ts ih =>
    rw [List.foldlM_cons] at h
    obtain ⟨r₁, hr₁, hrest⟩ := Option.bind_eq_some_iff.mp h
    obtain ⟨ht, hts⟩ := List.forall_mem_cons.mp hts
    exact ih hts hrest ((protoRegisterToken_clientId ht hr₁).elim (fun h => h ▸ hr) id)

theorem protoParseRegister_some {message : CStr} {r : RegisterText}
    (h : protoParseRegister message = some r) :
    IdText r.clientId ∧ (r.autoRequest = true → r.clientId ≠ []) := by
  unfold protoParseRegister at h
  split at h
  · rename_i w v rest htokens
    split at h
    · cases h
    · split at h
      · cases h
      · rename_i r₁ hfold
        have hrest : ∀ t ∈ rest, ∀ b ∈ t, isCtrlDelim b = false := fun t ht =>
          tokens_noDelim (s := message) (by rw [htokens]; simp [ht])
        have hid := foldlM_registerToken_clientId hrest hfold ⟨by decide, by simp⟩
        split at h
        · rename_i hauto
          split at h
          · cases h
          · rename_i hne
            rw [← Option.some.inj h]
            exact ⟨hid, fun _ => hne⟩
        · rename_i hauto
          split at h
          · cases h
          · rw [← Option.some.inj h]
            exact ⟨hid, fun ha => absurd ha hauto⟩
  · cases h

/-- A number as `%d` prints it. -/
def intText (v : ℤ) : CStr := if v < 0 then 45 :: natText v.natAbs else natText v.natAbs

/-- `append_control_field`: the text so far with the field behind it, while it fits. -/
def appendControlField (size : ℕ) (buffer : Option CStr) (field : CStr) : Option CStr :=
  match buffer with
  | none => none
  | some b => if size ≤ b.length + field.length then none else some (b ++ field)

def ctrlField (name : String) (value : CStr) : CStr := 32 :: (ascii name ++ 61 :: value)

def configFields (clientId : CStr) (profile : Profile) : List CStr :=
  [CAMEX_CTRL_WORD ++ ascii " CONFIG", ctrlField "VER" (natText CAMEX_PROTO_VER)] ++
    (if clientId ≠ [] then [ctrlField "CLIENT_ID" clientId] else []) ++
    (if 0 < profile.mtu then [ctrlField "MTU" (intText profile.mtu)] else []) ++
    (if profile.localCidr ≠ [] then [ctrlField "LOCAL_CIDR" profile.localCidr] else []) ++
    (if profile.gatewayIp ≠ [] then [ctrlField "GATEWAY_IP" profile.gatewayIp] else []) ++
    profile.routeCidrs.map (ctrlField "ROUTE_CIDR") ++ [[10]]

def protoBuildConfig (clientId : CStr) (profile : Profile) (size : ℕ) : Option CStr :=
  (configFields clientId profile).foldl (appendControlField size) (some [])

/-! ## What a CONFIG says -/

/-- The `LOCAL_CIDR`s a client reads in a text. -/
def localCidrs (text : CStr) : List CStr :=
  (tokens isCtrlDelim text).filterMap (tokenValue (ascii "LOCAL_CIDR") CAMEX_CLIENT_TOKEN_LEN)

/-- The `LOCAL_CIDR`s that the gateway and the routes of a profile smuggle into a CONFIG. -/
def Profile.strayCidrs (p : Profile) : List CStr :=
  localCidrs (ctrlField "GATEWAY_IP" p.gatewayIp) ++
    p.routeCidrs.flatMap fun r => localCidrs (ctrlField "ROUTE_CIDR" r)

def Profile.localCidrs (p : Profile) : List CStr :=
  Camex.localCidrs (ctrlField "LOCAL_CIDR" p.localCidr) ++ p.strayCidrs

theorem foldl_appendControlField {size : ℕ} (fields : List CStr) {b r : CStr}
    (h : fields.foldl (appendControlField size) (some b) = some r) : r = b ++ fields.flatten := by
  have hnone : ∀ fs : List CStr, fs.foldl (appendControlField size) none = none := by
    intro fs
    induction fs with
    | nil => rfl
    | cons f fs ih => exact ih
  induction fields generalizing b with
  | nil => simpa using (Option.some.inj h).symm
  | cons f fs ih =>
    rw [List.foldl_cons, appendControlField] at h
    split at h
    · rw [hnone] at h
      cases h
    · rw [ih h, List.flatten_cons, List.append_assoc]

theorem tokenValue_other {key token : CStr} {size : ℕ} (h : (key ++ [61]).head? ≠ token.head?) :
    tokenValue key size token = none := by
  unfold tokenValue
  rw [if_neg]
  intro hp
  obtain ⟨t, ht⟩ := List.isPrefixOf_iff_prefix.mp hp
  apply h
  rw [← ht]
  cases key <;> rfl

theorem tokenValue_self {key value : CStr} {size : ℕ} (hne : value ≠ []) (hlen : value.length < size) :
    tokenValue key size (key ++ 61 :: value) = some value := by
  have hdrop : (key ++ 61 :: value).drop (key.length + 1) = value := by
    rw [show key ++ 61 :: value = (key ++ [61]) ++ value by simp,
      List.drop_left' (by rw [List.length_append, List.length_singleton])]
  unfold tokenValue
  rw [if_pos, hdrop]
  · unfold copyOption
    rw [if_neg (by simp [hne]; omega)]
  · rw [List.isPrefixOf_iff_prefix]
    exact ⟨value, by simp⟩

theorem digit_noDelim {b : UInt8} (h : isDigit b = true) : isCtrlDelim b = false := by
  unfold isDigit at h
  unfold isCtrlDelim
  simp only [Bool.and_eq_true, decide_eq_true_eq] at h
  simp only [Bool.or_eq_false_iff, beq_eq_false_iff_ne]
  refine ⟨⟨⟨?_, ?_⟩, ?_⟩, ?_⟩ <;> rintro rfl <;> exact absurd h.1 (by decide)

theorem intText_noDelim {v : ℤ} (hv : 0 < v) : ∀ b ∈ intText v, isCtrlDelim b = false := by
  intro b hb
  unfold intText at hb
  rw [if_neg (by omega)] at hb
  exact digit_noDelim (natText_isDigit _ b hb)

theorem ipText_noDelim (ip : Ip) : ∀ b ∈ ipText ip, isCtrlDelim b = false := by
  intro b hb
  rcases (ipText_shape ip).2.2 b hb with h | rfl
  · exact digit_noDelim h
  · decide

/-- A field whose value is one word is one word. -/
theorem tokens_ctrlField {name : String} {value : CStr} (hn : ∀ b ∈ ascii name, isCtrlDelim b = false)
    (hv : ∀ b ∈ value, isCtrlDelim b = false) :
    tokens isCtrlDelim (ctrlField name value) = [ascii name ++ 61 :: value] := by
  have := @tokens_append_cons isCtrlDelim [] (ascii name ++ 61 :: value) 32 rfl
  rw [List.nil_append, show tokens isCtrlDelim [] = [] from rfl, List.nil_append] at this
  unfold ctrlField
  rw [this]
  refine tokens_word (by simp) fun b hb => ?_
  rcases List.mem_append.mp hb with hb | hb
  · exact hn b hb
  · rcases List.mem_cons.mp hb with rfl | hb
    · decide
    · exact hv b hb

/-- A field with another name, whose value is one word, holds no `LOCAL_CIDR`. -/
theorem localCidrs_other (name : String) {value : CStr} (hn : ∀ b ∈ ascii name, isCtrlDelim b = false)
    (hL : (ascii "LOCAL_CIDR" ++ [61]).head? ≠ (ascii name ++ [61]).head?) (hv : ∀ b ∈ value, isCtrlDelim b = false) :
    localCidrs (ctrlField name value) = [] := by
  unfold localCidrs
  rw [tokens_ctrlField hn hv, List.filterMap_cons, tokenValue_other, List.filterMap_nil]
  intro h
  apply hL
  rw [h]
  cases ascii name <;> rfl

theorem localCidrs_self {cidr : CStr} (hne : cidr ≠ []) (hlen : cidr.length < 32)
    (hv : ∀ b ∈ cidr, isCtrlDelim b = false) : localCidrs (ctrlField "LOCAL_CIDR" cidr) = [cidr] := by
  unfold localCidrs
  rw [tokens_ctrlField (by decide +kernel) hv, List.filterMap_cons,
    tokenValue_self hne (lt_of_lt_of_le hlen (by decide)), List.filterMap_nil]

/-- **The `LOCAL_CIDR`s of a CONFIG** are those of the profile in it. -/
theorem protoBuildConfig_localCidrs {clientId reply : CStr} {profile : Profile} {size : ℕ}
    (h : protoBuildConfig clientId profile size = some reply)
    (hid : ∀ b ∈ clientId, isCtrlDelim b = false) (hcidr : profile.localCidr ≠ [])
    (hgateway : profile.gatewayIp ≠ []) : localCidrs reply = profile.localCidrs := by
  have htext := foldl_appendControlField _ h
  rw [List.nil_append] at htext
  unfold configFields at htext
  rw [if_pos hcidr, if_pos hgateway] at htext
  have hhead : localCidrs (CAMEX_CTRL_WORD ++ ascii " CONFIG") = [] := by decide
  have hver : localCidrs (ctrlField "VER" (natText CAMEX_PROTO_VER)) = [] := by decide
  have hend : localCidrs [10] = [] := by decide
  have hidField : (if clientId ≠ [] then [ctrlField "CLIENT_ID" clientId] else []).flatMap localCidrs = [] := by
    split
    · simp [localCidrs_other "CLIENT_ID" (by decide +kernel) (by decide +kernel) hid]
    · rfl
  have hmtu : (if 0 < profile.mtu then [ctrlField "MTU" (intText profile.mtu)] else []).flatMap
      localCidrs = [] := by
    split
    · simp [localCidrs_other "MTU" (by decide +kernel) (by decide +kernel) (intText_noDelim ‹_›)]
    · rfl
  have hfields : localCidrs reply = localCidrs (CAMEX_CTRL_WORD ++ ascii " CONFIG") ++
      ([ctrlField "VER" (natText CAMEX_PROTO_VER)] ++
        (if clientId ≠ [] then [ctrlField "CLIENT_ID" clientId] else []) ++
        (if 0 < profile.mtu then [ctrlField "MTU" (intText profile.mtu)] else []) ++
        [ctrlField "LOCAL_CIDR" profile.localCidr] ++ [ctrlField "GATEWAY_IP" profile.gatewayIp] ++
        profile.routeCidrs.map (ctrlField "ROUTE_CIDR") ++ [[10]]).flatMap localCidrs := by
    rw [htext]
    unfold localCidrs
    rw [List.cons_append, List.cons_append, List.cons_append, List.cons_append, List.cons_append,
      List.cons_append, List.flatten_cons, tokens_fields, List.filterMap_append, List.filterMap_flatMap]
    intro f hf
    simp only [List.mem_append, List.mem_cons, List.not_mem_nil, or_false, List.mem_map] at hf
    rcases hf with (((((rfl | hf) | hf) | rfl) | rfl) | ⟨r, -, rfl⟩) | rfl
    any_goals exact ⟨_, _, rfl, rfl⟩
    · split at hf
      · rw [List.mem_singleton.mp hf]
        exact ⟨_, _, rfl, rfl⟩
      · cases hf
    · split at hf
      · rw [List.mem_singleton.mp hf]
        exact ⟨_, _, rfl, rfl⟩
      · cases hf
  rw [hfields, hhead]
  simp only [List.flatMap_append, hidField, hmtu, List.flatMap_cons, List.flatMap_nil, hver, hend,
    List.append_nil, List.nil_append, List.flatMap_map]
  unfold Profile.localCidrs Profile.strayCidrs
  rw [List.append_assoc]

end Camex
