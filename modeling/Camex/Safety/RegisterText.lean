import Camex.ClientConfig

/-!
# REGISTER, written and read back

* `Registrable`: a configuration that a client can register with;
* `RegisterSurvives`: the server reads the mode, the ID and the address that the client wrote;
* `registerSurvives_iff`: it does when the ID is one word, and only then.
-/

namespace Camex

open Lib

/-- A configuration that a client can register with. -/
structure Registrable (config : CamexConfig) : Prop where
  idShort : config.clientId.length < CAMEX_CLIENT_ID_LEN
  idAuto : config.autoConfig = true → config.clientId ≠ []
  ip : config.localIp = [] ∨ (inetPton config.localIp).isSome = true
  ipManual : config.autoConfig = false → config.localIp ≠ []

instance (config : CamexConfig) : Decidable (Registrable config) :=
  decidable_of_iff (config.clientId.length < CAMEX_CLIENT_ID_LEN ∧
      (config.autoConfig = true → config.clientId ≠ []) ∧
      (config.localIp = [] ∨ (inetPton config.localIp).isSome = true) ∧
      (config.autoConfig = false → config.localIp ≠ []))
    ⟨fun h => ⟨h.1, h.2.1, h.2.2.1, h.2.2.2⟩, fun h => ⟨h.1, h.2, h.3, h.4⟩⟩

/-- The server reads what the client wrote. -/
def RegisterSurvives (config : CamexConfig) (text : CStr) : Prop :=
  ∃ r, protoParseRegister text = some r ∧ r.autoRequest = config.autoConfig ∧ r.clientId = config.clientId ∧
    r.localIp = config.localIp

instance (config : CamexConfig) (text : CStr) : Decidable (RegisterSurvives config text) :=
  decidable_of_iff ((protoParseRegister text).any (fun r => decide (r.autoRequest = config.autoConfig ∧
      r.clientId = config.clientId ∧ r.localIp = config.localIp)) = true) <| by
    rw [Option.any_eq_true]
    simp [RegisterSurvives]

/-! ## Tokens -/

theorem protoRegisterToken_ver (r : RegisterText) :
    protoRegisterToken r (ascii "VER" ++ 61 :: natText CAMEX_PROTO_VER) = some r := by
  have hver : tokenValue (ascii "VER") CAMEX_CLIENT_TOKEN_LEN (ascii "VER" ++ 61 :: natText CAMEX_PROTO_VER) =
      some (natText CAMEX_PROTO_VER) := by decide
  have hnumber : strtoul (natText CAMEX_PROTO_VER) = some (2, []) := by decide
  unfold protoRegisterToken
  rw [hver]
  dsimp only
  rw [hnumber]
  rfl

theorem protoRegisterToken_mode (r : RegisterText) (auto : Bool) :
    protoRegisterToken r (if auto then ascii "MODE=AUTO" else ascii "MODE=MANUAL") =
      some { r with autoRequest := auto, sawMode := true } := by
  cases auto with
  | true => rfl
  | false => rfl

theorem protoRegisterToken_id (r : RegisterText) {id : CStr} (hne : id ≠ [])
    (hshort : id.length < CAMEX_CLIENT_ID_LEN) :
    protoRegisterToken r (ascii "CLIENT_ID" ++ 61 :: id) = some { r with clientId := id } := by
  have hlen : id.length < CAMEX_CLIENT_TOKEN_LEN := hshort.trans (by decide)
  unfold protoRegisterToken
  rw [tokenValue_field "VER" "CLIENT_ID" (by decide), tokenValue_field "MODE" "CLIENT_ID" (by decide),
    tokenValue_self hne hlen]
  dsimp only
  unfold copyOption
  rw [if_neg (by simp [hne]; omega)]
  rfl

theorem protoRegisterToken_ip (r : RegisterText) {ip : CStr} (hne : ip ≠ []) (hshort : ip.length < 16) :
    protoRegisterToken r (ascii "LOCAL_IP" ++ 61 :: ip) = some { r with localIp := ip } := by
  have hlen : ip.length < CAMEX_CLIENT_TOKEN_LEN := hshort.trans (by decide)
  unfold protoRegisterToken
  rw [tokenValue_field "VER" "LOCAL_IP" (by decide), tokenValue_field "MODE" "LOCAL_IP" (by decide),
    tokenValue_field "CLIENT_ID" "LOCAL_IP" (by decide), tokenValue_self hne hlen]
  dsimp only
  unfold copyOption
  rw [if_neg (by simp [hne]; omega)]
  rfl

/-! ## The text -/

/-- The tokens behind `CAMEX REGISTER VER=2`. -/
def registerTokens (config : CamexConfig) : List CStr :=
  if config.autoConfig then
    ascii "MODE=AUTO" :: (ascii "CLIENT_ID" ++ 61 :: config.clientId) ::
      if config.localIp ≠ [] then [ascii "LOCAL_IP" ++ 61 :: config.localIp] else []
  else
    ascii "MODE=MANUAL" :: (ascii "LOCAL_IP" ++ 61 :: config.localIp) ::
      if config.clientId ≠ [] then [ascii "CLIENT_ID" ++ 61 :: config.clientId] else []

section Built

variable {config : CamexConfig} {text : CStr} {size : ℕ}

theorem tokens_modeField {mode : CStr} (hmode : tokens isCtrlDelim (32 :: mode) = [mode]) {name : String}
    {value : CStr} (hn : ∀ b ∈ ascii name, isCtrlDelim b = false) (hv : ∀ b ∈ value, isCtrlDelim b = false) :
    tokens isCtrlDelim (32 :: mode ++ ctrlField name value) = [mode, ascii name ++ 61 :: value] := by
  have hdelim : ctrlField name value = [] ∨ ∃ d u, ctrlField name value = d :: u ∧ isCtrlDelim d = true :=
    Or.inr ⟨32, _, rfl, rfl⟩
  rw [tokens_append hdelim, hmode, tokens_ctrlField hn hv]
  rfl

theorem tokens_optional {p : Prop} [Decidable p] {name : String} {value : CStr}
    (hn : ∀ b ∈ ascii name, isCtrlDelim b = false) (hv : ∀ b ∈ value, isCtrlDelim b = false) :
    (if p then [ctrlField name value] else []).flatMap (tokens isCtrlDelim) =
      if p then [ascii name ++ 61 :: value] else [] := by
  split
  · simp [tokens_ctrlField hn hv]
  · rfl

/-- The fields behind the two words and the version. -/
def registerValues (config : CamexConfig) : List CStr :=
  if config.autoConfig then
    (ascii " MODE=AUTO" ++ ctrlField "CLIENT_ID" config.clientId) ::
      if config.localIp ≠ [] then [ctrlField "LOCAL_IP" config.localIp] else []
  else
    (ascii " MODE=MANUAL" ++ ctrlField "LOCAL_IP" config.localIp) ::
      if config.clientId ≠ [] then [ctrlField "CLIENT_ID" config.clientId] else []

theorem registerFields_eq : registerFields config = (CAMEX_CTRL_WORD ++ ascii " REGISTER") ::
    ctrlField "VER" (natText CAMEX_PROTO_VER) :: (registerValues config ++ [[10]]) := by
  unfold registerFields registerValues
  cases config.autoConfig <;> rfl

theorem registerValues_delim : ∀ f ∈ registerValues config, ∃ d u, f = d :: u ∧ isCtrlDelim d = true := by
  have hopt : ∀ (p : Prop) [Decidable p] (name : String) (value : CStr),
      ∀ f ∈ (if p then [ctrlField name value] else []), ∃ d u, f = d :: u ∧ isCtrlDelim d = true := by
    intro p _ name value f hf
    split at hf
    · rw [List.mem_singleton.mp hf]
      exact ⟨32, _, rfl, rfl⟩
    · cases hf
  intro f hf
  unfold registerValues at hf
  split at hf
  · rcases List.mem_cons.mp hf with rfl | hf
    · exact ⟨32, _, rfl, rfl⟩
    · exact hopt _ _ _ f hf
  · rcases List.mem_cons.mp hf with rfl | hf
    · exact ⟨32, _, rfl, rfl⟩
    · exact hopt _ _ _ f hf

theorem tokens_registerValues (hid : ∀ b ∈ config.clientId, isCtrlDelim b = false)
    (hip : ∀ b ∈ config.localIp, isCtrlDelim b = false) :
    (registerValues config).flatMap (tokens isCtrlDelim) = registerTokens config := by
  have hcid : ∀ b ∈ ascii "CLIENT_ID", isCtrlDelim b = false := by decide +kernel
  have hlip : ∀ b ∈ ascii "LOCAL_IP", isCtrlDelim b = false := by decide +kernel
  have hauto : tokens isCtrlDelim (32 :: ascii "MODE=AUTO") = [ascii "MODE=AUTO"] := by decide +kernel
  have hmanual : tokens isCtrlDelim (32 :: ascii "MODE=MANUAL") = [ascii "MODE=MANUAL"] := by decide +kernel
  unfold registerValues registerTokens
  split
  · rw [List.flatMap_cons, show ascii " MODE=AUTO" = 32 :: ascii "MODE=AUTO" from rfl,
      tokens_modeField hauto hcid hid, tokens_optional hlip hip]
    rfl
  · rw [List.flatMap_cons, show ascii " MODE=MANUAL" = 32 :: ascii "MODE=MANUAL" from rfl,
      tokens_modeField hmanual hlip hip, tokens_optional hcid hid]
    rfl

/-- **A REGISTER of one-word values**, word by word. -/
theorem tokens_register (h : protoBuildRegister config size = some text)
    (hid : ∀ b ∈ config.clientId, isCtrlDelim b = false) (hip : ∀ b ∈ config.localIp, isCtrlDelim b = false) :
    tokens isCtrlDelim text = CAMEX_CTRL_WORD :: ascii "REGISTER" ::
      (ascii "VER" ++ 61 :: natText CAMEX_PROTO_VER) :: registerTokens config := by
  have htext := foldl_appendControlField _ h
  have hhead : tokens isCtrlDelim (CAMEX_CTRL_WORD ++ ascii " REGISTER") = [CAMEX_CTRL_WORD, ascii "REGISTER"] := by
    decide +kernel
  have hver : tokens isCtrlDelim (ctrlField "VER" (natText CAMEX_PROTO_VER)) =
      [ascii "VER" ++ 61 :: natText CAMEX_PROTO_VER] := by decide +kernel
  have hend : tokens isCtrlDelim [10] = [] := by decide +kernel
  have hdelim : ∀ f ∈ ctrlField "VER" (natText CAMEX_PROTO_VER) :: (registerValues config ++ [[10]]),
      ∃ d u, f = d :: u ∧ isCtrlDelim d = true := by
    intro f hf
    rcases List.mem_cons.mp hf with rfl | hf
    · exact ⟨32, _, rfl, rfl⟩
    · rcases List.mem_append.mp hf with hf | hf
      · exact registerValues_delim f hf
      · rw [List.mem_singleton.mp hf]
        exact ⟨10, [], rfl, rfl⟩
  rw [htext, List.nil_append, registerFields_eq, List.flatten_cons, tokens_fields _ hdelim, hhead,
    List.flatMap_cons, hver, List.flatMap_append, tokens_registerValues hid hip, List.flatMap_singleton, hend,
    List.append_nil]
  rfl

end Built

/-- The address of a registrable configuration is one word that fits its field. -/
theorem Registrable.ip_word {config : CamexConfig} (hc : Registrable config) :
    config.localIp.length < 16 ∧ ∀ b ∈ config.localIp, isCtrlDelim b = false := by
  rcases hc.ip with h | h
  · rw [h]
    exact ⟨by decide, by simp⟩
  · obtain ⟨ip, hip⟩ := Option.isSome_iff_exists.mp h
    rw [inetPton_some hip]
    exact ⟨by have := (ipText_shape ip).1; omega, ipText_noDelim ip⟩

/-- The words of a registrable configuration are read back. -/
theorem foldlM_registerTokens {config : CamexConfig} (hc : Registrable config) :
    (registerTokens config).foldlM protoRegisterToken ⟨[], [], false, false⟩ =
      some ⟨config.clientId, config.localIp, config.autoConfig, true⟩ := by
  have hip := hc.ip_word.1
  unfold registerTokens
  cases hauto : config.autoConfig with
  | true =>
    have hid := hc.idAuto hauto
    have hmode := protoRegisterToken_mode ⟨[], [], false, false⟩ true
    rw [if_pos rfl] at hmode
    rw [if_pos rfl, List.foldlM_cons, hmode, Option.bind_eq_bind, Option.bind_some, List.foldlM_cons,
      protoRegisterToken_id _ hid hc.idShort, Option.bind_eq_bind, Option.bind_some]
    by_cases hl : config.localIp = []
    · rw [if_neg (by simp [hl]), hl]
      rfl
    · rw [if_pos hl, List.foldlM_cons, protoRegisterToken_ip _ hl hip]
      rfl
  | false =>
    have hl := hc.ipManual hauto
    have hmode := protoRegisterToken_mode ⟨[], [], false, false⟩ false
    rw [if_neg (by decide)] at hmode
    rw [if_neg (by decide), List.foldlM_cons, hmode, Option.bind_eq_bind, Option.bind_some, List.foldlM_cons,
      protoRegisterToken_ip _ hl hip, Option.bind_eq_bind, Option.bind_some]
    by_cases hid : config.clientId = []
    · rw [if_neg (by simp [hid]), hid]
      rfl
    · rw [if_pos hid, List.foldlM_cons, protoRegisterToken_id _ hid hc.idShort]
      rfl

/-- **A REGISTER is read back** exactly when the client ID is one word. -/
theorem registerSurvives_iff {config : CamexConfig} (size : ℕ) {text : CStr} (hc : Registrable config)
    (h : protoBuildRegister config size = some text) :
    RegisterSurvives config text ↔ ∀ b ∈ config.clientId, isCtrlDelim b = false := by
  constructor
  · rintro ⟨r, hr, -, hid, -⟩
    rw [← hid]
    exact (protoParseRegister_some hr).1.noDelim
  · intro hid
    have hfold := foldlM_registerTokens hc
    refine ⟨⟨config.clientId, config.localIp, config.autoConfig, true⟩, ?_, rfl, rfl, rfl⟩
    unfold protoParseRegister
    rw [tokens_register h hid hc.ip_word.2]
    dsimp only
    rw [if_neg (by simp), List.foldlM_cons, protoRegisterToken_ver, Option.bind_eq_bind, Option.bind_some, hfold]
    cases hauto : config.autoConfig with
    | true => simp [hc.idAuto hauto]
    | false => simp [hc.ipManual hauto]

/-- A configuration for automatic addressing under an ID. -/
def autoClient (clientId : CStr) : CamexConfig :=
  { CamexConfig.zero with clientId := clientId, autoConfig := true }

theorem registerSurvives_cam :
    RegisterSurvives (autoClient (ascii "cam"))
        (ascii "CAMEX REGISTER VER=2 MODE=AUTO CLIENT_ID=cam" ++ [10]) :=
  (registerSurvives_iff CAMEX_CONTROL_MAX (by decide +kernel) (by decide +kernel)).mpr (by decide +kernel)

/-- An ID of two words is sent and refused. -/
theorem register_twoWords :
    ∃ text, Registrable (autoClient (ascii "my cam")) ∧
      copyOption CAMEX_CLIENT_ID_LEN (ascii "my cam") = some (ascii "my cam") ∧
      protoBuildRegister (autoClient (ascii "my cam")) CAMEX_CONTROL_MAX = some text ∧
      ¬ RegisterSurvives (autoClient (ascii "my cam")) text ∧ protoParseRegister text = none :=
  ⟨ascii "CAMEX REGISTER VER=2 MODE=AUTO CLIENT_ID=my cam" ++ [10], by decide +kernel⟩

end Camex
