import Camex.NginxMap
import Camex.Safety.ListedTexts

/-!
# What the server lists, the start page reads

`serverClientsIndex` writes a line of fields between tabs for each client and section, `parseRecord` reads one.

* `tabbed`: fields between tabs, `splitTabs_tabbed`;
* `readLine`, `readSection`: what is read of a client's line and of a section's;
* `textLines_index`: the lines of the text are the lines that were written;
* `Unhidden`: the states in which a section has a line just when it is no listed client's, `textLines_index_iff`;
* `index_round_trip`.
-/

namespace Camex

open Lib

/-! ## Fields -/

def tabbed : CStr → List CStr → CStr
  | f, [] => f
  | f, g :: gs => f ++ 9 :: tabbed g gs

theorem splitTabs_tabbed {more : ℕ} {f : CStr} {gs : List CStr} (hlen : gs.length ≤ more) (hf : 9 ∉ f)
    (hgs : ∀ g ∈ gs, 9 ∉ g) : splitTabs more (tabbed f gs) = f :: gs := by
  induction gs generalizing more f with
  | nil =>
    cases more with
    | zero => rfl
    | succ more =>
      unfold splitTabs tabbed
      cases hafter : afterByte 9 f with
      | none => rfl
      | some rest =>
        rw [afterByte_some hafter] at hf
        simp at hf
  | cons g gs ih =>
    obtain ⟨more, rfl⟩ : ∃ k, more = k + 1 := ⟨more - 1, by rw [List.length_cons] at hlen; omega⟩
    obtain ⟨hg, hgs⟩ := List.forall_mem_cons.mp hgs
    unfold splitTabs tabbed
    obtain ⟨hbefore, hafter⟩ := beforeByte_append hf (tabbed g gs)
    rw [hbefore, hafter]
    rw [List.length_cons] at hlen
    exact congrArg _ (ih (by omega) hg hgs)

theorem tabbed_ne_nil {f : CStr} {gs : List CStr} (hf : f ≠ []) : tabbed f gs ≠ [] := by
  cases gs with
  | nil => exact hf
  | cons g gs => simp [tabbed]

theorem tabbed_nameField (f : CStr) (gs : List CStr) (name : CStr) :
    tabbed f gs ++ nameField name = tabbed f (gs ++ if name = [] then [] else [name]) := by
  unfold nameField
  induction gs generalizing f with
  | nil =>
    split
    · rw [List.append_nil]
      rfl
    · rfl
  | cons g gs ih =>
    rw [List.cons_append]
    unfold tabbed
    rw [List.append_assoc, List.cons_append, ih]

/-! ## Numbers and addresses -/

theorem parseNum_natText {v max : ℕ} (hv : v ≤ max) (hmax : max < 10 ^ 20) : parseNum (natText v) max = some v := by
  have hlen := natText_length (k := 20) (by decide) (Nat.lt_of_le_of_lt hv hmax)
  have hdigits : (natText v).all isDigit = true := List.all_eq_true.mpr (natText_isDigit v)
  unfold parseNum
  rw [digitsValue_natText, if_neg]
  simp only [hdigits, natText_ne_nil, Bool.not_true, Bool.false_eq_true, false_or, not_or, not_lt]
  exact ⟨hlen, hv⟩

theorem natText_ne_dash (v : ℕ) : natText v ≠ [45] := by
  intro heq
  have hdigit := natText_isDigit v 45 (by rw [heq]; exact List.mem_singleton_self _)
  exact absurd hdigit (by decide)

theorem dashField_natText {v max : ℕ} (hv : v ≤ max) (hmax : max < 10 ^ 20) :
    dashField (natText v) (parseNum · max) = some (some v) := by
  unfold dashField
  rw [if_neg (natText_ne_dash v)]
  exact congrArg _ (parseNum_natText hv hmax)

/-- An octet is read up to the dot or the end. -/
theorem scanU3_natText {v : ℕ} (hv : v < 256) {s : CStr} (hs : s.head? = some 46 ∨ s = []) :
    scanU3 (natText v ++ s) = some (v, s) := by
  have hlen := natText_length (k := 3) (by decide) (n := v) (by omega)
  have htake : (natText v ++ s).take 3 = natText v ++ s.take (3 - (natText v).length) := by
    rw [List.take_append, List.take_of_length_le hlen]
  have hstop : (s.take (3 - (natText v).length)).takeWhile isDigit = [] := by
    rcases hs with hs | rfl
    · cases s with
      | nil => cases hs
      | cons b s =>
        cases hs
        cases 3 - (natText v).length with
        | zero => rfl
        | succ k => rfl
    · simp
  have hword : ((natText v ++ s).take 3).takeWhile isDigit = natText v := by
    rw [htake, List.takeWhile_append_of_pos (natText_isDigit v), hstop, List.append_nil]
  unfold scanU3
  dsimp only
  rw [hword, if_neg (natText_ne_nil v), digitsValue_natText, List.drop_left]

/-- The page reads the address that the server writes. -/
theorem parseAddr_ipText (ip : Ip) : parseAddr (ipText ip) = some ip := by
  have hlt : ip.toNat < 2 ^ 32 := ip.isLt
  have hall : (ipText ip).all (fun c => isDigit c || c == 46) = true := by
    rw [List.all_eq_true]
    intro b hb
    have hshape := (ipText_shape ip).2.2 b hb
    simpa using hshape
  have hdot : ∀ v : ℕ, v < 256 → ∀ s : CStr, s.head? = some 46 ∨ s = [] →
      scanDotU3 (46 :: (natText v ++ s)) = some (v, s) := fun v hv s hs => scanU3_natText hv hs
  unfold parseAddr
  rw [hall]
  unfold ipText
  have h₀ := scanU3_natText (v := ip.toNat / 2 ^ 24) (by omega) (s := 46 :: (natText (ip.toNat / 2 ^ 16 % 256) ++
    46 :: (natText (ip.toNat / 2 ^ 8 % 256) ++ 46 :: natText (ip.toNat % 256)))) (Or.inl rfl)
  have h₁ := hdot (ip.toNat / 2 ^ 16 % 256) (by omega)
    (46 :: (natText (ip.toNat / 2 ^ 8 % 256) ++ 46 :: natText (ip.toNat % 256))) (Or.inl rfl)
  have h₂ := hdot (ip.toNat / 2 ^ 8 % 256) (by omega) (46 :: natText (ip.toNat % 256)) (Or.inl rfl)
  have h₃ := hdot (ip.toNat % 256) (by omega) [] (Or.inr rfl)
  rw [List.append_nil] at h₃
  simp only [h₀, h₁, h₂, h₃, Bool.not_true, Bool.false_eq_true, if_false, ne_eq, not_true_eq_false]
  rw [if_neg (by omega)]
  refine congrArg some (BitVec.eq_of_toNat_eq ?_)
  rw [BitVec.toNat_ofNat]
  omega

theorem ipText_ne_dash (ip : Ip) : ipText ip ≠ [45] := by
  intro heq
  have hshape := (ipText_shape ip).2.2 45 (by rw [heq]; exact List.mem_singleton_self _)
  exact absurd hshape (by decide)

theorem dashField_ipText (ip : Ip) : dashField (ipText ip) parseAddr = some (some ip) := by
  unfold dashField
  rw [if_neg (ipText_ne_dash ip), parseAddr_ipText]
  rfl

theorem intText_natText {v : ℤ} (h : 0 ≤ v) : intText v = natText v.toNat := by
  unfold intText
  rw [if_neg (by omega)]
  congr 1
  omega

/-! ## What is read of a line -/

variable {n : ℕ}

/-- The seconds since a time, none before it and none when it is not set. -/
def secondsSince (now t : Time) : ℤ := if t ≠ 0 then max 0 (now - t) else 0

def readClient (s : Listing n) (c : ServerClient) : MapEntry where
  host := c.clientId.map toLower
  addr := c.ipBe
  addrText := ipText c.ipBe
  label := c.clientId.map toLower
  name := statusName s.file c.clientId
  live := true
  conf := (findSection s.file c.clientId).isSome
  since := secondsSince s.now c.sessionSince
  last := if c.lastData ≠ 0 then secondsSince s.now c.lastData else -1
  hsAge := secondsSince s.now c.lastHs
  hs := c.handshakes % 2 ^ 32
  rx := c.rxBytes % 2 ^ 64
  tx := c.txBytes % 2 ^ 64
  peer := if c.addr.ip ≠ 0 then ipText c.addr.ip else []
  peerPort := if c.addr.ip ≠ 0 then (configDbPeerPort s.file c.clientId).toNat else 0

def readSection (p : ClientSection) : MapEntry where
  host := p.clientId.map toLower
  addr := p.ipBe.getD 0
  addrText := p.ipBe.elim [] ipText
  label := p.clientId.map toLower
  name := p.name
  live := false
  conf := true
  since := 0
  last := -1
  hsAge := 0
  hs := 0
  rx := 0
  tx := 0
  peer := []
  peerPort := 0

def AgesBelow (s : Listing n) : Prop :=
  ∀ c ∈ s.live, ∀ t ∈ [c.sessionSince, c.lastData, c.lastHs], t ≠ 0 → s.now - t < 2 ^ 31

theorem ageS_eq {now t : ℤ} (h : now - t < 2 ^ 31) : ageS now t = max 0 (now - t) := by
  unfold ageS difftime
  rcases le_or_gt 0 (now - t) with hpos | hneg
  · rw [roundDouble_small (by omega)]
    split <;> omega
  · have hround : roundDouble (now - t) ≤ 0 := by
      unfold roundDouble
      dsimp only
      rw [Int.sign_eq_neg_one_of_neg hneg]
      rw [neg_one_mul]
      exact neg_nonpos.mpr (Int.natCast_nonneg _)
    rw [if_neg (by omega)]
    omega

theorem parseNum_age {v : ℤ} (h : 0 ≤ v ∧ v < 2 ^ 31) :
    parseNum (intText v) 0x7fffffff = some v.toNat := by
  rw [intText_natText h.1]
  exact parseNum_natText (by omega) (by decide)

theorem dashField_age {v : ℤ} (h : 0 ≤ v ∧ v < 2 ^ 31) :
    dashField (intText v) (parseNum · 0x7fffffff) = some (some v.toNat) := by
  rw [intText_natText h.1]
  exact dashField_natText (by omega) (by decide)

/-- What the fields of a live record may be. -/
structure LiveRecord.Ok (r : LiveRecord) : Prop where
  id : r.id.length < CAMEX_CLIENT_ID_LEN ∧ recordIdOk r.id = true
  since : 0 ≤ r.since ∧ r.since < 2 ^ 31
  last : ∀ v, r.last = some v → 0 ≤ v ∧ v < 2 ^ 31
  hsAge : 0 ≤ r.hsAge ∧ r.hsAge < 2 ^ 31
  port : r.port = -1 ∨ 1 ≤ r.port ∧ r.port ≤ 65535
  name : r.name = [] ∨ camexNameValid r.name = true

structure ConfRecord.Ok (r : ConfRecord) : Prop where
  id : r.id.length < CAMEX_CLIENT_ID_LEN ∧ recordIdOk r.id = true
  name : r.name = [] ∨ camexNameValid r.name = true

theorem recordIdOk_byte {id : CStr} (h : recordIdOk id = true) {b : UInt8} (hb : b ∈ id) : 0x20 < b := by
  unfold recordIdOk at h
  have hbyte := List.all_eq_true.mp h b hb
  simp only [Bool.not_eq_true', Bool.or_eq_false_iff, decide_eq_false_iff_not, UInt8.not_le] at hbyte
  exact hbyte.1

theorem name_byte {name : CStr} (h : name = [] ∨ camexNameValid name = true) {b : UInt8} (hb : b ∈ name) :
    0x20 ≤ b := by
  rcases h with rfl | h
  · cases hb
  · exact UInt8.le_iff_toNat_le.mpr (name_bytes h hb).1

def LiveRecord.fields (r : LiveRecord) : List CStr :=
  [r.id, ipText r.ip, natText (if r.conf then 1 else 0), intText r.since,
    match r.last with
      | some v => intText v
      | none => [45],
    intText r.hsAge, natText (r.handshakes % 2 ^ 32), natText (r.rx % 2 ^ 64), natText (r.tx % 2 ^ 64),
    if r.peer ≠ 0 then ipText r.peer else [45], if 0 < r.port then intText r.port else [45]]

theorem LiveRecord.line_eq (r : LiveRecord) :
    r.line = tabbed (ascii "L") (r.fields ++ if r.name = [] then [] else [r.name]) := by
  rw [← tabbed_nameField]
  unfold LiveRecord.line
  refine congrArg (· ++ nameField r.name) ?_
  simp only [LiveRecord.fields, tabbed, tab, List.append_assoc, List.cons_append, List.nil_append]
  rfl

theorem ConfRecord.line_eq (r : ConfRecord) :
    r.line = tabbed (ascii "O") ([r.id, r.ip.elim [45] ipText] ++ if r.name = [] then [] else [r.name]) := by
  rw [← tabbed_nameField]
  unfold ConfRecord.line
  refine congrArg (· ++ nameField r.name) ?_
  simp only [tabbed, tab, List.append_assoc, List.cons_append, List.nil_append]
  rfl

/-- The bytes of a field: no tab, no newline, no NUL. -/
def FieldText (f : CStr) : Prop := ∀ b ∈ f, 0x20 ≤ b

theorem fieldText_digits {f : CStr} (h : ∀ b ∈ f, isDigit b = true ∨ b = 46) : FieldText f := by
  intro b hb
  rcases h b hb with hdigit | rfl
  · unfold isDigit at hdigit
    rw [Bool.and_eq_true, decide_eq_true_eq, decide_eq_true_eq] at hdigit
    exact UInt8.le_trans (by decide : (0x20 : UInt8) ≤ 48) hdigit.1
  · decide

theorem fieldText_natText (v : ℕ) : FieldText (natText v) :=
  fieldText_digits fun b hb => Or.inl (natText_isDigit v b hb)

theorem fieldText_intText (v : ℤ) : FieldText (intText v) := by
  unfold intText
  split
  · exact List.forall_mem_cons.mpr ⟨by decide, fieldText_natText _⟩
  · exact fieldText_natText _

theorem fieldText_ipText (ip : Ip) : FieldText (ipText ip) := fieldText_digits (ipText_shape ip).2.2

theorem fieldText_dash : FieldText [45] := by simp [FieldText]

theorem LiveRecord.Ok.fieldText {r : LiveRecord} (h : r.Ok) : ∀ f ∈ r.fields ++ [r.name], FieldText f := by
  unfold LiveRecord.fields
  simp only [List.cons_append, List.nil_append, List.forall_mem_cons]
  refine ⟨fun b hb => UInt8.le_of_lt (recordIdOk_byte h.id.2 hb), fieldText_ipText _, fieldText_natText _,
    fieldText_intText _, ?_, fieldText_intText _, fieldText_natText _, fieldText_natText _, fieldText_natText _, ?_, ?_,
    fun b hb => name_byte h.name hb, fun f hf => absurd hf List.not_mem_nil⟩
  · split
    · exact fieldText_intText _
    · exact fieldText_dash
  · split
    · exact fieldText_ipText _
    · exact fieldText_dash
  · split
    · exact fieldText_intText _
    · exact fieldText_dash

theorem FieldText.no_tab {f : CStr} (h : FieldText f) : 9 ∉ f := fun hmem => absurd (h 9 hmem) (by decide)

theorem ConfRecord.Ok.fieldText {r : ConfRecord} (h : r.Ok) :
    ∀ f ∈ [r.id, r.ip.elim [45] ipText] ++ [r.name], FieldText f := by
  simp only [List.cons_append, List.nil_append, List.forall_mem_cons]
  refine ⟨fun b hb => UInt8.le_of_lt (recordIdOk_byte h.id.2 hb), ?_, fun b hb => name_byte h.name hb,
    fun f hf => absurd hf List.not_mem_nil⟩
  cases r.ip with
  | none => exact fieldText_dash
  | some ip => exact fieldText_ipText ip

theorem mem_withName {fields : List CStr} {name f : CStr} (hf : f ∈ fields ++ if name = [] then [] else [name]) :
    f ∈ fields ++ [name] := by
  rcases List.mem_append.mp hf with hf | hf
  · exact List.mem_append_left _ hf
  · split at hf
    · cases hf
    · exact List.mem_append_right _ hf

theorem splitTabs_line {r : LiveRecord} (h : r.Ok) :
    splitTabs 12 r.line = ascii "L" :: (r.fields ++ if r.name = [] then [] else [r.name]) := by
  rw [r.line_eq]
  refine splitTabs_tabbed ?_ (by decide) fun f hf => (h.fieldText f (mem_withName hf)).no_tab
  split <;> simp [LiveRecord.fields]

theorem splitTabs_conf {r : ConfRecord} (h : r.Ok) : splitTabs 12 r.line =
    ascii "O" :: ([r.id, r.ip.elim [45] ipText] ++ if r.name = [] then [] else [r.name]) := by
  rw [r.line_eq]
  refine splitTabs_tabbed ?_ (by decide) fun f hf => (h.fieldText f (mem_withName hf)).no_tab
  split <;> simp

def LiveRecord.numbers (r : LiveRecord) : MapEntry :=
  { MapEntry.blank with
    conf := r.conf, since := r.since, last := r.last.getD (-1), hsAge := r.hsAge, hs := r.handshakes % 2 ^ 32,
    rx := r.rx % 2 ^ 64, tx := r.tx % 2 ^ 64 }

/-- With its peer. -/
def LiveRecord.entry (r : LiveRecord) : MapEntry :=
  { r.numbers with
    peer := if r.peer ≠ 0 then ipText r.peer else []
    peerPort := if r.peer ≠ 0 then r.port.toNat else 0 }

theorem indexNumbers_line {r : LiveRecord} (h : r.Ok) (more : List CStr) :
    indexNumbers (ascii "L" :: (r.fields ++ more)) = some r.numbers := by
  have hconf : parseNum (natText (if r.conf then 1 else 0)) 1 = some (if r.conf then 1 else 0) :=
    parseNum_natText (by split <;> decide) (by decide)
  have hs : parseNum (natText (r.handshakes % 2 ^ 32)) 0xffffffff = some (r.handshakes % 2 ^ 32) :=
    parseNum_natText (by omega) (by decide)
  have hrx : parseNum (natText (r.rx % 2 ^ 64)) (2 ^ 64 - 1) = some (r.rx % 2 ^ 64) :=
    parseNum_natText (by omega) (by decide)
  have htx : parseNum (natText (r.tx % 2 ^ 64)) (2 ^ 64 - 1) = some (r.tx % 2 ^ 64) :=
    parseNum_natText (by omega) (by decide)
  have hsince := parseNum_age h.since
  have hage := parseNum_age h.hsAge
  have hnonneg : ∀ v : ℤ, 0 ≤ v → ((v.toNat : ℕ) : ℤ) = v := fun v hv => Int.toNat_of_nonneg hv
  have hflag : ((if r.conf then 1 else 0 : ℕ) != 0) = r.conf := by cases r.conf <;> rfl
  unfold indexNumbers LiveRecord.fields LiveRecord.numbers
  simp only [List.cons_append, List.getD_cons_succ, List.getD_cons_zero, hconf, hs, hrx, htx, hsince, hage]
  cases hlast : r.last with
  | none =>
    simp only [dashField, if_true, hflag, hnonneg _ h.since.1, hnonneg _ h.hsAge.1]
    rfl
  | some v =>
    have hv := h.last v hlast
    simp only [dashField_age hv, hflag, hnonneg _ h.since.1, hnonneg _ h.hsAge.1, Option.elim_some, hnonneg _ hv.1,
      Option.getD_some]

theorem indexPeer_line {r : LiveRecord} (h : r.Ok) (more : List CStr) :
    indexPeer (ascii "L" :: (r.fields ++ more)) r.numbers = some r.entry := by
  have hport : dashField (if 0 < r.port then intText r.port else [45])
      (fun s => (parseNum s 65535).filter (· ≠ 0)) = some (if 0 < r.port then some r.port.toNat else none) := by
    split
    · rename_i hpos
      have hset := h.port
      rw [intText_natText (by omega)]
      unfold dashField
      rw [if_neg (natText_ne_dash _)]
      dsimp only
      rw [parseNum_natText (by omega) (by decide), Option.filter_some, if_pos (by simpa using hpos)]
      rfl
    · rfl
  have hnone : (if 0 < r.port then some r.port.toNat else none).getD 0 = r.port.toNat := by
    split
    · rfl
    · exact (Int.toNat_of_nonpos (by omega)).symm
  have hpeer : dashField (if r.peer ≠ 0 then ipText r.peer else [45]) parseAddr =
      some (if r.peer ≠ 0 then some r.peer else none) := by
    split
    · exact dashField_ipText _
    · rfl
  unfold indexPeer LiveRecord.fields LiveRecord.entry
  simp only [List.cons_append, List.getD_cons_succ, List.getD_cons_zero, hport, hpeer]
  by_cases hp : r.peer ≠ 0
  · simp only [if_pos hp, hnone]
  · simp only [if_neg hp]
    rfl

theorem indexFields_live {r : LiveRecord} (h : r.Ok) :
    indexFields r.line = some ⟨r.id, some r.ip, r.entry, r.name⟩ := by
  have hid : r.id.length < 64 := lt_trans h.id.1 (by decide)
  have hsplit := splitTabs_line h
  have hname : (ascii "L" :: (r.fields ++ if r.name = [] then [] else [r.name])).getD 12 [] = r.name := by
    split
    · rename_i hnil
      exact hnil.symm
    · rfl
  have hlen : 12 ≤ (ascii "L" :: (r.fields ++ if r.name = [] then [] else [r.name])).length ∧
      (ascii "L" :: (r.fields ++ if r.name = [] then [] else [r.name])).length ≤ 13 := by
    split <;> simp [LiveRecord.fields]
  unfold indexFields
  rw [hsplit]
  generalize (if r.name = [] then [] else [r.name]) = more at hname hlen
  have hlive : (ascii "L" :: (r.fields ++ more)).getD 0 [] = [76] := rfl
  have hsecond : (ascii "L" :: (r.fields ++ more)).getD 1 [] = r.id := rfl
  have hthird : (ascii "L" :: (r.fields ++ more)).getD 2 [] = ipText r.ip := rfl
  dsimp only
  rw [hlive, hsecond, hthird, hname, parseAddr_ipText, indexNumbers_line h, if_neg, if_pos (by decide)]
  · dsimp only
    rw [if_pos hlen.1, indexPeer_line h]
    rfl
  · generalize (ascii "L" :: (r.fields ++ more)).length = k at hlen ⊢
    simp
    omega

theorem indexFields_conf {r : ConfRecord} (h : r.Ok) : indexFields r.line =
    some ⟨r.id, r.ip, { MapEntry.blank with live := false, conf := true }, r.name⟩ := by
  have hid : r.id.length < 64 := lt_trans h.id.1 (by decide)
  have haddr : dashField (r.ip.elim [45] ipText) parseAddr = some r.ip := by
    cases r.ip with
    | none => rfl
    | some ip => exact dashField_ipText ip
  have hname : (ascii "O" :: ([r.id, r.ip.elim [45] ipText] ++ if r.name = [] then [] else [r.name])).getD 3 [] =
      r.name := by
    split
    · rename_i hnil
      exact hnil.symm
    · rfl
  have hlen : 3 ≤ (ascii "O" :: ([r.id, r.ip.elim [45] ipText] ++ if r.name = [] then [] else [r.name])).length ∧
      (ascii "O" :: ([r.id, r.ip.elim [45] ipText] ++ if r.name = [] then [] else [r.name])).length ≤ 4 := by
    split <;> simp
  unfold indexFields
  rw [splitTabs_conf h]
  generalize (if r.name = [] then [] else [r.name]) = more at hname hlen
  have hlive : (ascii "O" :: ([r.id, r.ip.elim [45] ipText] ++ more)).getD 0 [] = [79] := rfl
  have hsecond : (ascii "O" :: ([r.id, r.ip.elim [45] ipText] ++ more)).getD 1 [] = r.id := rfl
  have hthird : (ascii "O" :: ([r.id, r.ip.elim [45] ipText] ++ more)).getD 2 [] = r.ip.elim [45] ipText := rfl
  dsimp only
  rw [hlive, hsecond, hthird, hname, haddr, if_neg, if_neg (by decide)]
  · rfl
  · generalize (ascii "O" :: ([r.id, r.ip.elim [45] ipText] ++ more)).length = k at hlen ⊢
    simp
    omega

/-- What both kinds of records make of their ID and name. -/
theorem recordEntry_index {r : RecordFields} (hname : r.name = [] ∨ camexNameValid r.name = true) :
    recordEntry [] r = if validLabel (r.id.map toLower) then
      some { r.entry with label := r.id.map toLower, host := r.id.map toLower, addr := r.addr.getD 0,
                          addrText := r.addr.elim [] ipText, name := r.name } else none := by
  have hkept : (if camexNameValid r.name then r.name else []) = r.name := by
    rcases hname with hnil | hvalid
    · rw [hnil]
      rfl
    · rw [if_pos hvalid]
  unfold recordEntry hostOf
  dsimp only
  rw [hkept]
  cases validLabel (r.id.map toLower) <;> rfl

theorem name_length {name : CStr} (h : name = [] ∨ camexNameValid name = true) : (nameField name).length ≤ 65 := by
  unfold nameField
  rcases h with rfl | h
  · decide
  · unfold camexNameValid at h
    rw [Bool.and_eq_true, decide_eq_true_eq] at h
    rw [if_neg h.1.1, List.length_append]
    exact Nat.add_le_add (le_refl 1) h.1.2

theorem ageText_length {v : ℤ} (h : 0 ≤ v ∧ v < 2 ^ 31) : (intText v).length ≤ 10 := by
  rw [intText_natText h.1]
  exact natText_length (by decide) (by omega)

/-- A live line fits the reader's buffer. -/
theorem LiveRecord.Ok.length {r : LiveRecord} (h : r.Ok) : r.line.length < 512 := by
  have hid : r.id.length < 32 := h.id.1
  have hip := (ipText_shape r.ip).1
  have hconf : (natText (if r.conf then 1 else 0)).length ≤ 1 :=
    natText_length (by decide) (by split <;> decide)
  have hsince := ageText_length h.since
  have hage := ageText_length h.hsAge
  have hs : (natText (r.handshakes % 2 ^ 32)).length ≤ 20 := natText_length (by decide) (by omega)
  have hrx : (natText (r.rx % 2 ^ 64)).length ≤ 20 := natText_length (by decide) (by omega)
  have htx : (natText (r.tx % 2 ^ 64)).length ≤ 20 := natText_length (by decide) (by omega)
  have hname := name_length h.name
  have hpeer : (if r.peer ≠ 0 then ipText r.peer else [45]).length ≤ 15 := by
    split
    · exact (ipText_shape _).1
    · decide
  have hport : (if 0 < r.port then intText r.port else [45]).length ≤ 10 := by
    have hset := h.port
    split
    · exact ageText_length (by omega)
    · decide
  have hhead : (ascii "L\t").length = 2 := by decide
  unfold LiveRecord.line tab
  cases hl : r.last with
  | none =>
    simp only [List.length_append, List.length_singleton, hhead]
    omega
  | some v =>
    have hlast := ageText_length (h.last v hl)
    simp only [List.length_append, List.length_singleton, hhead]
    omega

theorem ConfRecord.Ok.length {r : ConfRecord} (h : r.Ok) : r.line.length < 512 := by
  have hid : r.id.length < 32 := h.id.1
  have hname := name_length h.name
  have hip : (r.ip.elim [45] ipText).length ≤ 15 := by
    cases r.ip with
    | none => decide
    | some ip => exact (ipText_shape ip).1
  have hhead : (ascii "O\t").length = 2 := by decide
  unfold ConfRecord.line tab
  simp only [List.length_append, List.length_singleton, hhead]
  omega

/-- **A live line is read**, when its ID is a label. -/
theorem parseRecord_live {r : LiveRecord} (h : r.Ok) : parseRecord [] true r.line =
    if validLabel (r.id.map toLower) then
      some { r.entry with label := r.id.map toLower, host := r.id.map toLower, addr := r.ip, addrText := ipText r.ip,
                          name := r.name } else none := by
  have hsome : r.line ≠ [] := r.line_eq ▸ tabbed_ne_nil (by decide)
  unfold parseRecord
  rw [if_neg (not_or.mpr ⟨hsome, not_le.mpr h.length⟩), if_pos rfl, indexFields_live h, Option.bind_some,
    recordEntry_index h.name]
  rfl

theorem parseRecord_conf {r : ConfRecord} (h : r.Ok) : parseRecord [] true r.line =
    if validLabel (r.id.map toLower) then
      some { MapEntry.blank with
        live := false, conf := true, label := r.id.map toLower, host := r.id.map toLower, addr := r.ip.getD 0,
        addrText := r.ip.elim [] ipText, name := r.name } else none := by
  have hsome : r.line ≠ [] := r.line_eq ▸ tabbed_ne_nil (by decide)
  unfold parseRecord
  rw [if_neg (not_or.mpr ⟨hsome, not_le.mpr h.length⟩), if_pos rfl, indexFields_conf h, Option.bind_some,
    recordEntry_index h.name]

/-! ## The text -/

theorem mem_tabbed {f : CStr} {gs : List CStr} {b : UInt8} (h : b ∈ tabbed f gs) :
    b = 9 ∨ ∃ g ∈ f :: gs, b ∈ g := by
  induction gs generalizing f with
  | nil => exact Or.inr ⟨f, List.mem_singleton_self f, h⟩
  | cons g gs ih =>
    rcases List.mem_append.mp h with h | h
    · exact Or.inr ⟨f, List.mem_cons_self .., h⟩
    · rcases List.mem_cons.mp h with rfl | h
      · exact Or.inl rfl
      · exact (ih h).imp_right fun ⟨x, hx, hb⟩ => ⟨x, List.mem_cons_of_mem _ hx, hb⟩

def LineText (l : CStr) : Prop := ∀ b ∈ l, b ≠ 0 ∧ b ≠ 10

theorem lineText_tabbed {f : CStr} {gs : List CStr} (hf : FieldText f) (hgs : ∀ g ∈ gs, FieldText g) :
    LineText (tabbed f gs) := by
  intro b hb
  rcases mem_tabbed hb with rfl | ⟨g, hg, hb⟩
  · decide
  · have hbyte := List.forall_mem_cons.mpr ⟨hf, hgs⟩ g hg b hb
    constructor <;> rintro rfl <;> exact absurd hbyte (by decide)

theorem LiveRecord.Ok.lineText {r : LiveRecord} (h : r.Ok) : LineText r.line := by
  rw [r.line_eq]
  exact lineText_tabbed (by simp [FieldText, ascii]) fun g hg => h.fieldText g (mem_withName hg)

theorem ConfRecord.Ok.lineText {r : ConfRecord} (h : r.Ok) : LineText r.line := by
  rw [r.line_eq]
  exact lineText_tabbed (by simp [FieldText, ascii]) fun g hg => h.fieldText g (mem_withName hg)

theorem textLines_flatMap {ls : List CStr} (h : ∀ l ∈ ls, LineText l) :
    textLines (ls.flatMap fun l => l ++ [10]) = ls ++ [[]] := by
  have hnul : untilNul (ls.flatMap fun l => l ++ [10]) = ls.flatMap fun l => l ++ [10] := by
    unfold untilNul
    rw [List.takeWhile_eq_self_iff]
    intro b hb
    obtain ⟨l, hl, hb⟩ := List.mem_flatMap.mp hb
    rcases List.mem_append.mp hb with hb | hb
    · simpa using (h l hl b hb).1
    · rw [List.mem_singleton.mp hb]
      decide
  unfold textLines
  rw [hnul]
  clear hnul
  induction ls with
  | nil => rfl
  | cons l ls ih =>
    obtain ⟨hl, hls⟩ := List.forall_mem_cons.mp h
    rw [List.flatMap_cons, List.append_assoc, List.singleton_append,
      List.splitOnP_append_cons_of_forall_mem (fun b hb => by simpa using (hl b hb).2) 10 rfl, ih hls]
    rfl

/-! ## A state -/

theorem ageS_bound {now t : ℤ} (h : now - t < 2 ^ 31) : 0 ≤ ageS now t ∧ ageS now t < 2 ^ 31 := by
  rw [ageS_eq h]
  omega

theorem statusName_valid {file : Loading (List ClientSection)} (h : FileTexts file) (clientId : CStr) :
    statusName file clientId = [] ∨ camexNameValid (statusName file clientId) = true := by
  unfold statusName
  cases hfind : findSection file clientId with
  | none => exact Or.inl rfl
  | some p => exact h.names p (findSection_some hfind)

theorem liveRecord_ok {s : Listing n} (h : CanHold s) (hages : AgesBelow s) {c : ServerClient} (hc : c ∈ s.live)
    (hid : recordIdOk c.clientId = true) : (liveRecord s c).Ok := by
  have hage := hages c hc
  simp only [List.forall_mem_cons] at hage
  obtain ⟨hsince, hdata, hhs, -⟩ := hage
  refine ⟨⟨?_, hid⟩, ?_, ?_, ?_, configDbPeerPort_set h.texts _, statusName_valid h.texts _⟩
  · obtain ⟨⟨i, rfl⟩, -⟩ := mem_live.mp hc
    exact (h.ids i).1
  · unfold liveRecord
    dsimp only
    split
    · exact ageS_bound (hsince ‹_›)
    · decide
  · intro v hv
    unfold liveRecord at hv
    dsimp only at hv
    split at hv
    · cases hv
      exact ageS_bound (hdata ‹_›)
    · cases hv
  · unfold liveRecord
    dsimp only
    split
    · exact ageS_bound (hhs ‹_›)
    · decide

theorem readClient_eq {s : Listing n} (hages : AgesBelow s) {c : ServerClient} (hc : c ∈ s.live) :
    { (liveRecord s c).entry with
      label := c.clientId.map toLower, host := c.clientId.map toLower, addr := c.ipBe, addrText := ipText c.ipBe,
      name := statusName s.file c.clientId } = readClient s c := by
  have hage := hages c hc
  simp only [List.forall_mem_cons] at hage
  obtain ⟨hsince, hdata, hhs, -⟩ := hage
  have hseconds : ∀ t : ℤ, (t ≠ 0 → s.now - t < 2 ^ 31) →
      (if t ≠ 0 then ageS s.now t else 0) = secondsSince s.now t := by
    intro t ht
    unfold secondsSince
    split
    · exact ageS_eq (ht ‹_›)
    · rfl
  have hlast : (if c.lastData ≠ 0 then some (ageS s.now c.lastData) else none).getD (-1) =
      if c.lastData ≠ 0 then secondsSince s.now c.lastData else -1 := by
    rw [← hseconds _ hdata]
    split <;> rfl
  unfold readClient LiveRecord.entry LiveRecord.numbers liveRecord
  simp only [hseconds _ hsince, hseconds _ hhs, hlast]
  rfl

theorem confRecord_ok {s : Listing n} (h : CanHold s) {p : ClientSection} (hp : p ∈ s.sections)
    (hid : recordIdOk p.clientId = true) : (confRecord p).Ok := by
  obtain ⟨hmem, -, -⟩ := mem_sections.mp hp
  exact ⟨⟨(h.texts.ids p hmem).2.1, hid⟩, h.texts.names p hmem⟩

theorem recordIdOk_congr {a b : CStr} (h : strcaseeq a b = true) : recordIdOk a = recordIdOk b := by
  have hlower : ∀ c : UInt8, (!(toLower c ≤ 0x20 || toLower c == 0x7f)) = !(c ≤ 0x20 || c == 0x7f) :=
    forall_byte (by decide +kernel)
  have hmap : ∀ id : CStr, recordIdOk (id.map toLower) = recordIdOk id := by
    intro id
    unfold recordIdOk
    rw [List.all_map]
    exact congrArg id.all (funext hlower)
  rw [← hmap a, ← hmap b, strcaseeq_iff.mp h]

/-- The lines of the text: one for each listed client with a plain ID, in the order of the slots, and one for each
section with a plain ID that is not connected. -/
theorem textLines_index {s : Listing n} (h : CanHold s) (hages : AgesBelow s) :
    textLines (serverClientsIndex s) =
      (s.live.filter fun c => recordIdOk c.clientId).map (fun c => (liveRecord s c).line) ++
        (s.sections.filter fun p => recordIdOk p.clientId && !connected s p).map (fun p => (confRecord p).line) ++
        [[]] := by
  have htext : serverClientsIndex s =
      ((s.live.filter fun c => recordIdOk c.clientId).map (fun c => (liveRecord s c).line) ++
        (s.sections.filter fun p => recordIdOk p.clientId && !connected s p).map
          fun p => (confRecord p).line).flatMap fun l => l ++ [10] := by
    unfold serverClientsIndex Listing.liveRecords Listing.confRecords Listing.sections
    rw [List.flatMap_append, List.flatMap_map, List.flatMap_map, List.flatMap_map, List.flatMap_map, List.filter_filter]
    refine congrArg (_ ++ ·) (congrArg _ (List.filter_congr fun p _ => ?_))
    rw [Bool.and_comm (recordIdOk p.clientId && _), ← Bool.and_assoc]
  rw [htext, textLines_flatMap]
  intro l hl
  rcases List.mem_append.mp hl with hl | hl
  · obtain ⟨c, hc, rfl⟩ := List.mem_map.mp hl
    obtain ⟨hc, hid⟩ := List.mem_filter.mp hc
    exact (liveRecord_ok h hages hc hid).lineText
  · obtain ⟨p, hp, rfl⟩ := List.mem_map.mp hl
    obtain ⟨hp, hid⟩ := List.mem_filter.mp hp
    exact (confRecord_ok h hp (Bool.and_eq_true_iff.mp hid).1).lineText

/-- No entry hides a listed client from its section: where there is a listed client with the ID, an entry with the ID
that is not listed itself has a listed one before it. -/
def Unhidden (s : Listing n) : Prop :=
  ∀ p ∈ s.sections, recordIdOk p.clientId = true → ∀ i j,
    matchId (s.clients i) p.clientId = true → listed (s.clients i) = false →
    matchId (s.clients j) p.clientId = true → listed (s.clients j) = true →
      ∃ k < i, matchId (s.clients k) p.clientId = true ∧ listed (s.clients k) = true

def ofLive (s : Listing n) (p : ClientSection) : Bool := s.live.any fun c => strcaseeq c.clientId p.clientId

/-- Then, and only then, is a section connected whenever it is a listed client's. -/
theorem unhidden_iff {s : Listing n} : Unhidden s ↔
    ∀ p ∈ s.sections, recordIdOk p.clientId = true → ofLive s p = true → connected s p = true := by
  have hid : ∀ p ∈ s.sections, p.clientId ≠ [] := fun p hp => (mem_sections.mp hp).2.2
  constructor
  · intro h p hp hok hlive
    obtain ⟨j, hj, hmatchj⟩ := live_matchId.mp hlive
    obtain ⟨i, hi⟩ := lowest_isSome (p := fun i => matchId (s.clients i) p.clientId) hmatchj
    obtain ⟨hmatch, hbelow⟩ := lowest_eq_some.mp hi
    refine (connected_iff (hid p hp)).mpr ⟨i, ?_, hmatch, hbelow⟩
    -- the first entry with the ID has none before it
    by_contra hlisted
    obtain ⟨k, hk, hmatchk, -⟩ := h p hp hok i j hmatch (Bool.eq_false_iff.mpr hlisted) hmatchj hj
    rw [hbelow k hk] at hmatchk
    cases hmatchk
  · intro h p hp hok i j hi hno hj hlisted
    obtain ⟨k, hk, hmatchk, hbelow⟩ :=
      (connected_iff (hid p hp)).mp (h p hp hok (live_matchId.mpr ⟨j, hlisted, hj⟩))
    have hle : k ≤ i := by
      by_contra hlt
      rw [hbelow i (not_le.mp hlt)] at hi
      cases hi
    refine ⟨k, hle.lt_of_ne fun heq => ?_, hmatchk, hk⟩
    rw [heq, hno] at hk
    cases hk

/-- The lines that the text is to have: one for each listed client with a plain ID, in the order of the slots, and one
for each other section with a plain ID. -/
def indexLines (s : Listing n) : List CStr :=
  (s.live.filter fun c => recordIdOk c.clientId).map (fun c => (liveRecord s c).line) ++
    (s.sections.filter fun p => recordIdOk p.clientId && !ofLive s p).map (fun p => (confRecord p).line) ++ [[]]

/-- **The text has these lines exactly in the states that hide no listed client.** -/
theorem textLines_index_iff {s : Listing n} (h : CanHold s) (hages : AgesBelow s) :
    textLines (serverClientsIndex s) = indexLines s ↔ Unhidden s := by
  rw [textLines_index h hages, unhidden_iff]
  unfold indexLines
  rw [List.append_cancel_right_eq, List.append_cancel_left_eq]
  constructor
  · intro hlines p hp hok hlive
    have hlen := congrArg List.length hlines
    rw [List.length_map, List.length_map] at hlen
    have hsame := filter_same (fun q hq hother => ?_) hlen.symm p hp
    · rw [hok, hlive] at hsame
      by_contra hconn
      rw [Bool.eq_false_iff.mpr hconn] at hsame
      exact absurd (hsame rfl) (by decide)
    · rw [Bool.and_eq_true_iff, Bool.not_eq_true'] at hother ⊢
      refine ⟨hother.1, Bool.eq_false_iff.mpr fun hconn => ?_⟩
      exact absurd (List.any_eq_true.mpr (connected_live hconn)) (Bool.eq_false_iff.mp hother.2)
  · intro hconn
    refine congrArg _ (List.filter_congr fun p hp => ?_)
    cases hok : recordIdOk p.clientId with
    | false => rfl
    | true =>
      rw [Bool.eq_iff_iff.mpr ⟨fun hc => List.any_eq_true.mpr (connected_live hc), hconn p hp hok⟩]
      rfl

/-- **The writer and the reader agree.** The lines are those of the listed clients and of the sections that are not
connected, each once; each is read, when its ID is a label, as what the client or the section has; and a section
without a line belongs to a client with one. In the states that hide no listed client, and in no other, the sections
with a line are those of no listed client. -/
theorem index_round_trip {s : Listing n} (h : CanHold s) (hages : AgesBelow s) :
    textLines (serverClientsIndex s) =
        (s.live.filter fun c => recordIdOk c.clientId).map (fun c => (liveRecord s c).line) ++
          (s.sections.filter fun p => recordIdOk p.clientId && !connected s p).map (fun p => (confRecord p).line) ++
          [[]] ∧
      (∀ c ∈ s.live, recordIdOk c.clientId = true → parseRecord [] true (liveRecord s c).line =
        if validLabel (c.clientId.map toLower) then some (readClient s c) else none) ∧
      (∀ p ∈ s.sections, recordIdOk p.clientId = true → parseRecord [] true (confRecord p).line =
        if validLabel (p.clientId.map toLower) then some (readSection p) else none) ∧
      (∀ p ∈ s.sections, recordIdOk p.clientId = true → connected s p = true →
        ∃ c ∈ s.live, recordIdOk c.clientId = true ∧ strcaseeq c.clientId p.clientId = true) ∧
      (textLines (serverClientsIndex s) = indexLines s ↔ Unhidden s) := by
  refine ⟨textLines_index h hages, fun c hc hid => ?_, fun p hp hid => ?_, fun p _ hid hconn => ?_,
    textLines_index_iff h hages⟩
  · rw [parseRecord_live (liveRecord_ok h hages hc hid), ← readClient_eq hages hc]
    rfl
  · rw [parseRecord_conf (confRecord_ok h hp hid)]
    rfl
  · obtain ⟨c, hc, hsame⟩ := connected_live hconn
    exact ⟨c, hc, (recordIdOk_congr hsame).trans hid, hsame⟩

def listedCam : ServerClient :=
  { ServerClient.wiped with
    clientId := ascii "Cam", ipBe := 0x0a000002, active := true, registered := true, sessionSince := 60,
    lastData := 90, lastHs := 70, handshakes := 2, rxBytes := 5, txBytes := 18446744073709551615 }

def camSections : CStr := ascii "[client cam]\nname=Front\n[client b]\nlocal_cidr=10.0.0.3/24\n"

/-- The listed client in a slot, in the other one an entry with its ID that did not register. -/
def listedIn (i : Fin 2) : Listing 2 :=
  ⟨fun j => { listedCam with registered := j = i }, (Listing.ofFile camSections).file, 100⟩

theorem canHold_listedIn (i : Fin 2) : CanHold (listedIn i) where
  file := (canHold_ofFile (by decide +kernel)).file
  ids := fun _ => show listedCam.clientId.length < CAMEX_CLIENT_ID_LEN ∧ ∀ b ∈ listedCam.clientId, b ≠ 0 by
    decide +kernel

theorem agesBelow_listedIn (i : Fin 2) : AgesBelow (listedIn i) := by
  intro c hc t ht hset
  obtain ⟨⟨j, rfl⟩, -⟩ := mem_live.mp hc
  simp only [listedIn, listedCam, List.mem_cons, List.not_mem_nil, or_false] at ht ⊢
  rcases ht with rfl | rfl | rfl <;> decide

/-- The line `L Cam 10.0.0.2 1 40 10 30 2 5 18446744073709551615 - 8080 Front` is read, the section of the client has
none, and the other one has the line `O b 10.0.0.3`. -/
theorem index_round_trip_one :
    textLines (serverClientsIndex (listedIn 0)) =
        [(liveRecord (listedIn 0) ((listedIn 0).clients 0)).line, ascii "O\tb\t10.0.0.3", []] ∧
      parseRecord [] true (liveRecord (listedIn 0) ((listedIn 0).clients 0)).line =
        some (readClient (listedIn 0) ((listedIn 0).clients 0)) := by
  obtain ⟨-, hlive, -, -, hlines⟩ := index_round_trip (canHold_listedIn 0) (agesBelow_listedIn 0)
  have hunhidden : Unhidden (listedIn 0) := by
    unfold Unhidden
    decide +kernel
  refine ⟨(hlines.mpr hunhidden).trans ?_, hlive _ (mem_live.mpr ⟨⟨0, rfl⟩, rfl⟩) (by decide +kernel)⟩
  decide +kernel

/-- A section whose ID has a blank. -/
def blankSection : CStr := ascii "[client a b]\n"

/-- **Not every port is read, nor does a section have a line just when it is no listed client's**: without a peer the
port of the line is dropped; an ID with a blank is left out; and behind an entry that did not register a listed client's
section has a line too. -/
theorem not_index_round_trip :
    (¬ ∀ (n : ℕ) (s : Listing n), CanHold s → AgesBelow s → ∀ c ∈ s.live, validLabel (c.clientId.map toLower) = true →
      (parseRecord [] true (liveRecord s c).line).map (fun e => (e.peerPort : ℤ)) =
        some (max 0 (configDbPeerPort s.file c.clientId))) ∧
    (¬ ∀ (n : ℕ) (s : Listing n), CanHold s → AgesBelow s → ∀ p ∈ s.sections,
      (∀ c ∈ s.live, strcaseeq c.clientId p.clientId = false) →
        (confRecord p).line ∈ textLines (serverClientsIndex s)) ∧
    ¬ ∀ (n : ℕ) (s : Listing n), CanHold s → AgesBelow s → ∀ p ∈ s.sections, ofLive s p = true →
      (confRecord p).line ∉ textLines (serverClientsIndex s) := by
  refine ⟨fun hports => ?_, fun hsections => ?_, fun hhidden => ?_⟩
  · have hread := hports 2 _ (canHold_listedIn 0) (agesBelow_listedIn 0) _ (mem_live.mpr ⟨⟨0, rfl⟩, rfl⟩)
      (by decide +kernel)
    exact absurd hread (by decide +kernel)
  · have hages : AgesBelow (.ofFile blankSection) := fun c hc => by
      obtain ⟨⟨i, rfl⟩, hlisted⟩ := mem_live.mp hc
      cases hlisted
    have hline := hsections 1 (.ofFile blankSection) (canHold_ofFile (by decide +kernel)) hages
    exact absurd hline (by decide +kernel)
  · have hline := hhidden 2 _ (canHold_listedIn 1) (agesBelow_listedIn 1)
    exact absurd hline (by decide +kernel)

end Camex
