import Camex.Lib.Json
import Camex.Safety.LeaseTable
import Camex.Safety.ListedTexts
import Camex.Server.Status

/-!
# The status document is JSON

`statusDoc` is the value that `server_status(1)` prints: an object with an object for each registered client and one for
each lease.

* `prints_sbJsonStr`, `prints_sbJsonName`: the two escapers;
* `prints_statusClient`, `prints_statusLease`: the objects, `statusLeases_eq`: the loop that stops early misses no lease;
* `statusJson_right`: the document in every state that the server reaches.
-/

namespace Camex

open Lib

/-! ## Strings and numbers -/

/-- A string that is the text of plain bytes or of an ID. -/
def textDoc (s : CStr) : Json := .string (latin1 s)

def numberDoc (text : CStr) : Json := .number (latin1 text)

theorem latin1_append (a b : CStr) : latin1 (a ++ b) = latin1 a ++ latin1 b := List.map_append

theorem hexFour_unit : ∀ b : UInt8, Json.hexUnit (latin1 (hexFour b.toNat)) = some (UInt16.ofNat b.toNat, []) :=
  forall_byte (by decide +kernel)

theorem sbJsonByte_ascii (b : UInt8) : ∀ a ∈ sbJsonByte b, a < 0x80 := by
  have hall : ∀ b : UInt8, (sbJsonByte b).all (fun a => decide (a < 0x80)) = true := forall_byte (by decide +kernel)
  simpa only [List.all_eq_true, decide_eq_true_eq] using hall b

/-- **Any byte of an ID is the character of the same value.** -/
theorem charText_sbJsonByte (b : UInt8) : Json.CharText (Char.ofNat b.toNat) (latin1 (sbJsonByte b)) := by
  unfold sbJsonByte
  split
  · rename_i hb
    rcases hb with rfl | rfl
    · exact .escape (e := '\"') (by decide)
    · exact .escape (e := '\\') (by decide)
  · rename_i hb
    split
    · have hunit : (UInt16.ofNat b.toNat).toNat = b.toNat := UInt16.toNat_ofNat_of_lt' (b.toNat_lt.trans (by decide))
      have htext := Json.CharText.unit (hexFour_unit b) (by
        rw [Bool.eq_false_iff, Ne, isSurrogate_iff, hunit]
        have := b.toNat_lt
        omega)
      rwa [hunit] at htext
    · rename_i hrange
      rw [not_or] at hb hrange
      refine .of_isPlain ?_
      simp only [Json.isPlain, Bool.and_eq_true, decide_eq_true_eq, bne_iff_ne]
      exact ⟨⟨⟨UInt8.not_lt.mp hrange.1, UInt8.not_le.mp hrange.2⟩, hb.1⟩, hb.2⟩

theorem prints_sbJsonStr (s : CStr) : Json.Prints (textDoc s) (sbJsonStr s) := by
  have hchars : Json.CharsText (latin1 s) (latin1 (s.flatMap sbJsonByte)) := by
    induction s with
    | nil => exact .nil
    | cons b s ih =>
      rw [List.flatMap_cons, latin1_append]
      exact .cons (charText_sbJsonByte b) ih
  have hstring := Json.Prints.string hchars
  rwa [utf8_latin1 fun a ha => by
    obtain ⟨b, -, hb⟩ := List.mem_flatMap.mp ha
    exact sbJsonByte_ascii b a hb] at hstring

def nameChar (c : Char) : List Char := if c = '\"' ∨ c = '\\' then ['\\', c] else [c]

theorem charText_nameChar {c : Char} (hc : NameChar c) : Json.CharText c (nameChar c) := by
  unfold nameChar
  split
  · rename_i he
    rcases he with rfl | rfl
    · exact .escape (by decide)
    · exact .escape (by decide)
  · rename_i he
    rw [not_or] at he
    exact .plain hc.1 he.1 he.2

theorem escape_other : ∀ b : UInt8, 0x80 ≤ b.toNat → (if b = 34 ∨ b = 92 then [92, b] else [b]) = [b] :=
  forall_byte (by decide +kernel)

theorem utf8EncodeChar_escaped (c : Char) :
    (String.utf8EncodeChar c).flatMap (fun b => if b = 34 ∨ b = 92 then [92, b] else [b]) = utf8 (nameChar c) := by
  obtain ⟨b, bs, hbytes, -, htail, hfirst⟩ := utf8EncodeChar_shape c
  rcases hfirst with ⟨-, rfl, hb, hc⟩ | ⟨-, hlead, -, hc⟩
  · have hchar : c = Char.ofNat b.toNat := by rw [hb, Char.ofNat_toNat]
    rw [hbytes, List.flatMap_singleton, hchar]
    have hall : ∀ b : UInt8, b.toNat < 0x80 →
        (if b = 34 ∨ b = 92 then [92, b] else [b]) = utf8 (nameChar (Char.ofNat b.toNat)) :=
      forall_byte (by decide +kernel)
    exact hall b (by omega)
  · have hfirst : 0x80 ≤ b.toNat := by
      by_contra hlow
      rw [((leadingOnes_range b).1 (by omega)).1] at hlead
      omega
    have hbs : ∀ x ∈ b :: bs, 0x80 ≤ x.toNat := by
      refine List.forall_mem_cons.mpr ⟨hfirst, fun x hx => ?_⟩
      have hcont := htail x hx
      unfold isContinuation at hcont
      rw [Bool.and_eq_true, decide_eq_true_eq, UInt8.le_iff_toNat_le] at hcont
      exact hcont.1
    have hplain : nameChar c = [c] := by
      refine if_neg ?_
      rintro (rfl | rfl)
      · exact absurd hc (by decide)
      · exact absurd hc (by decide)
    rw [hplain, utf8_cons, hbytes]
    have hsame : ∀ l : CStr, (∀ x ∈ l, 0x80 ≤ x.toNat) →
        l.flatMap (fun b => if b = 34 ∨ b = 92 then [92, b] else [b]) = l := by
      intro l hl
      induction l with
      | nil => rfl
      | cons x l ih =>
        obtain ⟨hx, hl⟩ := List.forall_mem_cons.mp hl
        rw [List.flatMap_cons, ih hl, escape_other x hx]
        rfl
    rw [hsame _ hbs]
    exact (List.append_nil _).symm

theorem prints_sbJsonName {cs : List Char} (hcs : ∀ c ∈ cs, NameChar c) :
    Json.Prints (.string cs) (sbJsonName (utf8 cs)) := by
  have hchars : Json.CharsText cs (cs.flatMap nameChar) ∧
      utf8 (cs.flatMap nameChar) = (utf8 cs).flatMap fun b => if b = 34 ∨ b = 92 then [92, b] else [b] := by
    induction cs with
    | nil => exact ⟨.nil, rfl⟩
    | cons c cs ih =>
      obtain ⟨hc, hmore⟩ := List.forall_mem_cons.mp hcs
      obtain ⟨htext, hbytes⟩ := ih hmore
      rw [List.flatMap_cons, utf8_append, utf8_cons, List.flatMap_append, hbytes, utf8EncodeChar_escaped]
      exact ⟨.cons (charText_nameChar hc) htext, rfl⟩
  have hstring := Json.Prints.string hchars.1
  rwa [hchars.2] at hstring

theorem foldlM_natText (n : ℕ) {q : Json.NumberState} (hq : q = .start ∨ q = .minus) :
    (latin1 (natText n)).foldlM Json.numberStep q = some (if n = 0 then .zero else .int) := by
  induction n using Nat.strong_induction_on with
  | _ n ih =>
    rw [natText_eq]
    split
    · rcases hq with rfl | rfl <;> interval_cases n <;> rfl
    · rename_i hn
      have hnext : ∀ d, d < 10 → (latin1 [digit d]).foldlM Json.numberStep .int = some .int := by
        intro d hd
        interval_cases d <;> rfl
      rw [latin1_append, List.foldlM_append, ih (n / 10) (by omega), if_neg (by omega), if_neg (by omega)]
      exact hnext _ (by omega)

theorem natText_ascii (n : ℕ) : ∀ b ∈ natText n, b < 0x80 := by
  intro b hb
  have hdigit := natText_isDigit n b hb
  unfold isDigit at hdigit
  simp only [Bool.and_eq_true, decide_eq_true_eq] at hdigit
  exact UInt8.lt_of_le_of_lt hdigit.2 (by decide)

theorem prints_number {text : CStr} (h : Json.isNumber (latin1 text) = true) (hascii : ∀ b ∈ text, b < 0x80) :
    Json.Prints (numberDoc text) text :=
  ⟨_, (utf8_latin1 hascii).symm, .number h⟩

theorem isNumber_natText (n : ℕ) : Json.isNumber (latin1 (natText n)) = true := by
  unfold Json.isNumber
  rw [foldlM_natText n (Or.inl rfl)]
  split <;> rfl

theorem prints_natText (n : ℕ) : Json.Prints (numberDoc (natText n)) (natText n) :=
  prints_number (isNumber_natText n) (natText_ascii n)

theorem prints_intText (v : ℤ) : Json.Prints (numberDoc (intText v)) (intText v) := by
  unfold intText
  split
  · refine prints_number ?_ (List.forall_mem_cons.mpr ⟨by decide, natText_ascii _⟩)
    change ((Json.numberStep .start '-').bind fun q => (latin1 (natText v.natAbs)).foldlM Json.numberStep q).any _ = true
    rw [show Json.numberStep .start '-' = some .minus from rfl, Option.bind_some, foldlM_natText _ (Or.inr rfl)]
    split <;> rfl
  · exact prints_natText _

/-! ## The document -/

variable {n : ℕ}

def key (name : String) : List Char := latin1 (ascii name)

def nameChars (name : CStr) : List Char := (utf8Decode name).getD []

def clientDoc (v : StatusView n) (c : ServerClient) : Json := .object [
  (key "id", if c.clientId ≠ [] then textDoc c.clientId else .null),
  (key "name", if statusName v.file c.clientId ≠ [] then .string (nameChars (statusName v.file c.clientId)) else .null),
  (key "mode", textDoc (ascii (if c.autoClient then "auto" else "manual"))),
  (key "key", textDoc (statusKey v c)),
  (key "address", textDoc (ipText c.ipBe)),
  (key "pending", if c.pendingIpBe ≠ 0 then textDoc (ipText c.pendingIpBe) else .null),
  (key "previous", if c.prev.valid ∧ c.prevIpBe ≠ 0 then textDoc (ipText c.prevIpBe) else .null),
  (key "peer", textDoc (netSockaddrToString c.addr)),
  (key "transport", textDoc (ascii (if 0 ≤ c.tcpFd then "tcp" else "udp"))),
  (key "registered", numberDoc (intText c.registeredAt)),
  (key "connected_s",
    numberDoc (intText (if c.sessionSince ≠ 0 then difftime v.server.now c.sessionSince else 0))),
  (key "last_packet_s", if 0 ≤ statusLast v c then numberDoc (intText (statusLast v c)) else .null),
  (key "last_handshake_s", numberDoc (intText (if c.lastHs ≠ 0 then difftime v.server.now c.lastHs else 0))),
  (key "handshakes", numberDoc (natText (c.handshakes % 2 ^ 32))),
  (key "rx_packets", numberDoc (natText (c.rxPackets % 2 ^ 64))),
  (key "rx_bytes", numberDoc (natText (c.rxBytes % 2 ^ 64))),
  (key "tx_packets", numberDoc (natText (c.txPackets % 2 ^ 64))),
  (key "tx_bytes", numberDoc (natText (c.txBytes % 2 ^ 64))),
  (key "isolation_drops", numberDoc (natText (c.isolationDrops % 2 ^ 64)))]

def leaseDoc (v : StatusView n) (l : ServerLease) : Json := .object [
  (key "id", textDoc l.id),
  (key "address", textDoc (ipText l.ipBe)),
  (key "gone_s", numberDoc (intText (difftime v.server.now l.since))),
  (key "previous", .bool l.prev)]

/-- The registered clients in the order of their slots. -/
def StatusView.registered (v : StatusView n) : List ServerClient := v.slots.filter fun c => c.active && c.registered

def StatusView.kept (v : StatusView n) : List ServerLease := v.server.leases.slots.filter fun l => l.ipBe != 0

/-- **What the document says.** -/
def statusDoc (v : StatusView n) : Json := .object [
  (key "version", textDoc (ascii CAMEX_VERSION)),
  (key "pid", numberDoc (intText v.pid)),
  (key "transport", textDoc (statusTransport v)),
  (key "port", numberDoc (intText v.port)),
  (key "tunnel", textDoc v.localCidr),
  (key "pool", textDoc (statusPool v)),
  (key "started", numberDoc (intText v.server.started)),
  (key "uptime", numberDoc (intText (statusUp v))),
  (key "slots", .object [(key "used", numberDoc (natText (slotsUsed v % 2 ^ 32))),
    (key "max", numberDoc (natText (n % 2 ^ 32)))]),
  (key "client_isolation", .bool (serverClientIsolation v.server.conf)),
  (key "isolation_drops", numberDoc (natText (v.server.isolationDrops % 2 ^ 64))),
  (key "clients", .array (v.registered.map (clientDoc v))),
  (key "leases", .array (v.kept.map (leaseDoc v)))]

/-! ## The objects -/

theorem prints_orNull {p : Prop} [Decidable p] {text : CStr} {doc : Json} (h : p → Json.Prints doc text) :
    Json.Prints (if p then doc else .null) (orNull (if p then some text else none)) := by
  split
  · exact h ‹p›
  · exact .null

theorem prints_text {s : CStr} (h : ∀ b ∈ s, Json.isPlain b = true) : Json.Prints (textDoc s) (34 :: (s ++ [34])) :=
  .plain h

theorem natText_plain (n : ℕ) : ∀ b ∈ natText n, Json.isPlain b = true := by
  intro b hb
  have hall : ∀ b : UInt8, isDigit b = true → Json.isPlain b = true := forall_byte (by decide +kernel)
  exact hall b (natText_isDigit n b hb)

theorem ipText_plain (ip : Ip) : ∀ b ∈ ipText ip, Json.isPlain b = true := by
  intro b hb
  unfold ipText at hb
  simp only [List.mem_append, List.mem_cons] at hb
  rcases hb with hb | rfl | hb | rfl | hb | rfl | hb
  · exact natText_plain _ b hb
  · rfl
  · exact natText_plain _ b hb
  · rfl
  · exact natText_plain _ b hb
  · rfl
  · exact natText_plain _ b hb

theorem addr_plain (addr : SockAddr) : ∀ b ∈ netSockaddrToString addr, Json.isPlain b = true := by
  intro b hb
  rcases List.mem_append.mp hb with hb | hb
  · exact ipText_plain _ b hb
  · rcases List.mem_cons.mp hb with rfl | hb
    · rfl
    · exact natText_plain _ b hb

theorem ite_plain {p : Prop} [Decidable p] {s t : String} (hs : (ascii s).all Json.isPlain = true)
    (ht : (ascii t).all Json.isPlain = true) : ∀ b ∈ ascii (if p then s else t), Json.isPlain b = true := by
  split
  · exact List.all_eq_true.mp hs
  · exact List.all_eq_true.mp ht

def quotedMember (name : String) (text : CStr) : Json.Printed := (ascii name, textDoc text, 34 :: (text ++ [34]))

def numberMember (name : String) (text : CStr) : Json.Printed := (ascii name, numberDoc text, text)

/-- A member that is `null` without `p`. -/
def optionalMember (name : String) (p : Prop) [Decidable p] (doc : Json) (text : CStr) : Json.Printed :=
  (ascii name, if p then doc else .null, orNull (if p then some text else none))

theorem prints_statusLease (v : StatusView n) (l : ServerLease) : Json.Prints (leaseDoc v l) (statusLease v l) := by
  have hobject := Json.Prints.object (l := [
    (ascii "id", textDoc l.id, sbJsonStr l.id),
    quotedMember "address" (ipText l.ipBe),
    numberMember "gone_s" (intText (difftime v.server.now l.since)),
    (ascii "previous", .bool l.prev, ascii (if l.prev then "true" else "false"))]) (by simp) rfl ?_
  · convert hobject using 1
    · rfl
    · unfold statusLease
      simp only [Json.separated, List.map_cons, List.map_nil, List.intercalate_cons_cons, List.intercalate_singleton,
        quotedMember, numberMember, List.append_assoc, List.cons_append, List.nil_append]
      rfl
  · simp only [List.forall_mem_cons]
    exact ⟨prints_sbJsonStr _, prints_text (ipText_plain _), prints_intText _, .bool _, by simp⟩

set_option maxRecDepth 4000 in
theorem prints_statusClient (v : StatusView n) (c : ServerClient)
    (hname : ∃ cs, statusName v.file c.clientId = utf8 cs ∧ ∀ x ∈ cs, NameChar x) :
    Json.Prints (clientDoc v c) (statusClient v c) := by
  have hobject := Json.Prints.object (l := [
    optionalMember "id" (c.clientId ≠ []) (textDoc c.clientId) (sbJsonStr c.clientId),
    optionalMember "name" (statusName v.file c.clientId ≠ [])
      (.string (nameChars (statusName v.file c.clientId))) (sbJsonName (statusName v.file c.clientId)),
    quotedMember "mode" (ascii (if c.autoClient then "auto" else "manual")),
    quotedMember "key" (statusKey v c),
    quotedMember "address" (ipText c.ipBe),
    optionalMember "pending" (c.pendingIpBe ≠ 0) (textDoc (ipText c.pendingIpBe)) (quotedIp c.pendingIpBe),
    optionalMember "previous" (c.prev.valid ∧ c.prevIpBe ≠ 0) (textDoc (ipText c.prevIpBe)) (quotedIp c.prevIpBe),
    quotedMember "peer" (netSockaddrToString c.addr),
    quotedMember "transport" (ascii (if 0 ≤ c.tcpFd then "tcp" else "udp")),
    numberMember "registered" (intText c.registeredAt),
    numberMember "connected_s" (intText (if c.sessionSince ≠ 0 then difftime v.server.now c.sessionSince else 0)),
    optionalMember "last_packet_s" (0 ≤ statusLast v c) (numberDoc (intText (statusLast v c))) (intText (statusLast v c)),
    numberMember "last_handshake_s" (intText (if c.lastHs ≠ 0 then difftime v.server.now c.lastHs else 0)),
    numberMember "handshakes" (natText (c.handshakes % 2 ^ 32)),
    numberMember "rx_packets" (natText (c.rxPackets % 2 ^ 64)),
    numberMember "rx_bytes" (natText (c.rxBytes % 2 ^ 64)),
    numberMember "tx_packets" (natText (c.txPackets % 2 ^ 64)),
    numberMember "tx_bytes" (natText (c.txBytes % 2 ^ 64)),
    numberMember "isolation_drops" (natText (c.isolationDrops % 2 ^ 64))]) (by simp) rfl ?_
  · convert hobject using 1
    · rfl
    · unfold statusClient
      simp only [Json.separated, List.map_cons, List.map_nil, List.intercalate_cons_cons, List.intercalate_singleton,
        quotedMember, numberMember, optionalMember, List.append_assoc, List.cons_append, List.nil_append]
      rfl
  · have haddress : ∀ ip, Json.Prints (textDoc (ipText ip)) (quotedIp ip) := fun ip => prints_text (ipText_plain ip)
    simp only [List.forall_mem_cons]
    refine ⟨prints_orNull fun _ => prints_sbJsonStr _, prints_orNull fun _ => ?_, prints_text (ite_plain rfl rfl),
      prints_text (ite_plain rfl rfl), haddress _, prints_orNull fun _ => haddress _, prints_orNull fun _ => haddress _,
      prints_text (addr_plain _), prints_text (ite_plain rfl rfl), prints_intText _, prints_intText _,
      prints_orNull fun _ => prints_intText _, prints_intText _, prints_natText _, prints_natText _, prints_natText _,
      prints_natText _, prints_natText _, prints_natText _, by simp⟩
    obtain ⟨cs, hcs, hchars⟩ := hname
    unfold nameChars
    rw [hcs, utf8Decode_utf8]
    exact prints_sbJsonName hchars

/-! ## The loops -/

/-- Texts with a comma in front of each but the first that is printed. -/
def joinedFrom : ℕ → List CStr → CStr
  | _, [] => []
  | k, t :: ts => comma k ++ t ++ joinedFrom (k + 1) ts

theorem joinedFrom_succ (k : ℕ) (t : CStr) (ts : List CStr) :
    t ++ joinedFrom (k + 1) ts = Json.separated 44 (t :: ts) := by
  induction ts generalizing k t with
  | nil => rw [joinedFrom, List.append_nil, Json.separated_singleton]
  | cons u us ih =>
    rw [joinedFrom, List.append_assoc, ih, Json.separated_cons _ t (List.cons_ne_nil u us)]
    rfl

theorem joinedFrom_zero (ts : List CStr) : joinedFrom 0 ts = Json.separated 44 ts := by
  cases ts with
  | nil => rfl
  | cons t ts =>
    rw [joinedFrom, ← joinedFrom_succ 0]
    rfl

theorem statusClients_eq (v : StatusView n) (l : List ServerClient) (used : ℕ) :
    statusClients v l used = joinedFrom used ((l.filter fun c => c.active && c.registered).map (statusClient v)) := by
  induction l generalizing used with
  | nil => rfl
  | cons c l ih =>
    unfold statusClients
    rw [List.filter_cons]
    split
    · rw [ih, List.map_cons, joinedFrom]
    · exact ih used

/-- **The loop that stops at the number of leases misses none.** -/
theorem statusLeases_eq (v : StatusView n) (l : List ServerLease) (count : ℕ)
    (hused : v.server.leases.used = count + l.countP fun l => l.ipBe != 0) :
    statusLeases v l count = joinedFrom count ((l.filter fun l => l.ipBe != 0).map (statusLease v)) := by
  induction l generalizing count with
  | nil => rfl
  | cons x l ih =>
    unfold statusLeases
    rw [List.countP_cons] at hused
    split
    · -- no lease is left
      rename_i hle
      have hnone : (x :: l).filter (fun l => l.ipBe != 0) = [] := by
        rw [← List.length_eq_zero_iff, ← List.countP_eq_length_filter, List.countP_cons]
        omega
      rw [hnone]
      rfl
    · rw [List.filter_cons]
      split
      · rename_i hfree
        rw [hfree] at hused ⊢
        exact ih count hused
      · rename_i hne
        rw [if_pos (bne_iff_ne.mpr hne)] at hused ⊢
        rw [ih (count + 1) (by omega), List.map_cons, joinedFrom]

/-! ## The status -/

theorem findSection_name {file : Loading (List ClientSection)}
    (hnames : ∀ p ∈ file.store, p.name = [] ∨ camexNameValid p.name = true) (clientId : CStr) :
    ∃ cs, statusName file clientId = utf8 cs ∧ ∀ c ∈ cs, NameChar c := by
  have hnone : ∃ cs : List Char, [] = utf8 cs ∧ ∀ c ∈ cs, NameChar c := ⟨[], rfl, fun c hc => absurd hc List.not_mem_nil⟩
  unfold statusName
  cases hfind : findSection file clientId with
  | none => exact hnone
  | some p =>
    dsimp only
    rcases hnames p (findSection_some hfind) with hp | hp
    · rw [hp]
      exact hnone
    · exact camexNameValid_chars hp

theorem counted_invariant : LeaseInvariant LeaseTable.Counted where
  add _ _ _ _ _ _ _ h := serverLeaseAdd_counted h
  drop _ o h := h.drop o

/-- The counter of the leases is right at any time. -/
theorem leasesCounted_reachable {Hs : Type} {N : Noise Hs} {s : Server n}
    (h : Machine.Reachable (serverMachine N n) s) : s.leases.Counted := by
  refine counted_invariant.reachable (fun k => ?_) h
  unfold LeaseTable.Counted
  rw [List.countP_replicate]
  rfl

theorem statusPool_plain (v : StatusView n) : ∀ b ∈ statusPool v, Json.isPlain b = true := by
  intro b hb
  rcases List.mem_append.mp hb with hb | hb
  · exact ipText_plain _ b hb
  · rcases List.mem_cons.mp hb with rfl | hb
    · rfl
    · exact natText_plain _ b hb

theorem statusTransport_plain (v : StatusView n) : ∀ b ∈ statusTransport v, Json.isPlain b = true := by
  unfold statusTransport
  cases v.server.conf.cfg.transport with
  | tcp => exact List.all_eq_true.mp rfl
  | udp => exact List.all_eq_true.mp rfl

set_option maxRecDepth 4000 in
theorem prints_serverStatus (v : StatusView n) (hcounted : v.server.leases.Counted)
    (hnames : ∀ p ∈ v.file.store, p.name = [] ∨ camexNameValid p.name = true) :
    Json.Prints (statusDoc v) (serverStatus v) := by
  have hclients : Json.Prints (.array (v.registered.map (clientDoc v))) (91 :: (statusClients v v.slots 0 ++ [93])) := by
    rw [statusClients_eq, joinedFrom_zero]
    exact .array fun c _ => prints_statusClient v c (findSection_name hnames _)
  have hleases : Json.Prints (.array (v.kept.map (leaseDoc v)))
      (91 :: (statusLeases v v.server.leases.slots 0 ++ [93])) := by
    rw [statusLeases_eq v _ 0 (by rw [hcounted, Nat.zero_add]), joinedFrom_zero]
    exact .array fun l _ => prints_statusLease v l
  have hslots := Json.Prints.object (l := [
    numberMember "used" (natText (slotsUsed v % 2 ^ 32)), numberMember "max" (natText (n % 2 ^ 32))]) (by simp) rfl (by
      simp only [List.forall_mem_cons]
      exact ⟨prints_natText _, prints_natText _, by simp⟩)
  have hobject := Json.Prints.object (l := [
    quotedMember "version" (ascii CAMEX_VERSION),
    numberMember "pid" (intText v.pid),
    quotedMember "transport" (statusTransport v),
    numberMember "port" (intText v.port),
    (ascii "tunnel", textDoc v.localCidr, sbJsonStr v.localCidr),
    quotedMember "pool" (statusPool v),
    numberMember "started" (intText v.server.started),
    numberMember "uptime" (intText (statusUp v)),
    (ascii "slots", _, _),
    (ascii "client_isolation", .bool (serverClientIsolation v.server.conf),
      ascii (if serverClientIsolation v.server.conf then "true" else "false")),
    numberMember "isolation_drops" (natText (v.server.isolationDrops % 2 ^ 64)),
    (ascii "clients", _, _),
    (ascii "leases", _, _)]) (by simp) rfl (by
      simp only [List.forall_mem_cons]
      exact ⟨prints_text (List.all_eq_true.mp rfl), prints_intText _, prints_text (statusTransport_plain v),
        prints_intText _, prints_sbJsonStr _, prints_text (statusPool_plain v), prints_intText _, prints_intText _,
        hslots, .bool _, prints_natText _, hclients, hleases, by simp⟩)
  convert hobject.newline using 1
  · rfl
  · unfold serverStatus
    simp only [Json.separated, List.map_cons, List.map_nil, List.intercalate_cons_cons, List.intercalate_singleton,
      quotedMember, numberMember, List.append_assoc, List.cons_append, List.nil_append]
    rfl

/-- What `server_status(1)` prints. -/
structure StatusRight (v : StatusView n) : Prop where
  /-- It is UTF-8 of a text of JSON. -/
  wellFormed : (statusDoc v).Prints (serverStatus v)
  decoded : (utf8Decode (serverStatus v)).bind Json.read = some (statusDoc v)
  clients : (statusDoc v).member (key "clients") = some (.array (v.registered.map (clientDoc v)))
  leases : (statusDoc v).member (key "leases") = some (.array (v.kept.map (leaseDoc v)))
  /-- The characters of an ID are its bytes. -/
  clientId : ∀ c ∈ v.registered, ∃ cs, cs.map Char.toNat = c.clientId.map UInt8.toNat ∧
    (clientDoc v c).member (key "id") = some (if c.clientId ≠ [] then .string cs else .null)
  leaseId : ∀ l ∈ v.kept, ∃ cs, cs.map Char.toNat = l.id.map UInt8.toNat ∧
    (leaseDoc v l).member (key "id") = some (.string cs)
  name : ∀ c ∈ v.registered, ∃ cs, utf8 cs = statusName v.file c.clientId ∧
    (clientDoc v c).member (key "name") = some (if statusName v.file c.clientId ≠ [] then .string cs else .null)

theorem latin1_points (s : CStr) : (latin1 s).map Char.toNat = s.map UInt8.toNat := by
  unfold latin1
  rw [List.map_map]
  exact List.map_congr_left fun b _ => latin1_toNat b

/-- **The status document is valid and faithful** in every state that the server reaches, with names that are valid. -/
theorem statusJson_right {Hs : Type} {N : Noise Hs} {v : StatusView n}
    (hserver : Machine.Reachable (serverMachine N n) v.server)
    (hnames : ∀ p ∈ v.file.store, p.name = [] ∨ camexNameValid p.name = true) : StatusRight v := by
  have hprints := prints_serverStatus v (leasesCounted_reachable hserver) hnames
  refine ⟨hprints, hprints.read_eq, rfl, rfl, fun c _ => ⟨_, latin1_points _, rfl⟩, fun l _ => ⟨_, latin1_points _, rfl⟩,
    fun c _ => ?_⟩
  obtain ⟨cs, hcs, -⟩ := findSection_name hnames c.clientId
  refine ⟨nameChars (statusName v.file c.clientId), ?_, rfl⟩
  unfold nameChars
  rw [hcs, utf8Decode_utf8]
  rfl

/-- Two clients, one with an ID that needs an escape and the other with such a name. -/
theorem statusJson_right_two : ∃ v : StatusView 3, StatusRight v ∧
    v.registered.map (fun c => (clientDoc v c).member (key "id")) =
      [some (.string (key "a\"b")), some (.string (key "p"))] := by
  obtain ⟨s, hs, hp⟩ := Machine.runUnder_reachable (M := toyMachine 3) (C := fun _ _ => True)
    (l := [udpInit 65 1 (toySource 1 1000) "MODE=MANUAL CLIENT_ID=a\"b LOCAL_IP=10.0.0.5",
      udpInit 80 2 (toySource 2 1000) "MODE=MANUAL CLIENT_ID=p LOCAL_IP=10.0.0.6"])
    (p := fun s => (((List.finRange 3).map s.clients).filter fun c => c.active && c.registered).map
      ServerClient.clientId == [ascii "a\"b", ascii "p"])
    (toyServer_started 3 .udp toyDb) (by decide +kernel)
  rw [beq_iff_eq] at hp
  let v : StatusView 3 := ⟨s, (configDbParseFile listStore [] (.content (ascii "[client p]\nname=\"P\"\n"))).1, 1194,
    ascii "10.0.0.1/30", 4242⟩
  have hids : v.registered.map (fun c => (clientDoc v c).member (key "id")) =
      (v.registered.map ServerClient.clientId).map fun id => some (if id ≠ [] then textDoc id else .null) := by
    rw [List.map_map]
    rfl
  refine ⟨v, statusJson_right hs (fileTexts_parse _).names, ?_⟩
  rw [hids, show v.registered.map ServerClient.clientId = [ascii "a\"b", ascii "p"] from hp]
  rfl

end Camex
