import Mathlib.Order.Bounds.Basic
import Mathlib.Data.List.Pairwise
import Camex.NginxMap

/-!
# The nginx map

* `MapRecord`: a line that is a client ID and an address, two words;
* `RunOnRecord`: one word that is read as both, because the ID ends where its buffer does;
* `MapRight`: what the map is for: in canonical form, each host of the records with its lowest address;
* `mapRight_iff`: the map is right exactly when a host of a run-on line has a record as low.
-/

namespace Camex

open Lib Std

/-- A record of the map: a line of two words, an ID that is a host name label and an address. -/
def MapRecord (domain line host : CStr) (addr : Ip) : Prop :=
  line.length < 512 ∧ ∃ id text, tokens isSpace line = [id, text] ∧ validLabel (id.map toLower) = true ∧
    parseAddr text = some addr ∧ host = hostOf domain (id.map toLower) ∧ host.length ≤ MAP_HOST_MAX

/-- A line of one word that is read as a record: an ID of 63 bytes and an address that follows at once. -/
def RunOnRecord (domain line host : CStr) (addr : Ip) : Prop :=
  line.length < 512 ∧ ∃ word, tokens isSpace line = [word] ∧ validLabel ((word.take 63).map toLower) = true ∧
    parseAddr (word.drop 63) = some addr ∧ host = hostOf domain ((word.take 63).map toLower) ∧
    host.length ≤ MAP_HOST_MAX

def mapHosts (q : Qsort cmpEntry) (text : Bytes) (domain : CStr) : List (CStr × Ip) :=
  (mapKept none (parseRecords q domain false text)).map fun e => (e.host, e.addr)

def HostText (host : CStr) : Prop :=
  host.length ≤ MAP_HOST_MAX ∧ ∀ label ∈ hostLabels host, validLabel label = true

/-- The map is what it should be: header, default, one line for each host in increasing order; the hosts are those
of the records, each with its lowest address; the order of the lines that came in does not matter. -/
structure MapRight (q : Qsort cmpEntry) (text : Bytes) (domain : CStr) (port : ℤ) (dflt target : CStr) : Prop where
  file : nginxMapFormat q text domain port dflt = some (mapHeader domain ++ mapDefault target ++
    (mapHosts q text domain).flatMap (fun h => mapLine port.toNat h.1 (ipText h.2)) ++ ascii "\x7d\n",
    (mapHosts q text domain).length)
  increasing : (mapHosts q text domain).Pairwise fun a b => compare a.1 b.1 = .lt
  hostText : ∀ h ∈ mapHosts q text domain, HostText h.1
  order : ∀ text', (textLines text').Perm (textLines text) →
    nginxMapFormat q text' domain port dflt = nginxMapFormat q text domain port dflt
  hosts : ∀ host addr, (host, addr) ∈ mapHosts q text domain ↔
    IsLeast {a | ∃ line ∈ textLines text, MapRecord domain line host a} addr

/-- A host of a run-on line has a record with an address at most as high. -/
def RunOnCovered (text : Bytes) (domain : CStr) : Prop :=
  ∀ line ∈ textLines text, ∀ host addr, RunOnRecord domain line host addr →
    ∃ line' ∈ textLines text, ∃ addr' ≤ addr, MapRecord domain line' host addr'

/-! ## Words -/

theorem tokens_skip {isDelim : UInt8 → Bool} (s : CStr) :
    tokens isDelim (s.dropWhile isDelim) = tokens isDelim s := by
  induction s with
  | nil => rfl
  | cons c s ih =>
    by_cases hc : isDelim c = true
    · have hsplit := tokens_append_cons [] s hc
      rw [List.nil_append, show tokens isDelim [] = [] by simp [tokens], List.nil_append] at hsplit
      rw [List.dropWhile_cons_of_pos hc, ih, hsplit]
    · rw [List.dropWhile_cons_of_neg hc]

theorem tokens_firstWord {isDelim : UInt8 → Bool} {w r : CStr} (hne : w ≠ [])
    (hw : ∀ b ∈ w, isDelim b = false) (hr : r = [] ∨ ∃ d u, r = d :: u ∧ isDelim d = true) :
    tokens isDelim (w ++ r) = w :: tokens isDelim r := by
  rw [tokens_append hr, tokens_word hne hw, List.singleton_append]

/-- A word of `sscanf` on the words of a text. -/
def scanToken (n : ℕ) : List CStr → Option (CStr × List CStr)
  | [] => none
  | w :: ts => some (w.take n, if w.length ≤ n then ts else w.drop n :: ts)

theorem scanWord_tokens {n : ℕ} (hn : 0 < n) (s : CStr) :
    (scanWord n s).map (fun r => (r.1, tokens isSpace r.2)) = scanToken n (tokens isSpace s) := by
  have hskip : tokens isSpace (s.dropWhile isSpace) = tokens isSpace s := tokens_skip s
  have hparts : s.dropWhile isSpace = (s.dropWhile isSpace).takeWhile (fun c => !isSpace c) ++
      (s.dropWhile isSpace).dropWhile (fun c => !isSpace c) := List.takeWhile_append_dropWhile.symm
  have hword : ((s.dropWhile isSpace).take n).takeWhile (fun c => !isSpace c) =
      ((s.dropWhile isSpace).takeWhile fun c => !isSpace c).take n := List.take_takeWhile.symm
  have hw : ∀ b ∈ (s.dropWhile isSpace).takeWhile (fun c => !isSpace c), isSpace b = false := fun b hb => by
    simpa using List.mem_takeWhile_imp hb
  have hr : (s.dropWhile isSpace).dropWhile (fun c => !isSpace c) = [] ∨
      ∃ d u, (s.dropWhile isSpace).dropWhile (fun c => !isSpace c) = d :: u ∧ isSpace d = true := by
    cases hd : (s.dropWhile isSpace).dropWhile (fun c => !isSpace c) with
    | nil => exact Or.inl rfl
    | cons d u =>
      refine Or.inr ⟨d, u, rfl, ?_⟩
      have := List.head?_dropWhile_not (fun c => !isSpace c) (s.dropWhile isSpace)
      rw [hd] at this
      simpa using this
  unfold scanWord
  dsimp only
  rw [hword]
  generalize (s.dropWhile isSpace).takeWhile (fun c => !isSpace c) = w at *
  generalize (s.dropWhile isSpace).dropWhile (fun c => !isSpace c) = r at *
  by_cases hnil : w = []
  · -- nothing is left: behind the blanks stands no blank
    subst hnil
    rw [List.nil_append] at hparts
    have hempty : r = [] := by
      rcases hr with hr | ⟨d, u, hr, hd⟩
      · exact hr
      · have := List.head?_dropWhile_not isSpace s
        rw [hparts, hr] at this
        simp [hd] at this
    rw [← hskip, hparts, hempty]
    simp [tokens, scanToken]
  · have htake : w.take n ≠ [] := by
      obtain ⟨c, w, rfl⟩ := List.exists_cons_of_ne_nil hnil
      obtain ⟨n, rfl⟩ := Nat.exists_eq_succ_of_ne_zero hn.ne'
      simp
    rw [if_neg htake, ← hskip, hparts, tokens_firstWord hnil hw hr, Option.map_some]
    unfold scanToken
    by_cases hlen : w.length ≤ n
    · dsimp only
      rw [List.take_of_length_le hlen, List.drop_left, if_pos hlen]
    · have hdrop : w.drop n ≠ [] := by
        rw [Ne, List.drop_eq_nil_iff]
        exact hlen
      dsimp only
      rw [if_neg hlen, List.length_take, min_eq_left (by omega), List.drop_append_of_le_length (by omega),
        tokens_firstWord hdrop (fun b hb => hw b (List.mem_of_mem_drop hb)) hr]

def scanTokens (ts : List CStr) : Option (CStr × CStr) :=
  (scanToken 63 ts).bind fun r => (scanToken 31 r.2).bind fun r' =>
    if (scanToken 1 r'.2).isSome then none else some (r.1, r'.1)

theorem scanRecord_tokens (line : CStr) : scanRecord line = scanTokens (tokens isSpace line) := by
  unfold scanRecord scanTokens
  rw [← scanWord_tokens (by decide) line]
  cases scanWord 63 line with
  | none => rfl
  | some r =>
    rw [Option.map_some, Option.bind_some]
    dsimp only
    rw [← scanWord_tokens (by decide) r.2]
    cases scanWord 31 r.2 with
    | none => rfl
    | some r' =>
      rw [Option.map_some, Option.bind_some]
      dsimp only
      rw [← scanWord_tokens (by decide) r'.2, Option.isSome_map]

theorem scanTokens_two {id addr : CStr} (hid : id.length ≤ 63) (haddr : addr.length ≤ 31) :
    scanTokens [id, addr] = some (id, addr) := by
  simp [scanTokens, scanToken, hid, haddr, List.take_of_length_le hid, List.take_of_length_le haddr]

theorem scanTokens_one {word : CStr} (hlong : 63 < word.length) (hshort : word.length ≤ 94) :
    scanTokens [word] = some (word.take 63, word.drop 63) := by
  have hrest : (word.drop 63).length ≤ 31 := by
    rw [List.length_drop]
    omega
  unfold scanTokens
  rw [scanToken, Option.bind_some, if_neg (by omega), scanToken, Option.bind_some, if_pos hrest,
    List.take_of_length_le hrest]
  rfl

theorem scanTokens_some {ts : List CStr} {id addr : CStr} (h : scanTokens ts = some (id, addr)) :
    (ts = [id, addr] ∧ id.length ≤ 63) ∨
      ∃ word, ts = [word] ∧ 63 < word.length ∧ id = word.take 63 ∧ addr = word.drop 63 := by
  have hnil : ∀ us : List CStr, (scanToken 1 us).isSome = true ∨ us = [] := fun us => by
    cases us <;> simp [scanToken]
  have hrest : ∀ x us, ((scanToken 31 us).bind fun r' => if (scanToken 1 r'.2).isSome then none
      else some (x, r'.1)) = some (id, addr) → x = id ∧ us = [addr] := by
    intro x us hus
    cases us with
    | nil => cases hus
    | cons a us =>
      rw [scanToken, Option.bind_some] at hus
      rcases hnil (if a.length ≤ 31 then us else a.drop 31 :: us) with hlast | hlast
      · rw [if_pos hlast] at hus
        cases hus
      · rw [hlast, if_neg (by simp [scanToken])] at hus
        obtain ⟨rfl, rfl⟩ := Prod.mk.inj (Option.some.inj hus)
        split at hlast
        · rename_i hlen
          rw [List.take_of_length_le hlen, hlast]
          exact ⟨rfl, rfl⟩
        · cases hlast
  cases ts with
  | nil => cases h
  | cons w us =>
    unfold scanTokens at h
    rw [scanToken, Option.bind_some] at h
    obtain ⟨hid, hus⟩ := hrest _ _ h
    dsimp only at hid hus
    split at hus
    · rename_i hlen
      rw [List.take_of_length_le hlen] at hid
      rw [hus, ← hid]
      exact Or.inl ⟨rfl, hlen⟩
    · rename_i hlen
      obtain ⟨hdrop, rfl⟩ := List.cons.inj hus
      exact Or.inr ⟨w, rfl, by omega, hid.symm, hdrop.symm⟩

/-! ## Records -/

theorem scanU3_length {s rest : CStr} {b : ℕ} (h : scanU3 s = some (b, rest)) : s.length ≤ rest.length + 3 := by
  unfold scanU3 at h
  dsimp only at h
  split at h
  · cases h
  · obtain ⟨-, rfl⟩ := Prod.mk.inj (Option.some.inj h)
    have hle : ((s.take 3).takeWhile isDigit).length ≤ 3 :=
      ((List.takeWhile_prefix _).length_le).trans (List.length_take_le 3 s)
    rw [List.length_drop]
    omega

theorem scanDotU3_length {s rest : CStr} {b : ℕ} (h : scanDotU3 s = some (b, rest)) :
    s.length ≤ rest.length + 4 := by
  unfold scanDotU3 at h
  split at h
  · split at h
    · rw [List.length_cons]
      have := scanU3_length h
      omega
    · cases h
  · cases h

/-- An address text is at most 15 bytes long. -/
theorem parseAddr_length {a : CStr} {ip : Ip} (h : parseAddr a = some ip) : a.length ≤ 15 := by
  unfold parseAddr at h
  split at h
  · cases h
  · split at h
    · cases h
    · rename_i h₀
      split at h
      · cases h
      · rename_i h₁
        split at h
        · cases h
        · rename_i h₂
          split at h
          · cases h
          · rename_i h₃
            split at h
            · cases h
            · rename_i hend
              have hend := not_not.mp hend
              have := scanU3_length h₀
              have := scanDotU3_length h₁
              have := scanDotU3_length h₂
              have := scanDotU3_length h₃
              rw [hend, List.length_nil] at this
              omega

theorem validLabel_length {label : CStr} (h : validLabel label = true) : label.length ≤ 63 := by
  unfold validLabel at h
  simp only [Bool.and_eq_true, decide_eq_true_eq] at h
  exact h.1.2.1

def mapEntry (domain label : CStr) (addr : Ip) : MapEntry :=
  { MapEntry.blank with label := label, host := hostOf domain label, addr := addr, addrText := ipText addr }

/-- The ID and the address of a line that is read as a record. -/
def RecordWords (line id text : CStr) : Prop :=
  tokens isSpace line = [id, text] ∨
    ∃ word, tokens isSpace line = [word] ∧ id = word.take 63 ∧ text = word.drop 63

theorem hostOf_length_le {domain label : CStr} (hlabel : validLabel label = true) :
    (hostOf domain label).length ≤ MAP_HOST_MAX ↔
      ¬ (domain ≠ [] ∧ MAP_HOST_MAX < label.length + 1 + domain.length) := by
  have hlen := validLabel_length hlabel
  unfold hostOf MAP_HOST_MAX
  split
  · rename_i hd
    simp only [List.length_append, List.length_cons, List.length_map, hd, ne_eq, not_false_eq_true, true_and]
    omega
  · rename_i hd
    simp only [hd, false_and, not_false_iff, iff_true]
    omega

theorem parseRecord_map {domain line : CStr} {e : MapEntry} :
    parseRecord domain false line = some e ↔ line.length < 512 ∧ ∃ id text addr, RecordWords line id text ∧
      validLabel (id.map toLower) = true ∧ parseAddr text = some addr ∧
      (hostOf domain (id.map toLower)).length ≤ MAP_HOST_MAX ∧ e = mapEntry domain (id.map toLower) addr := by
  have hentry : ∀ id addr, recordEntry domain ⟨id, some addr, .blank, []⟩ =
      if validLabel (id.map toLower) = true ∧ (hostOf domain (id.map toLower)).length ≤ MAP_HOST_MAX then
        some (mapEntry domain (id.map toLower) addr) else none := by
    intro id addr
    unfold recordEntry
    dsimp only
    by_cases hlabel : validLabel (id.map toLower) = true
    · rw [if_neg (by simp [hlabel])]
      by_cases hlen : (hostOf domain (id.map toLower)).length ≤ MAP_HOST_MAX
      · have hboth : validLabel (id.map toLower) = true ∧ (hostOf domain (id.map toLower)).length ≤ MAP_HOST_MAX :=
          ⟨hlabel, hlen⟩
        rw [if_neg ((hostOf_length_le hlabel).mp hlen), if_pos hboth]
        rfl
      · rw [if_pos (by by_contra hn; exact hlen ((hostOf_length_le hlabel).mpr hn)), if_neg (fun h => hlen h.2)]
    · rw [if_pos (by simpa using hlabel), if_neg (fun h => hlabel h.1)]
  constructor
  · intro h
    unfold parseRecord at h
    split at h
    · cases h
    · rename_i hlen
      rw [not_or, Nat.not_le] at hlen
      obtain ⟨r, hr, he⟩ := Option.bind_eq_some_iff.mp h
      have hr : mapFields line = some r := hr
      unfold mapFields at hr
      split at hr
      · cases hr
      · rename_i id text hscan
        obtain ⟨addr, haddr, rfl⟩ := Option.map_eq_some_iff.mp hr
        rw [hentry] at he
        split at he
        · rename_i hok
          rw [scanRecord_tokens] at hscan
          refine ⟨hlen.2, id, text, addr, ?_, hok.1, haddr, hok.2, (Option.some.inj he).symm⟩
          rcases scanTokens_some hscan with ⟨htwo, -⟩ | ⟨word, hone, -, hid, htext⟩
          · exact Or.inl htwo
          · exact Or.inr ⟨word, hone, hid, htext⟩
        · cases he
  · rintro ⟨hlen, id, text, addr, hwords, hlabel, haddr, hhost, rfl⟩
    have hid := validLabel_length hlabel
    rw [List.length_map] at hid
    have htext := parseAddr_length haddr
    have hne : text ≠ [] := by
      rintro rfl
      have hnone : parseAddr [] = none := by decide
      rw [hnone] at haddr
      cases haddr
    have hscan : scanRecord line = some (id, text) := by
      rw [scanRecord_tokens]
      rcases hwords with htwo | ⟨word, hone, rfl, rfl⟩
      · rw [htwo]
        exact scanTokens_two hid (by omega)
      · have hlong : 63 < word.length := by
          by_contra hshort
          exact hne (List.drop_eq_nil_iff.mpr (by omega))
        rw [List.length_drop] at htext
        rw [hone]
        exact scanTokens_one hlong (by omega)
    have hfields : mapFields line = some ⟨id, some addr, .blank, []⟩ := by
      unfold mapFields
      rw [hscan]
      dsimp only
      rw [haddr]
      rfl
    have hline : line ≠ [] := by
      rintro rfl
      cases hscan
    unfold parseRecord
    rw [if_neg (by simp [hline]; omega), if_neg (by decide), hfields, Option.bind_some, hentry,
      if_pos ⟨hlabel, hhost⟩]

/-! ## The record kept of a host -/

theorem cmpEntry_host {a b : MapEntry} (h : (cmpEntry a b).isLE = true) : (compare a.host b.host).isLE = true := by
  have hthen : cmpEntry a b = (compare a.host b.host).then
      ((compareLex (compareOn fun e => !e.live) <| compareLex (compareOn fun e => e.addr.toNat)
        (compareOn MapEntry.name)) a b) := rfl
  rw [hthen] at h
  cases hc : compare a.host b.host with
  | lt => rfl
  | eq => rfl
  | gt => rw [hc] at h; cases h

theorem mapKept_sublist (prev : Option CStr) (es : List MapEntry) : (mapKept prev es).Sublist es := by
  induction es generalizing prev with
  | nil => exact .slnil
  | cons e es ih =>
    unfold mapKept
    split
    · exact (ih prev).cons e
    · exact (ih (some e.host)).cons_cons e

theorem mapKept_above {es : List MapEntry} (hes : es.Pairwise fun a b => (compare a.host b.host).isLE = true)
    {p : CStr} (hp : ∀ e ∈ es, (compare p e.host).isLE = true) :
    ∀ e ∈ mapKept (some p) es, compare p e.host = .lt := by
  induction es generalizing p with
  | nil => simp [mapKept]
  | cons e es ih =>
    obtain ⟨hhead, htail⟩ := List.pairwise_cons.mp hes
    obtain ⟨hpe, hpes⟩ := List.forall_mem_cons.mp hp
    unfold mapKept
    split
    · exact ih htail hpes
    · rename_i hne
      have hlt : compare p e.host = .lt := by
        cases hc : compare p e.host with
        | lt => rfl
        | eq => exact absurd (congrArg some (LawfulEqOrd.eq_of_compare hc)) hne
        | gt => rw [hc] at hpe; cases hpe
      intro x hx
      rcases List.mem_cons.mp hx with rfl | hx
      · exact hlt
      · exact TransCmp.lt_trans hlt (ih htail hhead x hx)

theorem mapKept_increasing {es : List MapEntry} (hes : es.Pairwise fun a b => (compare a.host b.host).isLE = true)
    (prev : Option CStr) : (mapKept prev es).Pairwise fun a b => compare a.host b.host = .lt := by
  induction es generalizing prev with
  | nil => exact .nil
  | cons e es ih =>
    obtain ⟨hhead, htail⟩ := List.pairwise_cons.mp hes
    unfold mapKept
    split
    · exact ih htail prev
    · exact List.pairwise_cons.mpr ⟨mapKept_above htail hhead, ih htail (some e.host)⟩

/-- Of each host a record is kept that no other of it comes before. -/
theorem mapKept_covers {es : List MapEntry} (hes : es.Pairwise fun a b => (cmpEntry a b).isLE = true)
    (prev : Option CStr) {x : MapEntry} (hx : x ∈ es) (hprev : prev ≠ some x.host) :
    ∃ e ∈ mapKept prev es, e.host = x.host ∧ (cmpEntry e x).isLE = true := by
  induction es generalizing prev with
  | nil => cases hx
  | cons e es ih =>
    obtain ⟨hhead, htail⟩ := List.pairwise_cons.mp hes
    unfold mapKept
    rcases List.mem_cons.mp hx with rfl | hx
    · have hself : cmpEntry x x = .eq := ReflCmp.compare_self
      rw [if_neg hprev]
      exact ⟨x, List.mem_cons_self, rfl, by rw [hself]; rfl⟩
    · split
      · exact ih htail prev hx hprev
      · by_cases hhost : e.host = x.host
        · exact ⟨e, List.mem_cons_self, hhost, hhead x hx⟩
        · obtain ⟨k, hk, hkx⟩ := ih htail (some e.host) hx (by simpa using hhost)
          exact ⟨k, List.mem_cons_of_mem _ hk, hkx⟩

theorem cmpEntry_mapEntry (domain label label' : CStr) (addr addr' : Ip) :
    cmpEntry (mapEntry domain label addr) (mapEntry domain label' addr') =
      (compare (hostOf domain label) (hostOf domain label')).then (compare addr.toNat addr'.toNat) := by
  simp [cmpEntry, compareLex, compareOn, mapEntry, MapEntry.blank]

theorem hostOf_inj {domain label label' : CStr} (h : hostOf domain label = hostOf domain label') :
    label = label' := by
  unfold hostOf at h
  split at h
  · exact List.append_cancel_right h
  · exact h

section Records

variable {q : Qsort cmpEntry} {text : Bytes} {domain : CStr}

theorem mem_parseRecords {e : MapEntry} : e ∈ parseRecords q domain false text ↔
    ∃ line ∈ textLines text, parseRecord domain false line = some e := by
  unfold parseRecords
  rw [(q.perm _).mem_iff, List.mem_filterMap]

theorem mapRecord_eq {line line' : CStr} {e e' : MapEntry} (h : parseRecord domain false line = some e)
    (h' : parseRecord domain false line' = some e') (heq : cmpEntry e e' = .eq) : e = e' := by
  obtain ⟨-, id, -, addr, -, -, -, -, rfl⟩ := parseRecord_map.mp h
  obtain ⟨-, id', -, addr', -, -, -, -, rfl⟩ := parseRecord_map.mp h'
  rw [cmpEntry_mapEntry, Ordering.then_eq_eq] at heq
  rw [hostOf_inj (LawfulEqOrd.eq_of_compare heq.1), BitVec.eq_of_toNat_eq (LawfulEqOrd.eq_of_compare heq.2)]

theorem parseRecords_order {text' : Bytes} (h : (textLines text').Perm (textLines text)) :
    parseRecords q domain false text' = parseRecords q domain false text := by
  unfold parseRecords
  refine q.sort_eq q (h.filterMap _) fun a ha b hb heq => ?_
  obtain ⟨line, -, hline⟩ := List.mem_filterMap.mp ha
  obtain ⟨line', -, hline'⟩ := List.mem_filterMap.mp hb
  exact mapRecord_eq hline hline' heq

/-- The hosts of the map with their addresses: the lowest of those that were read. -/
theorem mem_mapHosts {host : CStr} {addr : Ip} : (host, addr) ∈ mapHosts q text domain ↔
    IsLeast {a | ∃ e ∈ parseRecords q domain false text, e.host = host ∧ e.addr = a} addr := by
  have hsorted : (parseRecords q domain false text).Pairwise fun a b => (cmpEntry a b).isLE = true := q.sorted _
  have hlow : ∀ e ∈ parseRecords q domain false text, ∀ x ∈ parseRecords q domain false text,
      e.host = x.host → (cmpEntry e x).isLE = true → e.addr ≤ x.addr := by
    intro e he x hx hhost hle
    obtain ⟨_, -, hline⟩ := mem_parseRecords.mp he
    obtain ⟨_, -, hline'⟩ := mem_parseRecords.mp hx
    obtain ⟨-, id, -, addr, -, -, -, -, rfl⟩ := parseRecord_map.mp hline
    obtain ⟨-, id', -, addr', -, -, -, -, rfl⟩ := parseRecord_map.mp hline'
    have hhost : hostOf domain (id.map toLower) = hostOf domain (id'.map toLower) := hhost
    rw [cmpEntry_mapEntry, hhost, ReflOrd.compare_self, Ordering.eq_then, Nat.isLE_compare] at hle
    exact hle
  constructor
  · intro h
    obtain ⟨e, he, heq⟩ := List.mem_map.mp h
    obtain ⟨rfl, rfl⟩ := Prod.mk.inj heq
    have hmem := (mapKept_sublist none _).subset he
    refine ⟨⟨e, hmem, rfl, rfl⟩, ?_⟩
    rintro a ⟨x, hx, hhost, rfl⟩
    obtain ⟨k, hk, hkx, hle⟩ := mapKept_covers hsorted none hx (by simp)
    have hdistinct : (mapKept none (parseRecords q domain false text)).Pairwise fun a b => a.host ≠ b.host :=
      (mapKept_increasing (hsorted.imp cmpEntry_host) none).imp fun hlt heq => by
        rw [heq, ReflOrd.compare_self] at hlt
        cases hlt
    have hsymm : Std.Symm fun a b : MapEntry => a.host ≠ b.host := ⟨fun _ _ hne => hne.symm⟩
    have hke : k = e := by
      by_contra hne
      exact hdistinct.forall hk he hne (hkx.trans hhost)
    exact hlow e hmem x hx hhost.symm (hke ▸ hle)
  · rintro ⟨⟨x, hx, rfl, rfl⟩, hleast⟩
    obtain ⟨k, hk, hkx, hle⟩ := mapKept_covers hsorted none hx (by simp)
    have hmem := (mapKept_sublist none _).subset hk
    have haddr : k.addr = x.addr :=
      le_antisymm (hlow k hmem x hx hkx hle) (hleast ⟨k, hmem, hkx, rfl⟩)
    exact List.mem_map.mpr ⟨k, hk, by rw [hkx, haddr]⟩

/-! ## The whole map -/

theorem hostLabels_word {label : CStr} (h : validLabel label = true) : hostLabels label = [label] := by
  refine List.splitOnP_eq_singleton fun b hb => ?_
  unfold validLabel at h
  have hbyte := List.all_eq_true.mp (Bool.and_eq_true_iff.mp h).2 b hb
  rw [beq_eq_false_iff_ne]
  rintro rfl
  exact absurd hbyte (by decide)

theorem hostText_hostOf {label : CStr} (hd : domain = [] ∨ validHostname domain = true)
    (hlabel : validLabel label = true) (hlen : (hostOf domain label).length ≤ MAP_HOST_MAX) :
    HostText (hostOf domain label) := by
  refine ⟨hlen, ?_⟩
  unfold hostOf
  split
  · rename_i hne
    have hvalid := hd.resolve_left hne
    unfold validHostname at hvalid
    have hlabels := List.all_eq_true.mp (Bool.and_eq_true_iff.mp hvalid).2
    have hsplit : hostLabels (label ++ 46 :: domain.map toLower) = label :: hostLabels (domain.map toLower) := by
      unfold hostLabels
      rw [List.splitOnP_append_cons _ _ (by rfl)]
      exact congrArg (· ++ _) (hostLabels_word hlabel)
    rw [hsplit]
    exact List.forall_mem_cons.mpr ⟨hlabel, hlabels⟩
  · rw [hostLabels_word hlabel]
    exact List.forall_mem_singleton.mpr hlabel

/-- The addresses that were read for a host: of its records, and of the run-on lines. -/
theorem recordAddr_iff {host : CStr} {a : Ip} :
    (∃ e ∈ parseRecords q domain false text, e.host = host ∧ e.addr = a) ↔
      ∃ line ∈ textLines text, MapRecord domain line host a ∨ RunOnRecord domain line host a := by
  constructor
  · rintro ⟨e, he, rfl, rfl⟩
    obtain ⟨line, hmem, hline⟩ := mem_parseRecords.mp he
    obtain ⟨hshort, id, words, addr, hwords, hlabel, haddr, hlen, rfl⟩ := parseRecord_map.mp hline
    refine ⟨line, hmem, ?_⟩
    rcases hwords with htwo | ⟨word, hone, rfl, rfl⟩
    · exact Or.inl ⟨hshort, id, words, htwo, hlabel, haddr, rfl, hlen⟩
    · exact Or.inr ⟨hshort, word, hone, hlabel, haddr, rfl, hlen⟩
  · rintro ⟨line, hmem, ⟨hshort, id, words, htwo, hlabel, haddr, rfl, hlen⟩ |
      ⟨hshort, word, hone, hlabel, haddr, rfl, hlen⟩⟩
    · exact ⟨_, mem_parseRecords.mpr ⟨line, hmem, parseRecord_map.mpr
        ⟨hshort, id, words, a, Or.inl htwo, hlabel, haddr, hlen, rfl⟩⟩, rfl, rfl⟩
    · exact ⟨_, mem_parseRecords.mpr ⟨line, hmem, parseRecord_map.mpr
        ⟨hshort, _, _, a, Or.inr ⟨word, hone, rfl, rfl⟩, hlabel, haddr, hlen, rfl⟩⟩, rfl, rfl⟩

/-- The hosts are those of the records exactly when the run-on lines are covered. -/
theorem mapHosts_exact_iff : (∀ host addr, (host, addr) ∈ mapHosts q text domain ↔
      IsLeast {a | ∃ line ∈ textLines text, MapRecord domain line host a} addr) ↔ RunOnCovered text domain := by
  constructor
  · intro hexact line hmem host addr hrun
    have hread : ∃ e ∈ parseRecords q domain false text, e.host = host ∧ e.addr = addr :=
      recordAddr_iff.mpr ⟨line, hmem, Or.inr hrun⟩
    obtain ⟨x, hx, hhost, haddr⟩ := hread
    obtain ⟨k, hk, hkx, -⟩ := mapKept_covers (q.sorted _) none hx (by simp)
    have hmapped : (host, k.addr) ∈ mapHosts q text domain :=
      List.mem_map.mpr ⟨k, hk, by rw [hkx, hhost]⟩
    obtain ⟨line', hmem', hrecord⟩ := ((hexact _ _).mp hmapped).1
    exact ⟨line', hmem', k.addr, (mem_mapHosts.mp hmapped).2 ⟨x, hx, hhost, haddr⟩, hrecord⟩
  · intro hcovered host addr
    rw [mem_mapHosts]
    constructor
    · rintro ⟨hread, hleast⟩
      obtain ⟨line, hmem, hrecord | hrun⟩ := recordAddr_iff.mp hread
      · exact ⟨⟨line, hmem, hrecord⟩, fun a ⟨line', hmem', hrecord'⟩ =>
          hleast (recordAddr_iff.mpr ⟨line', hmem', Or.inl hrecord'⟩)⟩
      · obtain ⟨line', hmem', addr', hle, hrecord'⟩ := hcovered line hmem host addr hrun
        have hsame : addr' = addr := le_antisymm hle (hleast (recordAddr_iff.mpr ⟨line', hmem', Or.inl hrecord'⟩))
        rw [hsame] at hrecord'
        exact ⟨⟨line', hmem', hrecord'⟩, fun a ⟨line'', hmem'', hrecord''⟩ =>
          hleast (recordAddr_iff.mpr ⟨line'', hmem'', Or.inl hrecord''⟩)⟩
    · rintro ⟨⟨line, hmem, hrecord⟩, hleast⟩
      refine ⟨recordAddr_iff.mpr ⟨line, hmem, Or.inl hrecord⟩, fun a ha => ?_⟩
      obtain ⟨line', hmem', hrecord' | hrun⟩ := recordAddr_iff.mp ha
      · exact hleast ⟨line', hmem', hrecord'⟩
      · obtain ⟨line'', hmem'', addr', hle, hrecord''⟩ := hcovered line' hmem' host a hrun
        exact BitVec.le_trans (hleast ⟨line'', hmem'', hrecord''⟩) hle

end Records

/-- **The map is right** exactly when every run-on line is covered by a record. -/
theorem mapRight_iff (q : Qsort cmpEntry) (text : Bytes) {domain dflt target : CStr} {port : ℤ}
    (hdomain : domain = [] ∨ validHostname domain = true) (hport : 1 ≤ port ∧ port ≤ 65535)
    (htarget : mapTarget dflt = some target) :
    MapRight q text domain port dflt target ↔ RunOnCovered text domain := by
  refine ⟨fun h => mapHosts_exact_iff.mp h.hosts, fun hcovered => ?_⟩
  have hfile : ∀ text', nginxMapFormat q text' domain port dflt =
      some (mapHeader domain ++ mapDefault target ++
        (mapKept none (parseRecords q domain false text')).flatMap (fun e => mapLine port.toNat e.host e.addrText) ++
        ascii "\x7d\n", (mapKept none (parseRecords q domain false text')).length) := by
    intro text'
    have hd : ¬ (domain ≠ [] ∧ validHostname domain = false) := by
      rintro ⟨hne, hfalse⟩
      rw [hdomain.resolve_left hne] at hfalse
      cases hfalse
    unfold nginxMapFormat
    rw [if_neg hd, if_neg (by omega), htarget]
  have hentry : ∀ e ∈ mapKept none (parseRecords q domain false text),
      e.addrText = ipText e.addr ∧ HostText e.host := by
    intro e he
    obtain ⟨line, -, hline⟩ := mem_parseRecords.mp ((mapKept_sublist none _).subset he)
    obtain ⟨-, id, -, addr, -, hlabel, -, hlen, rfl⟩ := parseRecord_map.mp hline
    exact ⟨rfl, hostText_hostOf hdomain hlabel hlen⟩
  refine ⟨?_, ?_, fun h hh => ?_, fun text' hperm => ?_, mapHosts_exact_iff.mpr hcovered⟩
  · have hlines : (mapKept none (parseRecords q domain false text)).flatMap
        (fun e => mapLine port.toNat e.host e.addrText) =
          (mapHosts q text domain).flatMap fun h => mapLine port.toNat h.1 (ipText h.2) := by
      unfold mapHosts
      rw [List.flatMap_map]
      exact List.flatMap_congr fun e he => by rw [(hentry e he).1]
    rw [hfile, hlines, mapHosts, List.length_map]
  · unfold mapHosts
    rw [List.pairwise_map]
    exact mapKept_increasing ((q.sorted _).imp cmpEntry_host) none
  · obtain ⟨e, he, rfl⟩ := List.mem_map.mp hh
    exact (hentry e he).2
  · rw [hfile, hfile, parseRecords_order hperm]

theorem mapRight_two : MapRight (Qsort.stable cmpEntry) (ascii "cam 10.0.0.2\ncam 10.0.0.1\n") [] 80 [] [] :=
  (mapRight_iff _ _ (Or.inl rfl) (by decide) rfl).mpr (by
    intro line hline host addr hrun
    have hlines : textLines (ascii "cam 10.0.0.2\ncam 10.0.0.1\n") =
        [ascii "cam 10.0.0.2", ascii "cam 10.0.0.1", []] := by decide +kernel
    have hwords : ∀ l ∈ [ascii "cam 10.0.0.2", ascii "cam 10.0.0.1", []], ∀ w, tokens isSpace l ≠ [w] := by
      have hcounts : ∀ l ∈ [ascii "cam 10.0.0.2", ascii "cam 10.0.0.1", []], (tokens isSpace l).length ≠ 1 := by
        decide +kernel
      exact fun l hl w heq => hcounts l hl (by rw [heq]; rfl)
    obtain ⟨-, word, hword, -⟩ := hrun
    exact absurd hword (hwords line (hlines ▸ hline) word))

/-- A word of 63 letters and an address is a line of the map. -/
theorem mapRight_runOn : ∃ text : Bytes,
    ¬ MapRight (Qsort.stable cmpEntry) text [] 80 [] [] := by
  refine ⟨List.replicate 63 97 ++ ascii "10.0.0.1", fun h => ?_⟩
  have hmem : (List.replicate 63 (97 : UInt8), (0x0a000001 : Ip)) ∈
      mapHosts (Qsort.stable cmpEntry) (List.replicate 63 97 ++ ascii "10.0.0.1") [] := by decide +kernel
  obtain ⟨line, hline, hrecord⟩ := ((h.hosts _ _).mp hmem).1
  have hlines : textLines (List.replicate 63 97 ++ ascii "10.0.0.1") =
      [List.replicate 63 97 ++ ascii "10.0.0.1"] := by decide +kernel
  have hwords : (tokens isSpace (List.replicate 63 97 ++ ascii "10.0.0.1")).length = 1 := by decide +kernel
  rw [hlines, List.mem_singleton] at hline
  obtain ⟨-, id, words, htwo, -⟩ := hrecord
  rw [← hline, htwo] at hwords
  cases hwords

end Camex
