import Camex.Lib.Sorting
import Camex.Proto

/-!
# The nginx map and the start page (`nginxmap.c`)

`parseRecord` reads one line of a server's answer, `nginxMapFormat` writes the map of the hosts and
`nginxIndexFormat` the start page. Both take the order that `qsort` gives the records as a `Qsort`, which leaves open
where records that compare equal end up. Warnings on `warn` and a lack of memory are left out.
-/

namespace Camex

open Lib Std

def MAP_HOST_MAX : ℕ := 253
def CAMEX_NAME_MAX : ℕ := 64

/-- `map_entry_t`. -/
structure MapEntry where
  host : CStr
  addr : Ip
  addrText : CStr
  label : CStr
  name : CStr
  live : Bool
  conf : Bool
  since : ℤ
  last : ℤ
  hsAge : ℤ
  hs : ℕ
  rx : ℕ
  tx : ℕ
  peer : CStr
  peerPort : ℕ
  deriving DecidableEq

/-! ## Names, addresses and numbers -/

def isLabelByte (c : UInt8) : Bool := (97 ≤ c && c ≤ 122) || (48 ≤ c && c ≤ 57) || c == 45

def validLabel (label : CStr) : Bool :=
  decide (label ≠ [] ∧ label.length ≤ 63 ∧ label.head? ≠ some 45 ∧ label.getLast? ≠ some 45) &&
    label.all isLabelByte

def hostLabels (name : CStr) : List CStr := name.splitOnP (· == 46)

/-- `valid_hostname`, `camex_domain_valid`. -/
def validHostname (name : CStr) : Bool :=
  decide (name ≠ [] ∧ name.length ≤ MAP_HOST_MAX) && (hostLabels (name.map toLower)).all validLabel

/-- One `%3u` of `sscanf` on digits and dots. -/
def scanU3 (s : CStr) : Option (ℕ × CStr) :=
  let ds := (s.take 3).takeWhile isDigit
  if ds = [] then none else some (digitsValue ds, s.drop ds.length)

/-- A dot of the format and the number behind it. -/
def scanDotU3 : CStr → Option (ℕ × CStr)
  | c :: s => if c = 46 then scanU3 s else none
  | [] => none

def parseAddr (a : CStr) : Option Ip :=
  if !a.all (fun c => isDigit c || c == 46) then none
  else
    match scanU3 a with
    | none => none
    | some (b₀, s) =>
    match scanDotU3 s with
    | none => none
    | some (b₁, s) =>
    match scanDotU3 s with
    | none => none
    | some (b₂, s) =>
    match scanDotU3 s with
    | none => none
    | some (b₃, s) =>
      if s ≠ [] then none
      else if 255 < b₀ ∨ 255 < b₁ ∨ 255 < b₂ ∨ 255 < b₃ then none
      else some (BitVec.ofNat 32 (((b₀ * 256 + b₁) * 256 + b₂) * 256 + b₃))

/-- `strrchr`: what stands before the last `b` and behind it. -/
def splitLast (b : UInt8) (s : CStr) : Option (CStr × CStr) :=
  (afterByte b s.reverse).map fun before => (before.reverse, (beforeByte b s.reverse).reverse)

/-- `valid_target`: the text it writes out anew. -/
def validTarget (t : CStr) : Option CStr :=
  match splitLast 58 t with
  | none => none
  | some (host, port) =>
    if host = [] ∨ MAP_HOST_MAX < host.length then none
    else if port = [] ∨ 5 < port.length ∨ !port.all isDigit then none
    else if digitsValue port < 1 ∨ 65535 < digitsValue port then none
    else (parseAddr host).map fun a => ipText a ++ 58 :: natText (digitsValue port)

def mapReserved (h : CStr) : Bool :=
  h == ascii "default" || h == ascii "hostnames" || h == ascii "include" || h == ascii "volatile"

/-- The bytes behind the first of a UTF-8 sequence: the code point they make. -/
def utf8Tail (cp : ℕ) : CStr → Option ℕ
  | [] => some cp
  | b :: bs => if b &&& 0xc0 ≠ 0x80 then none else utf8Tail (cp * 64 + (b &&& 0x3f).toNat) bs

/-- One character of a name: how many bytes it takes. -/
def utf8Char (p : CStr) : Option ℕ :=
  match p with
  | [] => none
  | b :: bs =>
    if b < 0x80 then if b < 0x20 ∨ b = 0x7f then none else some 1
    else
      let first : Option (ℕ × ℕ) :=
        if 0xc2 ≤ b ∧ b ≤ 0xdf then some (2, (b &&& 0x1f).toNat)
        else if 0xe0 ≤ b ∧ b ≤ 0xef then some (3, (b &&& 0x0f).toNat)
        else if 0xf0 ≤ b ∧ b ≤ 0xf4 then some (4, (b &&& 0x07).toNat)
        else none
      match first with
      | none => none
      | some (len, cp) =>
        if bs.length < len - 1 then none
        else
          match utf8Tail cp (bs.take (len - 1)) with
          | none => none
          | some cp =>
            if (len = 3 ∧ cp < 0x800) ∨ (len = 4 ∧ cp < 0x10000) ∨ 0x10ffff < cp ∨
                (0xd800 ≤ cp ∧ cp ≤ 0xdfff) ∨ (0x80 ≤ cp ∧ cp ≤ 0x9f) then none
            else some len

def nameLoop : ℕ → CStr → Bool
  | _, [] => true
  | 0, _ => false
  | fuel + 1, p =>
    match utf8Char p with
    | none => false
    | some len => nameLoop fuel (p.drop len)

/-- `camex_name_valid`; every turn of the loop takes a byte. -/
def camexNameValid (name : CStr) : Bool :=
  decide (name ≠ [] ∧ name.length ≤ CAMEX_NAME_MAX) && nameLoop name.length name

/-- A byte of a string in memory, its NUL included; none behind it. -/
def readByte (text : CStr) (i : ℕ) : Option UInt8 :=
  if i < text.length then text[i]? else if i = text.length then some 0 else none

/-- The loop over `p[k]`: whether all reads are in the string, and the code point. -/
def utf8TailAt (name : CStr) (p : ℕ) : ℕ → ℕ → Option (Option ℕ)
  | 0, cp => some (some cp)
  | more + 1, cp =>
    match readByte name p with
    | none => none
    | some b => if b &&& 0xc0 ≠ 0x80 then some none else utf8TailAt name (p + 1) more (cp * 64 + (b &&& 0x3f).toNat)

/-- The loop of `camex_name_valid` with the bytes that it reads; none for a read behind the NUL. -/
def nameLoopAt (name : CStr) : ℕ → ℕ → Option Bool
  | 0, _ => none
  | fuel + 1, p =>
    match readByte name p with
    | none => none
    | some b =>
      if b = 0 then some true
      else if b < 0x80 then if b < 0x20 ∨ b = 0x7f then some false else nameLoopAt name fuel (p + 1)
      else
        let first : Option (ℕ × ℕ) :=
          if 0xc2 ≤ b ∧ b ≤ 0xdf then some (2, (b &&& 0x1f).toNat)
          else if 0xe0 ≤ b ∧ b ≤ 0xef then some (3, (b &&& 0x0f).toNat)
          else if 0xf0 ≤ b ∧ b ≤ 0xf4 then some (4, (b &&& 0x07).toNat)
          else none
        match first with
        | none => some false
        | some (len, cp) =>
          match utf8TailAt name (p + 1) (len - 1) cp with
          | none => none
          | some none => some false
          | some (some cp) =>
            if (len = 3 ∧ cp < 0x800) ∨ (len = 4 ∧ cp < 0x10000) ∨ 0x10ffff < cp ∨
                (0xd800 ≤ cp ∧ cp ≤ 0xdfff) ∨ (0x80 ≤ cp ∧ cp ≤ 0x9f) then some false
            else nameLoopAt name fuel (p + len)

/-- `camex_name_valid` with its reads; the loop turns at most once a byte and once for the NUL. -/
def camexNameValidAt (name : CStr) : Option Bool :=
  if name.length = 0 ∨ CAMEX_NAME_MAX < name.length then some false else nameLoopAt name (name.length + 1) 0

/-- `parse_num`; `max` is at most `ULLONG_MAX`. -/
def parseNum (f : CStr) (max : ℕ) : Option ℕ :=
  if f = [] ∨ !f.all isDigit ∨ 20 < f.length ∨ max < digitsValue f then none else some (digitsValue f)

/-- `split_tabs`, with room for `more` fields behind the first. -/
def splitTabs : ℕ → CStr → List CStr
  | 0, line => [line]
  | more + 1, line =>
    match afterByte 9 line with
    | none => [line]
    | some rest => beforeByte 9 line :: splitTabs more rest

/-! ## Records -/

/-- One `%<n>s` of `sscanf`: the word and what is behind it. -/
def scanWord (n : ℕ) (s : CStr) : Option (CStr × CStr) :=
  let w := ((s.dropWhile isSpace).take n).takeWhile fun c => !isSpace c
  if w = [] then none else some (w, (s.dropWhile isSpace).drop w.length)

/-- `sscanf(line, "%63s %31s %1s")` where it makes two conversions. -/
def scanRecord (line : CStr) : Option (CStr × CStr) :=
  match scanWord 63 line with
  | none => none
  | some (id, s) =>
    match scanWord 31 s with
    | none => none
    | some (addr, s) => if (scanWord 1 s).isSome then none else some (id, addr)

/-- What the fields of a record say before its ID is looked at. -/
structure RecordFields where
  id : CStr
  addr : Option Ip
  entry : MapEntry
  name : CStr

/-- A zeroed entry that is live and had no packet. -/
def MapEntry.blank : MapEntry := ⟨[], 0, [], [], [], true, false, 0, -1, 0, 0, 0, 0, [], 0⟩

def mapFields (line : CStr) : Option RecordFields :=
  match scanRecord line with
  | none => none
  | some (id, addr) => (parseAddr addr).map fun a => ⟨id, some a, .blank, []⟩

def dashField {α : Type} (f : CStr) (parse : CStr → Option α) : Option (Option α) :=
  if f = [45] then some none else (parse f).map some

def indexPeer (f : List CStr) (e : MapEntry) : Option MapEntry :=
  match dashField (f.getD 10 []) parseAddr with
  | none => none
  | some peer =>
    match dashField (f.getD 11 []) (fun s => (parseNum s 65535).filter (· ≠ 0)) with
    | none => none
    | some port =>
      match peer with
      | none => some e
      | some pa => some { e with peer := ipText pa, peerPort := port.getD 0 }

def indexNumbers (f : List CStr) : Option MapEntry :=
  match parseNum (f.getD 3 []) 1, parseNum (f.getD 4 []) 0x7fffffff,
      dashField (f.getD 5 []) (parseNum · 0x7fffffff), parseNum (f.getD 6 []) 0x7fffffff,
      parseNum (f.getD 7 []) 0xffffffff, parseNum (f.getD 8 []) (2 ^ 64 - 1),
      parseNum (f.getD 9 []) (2 ^ 64 - 1) with
  | some conf, some since, some last, some hsAge, some hs, some rx, some tx =>
    some { MapEntry.blank with conf := conf != 0, since := since, last := last.elim (-1) (fun v => (v : ℤ))
                               hsAge := hsAge, hs := hs, rx := rx, tx := tx }
  | _, _, _, _, _, _, _ => none

def indexFields (line : CStr) : Option RecordFields :=
  let f := splitTabs 12 line
  let n := f.length
  let live := f.getD 0 [] == [76]
  if (!live && f.getD 0 [] != [79]) || (live && n < 10) || (!live && n < 3) || 64 ≤ (f.getD 1 []).length ||
      (live && 13 < n) || (!live && 4 < n) then none
  else if live then
    match parseAddr (f.getD 2 []) with
    | none => none
    | some a =>
      match indexNumbers f with
      | none => none
      | some e =>
        if 12 ≤ n then (indexPeer f e).map fun e => ⟨f.getD 1 [], some a, e, f.getD 12 []⟩
        else some ⟨f.getD 1 [], some a, e, f.getD 10 []⟩
  else
    (dashField (f.getD 2 []) parseAddr).map fun a =>
      ⟨f.getD 1 [], a, { MapEntry.blank with live := false, conf := true }, f.getD 3 []⟩

def hostOf (domain label : CStr) : CStr :=
  if domain ≠ [] then label ++ 46 :: domain.map toLower else label

/-- A record whose fields were read: listed when its ID is a label that fits. -/
def recordEntry (domain : CStr) (r : RecordFields) : Option MapEntry :=
  let label := r.id.map toLower
  if !validLabel label then none
  else if domain ≠ [] ∧ MAP_HOST_MAX < label.length + 1 + domain.length then none
  else some
    { r.entry with
      label := label
      host := hostOf domain label
      addr := r.addr.getD 0
      addrText := r.addr.elim [] ipText
      name := if camexNameValid r.name then r.name else [] }

/-- `parse_record`; `index`: a record of the start page. -/
def parseRecord (domain : CStr) (index : Bool) (line : CStr) : Option MapEntry :=
  if line = [] ∨ 512 ≤ line.length then none
  else ((if index then indexFields else mapFields) line).bind (recordEntry domain)

/-- `cmp_entry`: by host, the live first, by address, by name. -/
def cmpEntry : MapEntry → MapEntry → Ordering :=
  compareLex (compareOn MapEntry.host) <| compareLex (compareOn fun e => !e.live) <|
    compareLex (compareOn fun e => e.addr.toNat) (compareOn MapEntry.name)

instance : TransCmp cmpEntry := by
  unfold cmpEntry
  infer_instance

def textLines (text : Bytes) : List CStr := (untilNul text).splitOnP (· == 10)

/-- `parse_records`; an empty line is no record, so neither is what follows the last newline. -/
def parseRecords (q : Qsort cmpEntry) (domain : CStr) (index : Bool) (text : Bytes) : List MapEntry :=
  q.sort ((textLines text).filterMap (parseRecord domain index))

/-! ## The map -/

def mapLine (port : ℕ) (host : CStr) (addrText : CStr) : CStr :=
  ascii "    \"" ++ (if mapReserved host then [92] else []) ++ host ++ ascii "\" " ++ addrText ++ 58 ::
    natText port ++ ascii ";\n"

/-- The loop of `nginx_map_format`: of a host only the first record; `prev`: the record before. -/
def mapKept : Option CStr → List MapEntry → List MapEntry
  | _, [] => []
  | prev, e :: es => if prev = some e.host then mapKept prev es else e :: mapKept (some e.host) es

/-- The text above the map's lines. -/
def mapHeader (domain : CStr) : CStr :=
  ascii "# camex --status --format nginx-map: generated, do not edit\n" ++
    ascii "# domain: " ++ (if domain ≠ [] then domain else ascii "(none)") ++ [10] ++
    ascii "map $host $camex_upstream \x7b\n"

/-- The default line; `target`: the normalised one, empty without. -/
def mapDefault (target : CStr) : CStr :=
  if target ≠ [] then ascii "    default " ++ target ++ ascii ";\n" else []

/-- The target of `--default` written out anew; `none`: it is not valid. -/
def mapTarget (dflt : CStr) : Option CStr := if dflt = [] then some [] else validTarget dflt

/-- `nginx_map_format`: the text and the number of hosts in it. -/
def nginxMapFormat (q : Qsort cmpEntry) (text : Bytes) (domain : CStr) (port : ℤ) (dflt : CStr) :
    Option (CStr × ℕ) :=
  if domain ≠ [] ∧ validHostname domain = false then none
  else if port < 1 ∨ 65535 < port then none
  else
    match mapTarget dflt with
    | none => none
    | some target =>
      let kept := mapKept none (parseRecords q domain false text)
      some (mapHeader domain ++ mapDefault target ++ kept.flatMap (fun e => mapLine port.toNat e.host e.addrText) ++
        ascii "\x7d\n", kept.length)

/-! ## The start page -/

def shownName (e : MapEntry) : CStr := if e.name ≠ [] then e.name else e.label

def cmpShown : MapEntry → MapEntry → Ordering :=
  compareLex (compareOn fun e => (shownName e).map toLower) (compareOn MapEntry.host)

instance : TransCmp cmpShown := by
  unfold cmpShown
  infer_instance

/-- A later record of the host of `k`: a block on any server makes it configured, and its name names it. -/
def absorb (k e : MapEntry) : MapEntry :=
  { k with conf := k.conf || e.conf, name := if k.name = [] then e.name else k.name }

/-- The loop of `nginx_index_format` over the sorted records; `k` is the last one kept. -/
def keepFrom (k : MapEntry) : List MapEntry → List MapEntry
  | [] => [k]
  | e :: es => if e.host = k.host then keepFrom (absorb k e) es else k :: keepFrom e es

def keepOne : List MapEntry → List MapEntry
  | [] => []
  | e :: es => keepFrom e es

/-- `buf_html`. -/
def htmlText (s : CStr) : CStr := s.flatMap fun b =>
  if b = 38 then ascii "&amp;"
  else if b = 60 then ascii "&lt;"
  else if b = 62 then ascii "&gt;"
  else if b = 34 then ascii "&quot;"
  else if b = 39 then ascii "&#39;"
  else [b]

/-- `%02ld`. -/
def pad2 (n : ℕ) : CStr := if n < 10 then 48 :: natText n else natText n

/-- `buf_dur`. -/
def durText (v : ℤ) : CStr :=
  let n := v.toNat
  if n < 60 then natText n ++ ascii "s"
  else if n < 3600 then natText (n / 60) ++ ascii "m" ++ pad2 (n % 60) ++ ascii "s"
  else if n < 86400 then natText (n / 3600) ++ ascii "h" ++ pad2 (n % 3600 / 60) ++ ascii "m"
  else natText (n / 86400) ++ ascii "d" ++ pad2 (n % 86400 / 3600) ++ ascii "h"

/-- The digits of a number with a narrow space between thousands. -/
def groupDigits : CStr → CStr
  | [] => []
  | d :: ds => d :: (if ds ≠ [] ∧ ds.length % 3 = 0 then ascii "&#8239;" else []) ++ groupDigits ds

/-- `buf_kib`. -/
def kibText (v : ℕ) : CStr :=
  if v < 10240 then natText (v / 1024) ++ ascii "." ++ natText (v % 1024 * 10 / 1024)
  else groupDigits (natText (v / 1024 + if 512 ≤ v % 1024 then 1 else 0))

def peerText (d : MapEntry) : CStr :=
  if d.peer = [] then ascii "&mdash;"
  else if d.peerPort = 0 then d.peer
  else if d.peerPort = 80 then
    ascii "<a class=\"peer\" href=\"http://" ++ d.peer ++ ascii "/\" target=\"_blank\" rel=\"noopener\">" ++
      d.peer ++ ascii "</a>"
  else
    ascii "<a class=\"peer\" href=\"http://" ++ d.peer ++ ascii ":" ++ natText d.peerPort ++
      ascii "/\" target=\"_blank\" rel=\"noopener\">" ++ d.peer ++ ascii "</a>"

def rowHead (port : CStr) (d : MapEntry) : CStr :=
  if d.live then
    ascii "<tr class=\"dev\"><td class=\"lamp\"><span class=\"bulb\"></span></td><td><a href=\"" ++
      (if port ≠ [] then ascii "http:" else []) ++ ascii "//" ++ d.host ++ port ++ ascii "/\">"
  else
    ascii "<tr class=\"dev off\"><td class=\"lamp\"><span class=\"bulb\"></span></td><td><span class=\"nm\">"

/-- A row behind the ID: the address, and of a live one the peer, the ages and the counters. -/
def rowRest (d : MapEntry) : CStr :=
  if d.live then
    d.addrText ++ ascii "</td><td class=\"addr\">" ++ peerText d ++ ascii "</td><td class=\"conn\">" ++
      durText d.since ++ ascii "</td><td>" ++
      (if d.last < 0 then ascii "&mdash;" else durText d.last ++ ascii " ago") ++ ascii "</td><td class=\"hs\">" ++
      durText d.hsAge ++ ascii " ago &middot; " ++ natText d.hs ++ ascii "</td><td class=\"tr\">" ++
      kibText d.rx ++ ascii " / " ++ kibText d.tx ++ ascii "</td></tr>\n"
  else
    (if d.addrText ≠ [] then d.addrText else ascii "&mdash;") ++
      ascii "</td><td class=\"addr\">&mdash;</td><td class=\"conn\">offline</td><td>&mdash;</td>" ++
      ascii "<td class=\"hs\">&mdash;</td><td>&mdash;</td></tr>\n"

/-- A row of `buf_list`. -/
def indexRow (port : CStr) (d : MapEntry) : CStr :=
  rowHead port d ++ htmlText (shownName d) ++
    (if d.live then ascii "</a></td><td class=\"id\">" else ascii "</span></td><td class=\"id\">") ++ d.label ++
    ascii "</td><td class=\"addr\">" ++ rowRest d

/-- `buf_list`. -/
def indexList (cls : String) (es : List MapEntry) (empty : String) (port : CStr) : CStr :=
  ascii "<div class=\"list " ++ ascii cls ++ ascii "\">\n" ++
    if es = [] then ascii "<div class=\"empty\">" ++ ascii empty ++ ascii "</div>\n</div>\n"
    else
      ascii "<div class=\"rack\">\n<table>\n<thead><tr><th></th><th>Name</th><th class=\"id\">ID</th>" ++
        ascii "<th class=\"addr\">Address</th><th class=\"addr\">Peer</th><th class=\"conn\">Connected</th>" ++
        ascii "<th>Last packet</th><th class=\"hs\">Handshake</th><th>RX / TX KiB</th></tr></thead>\n<tbody>\n" ++
        es.flatMap (indexRow port) ++ ascii "</tbody>\n</table>\n</div>\n</div>\n"

/-- The fixed parts of the page: up to its heading, with the style sheet; from its foot on, with the script. -/
structure PageTexts where
  head : CStr
  version : CStr
  foot : CStr

def indexTop (page : PageTexts) (live off nconf nauto : ℕ) : CStr :=
  ascii "<div class=\"sub\">" ++ natText live ++ ascii " online &middot; " ++ natText nconf ++
    ascii " configured</div>\n<div class=\"panel\">\n" ++
    ascii "<span class=\"rivet tl\"></span><span class=\"rivet tr\"></span><span class=\"rivet bl\"></span>" ++
    ascii "<span class=\"rivet br\"></span>\n<div class=\"top\"><span class=\"plate\">Device registry" ++
    ascii "<span class=\"stale-mark\"> &middot; no connection</span></span><span class=\"plate\">camex " ++
    page.version ++ ascii "</span></div>\n<input type=\"radio\" name=\"tab\" class=\"tab\" id=\"tab-conf\"" ++
    (if 0 < nconf ∨ nauto = 0 then ascii " checked" else []) ++
    ascii ">\n<input type=\"radio\" name=\"tab\" class=\"tab\" id=\"tab-auto\"" ++
    (if 0 < nconf ∨ nauto = 0 then [] else ascii " checked") ++
    ascii ">\n<div class=\"tabs\"><label for=\"tab-conf\">Configured <b>" ++ natText nconf ++ ascii "</b>" ++
    (if 0 < off then ascii " &middot; <i>" ++ natText off ++ ascii " offline</i>" else []) ++
    ascii "</label><label for=\"tab-auto\">Auto <b>" ++ natText nauto ++ ascii "</b></label></div>\n"

def linkPort (httpPort : ℤ) : CStr :=
  if 0 < httpPort ∧ httpPort ≠ 80 ∧ httpPort ≤ 65535 then 58 :: natText httpPort.toNat else []

def indexPage (s : Qsort cmpShown) (page : PageTexts) (httpPort : ℤ) (kept : List MapEntry) : CStr × ℕ :=
  let conf := s.sort (kept.filter fun e => e.conf)
  let autos := s.sort (kept.filter fun e => !e.conf)
  let live := kept.countP fun e => e.live
  (page.head ++ indexTop page live (kept.countP fun e => !e.live) conf.length autos.length ++
    indexList "list-conf" conf "No [client ID] blocks in the server\x27s file" (linkPort httpPort) ++
    indexList "list-auto" autos "No auto devices online" (linkPort httpPort) ++ page.foot, live)

/-- `nginx_index_format`: the page and the number of clients online. -/
def nginxIndexFormat (q : Qsort cmpEntry) (s : Qsort cmpShown) (page : PageTexts) (text : Bytes) (domain : CStr)
    (httpPort : ℤ) : Option (CStr × ℕ) :=
  if domain ≠ [] ∧ validHostname domain = false then none
  else some (indexPage s page httpPort (keepOne (parseRecords q domain true text)))

end Camex
