import Camex.ConfigFile

/-!
# Comments and long lines

`config_db_parse_file` reads through a buffer of 512 bytes: a longer line is several lines to it.

* `fileLines`: the lines that it sees, `fileLines_append`: they begin anew behind a newline;
* `configLineOf_blank`: what is skipped;
* `neutral_of_blank`, `blank_of_neutral`: a line may be inserted anywhere when each of its pieces is skipped, and only
  then;
* `taken_short`: a line that fits is taken as one, `not_taken`: one that does not may be split;
* `comments_right`.
-/

namespace Camex

open Lib

/-! ## Lines -/

/-- The lines of a file as the parser sees them. -/
def fileLines (data : Bytes) : List CStr := fgetsLines 511 data.length data

/-- A place between two lines. -/
def LineEnd (data : Bytes) : Prop := data = [] ∨ data.getLast? = some 10

theorem fgets_length {data : Bytes} (h : data ≠ []) :
    0 < (fgets 511 data).length ∧ (fgets 511 data).length ≤ data.length := by
  have hpos : 0 < data.length := List.length_pos_iff.mpr h
  unfold fgets
  rw [List.length_take]
  omega

theorem fgetsLines_fuel {fuel : ℕ} {data : Bytes} (h : data.length ≤ fuel) : fgetsLines 511 fuel data = fileLines data := by
  unfold fileLines
  induction fuel using Nat.strong_induction_on generalizing data with
  | _ fuel ih =>
    by_cases hnil : data = []
    · rw [hnil]
      cases fuel <;> rfl
    · obtain ⟨hpos, hle⟩ := fgets_length hnil
      cases fuel with
      | zero => omega
      | succ fuel =>
        cases hlen : data.length with
        | zero => exact absurd (List.length_eq_zero_iff.mp hlen) hnil
        | succ n =>
          have hrest : (data.drop (fgets 511 data).length).length ≤ n := by
            rw [List.length_drop]
            omega
          unfold fgetsLines
          rw [if_neg hnil, if_neg hnil, ih fuel (by omega) (by omega)]
          by_cases hn : n < fuel + 1
          · rw [ih n hn hrest]
          · omega

theorem fileLines_cons {data : Bytes} (h : data ≠ []) :
    fileLines data = untilNul (fgets 511 data) :: fileLines (data.drop (fgets 511 data).length) := by
  have hpos : 0 < data.length := List.length_pos_iff.mpr h
  obtain ⟨hone, -⟩ := fgets_length h
  conv_lhs => unfold fileLines
  cases hlen : data.length with
  | zero => omega
  | succ n =>
    rw [fgetsLines, if_neg h, fgetsLines_fuel (by rw [List.length_drop]; omega)]

theorem fileLines_nil : fileLines [] = [] := rfl

theorem takeWhile_line (l t : Bytes) :
    (l ++ 10 :: t).takeWhile (fun b => decide (b ≠ 10)) = l.takeWhile fun b => decide (b ≠ 10) := by
  induction l with
  | nil => rfl
  | cons b l ih => rw [List.cons_append, List.takeWhile_cons, List.takeWhile_cons, ih]

/-- A newline ends what `fgets` takes, so it takes nothing from behind one. -/
theorem fgets_append {a : Bytes} (ha : a.getLast? = some 10) (d : Bytes) : fgets 511 (a ++ d) = fgets 511 a := by
  unfold fgets
  by_cases hlen : 511 ≤ a.length
  · have htake : (a ++ d).take 511 = a.take 511 := List.take_append_of_le_length hlen
    rw [htake]
    exact List.take_append_of_le_length (by omega)
  · have htake : (a ++ d).take 511 = a ++ d.take (511 - a.length) := by
      rw [List.take_append, List.take_of_length_le (by omega)]
    have hself : a.take 511 = a := List.take_of_length_le (by omega)
    obtain ⟨l, rfl⟩ := List.getLast?_eq_some_iff.mp ha
    have hline : ((l ++ [(10 : UInt8)]) ++ d.take (511 - (l ++ [10]).length)).takeWhile (fun b : UInt8 => decide (b ≠ 10)) =
        (l ++ [10]).takeWhile fun b => decide (b ≠ 10) := by
      rw [takeWhile_line, List.append_assoc]
      exact takeWhile_line l _
    have hle : ((l ++ [10]).takeWhile fun b : UInt8 => decide (b ≠ 10)).length + 1 ≤ (l ++ [10]).length := by
      have hsub := (List.takeWhile_sublist (fun b : UInt8 => decide (b ≠ 10)) (l := l)).length_le
      rw [takeWhile_line]
      simp only [List.length_append, List.length_singleton]
      omega
    rw [htake, hself, hline]
    exact List.take_append_of_le_length (by omega)

theorem lineEnd_drop {a : Bytes} (ha : LineEnd a) (k : ℕ) : LineEnd (a.drop k) := by
  rcases ha with rfl | ha
  · exact Or.inl List.drop_nil
  · by_cases hk : k < a.length
    · refine Or.inr ?_
      rw [List.getLast?_drop, if_neg (by omega)]
      exact ha
    · exact Or.inl (List.drop_eq_nil_of_le (by omega))

/-- **Lines begin anew behind a newline.** -/
theorem fileLines_append {a : Bytes} (ha : LineEnd a) (d : Bytes) : fileLines (a ++ d) = fileLines a ++ fileLines d := by
  induction hn : a.length using Nat.strong_induction_on generalizing a with
  | _ n ih =>
    by_cases hnil : a = []
    · rw [hnil]
      rfl
    · obtain ⟨hpos, hle⟩ := fgets_length hnil
      have hsame := fgets_append (ha.resolve_left hnil) d
      have hrest := ih (a.drop (fgets 511 a).length).length (by rw [List.length_drop]; omega) (lineEnd_drop ha _) rfl
      rw [fileLines_cons hnil, fileLines_cons (by simp [hnil]), hsame, List.drop_append_of_le_length hle, hrest]
      rfl

/-- A line without its newline. -/
structure Line (l : Bytes) : Prop where
  noNewline : (10 : UInt8) ∉ l
  noNul : (0 : UInt8) ∉ l

theorem untilNul_line {l : Bytes} (h : (0 : UInt8) ∉ l) : untilNul l = l := by
  refine List.takeWhile_eq_self_iff.mpr fun b hb => ?_
  rw [decide_eq_true_eq]
  rintro rfl
  exact h hb

theorem takeWhile_noNewline {l : Bytes} (h : (10 : UInt8) ∉ l) : (l.takeWhile fun b => decide (b ≠ 10)) = l := by
  refine List.takeWhile_eq_self_iff.mpr fun b hb => ?_
  rw [decide_eq_true_eq]
  rintro rfl
  exact h hb

theorem fileLines_full {l : Bytes} (hl : Line l) (hlen : l.length = 511) (d : Bytes) :
    fileLines (l ++ d) = l :: fileLines d := by
  have htake : (l ++ d).take 511 = l := List.take_left' hlen
  have hfgets : fgets 511 (l ++ d) = l := by
    unfold fgets
    rw [htake, takeWhile_noNewline hl.noNewline, hlen, Nat.min_eq_left (by decide), htake]
  have hne : l ++ d ≠ [] := by
    intro hnil
    rw [List.append_eq_nil_iff] at hnil
    rw [hnil.1] at hlen
    cases hlen
  rw [fileLines_cons hne, hfgets, untilNul_line hl.noNul, List.drop_left]

theorem fileLines_line {l : Bytes} (hl : Line l) (hlen : l.length ≤ 510) : fileLines (l ++ [10]) = [l ++ [10]] := by
  have htake : (l ++ [10]).take 511 = l ++ [10] := List.take_of_length_le (by simp; omega)
  have hfgets : fgets 511 (l ++ [10]) = l ++ [10] := by
    unfold fgets
    rw [htake, takeWhile_line, takeWhile_noNewline hl.noNewline]
    exact List.take_of_length_le (by simp; omega)
  have hnul : (0 : UInt8) ∉ l ++ [10] := by
    intro h
    rcases List.mem_append.mp h with h | h
    · exact hl.noNul h
    · cases List.mem_singleton.mp h
  rw [fileLines_cons (by simp), hfgets, untilNul_line hnul, List.drop_length]
  rfl

theorem mem_fileLines {data : Bytes} {text : CStr} (ht : text ∈ fileLines data) {b : UInt8} (hb : b ∈ text) :
    b ∈ data := by
  induction hn : data.length using Nat.strong_induction_on generalizing data with
  | _ n ih =>
    by_cases hnil : data = []
    · rw [hnil] at ht
      cases ht
    · obtain ⟨hpos, hle⟩ := fgets_length hnil
      rw [fileLines_cons hnil] at ht
      rcases List.mem_cons.mp ht with rfl | ht
      · exact List.mem_of_mem_take ((List.takeWhile_sublist _).subset hb)
      · exact List.mem_of_mem_drop (ih _ (by rw [List.length_drop]; omega) ht rfl)

/-! ## What is skipped -/

def firstByte (text : CStr) : Option UInt8 := (text.dropWhile isSpace).head?

theorem trimWhitespace_head (text : CStr) : (trimWhitespace text).head? = firstByte text := by
  unfold trimWhitespace firstByte
  cases ht : text.dropWhile isSpace with
  | nil => rfl
  | cons b t =>
    have hb : isSpace b = false := by
      have hhead := List.head?_dropWhile_not isSpace text
      rw [ht] at hhead
      exact hhead
    rw [List.reverse_cons, List.dropWhile_append, List.dropWhile_cons, hb]
    split <;> simp

theorem sectionLine_ne_blank (content : CStr) : sectionLine content ≠ .blank := by
  unfold sectionLine
  split
  · exact nofun
  · split
    · exact nofun
    · split
      · split <;> exact nofun
      · exact nofun

theorem configLineOf_blank {text : CStr} :
    configLineOf text = .blank ↔ ∀ b ∈ firstByte text, b = 35 ∨ b = 59 := by
  rw [← trimWhitespace_head]
  unfold configLineOf
  dsimp only
  generalize trimWhitespace text = line
  constructor
  · intro h
    split at h
    · rename_i hblank
      intro b hb
      rcases hblank with rfl | hblank | hblank
      · cases hb
      · exact Or.inl (Option.some.inj (hb.symm.trans hblank))
      · exact Or.inr (Option.some.inj (hb.symm.trans hblank))
    · exfalso
      split at h
      · split at h
        · cases h
        · exact sectionLine_ne_blank _ h
      · split at h
        · cases h
        · split at h <;> cases h
  · intro h
    rw [if_pos]
    cases line with
    | nil => exact Or.inl rfl
    | cons b line =>
      rcases h b rfl with rfl | rfl
      · exact Or.inr (Or.inl rfl)
      · exact Or.inr (Or.inr rfl)

theorem trimWhitespace_newline (text : CStr) : trimWhitespace (text ++ [10]) = trimWhitespace text := by
  have hspace : isSpace 10 = true := by decide
  unfold trimWhitespace
  rw [List.dropWhile_append]
  cases ht : text.dropWhile isSpace with
  | nil =>
    rw [if_pos (show ([] : CStr).isEmpty = true from rfl), List.dropWhile_cons, if_pos hspace]
    rfl
  | cons b t =>
    rw [if_neg (by simp), List.reverse_append, List.reverse_singleton, List.singleton_append, List.dropWhile_cons,
      if_pos hspace]

theorem configLineOf_newline (text : CStr) : configLineOf (text ++ [10]) = configLineOf text := by
  unfold configLineOf
  rw [trimWhitespace_newline]

/-! ## The parser over lines -/

section Parser

variable {S : Type} (ops : ClientStore S)

theorem configLines_cons (st : Loading S) (text : CStr) (texts : List CStr) : configLines ops st (text :: texts) =
    if (configLine ops st text).2 then configLines ops (configLine ops st text).1 texts
    else configLine ops st text := by
  conv_lhs => unfold configLines
  cases configLine ops st text with
  | mk st' ok => cases ok <;> rfl

theorem configLines_append (st : Loading S) (xs ys : List CStr) : configLines ops st (xs ++ ys) =
    if (configLines ops st xs).2 then configLines ops (configLines ops st xs).1 ys else configLines ops st xs := by
  induction xs generalizing st with
  | nil => rfl
  | cons text xs ih =>
    rw [List.cons_append, configLines_cons, configLines_cons, ih]
    by_cases hok : (configLine ops st text).2 = true
    · rw [if_pos hok, if_pos hok]
    · rw [if_neg hok, if_neg hok, if_neg hok]

theorem configLine_blank {st : Loading S} {text : CStr} (h : configLineOf text = .blank) :
    configLine ops st text = (st, true) := by
  unfold configLine
  rw [h]

theorem configLines_blank {st : Loading S} {texts : List CStr} (h : ∀ text ∈ texts, configLineOf text = .blank) :
    configLines ops st texts = (st, true) := by
  induction texts with
  | nil => rfl
  | cons text texts ih =>
    obtain ⟨htext, hrest⟩ := List.forall_mem_cons.mp h
    unfold configLines
    rw [configLine_blank ops htext]
    exact ih hrest

/-- `config_db_parse_file`, given the lines. -/
def parseLines (store : S) (texts : List CStr) : Loading S × Bool :=
  match configLines ops (.start store) texts with
  | (st, false) => (st, false)
  | (st, true) =>
    match ops.indexIps st.store with
    | (store, false) => ({ st with store := store }, false)
    | (store, true) => ({ st with store := store, loaded := true }, true)

theorem configDbParseFile_lines (store : S) (data : Bytes) :
    configDbParseFile ops store (.content data) = parseLines ops store (fileLines data) := rfl

/-- Lines that are skipped may stand anywhere. -/
theorem parseLines_blank (store : S) (xs : List CStr) {blanks : List CStr}
    (h : ∀ text ∈ blanks, configLineOf text = .blank) (ys : List CStr) :
    parseLines ops store (xs ++ blanks ++ ys) = parseLines ops store (xs ++ ys) := by
  have hsame : ∀ st, configLines ops st (xs ++ blanks ++ ys) = configLines ops st (xs ++ ys) := by
    intro st
    rw [List.append_assoc, configLines_append ops st xs (blanks ++ ys), configLines_append ops st xs ys,
      configLines_append ops _ blanks, configLines_blank ops h]
    rfl
  unfold parseLines
  rw [hsame]

theorem parseLines_newline (store : S) (xs : List CStr) (l : CStr) (ys : List CStr) :
    parseLines ops store (xs ++ (l ++ [10]) :: ys) = parseLines ops store (xs ++ l :: ys) := by
  have hline : ∀ st, configLine ops st (l ++ [10]) = configLine ops st l := by
    intro st
    unfold configLine
    rw [configLineOf_newline]
  have hsame : ∀ st, configLines ops st (xs ++ (l ++ [10]) :: ys) = configLines ops st (xs ++ l :: ys) := by
    intro st
    rw [configLines_append, configLines_append, configLines_cons, configLines_cons, hline]
  unfold parseLines
  rw [hsame]

end Parser

/-! ## Comments -/

def pieces (c : Bytes) : List CStr := fileLines (c ++ [10])

/-- A line that is blank or a comment. -/
structure CommentLine (c : Bytes) : Prop extends Line c where
  comment : ∀ b ∈ firstByte c, b = 35 ∨ b = 59

theorem pieces_short {l : Bytes} (hl : Line l) (hlen : l.length ≤ 511) : pieces l = [l ++ [10]] ∨ pieces l = [l, [10]] := by
  by_cases h : l.length ≤ 510
  · exact Or.inl (fileLines_line hl h)
  · refine Or.inr ?_
    unfold pieces
    rw [fileLines_full hl (by omega)]
    rfl

/-- **A comment that fits the buffer is skipped.** -/
theorem pieces_comment {c : Bytes} (hc : CommentLine c) (hlen : c.length ≤ 511) :
    ∀ text ∈ pieces c, configLineOf text = .blank := by
  have hblank : configLineOf c = .blank := configLineOf_blank.mpr hc.comment
  have hnewline : configLineOf (c ++ [10]) = .blank := (configLineOf_newline c).trans hblank
  rcases pieces_short hc.toLine hlen with h | h <;> rw [h]
  · exact List.forall_mem_singleton.mpr hnewline
  · refine List.forall_mem_cons.mpr ⟨hblank, List.forall_mem_singleton.mpr ?_⟩
    decide

/-- What `config_db_load_file` leaves: is the file accepted, and `server_db`. -/
def loadedDb (data : Bytes) : Bool × List ClientSection × Profile × ServerSection × Bool :=
  let r := configDbParseFile listStore [] (.content data)
  (r.2, r.1.store, r.1.defaults, r.1.globals, r.1.loaded)

theorem fileLines_inserted {a : Bytes} (ha : LineEnd a) (c b : Bytes) :
    fileLines (a ++ c ++ 10 :: b) = fileLines a ++ pieces c ++ fileLines b := by
  have hend : LineEnd (c ++ [10]) := Or.inr (by simp)
  have hsplit : a ++ c ++ 10 :: b = a ++ ((c ++ [10]) ++ b) := by simp
  rw [hsplit, fileLines_append ha, fileLines_append hend, List.append_assoc]
  rfl

/-- An inserted line changes nothing when all its pieces are skipped. -/
theorem neutral_of_blank {c : Bytes} (h : ∀ text ∈ pieces c, configLineOf text = .blank) {a : Bytes} (ha : LineEnd a)
    (b : Bytes) : loadedDb (a ++ c ++ 10 :: b) = loadedDb (a ++ b) := by
  have hparse : configDbParseFile listStore [] (.content (a ++ c ++ 10 :: b)) =
      configDbParseFile listStore [] (.content (a ++ b)) := by
    rw [configDbParseFile_lines, configDbParseFile_lines, fileLines_inserted ha, fileLines_append ha,
      parseLines_blank listStore [] _ h]
  unfold loadedDb
  rw [hparse]

theorem configValue_current {S : Type} (ops : ClientStore S) (st : Loading S) (key value : CStr) :
    (configValue ops st key value).1.current = st.current := by
  unfold configValue
  split
  · rfl
  · split <;> rfl
  · split
    · rfl
    · split <;> rfl
  · rfl

/-- A file is still before its first section when all its lines were skipped. -/
theorem blank_of_none {S : Type} (ops : ClientStore S) {st : Loading S} {texts : List CStr}
    (hok : (configLines ops st texts).2 = true) (hnone : (configLines ops st texts).1.current = .none) :
    st.current = .none ∧ ∀ text ∈ texts, configLineOf text = .blank := by
  induction texts generalizing st with
  | nil => exact ⟨hnone, fun text ht => nomatch ht⟩
  | cons text texts ih =>
    rw [configLines_cons] at hok hnone
    by_cases hline : (configLine ops st text).2 = true
    · rw [if_pos hline] at hok hnone
      obtain ⟨hcurrent, hrest⟩ := ih hok hnone
      unfold configLine at hline hcurrent
      cases hform : configLineOf text with
      | blank =>
        rw [hform] at hcurrent
        exact ⟨hcurrent, List.forall_mem_cons.mpr ⟨hform, hrest⟩⟩
      | bad => rw [hform] at hline; cases hline
      | server => rw [hform] at hcurrent; cases hcurrent
      | defaults => rw [hform] at hcurrent; cases hcurrent
      | client clientId =>
        rw [hform] at hline hcurrent
        dsimp only at hline hcurrent
        cases hslot : ops.getSlot st.store clientId with
        | mk store slot =>
          rw [hslot] at hline hcurrent
          cases slot with
          | none => cases hline
          | some slot => cases hcurrent
      | value key value =>
        rw [hform] at hline hcurrent
        dsimp only at hline hcurrent
        rw [configValue_current] at hcurrent
        unfold configValue at hline
        rw [hcurrent] at hline
        cases hline
    · rw [if_neg hline] at hok
      exact absurd hok hline

def Opened (st : Loading (List ClientSection)) : Prop := ∀ slot, st.current = .client slot → slot < st.store.length

theorem listStore_getSlot {cs cs' : List ClientSection} {clientId : CStr} {slot : Option ℕ}
    (h : listStore.getSlot cs clientId = (cs', slot)) : cs.length ≤ cs'.length ∧ ∀ i ∈ slot, i < cs'.length := by
  unfold listStore at h
  dsimp only at h
  cases hfind : cs.findIdx? fun c => c.active && strcaseeq c.clientId clientId with
  | some i =>
    rw [hfind] at h
    obtain ⟨rfl, rfl⟩ := Prod.mk.inj h
    refine ⟨le_rfl, fun j hj => ?_⟩
    rw [← Option.some.inj hj]
    exact (List.findIdx?_eq_some_iff_getElem.mp hfind).1
  | none =>
    rw [hfind] at h
    dsimp only at h
    split at h
    · obtain ⟨rfl, rfl⟩ := Prod.mk.inj h
      exact ⟨le_rfl, fun j hj => nomatch hj⟩
    · obtain ⟨rfl, rfl⟩ := Prod.mk.inj h
      refine ⟨by simp, fun j hj => ?_⟩
      rw [← Option.some.inj hj]
      simp

theorem listStore_change (cs : List ClientSection) (slot : ℕ) (f : ClientSection → Option ClientSection) :
    (listStore.change cs slot f).1.length = cs.length := by
  unfold listStore
  dsimp only
  split
  · rfl
  · split
    · rfl
    · exact List.length_set

theorem configValue_opened {st : Loading (List ClientSection)} (h : Opened st) (key value : CStr) :
    Opened (configValue listStore st key value).1 := by
  have hlen : (configValue listStore st key value).1.store.length = st.store.length := by
    unfold configValue
    split
    · rfl
    · split <;> rfl
    · split
      · rfl
      · split <;> rfl
    · exact listStore_change _ _ _
  intro slot hslot
  rw [configValue_current] at hslot
  rw [hlen]
  exact h slot hslot

theorem configLine_opened (st : Loading (List ClientSection)) (text : CStr) (h : Opened st) :
    Opened (configLine listStore st text).1 := by
  unfold configLine
  cases configLineOf text with
  | blank => exact h
  | bad => exact h
  | server => exact fun slot hslot => nomatch hslot
  | defaults => exact fun slot hslot => nomatch hslot
  | value key value => exact configValue_opened h key value
  | client clientId =>
    dsimp only
    cases hget : listStore.getSlot st.store clientId with
    | mk store slot =>
      obtain ⟨hlen, hslot⟩ := listStore_getSlot hget
      cases slot with
      | none => exact fun i hi => lt_of_lt_of_le (h i hi) hlen
      | some slot =>
        intro i hi
        obtain rfl : slot = i := Section.client.inj hi
        exact hslot slot rfl

/-- What is known of a file whose lines are all taken. -/
theorem loadedDb_lines (data : Bytes) : loadedDb data =
    ((configLines listStore (.start []) (fileLines data)).2,
      (configLines listStore (.start []) (fileLines data)).1.store,
      (configLines listStore (.start []) (fileLines data)).1.defaults,
      (configLines listStore (.start []) (fileLines data)).1.globals,
      (configLines listStore (.start []) (fileLines data)).2 ||
        (configLines listStore (.start []) (fileLines data)).1.loaded) := by
  unfold loadedDb
  rw [configDbParseFile_lines]
  unfold parseLines
  cases configLines listStore (.start []) (fileLines data) with
  | mk st ok => cases ok <;> rfl

/-- **And only then**: an empty file shows a piece that is refused or opens a `[client ID]` section, a value without a
section one that opens another. -/
theorem blank_of_neutral {c : Bytes}
    (h : ∀ a b, LineEnd a → loadedDb (a ++ c ++ 10 :: b) = loadedDb (a ++ b)) :
    ∀ text ∈ pieces c, configLineOf text = .blank := by
  have hempty := h [] [] (Or.inl rfl)
  have hvalue := h [] (ascii "mtu=1400\n") (Or.inl rfl)
  rw [loadedDb_lines, loadedDb_lines, fileLines_inserted (Or.inl rfl)] at hempty hvalue
  have hnil : fileLines [] = [] := rfl
  have hmtu : fileLines (ascii "mtu=1400\n") = [ascii "mtu=1400\n"] := by decide +kernel
  simp only [List.nil_append, List.append_nil, hnil, hmtu] at hempty hvalue
  have hopened := @configLines_invariant _ listStore Opened configLine_opened (.start [])
    (fun slot hslot => nomatch hslot) (pieces c)
  have hrefused := (Prod.mk.inj hvalue).1
  rw [configLines_append] at hrefused
  have hkept := @blank_of_none _ listStore (.start []) (pieces c)
  generalize configLines listStore (.start []) (pieces c) = r at hempty hrefused hopened hkept
  obtain ⟨⟨store, defaults, globals, current, loaded⟩, ok⟩ := r
  obtain ⟨hok, hrest⟩ := Prod.mk.inj hempty
  obtain ⟨hstore, hrest⟩ := Prod.mk.inj hrest
  obtain ⟨hdefaults, hrest⟩ := Prod.mk.inj hrest
  obtain ⟨hglobals, -⟩ := Prod.mk.inj hrest
  obtain rfl : ok = true := hok
  obtain rfl : store = [] := hstore
  obtain rfl : defaults = .empty := hdefaults
  obtain rfl : globals = .reset := hglobals
  cases current with
  | none => exact (hkept rfl rfl).2
  | client slot => exact absurd (hopened slot rfl) (Nat.not_lt_zero slot)
  | server =>
    have htaken : (configLines listStore (⟨[], .empty, .reset, .server, loaded⟩ : Loading _)
        [ascii "mtu=1400\n"]).2 = true := by
      cases loaded <;> decide +kernel
    exact absurd (htaken.symm.trans hrefused) (by decide +kernel)
  | defaults =>
    have htaken : (configLines listStore (⟨[], .empty, .reset, .defaults, loaded⟩ : Loading _)
        [ascii "mtu=1400\n"]).2 = true := by
      cases loaded <;> decide +kernel
    exact absurd (htaken.symm.trans hrefused) (by decide +kernel)

/-! ## Lines that are no comments -/

/-- A section line or a value. -/
structure ValueLine (l : Bytes) : Prop extends Line l where
  value : ∃ b, firstByte l = some b ∧ b ≠ 35 ∧ b ≠ 59

/-- A line is taken as one, or the file is refused. -/
def TakenAsOne (a l b : Bytes) : Prop :=
  (configDbParseFile listStore [] (.content (a ++ l ++ 10 :: b))).2 = false ∨
    configDbParseFile listStore [] (.content (a ++ l ++ 10 :: b)) =
      parseLines listStore [] (fileLines a ++ l :: fileLines b)

/-- **A line that fits the buffer is taken as one.** -/
theorem taken_short {l : Bytes} (hl : Line l) (hlen : l.length ≤ 511) {a : Bytes} (ha : LineEnd a) (b : Bytes) :
    TakenAsOne a l b := by
  refine Or.inr ?_
  rw [configDbParseFile_lines, fileLines_inserted ha]
  rcases pieces_short hl hlen with h | h <;> rw [h]
  · rw [List.append_assoc]
    exact parseLines_newline listStore [] _ l _
  · have hsplit : fileLines a ++ [l, [10]] ++ fileLines b = (fileLines a ++ [l]) ++ [[10]] ++ fileLines b := by simp
    rw [hsplit, parseLines_blank listStore [] _ (List.forall_mem_singleton.mpr (by decide))]
    simp

/-- The first buffer of such a line. -/
def splitHead : Bytes := ascii "psk=a" ++ List.replicate 506 32

/-- A key that seems to be followed by a comment, which begins where the buffer ends. -/
def splitLine (m : ℕ) : Bytes := splitHead ++ List.replicate m 35

theorem splitLine_length (m : ℕ) : (splitLine m).length = 511 + m := by
  have hhead : splitHead.length = 511 := by decide +kernel
  unfold splitLine
  rw [List.length_append, hhead, List.length_replicate]

theorem splitHead_line : Line splitHead := by
  constructor <;> decide +kernel

theorem splitLine_value (m : ℕ) : ValueLine (splitLine m) := by
  have hother : ∀ b : UInt8, b ≠ 35 → b ∉ splitHead → b ∉ splitLine m := by
    intro b hb hhead h
    rcases List.mem_append.mp h with h | h
    · exact hhead h
    · exact hb (List.eq_of_mem_replicate h)
  exact ⟨⟨hother 10 (by decide) splitHead_line.noNewline, hother 0 (by decide) splitHead_line.noNul⟩,
    112, rfl, by decide, by decide⟩

theorem trimWhitespace_same {b d : UInt8} {t l : Bytes} (hb : isSpace b = false) (hd : isSpace d = false)
    (h : b :: t = l ++ [d]) : trimWhitespace (b :: t) = b :: t := by
  unfold trimWhitespace
  rw [List.dropWhile_cons, hb, if_neg Bool.false_ne_true, h, List.reverse_append, List.reverse_singleton,
    List.singleton_append, List.dropWhile_cons, hd, if_neg Bool.false_ne_true, List.reverse_cons, List.reverse_reverse]

theorem splitLine_refused {m : ℕ} (hm : 0 < m) {st : Loading (List ClientSection)} (hst : st.current = .defaults) :
    (configLine listStore st (splitLine m)).2 = false := by
  obtain ⟨k, rfl⟩ : ∃ k, m = k + 1 := ⟨m - 1, by omega⟩
  have hlast : splitLine (k + 1) = splitLine k ++ [35] := by
    unfold splitLine
    rw [List.replicate_succ', List.append_assoc]
  have hline : splitLine (k + 1) = 112 :: (splitLine (k + 1)).tail := rfl
  have hvalue : (splitLine (k + 1)).drop 4 = 97 :: ((splitLine (k + 1)).drop 5) := rfl
  have hvalueLast : (splitLine (k + 1)).drop 4 = (splitLine k).drop 4 ++ [35] := by
    rw [hlast, List.drop_append_of_le_length (by rw [splitLine_length]; omega)]
  have htrim : trimWhitespace (splitLine (k + 1)) = splitLine (k + 1) := by
    rw [hline]
    exact @trimWhitespace_same 112 35 _ (splitLine k) (by decide) (by decide) (hline.symm.trans hlast)
  have htrimValue : trimWhitespace ((splitLine (k + 1)).drop 4) = (splitLine (k + 1)).drop 4 := by
    rw [hvalue]
    exact @trimWhitespace_same 97 35 _ ((splitLine k).drop 4) (by decide) (by decide) (hvalue.symm.trans hvalueLast)
  have hafter : afterByte 61 (splitLine (k + 1)) = some ((splitLine (k + 1)).drop 4) := rfl
  have hbefore : beforeByte 61 (splitLine (k + 1)) = ascii "psk" := rfl
  have hform : configLineOf (splitLine (k + 1)) = .value (ascii "psk") ((splitLine (k + 1)).drop 4) := by
    have hkey : trimWhitespace (ascii "psk") = ascii "psk" := by decide
    unfold configLineOf
    dsimp only
    rw [htrim, hafter, hbefore]
    dsimp only
    rw [htrimValue, hkey, if_neg (by rw [hline]; simp), if_neg (by rw [hline]; simp), if_neg (by rw [hvalue]; simp [ascii])]
  have hlong : configDbApplyKv st.defaults (ascii "psk") ((splitLine (k + 1)).drop 4) = none := by
    have hcopy : copyOption 128 ((splitLine (k + 1)).drop 4) = none := by
      unfold copyOption
      rw [if_pos (Or.inr (by rw [List.length_drop, splitLine_length]; omega))]
    unfold configDbApplyKv
    rw [if_neg (by decide), if_neg (by decide), if_neg (by decide), if_neg (by decide), if_pos rfl, hcopy]
    rfl
  unfold configLine
  rw [hform]
  dsimp only
  unfold configValue
  rw [hst]
  dsimp only
  rw [if_neg (by decide), hlong]

theorem hashes_blank (m : ℕ) : ∀ text ∈ fileLines (List.replicate m 35 ++ [10]), configLineOf text = .blank := by
  intro text ht
  refine configLineOf_blank.mpr fun b hb => Or.inl ?_
  have hmem : b ∈ text := (List.dropWhile_sublist _).subset (List.mem_of_mem_head? hb)
  have hspace : isSpace b = false := by
    have hhead := List.head?_dropWhile_not isSpace text
    rw [show (text.dropWhile isSpace).head? = some b from hb] at hhead
    exact hhead
  rcases List.mem_append.mp (mem_fileLines ht hmem) with h | h
  · exact List.eq_of_mem_replicate h
  · rw [List.mem_singleton.mp h] at hspace
    exact absurd hspace (by decide)

/-- **A longer line may be split** where it should be refused. -/
theorem not_taken {m : ℕ} (hm : 0 < m) : ¬ TakenAsOne (ascii "[defaults]\n") (splitLine m) [] := by
  have hhead : splitHead.length = 511 := by decide +kernel
  have hdefaults : fileLines (ascii "[defaults]\n") = [ascii "[defaults]\n"] := by decide +kernel
  have hstart : (configLines listStore (.start []) [ascii "[defaults]\n"]).2 = true ∧
      (configLines listStore (.start []) [ascii "[defaults]\n"]).1.current = .defaults := by decide +kernel
  have htaken : (configLines listStore (.start []) [ascii "[defaults]\n", splitHead]).2 = true := by decide +kernel
  have hpieces : pieces (splitLine m) = splitHead :: fileLines (List.replicate m 35 ++ [10]) := by
    unfold pieces splitLine
    rw [List.append_assoc, fileLines_full splitHead_line hhead]
  have hsplit : fileLines (ascii "[defaults]\n" ++ splitLine m ++ 10 :: []) =
      [ascii "[defaults]\n", splitHead] ++ fileLines (List.replicate m 35 ++ [10]) := by
    rw [fileLines_inserted (Or.inr rfl), hdefaults, hpieces, fileLines_nil, List.append_nil]
    rfl
  have hresult : ∀ texts, (parseLines listStore [] texts).2 = (configLines listStore (.start []) texts).2 := by
    intro texts
    unfold parseLines
    cases configLines listStore (.start []) texts with
    | mk st ok => cases ok <;> rfl
  have haccepted : (configDbParseFile listStore [] (.content (ascii "[defaults]\n" ++ splitLine m ++ 10 :: []))).2 =
      true := by
    rw [configDbParseFile_lines, hresult, hsplit, configLines_append, if_pos htaken,
      configLines_blank listStore (hashes_blank m)]
  have hwhole : (parseLines listStore [] (fileLines (ascii "[defaults]\n") ++ splitLine m :: fileLines [])).2 = false := by
    have hrefused := splitLine_refused hm hstart.2
    rw [hresult, hdefaults, fileLines_nil, configLines_append, if_pos hstart.1, configLines_cons,
      if_neg (by rw [hrefused]; exact Bool.false_ne_true)]
    exact hrefused
  rintro (hrefused | hsame)
  · exact absurd (haccepted.symm.trans hrefused) (by decide)
  · rw [hsame, hwhole] at haccepted
    cases haccepted

/-! ## Both -/

/-- An inserted line is neutral when each of its pieces is skipped; a line that is no comment is taken as one, or the
file refused, when it fits the buffer. -/
structure CommentsRight (c : Bytes) (n : ℕ) : Prop where
  comment : CommentLine c → ((∀ a b, LineEnd a → loadedDb (a ++ c ++ 10 :: b) = loadedDb (a ++ b)) ↔
    ∀ text ∈ pieces c, configLineOf text = .blank)
  short : CommentLine c → c.length ≤ 511 → ∀ text ∈ pieces c, configLineOf text = .blank
  line : (∀ l, l.length = n → ValueLine l → ∀ a b, LineEnd a → TakenAsOne a l b) ↔ n ≤ 511

/-- **Comments and long lines**: for every line that is inserted and every length of the others. -/
theorem comments_right (c : Bytes) (n : ℕ) : CommentsRight c n := by
  refine ⟨fun hc => ⟨blank_of_neutral, fun hblank a b ha => neutral_of_blank hblank ha b⟩,
    fun hc hlen => pieces_comment hc hlen, ⟨fun h => ?_, fun hn l hlen hl a b ha => ?_⟩⟩
  · by_contra hlong
    have hlen : (splitLine (n - 511)).length = n := by
      rw [splitLine_length]
      omega
    exact not_taken (by omega) (h _ hlen (splitLine_value _) _ [] (Or.inr rfl))
  · exact taken_short hl.toLine (by omega) ha b

/-- A comment of 512 bytes, the last of which is a line of its own. -/
def longComment : Bytes := List.replicate 511 35 ++ [120]

theorem not_comments : ¬ ((∀ c, CommentLine c → ∀ a b, LineEnd a → loadedDb (a ++ c ++ 10 :: b) = loadedDb (a ++ b)) ∧
    ∀ l, ValueLine l → ∀ a b, LineEnd a → TakenAsOne a l b) := by
  rintro ⟨hcomment, -⟩
  have hline : CommentLine longComment := by
    refine ⟨⟨by decide +kernel, by decide +kernel⟩, fun b hb => ?_⟩
    have hfirst : firstByte longComment = some 35 := by decide +kernel
    rw [hfirst] at hb
    exact Or.inl (Option.mem_some.mp hb).symm
  have hsame := congrArg Prod.fst (hcomment longComment hline [] [] (Or.inl rfl))
  have hrefused : (loadedDb ([] ++ longComment ++ 10 :: [])).1 = false := by decide +kernel
  have hempty : (loadedDb ([] ++ [])).1 = true := by decide +kernel
  rw [hrefused, hempty] at hsame
  cases hsame

end Camex
