import Camex.Safety.ListedTexts

/-!
# What the fingerprint covers

The fields of the clients and of the sections are mixed with the separator `0xff` behind each. An address and a port can
have that byte too, and a section has other fields than a client; still the bytes can be read in one way only, as long
as no ID has the separator.

* `ClientRow`, `SectionRow`: the fields as bytes; `rows_unique`: from the bytes back to the rows;
* `misread`, `shifted`: no section is read where a client was written, and no part of a row as a row;
* `stream_covers_listing`: equal bytes, equal lists; `stream_not_covering`: an ID with the separator.
-/

namespace Camex

open Lib

/-! ## Rows of bytes -/

/-- Four bytes. -/
structure Quad where
  a : UInt8
  b : UInt8
  c : UInt8
  d : UInt8
  deriving DecidableEq

/-- Bytes without a NUL and without the separator. -/
def PlainText (f : Bytes) : Prop := ∀ b ∈ f, b ≠ 0 ∧ b ≠ 255

/-- The fields of a client. -/
structure ClientRow where
  id : Bytes
  ip : Quad
  peer : Quad
  port : Quad
  name : Bytes

/-- The fields of a section. -/
structure SectionRow where
  id : Bytes
  has : UInt8
  ip : Quad
  name : Bytes

/-- A port in memory: below `2 ^ 16`, or -1. -/
def PortQuad (q : Quad) : Prop := q.c = 0 ∧ q.d = 0 ∨ q = ⟨255, 255, 255, 255⟩

structure ClientRow.Ok (r : ClientRow) : Prop where
  id : PlainText r.id
  idSome : r.id ≠ []
  port : PortQuad r.port
  name : PlainText r.name

structure SectionRow.Ok (r : SectionRow) : Prop where
  id : PlainText r.id
  idSome : r.id ≠ []
  has : r.has ≠ 255
  name : PlainText r.name

def ClientRow.write (r : ClientRow) (rest : Bytes) : Bytes :=
  r.id ++ 255 :: r.ip.a :: r.ip.b :: r.ip.c :: r.ip.d :: 255 :: r.peer.a :: r.peer.b :: r.peer.c :: r.peer.d :: 255 ::
    r.port.a :: r.port.b :: r.port.c :: r.port.d :: 255 :: (r.name ++ 255 :: rest)

def SectionRow.write (r : SectionRow) (rest : Bytes) : Bytes :=
  r.id ++ 255 :: r.has :: 255 :: r.ip.a :: r.ip.b :: r.ip.c :: r.ip.d :: 255 :: (r.name ++ 255 :: rest)

def sectionRows (ss : List SectionRow) : Bytes := ss.foldr SectionRow.write []

def clientRows (cs : List ClientRow) (rest : Bytes) : Bytes := cs.foldr ClientRow.write rest

/-! ## Reading them back -/

theorem text_unique {f g r s : Bytes} (hf : PlainText f) (hg : PlainText g) (h : f ++ 255 :: r = g ++ 255 :: s) :
    f = g ∧ r = s := by
  induction f generalizing g with
  | nil =>
    cases g with
    | nil => exact ⟨rfl, (List.cons.inj h).2⟩
    | cons y g => exact absurd (List.cons.inj h).1.symm (hg y (List.mem_cons_self ..)).2
  | cons x f ih =>
    cases g with
    | nil => exact absurd (List.cons.inj h).1 (hf x (List.mem_cons_self ..)).2
    | cons y g =>
      obtain ⟨rfl, hrest⟩ := List.cons.inj h
      obtain ⟨rfl, rfl⟩ := ih (fun b hb => hf b (List.mem_cons_of_mem _ hb))
        (fun b hb => hg b (List.mem_cons_of_mem _ hb)) hrest
      exact ⟨rfl, rfl⟩

theorem PlainText.head {b : UInt8} {f : Bytes} (h : PlainText (b :: f)) : b ≠ 0 ∧ b ≠ 255 := h b (List.mem_cons_self ..)

theorem PlainText.tail {b : UInt8} {f : Bytes} (h : PlainText (b :: f)) : PlainText f :=
  fun c hc => h c (List.mem_cons_of_mem _ hc)

theorem sectionRows_head {ss : List SectionRow} (hs : ∀ u ∈ ss, u.Ok) {b : UInt8} {rest : Bytes}
    (h : sectionRows ss = b :: rest) : b ≠ 0 ∧ b ≠ 255 := by
  cases ss with
  | nil => cases h
  | cons u us =>
    have hu := hs u (List.mem_cons_self ..)
    obtain ⟨x, t, hid⟩ := List.exists_cons_of_ne_nil hu.idSome
    have hx : PlainText (x :: t) := hid ▸ hu.id
    rw [sectionRows, List.foldr_cons, SectionRow.write, hid, List.cons_append, List.cons.injEq] at h
    rw [← h.1]
    exact hx.head

theorem clientRows_head {cs : List ClientRow} {ss : List SectionRow} (hc : ∀ r ∈ cs, r.Ok) (hs : ∀ u ∈ ss, u.Ok)
    {b : UInt8} {rest : Bytes} (h : clientRows cs (sectionRows ss) = b :: rest) : b ≠ 0 ∧ b ≠ 255 := by
  cases cs with
  | nil => exact sectionRows_head hs h
  | cons r rs =>
    have hr := hc r (List.mem_cons_self ..)
    obtain ⟨x, t, hid⟩ := List.exists_cons_of_ne_nil hr.idSome
    have hx : PlainText (x :: t) := hid ▸ hr.id
    rw [clientRows, List.foldr_cons, ClientRow.write, hid, List.cons_append, List.cons.injEq] at h
    rw [← h.1]
    exact hx.head

/-- The next byte ends the text or belongs to it. -/
theorem text_step {f r rest : Bytes} {b : UInt8} (hf : PlainText f) (h : f ++ 255 :: r = b :: rest) :
    f = [] ∧ b = 255 ∧ r = rest ∨
      b ≠ 0 ∧ b ≠ 255 ∧ ∃ f', f = b :: f' ∧ PlainText f' ∧ f' ++ 255 :: r = rest := by
  cases f with
  | nil =>
    obtain ⟨rfl, rfl⟩ := List.cons.inj h
    exact Or.inl ⟨rfl, rfl, rfl⟩
  | cons x f =>
    obtain ⟨rfl, hrest⟩ := List.cons.inj h
    exact Or.inr ⟨hf.head.1, hf.head.2, f, rfl, hf.tail, hrest⟩

/-- The first byte of what is read as sections is the first of an ID. -/
theorem sectionRows_step {ss : List SectionRow} (hs : ∀ u ∈ ss, u.Ok) {b : UInt8} {rest : Bytes}
    (h : sectionRows ss = b :: rest) :
    ∃ (u : SectionRow) (us : List SectionRow) (id : Bytes), u.Ok ∧ (∀ v ∈ us, v.Ok) ∧ u.id = b :: id ∧ PlainText id ∧
      id ++ 255 :: u.has :: 255 :: u.ip.a :: u.ip.b :: u.ip.c :: u.ip.d :: 255 ::
        (u.name ++ 255 :: sectionRows us) = rest := by
  cases ss with
  | nil => cases h
  | cons u us =>
    have hu := hs u (List.mem_cons_self ..)
    rcases text_step hu.id h with ⟨hnil, -⟩ | ⟨-, -, id, hid, hplain, hrest⟩
    · exact absurd hnil hu.idSome
    · exact ⟨u, us, id, hu, fun v hv => hs v (List.mem_cons_of_mem _ hv), hid, hplain, hrest⟩

theorem port_not_section {ss : List SectionRow} (hs : ∀ u ∈ ss, u.Ok) {q : Quad} (hq : PortQuad q) {rest : Bytes}
    (h : sectionRows ss = q.a :: q.b :: q.c :: q.d :: 255 :: rest) : False := by
  rcases hq with ⟨hc, hd⟩ | rfl
  · obtain ⟨u, us, id, hu, -, -, hid, hrow⟩ := sectionRows_step hs h
    rw [hc, hd] at hrow
    rcases text_step hid hrow with ⟨-, -, hfix⟩ | ⟨-, -, id', -, hid', hrow'⟩
    · -- the ID is one byte: the separator behind `has` would be the last byte of the port
      obtain ⟨-, hfix⟩ := List.cons.inj hfix
      exact absurd (List.cons.inj hfix).1 (by decide)
    · rcases text_step hid' hrow' with ⟨-, hno, -⟩ | ⟨hno, -⟩
      · exact absurd hno (by decide)
      · exact hno rfl
  · exact (sectionRows_head hs h).2 rfl

theorem address_not_section {ss : List SectionRow} (hs : ∀ u ∈ ss, u.Ok) {i a q : Quad} (hq : PortQuad q)
    {rest : Bytes} (h : sectionRows ss = i.a :: i.b :: i.c :: i.d :: 255 :: a.a :: a.b :: a.c :: a.d :: 255 ::
      q.a :: q.b :: q.c :: q.d :: 255 :: rest) : False := by
  obtain ⟨u, us, id, hu, hus, -, hid, hrow⟩ := sectionRows_step hs h
  rcases text_step hid hrow with ⟨-, -, hfix⟩ | ⟨-, -, id₁, -, hid₁, hrow₁⟩
  · -- an ID of one byte: its row ends behind the peer's address
    simp only [List.cons.injEq] at hfix
    obtain ⟨-, -, -, -, -, -, -, hname⟩ := hfix
    rcases text_step hu.name hname with ⟨-, -, hport⟩ | ⟨-, hno, -⟩
    · exact port_not_section hus hq hport
    · exact hno rfl
  rcases text_step hid₁ hrow₁ with ⟨-, -, hfix⟩ | ⟨-, -, id₂, -, hid₂, hrow₂⟩
  · -- an ID of two bytes: the name begins with the port
    simp only [List.cons.injEq] at hfix
    obtain ⟨-, -, -, -, -, -, -, hname⟩ := hfix
    rcases hq with ⟨hc, hd⟩ | rfl
    · rw [hc, hd] at hname
      rcases text_step hu.name hname with ⟨-, -, hnext⟩ | ⟨-, -, name, -, hplain, hname'⟩
      · obtain ⟨v, vs, vid, hv, -, -, hvid, hvrow⟩ := sectionRows_step hus hnext
        rcases text_step hvid hvrow with ⟨-, hno, -⟩ | ⟨hno, -⟩
        · exact absurd hno (by decide)
        · exact hno rfl
      · rcases text_step hplain hname' with ⟨-, -, hnext⟩ | ⟨-, -, name', -, hplain', hname''⟩
        · exact (sectionRows_head hus hnext).1 rfl
        · rcases text_step hplain' hname'' with ⟨-, hno, -⟩ | ⟨hno, -⟩
          · exact absurd hno (by decide)
          · exact hno rfl
    · rcases text_step hu.name hname with ⟨-, -, hnext⟩ | ⟨-, hno, -⟩
      · exact (sectionRows_head hus hnext).2 rfl
      · exact hno rfl
  rcases text_step hid₂ hrow₂ with ⟨-, -, hfix⟩ | ⟨-, -, id₃, -, hid₃, hrow₃⟩
  · -- an ID of three bytes: `has` would be the separator
    exact hu.has (List.cons.inj hfix).1
  rcases text_step hid₃ hrow₃ with ⟨-, -, hfix⟩ | ⟨-, hno, -⟩
  · -- an ID of four bytes: the address ends within the port
    simp only [List.cons.injEq] at hfix
    obtain ⟨-, -, -, -, -, -, hsep, hname⟩ := hfix
    rcases hq with ⟨hc, hd⟩ | rfl
    · rw [hc, hd] at hname
      rcases text_step hu.name hname with ⟨-, hno, -⟩ | ⟨hno, -⟩
      · exact absurd hno (by decide)
      · exact hno rfl
    · rcases text_step hu.name hname with ⟨-, -, hnext⟩ | ⟨-, hno, -⟩
      · exact (sectionRows_head hus hnext).2 rfl
      · exact hno rfl
  · exact hno rfl

theorem clientRows_cons (r : ClientRow) (cs : List ClientRow) (rest : Bytes) :
    clientRows (r :: cs) rest = r.write (clientRows cs rest) := rfl

theorem sectionRows_cons (u : SectionRow) (us : List SectionRow) :
    sectionRows (u :: us) = u.write (sectionRows us) := rfl

/-- A name that ends with the byte `j` and the separator is that byte. -/
theorem name_of_one {name rest next : Bytes} {j : UInt8} (hname : PlainText name)
    (hrest : ∀ b more, rest = b :: more → b ≠ 0 ∧ b ≠ 255) (h : name ++ 255 :: rest = j :: 255 :: next) :
    rest = next := by
  rcases text_step hname h with ⟨-, -, hno⟩ | ⟨-, -, name', -, hplain, h'⟩
  · exact absurd rfl (hrest _ _ hno).2
  · rcases text_step hplain h' with ⟨-, -, hnext⟩ | ⟨-, hno, -⟩
    · exact hnext
    · exact absurd rfl hno

/-- **Rows cannot be read from their middle**: not when the next ID is taken for a name. -/
theorem shifted {cs : List ClientRow} {ss us : List SectionRow} {name : Bytes} (hc : ∀ r ∈ cs, r.Ok)
    (hs : ∀ u ∈ ss, u.Ok) (hu : ∀ u ∈ us, u.Ok) (hname : PlainText name)
    (h : clientRows cs (sectionRows ss) = name ++ 255 :: sectionRows us) : False := by
  cases cs with
  | cons r cs =>
    have hr := hc r (List.mem_cons_self ..)
    obtain ⟨-, hrest⟩ := text_unique hr.id hname h
    exact address_not_section hu hr.port hrest.symm
  | nil =>
    -- by induction on the sections: one row is read half a row late, so is the next
    induction ss generalizing us name with
    | nil => cases name <;> cases h
    | cons t ts ih =>
      have ht := hs t (List.mem_cons_self ..)
      have hts := fun u hu => hs u (List.mem_cons_of_mem _ hu)
      obtain ⟨-, hrest⟩ := text_unique ht.id hname h
      obtain ⟨u, us', id, hu', hus, -, hid, hrow⟩ := sectionRows_step hu hrest.symm
      rcases text_step hid hrow with ⟨-, -, hfix⟩ | ⟨-, hno, -⟩
      · simp only [List.cons.injEq] at hfix
        obtain ⟨-, -, -, -, -, hfix⟩ := hfix
        have hnext := name_of_one ht.name (fun b more hb => sectionRows_head hts hb) hfix.symm
        exact ih hts hus hu'.name hnext
      · exact hno rfl

/-- **No section is read where a client was written.** -/
theorem misread {r : ClientRow} {cs : List ClientRow} {ss us : List SectionRow} (hr : r.Ok) (hc : ∀ r ∈ cs, r.Ok)
    (hs : ∀ u ∈ ss, u.Ok) (hu : ∀ u ∈ us, u.Ok)
    (h : clientRows (r :: cs) (sectionRows ss) = sectionRows us) : False := by
  cases us with
  | nil =>
    have hnil : r.id ++ 255 :: _ = [] := h
    cases hid : r.id <;> rw [hid] at hnil <;> cases hnil
  | cons u us =>
    have hu' := hu u (List.mem_cons_self ..)
    have hus := fun v hv => hu v (List.mem_cons_of_mem _ hv)
    obtain ⟨-, hrest⟩ := text_unique hr.id hu'.id h
    simp only [List.cons.injEq] at hrest
    obtain ⟨-, -, -, -, -, -, -, hname⟩ := hrest
    -- the name of the section begins in the peer's address
    rcases text_step hu'.name hname.symm with ⟨-, -, hnext⟩ | ⟨-, -, name, -, hplain, hname'⟩
    · obtain ⟨v, vs, id, hv, hvs, -, hid, hrow⟩ := sectionRows_step hus hnext
      rcases text_step hid hrow with ⟨-, -, hfix⟩ | ⟨-, hno, -⟩
      · simp only [List.cons.injEq] at hfix
        obtain ⟨hhas, hb, -, -, -, hfix⟩ := hfix
        have hnext := name_of_one hr.name (fun b more hb => clientRows_head hc hs hb) hfix.symm
        exact shifted hc hs hvs hv.name hnext
      · exact hno rfl
    · rcases text_step hplain hname' with ⟨-, -, hnext⟩ | ⟨-, -, name', -, hplain', hname''⟩
      · exact (sectionRows_head hus hnext).2 rfl
      · rcases text_step hplain' hname'' with ⟨-, -, hnext⟩ | ⟨-, hno, -⟩
        · exact port_not_section hus hr.port hnext
        · exact hno rfl

theorem sections_unique {ss us : List SectionRow} (hs : ∀ u ∈ ss, u.Ok) (hu : ∀ u ∈ us, u.Ok)
    (h : sectionRows ss = sectionRows us) : ss = us := by
  induction ss generalizing us with
  | nil =>
    cases us with
    | nil => rfl
    | cons u us =>
      have hnil : [] = u.id ++ 255 :: _ := h
      cases hid : u.id <;> rw [hid] at hnil <;> cases hnil
  | cons t ts ih =>
    cases us with
    | nil =>
      have hnil : t.id ++ 255 :: _ = [] := h
      cases hid : t.id <;> rw [hid] at hnil <;> cases hnil
    | cons u us =>
      have ht := hs t (List.mem_cons_self ..)
      have hu' := hu u (List.mem_cons_self ..)
      obtain ⟨hid, hrest⟩ := text_unique ht.id hu'.id h
      simp only [List.cons.injEq] at hrest
      obtain ⟨hhas, -, ha, hb, hc, hd, -, hname⟩ := hrest
      obtain ⟨hname, hrest⟩ := text_unique ht.name hu'.name hname
      have hrow : t = u := by
        obtain ⟨tid, thas, ⟨ta, tb, tc, td⟩, tname⟩ := t
        obtain ⟨uid, uhas, ⟨ua, ub, uc, ud⟩, uname⟩ := u
        simp_all
      rw [hrow, ih (fun v hv => hs v (List.mem_cons_of_mem _ hv)) (fun v hv => hu v (List.mem_cons_of_mem _ hv)) hrest]

/-- **The bytes have one reading.** -/
theorem rows_unique {cs ds : List ClientRow} {ss us : List SectionRow} (hc : ∀ r ∈ cs, r.Ok) (hd : ∀ r ∈ ds, r.Ok)
    (hs : ∀ u ∈ ss, u.Ok) (hu : ∀ u ∈ us, u.Ok)
    (h : clientRows cs (sectionRows ss) = clientRows ds (sectionRows us)) : cs = ds ∧ ss = us := by
  induction cs generalizing ds with
  | nil =>
    cases ds with
    | nil => exact ⟨rfl, sections_unique hs hu h⟩
    | cons d ds =>
      exact (misread (hd d (List.mem_cons_self ..)) (fun r hr => hd r (List.mem_cons_of_mem _ hr)) hu hs h.symm).elim
  | cons r cs ih =>
    have hr := hc r (List.mem_cons_self ..)
    have hcs := fun r hr => hc r (List.mem_cons_of_mem _ hr)
    cases ds with
    | nil => exact (misread hr hcs hs hu h).elim
    | cons d ds =>
      have hd' := hd d (List.mem_cons_self ..)
      obtain ⟨hid, hrest⟩ := text_unique hr.id hd'.id h
      simp only [List.cons.injEq] at hrest
      obtain ⟨ia, ib, ic, id', -, pa, pb, pc, pd, -, qa, qb, qc, qd, -, hname⟩ := hrest
      obtain ⟨hname, hrest⟩ := text_unique hr.name hd'.name hname
      have hrow : r = d := by
        obtain ⟨rid, ⟨_, _, _, _⟩, ⟨_, _, _, _⟩, ⟨_, _, _, _⟩, rname⟩ := r
        obtain ⟨did, ⟨_, _, _, _⟩, ⟨_, _, _, _⟩, ⟨_, _, _, _⟩, dname⟩ := d
        simp_all
      obtain ⟨hrows, hsections⟩ := ih hcs (fun r hr => hd r (List.mem_cons_of_mem _ hr)) hrest
      exact ⟨by rw [hrow, hrows], hsections⟩

/-! ## The rows of a state -/

def ipQuad (ip : Ip) : Quad :=
  ⟨UInt8.ofNat (ip.toNat / 2 ^ 24), UInt8.ofNat (ip.toNat / 2 ^ 16), UInt8.ofNat (ip.toNat / 2 ^ 8), UInt8.ofNat ip.toNat⟩

def intQuad (v : ℤ) : Quad :=
  let u := (v % 2 ^ 32).toNat
  ⟨UInt8.ofNat u, UInt8.ofNat (u / 2 ^ 8), UInt8.ofNat (u / 2 ^ 16), UInt8.ofNat (u / 2 ^ 24)⟩

theorem ofNat_byte {x y : ℕ} (h : UInt8.ofNat x = UInt8.ofNat y) : x % 256 = y % 256 := by
  have hnat := congrArg UInt8.toNat h
  simpa using hnat

theorem ipQuad_inj {a b : Ip} (h : ipQuad a = ipQuad b) : a = b := by
  simp only [ipQuad, Quad.mk.injEq] at h
  obtain ⟨h₁, h₂, h₃, h₄⟩ := h
  have e₁ := ofNat_byte h₁
  have e₂ := ofNat_byte h₂
  have e₃ := ofNat_byte h₃
  have e₄ := ofNat_byte h₄
  have ha := a.isLt
  have hb := b.isLt
  apply BitVec.eq_of_toNat_eq
  omega

theorem intQuad_inj {a b : ℤ} (ha : -2 ^ 31 ≤ a ∧ a < 2 ^ 31) (hb : -2 ^ 31 ≤ b ∧ b < 2 ^ 31)
    (h : intQuad a = intQuad b) : a = b := by
  simp only [intQuad, Quad.mk.injEq] at h
  obtain ⟨h₁, h₂, h₃, h₄⟩ := h
  have e₁ := ofNat_byte h₁
  have e₂ := ofNat_byte h₂
  have e₃ := ofNat_byte h₃
  have e₄ := ofNat_byte h₄
  omega

theorem intQuad_port {v : ℤ} (h : v = -1 ∨ 1 ≤ v ∧ v ≤ 65535) : PortQuad (intQuad v) := by
  rcases h with rfl | ⟨hlow, hhigh⟩
  · exact Or.inr (by decide)
  · refine Or.inl ⟨?_, ?_⟩
    · have hzero : (v % 2 ^ 32).toNat / 2 ^ 16 = 0 := by omega
      simp only [intQuad, hzero]
      rfl
    · have hzero : (v % 2 ^ 32).toNat / 2 ^ 24 = 0 := by omega
      simp only [intQuad, hzero]
      rfl

variable {n : ℕ}

def clientRow (s : Listing n) (c : ServerClient) : ClientRow :=
  ⟨c.clientId, ipQuad c.ipBe, ipQuad c.addr.ip, intQuad (configDbPeerPort s.file c.clientId),
    statusName s.file c.clientId⟩

def sectionRow (p : ClientSection) : SectionRow :=
  ⟨p.clientId, if p.ipBe.isSome then 1 else 0, ipQuad (p.ipBe.getD 0), p.name⟩

theorem stateStream_eq (s : Listing n) :
    stateStream s = s.file.globals.domain ++
      255 :: clientRows (s.live.map (clientRow s)) (sectionRows (s.sections.map sectionRow)) := by
  have hsections : ∀ ps : List ClientSection,
      (ps.flatMap sectionFields).flatMap fieldBytes = sectionRows (ps.map sectionRow) := by
    intro ps
    induction ps with
    | nil => rfl
    | cons p ps ih =>
      rw [List.flatMap_cons, List.flatMap_append, ih]
      simp [sectionRows_cons, SectionRow.write, sectionRow, sectionFields, fieldBytes, ipBytes, ipQuad]
  have hclients : ∀ (cs : List ServerClient) (rest : Bytes),
      (cs.flatMap (clientFields s)).flatMap fieldBytes ++ rest = clientRows (cs.map (clientRow s)) rest := by
    intro cs rest
    induction cs with
    | nil => rfl
    | cons c cs ih =>
      rw [List.flatMap_cons, List.flatMap_append, List.append_assoc, ih]
      simp [clientRows_cons, ClientRow.write, clientRow, clientFields, fieldBytes, ipBytes, ipQuad, intBytes, intQuad]
  unfold stateStream stateFields
  rw [List.flatMap_cons, List.flatMap_append, hclients, hsections, fieldBytes, List.append_assoc]
  rfl

/-! ## From the rows to the lists -/

def IdsPlain (s : Listing n) : Prop :=
  (∀ c ∈ s.live, ∀ b ∈ c.clientId, b ≠ 255) ∧ ∀ p ∈ s.sections, ∀ b ∈ p.clientId, b ≠ 255

/-- No entry hides a listed client from its section: where there is a listed client with the ID of a section, the first
entry with that ID is a listed one. -/
def NoShadow (s : Listing n) : Prop :=
  ∀ p ∈ s.sections, recordIdOk p.clientId = true → (∃ c ∈ s.live, strcaseeq c.clientId p.clientId = true) →
    connected s p = true

/-- A live record without ages, counters and handshakes. -/
def LiveRecord.lasting (r : LiveRecord) : LiveRecord :=
  { r with since := 0, last := none, hsAge := 0, handshakes := 0, rx := 0, tx := 0 }

/-- The same lists. -/
structure SameListing {m : ℕ} (s : Listing n) (t : Listing m) : Prop where
  live : s.liveRecords.map LiveRecord.lasting = t.liveRecords.map LiveRecord.lasting
  conf : s.confRecords = t.confRecords
  list : ∀ names, serverClientsList s names = serverClientsList t names
  domain : s.file.globals.domain = t.file.globals.domain

theorem name_plain {name : CStr} (h : name = [] ∨ camexNameValid name = true) : PlainText name := by
  rcases h with rfl | h
  · exact fun b hb => absurd hb List.not_mem_nil
  · intro b hb
    obtain ⟨hlow, -, hhigh⟩ := name_bytes h hb
    constructor <;> rintro rfl
    · exact absurd hlow (by decide)
    · exact absurd hhigh (by decide)

theorem domain_plain {domain : CStr} (h : domain = [] ∨ validHostname domain = true) : PlainText domain := by
  rcases h with rfl | h
  · exact fun b hb => absurd hb List.not_mem_nil
  · intro b hb
    have hbyte := hostname_byte h hb
    constructor <;> rintro rfl <;> exact absurd hbyte (by decide)

theorem statusName_plain {file : Loading (List ClientSection)} (h : FileTexts file) (clientId : CStr) :
    PlainText (statusName file clientId) := by
  unfold statusName
  cases hfind : findSection file clientId with
  | none => exact name_plain (Or.inl rfl)
  | some p => exact name_plain (h.names p (findSection_some hfind))

theorem configDbPeerPort_int {file : Loading (List ClientSection)} (h : FileTexts file) (clientId : CStr) :
    -2 ^ 31 ≤ configDbPeerPort file clientId ∧ configDbPeerPort file clientId < 2 ^ 31 := by
  have hset := configDbPeerPort_set h clientId
  omega

theorem clientRow_ok {s : Listing n} (h : CanHold s) (hplain : IdsPlain s) {c : ServerClient} (hc : c ∈ s.live) :
    (clientRow s c).Ok where
  id := by
    obtain ⟨⟨i, rfl⟩, -⟩ := mem_live.mp hc
    exact fun b hb => ⟨(h.ids i).2 b hb, hplain.1 _ hc b hb⟩
  idSome := by
    obtain ⟨-, hlisted⟩ := mem_live.mp hc
    unfold listed at hlisted
    have hid : c.clientId ≠ [] := by simp_all
    exact hid
  port := intQuad_port (configDbPeerPort_set h.texts c.clientId)
  name := statusName_plain h.texts c.clientId

theorem sectionRow_ok {s : Listing n} (h : CanHold s) (hplain : IdsPlain s) {p : ClientSection}
    (hp : p ∈ s.sections) : (sectionRow p).Ok where
  id := by
    obtain ⟨hmem, -, -⟩ := mem_sections.mp hp
    exact fun b hb => ⟨(h.texts.ids p hmem).2.2.2 b hb, hplain.2 p hp b hb⟩
  idSome := (mem_sections.mp hp).2.2
  has := by
    change (if p.ipBe.isSome then (1 : UInt8) else 0) ≠ 255
    split <;> decide
  name := name_plain (h.texts.names p (mem_sections.mp hp).1)

/-- Lists that agree item by item, after a choice that agrees. -/
theorem agree_map {α β γ : Type} {R : α → β → Prop} {l : List α} {l' : List β} (h : List.Forall₂ R l l')
    {p : α → Bool} {q : β → Bool} (hpq : ∀ a b, R a b → p a = q b) {u : α → γ} {v : β → γ}
    (huv : ∀ a b, R a b → u a = v b) : (l.filter p).map u = (l'.filter q).map v := by
  induction h with
  | nil => rfl
  | @cons a b l l' hab _ ih =>
    rw [List.filter_cons, List.filter_cons, hpq a b hab]
    split
    · rw [List.map_cons, List.map_cons, huv a b hab, ih]
    · exact ih

theorem forall₂_of_map {α β γ : Type} {f : α → γ} {g : β → γ} {l : List α} {l' : List β} (h : l.map f = l'.map g) :
    List.Forall₂ (fun a b => f a = g b) l l' := by
  have heq := List.forall₂_eq_eq_eq ▸ h
  rwa [List.forall₂_map_left_iff, List.forall₂_map_right_iff] at heq

theorem findSection_isSome {s : Listing n} {clientId : CStr} (hid : clientId ≠ []) :
    (findSection s.file clientId).isSome = s.sections.any fun p => strcaseeq p.clientId clientId := by
  unfold findSection Listing.sections
  rw [if_neg hid, List.any_filter, Bool.eq_iff_iff, List.find?_isSome, List.any_eq_true]
  refine exists_congr fun p => and_congr_right fun _ => ?_
  rw [Bool.and_eq_true, Bool.and_eq_true, Bool.and_eq_true]
  constructor
  · rintro ⟨hactive, hsame⟩
    refine ⟨⟨hactive, ?_⟩, hsame⟩
    rw [bne_iff_ne]
    intro hnil
    rw [hnil] at hsame
    exact hid (strcaseeq_nil.mp (strcaseeq_symm hsame))
  · rintro ⟨⟨hactive, -⟩, hsame⟩
    exact ⟨hactive, hsame⟩

/-- Whose section is not connected, by the IDs of the listed clients. -/
theorem confRecords_eq {s : Listing n} (h : NoShadow s) :
    s.confRecords = (s.sections.filter fun p => recordIdOk p.clientId &&
      !(s.live.map ServerClient.clientId).any fun id => strcaseeq id p.clientId).map confRecord := by
  unfold Listing.confRecords Listing.sections
  rw [List.filter_filter]
  congr 1
  refine List.filter_congr fun p hp => ?_
  rw [Bool.and_comm (recordIdOk p.clientId && _), ← Bool.and_assoc]
  cases hkept : p.active && p.clientId != [] && recordIdOk p.clientId with
  | false => rfl
  | true =>
    simp only [Bool.and_eq_true, bne_iff_ne, ne_eq] at hkept
    obtain ⟨⟨hactive, hid⟩, hok⟩ := hkept
    have hconn : connected s p = (s.live.map ServerClient.clientId).any fun id => strcaseeq id p.clientId := by
      rw [Bool.eq_iff_iff, List.any_map, List.any_eq_true]
      exact ⟨connected_live, h p (mem_sections.mpr ⟨hp, hactive, hid⟩) hok⟩
    rw [hconn]

/-- Equal bytes, equal lists, when no ID has the separator and no listed client is hidden. -/
theorem sameListing_of_stream {m : ℕ} {s : Listing n} {t : Listing m} (hs : CanHold s) (ht : CanHold t)
    (hps : IdsPlain s) (hpt : IdsPlain t) (hns : NoShadow s) (hnt : NoShadow t)
    (hstream : stateStream s = stateStream t) : SameListing s t := by
  rw [stateStream_eq, stateStream_eq] at hstream
  obtain ⟨hdomain, hrows⟩ := text_unique (domain_plain hs.texts.domain) (domain_plain ht.texts.domain) hstream
  obtain ⟨hclients, hsections⟩ := rows_unique
    (List.forall_mem_map.mpr fun c hc => clientRow_ok hs hps hc)
    (List.forall_mem_map.mpr fun c hc => clientRow_ok ht hpt hc)
    (List.forall_mem_map.mpr fun p hp => sectionRow_ok hs hps hp)
    (List.forall_mem_map.mpr fun p hp => sectionRow_ok ht hpt hp) hrows
  have hids : s.live.map ServerClient.clientId = t.live.map ServerClient.clientId := by
    have heq := congrArg (List.map ClientRow.id) hclients
    rwa [List.map_map, List.map_map] at heq
  have hsame : ∀ id, id ≠ [] → (findSection s.file id).isSome = (findSection t.file id).isSome := by
    intro id hid
    have heq := congrArg (List.map SectionRow.id) hsections
    rw [List.map_map, List.map_map] at heq
    have hany := congrArg (fun ids => ids.any fun p => strcaseeq p id) heq
    rw [List.any_map, List.any_map] at hany
    rwa [findSection_isSome hid, findSection_isSome hid]
  have hrow : List.Forall₂ (fun c d => c.clientId ≠ [] ∧ clientRow s c = clientRow t d) s.live t.live :=
    (List.forall₂_and_left _ _).mpr ⟨fun c hc => (clientRow_ok hs hps hc).idSome, forall₂_of_map hclients⟩
  constructor
  · unfold Listing.liveRecords
    rw [List.map_map, List.map_map]
    refine agree_map hrow (fun c d hcd => ?_) fun c d hcd => ?_
    · rw [show c.clientId = d.clientId from congrArg ClientRow.id hcd.2]
    · obtain ⟨hsome, hcd⟩ := hcd
      simp only [clientRow, ClientRow.mk.injEq] at hcd
      obtain ⟨hid, hip, hpeer, hport, hname⟩ := hcd
      have hport := intQuad_inj (configDbPeerPort_int hs.texts _) (configDbPeerPort_int ht.texts _) hport
      have hconf := hsame _ hsome
      simp only [Function.comp, LiveRecord.lasting, liveRecord, ipQuad_inj hip, ipQuad_inj hpeer, hport, hname, hconf]
      rw [hid]
  · rw [confRecords_eq hns, confRecords_eq hnt, hids]
    refine agree_map (forall₂_of_map hsections) (fun p q hpq => ?_) fun p q hpq => ?_
    · rw [show p.clientId = q.clientId from congrArg SectionRow.id hpq]
    · simp only [sectionRow, SectionRow.mk.injEq] at hpq
      obtain ⟨hid, hhas, hip, hname⟩ := hpq
      have hip := ipQuad_inj hip
      have haddress : p.ipBe = q.ipBe := by
        cases hp : p.ipBe <;> cases hq : q.ipBe <;> simp_all
      simp only [confRecord, hid, haddress, hname]
  · intro names
    unfold serverClientsList
    rw [List.flatMap_def, List.flatMap_def]
    refine congrArg List.flatten (agree_map hrow (fun c d hcd => ?_) fun c d hcd => ?_)
    · rw [show c.clientId = d.clientId from congrArg ClientRow.id hcd.2]
    · have hcd := hcd.2
      simp only [clientRow, ClientRow.mk.injEq] at hcd
      obtain ⟨hid, hip, -, -, hname⟩ := hcd
      simp only [listLine, ipQuad_inj hip, hname]
      rw [hid]
  · exact hdomain

/-- The state without the entries that are not listed. -/
def Listing.shown (s : Listing n) : Listing n :=
  { s with clients := fun i => if listed (s.clients i) then s.clients i else .wiped }

theorem shown_live (s : Listing n) : s.shown.live = s.live := by
  unfold Listing.live Listing.shown
  dsimp only
  induction List.finRange n with
  | nil => rfl
  | cons i is ih =>
    rw [List.map_cons, List.map_cons, List.filter_cons, List.filter_cons, ih]
    cases h : listed (s.clients i) with
    | true => rw [if_pos rfl, h]
    | false => rfl

theorem CanHold.shown {s : Listing n} (h : CanHold s) : CanHold s.shown where
  file := h.file
  ids := by
    intro i
    unfold Listing.shown
    dsimp only
    split
    · exact h.ids i
    · exact ⟨by decide, fun b hb => absurd hb List.not_mem_nil⟩

/-- Nothing hides a listed client there. -/
theorem shown_noShadow (s : Listing n) : NoShadow s.shown := by
  rintro p - - ⟨c, hc, hsame⟩
  obtain ⟨⟨j, rfl⟩, hlisted⟩ := mem_live.mp hc
  have hid : p.clientId ≠ [] := by
    intro hnil
    rw [hnil] at hsame
    unfold listed at hlisted
    simp [strcaseeq_nil.mp hsame] at hlisted
  unfold connected
  cases hfind : serverFindByClientId s.shown.clients p.clientId with
  | none =>
    have hno := serverFindByClientId_none hfind hid j
    unfold matchId at hno
    unfold listed at hlisted
    simp_all
  | some i =>
    obtain ⟨-, hmatch⟩ := serverFindByClientId_some hfind
    unfold Listing.shown at hmatch ⊢
    dsimp only at hmatch ⊢
    split at hmatch
    · rename_i hi
      rw [if_pos hi]
      unfold listed at hi
      simp_all
    · cases hmatch

/-- **The fingerprint covers the lists.** Where no ID has the separator: exactly the states that hide no listed client
have the lists of every state with their bytes. -/
theorem stream_covers_listing {s : Listing n} (hs : CanHold s) (hps : IdsPlain s) :
    (∀ m, ∀ t : Listing m, CanHold t → IdsPlain t → NoShadow t → stateStream s = stateStream t → SameListing s t) ↔
      NoShadow s := by
  constructor
  · intro hcover p hp hok hlive
    have hstream : stateStream s = stateStream s.shown := by
      rw [stateStream_eq, stateStream_eq, shown_live]
      rfl
    have hplain : IdsPlain s.shown := by
      refine ⟨?_, hps.2⟩
      rw [shown_live]
      exact hps.1
    have hconf := congrArg List.length (hcover n s.shown hs.shown hplain (shown_noShadow s) hstream).conf
    unfold Listing.confRecords at hconf
    rw [List.length_map, List.length_map] at hconf
    have hlive' : ∃ c ∈ s.shown.live, strcaseeq c.clientId p.clientId = true := by rwa [shown_live]
    obtain ⟨hmem, hactive, hid⟩ := mem_sections.mp hp
    by_contra hhidden
    have hshown := filter_same (fun q hq hkept => ?_) hconf.symm p hmem
      (by simpa [hactive, hid, hok] using hhidden)
    · rw [shown_noShadow s p hp hok hlive'] at hshown
      simp at hshown
    · rw [Bool.and_eq_true, Bool.not_eq_true'] at hkept ⊢
      refine ⟨hkept.1, Bool.eq_false_iff.mpr fun hconn => ?_⟩
      have hkeys := hkept.1
      simp only [Bool.and_eq_true, bne_iff_ne] at hkeys
      have hconn' := shown_noShadow s q (mem_sections.mpr ⟨hq, hkeys.1.1, hkeys.1.2⟩) hkeys.2
        (shown_live s ▸ connected_live hconn)
      rw [hconn'] at hkept
      exact absurd hkept.2 (by decide)
  · intro hns m t ht hpt hnt hstream
    exact sameListing_of_stream hs ht hps hpt hns hnt hstream

/-! ## On two files -/

/-- Two sections, `a` and `b`. -/
def twoSections : CStr :=
  ascii "[client a]\nlocal_cidr=192.168.66.5/24\n[client b]\nlocal_cidr=192.168.66.6/24\n"

/-- One section, whose ID is `a`, the other fields of `a`, and `b`. -/
def oneSection : CStr :=
  ascii "[client a" ++ [255, 1, 255, 192, 168, 66, 5, 255, 255] ++ ascii "b]\nlocal_cidr=192.168.66.6/24\n"

theorem stream_covers_listing_two :
    (∀ m, ∀ t : Listing m, CanHold t → IdsPlain t → NoShadow t → stateStream (.ofFile twoSections) = stateStream t →
      SameListing (.ofFile twoSections) t) ↔ NoShadow (.ofFile twoSections) :=
  stream_covers_listing (canHold_ofFile (by decide +kernel)) ⟨by decide +kernel, by decide +kernel⟩

/-- **An ID with the separator**: the same bytes, and two lines or none. -/
theorem stream_not_covering : ¬ ∀ (n m : ℕ) (s : Listing n) (t : Listing m), CanHold s → CanHold t →
    stateStream s = stateStream t → SameListing s t := by
  intro hcover
  have hsame := hcover 1 1 (.ofFile twoSections) (.ofFile oneSection) (canHold_ofFile (by decide +kernel))
    (canHold_ofFile (by decide +kernel)) (by decide +kernel)
  have hlen := congrArg List.length hsame.conf
  exact absurd hlen (by decide +kernel)

end Camex
