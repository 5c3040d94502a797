import Camex.Lib.CString

/-!
# Programs with checked accesses

A `Checked` program stops at an access outside its object, at a read of a byte that nobody wrote and at a subtraction
below zero.

* `sizeSub`: a subtraction of sizes;
* `Slice`: a place in bytes that are all there; `Area`: an array that is written in pieces;
* `Safe x Q`: `x` does not stop and its result has `Q`, with the rules `pure`, `bind`, `bind_ok`, `mono` and `ite`;
* `Slice.Has`, `Area.Holds`: what is there from a place on, what an array starts with, and the accesses they allow.
-/

namespace Camex.Lib

inductive Fault
  | outside
  | unwritten
  | negative
  deriving DecidableEq

abbrev Checked := Except Fault

@[simp] theorem ok_bind {α β : Type} (a : α) (f : α → Checked β) : ((.ok a : Checked α) >>= f) = f a := rfl

/-! ## No fault -/

section Safe

variable {α β : Type} {x y : Checked α} {P Q : α → Prop}

/-- The program does not stop, and its result has `Q`. -/
def Safe (x : Checked α) (Q : α → Prop) : Prop := ∃ a, x = .ok a ∧ Q a

theorem Safe.pure {a : α} (h : Q a) : Safe (pure a) Q := ⟨a, rfl, h⟩

theorem Safe.of_eq {a : α} (hx : x = .ok a) (h : Q a) : Safe x Q := ⟨a, hx, h⟩

theorem Safe.mono (hx : Safe x P) (h : ∀ a, P a → Q a) : Safe x Q := by
  obtain ⟨a, rfl, ha⟩ := hx
  exact ⟨a, rfl, h a ha⟩

theorem Safe.bind {R : β → Prop} {f : α → Checked β} (hx : Safe x P) (hf : ∀ a, P a → Safe (f a) R) :
    Safe (x >>= f) R := by
  obtain ⟨a, rfl, ha⟩ := hx
  exact hf a ha

theorem Safe.bind_ok {R : β → Prop} {f : α → Checked β} {a : α} (hx : x = .ok a) (hf : Safe (f a) R) :
    Safe (x >>= f) R := .bind (.of_eq hx rfl) fun _ h => h ▸ hf

theorem Safe.ite {c : Prop} [Decidable c] (hpos : c → Safe x Q) (hneg : ¬ c → Safe y Q) :
    Safe (if c then x else y) Q := by
  split
  · exact hpos ‹_›
  · exact hneg ‹_›

theorem Safe.eq {a : α} (h : Safe x (· = a)) : x = .ok a := by
  obtain ⟨b, hx, rfl⟩ := h
  exact hx

end Safe

theorem optionRel_imp {α β : Type} {R S : α → β → Prop} {x : Option α} {y : Option β} (h : Option.Rel R x y)
    (himp : ∀ a b, R a b → S a b) : Option.Rel S x y := by
  cases h with
  | none => exact .none
  | some h => exact .some (himp _ _ h)

def sizeSub (a b : ℕ) : Checked ℕ := if b ≤ a then .ok (a - b) else .error .negative

theorem sizeSub_eq {a b : ℕ} (h : b ≤ a) : sizeSub a b = .ok (a - b) := if_pos h

/-! ## Places in bytes that are there -/

structure Slice where
  object : Bytes
  place : ℕ

namespace Slice

def start (object : Bytes) : Slice := ⟨object, 0⟩

/-- `p + k`. -/
def add (p : Slice) (k : ℕ) : Slice := { p with place := p.place + k }

/-- `k` bytes from the place on. -/
def read (p : Slice) (k : ℕ) : Checked Bytes :=
  if p.place + k ≤ p.object.length then .ok ((p.object.drop p.place).take k) else .error .outside

/-- `p[0]`. -/
def byte (p : Slice) : Checked UInt8 := do
  return (← p.read 1).headD 0

/-- These bytes are there from the place on. -/
def Has (p : Slice) (bs : Bytes) : Prop := ∃ before after, p.object = before ++ (bs ++ after) ∧ p.place = before.length

theorem has_start (object : Bytes) : (start object).Has object := ⟨[], [], by simp [start], rfl⟩

variable {p : Slice} {bs : Bytes} {k : ℕ}

theorem Has.add (h : p.Has bs) (hk : k ≤ bs.length) : (p.add k).Has (bs.drop k) := by
  obtain ⟨before, after, hobject, hplace⟩ := h
  refine ⟨before ++ bs.take k, after, ?_, ?_⟩
  · show p.object = _
    rw [hobject, List.append_assoc, ← List.append_assoc (bs.take k), List.take_append_drop]
  · show p.place + k = _
    rw [hplace, List.length_append, List.length_take, Nat.min_eq_left hk]

theorem Has.read (h : p.Has bs) (hk : k ≤ bs.length) : p.read k = .ok (bs.take k) := by
  obtain ⟨before, after, hobject, hplace⟩ := h
  unfold Slice.read
  rw [if_pos (by rw [hobject, hplace]; simp; omega), hobject, hplace, List.drop_left, List.take_append_of_le_length hk]

theorem Has.byte (h : p.Has bs) (hk : 0 < bs.length) : p.byte = .ok (bs.headD 0) := by
  unfold Slice.byte
  rw [h.read hk]
  cases bs with
  | nil => cases hk
  | cons b bs => rfl

theorem Has.read_at (h : p.Has bs) {place : ℕ} (hk : place + k ≤ bs.length) :
    (p.add place).read k = .ok ((bs.drop place).take k) :=
  (h.add (by omega)).read (by rw [List.length_drop]; omega)

theorem Has.read_all (h : p.Has bs) : p.read bs.length = .ok bs := by
  rw [h.read le_rfl, List.take_length]

theorem Has.take (h : p.Has bs) (k : ℕ) : p.Has (bs.take k) := by
  obtain ⟨before, after, hobject, hplace⟩ := h
  refine ⟨before, bs.drop k ++ after, ?_, hplace⟩
  rw [hobject, ← List.append_assoc (bs.take k), List.take_append_drop]

end Slice

/-! ## Arrays -/

/-- An array of `size` bytes, each written or not yet. -/
structure Area (size : ℕ) where
  cells : List (Option UInt8)
  length_cells : cells.length = size

def cellBytes : List (Option UInt8) → Checked Bytes
  | [] => .ok []
  | none :: _ => .error .unwritten
  | some b :: cells => return b :: (← cellBytes cells)

/-- The bytes of the cells before the first NUL. -/
def cellString : List (Option UInt8) → Checked CStr
  | [] => .error .outside
  | none :: _ => .error .unwritten
  | some b :: cells => if b = 0 then return [] else return b :: (← cellString cells)

namespace Area

variable {size : ℕ}

/-- `uint8_t buffer[size]`. -/
def fresh (size : ℕ) : Area size := ⟨List.replicate size none, List.length_replicate⟩

/-- `memcpy(buffer + place, bytes, ..)`. -/
def write (b : Area size) (place : ℕ) (bytes : Bytes) : Checked (Area size) :=
  if h : place + bytes.length ≤ size then
    .ok ⟨b.cells.take place ++ (bytes.map some ++ b.cells.drop (place + bytes.length)), by
      simp [b.length_cells]
      omega⟩
  else .error .outside

/-- `k` bytes from `buffer + place` on. -/
def read (b : Area size) (place k : ℕ) : Checked Bytes :=
  if place + k ≤ size then cellBytes ((b.cells.drop place).take k) else .error .outside

/-- The C string at the start. -/
def string (b : Area size) : Checked CStr := cellString b.cells

def Holds (b : Area size) (bytes : Bytes) : Prop := ∃ rest, b.cells = bytes.map some ++ rest

variable {b : Area size} {bytes more : Bytes}

theorem holds_nil (b : Area size) : b.Holds [] := ⟨b.cells, rfl⟩

theorem Holds.of_append (h : b.Holds (bytes ++ more)) : b.Holds bytes := by
  obtain ⟨rest, h⟩ := h
  exact ⟨more.map some ++ rest, by rw [h, List.map_append, List.append_assoc]⟩

theorem Holds.length (h : b.Holds bytes) : bytes.length ≤ size := by
  obtain ⟨rest, h⟩ := h
  have hlen := b.length_cells
  rw [h, List.length_append, List.length_map] at hlen
  omega

theorem Holds.write (h : b.Holds bytes) {place : ℕ} (hplace : bytes.length = place) (more : Bytes)
    (hfits : place + more.length ≤ size) : Safe (b.write place more) fun b => b.Holds (bytes ++ more) := by
  obtain ⟨rest, h⟩ := h
  subst hplace
  refine .of_eq (dif_pos hfits) ⟨b.cells.drop (bytes.length + more.length), ?_⟩
  show b.cells.take bytes.length ++ _ = _
  rw [h, List.take_left' (List.length_map _), List.map_append, List.append_assoc]

theorem write_start (b : Area size) (hfits : bytes.length ≤ size) : Safe (b.write 0 bytes) fun b => b.Holds bytes :=
  (holds_nil b).write rfl _ (by simpa using hfits)

theorem cellBytes_map (bytes : Bytes) : cellBytes (bytes.map some) = .ok bytes := by
  induction bytes with
  | nil => rfl
  | cons b bytes ih =>
    show (cellBytes (bytes.map some) >>= fun bs => pure (b :: bs)) = _
    rw [ih]
    rfl

theorem Holds.read (h : b.Holds bytes) {place k : ℕ} (hk : place + k ≤ bytes.length) :
    b.read place k = .ok ((bytes.drop place).take k) := by
  have hlen := h.length
  obtain ⟨rest, h⟩ := h
  unfold Area.read
  rw [if_pos (by omega), h, List.drop_append_of_le_length (by simp; omega),
    List.take_append_of_le_length (by simp; omega), ← List.map_drop, ← List.map_take, cellBytes_map]

theorem Holds.read_all (h : b.Holds bytes) : b.read 0 bytes.length = .ok bytes := by
  rw [h.read (by omega)]
  simp

theorem cellString_map (bytes : Bytes) (rest : List (Option UInt8)) :
    cellString (bytes.map some ++ some 0 :: rest) = .ok (untilNul bytes) := by
  induction bytes with
  | nil => rfl
  | cons b bytes ih =>
    by_cases hb : b = 0
    · subst hb
      rfl
    · show (if b = 0 then _ else cellString (bytes.map some ++ some 0 :: rest) >>= fun bs => pure (b :: bs)) = _
      rw [if_neg hb, ih]
      simp [untilNul, hb, Bind.bind, Except.bind, pure, Except.pure]

theorem Holds.string (h : b.Holds (bytes ++ [0])) : b.string = .ok (untilNul bytes) := by
  obtain ⟨rest, h⟩ := h
  unfold Area.string
  rw [h, List.map_append, List.append_assoc]
  exact cellString_map bytes rest

end Area

end Camex.Lib
