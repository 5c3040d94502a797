import Camex.Lib.Outbox
import Camex.Lib.Slots
import Camex.Session

/-!
# Sending on TCP connections (`net.c`)

The frames that a `send` left unfinished wait in `tcp_pending`, one slot a descriptor. A `SendSide` is that
table together with what was seen of each connection since its descriptor was last closed (`Wire`).

`SendSide.outbox s fd` reads the connection `fd` as an outbox, and the functions of `net.c` are the
operations of it: `Ok.flushed`, `Ok.sent`, `Ok.flushWritable`, `Ok.close`. They leave the outboxes of the other
connections as they are.
-/

namespace Camex

open Lib

/-- The largest frame: its length in 2 bytes and an encrypted packet of `TUN_PACKET_MAX` bytes. -/
def TCP_SEND_BUF_SIZE : ℕ := 2 + V2_OVERHEAD + TUN_PACKET_MAX

/-- `tcp_send_pending_t`: the owner, -1 when the slot is free, and its buffer once it has one. -/
structure TcpSendPending where
  fd : ℤ
  buf : Option Bytes
  len : ℕ
  offset : ℕ
  deriving DecidableEq

/-- What was seen of a connection: the bytes written to it, the frames given to `net_tcp_send_frame_ex`, of
these those put into the slot and not hit by an error, and whether an error cut a frame short. -/
structure Wire where
  written : Bytes
  given : List Bytes
  kept : List Bytes
  cut : Bool
  deriving DecidableEq

def Wire.fresh : Wire := ⟨[], [], [], false⟩

/-- `tcp_pending` of `k` slots (`TCP_PENDING_SLOTS`) and the connections. -/
structure SendSide (k : ℕ) where
  tcpPending : Fin k → TcpSendPending
  wire : ℤ → Wire

variable {k : ℕ}

def tcpPendingInit : SendSide k := ⟨fun _ => ⟨-1, none, 0, 0⟩, fun _ => .fresh⟩

namespace SendSide

def setSlot (s : SendSide k) (i : Fin k) (slot : TcpSendPending) : SendSide k :=
  { s with tcpPending := Function.update s.tcpPending i slot }

def setWire (s : SendSide k) (fd : ℤ) (w : Wire) : SendSide k := { s with wire := Function.update s.wire fd w }

/-- `send`: the bytes it takes stand on the connection. -/
def send (s : SendSide k) (fd : ℤ) (bytes : Bytes) : SendSide k :=
  s.setWire fd { s.wire fd with written := (s.wire fd).written ++ bytes }

/-- A frame was put into the slot of the connection. -/
def keep (s : SendSide k) (fd : ℤ) (frame : Bytes) : SendSide k :=
  s.setWire fd { s.wire fd with kept := (s.wire fd).kept ++ [frame] }

/-- An error hit the frame in the slot, of which `offset` bytes are out. -/
def hit (s : SendSide k) (fd : ℤ) (offset : ℕ) : SendSide k :=
  s.setWire fd { s.wire fd with kept := (s.wire fd).kept.dropLast, cut := (s.wire fd).cut || offset != 0 }

end SendSide

def tcpPendingFind (s : SendSide k) (fd : ℤ) : Option (Fin k) := lowest fun i => (s.tcpPending i).fd == fd

/-- The free slot that `tcp_pending_acquire` takes: one that has a buffer, if there is one. -/
def tcpPendingFree (s : SendSide k) : Option (Fin k) :=
  (lowest fun i => (s.tcpPending i).fd == -1 && (s.tcpPending i).buf.isSome).or
    (lowest fun i => (s.tcpPending i).fd == -1)

/-- `grow`: whether `key_locked_calloc` gives a buffer. -/
def tcpPendingAcquire (s : SendSide k) (grow : Bool) (fd : ℤ) : Option (Fin k × SendSide k) :=
  match tcpPendingFree s with
  | none => none
  | some i =>
    match (s.tcpPending i).buf with
    | some buf => some (i, s.setSlot i ⟨fd, some buf, 0, 0⟩)
    | none => if grow then some (i, s.setSlot i ⟨fd, some (List.replicate TCP_SEND_BUF_SIZE 0), 0, 0⟩) else none

def tcpPendingRelease (slot : TcpSendPending) : TcpSendPending := { slot with fd := -1, len := 0, offset := 0 }

def TcpSendPending.unsent (slot : TcpSendPending) : Bytes := ((slot.buf.getD []).take slot.len).drop slot.offset

/-- `writes` are the results of `send` in turn. The result is 0 (`done`), 1 (`again`) or -1 (`closed`). -/
def tcpSendFlushPending (s : SendSide k) (fd : ℤ) (writes : List Write) : Stop × SendSide k × List Write :=
  match tcpPendingFind s fd with
  | none => (.done, s, writes)
  | some i =>
    if fd < 0 then (.done, s, writes)
    else
      let slot := s.tcpPending i
      match writeLoop writes slot.unsent with
      | (wrote, _, writes, .done) => (.done, (s.send fd wrote).setSlot i (tcpPendingRelease slot), writes)
      | (wrote, _, writes, .again) =>
        (.again, (s.send fd wrote).setSlot i { slot with offset := slot.offset + wrote.length }, writes)
      | (wrote, _, writes, .closed) =>
        -- hard error: discard pending
        (.closed, ((s.send fd wrote).hit fd (slot.offset + wrote.length)).setSlot i (tcpPendingRelease slot), writes)

/-- The frame in the slot, behind the bytes that its buffer held before. -/
def TcpSendPending.load (slot : TcpSendPending) (data : Bytes) : TcpSendPending :=
  { slot with
    buf := slot.buf.map fun buf => frameBytes data ++ buf.drop (2 + data.length)
    len := 2 + data.length, offset := 0 }

/-- `net_tcp_send_frame_ex`: the result, `*accepted` and the state. -/
def netTcpSendFrameEx (s : SendSide k) (fd : ℤ) (data : Bytes) (grow : Bool) (writes : List Write) :
    Stop × Bool × SendSide k :=
  let s := s.setWire fd { s.wire fd with given := (s.wire fd).given ++ [data] }
  if fd < 0 ∨ TCP_SEND_BUF_SIZE - 2 < data.length then (.closed, false, s)
  else
    -- flush any pending data for this descriptor first
    match tcpSendFlushPending s fd writes with
    | (.done, s, writes) =>
      match tcpPendingAcquire s grow fd with
      | none => (.closed, false, s)
      | some (i, s) =>
        let s := (s.keep fd data).setSlot i ((s.tcpPending i).load data)
        match tcpSendFlushPending s fd writes with
        | (rc, s, _) => (rc, rc != .closed, s)
    | (rc, s, _) => (rc, false, s)

/-- `set`: the descriptors that `select` reported; `writes i`: the results of `send` for the slot `i`. -/
def flushSlot (set : ℤ → Bool) (writes : Fin k → List Write) (i : Fin k) (s : SendSide k) : SendSide k :=
  if 0 ≤ (s.tcpPending i).fd ∧ set (s.tcpPending i).fd then
    (tcpSendFlushPending s (s.tcpPending i).fd (writes i)).2.1
  else s

def netTcpFlushWritable (s : SendSide k) (set : ℤ → Bool) (writes : Fin k → List Write) : SendSide k :=
  forSlots (flushSlot set writes) s

def netTcpFlushPending (s : SendSide k) (fd : ℤ) (writes : List Write) : Stop × SendSide k :=
  let r := tcpSendFlushPending s fd writes
  (r.1, r.2.1)

/-- `net_tcp_close`: what is seen under this number from now on is another connection. -/
def netTcpCloseSend (s : SendSide k) (fd : ℤ) : SendSide k :=
  if fd < 0 then s
  else
    (match tcpPendingFind s fd with
      | some i => s.setSlot i (tcpPendingRelease (s.tcpPending i))
      | none => s).setWire fd .fresh

/-! ## The slots as outboxes -/

def TcpSendPending.frame (slot : TcpSendPending) : Bytes := ((slot.buf.getD []).take slot.len).drop 2

/-- The buffer holds the encoding of its frame. -/
def TcpSendPending.Loaded (slot : TcpSendPending) : Prop := (slot.buf.getD []).take slot.len = frameBytes slot.frame

theorem drop_frameBytes (f : Bytes) : (frameBytes f).drop 2 = f := by simp [frameBytes, lengthBytes]

theorem TcpSendPending.loaded_load {slot : TcpSendPending} (data : Bytes) (hbuf : slot.buf.isSome = true) :
    (slot.load data).frame = data ∧ (slot.load data).Loaded := by
  obtain ⟨buf, hb⟩ := Option.isSome_iff_exists.mp hbuf
  have hlen : 2 + data.length = (frameBytes data).length := by simp [frameBytes, lengthBytes]; omega
  have htake : ((slot.load data).buf.getD []).take (slot.load data).len = frameBytes data := by
    simp only [load, hb, Option.map_some, Option.getD_some]
    rw [hlen, List.take_left]
  have hframe : (slot.load data).frame = data := by rw [frame, htake, drop_frameBytes]
  exact ⟨hframe, by rw [Loaded, hframe, htake]⟩

/-- The frame in the slot of a descriptor and the number of its bytes that are out. -/
def SendSide.queue (s : SendSide k) (fd : ℤ) : Option (Bytes × ℕ) :=
  if fd < 0 then none
  else (tcpPendingFind s fd).map fun i => ((s.tcpPending i).frame, (s.tcpPending i).offset)

def SendSide.outbox (s : SendSide k) (fd : ℤ) : Outbox :=
  ⟨s.queue fd, (s.wire fd).written, (s.wire fd).given, (s.wire fd).kept, (s.wire fd).cut⟩

/-- A descriptor has one slot at most, and a slot that is taken holds a frame. -/
structure SendSide.Ok (s : SendSide k) : Prop where
  one : ∀ i j, 0 ≤ (s.tcpPending i).fd → (s.tcpPending j).fd = (s.tcpPending i).fd → j = i
  loaded : ∀ i, 0 ≤ (s.tcpPending i).fd → (s.tcpPending i).Loaded

namespace SendSide

theorem Ok.init : (tcpPendingInit : SendSide k).Ok :=
  ⟨fun i j h => absurd h (by simp [tcpPendingInit]), fun i h => absurd h (by simp [tcpPendingInit])⟩

@[simp] theorem tcpPending_send (s : SendSide k) (fd : ℤ) (bytes : Bytes) :
    (s.send fd bytes).tcpPending = s.tcpPending := rfl

@[simp] theorem tcpPending_setSlot_self (s : SendSide k) (i : Fin k) (slot : TcpSendPending) :
    (s.setSlot i slot).tcpPending i = slot := by simp [setSlot]

theorem tcpPending_setSlot_of_ne (s : SendSide k) {i j : Fin k} (slot : TcpSendPending) (h : j ≠ i) :
    (s.setSlot i slot).tcpPending j = s.tcpPending j := by simp [setSlot, Function.update_of_ne h]

theorem Ok.congr {s t : SendSide k} (h : s.Ok) (hp : t.tcpPending = s.tcpPending) : t.Ok :=
  ⟨by rw [hp]; exact h.one, by rw [hp]; exact h.loaded⟩

/-- A slot is set: it is free, or holds a frame of a descriptor with no other slot. -/
theorem Ok.setSlot {s : SendSide k} (h : s.Ok) {i : Fin k} {slot : TcpSendPending}
    (hone : 0 ≤ slot.fd → ∀ j, j ≠ i → (s.tcpPending j).fd ≠ slot.fd) (hloaded : 0 ≤ slot.fd → slot.Loaded) :
    (s.setSlot i slot).Ok := by
  refine ⟨fun a b ha hab => ?_, fun a ha => ?_⟩
  · by_cases hai : a = i
    · subst hai
      rw [tcpPending_setSlot_self] at ha hab
      by_contra hne
      rw [tcpPending_setSlot_of_ne s slot hne] at hab
      exact hone ha b hne hab
    · rw [tcpPending_setSlot_of_ne s slot hai] at ha hab
      by_cases hbi : b = i
      · subst hbi
        rw [tcpPending_setSlot_self] at hab
        exact absurd hab.symm (hone (hab ▸ ha) a hai)
      · rw [tcpPending_setSlot_of_ne s slot hbi] at hab
        exact h.one a b ha hab
  · by_cases hai : a = i
    · subst hai
      rw [tcpPending_setSlot_self] at ha ⊢
      exact hloaded ha
    · rw [tcpPending_setSlot_of_ne s slot hai] at ha ⊢
      exact h.loaded a ha

theorem find_some {s : SendSide k} {fd : ℤ} {i : Fin k} (h : tcpPendingFind s fd = some i) :
    (s.tcpPending i).fd = fd := by simpa using lowest_some h

theorem find_none {s : SendSide k} {fd : ℤ} (h : tcpPendingFind s fd = none) (i : Fin k) :
    (s.tcpPending i).fd ≠ fd := by simpa using lowest_eq_none.mp h i

theorem Ok.find {s : SendSide k} (h : s.Ok) {i : Fin k} (hi : 0 ≤ (s.tcpPending i).fd) :
    tcpPendingFind s (s.tcpPending i).fd = some i :=
  lowest_unique (by simp) fun j hj => h.one i j hi (by simpa using hj)

theorem Ok.queue_some {s : SendSide k} (h : s.Ok) {fd : ℤ} (hfd : 0 ≤ fd) {i : Fin k}
    (hi : (s.tcpPending i).fd = fd) :
    s.queue fd = some ((s.tcpPending i).frame, (s.tcpPending i).offset) := by
  subst hi
  rw [queue, if_neg (by omega), h.find hfd, Option.map_some]

theorem queue_none {s : SendSide k} {fd : ℤ} (h : ∀ i, (s.tcpPending i).fd ≠ fd) : s.queue fd = none := by
  unfold queue
  split
  · rfl
  · rw [show tcpPendingFind s fd = none from lowest_eq_none.mpr fun i => by simp [h i]]
    rfl

theorem queue_setSlot_of_ne {s : SendSide k} {i : Fin k} {slot : TcpSendPending} {fd : ℤ}
    (hold : (s.tcpPending i).fd ≠ fd) (hnew : slot.fd ≠ fd) : (s.setSlot i slot).queue fd = s.queue fd := by
  have hfd : ∀ j, ((s.setSlot i slot).tcpPending j).fd == fd ↔ (s.tcpPending j).fd == fd := fun j => by
    by_cases hj : j = i
    · subst hj
      simp [hold, hnew]
    · rw [tcpPending_setSlot_of_ne s slot hj]
  have hfind : tcpPendingFind (s.setSlot i slot) fd = tcpPendingFind s fd :=
    lowest_congr fun j => Bool.eq_iff_iff.mpr (hfd j)
  unfold queue
  rw [hfind]
  cases hf : tcpPendingFind s fd with
  | none => rfl
  | some j =>
    have hj : j ≠ i := by
      rintro rfl
      exact hold (find_some hf)
    simp only [Option.map_some, tcpPending_setSlot_of_ne s slot hj]

/-- What a flush of the connection `fd` did. -/
structure Flushed (s : SendSide k) (fd : ℤ) (writes : List Write) (r : Stop × SendSide k × List Write) : Prop where
  rc : r.1 = ((s.outbox fd).flush writes).1
  left : r.2.2 = ((s.outbox fd).flush writes).2.2
  ok : r.2.1.Ok
  outbox : r.2.1.outbox fd = ((s.outbox fd).flush writes).2.1
  others : ∀ x, x ≠ fd → r.2.1.outbox x = s.outbox x
  fds : ∀ j, (r.2.1.tcpPending j).fd = (s.tcpPending j).fd ∨ (r.2.1.tcpPending j).fd = -1

theorem Ok.flushed_idle {s : SendSide k} (h : s.Ok) {fd : ℤ} (hq : s.queue fd = none) (writes : List Write) :
    Flushed s fd writes (.done, s, writes) := by
  have hflush : (s.outbox fd).flush writes = (.done, s.outbox fd, writes) := Outbox.flush_none hq writes
  exact ⟨by rw [hflush], by rw [hflush], h, by rw [hflush], fun x _ => rfl, fun j => Or.inl rfl⟩

theorem Ok.release {s : SendSide k} (h : s.Ok) (i : Fin k) : (s.setSlot i (tcpPendingRelease (s.tcpPending i))).Ok :=
  h.setSlot (fun h0 => absurd h0 (by simp [tcpPendingRelease])) (fun h0 => absurd h0 (by simp [tcpPendingRelease]))

theorem Ok.queue_release {s : SendSide k} (h : s.Ok) {fd : ℤ} (hfd : 0 ≤ fd) {i : Fin k}
    (hi : (s.tcpPending i).fd = fd) : (s.setSlot i (tcpPendingRelease (s.tcpPending i))).queue fd = none := by
  refine queue_none fun j => ?_
  by_cases hj : j = i
  · subst hj
    rw [tcpPending_setSlot_self, show (tcpPendingRelease (s.tcpPending j)).fd = -1 from rfl]
    omega
  · rw [tcpPending_setSlot_of_ne s _ hj]
    exact fun heq => hj (h.one i j (hi ▸ hfd) (heq.trans hi.symm))

/-- The queues of the other descriptors, when a slot keeps its descriptor or is freed. -/
theorem queue_others {s : SendSide k} {i : Fin k} {slot : TcpSendPending} {fd x : ℤ}
    (hi : (s.tcpPending i).fd = fd) (hslot : slot.fd = fd ∨ slot.fd = -1) (hx : x ≠ fd) :
    (s.setSlot i slot).queue x = s.queue x := by
  by_cases hx0 : x < 0
  · simp only [queue, if_pos hx0]
  · exact queue_setSlot_of_ne (fun heq => hx (heq ▸ hi)) fun heq => by omega

theorem fds_setSlot {s : SendSide k} {i : Fin k} {slot : TcpSendPending}
    (hfd : slot.fd = (s.tcpPending i).fd ∨ slot.fd = -1) (j : Fin k) :
    ((s.setSlot i slot).tcpPending j).fd = (s.tcpPending j).fd ∨ ((s.setSlot i slot).tcpPending j).fd = -1 := by
  by_cases hj : j = i
  · subst hj
    rwa [tcpPending_setSlot_self]
  · rw [tcpPending_setSlot_of_ne s slot hj]
    exact Or.inl rfl

/-- The outbox of a connection after a slot was set and something happened on the wires. -/
theorem outbox_setSlot {s u : SendSide k} (hu : u.tcpPending = s.tcpPending) (i : Fin k) (slot : TcpSendPending)
    (fd : ℤ) : (u.setSlot i slot).outbox fd =
      ⟨(s.setSlot i slot).queue fd, (u.wire fd).written, (u.wire fd).given, (u.wire fd).kept, (u.wire fd).cut⟩ := by
  unfold outbox queue tcpPendingFind setSlot
  rw [hu]

theorem wire_setWire_self (s : SendSide k) (fd : ℤ) (w : Wire) : (s.setWire fd w).wire fd = w := by simp [setWire]

theorem wire_setWire_of_ne (s : SendSide k) {fd x : ℤ} (w : Wire) (h : x ≠ fd) : (s.setWire fd w).wire x = s.wire x := by
  simp [setWire, Function.update_of_ne h]

theorem Ok.flushed {s : SendSide k} (h : s.Ok) (fd : ℤ) (writes : List Write) :
    Flushed s fd writes (tcpSendFlushPending s fd writes) := by
  unfold tcpSendFlushPending
  cases hfind : tcpPendingFind s fd with
  | none => exact h.flushed_idle (queue_none (find_none hfind)) writes
  | some i =>
    dsimp only
    split
    · exact h.flushed_idle (by simp only [queue, if_pos ‹_›]) writes
    · rename_i hneg
      have hfd : 0 ≤ fd := by omega
      have hi : (s.tcpPending i).fd = fd := find_some hfind
      have hunsent : (s.tcpPending i).unsent = (frameBytes (s.tcpPending i).frame).drop (s.tcpPending i).offset := by
        rw [TcpSendPending.unsent, h.loaded i (hi ▸ hfd)]
      rw [hunsent]
      generalize hr : writeLoop writes ((frameBytes (s.tcpPending i).frame).drop (s.tcpPending i).offset) = q
      obtain ⟨wrote, rest, writes', stop⟩ := q
      have hflush := Outbox.flush_some (show (s.outbox fd).queue = _ from h.queue_some hfd hi) hr
      have hsend : (s.send fd wrote).wire fd = { s.wire fd with written := (s.wire fd).written ++ wrote } := by
        simp [send, setWire]
      cases stop with
      | done =>
        refine ⟨by rw [hflush], by rw [hflush], (h.release i).congr rfl, ?_, fun x hx => ?_, fds_setSlot (Or.inr rfl)⟩
        · rw [hflush]
          dsimp only [Outbox.after]
          rw [outbox_setSlot (tcpPending_send s fd wrote), h.queue_release hfd hi, hsend]
          rfl
        · dsimp only
          rw [outbox_setSlot (tcpPending_send s fd wrote), queue_others hi (Or.inr rfl) hx, send,
            wire_setWire_of_ne s _ hx]
          rfl
      | again =>
        have hok : (s.setSlot i { s.tcpPending i with offset := (s.tcpPending i).offset + wrote.length }).Ok :=
          h.setSlot (fun h0 j hj heq => hj (h.one i j h0 heq)) (h.loaded i)
        refine ⟨by rw [hflush], by rw [hflush], hok.congr rfl, ?_, fun x hx => ?_, fds_setSlot (Or.inl rfl)⟩
        · rw [hflush]
          dsimp only [Outbox.after]
          rw [outbox_setSlot (tcpPending_send s fd wrote), hok.queue_some (i := i) hfd (by simpa using hi), hsend,
            tcpPending_setSlot_self]
          rfl
        · dsimp only
          rw [outbox_setSlot (tcpPending_send s fd wrote), queue_others hi (by exact Or.inl hi) hx, send,
            wire_setWire_of_ne s _ hx]
          rfl
      | closed =>
        have hp : ((s.send fd wrote).hit fd ((s.tcpPending i).offset + wrote.length)).tcpPending = s.tcpPending := rfl
        refine ⟨by rw [hflush], by rw [hflush], (h.release i).congr rfl, ?_, fun x hx => ?_, fds_setSlot (Or.inr rfl)⟩
        · rw [hflush]
          dsimp only [Outbox.after]
          rw [outbox_setSlot hp, h.queue_release hfd hi]
          simp [hit, setWire, hsend, SendSide.outbox]
        · dsimp only
          rw [outbox_setSlot hp, queue_others hi (Or.inr rfl) hx, hit, wire_setWire_of_ne _ _ hx, send,
            wire_setWire_of_ne s _ hx]
          rfl

/-- The slot that `tcp_pending_acquire` takes was free; it has a buffer then. -/
theorem acquire_some {s t : SendSide k} {grow : Bool} {fd : ℤ} {i : Fin k}
    (h : tcpPendingAcquire s grow fd = some (i, t)) :
    (s.tcpPending i).fd = -1 ∧ ∃ buf, t = s.setSlot i ⟨fd, some buf, 0, 0⟩ := by
  unfold tcpPendingAcquire at h
  cases hfree : tcpPendingFree s with
  | none => rw [hfree] at h; cases h
  | some j =>
    have hfd : (s.tcpPending j).fd = -1 := by
      rcases Option.or_eq_some_iff.mp hfree with hj | ⟨-, hj⟩
      · have := lowest_some hj
        simp only [Bool.and_eq_true, beq_iff_eq] at this
        exact this.1
      · simpa using lowest_some hj
    rw [hfree] at h
    dsimp only at h
    cases hbuf : (s.tcpPending j).buf with
    | some buf =>
      rw [hbuf] at h
      cases h
      exact ⟨hfd, buf, rfl⟩
    | none =>
      rw [hbuf] at h
      cases grow with
      | false => cases h
      | true =>
        cases h
        exact ⟨hfd, _, rfl⟩

/-- A frame is put into a free slot. -/
theorem Ok.load {s t : SendSide k} (h : s.Ok) {grow : Bool} {fd : ℤ} (hfd : 0 ≤ fd) (hq : s.queue fd = none)
    {i : Fin k} (hacquire : tcpPendingAcquire s grow fd = some (i, t)) (data : Bytes) :
    ((t.keep fd data).setSlot i ((t.tcpPending i).load data)).Ok ∧
      ∀ x, ((t.keep fd data).setSlot i ((t.tcpPending i).load data)).outbox x =
        if x = fd then (s.outbox fd).push data else s.outbox x := by
  obtain ⟨hfree, buf, rfl⟩ := acquire_some hacquire
  rw [tcpPending_setSlot_self]
  have hload := @TcpSendPending.loaded_load ⟨fd, some buf, 0, 0⟩ data rfl
  generalize hslot : TcpSendPending.load ⟨fd, some buf, 0, 0⟩ data = slot at hload ⊢
  have hslotFd : slot.fd = fd := by rw [← hslot]; rfl
  have hoffset : slot.offset = 0 := by rw [← hslot]; rfl
  -- no slot of the descriptor
  have hno : ∀ j, (s.tcpPending j).fd ≠ fd := by
    unfold queue at hq
    rw [if_neg (by omega), Option.map_eq_none_iff] at hq
    exact find_none hq
  have hp : (((s.setSlot i ⟨fd, some buf, 0, 0⟩).keep fd data).setSlot i slot).tcpPending =
      (s.setSlot i slot).tcpPending := Function.update_idem _ _ _
  have hok : (s.setSlot i slot).Ok := h.setSlot (fun _ j _ => hslotFd ▸ hno j) fun _ => hload.2
  refine ⟨hok.congr hp, fun x => ?_⟩
  have houtbox : (((s.setSlot i ⟨fd, some buf, 0, 0⟩).keep fd data).setSlot i slot).outbox x =
      ⟨(s.setSlot i slot).queue x, ((s.keep fd data).wire x).written, ((s.keep fd data).wire x).given,
        ((s.keep fd data).wire x).kept, ((s.keep fd data).wire x).cut⟩ := by
    unfold outbox queue tcpPendingFind
    rw [hp]
    rfl
  rw [houtbox]
  by_cases hx : x = fd
  · subst hx
    rw [if_pos rfl, hok.queue_some (i := i) hfd (by simpa using hslotFd), tcpPending_setSlot_self, hload.1, hoffset]
    simp [keep, setWire, Outbox.push, SendSide.outbox]
  · have hqueue : (s.setSlot i slot).queue x = s.queue x := by
      by_cases hx0 : x < 0
      · simp only [queue, if_pos hx0]
      · exact queue_setSlot_of_ne (by omega) (by omega)
    rw [if_neg hx, hqueue, keep, wire_setWire_of_ne s _ hx]
    rfl

theorem outbox_given (s : SendSide k) (fd : ℤ) (data : Bytes) (x : ℤ) :
    (s.setWire fd { s.wire fd with given := (s.wire fd).given ++ [data] }).outbox x =
      if x = fd then (s.outbox fd).hand data else s.outbox x := by
  by_cases hx : x = fd
  · subst hx
    simp only [if_true]
    unfold outbox
    rw [show (s.setWire x { s.wire x with given := (s.wire x).given ++ [data] }).wire x =
      { s.wire x with given := (s.wire x).given ++ [data] } by simp [setWire]]
    rfl
  · rw [if_neg hx]
    unfold outbox
    rw [wire_setWire_of_ne s _ hx]
    rfl

/-- **`net_tcp_send_frame_ex` hands the frame to the outbox of its connection**, and leaves the others. -/
theorem Ok.sent {s : SendSide k} (h : s.Ok) (fd : ℤ) (data : Bytes) (grow : Bool) (writes : List Write) :
    (netTcpSendFrameEx s fd data grow writes).2.2.Ok ∧
    ∃ fits room,
      ((netTcpSendFrameEx s fd data grow writes).1, (netTcpSendFrameEx s fd data grow writes).2.1) =
        (((s.outbox fd).offer data fits room writes).1, ((s.outbox fd).offer data fits room writes).2.1) ∧
      ∀ x, (netTcpSendFrameEx s fd data grow writes).2.2.outbox x =
        if x = fd then ((s.outbox fd).offer data fits room writes).2.2 else s.outbox x := by
  unfold netTcpSendFrameEx
  dsimp only
  have hgivenOk : (s.setWire fd { s.wire fd with given := (s.wire fd).given ++ [data] }).Ok := h.congr rfl
  have hgiven := outbox_given s fd data
  generalize s.setWire fd { s.wire fd with given := (s.wire fd).given ++ [data] } = s₁ at hgivenOk hgiven ⊢
  have hself : s₁.outbox fd = (s.outbox fd).hand data := by rw [hgiven, if_pos rfl]
  by_cases hbad : fd < 0 ∨ TCP_SEND_BUF_SIZE - 2 < data.length
  · rw [if_pos hbad]
    exact ⟨hgivenOk, false, false, rfl, hgiven⟩
  · rw [if_neg hbad]
    have hflushed := hgivenOk.flushed fd writes
    generalize hr : tcpSendFlushPending s₁ fd writes = q at hflushed ⊢
    obtain ⟨rc, s₂, writes'⟩ := q
    have hpair : ((s.outbox fd).hand data).flush writes = (rc, s₂.outbox fd, writes') := by
      rw [← hself]
      exact Prod.ext hflushed.rc.symm (Prod.ext hflushed.outbox.symm hflushed.left.symm)
    have hothers : ∀ x, x ≠ fd → s₂.outbox x = s.outbox x := fun x hx => by
      rw [hflushed.others x hx, hgiven, if_neg hx]
    have hif : ∀ x (o : Outbox), s₂.outbox fd = o → s₂.outbox x = if x = fd then o else s.outbox x :=
      fun x o ho => by
        by_cases hx : x = fd
        · rw [if_pos hx, hx, ho]
        · rw [if_neg hx, hothers x hx]
    cases rc with
    | again =>
      refine ⟨hflushed.ok, true, true, ?_⟩
      simp only [Outbox.offer, if_true, hpair]
      exact ⟨trivial, fun x => hif x _ rfl⟩
    | closed =>
      refine ⟨hflushed.ok, true, true, ?_⟩
      simp only [Outbox.offer, if_true, hpair]
      exact ⟨trivial, fun x => hif x _ rfl⟩
    | done =>
      dsimp only
      cases hacquire : tcpPendingAcquire s₂ grow fd with
      | none =>
        refine ⟨hflushed.ok, true, false, ?_⟩
        simp only [Outbox.offer, if_true, hpair]
        exact ⟨rfl, fun x => hif x _ rfl⟩
      | some p =>
        obtain ⟨i, s₃⟩ := p
        dsimp only
        have hempty : s₂.queue fd = none := (Outbox.flush_done hpair).1
        obtain ⟨hok, hload⟩ := hflushed.ok.load (by omega) hempty hacquire data
        generalize (s₃.keep fd data).setSlot i ((s₃.tcpPending i).load data) = s₄ at hok hload ⊢
        have hflushed' := hok.flushed fd writes'
        have hself' : s₄.outbox fd = (s₂.outbox fd).push data := by rw [hload, if_pos rfl]
        refine ⟨hflushed'.ok, true, true, ?_⟩
        simp only [Outbox.offer, if_true, hpair, ← hself']
        refine ⟨by rw [hflushed'.rc], fun x => ?_⟩
        by_cases hx : x = fd
        · rw [if_pos hx, hx, hflushed'.outbox]
        · rw [if_neg hx, hflushed'.others x hx, hload, if_neg hx, hothers x hx]

/-- The slots that are taken in `u` were taken by the same descriptors in `s`. -/
def Fewer (s u : SendSide k) : Prop := ∀ j, (u.tcpPending j).fd = (s.tcpPending j).fd ∨ (u.tcpPending j).fd = -1

theorem Fewer.trans {s t u : SendSide k} (h₁ : Fewer s t) (h₂ : Fewer t u) : Fewer s u := fun j => by
  rcases h₂ j with h | h
  · rw [h]
    exact h₁ j
  · exact Or.inr h

theorem Ok.flushSlot {s : SendSide k} (h : s.Ok) (set : ℤ → Bool) (writes : Fin k → List Write) (i : Fin k) :
    (flushSlot set writes i s).Ok ∧ Fewer s (flushSlot set writes i s) ∧
      ∀ x, (0 ≤ x → (s.tcpPending i).fd ≠ x) → (flushSlot set writes i s).outbox x = s.outbox x := by
  unfold Camex.flushSlot
  split
  · rename_i hvisit
    have hflushed := h.flushed (s.tcpPending i).fd (writes i)
    refine ⟨hflushed.ok, hflushed.fds, fun x hx => hflushed.others x fun heq => ?_⟩
    exact hx (heq ▸ hvisit.1) heq.symm
  · exact ⟨h, fun j => Or.inl rfl, fun x _ => rfl⟩

/-- **`net_tcp_flush_writable` flushes the outbox of a connection** that is reported writable and has
something in a slot, and leaves the others. -/
theorem Ok.flushWritable {s : SendSide k} (h : s.Ok) (set : ℤ → Bool) (writes : Fin k → List Write) (x : ℤ) :
    (netTcpFlushWritable s set writes).Ok ∧
      ((netTcpFlushWritable s set writes).outbox x = s.outbox x ∨
        ∃ i, (s.tcpPending i).fd = x ∧ set x = true ∧
          (netTcpFlushWritable s set writes).outbox x = ((s.outbox x).flush (writes i)).2.1) := by
  have hall : (netTcpFlushWritable s set writes).Ok ∧ Fewer s (netTcpFlushWritable s set writes) :=
    forSlots_induction (I := fun u => u.Ok ∧ Fewer s u)
      (fun i u hu => ⟨(hu.1.flushSlot set writes i).1, hu.2.trans (hu.1.flushSlot set writes i).2.1⟩)
      ⟨h, fun j => Or.inl rfl⟩
  refine ⟨hall.1, ?_⟩
  by_cases hslot : 0 ≤ x ∧ ∃ i, (s.tcpPending i).fd = x
  · obtain ⟨hx, i, hi⟩ := hslot
    -- the other slots have other descriptors
    have hother : ∀ u, Fewer s u → ∀ j, j ≠ i → (u.tcpPending j).fd ≠ x := fun u hu j hj heq => by
      rcases hu j with hl | hl
      · exact hj (h.one i j (hi ▸ hx) (by rw [← hl, heq, hi]))
      · omega
    have hvisit := forSlots_visit (f := Camex.flushSlot set writes)
      (B := fun u => u.Ok ∧ Fewer s u ∧ u.outbox x = s.outbox x)
      (A := fun u => u.Ok ∧ Fewer s u ∧ (u.outbox x = s.outbox x ∨
        set x = true ∧ u.outbox x = ((s.outbox x).flush (writes i)).2.1)) (s := s) i
    refine (hvisit ?_ ?_ ?_ ⟨h, fun j => Or.inl rfl, rfl⟩).2.2.imp id fun hset => ⟨i, hi, hset⟩
    · rintro j u hj ⟨hu, hfewer, hsame⟩
      obtain ⟨hu', hfewer', hsame'⟩ := hu.flushSlot set writes j
      exact ⟨hu', hfewer.trans hfewer', by rw [hsame' x fun _ => hother u hfewer j hj, hsame]⟩
    · rintro u ⟨hu, hfewer, hsame⟩
      obtain ⟨hu', hfewer', hsame'⟩ := hu.flushSlot set writes i
      refine ⟨hu', hfewer.trans hfewer', ?_⟩
      by_cases hvisit : (u.tcpPending i).fd = x ∧ set x = true
      · refine Or.inr ⟨hvisit.2, ?_⟩
        unfold Camex.flushSlot
        rw [hvisit.1, if_pos ⟨hx, hvisit.2⟩, (hu.flushed x (writes i)).outbox, hsame]
      · refine Or.inl ?_
        by_cases hfd : (u.tcpPending i).fd = x
        · unfold Camex.flushSlot
          rw [hfd, if_neg fun hand => hvisit ⟨hfd, hand.2⟩, hsame]
        · rw [hsame' x fun _ => hfd, hsame]
    · rintro j u hj ⟨hu, hfewer, hsame⟩
      obtain ⟨hu', hfewer', hsame'⟩ := hu.flushSlot set writes j
      exact ⟨hu', hfewer.trans hfewer', by rw [hsame' x fun _ => hother u hfewer j hj]; exact hsame⟩
  · refine Or.inl (forSlots_induction (I := fun u => u.Ok ∧ Fewer s u ∧ u.outbox x = s.outbox x)
      (fun j u hu => ?_) ⟨h, fun j => Or.inl rfl, rfl⟩).2.2
    obtain ⟨hu', hfewer', hsame'⟩ := hu.1.flushSlot set writes j
    refine ⟨hu', hu.2.1.trans hfewer', ?_⟩
    rw [hsame' x fun hx heq => ?_, hu.2.2]
    rcases hu.2.1 j with hl | hl
    · exact hslot ⟨hx, j, by rw [← hl, heq]⟩
    · omega

theorem outbox_fresh {s : SendSide k} {fd : ℤ} (hq : s.queue fd = none) : (s.setWire fd .fresh).outbox fd = .empty := by
  have hqueue : (s.setWire fd .fresh).queue fd = none := hq
  unfold outbox
  rw [hqueue, wire_setWire_self]
  rfl

/-- **`net_tcp_close`**: the connection of this number is a fresh one, the others are as they were. -/
theorem Ok.close {s : SendSide k} (h : s.Ok) {fd : ℤ} (hfd : 0 ≤ fd) :
    (netTcpCloseSend s fd).Ok ∧
      ∀ x, (netTcpCloseSend s fd).outbox x = if x = fd then .empty else s.outbox x := by
  unfold netTcpCloseSend
  rw [if_neg (by omega)]
  cases hfind : tcpPendingFind s fd with
  | none =>
    refine ⟨h.congr rfl, fun x => ?_⟩
    by_cases hx : x = fd
    · rw [if_pos hx, hx]
      exact outbox_fresh (queue_none (find_none hfind))
    · rw [if_neg hx]
      dsimp only
      unfold outbox
      rw [wire_setWire_of_ne s _ hx]
      rfl
  | some i =>
    have hi : (s.tcpPending i).fd = fd := find_some hfind
    refine ⟨(h.release i).congr rfl, fun x => ?_⟩
    by_cases hx : x = fd
    · rw [if_pos hx, hx]
      exact outbox_fresh (h.queue_release hfd hi)
    · rw [if_neg hx]
      dsimp only
      unfold outbox
      rw [wire_setWire_of_ne _ _ hx,
        ← queue_others (i := i) hi (by exact Or.inr (show (tcpPendingRelease (s.tcpPending i)).fd = -1 from rfl)) hx]
      rfl

end SendSide

end Camex
