import Camex.Lib.Runs
import Camex.NetSend

/-!
# Whole frames on every TCP connection

The calls that send on TCP connections, in any order and with any results of `send`. When nothing is written
to a connection behind a frame that an error cut short (`NothingBehindCut`), the bytes on it are whole frames and at
most a part of one at the end (`tcpSendStreams`). `net_tcp_send_frame_ex` does not see to that itself: it drops the
rest of the frame and starts the next one (`not_tcpSendStreams`).
-/

namespace Camex

open Lib

variable {k : ℕ}

/-- A call, with what `select`, the allocator and `send` give it. -/
inductive SendEvent (k : ℕ)
  | frame (fd : ℤ) (data : Bytes) (grow : Bool) (writes : List Write)
  | flush (fd : ℤ) (writes : List Write)
  | flushWritable (set : ℤ → Bool) (writes : Fin k → List Write)
  | close (fd : ℤ)

def sendStep (s : SendSide k) : SendEvent k → SendSide k
  | .frame fd data grow writes => (netTcpSendFrameEx s fd data grow writes).2.2
  | .flush fd writes => (netTcpFlushPending s fd writes).2
  | .flushWritable set writes => netTcpFlushWritable s set writes
  | .close fd => netTcpCloseSend s fd

def sendMachine (k : ℕ) : Machine (SendSide k) (SendEvent k) where
  start s := s = tcpPendingInit
  next s e := some (sendStep s e)

/-- The call works on the connection. -/
def SendEvent.About : SendEvent k → ℤ → Prop
  | .frame fd _ _ _, x | .flush fd _, x | .close fd, x => fd = x
  | .flushWritable set _, x => set x = true

/-- `send` takes no byte of a connection on which an error has cut a frame short. -/
def NothingBehindCut (s : SendSide k) : SendEvent k → Prop
  | .frame fd _ _ writes | .flush fd writes => (s.wire fd).cut = true → ∀ w ∈ writes, w.Quiet
  | .flushWritable set writes => ∀ i, set (s.tcpPending i).fd = true → (s.wire (s.tcpPending i).fd).cut = true →
      ∀ w ∈ writes i, w.Quiet
  | .close _ => True

/-- The frames that a call gives to a connection. -/
def givenBy (fd : ℤ) : SendEvent k → List Bytes
  | .frame x data _ _ => if x = fd then [data] else []
  | _ => []

def framesGiven (fd : ℤ) (es : List (SendEvent k)) : List Bytes := es.flatMap (givenBy fd)

/-- What a call does to a connection: nothing, a flush, an offer of its frame, or its end. -/
inductive CallCase (s : SendSide k) (fd : ℤ) (e : SendEvent k) (o : Outbox) : Prop
  | none (h : o = s.outbox fd) (hgiven : givenBy fd e = [])
  | flush (writes : List Write) (h : o = ((s.outbox fd).flush writes).2.1) (hgiven : givenBy fd e = [])
      (habout : e.About fd) (hquiet : NothingBehindCut s e → (s.wire fd).cut = true → ∀ w ∈ writes, w.Quiet)
  | offer (data : Bytes) (fits room : Bool) (writes : List Write)
      (h : o = ((s.outbox fd).offer data fits room writes).2.2) (hgiven : givenBy fd e = [data]) (habout : e.About fd)
      (hquiet : NothingBehindCut s e → (s.wire fd).cut = true → ∀ w ∈ writes, w.Quiet)
  | close (h : o = .empty) (he : e = .close fd)

theorem sendStep_case {s : SendSide k} (h : s.Ok) (e : SendEvent k) (fd : ℤ) :
    (sendStep s e).Ok ∧ CallCase s fd e ((sendStep s e).outbox fd) := by
  cases e with
  | frame x data grow writes =>
    obtain ⟨hok, fits, room, -, houtbox⟩ := h.sent x data grow writes
    refine ⟨hok, ?_⟩
    by_cases hx : fd = x
    · subst hx
      refine .offer data fits room writes ?_ (if_pos rfl) rfl fun hquiet => hquiet
      exact (houtbox fd).trans (if_pos rfl)
    · exact .none ((houtbox fd).trans (if_neg hx)) (if_neg fun heq => hx heq.symm)
  | flush x writes =>
    have hflushed := h.flushed x writes
    refine ⟨hflushed.ok, ?_⟩
    by_cases hx : fd = x
    · subst hx
      exact .flush writes hflushed.outbox rfl rfl fun hquiet => hquiet
    · exact .none (hflushed.others fd hx) rfl
  | flushWritable set writes =>
    obtain ⟨hok, hsame | ⟨i, hi, hset, hflush⟩⟩ := h.flushWritable set writes fd
    · exact ⟨hok, .none hsame rfl⟩
    · refine ⟨hok, .flush (writes i) hflush rfl hset fun hquiet hcut => ?_⟩
      exact hquiet i (by rw [hi]; exact hset) (by rw [hi]; exact hcut)
  | close x =>
    by_cases hx0 : x < 0
    · have hsame : netTcpCloseSend s x = s := if_pos hx0
      exact ⟨by rwa [show sendStep s (.close x) = s from hsame],
        .none (by rw [show sendStep s (.close x) = s from hsame]) rfl⟩
    · obtain ⟨hok, houtbox⟩ := h.close (show 0 ≤ x by omega)
      refine ⟨hok, ?_⟩
      by_cases hx : fd = x
      · subst hx
        exact .close ((houtbox fd).trans (if_pos rfl)) rfl
      · exact .none ((houtbox fd).trans (if_neg hx)) rfl

/-! ## The invariant -/

/-- The slots are those of outboxes that send whole frames. -/
structure Sending (s : SendSide k) : Prop where
  ok : s.Ok
  outbox : ∀ fd, (s.outbox fd).Ok
  framed : ∀ fd, (s.outbox fd).Framed

theorem Sending.init : Sending (tcpPendingInit : SendSide k) := by
  have hempty : ∀ fd, (tcpPendingInit : SendSide k).outbox fd = .empty := fun fd => by
    have hqueue : (tcpPendingInit : SendSide k).queue fd = none := by
      by_cases hfd : fd < 0
      · exact if_pos hfd
      · exact SendSide.queue_none fun i heq => hfd (by rw [← heq]; simp [tcpPendingInit])
    unfold SendSide.outbox
    rw [hqueue]
    rfl
  exact ⟨.init, fun fd => hempty fd ▸ .empty, fun fd => hempty fd ▸ .empty⟩

theorem Sending.step {s : SendSide k} (h : Sending s) {e : SendEvent k} (hc : NothingBehindCut s e) :
    Sending (sendStep s e) := by
  refine ⟨(sendStep_case h.ok e 0).1, fun fd => ?_, fun fd => ?_⟩
  · cases (sendStep_case h.ok e fd).2 with
    | none ho => exact ho ▸ h.outbox fd
    | flush writes ho => exact ho ▸ (h.outbox fd).flush writes
    | offer data fits room writes ho => exact ho ▸ (h.outbox fd).offer data fits room writes
    | close ho => exact ho ▸ .empty
  · cases (sendStep_case h.ok e fd).2 with
    | none ho => exact ho ▸ h.framed fd
    | flush writes ho hgiven habout hquiet => exact ho ▸ (h.framed fd).flush (h.outbox fd) (hquiet hc)
    | offer data fits room writes ho hgiven habout hquiet =>
      exact ho ▸ (h.framed fd).offer (h.outbox fd) (hquiet hc) data fits room
    | close ho => exact ho ▸ .empty

theorem Sending.run {s : SendSide k} {es : List (SendEvent k)}
    (hrun : Machine.Steps (sendMachine k) NothingBehindCut tcpPendingInit es s) : Sending s := by
  refine hrun.preserves (I := Sending) (fun s t e hs hc hstep => ?_) .init
  cases hstep
  exact hs.step hc

/-- While a connection is open, the bytes written to it are of its sources. -/
theorem writing_run {s t : SendSide k} {fd : ℤ} {es : List (SendEvent k)}
    (hrun : Machine.Steps (sendMachine k) (fun _ e => e ≠ .close fd) s es t) (h : s.Ok) {start : Bytes}
    {sources : List Bytes} (hw : (s.outbox fd).Writing start sources) :
    (t.outbox fd).Writing start (sources ++ (framesGiven fd es).map frameBytes) := by
  induction hrun generalizing sources with
  | nil s => simpa [framesGiven] using hw
  | @cons s t u e es hstep hc _ ih =>
    cases hstep
    obtain ⟨hok, hcase⟩ := sendStep_case h e fd
    have hsplit : (framesGiven fd (e :: es)).map frameBytes =
        (givenBy fd e).map frameBytes ++ (framesGiven fd es).map frameBytes := by simp [framesGiven]
    rw [hsplit, ← List.append_assoc]
    refine ih hok ?_
    cases hcase with
    | none ho hgiven => simpa [ho, hgiven] using hw
    | flush writes ho hgiven => simpa [ho, hgiven] using hw.flush writes
    | offer data fits room writes ho hgiven => simpa [ho, hgiven] using hw.offer data fits room writes
    | close ho he => exact absurd he hc

/-! ## The send side -/

/-- What the send side gives a connection in a state: the bytes written are whole frames in the order of the calls,
then a part of one at most; a frame that is reported as accepted is kept, one that is not is not; what is written from
now on until the close belongs to the frame in the slot and to frames given from now on; calls on other connections
leave it alone, and its close leaves nothing to be written. -/
structure SendStream (s : SendSide k) (fd : ℤ) : Prop where
  framed : (s.outbox fd).Framed
  order : (s.wire fd).kept.Sublist (s.wire fd).given
  report : ∀ data grow writes, if (netTcpSendFrameEx s fd data grow writes).2.1
    then ((netTcpSendFrameEx s fd data grow writes).2.2.wire fd).kept = (s.wire fd).kept ++ [data]
    else ((netTcpSendFrameEx s fd data grow writes).2.2.wire fd).kept = (s.wire fd).kept ∨
      ((netTcpSendFrameEx s fd data grow writes).2.2.wire fd).kept = (s.wire fd).kept.dropLast
  later : ∀ es t, Machine.Steps (sendMachine k) (fun _ e => e ≠ .close fd) s es t →
    (s.outbox fd).Adds (framesGiven fd es) (t.outbox fd)
  alone : ∀ e : SendEvent k, ¬ e.About fd → (sendStep s e).outbox fd = s.outbox fd
  closed : 0 ≤ fd → (sendStep s (.close fd)).outbox fd = .empty

/-- **The send side of TCP connections**, in every run of its calls in which nothing is written behind a frame that
an error cut short. -/
theorem tcpSendStreams {s : SendSide k} {es : List (SendEvent k)}
    (hrun : Machine.Steps (sendMachine k) NothingBehindCut tcpPendingInit es s) (fd : ℤ) : SendStream s fd := by
  have h := Sending.run hrun
  refine ⟨h.framed fd, (h.outbox fd).1, fun data grow writes => ?_, fun es t hsteps => ?_, fun e he => ?_, fun hfd => ?_⟩
  · obtain ⟨-, fits, room, hrc, houtbox⟩ := h.ok.sent fd data grow writes
    have hreport := (s.outbox fd).offer_report data fits room writes
    have haccepted : (netTcpSendFrameEx s fd data grow writes).2.1 = ((s.outbox fd).offer data fits room writes).2.1 :=
      (Prod.ext_iff.mp hrc).2
    have hkept := congrArg Outbox.kept ((houtbox fd).trans (if_pos rfl))
    rw [← hkept, ← haccepted] at hreport
    exact hreport
  · exact (writing_run hsteps h.ok (.start (s.outbox fd))).adds
  · cases (sendStep_case h.ok e fd).2 with
    | none ho => exact ho
    | flush writes ho hgiven habout => exact absurd habout he
    | offer data fits room writes ho hgiven habout => exact absurd habout he
    | close ho hclose => exact absurd (hclose ▸ rfl) he
  · exact ((h.ok.close hfd).2 fd).trans (if_pos rfl)

/-- Two connections: on the first a frame goes out in two pieces and an error hits the next one before its first
byte; the second is closed with a frame unfinished. -/
def sendRun : List (SendEvent 2) :=
  [.frame 5 [7, 8] true [.bytes 1, .again], .frame 6 [9] true [.bytes 2],
    .frame 5 [1] true [.bytes 9, .failed], .close 6, .frame 6 [2] true [.bytes 9]]

theorem tcpSendStreams_two : ∃ s : SendSide 2,
    Machine.Steps (sendMachine 2) NothingBehindCut tcpPendingInit sendRun s ∧
      (s.wire 5).written = streamBytes [[7, 8]] ∧ (s.wire 6).written = streamBytes [[2]] ∧
      SendStream s 5 ∧ SendStream s 6 := by
  have hrun : Machine.Steps (sendMachine 2) NothingBehindCut tcpPendingInit sendRun _ :=
    .cons rfl (fun h => by cases h) (.cons rfl (fun h => by cases h) (.cons rfl (fun h => by cases h)
      (.cons rfl trivial (.cons rfl (fun h => by cases h) (.nil _)))))
  exact ⟨_, hrun, by decide +kernel, by decide +kernel, tcpSendStreams hrun 5, tcpSendStreams hrun 6⟩

/-- An error cuts a frame short behind its first byte, and the next frame is written behind that byte: the bytes on the
connection are no frames of those given. -/
theorem not_tcpSendStreams : ¬ ∀ (s : SendSide 1) (es : List (SendEvent 1)),
    Machine.Steps (sendMachine 1) (fun _ _ => True) tcpPendingInit es s → ∀ fd, ∃ sent part,
      sent.Sublist (s.wire fd).given ∧ (s.wire fd).written = streamBytes sent ++ part ∧
        Outbox.Piece part (s.wire fd).given := by
  intro hall
  obtain ⟨sent, part, hsub, hwritten, hpiece⟩ := hall _
    [.frame 5 [7] true [.bytes 1, .failed], .frame 5 [8] true [.bytes 9]]
    (.cons rfl trivial (.cons rfl trivial (.nil _))) 5
  rw [show ((sendStep (sendStep (tcpPendingInit : SendSide 1) (.frame 5 [7] true [.bytes 1, .failed]))
    (.frame 5 [8] true [.bytes 9])).wire 5).given = [[7], [8]] by decide +kernel] at hsub hpiece
  rw [show ((sendStep (sendStep (tcpPendingInit : SendSide 1) (.frame 5 [7] true [.bytes 1, .failed]))
    (.frame 5 [8] true [.bytes 9])).wire 5).written = [0, 0, 1, 8] by decide +kernel] at hwritten
  have hsent : sent = [] := by
    cases sent with
    | nil => rfl
    | cons f rest =>
      -- a frame of those given would start with its length, 1
      have hmem : f ∈ [[7], [8]] := hsub.subset List.mem_cons_self
      rcases List.mem_pair.mp hmem with rfl | rfl
      · simp [lengthBytes] at hwritten
      · simp [lengthBytes] at hwritten
  subst hsent
  rw [streamBytes_nil, List.nil_append] at hwritten
  rcases hpiece with hnil | ⟨f, hmem, hprefix, -⟩
  · rw [hnil] at hwritten
    cases hwritten
  · -- it is longer than the encoding of a frame of one byte
    have hlen := hprefix.length_le
    rw [← hwritten] at hlen
    rcases List.mem_pair.mp hmem with rfl | rfl
    · simp [frameBytes, lengthBytes] at hlen
    · simp [frameBytes, lengthBytes] at hlen

end Camex
