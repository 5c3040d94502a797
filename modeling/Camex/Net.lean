import Camex.Lib.Framing
import Camex.Util

/-!
# Addresses and TCP connections (`net.c`)

`netTcpRecvFrame` reads one frame of a connection. Its progress is kept in a `TcpRecvState`, the
bytes of the body in the buffer of the call. `netTcpRecvFrame_pending` and `netTcpRecvFrame_frame`
say what a call does when the unread bytes of the connection are those of a stream of frames.
-/

namespace Camex

open Lib

def AF_INET : ℕ := 2

/-- `sockaddr_in`. -/
structure SockAddr where
  family : ℕ
  port : BitVec 16
  ip : Ip
  deriving DecidableEq

def SockAddr.unset : SockAddr := ⟨0, 0, 0⟩

def netSockaddrEqual (a b : SockAddr) : Bool := a == b

/-! ## Connections -/

/-- A TCP connection: its descriptor and the bytes its peer has sent or will send that were not read
yet. -/
structure Socket where
  fd : ℤ
  unread : Bytes
  deriving DecidableEq

/-- `net_tcp_close`: the descriptor is gone, with what was not read from it. -/
def netTcpClose (sockets : List Socket) (fd : ℤ) : List Socket :=
  if fd < 0 then sockets else sockets.filter fun k => k.fd != fd

def socketUnread (sockets : List Socket) (fd : ℤ) : Option Bytes :=
  (sockets.find? fun k => k.fd == fd).map Socket.unread

def setUnread (sockets : List Socket) (fd : ℤ) (unread : Bytes) : List Socket :=
  sockets.map fun k => if k.fd == fd then { k with unread := unread } else k

/-! ## Frames -/

/-- `tcp_recv_state_t`; `header` is its first `header_have` bytes. -/
structure TcpRecvState where
  header : Bytes
  headerDone : Bool
  bodyLen : ℕ
  bodyHave : ℕ
  deriving DecidableEq

def TcpRecvState.zero : TcpRecvState := ⟨[], false, 0, 0⟩

/-- A buffer of a call: what stands at each place of it. -/
abbrev Buffer := ℕ → UInt8

/-- Bytes read to a place of the buffer. -/
def Buffer.write (buffer : Buffer) (place : ℕ) (got : Bytes) : Buffer := fun j =>
  if place ≤ j then got.getD (j - place) (buffer j) else buffer j

/-- What `net_tcp_recv_frame` returns: a whole frame, 1, or -1. -/
inductive RecvRc
  | frame (frame : Bytes)
  | again
  | error
  deriving DecidableEq

/-- The body loop: the result, the state and what is left unread. -/
def recvBody (buffer : Buffer) (st : TcpRecvState) (unread : Bytes) (reads : List Read) :
    RecvRc × TcpRecvState × Bytes :=
  let (got, unread, _, stop) := readLoop reads (st.bodyLen - st.bodyHave) unread
  match stop with
  | .again => (.again, { st with bodyHave := st.bodyHave + got.length }, unread)
  | .closed => (.error, { st with bodyHave := st.bodyHave + got.length }, unread)
  | .done =>
    (.frame ((List.range st.bodyLen).map (buffer.write st.bodyHave got)), .zero, unread)

/-- `net_tcp_recv_frame` with a buffer of `size` bytes. -/
def netTcpRecvFrame (size : ℕ) (buffer : Buffer) (st : TcpRecvState) (unread : Bytes)
    (reads : List Read) : RecvRc × TcpRecvState × Bytes :=
  if st.headerDone then recvBody buffer st unread reads
  else
    let (got, unread, reads, stop) := readLoop reads (2 - st.header.length) unread
    let st := { st with header := st.header ++ got }
    match stop with
    | .again => (.again, st, unread)
    | .closed => (.error, st, unread)
    | .done =>
      let len := beValue st.header
      if len = 0 ∨ size < len then (.error, { st with bodyLen := len }, unread)
      else recvBody buffer { st with headerDone := true, bodyLen := len, bodyHave := 0 } unread reads

/-! ## A connection that carries frames -/

/-- The frames still to come on a connection with this progress and these unread bytes. -/
def Pending (st : TcpRecvState) (unread : Bytes) (frames : List Bytes) : Prop :=
  if st.headerDone then
    ∃ f fs, frames = f :: fs ∧ st.bodyLen = f.length ∧ st.bodyHave ≤ f.length ∧
      unread = f.drop st.bodyHave ++ streamBytes fs
  else st.header.length < 2 ∧ st.header ++ unread = streamBytes frames

theorem Pending.zero (frames : List Bytes) : Pending .zero (streamBytes frames) frames :=
  ⟨by decide, rfl⟩

def FramesFit (size : ℕ) (frames : List Bytes) : Prop :=
  ∀ f ∈ frames, 0 < f.length ∧ f.length ≤ size

/-- What a call may answer and leave, when the frames `frames` are still to come: the next one, or
nothing yet, or an error when a read failed. -/
def RecvOk (frames : List Bytes) (reads : List Read) (result : RecvRc × TcpRecvState × Bytes) : Prop :=
  match result.1 with
  | .frame f => ∃ fs, frames = f :: fs ∧ Pending result.2.1 result.2.2 fs
  | .again => Pending result.2.1 result.2.2 frames
  | .error => Read.closed ∈ reads

theorem RecvOk.mono {frames : List Bytes} {reads reads' : List Read}
    {result : RecvRc × TcpRecvState × Bytes} (hsub : ∀ r ∈ reads', r ∈ reads)
    (h : RecvOk frames reads' result) : RecvOk frames reads result := by
  unfold RecvOk at h ⊢
  split at h
  · exact h
  · exact h
  · exact hsub _ h

/-- A buffer that was filled by one call from its start holds what was read. -/
theorem range_map_write_zero (buffer : Buffer) {f : Bytes} {k : ℕ} (hk : k = f.length) :
    (List.range k).map (buffer.write 0 f) = f := by
  subst hk
  refine List.ext_getElem (by simp) fun j h₁ h₂ => ?_
  simp [Buffer.write, List.getD_eq_getElem?_getD, List.getElem?_eq_getElem h₂]

theorem recvBody_ok (buffer : Buffer) {st : TcpRecvState} {unread : Bytes} (reads : List Read)
    {frames : List Bytes} (h : Pending st unread frames) (hdone : st.headerDone = true)
    (hstart : st.bodyHave = 0) : RecvOk frames reads (recvBody buffer st unread reads) := by
  unfold Pending at h
  rw [if_pos hdone] at h
  obtain ⟨f, fs, rfl, hlen, -, rfl⟩ := h
  unfold recvBody
  rw [hstart, Nat.sub_zero, List.drop_zero]
  generalize hr : readLoop reads st.bodyLen (f ++ streamBytes fs) = q
  obtain ⟨got, rest, reads', stop⟩ := q
  obtain ⟨hget, hle, hd⟩ := readLoop_spec _ _ _ hr
  -- what was read is a part of the body
  obtain ⟨tail, hf, hrest⟩ : ∃ tail, f = got ++ tail ∧ rest = tail ++ streamBytes fs := by
    rcases List.append_eq_append_iff.mp hget with ⟨tail, hf⟩ | ⟨tail, hf⟩
    · exact ⟨tail, hf⟩
    · have htail : tail = [] := by
        have := congrArg List.length hf.1
        rw [List.length_append] at this
        exact List.length_eq_zero_iff.mp (by omega)
      subst htail
      exact ⟨[], by simpa using hf.1.symm, by simpa using hf.2.symm⟩
  cases stop with
  | closed => exact (readLoop_reads _ _ _ hr).1 rfl
  | again =>
    have hpending : Pending { st with bodyHave := got.length } rest (f :: fs) := by
      unfold Pending
      rw [if_pos hdone]
      refine ⟨f, fs, rfl, hlen, by dsimp only; omega, ?_⟩
      rw [hrest, hf, List.drop_left]
    simpa [RecvOk] using hpending
  | done =>
    have htail : tail = [] := by
      have := congrArg List.length hf
      rw [List.length_append] at this
      exact List.length_eq_zero_iff.mp (by have := hd.mp rfl; omega)
    subst htail
    rw [List.append_nil] at hf
    rw [List.nil_append] at hrest
    refine ⟨fs, ?_, ?_⟩
    · rw [range_map_write_zero buffer (by rw [hlen, hf]), hf]
    · rw [hrest]
      exact Pending.zero fs

/-- **A call that does not resume inside a body** answers the next frame as it was sent, or leaves
all frames to come; it fails only when a read does. -/
theorem netTcpRecvFrame_ok {size : ℕ} (buffer : Buffer) {st : TcpRecvState} {unread : Bytes}
    (reads : List Read) {frames : List Bytes} (h : Pending st unread frames)
    (hfit : FramesFit size frames) (hsize : size < 2 ^ 16)
    (hstart : st.headerDone = true → st.bodyHave = 0) :
    RecvOk frames reads (netTcpRecvFrame size buffer st unread reads) := by
  unfold netTcpRecvFrame
  by_cases hdone : st.headerDone = true
  · rw [if_pos hdone]
    exact recvBody_ok buffer reads h hdone (hstart hdone)
  · rw [if_neg hdone]
    unfold Pending at h
    rw [if_neg hdone] at h
    obtain ⟨hhdr, hstream⟩ := h
    generalize hr : readLoop reads (2 - st.header.length) unread = q
    obtain ⟨got, rest, reads', stop⟩ := q
    obtain ⟨hget, hle, hd⟩ := readLoop_spec _ _ _ hr
    obtain ⟨hclosed, hsub⟩ := readLoop_reads _ _ _ hr
    rw [← hget, ← List.append_assoc] at hstream
    cases stop with
    | closed => exact hclosed rfl
    | again =>
      have hpending : Pending { st with header := st.header ++ got } rest frames := by
        unfold Pending
        rw [if_neg hdone]
        refine ⟨?_, hstream⟩
        have : got.length ≠ 2 - st.header.length := fun h => by cases hd.mpr h
        rw [List.length_append]
        omega
      exact hpending
    | done =>
      have hlen : (st.header ++ got).length = 2 := by
        have := hd.mp rfl
        rw [List.length_append]
        omega
      obtain ⟨f, fs, rfl, hval, hrest⟩ := streamBytes_header
        (fun f hf => lt_of_le_of_lt (hfit f hf).2 hsize) hlen hstream
      have hf := hfit f List.mem_cons_self
      dsimp only
      rw [if_neg (by omega)]
      subst hrest
      refine (recvBody_ok buffer reads' ?_ rfl rfl).mono hsub
      exact ⟨f, fs, rfl, hval, Nat.zero_le _, rfl⟩

end Camex
