import Camex.Lib.CString

/-!
# Length-prefixed frames on a byte stream

A frame is sent as its length in two bytes, most significant first, and its bytes. A stream is read
in pieces: a read gives some of the bytes asked for, or says that there are none yet, or that the
stream has ended.

* `frameBytes`, `streamBytes`: what is sent for a frame and for a list of frames;
* `readLoop`: reads until the wanted bytes are there; `readLoop_spec` says what it leaves;
* `streamBytes_header`: behind a complete header of a stream stands the frame it announces.
-/

namespace Camex.Lib

/-- The number a big-endian byte string spells. -/
def beValue (bs : Bytes) : ℕ := bs.foldl (fun v b => v * 256 + b.toNat) 0

def lengthBytes (k : ℕ) : Bytes := [UInt8.ofNat (k / 256), UInt8.ofNat (k % 256)]

def frameBytes (frame : Bytes) : Bytes := lengthBytes frame.length ++ frame

def streamBytes (frames : List Bytes) : Bytes := frames.flatMap frameBytes

@[simp] theorem streamBytes_nil : streamBytes [] = [] := rfl

@[simp] theorem streamBytes_cons (f : Bytes) (fs : List Bytes) :
    streamBytes (f :: fs) = lengthBytes f.length ++ (f ++ streamBytes fs) := by
  simp [streamBytes, frameBytes]

theorem beValue_lengthBytes {k : ℕ} (h : k < 2 ^ 16) : beValue (lengthBytes k) = k := by
  have h₁ : (UInt8.ofNat (k / 256)).toNat = k / 256 := by
    rw [UInt8.toNat_ofNat']
    exact Nat.mod_eq_of_lt (by omega)
  have h₂ : (UInt8.ofNat (k % 256)).toNat = k % 256 := by
    rw [UInt8.toNat_ofNat']
    exact Nat.mod_eq_of_lt (by omega)
  simp only [beValue, lengthBytes, List.foldl_cons, List.foldl_nil, h₁, h₂]
  omega

/-- Behind a complete header of a stream of frames stands the frame it announces. -/
theorem streamBytes_header {header rest : Bytes} {frames : List Bytes}
    (hframes : ∀ f ∈ frames, f.length < 2 ^ 16) (hlen : header.length = 2)
    (h : header ++ rest = streamBytes frames) :
    ∃ f fs, frames = f :: fs ∧ beValue header = f.length ∧ rest = f ++ streamBytes fs := by
  cases frames with
  | nil =>
    have := congrArg List.length h
    simp [hlen] at this
  | cons f fs =>
    rw [streamBytes_cons] at h
    obtain ⟨rfl, hrest⟩ := List.append_inj h (by rw [hlen]; rfl)
    exact ⟨f, fs, rfl, beValue_lengthBytes (hframes f List.mem_cons_self), hrest⟩

/-! ## Reads -/

/-- What one read gives: at most so many bytes, nothing yet, or the end of the stream. -/
inductive Read
  | bytes (k : ℕ)
  | again
  | closed
  deriving DecidableEq

/-- How a loop of reads ends. -/
inductive Stop
  | done
  | again
  | closed
  deriving DecidableEq

/-- Reads until `want` bytes were read: the bytes, what is unread, the reads left and how it ended.
A read of a stream with nothing in it says so. -/
def readLoop : List Read → ℕ → Bytes → Bytes × Bytes × List Read × Stop
  | reads, 0, unread => ([], unread, reads, .done)
  | [], _ + 1, unread => ([], unread, [], .again)
  | .again :: reads, _ + 1, unread => ([], unread, reads, .again)
  | .closed :: reads, _ + 1, unread => ([], unread, reads, .closed)
  | .bytes k :: reads, want + 1, unread =>
    let m := min (max k 1) (min (want + 1) unread.length)
    if m = 0 then ([], unread, reads, .again)
    else
      let (got, rest, reads, stop) := readLoop reads (want + 1 - m) (unread.drop m)
      (unread.take m ++ got, rest, reads, stop)

/-- The bytes read are the next ones of the stream, at most those wanted; the loop is done when
these are all there. -/
theorem readLoop_spec (reads : List Read) (want : ℕ) (unread : Bytes) {got rest : Bytes}
    {reads' : List Read} {stop : Stop} (h : readLoop reads want unread = (got, rest, reads', stop)) :
    got ++ rest = unread ∧ got.length ≤ want ∧ (stop = .done ↔ got.length = want) := by
  induction reads generalizing want unread got rest with
  | nil =>
    cases want with
    | zero => cases h; simp
    | succ want => cases h; simp
  | cons r reads ih =>
    cases want with
    | zero => cases h; simp
    | succ want =>
      cases r with
      | again => cases h; simp
      | closed => cases h; simp
      | bytes k =>
        unfold readLoop at h
        dsimp only at h
        generalize hm : min (max k 1) (min (want + 1) unread.length) = m at h
        split at h
        · cases h
          simp
        · generalize hr : readLoop reads _ _ = q at h
          obtain ⟨got', rest', reads'', stop'⟩ := q
          dsimp only at h
          cases h
          obtain ⟨hget, hle, hdone⟩ := ih _ _ hr
          have hlen : (unread.take m ++ got').length = m + got'.length := by
            rw [List.length_append, List.length_take]
            omega
          refine ⟨by rw [List.append_assoc, hget, List.take_append_drop], by omega, ?_⟩
          rw [hdone, hlen]
          omega

/-- The loop ends as closed only where a read says so, and leaves a part of the reads. -/
theorem readLoop_reads (reads : List Read) (want : ℕ) (unread : Bytes) {got rest : Bytes}
    {reads' : List Read} {stop : Stop} (h : readLoop reads want unread = (got, rest, reads', stop)) :
    (stop = .closed → Read.closed ∈ reads) ∧ ∀ r ∈ reads', r ∈ reads := by
  induction reads generalizing want unread got rest with
  | nil =>
    cases want with
    | zero => cases h; simp
    | succ want => cases h; simp
  | cons r reads ih =>
    cases want with
    | zero => cases h; simp
    | succ want =>
      cases r with
      | again => cases h; exact ⟨by simp, fun r hr => List.mem_cons_of_mem _ hr⟩
      | closed => cases h; exact ⟨by simp, fun r hr => List.mem_cons_of_mem _ hr⟩
      | bytes k =>
        unfold readLoop at h
        dsimp only at h
        split at h
        · cases h
          exact ⟨by simp, fun r hr => List.mem_cons_of_mem _ hr⟩
        · generalize hr : readLoop reads _ _ = q at h
          obtain ⟨got', rest', reads'', stop'⟩ := q
          dsimp only at h
          cases h
          obtain ⟨hclosed, hsub⟩ := ih _ _ hr
          exact ⟨fun hs => List.mem_cons_of_mem _ (hclosed hs),
            fun r hr => List.mem_cons_of_mem _ (hsub r hr)⟩

end Camex.Lib
