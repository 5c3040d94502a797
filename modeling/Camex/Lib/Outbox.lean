import Camex.Lib.Framing
import Mathlib.Data.List.Forall2

/-!
# Sending frames through partial writes

An outbox sends length-prefixed frames on one connection. A write takes some of the bytes, or none
yet, or fails. At most one frame is in the queue: what a write left of it is sent by the next flush.

* `writeLoop`: writes until all bytes were taken; `writeLoop_spec`, `writeLoop_quiet`;
* `Outbox.flush`, `Outbox.push`, `Outbox.offer`: the operations, with what was seen of the connection;
* `Outbox.Ok`: the frame in the queue is the one kept last;
* `Outbox.Framed`: the bytes written are whole frames and at the end at most a part of one. It is kept
  as long as nothing is written behind a frame that an error cut short (`Quiet`);
* `Outbox.Adds`: the bytes written since an earlier moment belong, in order, to the frame that was in the
  queue then and to the frames handed in since.
-/

namespace Camex.Lib

/-- What one write gives: so many bytes were taken, none yet, or an error. -/
inductive Write
  | bytes (k : ℕ)
  | again
  | failed
  deriving DecidableEq

/-- Writes until all of `left` is taken: the bytes taken, the bytes left, the writes not made and how it
ended. -/
def writeLoop : List Write → Bytes → Bytes × Bytes × List Write × Stop
  | writes, [] => ([], [], writes, .done)
  | [], b :: left => ([], b :: left, [], .again)
  | .again :: writes, b :: left => ([], b :: left, writes, .again)
  | .failed :: writes, b :: left => ([], b :: left, writes, .closed)
  | .bytes k :: writes, b :: left =>
    let (wrote, rest, writes, stop) := writeLoop writes ((b :: left).drop k)
    ((b :: left).take k ++ wrote, rest, writes, stop)

theorem writeLoop_spec (writes : List Write) (left : Bytes) {wrote rest : Bytes} {writes' : List Write}
    {stop : Stop} (h : writeLoop writes left = (wrote, rest, writes', stop)) :
    wrote ++ rest = left ∧ (stop = .done ↔ rest = []) ∧ ∀ w ∈ writes', w ∈ writes := by
  induction writes generalizing left wrote rest with
  | nil =>
    cases left with
    | nil => cases h; simp
    | cons b left => cases h; simp
  | cons w writes ih =>
    cases left with
    | nil => cases h; simp
    | cons b left =>
      cases w with
      | again => cases h; simp +contextual
      | failed => cases h; simp +contextual
      | bytes k =>
        unfold writeLoop at h
        generalize hr : writeLoop writes ((b :: left).drop k) = q at h
        obtain ⟨wrote', rest', writes'', stop'⟩ := q
        cases h
        obtain ⟨happ, hdone, hsub⟩ := ih _ hr
        refine ⟨?_, hdone, fun w hw => List.mem_cons_of_mem _ (hsub w hw)⟩
        rw [List.append_assoc, happ, List.take_append_drop]

def Write.Quiet : Write → Prop
  | .bytes k => k = 0
  | .again | .failed => True

instance : DecidablePred Write.Quiet
  | .bytes k => inferInstanceAs (Decidable (k = 0))
  | .again | .failed => isTrue trivial

theorem writeLoop_quiet (writes : List Write) (left : Bytes) (hquiet : ∀ w ∈ writes, w.Quiet)
    {wrote rest : Bytes} {writes' : List Write} {stop : Stop}
    (h : writeLoop writes left = (wrote, rest, writes', stop)) : wrote = [] := by
  induction writes generalizing left wrote rest with
  | nil =>
    cases left with
    | nil => cases h; rfl
    | cons b left => cases h; rfl
  | cons w writes ih =>
    have hrest : ∀ w ∈ writes, w.Quiet := fun w hw => hquiet w (List.mem_cons_of_mem _ hw)
    cases left with
    | nil => cases h; rfl
    | cons b left =>
      cases w with
      | again => cases h; rfl
      | failed => cases h; rfl
      | bytes k =>
        have hk : k = 0 := hquiet (.bytes k) List.mem_cons_self
        subst hk
        unfold writeLoop at h
        generalize hr : writeLoop writes ((b :: left).drop 0) = q at h
        obtain ⟨wrote', rest', writes'', stop'⟩ := q
        cases h
        simpa using ih _ hrest hr

/-! ## The outbox -/

/-- The frame in the queue with the number of its bytes that were written, and what was seen of the
connection: the bytes written, the frames handed in, of these those taken and not hit by an error, and
whether an error cut a frame short. -/
structure Outbox where
  queue : Option (Bytes × ℕ)
  written : Bytes
  given : List Bytes
  kept : List Bytes
  cut : Bool
  deriving DecidableEq

namespace Outbox

def empty : Outbox := ⟨none, [], [], [], false⟩

/-- The outbox once `wrote` was written of the frame in the queue. An error drops the frame. -/
def after (o : Outbox) (f : Bytes) (k : ℕ) (wrote : Bytes) : Stop → Outbox
  | .done => { o with queue := none, written := o.written ++ wrote }
  | .again => { o with queue := some (f, k + wrote.length), written := o.written ++ wrote }
  | .closed =>
    { o with
      queue := none, written := o.written ++ wrote, kept := o.kept.dropLast
      cut := o.cut || k + wrote.length != 0 }

/-- Writes what is left of the frame in the queue. -/
def flush (o : Outbox) (writes : List Write) : Stop × Outbox × List Write :=
  match o.queue with
  | none => (.done, o, writes)
  | some (f, k) =>
    let (wrote, _, writes, stop) := writeLoop writes ((frameBytes f).drop k)
    (stop, o.after f k wrote stop, writes)

theorem flush_none {o : Outbox} (hq : o.queue = none) (writes : List Write) : o.flush writes = (.done, o, writes) := by
  simp only [flush, hq]

theorem flush_some {o : Outbox} {f wrote rest : Bytes} {k : ℕ} {writes writes' : List Write} {stop : Stop}
    (hq : o.queue = some (f, k)) (hr : writeLoop writes ((frameBytes f).drop k) = (wrote, rest, writes', stop)) :
    o.flush writes = (stop, o.after f k wrote stop, writes') := by
  simp only [flush, hq, hr]

/-- Puts a frame into the empty queue. -/
def push (o : Outbox) (f : Bytes) : Outbox := { o with queue := some (f, 0), kept := o.kept ++ [f] }

def hand (o : Outbox) (f : Bytes) : Outbox := { o with given := o.given ++ [f] }

/-- Hands in a frame: it is taken when it fits, the queue can be emptied and there is room for it; then
it is written as far as possible. The result says whether it was taken and not hit by an error. -/
def offer (o : Outbox) (f : Bytes) (fits room : Bool) (writes : List Write) : Stop × Bool × Outbox :=
  if fits then
    match (o.hand f).flush writes with
    | (.done, o, writes) =>
      if room then
        match (o.push f).flush writes with
        | (rc, o, _) => (rc, rc != .closed, o)
      else (.closed, false, o)
    | (rc, o, _) => (rc, false, o)
  else (.closed, false, o.hand f)

/-- The bytes of the frame in the queue still to be written. -/
def owed (o : Outbox) : Bytes :=
  match o.queue with
  | none => []
  | some (f, k) => (frameBytes f).drop k

/-- The bytes of the frame in the queue that were written. -/
def begun (o : Outbox) : Bytes :=
  match o.queue with
  | none => []
  | some (f, k) => (frameBytes f).take k

def waiting (o : Outbox) : List Bytes := o.queue.toList.map Prod.fst

/-- The ways a flush ends: nothing in the queue, the frame is out, a part of it is left, or an error. -/
inductive FlushCase (o : Outbox) (writes : List Write) : Stop → Outbox → List Write → Prop
  | idle (hq : o.queue = none) : FlushCase o writes .done o writes
  | whole {f : Bytes} {k : ℕ} {writes' : List Write} (hq : o.queue = some (f, k))
      (hquiet : (∀ w ∈ writes, w.Quiet) → (frameBytes f).drop k = []) (hsub : ∀ w ∈ writes', w ∈ writes) :
      FlushCase o writes .done { o with queue := none, written := o.written ++ (frameBytes f).drop k } writes'
  | again {f wrote rest : Bytes} {k : ℕ} {writes' : List Write} (hq : o.queue = some (f, k))
      (hquiet : (∀ w ∈ writes, w.Quiet) → wrote = []) (hsub : ∀ w ∈ writes', w ∈ writes)
      (happ : wrote ++ rest = (frameBytes f).drop k) (hrest : rest ≠ []) :
      FlushCase o writes .again
        { o with queue := some (f, k + wrote.length), written := o.written ++ wrote } writes'
  | failed {f wrote rest : Bytes} {k : ℕ} {writes' : List Write} (hq : o.queue = some (f, k))
      (hquiet : (∀ w ∈ writes, w.Quiet) → wrote = []) (hsub : ∀ w ∈ writes', w ∈ writes)
      (happ : wrote ++ rest = (frameBytes f).drop k) (hrest : rest ≠ []) :
      FlushCase o writes .closed
        { o with
          queue := none, written := o.written ++ wrote, kept := o.kept.dropLast
          cut := o.cut || k + wrote.length != 0 } writes'

theorem flush_case (o : Outbox) (writes : List Write) :
    FlushCase o writes (o.flush writes).1 (o.flush writes).2.1 (o.flush writes).2.2 := by
  cases hq : o.queue with
  | none =>
    rw [flush_none hq]
    exact .idle hq
  | some p =>
    obtain ⟨f, k⟩ := p
    generalize hr : writeLoop writes ((frameBytes f).drop k) = q
    obtain ⟨wrote, rest, writes', stop⟩ := q
    rw [flush_some hq hr]
    obtain ⟨happ, hdone, hsub⟩ := writeLoop_spec _ _ hr
    have hquiet := fun h => writeLoop_quiet _ _ h hr
    cases stop with
    | done =>
      have hwrote : wrote = (frameBytes f).drop k := by simpa [hdone.mp rfl] using happ
      subst hwrote
      exact .whole hq hquiet hsub
    | again => exact .again hq hquiet hsub happ fun h => by cases hdone.mpr h
    | closed => exact .failed hq hquiet hsub happ fun h => by cases hdone.mpr h

theorem flush_done {o o' : Outbox} {writes writes' : List Write} (h : o.flush writes = (.done, o', writes')) :
    o'.queue = none ∧ o'.given = o.given ∧ o'.kept = o.kept ∧ o'.cut = o.cut ∧ ∀ w ∈ writes', w ∈ writes := by
  have hcase := flush_case o writes
  rw [h] at hcase
  cases hcase with
  | idle hq => exact ⟨hq, rfl, rfl, rfl, fun w hw => hw⟩
  | whole hq hquiet hsub => exact ⟨rfl, rfl, rfl, rfl, hsub⟩

/-- The ways a call ends: the frame is not looked at, the queue is not emptied or there is no room, or the
frame enters the queue and is written as far as possible. -/
theorem offer_case (o : Outbox) (f : Bytes) (fits room : Bool) (writes : List Write) :
    (∃ rc, o.offer f fits room writes = (rc, false, o.hand f)) ∨
    (∃ rc, o.offer f fits room writes = (rc, false, ((o.hand f).flush writes).2.1)) ∨
    ∃ o' writes', (o.hand f).flush writes = (.done, o', writes') ∧
      o.offer f fits room writes = (((o'.push f).flush writes').1, ((o'.push f).flush writes').1 != .closed,
        ((o'.push f).flush writes').2.1) := by
  unfold offer
  cases fits with
  | false => exact Or.inl ⟨_, rfl⟩
  | true =>
    rw [if_pos rfl]
    generalize hr : (o.hand f).flush writes = q
    obtain ⟨rc, o', writes'⟩ := q
    cases rc with
    | again => exact Or.inr (Or.inl ⟨_, rfl⟩)
    | closed => exact Or.inr (Or.inl ⟨_, rfl⟩)
    | done =>
      cases room with
      | false => exact Or.inr (Or.inl ⟨_, rfl⟩)
      | true => exact Or.inr (Or.inr ⟨o', writes', rfl, rfl⟩)

/-! ## What is kept -/

/-- The frames kept are some of those handed in, in their order, and the frame in the queue is the one
kept last; a part of it is still to be written. -/
def Ok (o : Outbox) : Prop :=
  o.kept.Sublist o.given ∧
    ∀ f k, o.queue = some (f, k) → k < (frameBytes f).length ∧ ∃ done, o.kept = done ++ [f]

theorem Ok.empty : Ok .empty := ⟨List.Sublist.slnil, by simp [Outbox.empty]⟩

theorem frameBytes_length_pos (f : Bytes) : 0 < (frameBytes f).length := by simp [frameBytes, lengthBytes]

theorem again_lt {f wrote rest : Bytes} {k : ℕ} (happ : wrote ++ rest = (frameBytes f).drop k)
    (hrest : rest ≠ []) : k + wrote.length < (frameBytes f).length := by
  have hlen := congrArg List.length happ
  have hpos := List.length_pos_iff.mpr hrest
  rw [List.length_append, List.length_drop] at hlen
  omega

theorem flush_kept (o : Outbox) (writes : List Write) :
    (o.flush writes).2.1.given = o.given ∧ (o.flush writes).2.1.kept.Sublist o.kept := by
  have hcase := flush_case o writes
  generalize o.flush writes = q at hcase ⊢
  obtain ⟨rc, o', writes'⟩ := q
  cases hcase with
  | idle hq => exact ⟨rfl, List.Sublist.refl _⟩
  | whole hq hquiet hsub => exact ⟨rfl, List.Sublist.refl _⟩
  | again hq hquiet hsub happ hrest => exact ⟨rfl, List.Sublist.refl _⟩
  | failed hq hquiet hsub happ hrest => exact ⟨rfl, List.dropLast_sublist _⟩

theorem Ok.flush {o : Outbox} (h : o.Ok) (writes : List Write) : (o.flush writes).2.1.Ok := by
  refine ⟨?_, ?_⟩
  · rw [(flush_kept o writes).1]
    exact (flush_kept o writes).2.trans h.1
  · have hcase := flush_case o writes
    generalize o.flush writes = q at hcase ⊢
    obtain ⟨rc, o', writes'⟩ := q
    cases hcase with
    | idle hq => exact h.2
    | whole hq hquiet hsub => simp
    | failed hq hquiet hsub happ hrest => simp
    | again hq hquiet hsub happ hrest =>
      intro f' k' hq'
      cases hq'
      exact ⟨again_lt happ hrest, (h.2 _ _ hq).2⟩

theorem Ok.hand {o : Outbox} (h : o.Ok) (f : Bytes) : (o.hand f).Ok :=
  ⟨h.1.trans (List.sublist_append_left _ _), h.2⟩

theorem Ok.enter {o o' : Outbox} {f : Bytes} {writes writes' : List Write} (h : o.Ok)
    (hflush : (o.hand f).flush writes = (.done, o', writes')) : (o'.push f).Ok := by
  obtain ⟨-, hgiven, hkept, -, -⟩ := flush_done hflush
  refine ⟨?_, fun f' k' hq => ?_⟩
  · have hsub : (o.kept ++ [f]).Sublist (o.given ++ [f]) := h.1.append_right [f]
    simpa [push, hkept, hgiven, Outbox.hand] using hsub
  · cases hq
    exact ⟨frameBytes_length_pos f, _, rfl⟩

theorem Ok.offer {o : Outbox} (h : o.Ok) (f : Bytes) (fits room : Bool) (writes : List Write) :
    (o.offer f fits room writes).2.2.Ok := by
  rcases offer_case o f fits room writes with ⟨rc, hr⟩ | ⟨rc, hr⟩ | ⟨o', writes', hflush, hr⟩
  · rw [hr]
    exact h.hand f
  · rw [hr]
    exact (h.hand f).flush writes
  · rw [hr]
    exact (h.enter hflush).flush writes'

theorem flush_kept_cases (o : Outbox) (writes : List Write) :
    if (o.flush writes).1 = .closed then (o.flush writes).2.1.kept = o.kept.dropLast
    else (o.flush writes).2.1.kept = o.kept := by
  have hcase := flush_case o writes
  generalize o.flush writes = q at hcase ⊢
  obtain ⟨rc, o', writes'⟩ := q
  cases hcase with
  | idle => rfl
  | whole => rfl
  | again => rfl
  | failed => rfl

/-- The report of a call: a frame taken is kept last, one that was not is not kept; an error while the
queue is emptied drops the frame that was kept last before. -/
theorem offer_report (o : Outbox) (f : Bytes) (fits room : Bool) (writes : List Write) :
    if (o.offer f fits room writes).2.1 then (o.offer f fits room writes).2.2.kept = o.kept ++ [f]
    else (o.offer f fits room writes).2.2.kept = o.kept ∨
      (o.offer f fits room writes).2.2.kept = o.kept.dropLast := by
  rcases offer_case o f fits room writes with ⟨rc, hr⟩ | ⟨rc, hr⟩ | ⟨o', writes', hflush, hr⟩
  · rw [hr]
    exact Or.inl rfl
  · have hkept := flush_kept_cases (o.hand f) writes
    rw [hr]
    by_cases hc : ((o.hand f).flush writes).1 = .closed
    · rw [if_pos hc] at hkept
      exact Or.inr hkept
    · rw [if_neg hc] at hkept
      exact Or.inl hkept
  · have hkept := flush_kept_cases (o'.push f) writes'
    have hpush : (o'.push f).kept = o.kept ++ [f] := by
      simp only [push, (flush_done hflush).2.2.1, hand]
    rw [hpush] at hkept
    rw [hr]
    by_cases hc : ((o'.push f).flush writes').1 = .closed
    · simp only [hc, if_true, List.dropLast_concat] at hkept
      simp [hc, hkept]
    · simpa [hc] using hkept

/-! ## Whole frames -/

/-- Nothing, or a part of the encoding of one of the frames, not the whole. -/
def Piece (part : Bytes) (frames : List Bytes) : Prop :=
  part = [] ∨ ∃ f ∈ frames, part <+: frameBytes f ∧ part ≠ frameBytes f

/-- The bytes written are the frames kept, less the one in the queue, and a part of one frame at the end:
of the one in the queue, or of one that an error cut short. -/
def Framed (o : Outbox) : Prop :=
  ∃ done part, o.kept = done ++ o.waiting ∧ o.written = streamBytes done ++ part ∧ Piece part o.given ∧
    if o.cut then o.begun = [] else part = o.begun

theorem Framed.empty : Framed .empty := ⟨[], [], rfl, rfl, Or.inl rfl, rfl⟩

theorem streamBytes_append (fs gs : List Bytes) : streamBytes (fs ++ gs) = streamBytes fs ++ streamBytes gs := by
  simp [streamBytes]

theorem piece_take {f : Bytes} {frames : List Bytes} {k : ℕ} (hf : f ∈ frames) (hk : k < (frameBytes f).length) :
    Piece ((frameBytes f).take k) frames := by
  refine Or.inr ⟨f, hf, List.take_prefix _ _, fun h => ?_⟩
  have hlen := congrArg List.length h
  rw [List.length_take] at hlen
  omega

theorem Piece.mono {part : Bytes} {frames frames' : List Bytes} (h : Piece part frames)
    (hsub : ∀ f ∈ frames, f ∈ frames') : Piece part frames' :=
  h.imp id fun ⟨f, hf, hpart⟩ => ⟨f, hsub f hf, hpart⟩

/-- What was written of the frame in the queue, with what a write takes. -/
theorem take_append_wrote {f wrote rest : Bytes} {k : ℕ} (happ : wrote ++ rest = (frameBytes f).drop k) :
    (frameBytes f).take k ++ wrote = (frameBytes f).take (k + wrote.length) := by
  rw [List.take_add, ← happ, List.take_left]

theorem Framed.flush {o : Outbox} (h : o.Framed) (hok : o.Ok) {writes : List Write}
    (hcut : o.cut = true → ∀ w ∈ writes, w.Quiet) : (o.flush writes).2.1.Framed := by
  have hcase := flush_case o writes
  generalize o.flush writes = q at hcase ⊢
  obtain ⟨rc, o', writes'⟩ := q
  dsimp only at hcase ⊢
  obtain ⟨done, part, hkept, hwritten, hpiece, hend⟩ := h
  -- the frame in the queue is the one kept last, so it was handed in
  have hmem : ∀ f k, o.queue = some (f, k) → f ∈ o.given := fun f k hq => by
    obtain ⟨done', hlast⟩ := (hok.2 f k hq).2
    exact hok.1.subset (by simp [hlast])
  cases hcase with
  | idle hq => exact ⟨done, part, hkept, hwritten, hpiece, hend⟩
  | @whole f k _ hq hquiet hsub =>
    have hlt := (hok.2 f k hq).1
    cases hc : o.cut with
    | true =>
      -- a whole frame is never written behind a cut
      have hdrop := congrArg List.length (hquiet (hcut hc))
      simp only [List.length_drop, List.length_nil] at hdrop
      omega
    | false =>
      simp only [hc, Bool.false_eq_true, if_false, begun, hq] at hend
      refine ⟨done ++ [f], [], ?_, ?_, Or.inl rfl, ?_⟩
      · simpa [waiting, hq] using hkept
      · rw [streamBytes_append, hwritten, hend, List.append_assoc, List.take_append_drop]
        simp [frameBytes]
      · simp [begun]
  | @again f wrote rest k _ hq hquiet hsub happ hrest =>
    have hlt := again_lt happ hrest
    cases hc : o.cut with
    | true =>
      simp only [hc, if_true, begun, hq] at hend
      have hwrote := hquiet (hcut hc)
      subst hwrote
      refine ⟨done, part, ?_, ?_, hpiece, ?_⟩
      · simpa [waiting, hq] using hkept
      · simpa using hwritten
      · simpa [hc, begun] using hend
    | false =>
      simp only [hc, Bool.false_eq_true, if_false, begun, hq] at hend
      refine ⟨done, part ++ wrote, ?_, ?_, ?_, ?_⟩
      · simpa [waiting, hq] using hkept
      · rw [← List.append_assoc, ← hwritten]
      · rw [hend, take_append_wrote happ]
        exact piece_take (hmem f k hq) hlt
      · simpa [hc, begun, hend] using take_append_wrote happ
  | @failed f wrote rest k _ hq hquiet hsub happ hrest =>
    have hlt := again_lt happ hrest
    have hkept' : o.kept.dropLast = done := by rw [hkept]; simp [waiting, hq]
    cases hc : o.cut with
    | true =>
      have hwrote := hquiet (hcut hc)
      subst hwrote
      exact ⟨done, part, by simpa [waiting] using hkept', by simpa using hwritten, hpiece, by simp [begun]⟩
    | false =>
      simp only [hc, Bool.false_eq_true, if_false, begun, hq] at hend
      refine ⟨done, part ++ wrote, by simpa [waiting] using hkept', ?_, ?_, ?_⟩
      · rw [← List.append_assoc, ← hwritten]
      · rw [hend, take_append_wrote happ]
        exact piece_take (hmem f k hq) hlt
      · rw [hend, take_append_wrote happ]
        by_cases hzero : k + wrote.length = 0
        · simp [begun, hzero]
        · simp only [Bool.false_or, bne_iff_ne.mpr hzero, if_true, begun]

theorem Framed.push {o : Outbox} (h : o.Framed) (hempty : o.queue = none) (f : Bytes) : (o.push f).Framed := by
  obtain ⟨done, part, hkept, hwritten, hpiece, hend⟩ := h
  refine ⟨done, part, ?_, hwritten, hpiece, ?_⟩
  · simpa [Outbox.push, waiting, hempty] using hkept
  · simpa [Outbox.push, begun, hempty] using hend

theorem Framed.offer {o : Outbox} (h : o.Framed) (hok : o.Ok) {writes : List Write}
    (hcut : o.cut = true → ∀ w ∈ writes, w.Quiet) (f : Bytes) (fits room : Bool) :
    (o.offer f fits room writes).2.2.Framed := by
  have hhand : (o.hand f).Framed := by
    obtain ⟨done, part, hkept, hwritten, hpiece, hend⟩ := h
    exact ⟨done, part, hkept, hwritten, hpiece.mono fun g hg => List.mem_append_left _ hg, hend⟩
  have hfirst := hhand.flush (hok.hand f) hcut
  rcases offer_case o f fits room writes with ⟨rc, hr⟩ | ⟨rc, hr⟩ | ⟨o', writes', hflush, hr⟩
  · rw [hr]
    exact hhand
  · rw [hr]
    exact hfirst
  · rw [hr]
    rw [hflush] at hfirst
    obtain ⟨hempty, hgiven, hkept, hc, hsub⟩ := flush_done hflush
    refine (hfirst.push hempty f).flush (hok.enter hflush) fun hcut' w hw => hcut ?_ w (hsub w hw)
    exact hc ▸ hcut'

/-! ## Whose bytes are written -/

/-- The bytes written since the outbox was `o₀` belong, in order, to what was owed then and to the frames
`fs` handed in since: a part of each. -/
def Adds (o₀ : Outbox) (fs : List Bytes) (o : Outbox) : Prop :=
  ∃ parts, o.written = o₀.written ++ parts.flatten ∧
    List.Forall₂ (· <+: ·) parts (o₀.owed :: fs.map frameBytes)

/-- Of the sources, one is written now: what was written of it and what is owed is a part of it, and
nothing was written of those behind it. -/
def Writing (start : Bytes) (sources : List Bytes) (o : Outbox) : Prop :=
  ∃ parts part before source after, sources = before ++ source :: after ∧
    List.Forall₂ (· <+: ·) parts before ∧ part ++ o.owed <+: source ∧
    o.written = start ++ parts.flatten ++ part

/-- The parts written, with nothing of the sources that come after. -/
theorem forall₂_parts {parts before : List Bytes} (after : List Bytes) {part source : Bytes}
    (h : List.Forall₂ (· <+: ·) parts before) (hpart : part <+: source) :
    List.Forall₂ (· <+: ·) (parts ++ part :: List.replicate after.length []) (before ++ source :: after) := by
  refine List.rel_append h (.cons hpart ?_)
  induction after with
  | nil => exact .nil
  | cons s after ih => exact .cons List.nil_prefix ih

theorem flatten_parts (parts : List Bytes) (part : Bytes) (m : ℕ) :
    (parts ++ part :: List.replicate m []).flatten = parts.flatten ++ part := by simp

theorem Writing.start (o : Outbox) : Writing o.written [o.owed] o :=
  ⟨[], [], [], o.owed, [], rfl, .nil, List.prefix_rfl, by simp⟩

theorem Writing.adds {o₀ o : Outbox} {fs : List Bytes}
    (h : Writing o₀.written (o₀.owed :: fs.map frameBytes) o) : Adds o₀ fs o := by
  obtain ⟨parts, part, before, source, after, hsrc, hparts, hpart, hwritten⟩ := h
  refine ⟨parts ++ part :: List.replicate after.length [], ?_, ?_⟩
  · rw [flatten_parts, hwritten, List.append_assoc]
  · rw [hsrc]
    exact forall₂_parts after hparts ((List.prefix_append part o.owed).trans hpart)

/-- A flush writes bytes that are owed, and then owes what is left of them or nothing. -/
theorem flush_owed (o : Outbox) (writes : List Write) :
    ∃ wrote, (o.flush writes).2.1.written = o.written ++ wrote ∧
      wrote ++ (o.flush writes).2.1.owed <+: o.owed := by
  have hcase := flush_case o writes
  generalize o.flush writes = q at hcase ⊢
  obtain ⟨rc, o', writes'⟩ := q
  cases hcase with
  | idle hq => exact ⟨[], by simp, List.prefix_rfl⟩
  | @whole f k _ hq hquiet hsub => exact ⟨_, rfl, by simp [owed, hq]⟩
  | @again f wrote rest k _ hq hquiet hsub happ hrest =>
    have hrest' : (frameBytes f).drop (k + wrote.length) = rest := by
      rw [← List.drop_drop, ← happ, List.drop_left]
    refine ⟨wrote, rfl, ?_⟩
    simp only [owed, hq, ← happ, hrest']
    exact List.prefix_rfl
  | @failed f wrote rest k _ hq hquiet hsub happ hrest =>
    refine ⟨wrote, rfl, ?_⟩
    simp only [owed, hq, ← happ, List.append_nil]
    exact List.prefix_append _ _

theorem Writing.flush {start : Bytes} {sources : List Bytes} {o : Outbox} (h : Writing start sources o)
    (writes : List Write) : Writing start sources (o.flush writes).2.1 := by
  obtain ⟨parts, part, before, source, after, hsrc, hparts, hpart, hwritten⟩ := h
  obtain ⟨wrote, hw, howed⟩ := flush_owed o writes
  refine ⟨parts, part ++ wrote, before, source, after, hsrc, hparts, ?_, ?_⟩
  · rw [List.append_assoc]
    exact ((List.prefix_append_right_inj part).mpr howed).trans hpart
  · rw [hw, hwritten, List.append_assoc]

theorem Writing.behind {start : Bytes} {sources : List Bytes} {o : Outbox} (h : Writing start sources o)
    (f : Bytes) : Writing start (sources ++ [frameBytes f]) o := by
  obtain ⟨parts, part, before, source, after, rfl, hparts, hpart, hwritten⟩ := h
  exact ⟨parts, part, before, source, after ++ [frameBytes f], by simp, hparts, hpart, hwritten⟩

theorem Writing.push {start : Bytes} {sources : List Bytes} {o : Outbox} (h : Writing start sources o)
    (f : Bytes) : Writing start (sources ++ [frameBytes f]) (o.push f) := by
  obtain ⟨parts, part, before, source, after, rfl, hparts, hpart, hwritten⟩ := h
  refine ⟨parts ++ part :: List.replicate after.length [], [], before ++ source :: after, frameBytes f, [], rfl,
    forall₂_parts after hparts ((List.prefix_append part o.owed).trans hpart), List.prefix_rfl, ?_⟩
  rw [flatten_parts, List.append_nil, ← List.append_assoc]
  exact hwritten

theorem Writing.offer {start : Bytes} {sources : List Bytes} {o : Outbox} (h : Writing start sources o)
    (f : Bytes) (fits room : Bool) (writes : List Write) :
    Writing start (sources ++ [frameBytes f]) (o.offer f fits room writes).2.2 := by
  have hhand : Writing start sources (o.hand f) := h
  rcases offer_case o f fits room writes with ⟨rc, hr⟩ | ⟨rc, hr⟩ | ⟨o', writes', hflush, hr⟩
  · rw [hr]
    exact hhand.behind f
  · rw [hr]
    exact (hhand.flush writes).behind f
  · rw [hr]
    have hfirst := hhand.flush writes
    rw [hflush] at hfirst
    exact (hfirst.push f).flush writes'

end Outbox

end Camex.Lib
