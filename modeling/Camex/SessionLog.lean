import Camex.Lib.Logged
import Camex.SessionWindow
import Mathlib.Data.List.Nodup

/-!
# What one side does with its sessions

A side of the protocol holds a set of sessions, whatever it keeps them in. `SessionNote` is what it does with one of
them, `NoteSteps` what the notes of a step of it make of that set.

* `FreshKeys`: all sessions made have different keys;
* `Booked`: the invariant of the sessions held and of the notes so far; `NoteSteps.booked`: it is kept;
* `booked_reachable`: it holds in every state of a machine whose steps make such notes. In such a run no nonce is
  sealed twice and no counter taken twice with a key, over all sessions there ever were.
-/

namespace Camex

open Lib

variable {Hs : Type} (N : Noise Hs)

/-- What stays of a session: its indexes and its keys. -/
structure SessionId where
  localIndex : BitVec 32
  remoteIndex : BitVec 32
  kSend : Key
  kRecv : Key
  deriving DecidableEq

def Session.ident (x : Session) : SessionId := ⟨x.localIndex, x.remoteIndex, x.kSend, x.kRecv⟩

inductive SessionNote
  /-- `session_init`. -/
  | opened (x : SessionId)
  /-- `session_seal`, with the counter of the packet. -/
  | sealed (x : SessionId) (count : ℕ) (plain packet : Bytes)
  /-- `session_open`. -/
  | taken (x : SessionId) (packet plain : Bytes)
  deriving DecidableEq

/-- The key and the nonce of a packet sealed. -/
def SessionNote.nonce : SessionNote → Option (Key × ℕ)
  | .sealed x count _ _ => some (x.kSend, count)
  | _ => none

/-- The key and the counter of a packet taken. -/
def SessionNote.counter : SessionNote → Option (Key × ℕ)
  | .taken x packet _ => some (x.kRecv, readLe64 packet 9)
  | _ => none

/-! ## Steps -/

/-- What one note makes of the sessions held: others may go, none comes or changes. -/
inductive NoteStep (held : Set Session) : SessionNote → Set Session → Prop
  | opened {held' : Set Session} {x : Session} (hsent : x.sendN = 0) (hreplay : x.replay = .zero)
      (hheld : ∀ y ∈ held', y = x ∨ y ∈ held) : NoteStep held (.opened x.ident) held'
  | sealed {held' : Set Session} {x x' : Session} {plain packet : Bytes} {size : ℕ} (hx : x ∈ held)
      (hseal : sessionSeal N x plain size = some (packet, x'))
      (hheld : ∀ y ∈ held', y = x' ∨ y ∈ held ∧ y.ident ≠ x.ident) :
      NoteStep held (.sealed x.ident x.sendN plain packet) held'
  | taken {held' : Set Session} {x x' : Session} {packet plain : Bytes} {size : ℕ} (hx : x ∈ held)
      (hopen : sessionOpen N x packet size = some (plain, x'))
      (hheld : ∀ y ∈ held', y = x' ∨ y ∈ held ∧ y.ident ≠ x.ident) :
      NoteStep held (.taken x.ident packet plain) held'

/-- What the notes of a step make of the sessions held, one after the other. -/
inductive NoteSteps : Set Session → List SessionNote → Set Session → Prop
  | quiet {held held' : Set Session} (h : ∀ y ∈ held', y ∈ held) : NoteSteps held [] held'
  | note {held mid held' : Set Session} {a : SessionNote} {notes : List SessionNote} (hstep : NoteStep N held a mid)
      (hrest : NoteSteps mid notes held') : NoteSteps held (a :: notes) held'

variable {N}

theorem NoteStep.steps {held held' : Set Session} {a : SessionNote} (h : NoteStep N held a held') :
    NoteSteps N held [a] held' := .note h (.quiet fun _ hy => hy)

/-! ## What is new -/

def SessionNote.made : SessionNote → Option SessionId
  | .opened x => some x
  | _ => none

/-- The sessions made have all different keys. -/
structure FreshKeys (log : List SessionNote) : Prop where
  send : ((log.filterMap SessionNote.made).map SessionId.kSend).Nodup
  recv : ((log.filterMap SessionNote.made).map SessionId.kRecv).Nodup

instance (log : List SessionNote) : Decidable (FreshKeys log) :=
  decidable_of_iff (((log.filterMap SessionNote.made).map SessionId.kSend).Nodup ∧
    ((log.filterMap SessionNote.made).map SessionId.kRecv).Nodup) ⟨fun h => ⟨h.1, h.2⟩, fun h => ⟨h.send, h.recv⟩⟩

namespace FreshKeys

variable {log more : List SessionNote} {x y : SessionId}

theorem mem_made : x ∈ log.filterMap SessionNote.made ↔ SessionNote.opened x ∈ log := by
  rw [List.mem_filterMap]
  constructor
  · rintro ⟨a, ha, hx⟩
    cases a with
    | opened y =>
      cases hx
      exact ha
    | sealed _ _ _ _ => cases hx
    | taken _ _ _ => cases hx
  · exact fun h => ⟨_, h, rfl⟩

theorem before (h : FreshKeys (log ++ more)) : FreshKeys log := by
  obtain ⟨hsend, hrecv⟩ := h
  rw [List.filterMap_append, List.map_append] at hsend hrecv
  exact ⟨hsend.of_append_left, hrecv.of_append_left⟩

theorem eq (h : FreshKeys log) (hx : SessionNote.opened x ∈ log) (hy : SessionNote.opened y ∈ log)
    (hkey : x.kSend = y.kSend ∨ x.kRecv = y.kRecv) : x = y := by
  rcases hkey with hkey | hkey
  · exact List.inj_on_of_nodup_map h.send (mem_made.mpr hx) (mem_made.mpr hy) hkey
  · exact List.inj_on_of_nodup_map h.recv (mem_made.mpr hx) (mem_made.mpr hy) hkey

/-- The session just made is a new one. -/
theorem notMem (h : FreshKeys (log ++ [.opened x])) : SessionNote.opened x ∉ log := by
  intro hx
  have hsend := h.send
  rw [List.filterMap_append, List.map_append] at hsend
  exact (List.nodup_append.mp hsend).2.2 _ (List.mem_map_of_mem (mem_made.mpr hx)) _ (List.mem_singleton_self _) rfl

end FreshKeys

/-! ## The invariant -/

def takenCounts (log : List SessionNote) (x : SessionId) : Set ℕ :=
  { m | ∃ packet plain, SessionNote.taken x packet plain ∈ log ∧ readLe64 packet 9 = m }

variable (N) in
/-- A packet of `session_seal`. -/
structure SealedAs (x : SessionId) (count : ℕ) (plain packet : Bytes) : Prop where
  limit : count < V2_REJECT_AFTER_MSGS
  packet : ∃ s : Session, s.ident = x ∧ s.sendN = count ∧
    packet = dataHeader s ++ N.encrypt s.kSend s.sendN (dataHeader s) plain

variable (N) in
/-- A packet that `session_open` opens. -/
def TakenAs (x : SessionId) (packet plain : Bytes) : Prop :=
  N.decrypt x.kRecv (readLe64 packet 9) (packet.take V2_DATA_HDR) (packet.drop V2_DATA_HDR) = some plain

variable (N) in
structure Booked (log : List SessionNote) (held : Set Session) : Prop where
  made : ∀ x ∈ held, SessionNote.opened x.ident ∈ log
  sealedOn : ∀ x count plain packet, SessionNote.sealed x count plain packet ∈ log → SessionNote.opened x ∈ log
  takenOn : ∀ x packet plain, SessionNote.taken x packet plain ∈ log → SessionNote.opened x ∈ log
  counted : ∀ x ∈ held, ∀ count plain packet, SessionNote.sealed x.ident count plain packet ∈ log → count < x.sendN
  remembers : ∀ x ∈ held, Remembers x.replay (takenCounts log x.ident)
  nonces : (log.filterMap SessionNote.nonce).Nodup
  counters : (log.filterMap SessionNote.counter).Nodup
  sealedAs : ∀ x count plain packet, SessionNote.sealed x count plain packet ∈ log → SealedAs N x count plain packet
  takenAs : ∀ x packet plain, SessionNote.taken x packet plain ∈ log → TakenAs N x packet plain

variable {log : List SessionNote} {held held' : Set Session}

theorem booked_nil (h : ∀ x, x ∉ held) : Booked N [] held :=
  ⟨fun x hx => absurd hx (h x), nofun, nofun, fun x hx => absurd hx (h x), fun x hx => absurd hx (h x),
    List.nodup_nil, List.nodup_nil, nofun, nofun⟩

theorem Booked.quiet (h : Booked N log held) (hsub : ∀ y ∈ held', y ∈ held) : Booked N log held' :=
  { h with
    made := fun x hx => h.made x (hsub x hx)
    counted := fun x hx => h.counted x (hsub x hx)
    remembers := fun x hx => h.remembers x (hsub x hx) }

theorem takenCounts_append {x : SessionId} {a : SessionNote} (h : ∀ packet plain, a ≠ .taken x packet plain) :
    takenCounts (log ++ [a]) x = takenCounts log x := by
  ext m
  simp only [takenCounts, Set.mem_ofPred_eq, List.mem_append, List.mem_singleton]
  constructor
  · rintro ⟨packet, plain, hmem | heq, hm⟩
    · exact ⟨packet, plain, hmem, hm⟩
    · exact absurd heq.symm (h packet plain)
  · rintro ⟨packet, plain, hmem, hm⟩
    exact ⟨packet, plain, Or.inl hmem, hm⟩

theorem takenCounts_taken (x : SessionId) (packet plain : Bytes) :
    takenCounts (log ++ [.taken x packet plain]) x = insert (readLe64 packet 9) (takenCounts log x) := by
  ext m
  simp only [takenCounts, Set.mem_ofPred_eq, List.mem_append, List.mem_singleton, Set.mem_insert_iff]
  constructor
  · rintro ⟨p, q, hmem | heq, hm⟩
    · exact Or.inr ⟨p, q, hmem, hm⟩
    · cases heq
      exact Or.inl hm.symm
  · rintro (rfl | ⟨p, q, hmem, hm⟩)
    · exact ⟨packet, plain, Or.inr rfl, rfl⟩
    · exact ⟨p, q, Or.inl hmem, hm⟩

theorem mem_concat {β : Type*} {l : List β} {a b : β} : b ∈ l ++ [a] ↔ b ∈ l ∨ b = a := by
  rw [List.mem_append, List.mem_singleton]

/-- What the list of the nonces, or of the counters taken, gains. -/
theorem filterMap_concat {β γ : Type*} (f : β → Option γ) (l : List β) (a : β) :
    (l ++ [a]).filterMap f = l.filterMap f ++ (f a).toList := by
  rw [List.filterMap_append]
  cases h : f a with
  | none => rw [List.filterMap_cons_none h]; rfl
  | some b => rw [List.filterMap_cons_some h]; rfl

theorem Booked.opened {x : Session} (h : Booked N log held) (hfresh : FreshKeys (log ++ [.opened x.ident]))
    (hsent : x.sendN = 0) (hreplay : x.replay = .zero) (hheld : ∀ y ∈ held', y = x ∨ y ∈ held) :
    Booked N (log ++ [.opened x.ident]) held' := by
  have hmem : ∀ {y}, SessionNote.opened y ∈ log → SessionNote.opened y ∈ log ++ [.opened x.ident] :=
    List.mem_append_left _
  have hsealed : ∀ {y count plain packet}, SessionNote.sealed y count plain packet ∈ log ++ [.opened x.ident] →
      SessionNote.sealed y count plain packet ∈ log := fun hs => (mem_concat.mp hs).resolve_right nofun
  have htaken : ∀ {y packet plain}, SessionNote.taken y packet plain ∈ log ++ [.opened x.ident] →
      SessionNote.taken y packet plain ∈ log := fun ht => (mem_concat.mp ht).resolve_right nofun
  have hcounts : ∀ y : SessionId, takenCounts (log ++ [.opened x.ident]) y = takenCounts log y := fun y =>
    takenCounts_append fun _ _ => by simp
  refine ⟨fun y hy => ?_, fun y count plain packet hs => hmem (h.sealedOn y count plain packet (hsealed hs)),
    fun y packet plain ht => hmem (h.takenOn y packet plain (htaken ht)), fun y hy count plain packet hs => ?_,
    fun y hy => ?_, ?_, ?_, fun y count plain packet hs => h.sealedAs y count plain packet (hsealed hs),
    fun y packet plain ht => h.takenAs y packet plain (htaken ht)⟩
  · rcases hheld y hy with rfl | hy
    · exact mem_concat.mpr (Or.inr rfl)
    · exact hmem (h.made y hy)
  · rcases hheld y hy with rfl | hy
    · exact absurd (h.sealedOn _ _ _ _ (hsealed hs)) hfresh.notMem
    · exact h.counted y hy count plain packet (hsealed hs)
  · rw [hcounts]
    rcases hheld y hy with rfl | hy
    · have hempty : takenCounts log y.ident = ∅ := by
        rw [Set.eq_empty_iff_forall_notMem]
        rintro m ⟨packet, plain, ht, -⟩
        exact hfresh.notMem (h.takenOn _ _ _ ht)
      rw [hreplay, hempty]
      exact remembers_zero
    · exact h.remembers y hy
  · rw [filterMap_concat]
    simpa [SessionNote.nonce] using h.nonces
  · rw [filterMap_concat]
    simpa [SessionNote.counter] using h.counters

/-- **A packet sealed** has a nonce that is new. -/
theorem Booked.sealed {x x' : Session} {plain packet : Bytes} {size : ℕ} (h : Booked N log held) (hfresh : FreshKeys log)
    (hx : x ∈ held) (hseal : sessionSeal N x plain size = some (packet, x'))
    (hheld : ∀ y ∈ held', y = x' ∨ y ∈ held ∧ y.ident ≠ x.ident) :
    Booked N (log ++ [.sealed x.ident x.sendN plain packet]) held' := by
  obtain ⟨-, hlimit, -, hpacket, rfl⟩ := (sessionSeal_iff N).mp hseal
  have hmem : ∀ {y}, SessionNote.opened y ∈ log → SessionNote.opened y ∈ log ++ [.sealed x.ident x.sendN plain packet] :=
    List.mem_append_left _
  have htaken : ∀ {y p q}, SessionNote.taken y p q ∈ log ++ [.sealed x.ident x.sendN plain packet] →
      SessionNote.taken y p q ∈ log := fun ht => (mem_concat.mp ht).resolve_right nofun
  have hcounts : ∀ y : SessionId, takenCounts (log ++ [.sealed x.ident x.sendN plain packet]) y =
      takenCounts log y := fun y => takenCounts_append fun _ _ => by simp
  refine ⟨fun y hy => hmem ?_, fun y count q p hs => hmem ?_, fun y p q ht => hmem (h.takenOn y p q (htaken ht)),
    fun y hy count q p hs => ?_, fun y hy => ?_, ?_, ?_, fun y count q p hs => ?_,
    fun y p q ht => h.takenAs y p q (htaken ht)⟩
  · rcases hheld y hy with rfl | ⟨hy, -⟩
    · exact h.made x hx
    · exact h.made y hy
  · rcases mem_concat.mp hs with hs | hs
    · exact h.sealedOn y count q p hs
    · cases hs
      exact h.made x hx
  · rcases hheld y hy with rfl | ⟨hy, hne⟩
    · rcases mem_concat.mp hs with hs | hs
      · exact Nat.lt_succ_of_lt (h.counted x hx count q p hs)
      · rw [SessionNote.sealed.injEq] at hs
        rw [hs.2.1]
        exact Nat.lt_succ_self _
    · rcases mem_concat.mp hs with hs | hs
      · exact h.counted y hy count q p hs
      · rw [SessionNote.sealed.injEq] at hs
        exact absurd hs.1 hne
  · rw [hcounts]
    rcases hheld y hy with rfl | ⟨hy, -⟩
    · exact h.remembers x hx
    · exact h.remembers y hy
  · -- the counter of the session is above those of its packets so far, and its key is no other session's
    rw [filterMap_concat]
    refine List.nodup_append.mpr ⟨h.nonces, by simp [SessionNote.nonce], ?_⟩
    intro a ha b hb
    obtain rfl : b = (x.kSend, x.sendN) := by simpa [SessionNote.nonce, Session.ident] using hb
    rintro rfl
    obtain ⟨note, hnote, hnonce⟩ := List.mem_filterMap.mp ha
    cases note with
    | opened y => cases hnonce
    | taken y p q => cases hnonce
    | sealed y count q p =>
      rw [SessionNote.nonce, Option.some.injEq, Prod.mk.injEq] at hnonce
      obtain ⟨hkey, rfl⟩ := hnonce
      obtain rfl : y = x.ident := hfresh.eq (h.sealedOn _ _ _ _ hnote) (h.made x hx) (Or.inl hkey)
      exact absurd (h.counted x hx _ _ _ hnote) (lt_irrefl _)
  · rw [filterMap_concat]
    simpa [SessionNote.counter] using h.counters
  · rcases mem_concat.mp hs with hs | hs
    · exact h.sealedAs y count q p hs
    · cases hs
      exact ⟨hlimit, x, rfl, rfl, hpacket⟩

/-- **A packet taken** has a counter that is new. -/
theorem Booked.taken {x x' : Session} {packet plain : Bytes} {size : ℕ} (h : Booked N log held) (hfresh : FreshKeys log)
    (hx : x ∈ held) (hopen : sessionOpen N x packet size = some (plain, x'))
    (hheld : ∀ y ∈ held', y = x' ∨ y ∈ held ∧ y.ident ≠ x.ident) :
    Booked N (log ++ [.taken x.ident packet plain]) held' := by
  obtain ⟨-, -, -, -, hcheck, hdecrypt, rfl⟩ := (sessionOpen_iff N).mp hopen
  have hadmits := (h.remembers x hx).check.mp hcheck
  have hmem : ∀ {y}, SessionNote.opened y ∈ log → SessionNote.opened y ∈ log ++ [.taken x.ident packet plain] :=
    List.mem_append_left _
  have hsealed : ∀ {y count q p}, SessionNote.sealed y count q p ∈ log ++ [.taken x.ident packet plain] →
      SessionNote.sealed y count q p ∈ log := fun hs => (mem_concat.mp hs).resolve_right nofun
  refine ⟨fun y hy => hmem ?_, fun y count q p hs => hmem (h.sealedOn y count q p (hsealed hs)), fun y p q ht => hmem ?_,
    fun y hy count q p hs => ?_, fun y hy => ?_, ?_, ?_, fun y count q p hs => h.sealedAs y count q p (hsealed hs),
    fun y p q ht => ?_⟩
  · rcases hheld y hy with rfl | ⟨hy, -⟩
    · exact h.made x hx
    · exact h.made y hy
  · rcases mem_concat.mp ht with ht | ht
    · exact h.takenOn y p q ht
    · cases ht
      exact h.made x hx
  · rcases hheld y hy with rfl | ⟨hy, -⟩
    · exact h.counted x hx count q p (hsealed hs)
    · exact h.counted y hy count q p (hsealed hs)
  · rcases hheld y hy with rfl | ⟨hy, hne⟩
    · show Remembers _ (takenCounts _ x.ident)
      rw [takenCounts_taken]
      exact (h.remembers x hx).record hadmits
    · rw [takenCounts_append fun p q heq => hne (by
        rw [SessionNote.taken.injEq] at heq
        exact heq.1.symm)]
      exact h.remembers y hy
  · rw [filterMap_concat]
    simpa [SessionNote.nonce] using h.nonces
  · -- the key names one session, and that session remembers the counter
    rw [filterMap_concat]
    refine List.nodup_append.mpr ⟨h.counters, by simp [SessionNote.counter], ?_⟩
    intro a ha b hb
    obtain rfl : b = (x.kRecv, readLe64 packet 9) := by simpa [SessionNote.counter, Session.ident] using hb
    rintro rfl
    obtain ⟨note, hnote, hcounter⟩ := List.mem_filterMap.mp ha
    cases note with
    | opened y => cases hcounter
    | sealed y count q p => cases hcounter
    | taken y p q =>
      rw [SessionNote.counter, Option.some.injEq, Prod.mk.injEq] at hcounter
      obtain ⟨hkey, hcount⟩ := hcounter
      obtain rfl : y = x.ident := hfresh.eq (h.takenOn _ _ _ hnote) (h.made x hx) (Or.inr hkey)
      exact hadmits.fresh ⟨p, q, hnote, hcount⟩
  · rcases mem_concat.mp ht with ht | ht
    · exact h.takenAs y p q ht
    · cases ht
      exact hdecrypt

theorem NoteStep.booked {a : SessionNote} (hstep : NoteStep N held a held') (h : Booked N log held)
    (hfresh : FreshKeys (log ++ [a])) : Booked N (log ++ [a]) held' := by
  cases hstep with
  | opened hsent hreplay hheld => exact h.opened hfresh hsent hreplay hheld
  | sealed hx hseal hheld => exact h.sealed hfresh.before hx hseal hheld
  | taken hx hopen hheld => exact h.taken hfresh.before hx hopen hheld

theorem NoteSteps.booked {notes : List SessionNote} (hsteps : NoteSteps N held notes held') (h : Booked N log held)
    (hfresh : FreshKeys (log ++ notes)) : Booked N (log ++ notes) held' := by
  induction hsteps generalizing log with
  | quiet hsub =>
    rw [List.append_nil]
    exact h.quiet hsub
  | @note _ _ _ a notes hstep _ ih =>
    rw [show log ++ a :: notes = log ++ [a] ++ notes by simp] at hfresh ⊢
    exact ih (hstep.booked h hfresh.before) hfresh

variable (N) in
/-- **The sessions of a run.** The steps of the machine make notes of what they do with the sessions it holds. -/
theorem booked_reachable {σ ε : Type*} (M : Machine σ ε) {out : σ → ε → List SessionNote} (held : σ → Set Session)
    (hstart : ∀ s, M.start s → ∀ x, x ∉ held s)
    (hstep : ∀ s e t, M.Reachable s → M.next s e = some t → NoteSteps N (held s) (out s e) (held t))
    {s : σ} {log : List SessionNote} (h : (M.logged out).Reachable (s, log)) (hfresh : FreshKeys log) :
    Booked N log (held s) := by
  refine h.logged_invariant (I := fun s log => FreshKeys log → Booked N log (held s))
    (fun s hs _ => booked_nil (hstart s hs)) (fun s log e t hreach hs _ hnext hnew => ?_) hfresh
  exact (hstep s e t hreach hnext).booked (hs hnew.before) hnew

end Camex
