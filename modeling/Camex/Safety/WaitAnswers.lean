import Camex.Control
import Mathlib.Data.List.Count
import Mathlib.Data.List.Infix

/-!
# The answers to WAIT

* `ConnDid`: what the loop does with a connection, for each outcome; `fdsetConn_did`, `handleConn_did`;
* `Since`: a fingerprint that the state had when a `WAIT` came in, or later;
* `Kept`: what a step keeps; each waiting connection and the cached fingerprint are as new as its `WAIT`;
* `Received`: the `WAIT`s that one `controlHandle` takes in, with the fingerprint of the state, `controlHandle_received`;
* `StepNotes`, `step_waits`: the log says what happened, and a connection waits until it is answered or gone;
* `Fresh`: a cached fingerprint is older than a moment, or not the one given;
* `wait_right`: the answers in any interleaving.
-/

namespace Camex.Control

open Lib

variable {σ : Type*} {srv : Server σ} {s s' : Ctl σ} {log out : List Effect} {i n : ℕ}

/-! ## What the loop does with a connection -/

/-- A connection goes on without an answer to a `WAIT`, or is closed. -/
inductive Quiet (c : ControlConn) : ControlConn → Prop
  | closed : Quiet c CONTROL_CONN_FREE
  | same (c' : ControlConn) (hfd : c'.fd = c.fd) (hwaiting : c'.waiting = c.waiting) (hhash : c'.waitHash = c.waitHash)
    (huntil : c'.waitUntil = c.waitUntil) (hout : c.out ≠ none → c'.out ≠ none)
    (hwait : c.waiting = true → c'.out = c.out) : Quiet c c'

/-- The connection has the fingerprint `h` to send. -/
def Done (n : ℕ) (h : UInt64) (c : ControlConn) : Prop :=
  c.fd = some n ∧ c.waiting = false ∧ c.out = some (waitText h ++ CONTROL_END)

def Open (c : ControlConn) : Prop := c.waiting = false ∧ c.out = none

def AtOnce (given : Option UInt64) (secs : ℕ) (current : UInt64) : Prop := given ≠ some current ∨ secs = 0

/-- What becomes of connection `n` when the fingerprint used is `h`. -/
inductive ConnDid (h current : UInt64) (n : ℕ) (c : ControlConn) : ControlConn → List Effect → Prop
  | quiet (c' : ControlConn) (hq : Quiet c c') : ConnDid h current n c c' []
  | answered (c' : ControlConn) (wall : ℤ) (hw : c.waiting = true) (hwhy : h ≠ c.waitHash ∨ c.waitUntil ≤ wall)
    (hdone : Done n h c') : ConnDid h current n c c' [.answered n h wall]
  | lost (hw : c.waiting = true) : ConnDid h current n c CONTROL_CONN_FREE [.lost n]
  | cameAnswered (c' : ControlConn) (given : Option UInt64) (secs : ℕ) (wall : ℤ) (hopen : Open c)
    (hwhy : AtOnce given secs current) (hdone : Done n current c') :
    ConnDid h current n c c' [.arrived n current given secs wall, .answered n current wall]
  | cameLost (given : Option UInt64) (secs : ℕ) (wall : ℤ) (hopen : Open c) (hwhy : AtOnce given secs current) :
    ConnDid h current n c CONTROL_CONN_FREE [.arrived n current given secs wall, .lost n]
  | cameWaits (c' : ControlConn) (given : UInt64) (secs : ℕ) (wall : ℤ) (hopen : Open c)
    (hwhy : ¬ AtOnce (some given) secs current) (hh : h = current) (hfd : c'.fd = some n) (hw : c'.waiting = true)
    (hout : c'.out = none) (hhash : c'.waitHash = given) (huntil : c'.waitUntil = wall + secs) :
    ConnDid h current n c c' [.arrived n current (some given) secs wall]

/-- A step at connection `i` leaves the others alone; the cached fingerprint is the old one or that of the state. -/
structure SlotStep (srv : Server σ) (i : ℕ) (s s' : Ctl σ) : Prop where
  server : s'.server = s.server
  accepted : s'.accepted = s.accepted
  listening : s'.listening = s.listening
  other : ∀ j, j ≠ i → s'.conns j = s.conns j
  cache : (s'.stateHash = s.stateHash ∧ s'.stateHashAt = s.stateHashAt) ∨
    (s'.stateHash = srv.serverStateHash s.server ∧ s'.stateHashAt = s'.now)
  now : s.now ≤ s'.now

theorem setConn_self (s : Ctl σ) (i : ℕ) (c : ControlConn) : (s.setConn i c).conns i = c := Function.update_self ..

theorem setConn_other (s : Ctl σ) {i j : ℕ} (h : j ≠ i) (c : ControlConn) : (s.setConn i c).conns j = s.conns j :=
  Function.update_of_ne h ..

theorem SlotStep.refl (s : Ctl σ) : SlotStep srv i s s := ⟨rfl, rfl, rfl, fun _ _ => rfl, Or.inl ⟨rfl, rfl⟩, le_rfl⟩

theorem SlotStep.setConn (h : SlotStep srv i s s') (c : ControlConn) : SlotStep srv i s (s'.setConn i c) :=
  { h with other := fun j hj => (setConn_other s' hj c).trans (h.other j hj) }

theorem controlStateHashNow_cache {t : ℕ} (h : controlStateHashNow srv s t = some s') :
    (s'.stateHash = s.stateHash ∧ s'.stateHashAt = s.stateHashAt) ∨
      (s'.stateHash = srv.serverStateHash s.server ∧ s'.stateHashAt = s'.now) := by
  unfold controlStateHashNow at h
  split at h
  · cases h
    exact Or.inr ⟨rfl, rfl⟩
  · cases h

theorem controlStateHashNow_spec {t : ℕ} (h : controlStateHashNow srv s t = some s') :
    SlotStep srv i s s' ∧ s'.conns = s.conns ∧ s'.stateHash = srv.serverStateHash s.server := by
  unfold controlStateHashNow at h
  split at h
  · rename_i ht
    cases h
    exact ⟨⟨rfl, rfl, rfl, fun _ _ => rfl, Or.inr ⟨rfl, rfl⟩, ht⟩, rfl, rfl⟩
  · cases h

theorem controlStateHash_spec {t u : ℕ} (h : controlStateHash srv s t u = some s') :
    SlotStep srv i s s' ∧ s'.conns = s.conns := by
  unfold controlStateHash at h
  split at h
  · rename_i ht
    simp only at h
    split at h
    · obtain ⟨hslot, hconns, hhash⟩ := controlStateHashNow_spec (i := i) h
      have hcache := controlStateHashNow_cache h
      exact ⟨⟨hslot.server, hslot.accepted, hslot.listening, hslot.other, hcache, ht.trans hslot.now⟩, hconns⟩
    · cases h
      exact ⟨⟨rfl, rfl, rfl, fun _ _ => rfl, Or.inl ⟨rfl, rfl⟩, ht⟩, rfl⟩
  · cases h

/-- An answer to a `WAIT` is put out, or there is no memory for it. -/
theorem controlWaitAnswer_spec (c : ControlConn) (h : UInt64) (alloc : Bool) (wall : ℤ) (hfd : c.fd = some n) :
    Done n h (controlWaitAnswer c n h alloc wall).1 ∧ (controlWaitAnswer c n h alloc wall).2 = .answered n h wall ∨
      (controlWaitAnswer c n h alloc wall).1 = CONTROL_CONN_FREE ∧ (controlWaitAnswer c n h alloc wall).2 = .lost n := by
  cases alloc with
  | true => exact Or.inl ⟨⟨hfd, rfl, rfl⟩, rfl⟩
  | false => exact Or.inr ⟨rfl, rfl⟩

theorem fdsetConn_did {v : Visit} (hfd : (s.conns i).fd = some n) (h : fdsetConn srv v i s = some (s', out)) :
    SlotStep srv i s s' ∧ ConnDid s'.stateHash (srv.serverStateHash s.server) n (s.conns i) (s'.conns i) out := by
  simp only [fdsetConn, hfd] at h
  split at h
  · rename_i hw
    obtain ⟨t, ht, hres⟩ := Option.map_eq_some_iff.mp h
    obtain ⟨hslot, hconns⟩ := controlStateHash_spec (i := i) ht
    simp only [hconns] at hres
    split at hres
    · rename_i hwhy
      cases hres
      refine ⟨hslot.setConn _, ?_⟩
      rw [setConn_self]
      change ConnDid t.stateHash _ _ _ _ _
      rcases controlWaitAnswer_spec (s.conns i) t.stateHash v.alloc v.wall hfd with ⟨hdone, heff⟩ | ⟨hfree, heff⟩
      · rw [heff, if_neg (by rw [hdone.1]; exact Option.some_ne_none n)]
        exact .answered _ v.wall hw hwhy hdone
      · rw [heff, hfree, if_pos (show CONTROL_CONN_FREE.fd = none from rfl)]
        exact .lost hw
    · cases hres
      refine ⟨hslot, ?_⟩
      rw [hconns]
      exact .quiet _ (.same _ rfl rfl rfl rfl (fun ho => ho) fun _ => rfl)
  · split at h
    · cases h
      refine ⟨(SlotStep.refl s).setConn _, ?_⟩
      rw [setConn_self]
      exact .quiet _ .closed
    · cases h
      exact ⟨.refl s, .quiet _ (.same _ rfl rfl rfl rfl (fun ho => ho) fun _ => rfl)⟩

theorem controlWaitStart_did {io : Io} {given : Option UInt64} {secs : ℕ} (hfd : (s.conns i).fd = some n)
    (hopen : Open (s.conns i)) (h : controlWaitStart srv io i n given secs s = some (s', out)) :
    SlotStep srv i s s' ∧ ConnDid s'.stateHash (srv.serverStateHash s.server) n (s.conns i) (s'.conns i) out := by
  unfold controlWaitStart at h
  obtain ⟨t, ht, hres⟩ := Option.map_eq_some_iff.mp h
  obtain ⟨hslot, hconns, hhash⟩ := controlStateHashNow_spec (i := i) ht
  have hanswer : AtOnce given secs (srv.serverStateHash s.server) →
      ConnDid t.stateHash (srv.serverStateHash s.server) n (s.conns i)
        (controlWaitAnswer (s.conns i) n t.stateHash io.alloc io.wall).1
        [.arrived n t.stateHash given secs io.wall,
          (controlWaitAnswer (s.conns i) n t.stateHash io.alloc io.wall).2] := by
    intro hwhy
    rw [hhash]
    rcases controlWaitAnswer_spec (s.conns i) (srv.serverStateHash s.server) io.alloc io.wall hfd with
      ⟨hdone, heff⟩ | ⟨hfree, heff⟩
    · rw [heff]
      exact .cameAnswered _ given secs io.wall hopen hwhy hdone
    · rw [heff, hfree]
      exact .cameLost given secs io.wall hopen hwhy
  simp only [hconns] at hres
  cases given with
  | none =>
    cases hres
    refine ⟨hslot.setConn _, ?_⟩
    rw [setConn_self]
    exact hanswer (Or.inl (Option.some_ne_none _).symm)
  | some given =>
    simp only at hres
    split at hres
    · rename_i hwhy
      cases hres
      refine ⟨hslot.setConn _, ?_⟩
      rw [setConn_self]
      refine hanswer (hwhy.imp (fun hne he => ?_) fun hsecs => hsecs)
      exact hne (hhash.trans (Option.some.inj he).symm)
    · rename_i hwhy
      cases hres
      refine ⟨hslot.setConn _, ?_⟩
      rw [setConn_self, hhash]
      refine .cameWaits _ given secs io.wall hopen (fun hno => hwhy ?_) hhash hfd rfl hopen.2 rfl rfl
      exact hno.imp (fun hne he => hne (congrArg some (he.symm.trans hhash))) fun hsecs => hsecs

theorem controlFinish_quiet (c : ControlConn) (text : Option CStr) (alloc : Bool) (hopen : c.waiting = false) :
    Quiet c (controlFinish c text alloc) := by
  have hno : c.waiting ≠ true := by simp [hopen]
  unfold controlFinish
  split
  · split
    · exact .same _ rfl rfl rfl rfl (fun _ => Option.some_ne_none _) fun hw => absurd hw hno
    · exact .closed
  · exact .closed

theorem controlAnswer_did {io : Io} (hfd : (s.conns i).fd = some n) (hopen : Open (s.conns i))
    (h : controlAnswer srv io i n s = some (s', out)) :
    SlotStep srv i s s' ∧ ConnDid s'.stateHash (srv.serverStateHash s.server) n (s.conns i) (s'.conns i) out := by
  have hquiet : ∀ text, SlotStep srv i s (s.setConn i (controlFinish (s.conns i) text io.alloc)) ∧
      ConnDid s.stateHash (srv.serverStateHash s.server) n (s.conns i)
        ((s.setConn i (controlFinish (s.conns i) text io.alloc)).conns i) [] := by
    intro text
    refine ⟨(SlotStep.refl s).setConn _, ?_⟩
    rw [setConn_self]
    exact .quiet _ (controlFinish_quiet _ text io.alloc hopen.1)
  simp only [controlAnswer] at h
  split at h
  · split at h
    · exact controlWaitStart_did hfd hopen h
    · cases h
      exact hquiet _
  · cases h
    exact hquiet _

theorem ConnDid.of_cmd {h current : UInt64} {c c' : ControlConn} {cmd : CStr}
    (hd : ConnDid h current n { c with cmd := cmd } c' out) : ConnDid h current n c c' out := by
  cases hd with
  | quiet _ hq =>
    cases hq with
    | closed => exact .quiet _ .closed
    | same _ hfd hwaiting hhash huntil hout hwait => exact .quiet _ (.same _ hfd hwaiting hhash huntil hout hwait)
  | answered _ wall hw hwhy hdone => exact .answered _ wall hw hwhy hdone
  | lost hw => exact .lost hw
  | cameAnswered _ given secs wall hopen hwhy hdone => exact .cameAnswered _ given secs wall hopen hwhy hdone
  | cameLost given secs wall hopen hwhy => exact .cameLost given secs wall hopen hwhy
  | cameWaits _ given secs wall hopen hwhy hh hfd hw hout hhash huntil =>
    exact .cameWaits _ given secs wall hopen hwhy hh hfd hw hout hhash huntil

theorem SlotStep.closed (s : Ctl σ) (h : UInt64) :
    SlotStep srv i s (s.setConn i CONTROL_CONN_FREE) ∧
      ConnDid h (srv.serverStateHash s.server) n (s.conns i) ((s.setConn i CONTROL_CONN_FREE).conns i) [] := by
  refine ⟨(SlotStep.refl s).setConn _, ?_⟩
  rw [setConn_self]
  exact .quiet _ .closed

theorem SlotStep.idle (s : Ctl σ) (h : UInt64) :
    SlotStep srv i s s ∧ ConnDid h (srv.serverStateHash s.server) n (s.conns i) (s.conns i) [] :=
  ⟨.refl s, .quiet _ (.same _ rfl rfl rfl rfl (fun ho => ho) fun _ => rfl)⟩

theorem readCommand_did {io : Io} {r : Recv} (hfd : (s.conns i).fd = some n) (hopen : Open (s.conns i))
    (h : readCommand srv io i n r s = some (s', out)) :
    SlotStep srv i s s' ∧ ConnDid s'.stateHash (srv.serverStateHash s.server) n (s.conns i) (s'.conns i) out := by
  cases r with
  | again =>
    cases h
    exact SlotStep.idle s _
  | gone =>
    cases h
    exact SlotStep.closed s _
  | bytes b =>
    simp only [readCommand] at h
    split at h
    · cases h
      exact SlotStep.closed s _
    · generalize hcmd : (s.conns i).cmd ++ b.take (CONTROL_CMD_MAX - 1 - (s.conns i).cmd.length) = cmd at h
      have hconn : (s.setConn i { s.conns i with cmd := cmd }).conns i = { s.conns i with cmd := cmd } :=
        setConn_self ..
      split at h
      · have hfd' : ((s.setConn i { s.conns i with cmd := cmd }).conns i).fd = some n := by rw [hconn]; exact hfd
        obtain ⟨hslot, hdid⟩ := controlAnswer_did hfd' (by rw [hconn]; exact hopen) h
        rw [hconn] at hdid
        refine ⟨{ hslot with other := fun j hj => (hslot.other j hj).trans (setConn_other s hj _) }, hdid.of_cmd⟩
      · cases h
        refine ⟨(SlotStep.refl s).setConn _, ?_⟩
        rw [hconn]
        exact .quiet _ (.same _ rfl rfl rfl rfl (fun ho => ho) fun _ => rfl)

theorem sendAnswer_did (r : Send) (text : CStr) :
    SlotStep srv i s (sendAnswer i text r s) ∧
      ConnDid (sendAnswer i text r s).stateHash (srv.serverStateHash s.server) n (s.conns i)
        ((sendAnswer i text r s).conns i) [] := by
  unfold sendAnswer
  cases r with
  | again => exact SlotStep.idle s _
  | failed => exact SlotStep.closed s _
  | bytes k =>
    simp only
    split
    · exact SlotStep.closed s _
    · refine ⟨(SlotStep.refl s).setConn _, ?_⟩
      rw [setConn_self]
      exact .quiet _ (.same _ rfl rfl rfl rfl (fun ho => ho) fun _ => rfl)

theorem sendReady_did (io : Io) :
    SlotStep srv i s (sendReady io i s) ∧
      ConnDid (sendReady io i s).stateHash (srv.serverStateHash s.server) n (s.conns i)
        ((sendReady io i s).conns i) [] := by
  unfold sendReady
  split
  · exact sendAnswer_did _ _
  · exact SlotStep.idle s _

theorem waitRecv_did (r : Recv) :
    SlotStep srv i s (waitRecv i r s) ∧
      ConnDid (waitRecv i r s).stateHash (srv.serverStateHash s.server) n (s.conns i) ((waitRecv i r s).conns i) [] := by
  cases r with
  | again => exact SlotStep.idle s _
  | gone => exact SlotStep.closed s _
  | bytes b =>
    simp only [waitRecv]
    split
    · exact SlotStep.closed s _
    · exact SlotStep.idle s _

theorem handleConn_did {io : Io} (hfd : (s.conns i).fd = some n) (h : handleConn srv io i s = some (s', out)) :
    SlotStep srv i s s' ∧ ConnDid s'.stateHash (srv.serverStateHash s.server) n (s.conns i) (s'.conns i) out := by
  simp only [handleConn, hfd] at h
  cases hr : io.recv with
  | none =>
    simp only [hr] at h
    cases h
    exact sendReady_did io
  | some r =>
    simp only [hr] at h
    split at h
    · cases h
      exact waitRecv_did r
    · rename_i hw
      split at h
      · rename_i hout
        exact readCommand_did hfd ⟨Bool.not_eq_true _ ▸ hw, hout⟩ h
      · cases h
        exact sendReady_did io

/-! ## What a step keeps -/

def Effect.arrives (n : ℕ) : Effect → Bool
  | .arrived m _ _ _ _ => m == n
  | _ => false

def Effect.answers (n : ℕ) : Effect → Bool
  | .answered m _ _ => m == n
  | _ => false

/-- How many `WAIT`s came in on the connection. -/
def arrivalsOf (n : ℕ) (log : List Effect) : ℕ := log.countP (Effect.arrives n)

/-- How many `WAIT`s were answered on the connection. -/
def answersOf (n : ℕ) (log : List Effect) : ℕ := log.countP (Effect.answers n)

theorem arrivalsOf_append : arrivalsOf n (log ++ out) = arrivalsOf n log + arrivalsOf n out := List.countP_append

theorem answersOf_append : answersOf n (log ++ out) = answersOf n log + answersOf n out := List.countP_append

/-- `h` is the fingerprint that the state had when the `WAIT` of `came` arrived, or one that it had later. -/
def Since (came : Effect) (current : UInt64) (log : List Effect) (h : UInt64) : Prop :=
  current = h ∧ came ∈ log ∨ Before came (.changed h) log

theorem Since.append {came : Effect} {current h : UInt64} (hs : Since came current log h) :
    Since came current (log ++ out) h := by
  rcases hs with ⟨hh, hmem⟩ | hbefore
  · exact Or.inl ⟨hh, List.mem_append_left _ hmem⟩
  · exact Or.inr hbefore.append

theorem Since.mem {came : Effect} {current h : UInt64} (hs : Since came current log h) : came ∈ log := by
  rcases hs with ⟨-, hmem⟩ | hbefore
  · exact hmem
  · exact hbefore.subset (List.mem_cons_self ..)

/-- What holds of a connection when the state's fingerprint is `current` and the cached one `cached`. -/
structure ConnKept (current cached : UInt64) (c : ControlConn) (log : List Effect) : Prop where
  quiet : ∀ n, c.fd = some n → Open c → arrivalsOf n log = 0 ∧ answersOf n log = 0
  waits : c.waiting = true → ∃ n first secs wall, c.fd = some n ∧ c.out = none ∧ answersOf n log = 0 ∧
    c.waitUntil = wall + (secs : ℕ) ∧
    Since (.arrived n first (some c.waitHash) secs wall) first log current ∧
    Since (.arrived n first (some c.waitHash) secs wall) first log cached

theorem ConnKept.free (current cached : UInt64) : ConnKept current cached CONTROL_CONN_FREE log where
  quiet n hn := by cases hn
  waits hw := by cases hw

theorem ConnKept.append {current cached cached' : UInt64} {c : ControlConn} (h : ConnKept current cached c log)
    (hcache : cached' = cached ∨ cached' = current)
    (hother : ∀ n, c.fd = some n → arrivalsOf n out = 0 ∧ answersOf n out = 0) :
    ConnKept current cached' c (log ++ out) where
  quiet n hn hopen := by
    obtain ⟨harrived, hanswered⟩ := h.quiet n hn hopen
    obtain ⟨hno, hnone⟩ := hother n hn
    rw [arrivalsOf_append, answersOf_append]
    omega
  waits hw := by
    obtain ⟨n, first, secs, wall, hn, hout, hanswered, huntil, hnow, hcached⟩ := h.waits hw
    refine ⟨n, first, secs, wall, hn, hout, ?_, huntil, hnow.append, ?_⟩
    · rw [answersOf_append, hanswered, (hother n hn).2]
    · rcases hcache with rfl | rfl
      · exact hcached.append
      · exact hnow.append

theorem ConnKept.changed {current cached h : UInt64} {c : ControlConn} (hc : ConnKept current cached c log) :
    ConnKept h cached c (log ++ [.changed h]) where
  quiet n hn hopen := by
    rw [arrivalsOf_append, answersOf_append]
    exact hc.quiet n hn hopen
  waits hw := by
    obtain ⟨n, first, secs, wall, hn, hout, hanswered, huntil, hnow, hcached⟩ := hc.waits hw
    refine ⟨n, first, secs, wall, hn, hout, ?_, huntil, Or.inr ?_, hcached.append⟩
    · rw [answersOf_append]
      exact hanswered
    · exact Before.of_mem hnow.mem (List.mem_singleton_self _)

/-- An answer carries a fingerprint that the state had when its `WAIT` came in, or later; before its time is up, not the
one given. -/
def AnswerRight (log : List Effect) (n : ℕ) (h : UInt64) (w : ℤ) : Prop :=
  ∃ first given secs wall,
    (first = h ∧ Before (.arrived n first given secs wall) (.answered n h w) log ∨
      [.arrived n first given secs wall, .changed h, .answered n h w].Sublist log) ∧
    (given ≠ some h ∨ wall + (secs : ℕ) ≤ w)

theorem AnswerRight.append {h : UInt64} {w : ℤ} (ha : AnswerRight log n h w) : AnswerRight (log ++ out) n h w := by
  obtain ⟨first, given, secs, wall, hfrom, hwhy⟩ := ha
  refine ⟨first, given, secs, wall, ?_, hwhy⟩
  rcases hfrom with ⟨hh, hbefore⟩ | hsub
  · exact Or.inl ⟨hh, hbefore.append⟩
  · exact Or.inr (hsub.trans (List.sublist_append_left _ _))

/-- The answer to a `WAIT` whose fingerprint the state has: at once. -/
def AnsweredAtOnce (log : List Effect) (n : ℕ) (current : UInt64) (given : Option UInt64) (secs : ℕ) (wall : ℤ) : Prop :=
  [.arrived n current given secs wall, .answered n current wall] <:+: log ∨
    [.arrived n current given secs wall, .lost n] <:+: log

theorem AnsweredAtOnce.append {current : UInt64} {given : Option UInt64} {secs : ℕ} {wall : ℤ}
    (ha : AnsweredAtOnce log n current given secs wall) : AnsweredAtOnce (log ++ out) n current given secs wall :=
  ha.imp (fun h => h.trans (List.prefix_append _ _).isInfix) fun h => h.trans (List.prefix_append _ _).isInfix

/-- **What the log says of the answers.** -/
structure LogRight (log : List Effect) : Prop where
  once : ∀ n, arrivalsOf n log ≤ 1 ∧ answersOf n log ≤ 1
  answered : ∀ n h w, .answered n h w ∈ log → AnswerRight log n h w
  atOnce : ∀ n current given secs wall, .arrived n current given secs wall ∈ log → AtOnce given secs current →
    AnsweredAtOnce log n current given secs wall

theorem LogRight.append (h : LogRight log)
    (honce : ∀ n, arrivalsOf n (log ++ out) ≤ 1 ∧ answersOf n (log ++ out) ≤ 1)
    (hanswered : ∀ n k w, .answered n k w ∈ out → AnswerRight (log ++ out) n k w)
    (hatOnce : ∀ n current given secs wall, .arrived n current given secs wall ∈ out → AtOnce given secs current →
      AnsweredAtOnce (log ++ out) n current given secs wall) : LogRight (log ++ out) where
  once := honce
  answered n k w hmem := by
    rcases List.mem_append.mp hmem with hmem | hmem
    · exact (h.answered n k w hmem).append
    · exact hanswered n k w hmem
  atOnce n current given secs wall hmem hwhy := by
    rcases List.mem_append.mp hmem with hmem | hmem
    · exact (h.atOnce n current given secs wall hmem hwhy).append
    · exact hatOnce n current given secs wall hmem hwhy

/-- **What every step keeps.** -/
structure Kept (srv : Server σ) (s : Ctl σ) (log : List Effect) : Prop where
  conn : ∀ i, ConnKept (srv.serverStateHash s.server) s.stateHash (s.conns i) log
  number : ∀ i n, (s.conns i).fd = some n → n < s.accepted
  distinct : ∀ i j n, (s.conns i).fd = some n → (s.conns j).fd = some n → i = j
  fresh : ∀ n, s.accepted ≤ n → arrivalsOf n log = 0 ∧ answersOf n log = 0
  range : ∀ i n, (s.conns i).fd = some n → i < CONTROL_CONNS
  off : s.listening = false → ∀ i, (s.conns i).fd = none
  clock : s.stateHashAt ≤ s.now
  log : LogRight log

theorem Kept.start (server : σ) : Kept srv (.start server) [] where
  conn i := .free _ _
  number i n hn := by cases hn
  distinct i j n hn := by cases hn
  fresh n hn := ⟨rfl, rfl⟩
  range i n hn := by cases hn
  off hoff i := rfl
  clock := le_rfl
  log := ⟨fun n => ⟨Nat.zero_le 1, Nat.zero_le 1⟩, by rintro n h w ⟨⟩, by rintro n c g t w ⟨⟩⟩

variable {h current : UInt64} {c c' : ControlConn}

theorem ConnDid.others (hd : ConnDid h current n c c' out) {m : ℕ} (hm : m ≠ n) :
    arrivalsOf m out = 0 ∧ answersOf m out = 0 := by
  cases hd <;> simp [arrivalsOf, answersOf, Effect.arrives, Effect.answers, Ne.symm hm]

theorem ConnDid.fd (hd : ConnDid h current n c c' out) (hfd : c.fd = some n) : c'.fd = none ∨ c'.fd = some n := by
  cases hd with
  | quiet _ hq =>
    cases hq with
    | closed => exact Or.inl rfl
    | same _ hsame => exact Or.inr (hsame.trans hfd)
  | answered _ wall hw hwhy hdone => exact Or.inr hdone.1
  | lost hw => exact Or.inl rfl
  | cameAnswered _ given secs wall hopen hwhy hdone => exact Or.inr hdone.1
  | cameLost given secs wall hopen => exact Or.inl rfl
  | cameWaits _ given secs wall hopen hwhy hh hfd' => exact Or.inr hfd'

theorem ConnDid.once (hd : ConnDid h current n c c' out) (hone : arrivalsOf n log ≤ 1 ∧ answersOf n log ≤ 1)
    (hopen : Open c → arrivalsOf n log = 0 ∧ answersOf n log = 0) (hwaits : c.waiting = true → answersOf n log = 0) :
    arrivalsOf n (log ++ out) ≤ 1 ∧ answersOf n (log ++ out) ≤ 1 := by
  rw [arrivalsOf_append, answersOf_append]
  have hcounts : arrivalsOf n out + answersOf n out = 0 ∨
      (answersOf n log = 0 ∧ arrivalsOf n out = 0 ∧ answersOf n out = 1) ∨
      (arrivalsOf n log = 0 ∧ answersOf n log = 0) ∧ arrivalsOf n out = 1 ∧ answersOf n out ≤ 1 := by
    cases hd with
    | quiet _ hq => exact Or.inl rfl
    | answered _ wall hw =>
      refine Or.inr (Or.inl ⟨hwaits hw, ?_⟩)
      simp [arrivalsOf, answersOf, Effect.arrives, Effect.answers]
    | lost hw => exact Or.inl rfl
    | cameAnswered _ given secs wall hc =>
      refine Or.inr (Or.inr ⟨hopen hc, ?_⟩)
      simp [arrivalsOf, answersOf, Effect.arrives, Effect.answers]
    | cameLost given secs wall hc =>
      refine Or.inr (Or.inr ⟨hopen hc, ?_⟩)
      simp [arrivalsOf, answersOf, Effect.arrives, Effect.answers]
    | cameWaits _ given secs wall hc =>
      refine Or.inr (Or.inr ⟨hopen hc, ?_⟩)
      simp [arrivalsOf, answersOf, Effect.arrives, Effect.answers]
  omega

theorem Done.kept {cached k : UInt64} (hdone : Done n k c') : ConnKept current cached c' log where
  quiet m hm hopen := by
    have hout := hdone.2.2
    rw [hopen.2] at hout
    cases hout
  waits hw := by
    rw [hdone.2.1] at hw
    cases hw

theorem ConnDid.kept {cached : UInt64} (hd : ConnDid h current n c c' out) (hk : ConnKept current cached c log)
    (hfd : c.fd = some n) (hcache : h = cached ∨ h = current) : ConnKept current h c' (log ++ out) := by
  cases hd with
  | quiet _ hq =>
    have hlog : ConnKept current h c (log ++ []) := hk.append hcache fun _ _ => ⟨rfl, rfl⟩
    cases hq with
    | closed => exact .free _ _
    | same _ hsame hwaiting hhash huntil hout hwait =>
      refine ⟨fun m hm hopen => ?_, fun hw => ?_⟩
      · refine hlog.quiet m (hsame.symm.trans hm) ⟨hwaiting.symm.trans hopen.1, ?_⟩
        by_contra hno
        exact hout hno hopen.2
      · rw [hwaiting] at hw
        rw [hsame, hhash, huntil, hwait hw]
        exact hlog.waits hw
  | answered _ wall hw hwhy hdone => exact hdone.kept
  | lost hw => exact .free _ _
  | cameAnswered _ given secs wall hopen hwhy hdone => exact hdone.kept
  | cameLost given secs wall hopen => exact .free _ _
  | cameWaits _ given secs wall hopen hwhy hh hfd' hw hout hhash huntil =>
    obtain ⟨harrived, hanswered⟩ := hk.quiet n hfd hopen
    refine ⟨fun m hm hopen' => ?_, fun _ => ?_⟩
    · rw [hopen'.1] at hw
      cases hw
    · have hmem : .arrived n current (some given) secs wall ∈ log ++ [.arrived n current (some given) secs wall] :=
        List.mem_append_right _ (List.mem_singleton_self _)
      refine ⟨n, current, secs, wall, hfd', hout, ?_, huntil, ?_, ?_⟩
      · rw [answersOf_append, hanswered]
        rfl
      · rw [hhash]
        exact Or.inl ⟨rfl, hmem⟩
      · rw [hhash]
        exact Or.inl ⟨hh.symm, hmem⟩

theorem ConnDid.logRight {cached : UInt64} (hd : ConnDid h current n c c' out) (hk : ConnKept current cached c log)
    (hl : LogRight log) (hfd : c.fd = some n) (hcache : h = cached ∨ h = current) : LogRight (log ++ out) := by
  have honce : ∀ m, arrivalsOf m (log ++ out) ≤ 1 ∧ answersOf m (log ++ out) ≤ 1 := by
    intro m
    by_cases hm : m = n
    · rw [hm]
      refine hd.once (hl.once n) (hk.quiet n hfd) fun hw => ?_
      obtain ⟨m', _, _, _, hm', _, hnone, _⟩ := hk.waits hw
      rw [hfd] at hm'
      cases hm'
      exact hnone
    · rw [arrivalsOf_append, answersOf_append, (hd.others hm).1, (hd.others hm).2]
      exact hl.once m
  refine hl.append honce (fun m k w hmem => ?_) fun m cur given secs wall hmem hwhy => ?_
  · cases hd with
    | quiet _ hq => cases hmem
    | answered _ wall hw hwhy hdone =>
      cases List.mem_singleton.mp hmem
      obtain ⟨m', first, secs, wall', hm', _, _, huntil, hnow, hcached⟩ := hk.waits hw
      rw [hfd] at hm'
      cases hm'
      have hsince : Since (.arrived n first (some c.waitHash) secs wall') first log h := by
        rcases hcache with rfl | rfl
        · exact hcached
        · exact hnow
      refine ⟨first, some c.waitHash, secs, wall', ?_, ?_⟩
      · rcases hsince with ⟨hh, hin⟩ | hbefore
        · exact Or.inl ⟨hh, Before.of_mem hin (List.mem_singleton_self _)⟩
        · exact Or.inr (List.Sublist.append hbefore (List.Sublist.refl [Effect.answered n h _]))
      · exact hwhy.imp (fun hne he => hne (Option.some.inj he).symm) fun hle => huntil ▸ hle
    | lost hw => simp at hmem
    | cameAnswered _ given secs wall hopen hwhy hdone =>
      have heq : m = n ∧ k = current ∧ w = wall := by simpa using hmem
      obtain ⟨rfl, rfl, rfl⟩ := heq
      refine ⟨k, given, secs, w, Or.inl ⟨rfl, List.sublist_append_right _ _⟩, hwhy.imp (fun hne => hne) fun hsecs => ?_⟩
      rw [hsecs]
      simp
    | cameLost given secs wall hopen => simp at hmem
    | cameWaits _ given secs wall hopen => simp at hmem
  · cases hd with
    | quiet _ hq => cases hmem
    | answered _ wall hw => simp at hmem
    | lost hw => simp at hmem
    | cameAnswered _ given' secs' wall' hopen hwhy' hdone =>
      have heq : m = n ∧ cur = current ∧ given = given' ∧ secs = secs' ∧ wall = wall' := by simpa using hmem
      obtain ⟨rfl, rfl, rfl, rfl, rfl⟩ := heq
      exact Or.inl (List.suffix_append _ _).isInfix
    | cameLost given' secs' wall' hopen =>
      have heq : m = n ∧ cur = current ∧ given = given' ∧ secs = secs' ∧ wall = wall' := by simpa using hmem
      obtain ⟨rfl, rfl, rfl, rfl, rfl⟩ := heq
      exact Or.inr (List.suffix_append _ _).isInfix
    | cameWaits _ given' secs' wall' hopen hwhy' =>
      have heq : m = n ∧ cur = current ∧ given = some given' ∧ secs = secs' ∧ wall = wall' := by simpa using hmem
      obtain ⟨rfl, rfl, rfl, rfl, rfl⟩ := heq
      exact absurd hwhy hwhy'

theorem Kept.slot (hk : Kept srv s log) (hfd : (s.conns i).fd = some n) (hs : SlotStep srv i s s')
    (hd : ConnDid s'.stateHash (srv.serverStateHash s.server) n (s.conns i) (s'.conns i) out) :
    Kept srv s' (log ++ out) := by
  have hcache : s'.stateHash = s.stateHash ∨ s'.stateHash = srv.serverStateHash s.server :=
    hs.cache.imp And.left And.left
  have hsame : ∀ j m, (s'.conns j).fd = some m → (s.conns j).fd = some m := by
    intro j m hm
    by_cases hj : j = i
    · rw [hj] at hm ⊢
      rcases hd.fd hfd with hnone | hn
      · rw [hnone] at hm
        cases hm
      · rw [hn] at hm
        rw [hfd, hm]
    · rwa [hs.other j hj] at hm
  refine
    { conn := fun j => ?_
      number := fun j m hm => ?_
      distinct := fun j k m hj hk' => hk.distinct j k m (hsame j m hj) (hsame k m hk')
      fresh := fun m hm => ?_
      range := fun j m hm => hk.range j m (hsame j m hm)
      off := fun hoff => ?_
      clock := ?_
      log := hd.logRight (hk.conn i) hk.log hfd hcache }
  · rw [hs.server]
    by_cases hj : j = i
    · rw [hj]
      exact hd.kept (hk.conn i) hfd hcache
    · rw [hs.other j hj]
      refine (hk.conn j).append hcache fun m hm => hd.others ?_
      rintro rfl
      exact hj (hk.distinct j i m hm hfd)
  · rw [hs.accepted]
    exact hk.number j m (hsame j m hm)
  · rw [hs.accepted] at hm
    have hn := hk.number i n hfd
    have hne : m ≠ n := by omega
    rw [arrivalsOf_append, answersOf_append, (hd.others hne).1, (hd.others hne).2]
    exact hk.fresh m hm
  · have hnone := hk.off (hs.listening ▸ hoff) i
    rw [hfd] at hnone
    cases hnone
  · rcases hs.cache with ⟨-, hat⟩ | ⟨-, hat⟩
    · rw [hat]
      exact hk.clock.trans hs.now
    · exact hat.le

/-! ## The steps -/

theorem fdsetConn_kept {v : Visit} (hk : Kept srv s log) (h : fdsetConn srv v i s = some (s', out)) :
    Kept srv s' (log ++ out) := by
  cases hfd : (s.conns i).fd with
  | none =>
    simp only [fdsetConn, hfd] at h
    cases h
    rwa [List.append_nil]
  | some n =>
    obtain ⟨hslot, hdid⟩ := fdsetConn_did hfd h
    exact hk.slot hfd hslot hdid

theorem handleConn_kept {io : Io} (hk : Kept srv s log) (h : handleConn srv io i s = some (s', out)) :
    Kept srv s' (log ++ out) := by
  cases hfd : (s.conns i).fd with
  | none =>
    simp only [handleConn, hfd] at h
    cases h
    rwa [List.append_nil]
  | some n =>
    obtain ⟨hslot, hdid⟩ := handleConn_did hfd h
    exact hk.slot hfd hslot hdid

theorem sweep_cons {f : ℕ → Ctl σ → Option (Ctl σ × List Effect)} {is : List ℕ}
    (h : sweep f (i :: is) s = some (s', out)) :
    ∃ t out₁ out₂, f i s = some (t, out₁) ∧ sweep f is t = some (s', out₂) ∧ out = out₁ ++ out₂ := by
  simp only [sweep] at h
  cases hf : f i s with
  | none =>
    rw [hf] at h
    cases h
  | some r =>
    rw [hf] at h
    obtain ⟨⟨t, out₂⟩, hrest, hres⟩ := Option.map_eq_some_iff.mp h
    cases hres
    exact ⟨r.1, r.2, out₂, rfl, hrest, rfl⟩

/-- What each connection's turn keeps, the loop keeps. -/
theorem sweep_kept {f : ℕ → Ctl σ → Option (Ctl σ × List Effect)}
    (hf : ∀ i s s' log out, Kept srv s log → f i s = some (s', out) → Kept srv s' (log ++ out)) (is : List ℕ)
    (hk : Kept srv s log) (h : sweep f is s = some (s', out)) : Kept srv s' (log ++ out) := by
  induction is generalizing s log out with
  | nil =>
    cases h
    rwa [List.append_nil]
  | cons i is ih =>
    obtain ⟨t, out₁, out₂, hone, hrest, rfl⟩ := sweep_cons h
    rw [← List.append_assoc]
    exact ih (hf i s t log out₁ hk hone) hrest

theorem acceptConn_kept (ok : Bool) (since : ℤ) (hk : Kept srv s log) (hon : s.listening = true) :
    Kept srv (acceptConn ok since s) log ∧ (acceptConn ok since s).listening = true := by
  unfold acceptConn
  split
  · rename_i i hfind
    have hfree : (s.conns i).fd = none := by simpa using List.find?_some hfind
    have hrange : i < CONTROL_CONNS := List.mem_range.mp (List.mem_of_find?_eq_some hfind)
    split
    · have hother : ∀ j, j ≠ i → (s.setConn i { CONTROL_CONN_FREE with fd := some s.accepted, since := since }).conns j =
          s.conns j := fun j hj => setConn_other s hj _
      have hself := setConn_self s i { CONTROL_CONN_FREE with fd := some s.accepted, since := since }
      refine ⟨{ hk with
        conn := fun j => ?_
        number := fun j m hm => ?_
        distinct := fun j k m hj hk' => ?_
        fresh := fun m hm => hk.fresh m (Nat.le_of_succ_le hm)
        range := fun j m hm => ?_
        off := fun hoff => absurd (hon.symm.trans hoff) (by decide) }, hon⟩
      · by_cases hj : j = i
        · rw [hj]
          change ConnKept _ _ ((s.setConn i _).conns i) log
          rw [hself]
          refine ⟨fun m hm _ => ?_, by rintro ⟨⟩⟩
          cases hm
          exact hk.fresh _ le_rfl
        · change ConnKept _ _ ((s.setConn i _).conns j) log
          rw [hother j hj]
          exact hk.conn j
      · change m < s.accepted + 1
        change ((s.setConn i _).conns j).fd = some m at hm
        by_cases hj : j = i
        · rw [hj, hself] at hm
          cases hm
          exact Nat.lt_succ_self _
        · rw [hother j hj] at hm
          exact Nat.lt_succ_of_lt (hk.number j m hm)
      · change ((s.setConn i _).conns j).fd = some m at hj
        change ((s.setConn i _).conns k).fd = some m at hk'
        by_cases hji : j = i
        · by_cases hki : k = i
          · rw [hji, hki]
          · rw [hji, hself] at hj
            cases hj
            rw [hother k hki] at hk'
            exact absurd (hk.number k _ hk') (lt_irrefl _)
        · rw [hother j hji] at hj
          by_cases hki : k = i
          · rw [hki, hself] at hk'
            cases hk'
            exact absurd (hk.number j _ hj) (lt_irrefl _)
          · rw [hother k hki] at hk'
            exact hk.distinct j k m hj hk'
      · change ((s.setConn i _).conns j).fd = some m at hm
        by_cases hj : j = i
        · rw [hj]
          exact hrange
        · rw [hother j hj] at hm
          exact hk.range j m hm
    · exact ⟨hk, hon⟩
  · exact ⟨hk, hon⟩

theorem accepts_kept (accepts : List (Bool × ℤ)) (hk : Kept srv s log) (hon : s.listening = true) :
    Kept srv (accepts.foldl (fun s a => acceptConn a.1 a.2 s) s) log := by
  induction accepts generalizing s with
  | nil => exact hk
  | cons a accepts ih =>
    obtain ⟨hnext, hon'⟩ := acceptConn_kept a.1 a.2 hk hon
    exact ih hnext hon'

/-- **A step keeps it.** -/
theorem Kept.step {e : Event σ} (hk : Kept srv s log) (h : step srv s e = some (s', out)) :
    Kept srv s' (log ++ out) := by
  cases e with
  | change server =>
    cases h
    exact
      { conn := fun i => (hk.conn i).changed
        number := hk.number
        distinct := hk.distinct
        fresh := fun m hm => by
          rw [arrivalsOf_append, answersOf_append]
          exact hk.fresh m hm
        range := hk.range
        off := hk.off
        clock := hk.clock
        log := hk.log.append
          (fun m => by
            rw [arrivalsOf_append, answersOf_append]
            exact hk.log.once m)
          (by simp) (by simp) }
  | pass visits =>
    simp only [Control.step, controlFdset] at h
    split at h
    · exact sweep_kept (fun i s s' log out hk h => fdsetConn_kept hk h) _ hk h
    · cases h
      rwa [List.append_nil]
  | handle accepts ios =>
    simp only [Control.step, controlHandle] at h
    split at h
    · rename_i hon
      exact sweep_kept (fun i s s' log out hk h => handleConn_kept hk h) _ (accepts_kept accepts hk hon) h
    · cases h
      rwa [List.append_nil]
  | reopen listening =>
    cases h
    rw [List.append_nil]
    exact
      { hk with
        conn := fun i => .free _ _
        number := by rintro i n ⟨⟩
        distinct := by rintro i j n ⟨⟩
        range := by rintro i n ⟨⟩
        off := fun _ _ => rfl }

theorem Kept.steps {C : Ctl σ → Event σ → Prop} {es : List (Event σ)} (hk : Kept srv s log)
    (hrun : (controlMachine srv).Steps C s es s') : Kept srv s' (log ++ effects srv s es) := by
  induction hrun generalizing log with
  | nil s =>
    rw [effects, List.append_nil]
    exact hk
  | @cons s u v e es hstep _ _ ih =>
    change (Control.step srv s e).map Prod.fst = some u at hstep
    obtain ⟨⟨u', out⟩, hout, rfl⟩ := Option.map_eq_some_iff.mp hstep
    have hnext := ih (hk.step hout)
    rw [effects, hout, ← List.append_assoc]
    exact hnext

/-! ## A pass behind a change -/

/-- How long a fingerprint is used, in nanoseconds. -/
def HASH_NS : ℕ := 250 * 10 ^ 6

theorem elapsedMs_le {now before : ℕ} (h : before + HASH_NS ≤ now) : 250 ≤ elapsedMs now before := by
  unfold elapsedMs HASH_NS at *
  have hnow := Nat.div_add_mod now (10 ^ 9)
  have hbefore := Nat.div_add_mod before (10 ^ 9)
  have hnow_lt := Nat.mod_lt now (show 0 < 10 ^ 9 by norm_num)
  have hbefore_lt := Nat.mod_lt before (show 0 < 10 ^ 9 by norm_num)
  generalize now / 10 ^ 9 = a at *
  generalize now % 10 ^ 9 = b at *
  generalize before / 10 ^ 9 = c at *
  generalize before % 10 ^ 9 = d at *
  have hdiv := Int.mul_tdiv_add_tmod ((b : ℤ) - d) 1000000
  have hmod := Int.tmod_lt_of_pos ((b : ℤ) - d) (show (0 : ℤ) < 1000000 by norm_num)
  omega

/-- Behind the moment `T`: the state has another fingerprint than the one given, and so does what was cached since. -/
structure Fresh (srv : Server σ) (given : UInt64) (T : ℕ) (s : Ctl σ) : Prop where
  differs : srv.serverStateHash s.server ≠ given
  cache : s.stateHashAt ≤ T ∨ s.stateHash ≠ given

variable {given : UInt64} {T : ℕ}

theorem Fresh.slot (hf : Fresh srv given T s) (hs : SlotStep srv i s s') : Fresh srv given T s' := by
  refine ⟨hs.server ▸ hf.differs, ?_⟩
  rcases hs.cache with ⟨hhash, hat⟩ | ⟨hhash, -⟩
  · rw [hhash, hat]
    exact hf.cache
  · rw [hhash]
    exact Or.inr hf.differs

/-- A fingerprint that is 250 ms behind the moment is another one. -/
theorem Fresh.controlStateHash {t u : ℕ} (hf : Fresh srv given T s) (ht : T + HASH_NS ≤ t)
    (h : controlStateHash srv s t u = some s') : s'.stateHash ≠ given := by
  unfold Control.controlStateHash at h
  split at h
  · simp only at h
    split at h
    · obtain ⟨-, -, hhash⟩ := controlStateHashNow_spec (i := 0) h
      rw [hhash]
      exact hf.differs
    · rename_i hread
      cases h
      simp only [Bool.or_eq_true, Bool.not_eq_true', decide_eq_true_eq, not_or] at hread
      refine hf.cache.resolve_left fun hold => ?_
      exact hread.1.2 (elapsedMs_le (by omega))
  · cases h

/-- The answer to a `WAIT` for another fingerprint, or there was no memory for it. -/
def AnsweredOther (given : UInt64) (n : ℕ) (out : List Effect) : Prop :=
  (∃ h w, h ≠ given ∧ .answered n h w ∈ out) ∨ .lost n ∈ out

theorem Fresh.fdsetConn {v : Visit} (hf : Fresh srv given T s) (hfd : (s.conns i).fd = some n)
    (hw : (s.conns i).waiting = true) (hhash : (s.conns i).waitHash = given) (hv : T + HASH_NS ≤ v.now)
    (h : fdsetConn srv v i s = some (s', out)) : AnsweredOther given n out := by
  simp only [Control.fdsetConn, hfd, hw, if_true] at h
  obtain ⟨t, ht, hres⟩ := Option.map_eq_some_iff.mp h
  have hne := hf.controlStateHash hv ht
  obtain ⟨-, hconns⟩ := controlStateHash_spec (i := i) ht
  simp only [hconns] at hres
  rw [if_pos (Or.inl (hhash ▸ hne))] at hres
  cases hres
  rcases controlWaitAnswer_spec (s.conns i) t.stateHash v.alloc v.wall hfd with ⟨-, heff⟩ | ⟨-, heff⟩
  · rw [heff]
    exact Or.inl ⟨t.stateHash, v.wall, hne, List.mem_singleton_self _⟩
  · rw [heff]
    exact Or.inr (List.mem_singleton_self _)

theorem fdsetConn_other {v : Visit} {j : ℕ} (hf : Fresh srv given T s) (hj : i ≠ j)
    (h : fdsetConn srv v j s = some (s', out)) : Fresh srv given T s' ∧ s'.conns i = s.conns i := by
  cases hfd : (s.conns j).fd with
  | none =>
    simp only [fdsetConn, hfd] at h
    cases h
    exact ⟨hf, rfl⟩
  | some m =>
    obtain ⟨hslot, -⟩ := fdsetConn_did hfd h
    exact ⟨hf.slot hslot, hslot.other i hj⟩

/-- The turn of a waiting connection comes. -/
theorem Fresh.sweep {visits : ℕ → Visit} (is : List ℕ) (hi : i ∈ is) (hf : Fresh srv given T s)
    (hfd : (s.conns i).fd = some n) (hw : (s.conns i).waiting = true) (hhash : (s.conns i).waitHash = given)
    (hv : T + HASH_NS ≤ (visits i).now)
    (h : sweep (fun i => Control.fdsetConn srv (visits i) i) is s = some (s', out)) : AnsweredOther given n out := by
  induction is generalizing s out with
  | nil => cases hi
  | cons j is ih =>
    obtain ⟨t, out₁, out₂, hone, hrest, rfl⟩ := sweep_cons h
    by_cases hij : i = j
    · cases hij
      have hanswer := hf.fdsetConn hfd hw hhash hv hone
      exact hanswer.imp (fun ⟨k, w, hk, hmem⟩ => ⟨k, w, hk, List.mem_append_left _ hmem⟩) (List.mem_append_left _)
    · obtain ⟨hf', hsame⟩ := fdsetConn_other hf hij hone
      have hi' : i ∈ is := (List.mem_cons.mp hi).resolve_left hij
      have hanswer := ih hi' hf' (hsame ▸ hfd) (hsame ▸ hw) (hsame ▸ hhash) hrest
      exact hanswer.imp (fun ⟨k, w, hk, hmem⟩ => ⟨k, w, hk, List.mem_append_right _ hmem⟩) (List.mem_append_right _)

theorem sweep_fresh {f : ℕ → Ctl σ → Option (Ctl σ × List Effect)}
    (hone : ∀ i s s' out, Fresh srv given T s → f i s = some (s', out) → Fresh srv given T s') (is : List ℕ)
    (hf : Fresh srv given T s) (h : Control.sweep f is s = some (s', out)) : Fresh srv given T s' := by
  induction is generalizing s out with
  | nil =>
    cases h
    exact hf
  | cons i is ih =>
    obtain ⟨t, out₁, out₂, hfirst, hrest, rfl⟩ := sweep_cons h
    exact ih (hone i s t out₁ hf hfirst) hrest

theorem acceptConn_fresh {ok : Bool} {since : ℤ} (hf : Fresh srv given T s) :
    Fresh srv given T (acceptConn ok since s) := by
  unfold acceptConn
  split
  · split
    · exact ⟨hf.differs, hf.cache⟩
    · exact hf
  · exact hf

theorem accepts_fresh (accepts : List (Bool × ℤ)) (hf : Fresh srv given T s) :
    Fresh srv given T (accepts.foldl (fun s a => acceptConn a.1 a.2 s) s) := by
  induction accepts generalizing s with
  | nil => exact hf
  | cons a accepts ih => exact ih (acceptConn_fresh hf)

theorem Fresh.step {e : Event σ} (hf : Fresh srv given T s) (h : Control.step srv s e = some (s', out))
    (hdiffers : srv.serverStateHash s'.server ≠ given) : Fresh srv given T s' := by
  cases e with
  | change server =>
    cases h
    exact ⟨hdiffers, hf.cache⟩
  | pass visits =>
    simp only [Control.step, controlFdset] at h
    split at h
    · refine sweep_fresh (fun i s s' out hf h => ?_) _ hf h
      cases hfd : (s.conns i).fd with
      | none =>
        simp only [Control.fdsetConn, hfd] at h
        cases h
        exact hf
      | some n => exact hf.slot (fdsetConn_did hfd h).1
    · cases h
      exact hf
  | handle accepts ios =>
    simp only [Control.step, controlHandle] at h
    split at h
    · refine sweep_fresh (fun i s s' out hf h => ?_) _ (accepts_fresh accepts hf) h
      cases hfd : (s.conns i).fd with
      | none =>
        simp only [handleConn, hfd] at h
        cases h
        exact hf
      | some n => exact hf.slot (handleConn_did hfd h).1
    · cases h
      exact hf
  | reopen listening =>
    cases h
    exact ⟨hf.differs, hf.cache⟩

/-- From some moment on the fingerprint is another one than that given: the steps and the last state. -/
def DiffersFrom (srv : Server σ) (given : UInt64) (s : Ctl σ) (es : List (Event σ)) (s' : Ctl σ) : Prop :=
  (controlMachine srv).Steps (fun s _ => srv.serverStateHash s.server ≠ given) s es s' ∧
    srv.serverStateHash s'.server ≠ given

theorem Fresh.steps {es : List (Event σ)} (hf : Fresh srv given T s) (hrun : DiffersFrom srv given s es s') :
    Fresh srv given T s' := by
  obtain ⟨hsteps, hlast⟩ := hrun
  induction hsteps with
  | nil s => exact hf
  | @cons s u v e es hstep hc hrest ih =>
    change (Control.step srv s e).map Prod.fst = some u at hstep
    obtain ⟨⟨u', out⟩, hout, rfl⟩ := Option.map_eq_some_iff.mp hstep
    refine ih (hf.step hout ?_) hlast
    cases hrest with
    | nil _ => exact hlast
    | cons _ hc _ => exact hc

/-! ## The commands that come in -/

/-- The places of `accepts` are given out. -/
def acceptAll (accepts : List (Bool × ℤ)) (s : Ctl σ) : Ctl σ := accepts.foldl (fun s a => acceptConn a.1 a.2 s) s

/-- What is read ends the line of an open connection, and the line is a well-formed `WAIT`. -/
def WaitComesIn (c : ControlConn) (io : Io) (given : Option UInt64) (secs : ℕ) : Prop :=
  Open c ∧ ∃ b cmd, io.recv = some (.bytes b) ∧ b.take (CONTROL_CMD_MAX - 1 - c.cmd.length) ≠ [] ∧
    cmd = c.cmd ++ b.take (CONTROL_CMD_MAX - 1 - c.cmd.length) ∧ (10 ∈ cmd ∨ CONTROL_CMD_MAX - 1 ≤ cmd.length) ∧
    ascii "WAIT " <+: commandLine cmd ∧ waitArgs (commandLine cmd) = some (given, secs)

/-- The connection waits for another fingerprint than `given`. -/
structure Waits (c : ControlConn) (n : ℕ) (given : UInt64) (til : ℤ) : Prop where
  fd : c.fd = some n
  waiting : c.waiting = true
  hash : c.waitHash = given
  til : c.waitUntil = til

section Receipt

variable {current : UInt64} {given : Option UInt64} {secs m : ℕ} {wall til : ℤ} {io : Io}

theorem controlWaitStart_arrived {given' : Option UInt64} {secs' : ℕ}
    (h : controlWaitStart srv io i n given' secs' s = some (s', out)) :
    .arrived m current given secs wall ∈ out ↔
      m = n ∧ (given' = given ∧ secs' = secs) ∧ current = srv.serverStateHash s.server ∧ wall = io.wall := by
  unfold controlWaitStart at h
  obtain ⟨t, ht, hres⟩ := Option.map_eq_some_iff.mp h
  obtain ⟨-, -, hhash⟩ := controlStateHashNow_spec (i := i) ht
  have hanswer : ∀ (c : ControlConn), Effect.arrived m current given secs wall ≠
      (controlWaitAnswer c n t.stateHash io.alloc io.wall).2 := by
    intro c
    unfold controlWaitAnswer
    cases io.alloc <;> exact fun heq => by cases heq
  have hcame : Effect.arrived m current given secs wall = .arrived n t.stateHash given' secs' io.wall ↔
      m = n ∧ (given' = given ∧ secs' = secs) ∧ current = srv.serverStateHash s.server ∧ wall = io.wall := by
    rw [hhash, Effect.arrived.injEq]
    grind
  rw [← hcame]
  cases given' with
  | none =>
    cases hres
    simp [hanswer]
  | some given' =>
    dsimp only at hres
    split at hres
    · cases hres
      simp [hanswer]
    · cases hres
      simp

theorem controlAnswer_arrived {cmd : CStr} (hcmd : (s.conns i).cmd = cmd)
    (h : controlAnswer srv io i n s = some (s', out)) :
    .arrived m current given secs wall ∈ out ↔
      m = n ∧ (ascii "WAIT " <+: commandLine cmd ∧ waitArgs (commandLine cmd) = some (given, secs)) ∧
        current = srv.serverStateHash s.server ∧ wall = io.wall := by
  unfold controlAnswer at h
  rw [hcmd] at h
  dsimp only at h
  split at h
  · rename_i hwait
    cases hargs : waitArgs (commandLine cmd) with
    | none =>
      rw [hargs] at h
      cases h
      simp
    | some args =>
      obtain ⟨given', secs'⟩ := args
      rw [hargs] at h
      rw [controlWaitStart_arrived h]
      simp [hwait]
  · rename_i hwait
    cases h
    simp [hwait]

/-- **A WAIT that comes in is noted**, with the fingerprint of the state, and nothing else is noted as one. -/
theorem handleConn_arrived (hfd : (s.conns i).fd = some n) (h : handleConn srv io i s = some (s', out)) :
    .arrived m current given secs wall ∈ out ↔
      m = n ∧ WaitComesIn (s.conns i) io given secs ∧ current = srv.serverStateHash s.server ∧ wall = io.wall := by
  have hquiet : out = [] → (∀ b, io.recv ≠ some (.bytes b)) ∨ ¬ Open (s.conns i) →
      (.arrived m current given secs wall ∈ out ↔
        m = n ∧ WaitComesIn (s.conns i) io given secs ∧ current = srv.serverStateHash s.server ∧ wall = io.wall) := by
    rintro rfl hno
    refine ⟨fun hmem => absurd hmem List.not_mem_nil, ?_⟩
    rintro ⟨-, ⟨hopen, b, -, hrecv, -⟩, -⟩
    exact hno.elim (fun hno => absurd hrecv (hno b)) fun hno => absurd hopen hno
  simp only [handleConn, hfd] at h
  cases hr : io.recv with
  | none =>
    rw [hr] at h
    cases h
    exact hquiet rfl (Or.inl (by simp [hr]))
  | some r =>
    rw [hr] at h
    dsimp only at h
    split at h
    · rename_i hw
      cases h
      exact hquiet rfl (Or.inr fun hopen => by rw [hopen.1] at hw; cases hw)
    · rename_i hw
      split at h
      · rename_i hout
        have hopen : Open (s.conns i) := ⟨Bool.not_eq_true _ ▸ hw, hout⟩
        cases r with
        | again =>
          cases h
          exact hquiet rfl (Or.inl (by simp [hr]))
        | gone =>
          cases h
          exact hquiet rfl (Or.inl (by simp [hr]))
        | bytes b =>
          unfold readCommand at h
          dsimp only at h
          have hiff : WaitComesIn (s.conns i) io given secs ↔
              b.take (CONTROL_CMD_MAX - 1 - (s.conns i).cmd.length) ≠ [] ∧
                let cmd := (s.conns i).cmd ++ b.take (CONTROL_CMD_MAX - 1 - (s.conns i).cmd.length)
                (10 ∈ cmd ∨ CONTROL_CMD_MAX - 1 ≤ cmd.length) ∧ ascii "WAIT " <+: commandLine cmd ∧
                  waitArgs (commandLine cmd) = some (given, secs) := by
            unfold WaitComesIn
            rw [hr]
            simp [hopen]
          rw [hiff]
          generalize b.take (CONTROL_CMD_MAX - 1 - (s.conns i).cmd.length) = b at h ⊢
          split at h
          · rename_i hnil
            cases h
            simp [hnil]
          · rename_i hsome
            generalize hcmd : (s.conns i).cmd ++ b = cmd at h ⊢
            split at h
            · rename_i hend
              have hconn : ((s.setConn i { s.conns i with cmd := cmd }).conns i).cmd = cmd := by rw [setConn_self]
              rw [controlAnswer_arrived hconn h]
              simp only [ne_eq, hsome, not_false_eq_true, true_and, hend]
              exact Iff.rfl
            · rename_i hend
              cases h
              simp only [List.not_mem_nil, hend, false_and, and_false]
      · rename_i hout
        cases h
        exact hquiet rfl (Or.inr fun hopen => hout hopen.2)

end Receipt

/-- Each connection has one turn in a loop, in which it is as before the loop and the state of the clients too. -/
theorem sweep_turns {f : ℕ → Ctl σ → Option (Ctl σ × List Effect)}
    (hf : ∀ i s s' out, f i s = some (s', out) → s'.server = s.server ∧ ∀ j, j ≠ i → s'.conns j = s.conns j)
    {is : List ℕ} (hnodup : is.Nodup) (h : sweep f is s = some (s', out)) :
    (∀ j ∉ is, s'.conns j = s.conns j) ∧ ∃ o : ℕ → List Effect, out = is.flatMap o ∧ ∀ i ∈ is, ∃ t t',
      t.server = s.server ∧ t.conns i = s.conns i ∧ f i t = some (t', o i) ∧ s'.conns i = t'.conns i := by
  induction is generalizing s out with
  | nil =>
    cases h
    exact ⟨fun _ _ => rfl, fun _ => [], rfl, fun _ hi => absurd hi List.not_mem_nil⟩
  | cons i is ih =>
    obtain ⟨hi, hnodup⟩ := List.nodup_cons.mp hnodup
    obtain ⟨t, out₁, out₂, hone, hrest, rfl⟩ := sweep_cons h
    obtain ⟨hserver, hother⟩ := hf i s t out₁ hone
    obtain ⟨hout, o, rfl, hturns⟩ := ih hnodup hrest
    refine ⟨fun j hj => ?_, fun j => if j = i then out₁ else o j, ?_, fun j hj => ?_⟩
    · rw [List.mem_cons, not_or] at hj
      exact (hout j hj.2).trans (hother j hj.1)
    · rw [List.flatMap_cons, if_pos rfl]
      refine congrArg _ (List.flatMap_congr fun j hj => ?_)
      rw [if_neg (by rintro rfl; exact hi hj)]
    · by_cases hji : j = i
      · rw [hji]
        dsimp only
        rw [if_pos rfl]
        exact ⟨s, t, rfl, rfl, hone, hout i hi⟩
      · obtain ⟨u, u', huserver, huconn, hstep, hlast⟩ := hturns j ((List.mem_cons.mp hj).resolve_left hji)
        dsimp only
        rw [if_neg hji]
        exact ⟨u, u', huserver.trans hserver, huconn.trans (hother j hji), hstep, hlast⟩

theorem handleConn_others {io : Io} (h : handleConn srv io i s = some (s', out)) :
    s'.server = s.server ∧ ∀ j, j ≠ i → s'.conns j = s.conns j := by
  cases hfd : (s.conns i).fd with
  | none =>
    simp only [handleConn, hfd] at h
    cases h
    exact ⟨rfl, fun _ _ => rfl⟩
  | some n =>
    obtain ⟨hslot, -⟩ := handleConn_did hfd h
    exact ⟨hslot.server, hslot.other⟩

theorem fdsetConn_others {v : Visit} (h : fdsetConn srv v i s = some (s', out)) :
    s'.server = s.server ∧ ∀ j, j ≠ i → s'.conns j = s.conns j := by
  cases hfd : (s.conns i).fd with
  | none =>
    simp only [fdsetConn, hfd] at h
    cases h
    exact ⟨rfl, fun _ _ => rfl⟩
  | some n =>
    obtain ⟨hslot, -⟩ := fdsetConn_did hfd h
    exact ⟨hslot.server, hslot.other⟩

theorem acceptConn_server (ok : Bool) (since : ℤ) (s : Ctl σ) :
    (acceptConn ok since s).server = s.server ∧ (acceptConn ok since s).listening = s.listening ∧
      ∀ i, (s.conns i).fd ≠ none → (acceptConn ok since s).conns i = s.conns i := by
  unfold acceptConn
  split
  · rename_i i hfind
    have hfree : (s.conns i).fd = none := by simpa using List.find?_some hfind
    split
    · refine ⟨rfl, rfl, fun j hj => setConn_other s ?_ _⟩
      rintro rfl
      exact hj hfree
    · exact ⟨rfl, rfl, fun _ _ => rfl⟩
  · exact ⟨rfl, rfl, fun _ _ => rfl⟩

theorem acceptAll_server (accepts : List (Bool × ℤ)) (s : Ctl σ) :
    (acceptAll accepts s).server = s.server ∧ ∀ i, (s.conns i).fd ≠ none → (acceptAll accepts s).conns i = s.conns i := by
  induction accepts generalizing s with
  | nil => exact ⟨rfl, fun _ _ => rfl⟩
  | cons a accepts ih =>
    obtain ⟨hserver, -, hconn⟩ := acceptConn_server a.1 a.2 s
    obtain ⟨hserver', hconn'⟩ := ih (acceptConn a.1 a.2 s)
    refine ⟨hserver'.trans hserver, fun i hi => ?_⟩
    exact (hconn' i (by rw [hconn i hi]; exact hi)).trans (hconn i hi)

theorem ConnDid.sends {k : UInt64} {w : ℤ} {m : ℕ} (hd : ConnDid h current n c c' out) (hmem : .answered m k w ∈ out) :
    c'.fd = some m ∧ c'.out = some (waitText k ++ CONTROL_END) := by
  cases hd with
  | quiet _ hq => cases hmem
  | answered _ wall hw hwhy hdone =>
    cases List.mem_singleton.mp hmem
    exact ⟨hdone.1, hdone.2.2⟩
  | lost hw => simp at hmem
  | cameAnswered _ given secs wall hopen hwhy hdone =>
    have heq : m = n ∧ k = current ∧ w = wall := by simpa using hmem
    obtain ⟨rfl, rfl, rfl⟩ := heq
    exact ⟨hdone.1, hdone.2.2⟩
  | cameLost given secs wall hopen hwhy => simp at hmem
  | cameWaits _ given secs wall hopen => simp at hmem

/-- The other side of the connection goes away, or a reload closes all. -/
def GoesAway (i : ℕ) : Event σ → Prop
  | .handle _ ios => (ios i).recv = some .gone ∨ (ios i).recv = some (.bytes [])
  | .reopen _ => True
  | _ => False

section Waiting

variable {given : UInt64} {til : ℤ}

theorem handleConn_waits {io : Io} (hw : Waits (s.conns i) n given til) (hout : (s.conns i).out = none)
    (hstay : ¬ (io.recv = some .gone ∨ io.recv = some (.bytes []))) (h : handleConn srv io i s = some (s', out)) :
    Waits (s'.conns i) n given til := by
  simp only [handleConn, hw.fd, hw.waiting, if_true] at h
  cases hr : io.recv with
  | none =>
    rw [hr] at h
    cases h
    unfold sendReady
    rw [hout]
    exact hw
  | some r =>
    rw [hr] at h
    cases h
    cases r with
    | again => exact hw
    | gone => exact absurd (Or.inl hr) hstay
    | bytes b =>
      have hsome : b ≠ [] := by
        rintro rfl
        exact hstay (Or.inr hr)
      unfold waitRecv
      dsimp only
      rw [if_neg hsome]
      exact hw

theorem fdsetConn_waits {v : Visit} (hw : Waits (s.conns i) n given til) (h : fdsetConn srv v i s = some (s', out)) :
    Waits (s'.conns i) n given til ∨ (∃ k w, .answered n k w ∈ out) ∨ .lost n ∈ out := by
  simp only [fdsetConn, hw.fd, hw.waiting, if_true] at h
  obtain ⟨t, ht, hres⟩ := Option.map_eq_some_iff.mp h
  obtain ⟨-, hconns⟩ := controlStateHash_spec (i := i) ht
  rw [hconns] at hres
  split at hres
  · cases hres
    rcases controlWaitAnswer_spec (s.conns i) t.stateHash v.alloc v.wall hw.fd with ⟨-, heff⟩ | ⟨-, heff⟩
    · rw [heff]
      exact Or.inr (Or.inl ⟨_, _, List.mem_singleton_self _⟩)
    · rw [heff]
      exact Or.inr (Or.inr (List.mem_singleton_self _))
  · cases hres
    rw [hconns]
    exact Or.inl hw

/-- A `WAIT` that is not answered at once leaves its connection waiting. -/
theorem handleConn_begins {io : Io} {current : UInt64} {first : Option UInt64} {secs : ℕ} {wall : ℤ}
    (hfd : (s.conns i).fd = some n) (h : handleConn srv io i s = some (s', out))
    (hcame : .arrived n current first secs wall ∈ out) (hlater : ¬ AtOnce first secs current) :
    ∃ g, first = some g ∧ Waits (s'.conns i) n g (wall + secs) := by
  obtain ⟨-, hdid⟩ := handleConn_did hfd h
  generalize s'.conns i = c' at hdid ⊢
  cases hdid with
  | quiet _ hq => cases hcame
  | answered _ wall' hw => simp at hcame
  | lost hw => simp at hcame
  | cameAnswered _ given' secs' wall' hopen hwhy =>
    have heq : current = srv.serverStateHash s.server ∧ first = given' ∧ secs = secs' ∧ wall = wall' := by simpa using hcame
    obtain ⟨rfl, rfl, rfl, rfl⟩ := heq
    exact absurd hwhy hlater
  | cameLost given' secs' wall' hopen hwhy =>
    have heq : current = srv.serverStateHash s.server ∧ first = given' ∧ secs = secs' ∧ wall = wall' := by simpa using hcame
    obtain ⟨rfl, rfl, rfl, rfl⟩ := heq
    exact absurd hwhy hlater
  | cameWaits _ given' secs' wall' hopen hwhy hh hfd' hw hout hhash huntil =>
    have heq : current = srv.serverStateHash s.server ∧ first = some given' ∧ secs = secs' ∧ wall = wall' := by simpa using hcame
    obtain ⟨-, rfl, rfl, rfl⟩ := heq
    exact ⟨given', rfl, hfd', hw, hhash, huntil⟩

/-- **A waiting connection goes on waiting** until its answer is out, there is no memory for that, or the other side
is gone. -/
theorem step_waits {e : Event σ} (hk : Kept srv s log) (hw : Waits (s.conns i) n given til)
    (h : step srv s e = some (s', out)) :
    Waits (s'.conns i) n given til ∨ (∃ k w, .answered n k w ∈ out) ∨ .lost n ∈ out ∨ GoesAway i e := by
  have hrange : i ∈ List.range CONTROL_CONNS := List.mem_range.mpr (hk.range i n hw.fd)
  cases e with
  | change server =>
    cases h
    exact Or.inl hw
  | reopen listening => exact Or.inr (Or.inr (Or.inr trivial))
  | pass visits =>
    simp only [Control.step, controlFdset] at h
    split at h
    · obtain ⟨-, o, rfl, hturns⟩ := sweep_turns (fun _ _ _ _ => fdsetConn_others) List.nodup_range h
      obtain ⟨t, t', -, hconn, hturn, hlast⟩ := hturns i hrange
      rw [hlast]
      rw [← hconn] at hw
      rcases fdsetConn_waits hw hturn with hw | ⟨k, w, hmem⟩ | hmem
      · exact Or.inl hw
      · exact Or.inr (Or.inl ⟨k, w, List.mem_flatMap.mpr ⟨i, hrange, hmem⟩⟩)
      · exact Or.inr (Or.inr (Or.inl (List.mem_flatMap.mpr ⟨i, hrange, hmem⟩)))
    · cases h
      exact Or.inl hw
  | handle accepts ios =>
    simp only [Control.step, controlHandle] at h
    split at h
    · obtain ⟨-, o, rfl, hturns⟩ := sweep_turns (fun _ _ _ _ => handleConn_others) List.nodup_range h
      obtain ⟨t, t', -, hconn, hturn, hlast⟩ := hturns i hrange
      have hkept : t.conns i = s.conns i :=
        hconn.trans ((acceptAll_server accepts s).2 i (by rw [hw.fd]; exact Option.some_ne_none n))
      by_cases hgone : (ios i).recv = some .gone ∨ (ios i).recv = some (.bytes [])
      · exact Or.inr (Or.inr (Or.inr hgone))
      · obtain ⟨_, _, _, _, -, hout, -⟩ := (hk.conn i).waits hw.waiting
        rw [hlast]
        rw [← hkept] at hw hout
        exact Or.inl (handleConn_waits hw hout hgone hturn)
    · cases h
      exact Or.inl hw

end Waiting

/-- What a pass over the connections takes in: the `WAIT`s noted are those that came in, with the fingerprint that the
state has; one that is not answered at once waits. -/
structure Received (srv : Server σ) (accepts : List (Bool × ℤ)) (ios : ℕ → Io) (s s' : Ctl σ) (out : List Effect) :
    Prop where
  came : ∀ n current given secs wall, .arrived n current given secs wall ∈ out ↔
    s.listening = true ∧ ∃ i < CONTROL_CONNS, ((acceptAll accepts s).conns i).fd = some n ∧
      WaitComesIn ((acceptAll accepts s).conns i) (ios i) given secs ∧
        current = srv.serverStateHash s.server ∧ wall = (ios i).wall
  waits : ∀ n current given secs wall, .arrived n current given secs wall ∈ out → ¬ AtOnce given secs current →
    ∃ i g, given = some g ∧ Waits (s'.conns i) n g (wall + secs)

theorem handleConn_came {io : Io} {current : UInt64} {given : Option UInt64} {secs m : ℕ} {wall : ℤ}
    (h : handleConn srv io i s = some (s', out)) :
    .arrived m current given secs wall ∈ out ↔ (s.conns i).fd = some m ∧ WaitComesIn (s.conns i) io given secs ∧
      current = srv.serverStateHash s.server ∧ wall = io.wall := by
  cases hfd : (s.conns i).fd with
  | none =>
    simp only [handleConn, hfd] at h
    cases h
    simp
  | some n =>
    rw [handleConn_arrived hfd h, Option.some.injEq]
    exact and_congr_left' eq_comm

theorem controlHandle_received {accepts : List (Bool × ℤ)} {ios : ℕ → Io}
    (h : controlHandle srv accepts ios s = some (s', out)) : Received srv accepts ios s s' out := by
  unfold controlHandle at h
  split at h
  · rename_i hon
    have hsweep : sweep (fun i => handleConn srv (ios i) i) (List.range CONTROL_CONNS) (acceptAll accepts s) =
      some (s', out) := h
    obtain ⟨-, o, rfl, hturns⟩ := sweep_turns (fun _ _ _ _ => handleConn_others) List.nodup_range hsweep
    have hserver : (acceptAll accepts s).server = s.server := (acceptAll_server accepts s).1
    refine ⟨fun n current given secs wall => ?_, fun n current given secs wall hmem hlater => ?_⟩
    · rw [List.mem_flatMap, and_iff_right hon]
      refine exists_congr fun i => ?_
      rw [List.mem_range]
      refine and_congr_right fun hi => ?_
      obtain ⟨t, t', htserver, hconn, hturn, -⟩ := hturns i (List.mem_range.mpr hi)
      rw [handleConn_came hturn, htserver, hserver, hconn]
    · obtain ⟨i, hi, hmem⟩ := List.mem_flatMap.mp hmem
      obtain ⟨t, t', -, -, hturn, hlast⟩ := hturns i hi
      have hfd := (handleConn_came hturn).mp hmem
      obtain ⟨g, hg, hwaits⟩ := handleConn_begins hfd.1 hturn hmem hlater
      exact ⟨i, g, hg, hlast ▸ hwaits⟩
  · rename_i hoff
    cases h
    exact ⟨fun _ _ _ _ _ => ⟨fun hmem => absurd hmem List.not_mem_nil, fun h => absurd h.1 hoff⟩,
      fun _ _ _ _ _ hmem => absurd hmem List.not_mem_nil⟩

/-- There is no memory for an answer. -/
def NoMemory : Event σ → Prop
  | .pass visits => ∃ i, (visits i).alloc = false
  | .handle _ ios => ∃ i, (ios i).alloc = false
  | _ => False

theorem controlWaitAnswer_lost {c : ControlConn} {h : UInt64} {alloc : Bool} {wall : ℤ} {m : ℕ}
    (hlost : .lost m = (controlWaitAnswer c n h alloc wall).2) : alloc = false := by
  cases alloc with
  | true => cases hlost
  | false => rfl

theorem controlWaitStart_lost {io : Io} {given : Option UInt64} {secs m : ℕ}
    (h : controlWaitStart srv io i n given secs s = some (s', out)) (hlost : .lost m ∈ out) : io.alloc = false := by
  unfold controlWaitStart at h
  obtain ⟨t, -, hres⟩ := Option.map_eq_some_iff.mp h
  cases given with
  | none =>
    cases hres
    exact controlWaitAnswer_lost (by simpa using hlost)
  | some given =>
    dsimp only at hres
    split at hres
    · cases hres
      exact controlWaitAnswer_lost (by simpa using hlost)
    · cases hres
      simp at hlost

theorem controlAnswer_lost {io : Io} {m : ℕ} (h : controlAnswer srv io i n s = some (s', out)) (hlost : .lost m ∈ out) :
    io.alloc = false := by
  unfold controlAnswer at h
  dsimp only at h
  split at h
  · split at h
    · exact controlWaitStart_lost h hlost
    · cases h
      cases hlost
  · cases h
    cases hlost

theorem handleConn_lost {io : Io} {m : ℕ} (h : handleConn srv io i s = some (s', out)) (hlost : .lost m ∈ out) :
    io.alloc = false := by
  unfold handleConn at h
  split at h
  · cases h
    cases hlost
  · cases h
    cases hlost
  · rename_i n r _ _
    split at h
    · cases h
      cases hlost
    · split at h
      · cases r with
        | again | gone =>
          cases h
          cases hlost
        | bytes b =>
          unfold readCommand at h
          dsimp only at h
          split at h
          · cases h
            cases hlost
          · split at h
            · exact controlAnswer_lost h hlost
            · cases h
              cases hlost
      · cases h
        cases hlost

theorem fdsetConn_lost {v : Visit} {m : ℕ} (h : fdsetConn srv v i s = some (s', out)) (hlost : .lost m ∈ out) :
    v.alloc = false := by
  unfold fdsetConn at h
  split at h
  · cases h
    cases hlost
  · split at h
    · obtain ⟨t, -, hres⟩ := Option.map_eq_some_iff.mp h
      split at hres
      · cases hres
        exact controlWaitAnswer_lost (List.mem_singleton.mp hlost)
      · cases hres
        cases hlost
    · split at h
      all_goals
        cases h
        cases hlost

/-- No change is noted, an answer that is noted is what connection `i` has to send, and none is lost that there is memory
for. -/
structure TurnNotes (alloc : Bool) (i : ℕ) (s' : Ctl σ) (out : List Effect) : Prop where
  changed : ∀ k, .changed k ∉ out
  lost : ∀ n, .lost n ∈ out → alloc = false
  answered : ∀ n k w, .answered n k w ∈ out →
    (s'.conns i).fd = some n ∧ (s'.conns i).out = some (waitText k ++ CONTROL_END)

theorem ConnDid.changed {k : UInt64} (hd : ConnDid h current n c c' out) : .changed k ∉ out := by
  cases hd <;> simp

theorem TurnNotes.nil {alloc : Bool} : TurnNotes alloc i s' [] :=
  ⟨fun _ => List.not_mem_nil, fun _ hmem => absurd hmem List.not_mem_nil, fun _ _ _ hmem => absurd hmem List.not_mem_nil⟩

theorem handleConn_notes {io : Io} (h : handleConn srv io i s = some (s', out)) : TurnNotes io.alloc i s' out := by
  cases hfd : (s.conns i).fd with
  | none =>
    simp only [handleConn, hfd] at h
    cases h
    exact .nil
  | some n =>
    obtain ⟨-, hdid⟩ := handleConn_did hfd h
    exact ⟨fun _ => hdid.changed, fun _ => handleConn_lost h, fun _ _ _ hmem => hdid.sends hmem⟩

theorem fdsetConn_notes {v : Visit} (h : fdsetConn srv v i s = some (s', out)) : TurnNotes v.alloc i s' out := by
  cases hfd : (s.conns i).fd with
  | none =>
    simp only [fdsetConn, hfd] at h
    cases h
    exact .nil
  | some n =>
    obtain ⟨-, hdid⟩ := fdsetConn_did hfd h
    exact ⟨fun _ => hdid.changed, fun _ => fdsetConn_lost h, fun _ _ _ hmem => hdid.sends hmem⟩

theorem sweep_notes {f : ℕ → Ctl σ → Option (Ctl σ × List Effect)} {alloc : ℕ → Bool} {is : List ℕ}
    (h : sweep f is s = some (s', out)) (hnodup : is.Nodup)
    (hf : ∀ i s s' out, f i s = some (s', out) → s'.server = s.server ∧ ∀ j, j ≠ i → s'.conns j = s.conns j)
    (hnotes : ∀ i s s' out, f i s = some (s', out) → TurnNotes (alloc i) i s' out) :
    (∀ k, .changed k ∉ out) ∧ (∀ n, .lost n ∈ out → ∃ i, alloc i = false) ∧
      ∀ n k w, .answered n k w ∈ out →
        ∃ i, (s'.conns i).fd = some n ∧ (s'.conns i).out = some (waitText k ++ CONTROL_END) := by
  obtain ⟨-, o, rfl, hturns⟩ := sweep_turns hf hnodup h
  have hturn : ∀ e, e ∈ is.flatMap o → ∃ (i : ℕ) (t : Ctl σ),
      TurnNotes (alloc i) i t (o i) ∧ e ∈ o i ∧ s'.conns i = t.conns i := by
    intro e hmem
    obtain ⟨i, hi, hmem⟩ := List.mem_flatMap.mp hmem
    obtain ⟨t, t', -, -, hturn, hlast⟩ := hturns i hi
    exact ⟨i, t', hnotes i t t' _ hturn, hmem, hlast⟩
  refine ⟨fun k hmem => ?_, fun n hmem => ?_, fun n k w hmem => ?_⟩
  · obtain ⟨i, t, hnoted, hmem, -⟩ := hturn _ hmem
    exact hnoted.changed k hmem
  · obtain ⟨i, t, hnoted, hmem, -⟩ := hturn _ hmem
    exact ⟨i, hnoted.lost n hmem⟩
  · obtain ⟨i, t, hnoted, hmem, hlast⟩ := hturn _ hmem
    refine ⟨i, ?_⟩
    rw [hlast]
    exact hnoted.answered n k w hmem

/-- What the notes of a step say: a change is one of the state, an answer is what its connection has to send, and an
answer is lost only for want of memory. -/
structure StepNotes (srv : Server σ) (e : Event σ) (s' : Ctl σ) (out : List Effect) : Prop where
  changed : ∀ k, .changed k ∈ out ↔ ∃ server, e = .change server ∧ k = srv.serverStateHash server
  lost : ∀ n, .lost n ∈ out → NoMemory e
  answered : ∀ n k w, .answered n k w ∈ out →
    ∃ i, (s'.conns i).fd = some n ∧ (s'.conns i).out = some (waitText k ++ CONTROL_END)

theorem StepNotes.quiet {e : Event σ} (he : ∀ server, e ≠ .change server) : StepNotes srv e s' [] :=
  ⟨fun _ => ⟨fun hmem => absurd hmem List.not_mem_nil, fun ⟨server, heq, _⟩ => absurd heq (he server)⟩,
    fun _ hmem => absurd hmem List.not_mem_nil, fun _ _ _ hmem => absurd hmem List.not_mem_nil⟩

theorem step_notes {e : Event σ} (h : step srv s e = some (s', out)) : StepNotes srv e s' out := by
  cases e with
  | change server =>
    cases h
    exact ⟨fun k => by simp, fun n hmem => by simp at hmem, fun n k w hmem => by simp at hmem⟩
  | reopen listening =>
    cases h
    exact .quiet fun _ heq => by cases heq
  | pass visits =>
    simp only [Control.step, controlFdset] at h
    split at h
    · obtain ⟨hchanged, hlost, hanswered⟩ :=
        sweep_notes h List.nodup_range (fun _ _ _ _ => fdsetConn_others) fun _ _ _ _ => fdsetConn_notes
      exact ⟨fun k => ⟨fun hmem => absurd hmem (hchanged k), fun ⟨_, heq, _⟩ => by cases heq⟩, hlost, hanswered⟩
    · cases h
      exact .quiet fun _ heq => by cases heq
  | handle accepts ios =>
    simp only [Control.step, controlHandle] at h
    split at h
    · obtain ⟨hchanged, hlost, hanswered⟩ :=
        sweep_notes h List.nodup_range (fun _ _ _ _ => handleConn_others) fun _ _ _ _ => handleConn_notes
      exact ⟨fun k => ⟨fun hmem => absurd hmem (hchanged k), fun ⟨_, heq, _⟩ => by cases heq⟩, hlost, hanswered⟩
    · cases h
      exact .quiet fun _ heq => by cases heq

/-! ## Any interleaving -/

/-- **The answers to WAIT, in any interleaving** of changes of the state, passes of the loop, connections, commands and
reloads. Each answer is right and none comes twice, and a `WAIT` whose answer is known gets it at once. The `WAIT`s
of the log are those that come in and the answers those that are sent, and only without memory is one lost; a connection
waits until its answer is out or its other side gone. And from 250 ms behind the moment from which the fingerprint is not
the one given, a pass answers. -/
theorem wait_right (srv : Server σ) (server : σ) {es : List (Event σ)}
    (hrun : (controlMachine srv).Steps (fun _ _ => True) (.start server) es s) :
    LogRight (effects srv (.start server) es) ∧
      (∀ accepts ios s' out, controlHandle srv accepts ios s = some (s', out) → Received srv accepts ios s s' out) ∧
      (∀ e s' out, step srv s e = some (s', out) →
        StepNotes srv e s' out ∧
          ∀ i n given til, Waits (s.conns i) n given til →
            Waits (s'.conns i) n given til ∨ (∃ k w, .answered n k w ∈ out) ∨ .lost n ∈ out ∨ GoesAway i e) ∧
      ∀ es' s' given visits u out, DiffersFrom srv given s es' s' →
        controlFdset srv visits s' = some (u, out) →
        ∀ i n, (s'.conns i).fd = some n → (s'.conns i).waiting = true → (s'.conns i).waitHash = given →
          s.now + HASH_NS ≤ (visits i).now → AnsweredOther given n out := by
  have hk := (@Kept.start σ srv server).steps hrun
  refine ⟨hk.log, fun _ _ _ _ h => controlHandle_received h,
    fun e s' out h => ⟨step_notes h, fun i n given til hw => step_waits hk hw h⟩,
    fun es' s' given visits u out hdiffers hpass i n hfd hw hhash hv => ?_⟩
  have hfresh : Fresh srv given s.now s := by
    refine ⟨?_, Or.inl hk.clock⟩
    cases hdiffers.1 with
    | nil _ => exact hdiffers.2
    | cons _ hc _ => exact hc
  have hk' := hk.steps hdiffers.1
  have hon : s'.listening = true := by
    cases hl : s'.listening with
    | true => rfl
    | false =>
      have hnone := hk'.off hl i
      rw [hfd] at hnone
      cases hnone
  unfold controlFdset at hpass
  rw [if_pos hon] at hpass
  exact (hfresh.steps hdiffers).sweep _ (List.mem_range.mpr (hk'.range i n hfd)) hfd hw hhash hv hpass

/-- A state that is its own fingerprint. -/
def demoServer : Server UInt64 := ⟨fun h => h, fun _ _ => none, fun _ _ => none, fun _ => none, fun _ => []⟩

def demoIo (t : ℕ) : Io := ⟨some (.bytes (ascii "WAIT 5 10\n")), none, t, 100, true⟩

def demoVisit (t : ℕ) : Visit := ⟨t, t, 101, 101, true⟩

/-- A connection waits for a change from the fingerprint 5, and the state changes. -/
def demoEvents : List (Event UInt64) :=
  [.reopen true, .handle [(true, 100)] fun _ => demoIo 1000, .pass fun _ => demoVisit 2000, .change 6]

/-- The state behind `demoEvents` waits for another fingerprint than 5, and a pass 250 ms later answers. -/
theorem wait_right_demo :
    ∃ s u out, (controlMachine demoServer).Steps (fun _ _ => True) (.start 5) demoEvents s ∧
      LogRight (effects demoServer (.start 5) demoEvents) ∧
      effects demoServer (.start 5) demoEvents = [.arrived 0 5 (some 5) 10 100, .changed 6] ∧
      controlFdset demoServer (fun _ => demoVisit 250002000) s = some (u, out) ∧ AnsweredOther 5 0 out ∧
      ∃ i, (u.conns i).fd = some 0 ∧ (u.conns i).out = some (waitText 6 ++ CONTROL_END) := by
  have hrun : ((controlMachine demoServer).runUnder (fun _ _ => True) (.start 5) demoEvents).any (fun s =>
      decide ((s.conns 0).fd = some 0) && (s.conns 0).waiting && decide ((s.conns 0).waitHash = 5) &&
        decide (s.now = 2000) && decide (s.server = 6) &&
        (controlFdset demoServer (fun _ => demoVisit 250002000) s).any fun r => decide (r.2 = [.answered 0 6 101])) =
          true := by decide +kernel
  obtain ⟨s, hs, hp⟩ := (Option.any_eq_true _ _).mp hrun
  simp only [Bool.and_eq_true, decide_eq_true_eq] at hp
  obtain ⟨⟨⟨⟨⟨hfd, hw⟩, hhash⟩, hnow⟩, hserver⟩, hpass⟩ := hp
  obtain ⟨⟨u, out⟩, hpass, hout⟩ := (Option.any_eq_true _ _).mp hpass
  have hsteps := Machine.runUnder_steps hs
  obtain ⟨hlog, -, hstep, hlate⟩ := wait_right demoServer 5 hsteps
  have hdiffers : DiffersFrom demoServer 5 s [] s := by
    refine ⟨.nil s, ?_⟩
    rw [hserver]
    decide
  refine ⟨s, u, out, hsteps, hlog, by decide +kernel, hpass, ?_, ?_⟩
  · refine hlate [] s 5 _ u out hdiffers hpass 0 0 hfd hw hhash ?_
    rw [hnow]
    decide
  · obtain ⟨hnotes, -⟩ := hstep (.pass fun _ => demoVisit 250002000) u out hpass
    refine hnotes.answered 0 6 101 ?_
    have hout : out = [.answered 0 6 101] := of_decide_eq_true hout
    rw [hout]
    exact List.mem_singleton_self _

end Camex.Control
