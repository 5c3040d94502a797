import Camex.KernelQueue
import Mathlib.Data.List.Count
import Mathlib.Data.List.Nodup

/-!
# The kernel module's queue, in any interleaving

* `Place`, `Placed`: each packet is in one place; what was done to it follows from the place;
* `Placed.move`, `Placed.flush`: a thread moves its packet, a release frees those of the queue;
* `QueueRight`: the count and the limit, the order, one free for each packet, and no packet older than the open;
* `queue_right`: it holds behind any steps.
-/

namespace Camex.Kernel

open Lib

/-- Where a packet is. -/
inductive Place
  | unsent
  | queued
  | dropping (t : ℕ)
  | held (t : ℕ)
  | freed (how : FreedBy)
  deriving DecidableEq

/-- How many reads took a packet that is there. -/
def Place.takes : Place → ℕ
  | .held _ => 1
  | .freed .read => 1
  | _ => 0

/-- How many times a packet that is there was transmitted. -/
def Place.transmits : Place → ℕ
  | .unsent => 0
  | _ => 1

/-- How many times a packet that is there was freed so. -/
def Place.frees (how : FreedBy) (a : Place) : ℕ := if a = .freed how then 1 else 0

def ids (l : List Skb) : List ℕ := l.map Skb.id

def Task.dropId : Task → Option ℕ
  | .dropping skb => some skb.id
  | _ => none

/-- The packet that a thread's read took. -/
def Task.heldId : Task → Option ℕ
  | .holding _ _ skb => some skb.id
  | _ => none

def Effect.takes (p : ℕ) : Effect → Bool
  | .taken _ q => q == p
  | _ => false

/-- How many reads took the packet. -/
def takesOf (p : ℕ) (log : List Effect) : ℕ := log.countP (Effect.takes p)

/-- **Each packet is in one place.** -/
structure Placed (s : Sys) (log : List Effect) (place : ℕ → Place) : Prop where
  queue : ∀ p, p ∈ ids s.priv.rxQueue ↔ place p = .queued
  nodup : (ids s.priv.rxQueue).Nodup
  drop : ∀ t p, (s.task t).dropId = some p ↔ place p = .dropping t
  held : ∀ t p, (s.task t).heldId = some p ↔ place p = .held t
  sent : ∀ p, s.sent ≤ p ↔ place p = .unsent
  transmitted : ∀ p, log.count (.transmitted p) = (place p).transmits
  taken : ∀ p, takesOf p log = (place p).takes
  freed : ∀ p how, log.count (.freed p how) = (place p).frees how

theorem Placed.start : Placed .start [] fun _ => .unsent where
  queue p := by simp [Sys.start, ids]
  nodup := List.nodup_nil
  drop t p := by simp [Sys.start, Task.dropId]
  held t p := by simp [Sys.start, Task.heldId]
  sent p := by simp [Sys.start]
  transmitted p := rfl
  taken p := rfl
  freed p how := rfl

variable {s s' : Sys} {log out : List Effect} {place : ℕ → Place} {t p : ℕ} {a b : Place}

theorem setTask_self (s : Sys) (t : ℕ) (k : Task) : (s.setTask t k).task t = k := Function.update_self ..

theorem setTask_other (s : Sys) {t u : ℕ} (h : u ≠ t) (k : Task) : (s.setTask t k).task u = s.task u :=
  Function.update_of_ne h ..

/-- What a thread does without a packet leaves the packets where they are. -/
theorem Placed.setTask (h : Placed s log place) {k : Task}
    (hold : (s.task t).dropId = none ∧ (s.task t).heldId = none) (hnew : k.dropId = none ∧ k.heldId = none) :
    Placed (s.setTask t k) log place := by
  refine { h with drop := fun u p => ?_, held := fun u p => ?_ }
  · rw [← h.drop u p]
    by_cases hu : u = t
    · rw [hu, setTask_self, hnew.1, hold.1]
    · rw [setTask_other s hu]
  · rw [← h.held u p]
    by_cases hu : u = t
    · rw [hu, setTask_self, hnew.2, hold.2]
    · rw [setTask_other s hu]

/-- A place that only thread `t` knows of. -/
def Place.Of (t : ℕ) (a : Place) : Prop := ∀ u, a = .dropping u ∨ a = .held u → u = t

/-- A step of thread `t` takes packet `p` from place `a` to place `b`. -/
structure Move (s s' : Sys) (out : List Effect) (t p : ℕ) (a b : Place) : Prop where
  queue : ∀ q, q ∈ ids s'.priv.rxQueue ↔ if q = p then b = .queued else q ∈ ids s.priv.rxQueue
  nodup : (ids s.priv.rxQueue).Nodup → (ids s'.priv.rxQueue).Nodup
  other : ∀ u, u ≠ t → s'.task u = s.task u
  before : ∀ q, (s.task t).dropId = some q ∨ (s.task t).heldId = some q → q = p
  drop : (s'.task t).dropId = if b = .dropping t then some p else none
  held : (s'.task t).heldId = if b = .held t then some p else none
  ofFrom : a.Of t
  ofTo : b.Of t
  sent : ∀ q, s'.sent ≤ q ↔ if q = p then b = .unsent else s.sent ≤ q
  transmitted : ∀ q, out.count (.transmitted q) + (if q = p then a.transmits else 0) = if q = p then b.transmits else 0
  taken : ∀ q, takesOf q out + (if q = p then a.takes else 0) = if q = p then b.takes else 0
  freed : ∀ q how, out.count (.freed q how) + (if q = p then a.frees how else 0) = if q = p then b.frees how else 0

theorem Placed.move (h : Placed s log place) (hm : Move s s' out t p a b) (ha : place p = a) :
    Placed s' (log ++ out) (Function.update place p b) := by
  have hself : Function.update place p b p = b := Function.update_self ..
  have hne : ∀ q, q ≠ p → Function.update place p b q = place q := fun q hq => Function.update_of_ne hq ..
  refine
    { queue := fun q => ?_
      nodup := hm.nodup h.nodup
      drop := fun u q => ?_
      held := fun u q => ?_
      sent := fun q => ?_
      transmitted := fun q => ?_
      taken := fun q => ?_
      freed := fun q how => ?_ }
  · rw [hm.queue]
    by_cases hq : q = p
    · rw [if_pos hq, hq, hself]
    · rw [if_neg hq, hne q hq, h.queue]
  · by_cases hu : u = t
    · subst hu
      rw [hm.drop]
      by_cases hq : q = p
      · rw [hq, hself]
        simp
      · rw [hne q hq, ← h.drop]
        constructor
        · intro hsome
          split at hsome
          · exact absurd (Option.some.inj hsome).symm hq
          · cases hsome
        · intro hsome
          exact absurd (hm.before q (Or.inl hsome)) hq
    · rw [hm.other u hu, h.drop]
      by_cases hq : q = p
      · rw [hq, hself, ha]
        exact ⟨fun hd => absurd (hm.ofFrom u (Or.inl hd)) hu, fun hd => absurd (hm.ofTo u (Or.inl hd)) hu⟩
      · rw [hne q hq]
  · by_cases hu : u = t
    · subst hu
      rw [hm.held]
      by_cases hq : q = p
      · rw [hq, hself]
        simp
      · rw [hne q hq, ← h.held]
        constructor
        · intro hsome
          split at hsome
          · exact absurd (Option.some.inj hsome).symm hq
          · cases hsome
        · intro hsome
          exact absurd (hm.before q (Or.inr hsome)) hq
    · rw [hm.other u hu, h.held]
      by_cases hq : q = p
      · rw [hq, hself, ha]
        exact ⟨fun hd => absurd (hm.ofFrom u (Or.inr hd)) hu, fun hd => absurd (hm.ofTo u (Or.inr hd)) hu⟩
      · rw [hne q hq]
  · rw [hm.sent]
    by_cases hq : q = p
    · rw [if_pos hq, hq, hself]
    · rw [if_neg hq, hne q hq, h.sent]
  · have hout := hm.transmitted q
    rw [List.count_append, h.transmitted]
    by_cases hq : q = p
    · rw [if_pos hq, if_pos hq] at hout
      rw [hq, hself, ha, ← hout, hq, Nat.add_comm]
    · rw [if_neg hq, if_neg hq] at hout
      rw [hne q hq]
      omega
  · have hout := hm.taken q
    unfold takesOf at hout ⊢
    rw [List.countP_append]
    rw [show log.countP (Effect.takes q) = takesOf q log from rfl, h.taken]
    by_cases hq : q = p
    · rw [if_pos hq, if_pos hq] at hout
      rw [hq, hself, ha, ← hout, hq, Nat.add_comm]
    · rw [if_neg hq, if_neg hq] at hout
      rw [hne q hq]
      omega
  · have hout := hm.freed q how
    rw [List.count_append, h.freed]
    by_cases hq : q = p
    · rw [if_pos hq, if_pos hq] at hout
      rw [hq, hself, ha, ← hout, hq, Nat.add_comm]
    · rw [if_neg hq, if_neg hq] at hout
      rw [hne q hq]
      omega

/-! ## What a step does -/

def Task.file : Task → Option ℕ
  | .reading file _ _ => some file
  | .ready file _ => some file
  | .holding file _ _ => some file
  | _ => none

/-- What a step does, for each of its outcomes. -/
inductive Did (s : Sys) : Sys → List Effect → Prop
  | refused (t len : ℕ) (htask : s.task t = .idle) :
    Did s (Sys.setTask { s with sent := s.sent + 1 } t (.dropping ⟨s.sent, len⟩)) [.transmitted s.sent]
  | queued (t len : ℕ) (htask : s.task t = .idle) (hat : s.priv.attached = true) (hroom : s.priv.rxCount < QUEUE_LIMIT) :
    Did s
      { s with
        sent := s.sent + 1
        priv := { s.priv with rxQueue := s.priv.rxQueue ++ [⟨s.sent, len⟩], rxCount := s.priv.rxCount + 1 } }
      [.transmitted s.sent, .queued s.sent]
  | dropped (t : ℕ) (skb : Skb) (htask : s.task t = .dropping skb) :
    Did s (s.setTask t .idle) [.freed skb.id .drop]
  | nothing : Did s s []
  | opened (hat : s.priv.attached = false) :
    Did s { s with priv := { s.priv with attached := true }, files := s.opens :: s.files, opens := s.opens + 1 }
      [.attached s.opens]
  | released (file : ℕ) (hfile : file ∈ s.files) :
    Did s { s with priv := ⟨[], 0, false⟩, files := s.files.erase file }
      (s.priv.rxQueue.map fun skb => .freed skb.id .flush)
  | moved (t : ℕ) (k : Task) (hold : (s.task t).dropId = none ∧ (s.task t).heldId = none)
    (hnew : k.dropId = none ∧ k.heldId = none)
    (hfile : ∀ f, k.file = some f → f ∈ s.files ∨ (s.task t).file = some f) : Did s (s.setTask t k) []
  | took (t file count : ℕ) (skb : Skb) (rest : List Skb) (htask : s.task t = .ready file count)
    (hqueue : s.priv.rxQueue = skb :: rest) :
    Did s
      (Sys.setTask { s with priv := { s.priv with rxQueue := rest, rxCount := s.priv.rxCount - 1 } } t
        (.holding file count skb))
      [.taken file skb.id]
  | finished (t file count : ℕ) (skb : Skb) (result : ReadResult) (htask : s.task t = .holding file count skb) :
    Did s (s.setTask t .idle) [.freed skb.id .read, .returned file skb.id result]

theorem camexNetXmit_did {len : ℕ} {alloc : Bool} (ht : s.task t = .idle)
    (h : camexNetXmit s t len alloc = (s', out)) : Did s s' out := by
  simp only [camexNetXmit] at h
  split at h
  · cases h
    exact .refused t len ht
  · rename_i hopen
    split at h
    · cases h
      exact .refused t len ht
    · cases h
      simp only [Bool.or_eq_true, Bool.not_eq_true', decide_eq_true_eq, not_or, Bool.not_eq_false] at hopen
      exact .queued t len ht hopen.1 (Int.not_le.mp hopen.2)

theorem camexChrOpen_did {capable : Bool} (h : camexChrOpen s capable = (s', out)) : Did s s' out := by
  unfold camexChrOpen at h
  split at h
  · cases h
    exact .nothing
  · split at h
    · cases h
      exact .nothing
    · rename_i hat
      cases h
      exact .opened (Bool.not_eq_true _ ▸ hat)

theorem readTest_did {file count : ℕ} {nonblock : Bool} (ht : s.task t = .reading file nonblock count)
    (h : readTest s t file nonblock count = some (s', out)) : Did s s' out := by
  have hold : (s.task t).dropId = none ∧ (s.task t).heldId = none := by
    rw [ht]
    exact ⟨rfl, rfl⟩
  unfold readTest at h
  split at h
  · split at h
    · cases h
      exact .moved t .idle hold ⟨rfl, rfl⟩ (by rintro f ⟨⟩)
    · cases h
  · cases h
    refine .moved t (.ready file count) hold ⟨rfl, rfl⟩ fun f hf => Or.inr ?_
    rw [ht]
    exact hf

theorem readTake_did {file count : ℕ} (ht : s.task t = .ready file count)
    (h : readTake s t file count = (s', out)) : Did s s' out := by
  unfold readTake at h
  split at h
  · cases h
    exact .moved t .idle (by rw [ht]; exact ⟨rfl, rfl⟩) ⟨rfl, rfl⟩ (by rintro f ⟨⟩)
  · rename_i skb rest hqueue
    cases h
    exact .took t file count skb rest ht hqueue

/-- **A step has one of these outcomes.** -/
theorem step_did {e : Event} (h : step s e = some (s', out)) : Did s s' out := by
  cases e with
  | xmit t len alloc =>
    simp only [step] at h
    split at h
    · rename_i ht
      exact camexNetXmit_did ht (Option.some.inj h)
    · cases h
  | drop t =>
    simp only [step] at h
    split at h
    · rename_i skb ht
      cases h
      exact .dropped t skb ht
    · cases h
  | «open» capable =>
    exact camexChrOpen_did (Option.some.inj h)
  | release file =>
    simp only [step] at h
    split at h
    · rename_i hfile
      cases h
      exact .released file hfile
    · cases h
  | read t file nonblock count =>
    simp only [step] at h
    split at h
    · rename_i hidle
      cases h
      refine .moved t _ (by rw [hidle.1]; exact ⟨rfl, rfl⟩) ⟨rfl, rfl⟩ fun f hf => Or.inl ?_
      cases hf
      exact hidle.2
    · cases h
  | test t =>
    simp only [step] at h
    split at h
    · rename_i ht
      exact readTest_did ht h
    · cases h
  | signal t =>
    simp only [step] at h
    split at h
    · rename_i ht
      cases h
      exact .moved t .idle (by rw [ht]; exact ⟨rfl, rfl⟩) ⟨rfl, rfl⟩ (by rintro f ⟨⟩)
    · cases h
  | take t =>
    simp only [step] at h
    split at h
    · rename_i ht
      exact readTake_did ht (Option.some.inj h)
    · cases h
  | finish t fault =>
    simp only [step] at h
    split at h
    · rename_i ht
      cases h
      exact .finished t _ _ _ _ ht
    · cases h

/-! ## Where a step puts the packets -/

theorem ids_append (l m : List Skb) : ids (l ++ m) = ids l ++ ids m := List.map_append

theorem Place.of_unsent : Place.unsent.Of t := by rintro u (⟨⟨⟩⟩ | ⟨⟨⟩⟩)

theorem Place.of_queued : Place.queued.Of t := by rintro u (⟨⟨⟩⟩ | ⟨⟨⟩⟩)

theorem Place.of_freed {how : FreedBy} : (Place.freed how).Of t := by rintro u (⟨⟨⟩⟩ | ⟨⟨⟩⟩)

theorem Place.of_dropping : (Place.dropping t).Of t := by
  rintro u (⟨⟨⟩⟩ | ⟨⟨⟩⟩)
  rfl

theorem Place.of_held : (Place.held t).Of t := by
  rintro u (⟨⟨⟩⟩ | ⟨⟨⟩⟩)
  rfl

/-- A packet that is not sent yet is not in the queue. -/
theorem Placed.unsent (h : Placed s log place) : place s.sent = .unsent := (h.sent s.sent).mp le_rfl

theorem Placed.not_queued (h : Placed s log place) : s.sent ∉ ids s.priv.rxQueue := by
  intro hin
  have hq := (h.queue _).mp hin
  rw [h.unsent] at hq
  cases hq

theorem Placed.refused (h : Placed s log place) {len : ℕ} (ht : s.task t = .idle) :
    Move s (Sys.setTask { s with sent := s.sent + 1 } t (.dropping ⟨s.sent, len⟩)) [.transmitted s.sent] t s.sent
      .unsent (.dropping t) where
  queue q := by
    by_cases hq : q = s.sent
    · rw [if_pos hq, hq]
      exact iff_of_false h.not_queued (by rintro ⟨⟩)
    · rw [if_neg hq]
      rfl
  nodup hn := hn
  other u hu := setTask_other _ hu _
  before q hq := by
    rw [ht] at hq
    rcases hq with ⟨⟨⟩⟩ | ⟨⟨⟩⟩
  drop := by
    rw [setTask_self, if_pos rfl]
    rfl
  held := by
    rw [setTask_self]
    rfl
  ofFrom := Place.of_unsent
  ofTo := Place.of_dropping
  sent q := by
    change s.sent + 1 ≤ q ↔ _
    by_cases hq : q = s.sent
    · rw [if_pos hq]
      exact iff_of_false (by omega) (by rintro ⟨⟩)
    · rw [if_neg hq]
      omega
  transmitted q := by
    by_cases hq : q = s.sent
    · simp [hq, Place.transmits]
    · simp [hq, Ne.symm hq]
  taken q := by simp [takesOf, Effect.takes, Place.takes]
  freed q how := by simp [Place.frees]

theorem Placed.queued (h : Placed s log place) {len : ℕ} (ht : s.task t = .idle) :
    Move s
      { s with
        sent := s.sent + 1
        priv := { s.priv with rxQueue := s.priv.rxQueue ++ [⟨s.sent, len⟩], rxCount := s.priv.rxCount + 1 } }
      [.transmitted s.sent, .queued s.sent] t s.sent .unsent .queued where
  queue q := by
    rw [ids_append, List.mem_append]
    by_cases hq : q = s.sent
    · rw [if_pos hq, hq]
      simp [ids]
    · rw [if_neg hq]
      simp [ids, hq]
  nodup hn := by
    rw [ids_append]
    exact hn.append (List.nodup_singleton _) (by simpa [ids] using h.not_queued)
  other u hu := rfl
  before q hq := by
    rw [ht] at hq
    rcases hq with ⟨⟨⟩⟩ | ⟨⟨⟩⟩
  drop := by
    rw [ht]
    rfl
  held := by
    rw [ht]
    rfl
  ofFrom := Place.of_unsent
  ofTo := Place.of_queued
  sent q := by
    change s.sent + 1 ≤ q ↔ _
    by_cases hq : q = s.sent
    · rw [if_pos hq]
      exact iff_of_false (by omega) (by rintro ⟨⟩)
    · rw [if_neg hq]
      omega
  transmitted q := by
    by_cases hq : q = s.sent
    · simp [hq, Place.transmits]
    · simp [hq, Ne.symm hq]
  taken q := by simp [takesOf, Effect.takes, Place.takes]
  freed q how := by simp [Place.frees]

theorem Placed.free (h : Placed s log place) {how : FreedBy} (ha : place p = a)
    (hhas : a = .dropping t ∧ how = .drop ∨ a = .held t ∧ how = .read)
    (hbefore : ∀ q, (s.task t).dropId = some q ∨ (s.task t).heldId = some q → q = p)
    (htransmitted : ∀ q, out.count (.transmitted q) = 0) (htaken : ∀ q, takesOf q out = 0)
    (hfreed : ∀ q w, out.count (.freed q w) = if p = q ∧ how = w then 1 else 0) :
    Move s (s.setTask t .idle) out t p a (.freed how) where
  queue q := by
    by_cases hq : q = p
    · rw [if_pos hq, hq]
      change p ∈ ids s.priv.rxQueue ↔ _
      rw [h.queue, ha]
      obtain ⟨rfl, -⟩ | ⟨rfl, -⟩ := hhas <;> simp
    · rw [if_neg hq]
      rfl
  nodup hn := hn
  other u hu := setTask_other _ hu _
  before := hbefore
  drop := by
    rw [setTask_self]
    rfl
  held := by
    rw [setTask_self]
    rfl
  ofFrom := by
    obtain ⟨rfl, -⟩ | ⟨rfl, -⟩ := hhas
    · exact Place.of_dropping
    · exact Place.of_held
  ofTo := Place.of_freed
  sent q := by
    by_cases hq : q = p
    · rw [if_pos hq, hq]
      change s.sent ≤ p ↔ _
      rw [h.sent, ha]
      obtain ⟨rfl, -⟩ | ⟨rfl, -⟩ := hhas <;> simp
    · rw [if_neg hq]
      rfl
  transmitted q := by
    rw [htransmitted]
    obtain ⟨rfl, -⟩ | ⟨rfl, -⟩ := hhas <;> simp [Place.transmits]
  taken q := by
    rw [htaken]
    obtain ⟨rfl, rfl⟩ | ⟨rfl, rfl⟩ := hhas <;> simp [Place.takes]
  freed q w := by
    have hnone : a.frees w = 0 := by obtain ⟨rfl, -⟩ | ⟨rfl, -⟩ := hhas <;> simp [Place.frees]
    rw [hfreed, hnone]
    by_cases hq : q = p
    · simp [hq, Place.frees]
    · simp [hq, Ne.symm hq]

theorem Placed.dropped (h : Placed s log place) {skb : Skb} (ht : s.task t = .dropping skb) :
    Move s (s.setTask t .idle) [.freed skb.id .drop] t skb.id (.dropping t) (.freed .drop) := by
  have hplace : place skb.id = .dropping t := (h.drop t _).mp (by rw [ht]; rfl)
  refine h.free hplace (Or.inl ⟨rfl, rfl⟩) (fun q hq => ?_) (fun q => by simp) (fun q => rfl) fun q w => ?_
  · rw [ht] at hq
    rcases hq with ⟨⟨⟩⟩ | ⟨⟨⟩⟩
    rfl
  · simp [List.count_singleton]

theorem Placed.finished (h : Placed s log place) {file count : ℕ} {skb : Skb} {result : ReadResult}
    (ht : s.task t = .holding file count skb) :
    Move s (s.setTask t .idle) [.freed skb.id .read, .returned file skb.id result] t skb.id (.held t)
      (.freed .read) := by
  have hplace : place skb.id = .held t := (h.held t _).mp (by rw [ht]; rfl)
  refine h.free hplace (Or.inr ⟨rfl, rfl⟩) (fun q hq => ?_) (fun q => by simp) (fun q => rfl) fun q w => ?_
  · rw [ht] at hq
    rcases hq with ⟨⟨⟩⟩ | ⟨⟨⟩⟩
    rfl
  · simp [List.count_cons]

theorem Placed.took (h : Placed s log place) {file count : ℕ} {skb : Skb} {rest : List Skb}
    (ht : s.task t = .ready file count) (hqueue : s.priv.rxQueue = skb :: rest) :
    Move s
      (Sys.setTask { s with priv := { s.priv with rxQueue := rest, rxCount := s.priv.rxCount - 1 } } t
        (.holding file count skb))
      [.taken file skb.id] t skb.id .queued (.held t) where
  queue q := by
    have hn := h.nodup
    rw [hqueue] at hn ⊢
    have hnot := (List.nodup_cons.mp hn).1
    change q ∈ ids rest ↔ _
    by_cases hq : q = skb.id
    · rw [if_pos hq, hq]
      exact iff_of_false hnot (by rintro ⟨⟩)
    · rw [if_neg hq]
      simp [ids, hq]
  nodup hn := by
    rw [hqueue] at hn
    exact (List.nodup_cons.mp hn).2
  other u hu := setTask_other _ hu _
  before q hq := by
    rw [ht] at hq
    rcases hq with ⟨⟨⟩⟩ | ⟨⟨⟩⟩
  drop := by
    rw [setTask_self]
    rfl
  held := by
    rw [setTask_self, if_pos rfl]
    rfl
  ofFrom := Place.of_queued
  ofTo := Place.of_held
  sent q := by
    by_cases hq : q = skb.id
    · have hplace : place skb.id = .queued := (h.queue _).mp (by rw [hqueue]; simp [ids])
      rw [if_pos hq, hq]
      change s.sent ≤ skb.id ↔ _
      rw [h.sent, hplace]
      simp
    · rw [if_neg hq]
      rfl
  transmitted q := by simp [Place.transmits]
  taken q := by
    by_cases hq : q = skb.id
    · simp [hq, takesOf, Effect.takes, Place.takes]
    · simp [hq, Ne.symm hq, takesOf, Effect.takes]
  freed q how := by simp [Place.frees]

def flushPlace (place : ℕ → Place) (p : ℕ) : Place := if place p = .queued then .freed .flush else place p

def flushed (l : List Skb) : List Effect := l.map fun skb => .freed skb.id .flush

theorem count_flushed (l : List Skb) (q : ℕ) (how : FreedBy) :
    (flushed l).count (.freed q how) = if how = .flush then (ids l).count q else 0 := by
  induction l with
  | nil => simp [flushed, ids]
  | cons skb l ih =>
    have hcons : flushed (skb :: l) = .freed skb.id .flush :: flushed l := rfl
    have hids : ids (skb :: l) = skb.id :: ids l := rfl
    rw [hcons, hids, List.count_cons, List.count_cons, ih]
    cases how <;> simp

theorem Placed.flush (h : Placed s log place) (files : List ℕ) :
    Placed { s with priv := ⟨[], 0, false⟩, files := files } (log ++ flushed s.priv.rxQueue) (flushPlace place) := by
  have hin : ∀ q, place q = .queued → flushPlace place q = .freed .flush := fun q hq => if_pos hq
  have hout : ∀ q, place q ≠ .queued → flushPlace place q = place q := fun q hq => if_neg hq
  refine
    { queue := fun q => ?_
      nodup := List.nodup_nil
      drop := fun u q => ?_
      held := fun u q => ?_
      sent := fun q => ?_
      transmitted := fun q => ?_
      taken := fun q => ?_
      freed := fun q how => ?_ }
  · refine iff_of_false (List.not_mem_nil) fun hq => ?_
    by_cases hplace : place q = .queued
    · rw [hin q hplace] at hq
      cases hq
    · exact hplace (hout q hplace ▸ hq)
  · rw [h.drop]
    by_cases hplace : place q = .queued
    · simp [hin q hplace, hplace]
    · rw [hout q hplace]
  · rw [h.held]
    by_cases hplace : place q = .queued
    · simp [hin q hplace, hplace]
    · rw [hout q hplace]
  · change s.sent ≤ q ↔ _
    rw [h.sent]
    by_cases hplace : place q = .queued
    · simp [hin q hplace, hplace]
    · rw [hout q hplace]
  · have hnone : (flushed s.priv.rxQueue).count (.transmitted q) = 0 := by simp [flushed, List.count_eq_zero]
    rw [List.count_append, h.transmitted, hnone]
    by_cases hplace : place q = .queued
    · simp [hin q hplace, hplace, Place.transmits]
    · rw [hout q hplace, Nat.add_zero]
  · have hnone : takesOf q (flushed s.priv.rxQueue) = 0 := by simp [takesOf, flushed, List.countP_eq_zero, Effect.takes]
    rw [takesOf, List.countP_append]
    rw [show log.countP (Effect.takes q) = takesOf q log from rfl, h.taken]
    change _ + takesOf q (flushed s.priv.rxQueue) = _
    rw [hnone]
    by_cases hplace : place q = .queued
    · simp [hin q hplace, hplace, Place.takes]
    · rw [hout q hplace, Nat.add_zero]
  · rw [List.count_append, h.freed, count_flushed]
    by_cases hplace : place q = .queued
    · have hone : (ids s.priv.rxQueue).count q = 1 := List.count_eq_one_of_mem h.nodup ((h.queue q).mpr hplace)
      rw [hin q hplace, hplace, hone]
      cases how <;> simp [Place.frees]
    · have hzero : (ids s.priv.rxQueue).count q = 0 := List.count_eq_zero.mpr fun hq => hplace ((h.queue q).mp hq)
      rw [hout q hplace, hzero]
      simp

/-- **A step leaves each packet in one place.** -/
theorem Placed.did (h : Placed s log place) (hd : Did s s' out) : ∃ place', Placed s' (log ++ out) place' := by
  cases hd with
  | refused t len ht => exact ⟨_, h.move (h.refused ht) h.unsent⟩
  | queued t len ht => exact ⟨_, h.move (h.queued ht) h.unsent⟩
  | dropped t skb ht =>
    have hplace : place skb.id = .dropping t := (h.drop t _).mp (by rw [ht]; rfl)
    exact ⟨_, h.move (h.dropped ht) hplace⟩
  | nothing =>
    rw [List.append_nil]
    exact ⟨place, h⟩
  | opened =>
    have hnone : ∀ e : Effect, e ≠ .attached s.opens → [Effect.attached s.opens].count e = 0 :=
      fun e he => List.count_eq_zero.mpr fun hmem => he (List.mem_singleton.mp hmem)
    refine
      ⟨place,
        { h with
          transmitted := fun q => ?_
          taken := fun q => ?_
          freed := fun q how => ?_ }⟩
    · rw [List.count_append, hnone _ (by simp), h.transmitted, Nat.add_zero]
    · rw [takesOf, List.countP_append]
      exact h.taken q
    · rw [List.count_append, hnone _ (by simp), h.freed, Nat.add_zero]
  | released => exact ⟨_, h.flush _⟩
  | moved t k hold hnew =>
    rw [List.append_nil]
    exact ⟨place, h.setTask hold hnew⟩
  | took t file count skb rest ht hqueue =>
    have hplace : place skb.id = .queued := (h.queue _).mp (by rw [hqueue]; simp [ids])
    exact ⟨_, h.move (h.took ht hqueue) hplace⟩
  | finished t file count skb result ht =>
    have hplace : place skb.id = .held t := (h.held t _).mp (by rw [ht]; rfl)
    exact ⟨_, h.move (h.finished ht) hplace⟩

/-! ## The count and the limit -/

/-- The count is the length, and who is not attached has no packets. -/
structure Counted (s : Sys) : Prop where
  count : s.priv.rxCount = s.priv.rxQueue.length
  limit : s.priv.rxCount ≤ QUEUE_LIMIT
  detached : s.priv.attached = false → s.priv.rxQueue = []
  filed : s.priv.attached = true → s.files ≠ []

theorem Counted.start : Counted .start := ⟨rfl, by decide, fun _ => rfl, by rintro ⟨⟩⟩

theorem Counted.did (h : Counted s) (hd : Did s s' out) : Counted s' := by
  cases hd with
  | refused t len ht => exact ⟨h.count, h.limit, h.detached, h.filed⟩
  | queued t len ht hat hroom =>
    have hcount := h.count
    refine ⟨?_, ?_, fun hno => ?_, h.filed⟩
    · simp only [List.length_append, List.length_singleton]
      omega
    · exact hroom
    · exact absurd (hat.symm.trans hno) (by decide)
  | dropped t skb ht => exact ⟨h.count, h.limit, h.detached, h.filed⟩
  | nothing => exact h
  | opened hat => exact ⟨h.count, h.limit, by rintro ⟨⟩, fun _ => List.cons_ne_nil _ _⟩
  | released file hfile => exact ⟨rfl, show (0 : ℤ) ≤ QUEUE_LIMIT by decide, fun _ => rfl, by rintro ⟨⟩⟩
  | moved t k hold hnew hfile => exact ⟨h.count, h.limit, h.detached, h.filed⟩
  | took t file count skb rest ht hqueue =>
    have hcount := h.count
    have hlimit := h.limit
    rw [hqueue, List.length_cons] at hcount
    refine ⟨?_, ?_, fun hno => ?_, h.filed⟩
    · change s.priv.rxCount - 1 = rest.length
      omega
    · change s.priv.rxCount - 1 ≤ QUEUE_LIMIT
      omega
    · have hnil := h.detached hno
      rw [hqueue] at hnil
      cases hnil
  | finished t file count skb result ht => exact ⟨h.count, h.limit, h.detached, h.filed⟩

/-! ## The order -/

def Effect.takenId : Effect → Option ℕ
  | .taken _ p => some p
  | _ => none

def Effect.queuedId : Effect → Option ℕ
  | .queued p => some p
  | _ => none

/-- The packets that reads took, in their order. -/
def takenIds (log : List Effect) : List ℕ := log.filterMap Effect.takenId

/-- The packets that came into the queue, in their order. -/
def queuedIds (log : List Effect) : List ℕ := log.filterMap Effect.queuedId

/-- What was taken and what waits came into the queue in this order. -/
structure InOrder (s : Sys) (log : List Effect) : Prop where
  order : (takenIds log ++ ids s.priv.rxQueue).Sublist (queuedIds log)
  nodup : (queuedIds log).Nodup
  sent : ∀ p ∈ queuedIds log, p < s.sent

theorem InOrder.start : InOrder .start [] := ⟨List.Sublist.refl _, List.nodup_nil, by rintro p ⟨⟩⟩

/-- A step that neither queues nor takes a packet. -/
theorem InOrder.quiet (h : InOrder s log) (htaken : takenIds out = []) (hqueued : queuedIds out = [])
    (hids : (ids s'.priv.rxQueue).Sublist (ids s.priv.rxQueue)) (hsent : s.sent ≤ s'.sent) :
    InOrder s' (log ++ out) := by
  have ht : takenIds (log ++ out) = takenIds log := by
    rw [takenIds, List.filterMap_append]
    exact (congrArg _ htaken).trans (List.append_nil _)
  have hq : queuedIds (log ++ out) = queuedIds log := by
    rw [queuedIds, List.filterMap_append]
    exact (congrArg _ hqueued).trans (List.append_nil _)
  refine ⟨?_, hq ▸ h.nodup, fun p hp => ?_⟩
  · rw [ht, hq]
    exact ((List.Sublist.refl _).append hids).trans h.order
  · rw [hq] at hp
    exact lt_of_lt_of_le (h.sent p hp) hsent

theorem InOrder.did (h : InOrder s log) (hd : Did s s' out) : InOrder s' (log ++ out) := by
  cases hd with
  | refused t len ht => exact h.quiet rfl rfl (List.Sublist.refl _) (Nat.le_succ _)
  | queued t len ht =>
    have htaken : takenIds (log ++ [.transmitted s.sent, .queued s.sent]) = takenIds log := by
      rw [takenIds, List.filterMap_append]
      exact List.append_nil _
    have hqueued : queuedIds (log ++ [.transmitted s.sent, .queued s.sent]) = queuedIds log ++ [s.sent] := by
      rw [queuedIds, List.filterMap_append]
      rfl
    refine ⟨?_, ?_, fun p hp => ?_⟩
    · rw [htaken, hqueued, ids_append, ← List.append_assoc]
      exact h.order.append (List.Sublist.refl _)
    · rw [hqueued]
      refine h.nodup.append (List.nodup_singleton _) fun p hp hnew => ?_
      rw [List.mem_singleton.mp hnew] at hp
      exact absurd (h.sent _ hp) (lt_irrefl _)
    · change p < s.sent + 1
      rw [hqueued, List.mem_append, List.mem_singleton] at hp
      rcases hp with hp | rfl
      · exact Nat.lt_succ_of_lt (h.sent p hp)
      · exact Nat.lt_succ_self _
  | dropped t skb ht => exact h.quiet rfl rfl (List.Sublist.refl _) le_rfl
  | nothing => exact h.quiet rfl rfl (List.Sublist.refl _) le_rfl
  | opened hat => exact h.quiet rfl rfl (List.Sublist.refl _) le_rfl
  | released file hfile =>
    refine h.quiet ?_ ?_ (List.nil_sublist _) le_rfl
    · simp [takenIds, List.filterMap_map, Function.comp_def, Effect.takenId]
    · simp [queuedIds, List.filterMap_map, Function.comp_def, Effect.queuedId]
  | moved t k hold hnew hfile => exact h.quiet rfl rfl (List.Sublist.refl _) le_rfl
  | took t file count skb rest ht hqueue =>
    have htaken : takenIds (log ++ [.taken file skb.id]) = takenIds log ++ [skb.id] := by
      rw [takenIds, List.filterMap_append]
      rfl
    have hqueued : queuedIds (log ++ [.taken file skb.id]) = queuedIds log := by
      rw [queuedIds, List.filterMap_append]
      exact List.append_nil _
    have horder := h.order
    rw [hqueue] at horder
    refine ⟨?_, hqueued ▸ h.nodup, fun p hp => h.sent p (hqueued ▸ hp)⟩
    rw [htaken, hqueued, List.append_assoc]
    exact horder
  | finished t file count skb result ht => exact h.quiet rfl rfl (List.Sublist.refl _) le_rfl

/-! ## The opens -/

/-- The opens are numbered, and who reads has one of these files. -/
structure Opened (s : Sys) (log : List Effect) : Prop where
  attached : ∀ f, log.count (.attached f) = if f < s.opens then 1 else 0
  files : ∀ f ∈ s.files, f < s.opens
  readers : ∀ t f, (s.task t).file = some f → f < s.opens

theorem Opened.start : Opened .start [] := ⟨fun f => rfl, by rintro f ⟨⟩, by rintro t f ⟨⟩⟩

theorem Opened.setTask (h : Opened s log) {k : Task} (hk : ∀ f, k.file = some f → f < s.opens) :
    ∀ u f, ((s.setTask t k).task u).file = some f → f < s.opens := by
  intro u f hf
  by_cases hu : u = t
  · rw [hu, setTask_self] at hf
    exact hk f hf
  · rw [setTask_other s hu] at hf
    exact h.readers u f hf

theorem Opened.attached_append (h : Opened s log) (hout : ∀ f, out.count (.attached f) = 0) (f : ℕ) :
    (log ++ out).count (.attached f) = if f < s.opens then 1 else 0 := by
  rw [List.count_append, hout, Nat.add_zero, h.attached]

theorem Opened.did (h : Opened s log) (hd : Did s s' out) : Opened s' (log ++ out) := by
  cases hd with
  | refused t len ht =>
    exact ⟨h.attached_append fun f => by simp, h.files, h.setTask (by rintro f ⟨⟩)⟩
  | queued t len ht => exact ⟨h.attached_append fun f => by simp, h.files, h.readers⟩
  | dropped t skb ht => exact ⟨h.attached_append fun f => by simp, h.files, h.setTask (by rintro f ⟨⟩)⟩
  | nothing => exact ⟨h.attached_append fun f => rfl, h.files, h.readers⟩
  | opened hat =>
    refine ⟨fun f => ?_, fun f hf => ?_, fun t f hf => Nat.lt_succ_of_lt (h.readers t f hf)⟩
    · change _ = if f < s.opens + 1 then 1 else 0
      rw [List.count_append, h.attached, List.count_singleton]
      by_cases hf : f = s.opens
      · simp [hf]
      · have hiff : f < s.opens ↔ f < s.opens + 1 := by omega
        simp [hiff, Ne.symm hf]
    · rcases List.mem_cons.mp hf with rfl | hf
      · exact Nat.lt_succ_self _
      · exact Nat.lt_succ_of_lt (h.files f hf)
  | released file hfile =>
    exact ⟨h.attached_append fun f => by simp [List.count_eq_zero], fun f hf => h.files f (List.mem_of_mem_erase hf),
      h.readers⟩
  | moved t k hold hnew hfile =>
    refine ⟨h.attached_append fun f => rfl, h.files, h.setTask fun f hf => ?_⟩
    rcases hfile f hf with hf | hf
    · exact h.files f hf
    · exact h.readers t f hf
  | took t file count skb rest ht hqueue =>
    refine ⟨h.attached_append fun f => by simp, h.files, h.setTask fun f hf => ?_⟩
    exact h.readers t f (ht ▸ hf)
  | finished t file count skb result ht =>
    exact ⟨h.attached_append fun f => by simp, h.files, h.setTask (by rintro f ⟨⟩)⟩

/-! ## No packet from before the open -/

/-- Each packet of the queue and each one taken came behind the open; a read takes it before it frees and returns it. -/
structure Fresh (s : Sys) (log : List Effect) : Prop where
  queue : ∀ p ∈ ids s.priv.rxQueue, ∀ f, f < s.opens → Before (.attached f) (.transmitted p) log
  taken : ∀ f p, .taken f p ∈ log → Before (.attached f) (.transmitted p) log
  holding : ∀ t file count skb, s.task t = .holding file count skb → .taken file skb.id ∈ log
  read : ∀ p, .freed p .read ∈ log → ∃ f, Before (.taken f p) (.freed p .read) log
  returned : ∀ f p result, .returned f p result ∈ log → Before (.taken f p) (.returned f p result) log

theorem Fresh.start : Fresh .start [] where
  queue := by rintro p ⟨⟩
  taken := by rintro f p ⟨⟩
  holding := by rintro t file count skb ⟨⟩
  read := by rintro p ⟨⟩
  returned := by rintro f p result ⟨⟩

/-- A step that takes, frees and returns no packet. -/
theorem Fresh.append (h : Fresh s log)
    (hqueue : ∀ p ∈ ids s'.priv.rxQueue, ∀ f, f < s'.opens → Before (.attached f) (.transmitted p) (log ++ out))
    (hholding : ∀ t file count skb, s'.task t = .holding file count skb → s.task t = .holding file count skb)
    (htaken : ∀ f p, .taken f p ∉ out) (hread : ∀ p, .freed p .read ∉ out)
    (hreturned : ∀ f p result, .returned f p result ∉ out) : Fresh s' (log ++ out) where
  queue := hqueue
  taken f p hp := by
    rcases List.mem_append.mp hp with hp | hp
    · exact (h.taken f p hp).append
    · exact absurd hp (htaken f p)
  holding t file count skb ht := List.mem_append_left _ (h.holding t file count skb (hholding t file count skb ht))
  read p hp := by
    rcases List.mem_append.mp hp with hp | hp
    · obtain ⟨f, hf⟩ := h.read p hp
      exact ⟨f, hf.append⟩
    · exact absurd hp (hread p)
  returned f p result hp := by
    rcases List.mem_append.mp hp with hp | hp
    · exact (h.returned f p result hp).append
    · exact absurd hp (hreturned f p result)

theorem holding_setTask {k : Task} (hk : ∀ file count skb, k ≠ .holding file count skb) {u file count : ℕ} {skb : Skb}
    (hu : (s.setTask t k).task u = .holding file count skb) : s.task u = .holding file count skb := by
  by_cases hut : u = t
  · rw [hut, setTask_self] at hu
    exact absurd hu (hk file count skb)
  · rwa [setTask_other s hut] at hu

theorem Fresh.did (h : Fresh s log) (hopened : Opened s log) (hcounted : Counted s) (hd : Did s s' out) :
    Fresh s' (log ++ out) := by
  have hqueue : ∀ p ∈ ids s.priv.rxQueue, ∀ f, f < s.opens → Before (.attached f) (.transmitted p) (log ++ out) :=
    fun p hp f hf => (h.queue p hp f hf).append
  cases hd with
  | refused t len ht =>
    exact h.append hqueue (fun u file count skb hu => holding_setTask (by rintro f c k ⟨⟩) hu) (by simp) (by simp)
      (by simp)
  | queued t len ht =>
    refine h.append (fun p hp f hf => ?_) (fun u file count skb hu => hu) (by simp) (by simp) (by simp)
    rw [ids_append, List.mem_append] at hp
    rcases hp with hp | hp
    · exact hqueue p hp f hf
    · have hnew : p = s.sent := by simpa [ids] using hp
      have hf' : f < s.opens := hf
      have hone : 0 < log.count (.attached f) := by
        rw [hopened.attached, if_pos hf']
        exact Nat.one_pos
      rw [hnew]
      exact Before.of_mem (List.count_pos_iff.mp hone) (List.mem_cons_self ..)
  | dropped t skb ht =>
    exact h.append hqueue (fun u file count skb hu => holding_setTask (by rintro f c k ⟨⟩) hu) (by simp) (by simp)
      (by simp)
  | nothing => exact h.append hqueue (fun u file count skb hu => hu) (by simp) (by simp) (by simp)
  | opened hat =>
    -- who attaches finds the queue empty
    have hnil := hcounted.detached hat
    refine h.append (fun p hp => ?_) (fun u file count skb hu => hu) (by simp) (by simp) (by simp)
    change p ∈ ids s.priv.rxQueue at hp
    rw [hnil] at hp
    cases hp
  | released file hfile =>
    exact h.append (by rintro p ⟨⟩) (fun u file count skb hu => hu) (by simp) (by simp) (by simp)
  | moved t k hold hnew hfile =>
    refine h.append hqueue (fun u file count skb hu => holding_setTask (fun f c q hk => ?_) hu) (by simp) (by simp)
      (by simp)
    have hnone := hnew.2
    rw [hk] at hnone
    cases hnone
  | took t file count skb rest ht hhead =>
    have hin : skb.id ∈ ids s.priv.rxQueue := by
      rw [hhead]
      exact List.mem_cons_self ..
    have hfresh := h.queue skb.id hin file (hopened.readers t file (by rw [ht]; rfl))
    refine ⟨fun p hp f hf => ?_, fun f p hp => ?_, fun u f c q hu => ?_, fun p hp => ?_, fun f p result hp => ?_⟩
    · refine hqueue p ?_ f hf
      rw [hhead]
      exact List.mem_cons_of_mem _ hp
    · rcases List.mem_append.mp hp with hp | hp
      · exact (h.taken f p hp).append
      · cases List.mem_singleton.mp hp
        exact hfresh.append
    · by_cases hut : u = t
      · rw [hut, setTask_self] at hu
        cases hu
        exact List.mem_append_right _ (List.mem_singleton_self _)
      · rw [setTask_other _ hut] at hu
        exact List.mem_append_left _ (h.holding u f c q hu)
    · rcases List.mem_append.mp hp with hp | hp
      · obtain ⟨f, hf⟩ := h.read p hp
        exact ⟨f, hf.append⟩
      · cases List.mem_singleton.mp hp
    · rcases List.mem_append.mp hp with hp | hp
      · exact (h.returned f p result hp).append
      · cases List.mem_singleton.mp hp
  | finished t file count skb result ht =>
    have htook := h.holding t file count skb ht
    refine ⟨hqueue, fun f p hp => ?_, fun u f c q hu => ?_, fun p hp => ?_, fun f p r hp => ?_⟩
    · rcases List.mem_append.mp hp with hp | hp
      · exact (h.taken f p hp).append
      · simp at hp
    · exact List.mem_append_left _ (h.holding u f c q (holding_setTask (by rintro f c k ⟨⟩) hu))
    · rcases List.mem_append.mp hp with hp | hp
      · obtain ⟨f, hf⟩ := h.read p hp
        exact ⟨f, hf.append⟩
      · have hp' : p = skb.id := by simpa using hp
        rw [hp']
        exact ⟨file, Before.of_mem htook (List.mem_cons_self ..)⟩
    · rcases List.mem_append.mp hp with hp | hp
      · exact (h.returned f p r hp).append
      · have hp' : f = file ∧ p = skb.id ∧ r = result := by simpa using hp
        rw [hp'.1, hp'.2.1, hp'.2.2]
        exact Before.of_mem htook (by simp)

/-! ## Any interleaving -/

def Effect.frees (p : ℕ) : Effect → Bool
  | .freed q _ => q == p
  | _ => false

/-- How many times the packet was freed. -/
def freesOf (p : ℕ) (log : List Effect) : ℕ := log.countP (Effect.frees p)

theorem freesOf_eq (p : ℕ) (log : List Effect) :
    freesOf p log = log.count (.freed p .read) + log.count (.freed p .drop) + log.count (.freed p .flush) := by
  induction log with
  | nil => rfl
  | cons e log ih =>
    simp only [freesOf] at ih
    simp only [freesOf, List.countP_cons, List.count_cons, ih]
    cases e with
    | freed q how => cases how <;> by_cases hq : q = p <;> simp [Effect.frees, hq] <;> omega
    | _ => simp [Effect.frees]

/-- The packet was freed once: behind the one read that took it, or by a drop or a flush and no read took it. -/
def FreedOnce (p : ℕ) (log : List Effect) : Prop :=
  freesOf p log = 1 ∧
    (takesOf p log = 1 ∧ (∃ f, Before (.taken f p) (.freed p .read) log) ∨
      takesOf p log = 0 ∧ (.freed p .drop ∈ log ∨ .freed p .flush ∈ log))

/-- A step that can be taken frees the packet. -/
def CanFree (s : Sys) (p : ℕ) : Prop := ∃ e s' out how, step s e = some (s', out) ∧ .freed p how ∈ out

/-- **The queue of the kernel module is right.** -/
structure QueueRight (s : Sys) (log : List Effect) : Prop where
  count : s.priv.rxCount = s.priv.rxQueue.length
  limit : s.priv.rxCount ≤ QUEUE_LIMIT
  order : (takenIds log).Sublist (queuedIds log)
  queuedOnce : (queuedIds log).Nodup
  returned : ∀ f p result, .returned f p result ∈ log → Before (.taken f p) (.returned f p result) log
  packet : ∀ p, .transmitted p ∈ log → FreedOnce p log ∨ freesOf p log = 0 ∧ CanFree s p
  rest : (∀ t, s.task t = .idle) → s.priv.attached = false → ∀ p, .transmitted p ∈ log → FreedOnce p log
  unsent : ∀ p, .transmitted p ∉ log → freesOf p log = 0
  fresh : ∀ f p, .taken f p ∈ log →
    log.count (.attached f) = 1 ∧ log.count (.transmitted p) = 1 ∧ Before (.attached f) (.transmitted p) log

theorem Placed.freesOf (h : Placed s log place) (p : ℕ) :
    freesOf p log = (place p).frees .read + (place p).frees .drop + (place p).frees .flush := by
  rw [freesOf_eq, h.freed, h.freed, h.freed]

theorem Placed.freedOnce (h : Placed s log place) (hfresh : Fresh s log) {how : FreedBy} (hp : place p = .freed how) :
    FreedOnce p log := by
  have hcount : log.count (.freed p how) = 1 := by
    rw [h.freed, hp]
    exact if_pos rfl
  have hmem : .freed p how ∈ log := List.count_pos_iff.mp (by omega)
  refine ⟨?_, ?_⟩
  · rw [h.freesOf, hp]
    cases how <;> simp [Place.frees]
  · rw [h.taken, hp]
    cases how with
    | read => exact Or.inl ⟨rfl, hfresh.read p hmem⟩
    | drop => exact Or.inr ⟨rfl, Or.inl hmem⟩
    | flush => exact Or.inr ⟨rfl, Or.inr hmem⟩

theorem Placed.canFree (h : Placed s log place) (hcounted : Counted s) (hunsent : place p ≠ .unsent)
    (hfreed : ∀ how, place p ≠ .freed how) : CanFree s p := by
  cases hp : place p with
  | unsent => exact absurd hp hunsent
  | queued =>
    have hin := (h.queue p).mpr hp
    obtain ⟨skb, hskb, rfl⟩ := List.mem_map.mp hin
    have hat : s.priv.attached = true := by
      by_contra hno
      rw [hcounted.detached (Bool.not_eq_true _ ▸ hno)] at hskb
      cases hskb
    obtain ⟨file, hfile⟩ := List.exists_mem_of_ne_nil _ (hcounted.filed hat)
    exact ⟨.release file, _, _, .flush, if_pos hfile, List.mem_map.mpr ⟨skb, hskb, rfl⟩⟩
  | dropping t =>
    have hdrop := (h.drop t p).mpr hp
    cases ht : s.task t with
    | dropping skb =>
      rw [ht] at hdrop
      cases hdrop
      refine ⟨.drop t, s.setTask t .idle, [.freed skb.id .drop], .drop, ?_, List.mem_singleton_self _⟩
      simp only [step, ht]
      rfl
    | _ =>
      rw [ht] at hdrop
      cases hdrop
  | held t =>
    have hheld := (h.held t p).mpr hp
    cases ht : s.task t with
    | holding file count skb =>
      rw [ht] at hheld
      cases hheld
      refine ⟨.finish t false, s.setTask t .idle, (readFinish s t file count skb false).2, .read, ?_, List.mem_cons_self ..⟩
      simp only [step, ht]
      rfl
    | _ =>
      rw [ht] at hheld
      cases hheld
  | freed how => exact absurd hp (hfreed how)

/-- What each step keeps. -/
structure Kept (s : Sys) (log : List Effect) : Prop where
  placed : ∃ place, Placed s log place
  counted : Counted s
  inOrder : InOrder s log
  opened : Opened s log
  fresh : Fresh s log

theorem Kept.start : Kept .start [] := ⟨⟨_, .start⟩, .start, .start, .start, .start⟩

theorem Kept.did (h : Kept s log) (hd : Did s s' out) : Kept s' (log ++ out) := by
  obtain ⟨place, hplace⟩ := h.placed
  exact ⟨hplace.did hd, h.counted.did hd, h.inOrder.did hd, h.opened.did hd, h.fresh.did h.opened h.counted hd⟩

theorem Placed.pending_or_freed (h : Placed s log place) (hmem : .transmitted p ∈ log) :
    place p ≠ .unsent ∧ ((∃ how, place p = .freed how) ∨ ∀ how, place p ≠ .freed how) := by
  refine ⟨fun hno => ?_, ?_⟩
  · have hzero := h.transmitted p
    rw [hno] at hzero
    exact List.count_eq_zero.mp hzero hmem
  · by_cases hfreed : ∃ how, place p = .freed how
    · exact Or.inl hfreed
    · exact Or.inr fun how hhow => hfreed ⟨how, hhow⟩

theorem Kept.right (h : Kept s log) : QueueRight s log := by
  obtain ⟨place, hplace⟩ := h.placed
  refine
    { count := h.counted.count
      limit := h.counted.limit
      order := (List.sublist_append_left _ _).trans h.inOrder.order
      queuedOnce := h.inOrder.nodup
      returned := h.fresh.returned
      packet := fun p hp => ?_
      rest := fun hidle hat p hp => ?_
      unsent := fun p hp => ?_
      fresh := fun f p hp => ?_ }
  · obtain ⟨hsent, ⟨how, hhow⟩ | hpending⟩ := hplace.pending_or_freed hp
    · exact Or.inl (hplace.freedOnce h.fresh hhow)
    · refine Or.inr ⟨?_, hplace.canFree h.counted hsent hpending⟩
      rw [hplace.freesOf]
      simp [Place.frees, hpending]
  · obtain ⟨hsent, ⟨how, hhow⟩ | hpending⟩ := hplace.pending_or_freed hp
    · exact hplace.freedOnce h.fresh hhow
    · cases hp : place p with
      | unsent => exact absurd hp hsent
      | queued =>
        have hin := (hplace.queue p).mpr hp
        rw [h.counted.detached hat] at hin
        cases hin
      | dropping t =>
        have hdrop := (hplace.drop t p).mpr hp
        rw [hidle t] at hdrop
        cases hdrop
      | held t =>
        have hheld := (hplace.held t p).mpr hp
        rw [hidle t] at hheld
        cases hheld
      | freed how => exact absurd hp (hpending how)
  · have hzero : (place p).transmits = 0 := by
      rw [← hplace.transmitted]
      exact List.count_eq_zero.mpr hp
    have hunsent : place p = .unsent := by
      cases hcase : place p with
      | unsent => rfl
      | _ =>
        rw [hcase] at hzero
        cases hzero
    rw [hplace.freesOf, hunsent]
    rfl
  · have hbefore := h.fresh.taken f p hp
    have hat : .attached f ∈ log := hbefore.subset (List.mem_cons_self ..)
    have hsent : .transmitted p ∈ log := hbefore.subset (List.mem_cons_of_mem _ (List.mem_cons_self ..))
    refine ⟨?_, ?_, hbefore⟩
    · have hone := h.opened.attached f
      split at hone
      · exact hone
      · exact absurd hat (List.count_eq_zero.mp hone)
    · have hone := hplace.transmitted p
      have hpos := List.count_pos_iff.mpr hsent
      cases hcase : place p with
      | unsent =>
        rw [hcase, Place.transmits] at hone
        omega
      | _ =>
        rw [hcase] at hone
        exact hone

theorem Kept.steps {es : List Event} (h : Kept s log) (hrun : queueMachine.Steps (fun _ _ => True) s es s') :
    Kept s' (log ++ effects s es) := by
  induction hrun generalizing log with
  | nil s =>
    rw [effects, List.append_nil]
    exact h
  | @cons s u v e es hstep _ _ ih =>
    change (step s e).map Prod.fst = some u at hstep
    obtain ⟨⟨u', out⟩, hout, rfl⟩ := Option.map_eq_some_iff.mp hstep
    have hnext := ih (h.did (step_did hout))
    rw [effects, hout, ← List.append_assoc]
    exact hnext

/-- **Behind any steps of the threads, in any order**, the count is the length of the queue and at most the limit,
reads take the packets in the order they came, each packet is freed once, and none is older than the reader's open. -/
theorem queue_right {es : List Event} (hrun : queueMachine.Steps (fun _ _ => True) .start es s) :
    QueueRight s (effects .start es) := (Kept.start.steps hrun).right

/-- An open, two transmits, a read by thread 3 that takes the first, and the release under another transmit. -/
def demoEvents : List Event :=
  [.open true, .xmit 1 60 true, .xmit 2 40 true, .read 3 0 true 100, .test 3, .take 3, .release 0, .xmit 1 60 true,
    .finish 3 false, .drop 1]

theorem queue_right_demo :
    ∃ s, QueueRight s (effects .start demoEvents) ∧ .returned 0 0 (.length 60) ∈ effects .start demoEvents := by
  have hrun : (queueMachine.runUnder (fun _ _ => True) .start demoEvents).isSome = true := by decide +kernel
  obtain ⟨s, hs⟩ := Option.isSome_iff_exists.mp hrun
  exact ⟨s, queue_right (Machine.runUnder_steps hs), by decide +kernel⟩

end Camex.Kernel
