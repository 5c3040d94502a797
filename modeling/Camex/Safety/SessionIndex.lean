import Camex.Concrete
import Camex.Server.Answer

/-!
# One index, one session

`Indexed`: the sessions of a slot have indexes that name it, no two the same. It is an invariant, so an index
in a DATA packet matches at most one session of the table, the one that `server_handle_data` picks.
-/

namespace Camex

open Lib

variable {n : ℕ} {Hs : Type} {N : Noise Hs}

/-- The valid sessions of slot `i` have indexes that name it, and no two the same. -/
structure Indexed (i : Fin n) (c : ServerClient) : Prop where
  names : ∀ w, (c.session w).valid = true → NamesSlot i (c.session w).localIndex
  distinct : ∀ w v, (c.session w).valid = true → (c.session v).valid = true →
    (c.session w).localIndex = (c.session v).localIndex → w = v

theorem Session.Same.localIndex {x y : Session} (h : x.Same y) : y.localIndex = x.localIndex := by rw [h]

/-! ## Sessions that move -/

/-- Each session of an entry is one it had, at another place. -/
theorem Indexed.moved {i : Fin n} {c c' : ServerClient} (h : Indexed i c) {f : Which → Which}
    (hf : Function.Injective f)
    (hsame : ∀ w, (c'.session w).valid = true → (c.session (f w)).Same (c'.session w)) : Indexed i c' := by
  have hvalid : ∀ w, (c'.session w).valid = true → (c.session (f w)).valid = true := fun w hw => by
    rw [← (hsame w hw).valid]
    exact hw
  refine ⟨fun w hw => ?_, fun w v hw hv heq => ?_⟩
  · rw [(hsame w hw).localIndex]
    exact h.names _ (hvalid w hw)
  · rw [(hsame w hw).localIndex, (hsame v hv).localIndex] at heq
    exact hf (h.distinct _ _ (hvalid w hw) (hvalid v hv) heq)

theorem Retained.session {c c' : ServerClient} (h : Retained c c') (w : Which)
    (hw : (c'.session w).valid = true) : (c.session w).Same (c'.session w) := by
  cases w with
  | cur => exact h.cur
  | next =>
    refine h.next.resolve_right fun hwiped => ?_
    rw [show c'.session .next = c'.next from rfl, hwiped] at hw
    cases hw
  | prev =>
    refine (h.prev.resolve_right fun hwiped => ?_).1
    rw [show c'.session .prev = c'.prev from rfl, hwiped.1] at hw
    cases hw

def Which.promotedFrom : Which → Which
  | .cur => .next
  | .next => .prev
  | .prev => .cur

theorem Which.promotedFrom_injective : Function.Injective Which.promotedFrom := by
  intro w v h
  cases w <;> cases v <;> first | rfl | cases h

theorem Promoted.session {c c' : ServerClient} (h : Promoted c c') (w : Which)
    (hw : (c'.session w).valid = true) : (c.session w.promotedFrom).Same (c'.session w) := by
  cases w with
  | cur => exact h.cur
  | next =>
    rw [show c'.session .next = c'.next from rfl, h.next] at hw
    cases hw
  | prev =>
    rw [show c'.session .prev = c'.prev from rfl, h.prev]
    exact .refl _

theorem Restored.session {r : Register} {src : SockAddr} {fd : ℤ} {now : Time} {before c : ServerClient}
    (h : Restored r src fd now before c) (w : Which) (hw : (c.session w).valid = true) :
    c.session w = before.session w := by
  cases w with
  | cur =>
    refine h.cur.resolve_right fun hwiped => ?_
    rw [show c.session .cur = c.cur from rfl, hwiped.2] at hw
    cases hw
  | next => rw [h.eq]; rfl
  | prev => rw [h.eq]; rfl

theorem Taken.session {s : Server n} {r : Register} {src : SockAddr} {fd : ℤ} {j : Fin n} {fresh : Bool}
    {c : ServerClient} (h : Taken s r src fd j fresh c) (w : Which) (hw : (c.session w).valid = true) :
    fresh = false ∧ c.session w = (s.clients j).session w := by
  cases fresh with
  | true =>
    rw [h.eq_fresh] at hw
    cases w <;> cases hw
  | false =>
    refine ⟨rfl, ?_⟩
    rw [h.eq]
    cases w <;> rfl

/-! ## A session that is new -/

/-- A handshake puts its session where the client's next one belongs; the others stay. -/
def Which.answered (c : ServerClient) : Which := if c.cur.valid then .next else .cur

theorem Accepted.session {r : Register} {src : SockAddr} {fd : ℤ} {now : Time} {pkt : Bytes} {m : Message2}
    {before c : ServerClient} (h : Accepted r src fd now pkt m before c) (w : Which) :
    c.session w = if w = Which.answered before
      then sessionInit m.index (initClientIndex pkt) m.keys.2 m.keys.1 now else before.session w := by
  rw [h.eq]
  unfold Which.answered
  cases w <;> cases hv : before.cur.valid <;> simp [ServerClient.session]

theorem Answered.indexed {s s' s₁ : Server n} {env : PacketEnv} {pkt : Bytes} {src : SockAddr} {fd : ℤ}
    {r : Register} {reply : CStr} {e : Entry n} {pool : PoolCursor} {c : ServerClient} {hs : Hs} {m : Message2}
    (h : Answered N s env pkt src fd s' r reply s₁ e pool c hs m) (hn : n ≤ 65534)
    (hi : e.fresh = false → Indexed e.slot (s.clients e.slot)) : Indexed e.slot (s'.clients e.slot) := by
  obtain ⟨hnames, hunused⟩ := h.index hn
  have hbefore : Indexed e.slot (e.server.clients e.slot) := by
    refine ⟨fun w hw => ?_, fun w v hw hv heq => ?_⟩
    · obtain ⟨hfresh, hsame⟩ := h.taken.session w hw
      rw [hsame] at hw ⊢
      exact (hi hfresh).names w hw
    · obtain ⟨hfresh, hw'⟩ := h.taken.session w hw
      obtain ⟨-, hv'⟩ := h.taken.session v hv
      rw [hw'] at hw heq
      rw [hv'] at hv heq
      exact (hi hfresh).distinct w v hw hv heq
  have hsession := h.accepted.session
  refine ⟨fun w hw => ?_, fun w v hw hv heq => ?_⟩
  · rw [hsession w] at hw ⊢
    split at hw
    · rw [if_pos ‹_›]
      exact hnames
    · rw [if_neg ‹_›]
      exact hbefore.names w hw
  · rw [hsession w, hsession v] at heq
    rw [hsession w] at hw
    rw [hsession v] at hv
    split at hw <;> split at hv
    · rename_i h₁ h₂
      rw [h₁, h₂]
    · rename_i h₁ h₂
      rw [if_pos h₁, if_neg h₂] at heq
      exact absurd heq.symm (hunused v hv)
    · rename_i h₁ h₂
      rw [if_neg h₁, if_pos h₂] at heq
      exact absurd heq (hunused w hw)
    · rename_i h₁ h₂
      rw [if_neg h₁, if_neg h₂] at heq
      exact hbefore.distinct w v hw hv heq

theorem indexed_reachable (hn : n ≤ 65534) {s : Server n} (h : Machine.Reachable (serverMachine N n) s)
    (i : Fin n) : Indexed i (s.clients i) := by
  refine slot_invariant (N := N) (P := Indexed) ?_ ?_ ?_ ?_ ?_ h i
  · intro i c h
    have hno : ∀ w, (c.session w).valid = false := by
      intro w
      cases w with
      | cur => exact congrArg Session.valid h.cur
      | next => exact congrArg Session.valid h.next
      | prev => exact congrArg Session.valid h.prev
    refine ⟨fun w hw => ?_, fun w v hw => ?_⟩ <;> rw [hno w] at hw <;> cases hw
  · exact fun i c c' hc h => hc.moved (f := id) Function.injective_id h.session
  · exact fun i c c' hc h => hc.moved Which.promotedFrom_injective h.session
  · intro s r src fd j before c hj ht h
    refine hj.moved (f := id) Function.injective_id fun w hw => ?_
    have hbefore := h.session w hw
    rw [hbefore] at hw ⊢
    rw [(ht.session w hw).2]
    exact .refl _
  · exact fun s env pkt src fd s' r reply s₁ e pool c hs m ha hi => ha.indexed hn hi

/-! ## The session a packet names -/

/-- A session that the index of a packet matches, on its own connection over TCP. -/
structure Matches (s : Server n) (idx : BitVec 32) (fd : ℤ) (i : Fin n) (w : Which) : Prop where
  active : (s.clients i).active = true
  valid : ((s.clients i).session w).valid = true
  index : ((s.clients i).session w).localIndex = idx
  /-- A previous session is over when its grace is. -/
  grace : w = .prev → s.now ≤ (s.clients i).prevUntil
  connection : 0 ≤ fd → (s.clients i).tcpFd = fd

theorem slotOfIndex_iff {idx : BitVec 32} {i : Fin n} : slotOfIndex n idx = some i ↔ NamesSlot i idx := by
  unfold slotOfIndex NamesSlot
  dsimp only
  split
  · rw [Option.some.injEq, Fin.ext_iff]
    show (idx &&& 0xFFFF#32).toNat - 1 = i.val ↔ _
    omega
  · rename_i h
    constructor
    · rintro ⟨⟩
    · intro h'
      exact absurd ⟨by omega, by have := i.isLt; omega⟩ h

/-- The sessions are tried one after the other; at most one has the index. -/
theorem Indexed.sessionOf_iff {i : Fin n} {c : ServerClient} (h : Indexed i c) (idx : BitVec 32) (now : Time)
    (w : Which) :
    sessionOf c idx now = some w ↔ (c.session w).valid = true ∧ (c.session w).localIndex = idx ∧
      (w = .prev → now ≤ c.prevUntil) := by
  constructor
  · intro hw
    unfold sessionOf at hw
    split at hw
    · cases hw
      simp_all [ServerClient.session]
    · split at hw
      · cases hw
        simp_all [ServerClient.session]
      · split at hw
        · cases hw
          simp_all [ServerClient.session]
        · cases hw
  · rintro ⟨hv, hidx, hgrace⟩
    have hother : ∀ v, v ≠ w → ((c.session v).valid && (c.session v).localIndex == idx) = false := by
      intro v hne
      rw [Bool.and_eq_false_iff, beq_eq_false_iff_ne]
      by_cases hvalid : (c.session v).valid = true
      · exact Or.inr fun heq => hne (h.distinct v w hvalid hv (heq.trans hidx.symm))
      · exact Or.inl (by simpa using hvalid)
    have hself : ((c.session w).valid && (c.session w).localIndex == idx) = true := by simp [hv, hidx]
    have hcur := hother .cur
    have hnext := hother .next
    unfold sessionOf
    cases w with
    | cur => exact if_pos hself
    | next => rw [if_neg (by rw [show c.cur = c.session .cur from rfl, hcur (by decide)]; decide)]; exact if_pos hself
    | prev =>
      rw [if_neg (by rw [show c.cur = c.session .cur from rfl, hcur (by decide)]; decide),
        if_neg (by rw [show c.next = c.session .next from rfl, hnext (by decide)]; decide)]
      refine if_pos ?_
      rw [Bool.and_eq_true]
      exact ⟨hself, decide_eq_true (hgrace rfl)⟩

theorem dataSession_iff {s : Server n} (hs : ∀ i, Indexed i (s.clients i)) (pkt : Bytes) (fd : ℤ) (i : Fin n)
    (w : Which) : dataSession s pkt fd = some (i, w) ↔ Matches s (v2DataReceiver pkt) fd i w := by
  unfold dataSession
  constructor
  · intro h
    split at h
    · cases h
    · rename_i j hj
      split at h
      · rename_i hactive
        split at h
        · cases h
        · rename_i v hv
          split at h
          · cases h
          · rename_i hfd
            cases h
            obtain ⟨hvalid, hidx, hgrace⟩ := ((hs _).sessionOf_iff _ _ _).mp hv
            exact ⟨hactive, hvalid, hidx, hgrace, fun h => by simpa [h] using hfd⟩
      · cases h
  · intro h
    have hslot : slotOfIndex n (v2DataReceiver pkt) = some i := by
      rw [slotOfIndex_iff, ← h.index]
      exact (hs i).names w h.valid
    have hsession : sessionOf (s.clients i) (v2DataReceiver pkt) s.now = some w :=
      ((hs i).sessionOf_iff _ _ _).mpr ⟨h.valid, h.index, h.grace⟩
    rw [hslot]
    dsimp only
    rw [if_pos h.active, hsession]
    dsimp only
    rw [if_neg fun hfd => hfd.2 (h.connection hfd.1)]

/-- **Session indexes are unique**, and `server_handle_data` picks the session that has the one of a packet. -/
theorem sessionIndexes_unique (hn : n ≤ 65534) {s : Server n} (h : Machine.Reachable (serverMachine N n) s) :
    (∀ i w, ((s.clients i).session w).valid = true → (s.clients i).active = true ∧
      ((s.clients i).session w).localIndex ≠ 0 ∧ NamesSlot i ((s.clients i).session w).localIndex) ∧
    (∀ i j w v, ((s.clients i).session w).valid = true → ((s.clients j).session v).valid = true →
      ((s.clients i).session w).localIndex = ((s.clients j).session v).localIndex → i = j ∧ w = v) ∧
    (∀ pkt fd i w, dataSession s pkt fd = some (i, w) ↔ Matches s (v2DataReceiver pkt) fd i w) := by
  have hs := indexed_reachable hn h
  refine ⟨fun i w hw => ?_, fun i j w v hw hv heq => ?_, dataSession_iff hs⟩
  · have hnames := (hs i).names w hw
    refine ⟨?_, hnames.ne_zero, hnames⟩
    -- the entry is registered
    have hsound := sound_reachable h i
    have hreg : (s.clients i).registered = true := by
      by_contra hno
      rw [Bool.not_eq_true] at hno
      have hcur := hsound.cur
      rw [hno] at hcur
      cases w with
      | cur => exact absurd (hcur.trans hw) (by decide)
      | next => exact absurd ((hsound.next hno).symm.trans hw) (by decide)
      | prev => exact absurd ((hsound.prev hno).symm.trans hw) (by decide)
    exact hsound.active hreg
  · have hij : i = j := by
      have hnames := (hs i).names w hw
      rw [heq] at hnames
      exact hnames.eq ((hs j).names v hv)
    subst hij
    exact ⟨rfl, (hs i).distinct w v hw hv heq⟩

/-- A client that renewed its session, with a packet on the old one before. -/
theorem sessionIndexes_unique_renewal : ∃ s : Server 3, (s.clients 0).cur.valid = true ∧
    (s.clients 0).next.valid = true ∧ (s.clients 0).cur.localIndex ≠ (s.clients 0).next.localIndex := by
  obtain ⟨s, hreach, hp⟩ := Machine.runUnder_reachable (M := toyMachine 3) (C := fun _ _ => True)
    (l := liveClient ++ [udpInit 65 2 (toySource 1 1000) "MODE=MANUAL CLIENT_ID=a LOCAL_IP=10.0.0.5"])
    (p := fun s => (s.clients 0).cur.valid && (s.clients 0).next.valid)
    (toyServer_started 3 .udp toyDb) (by decide +kernel)
  rw [Bool.and_eq_true] at hp
  refine ⟨s, hp.1, hp.2, fun heq => ?_⟩
  have := ((sessionIndexes_unique (by decide) hreach).2.1 0 0 .cur .next hp.1 hp.2 heq).2
  cases this

end Camex
