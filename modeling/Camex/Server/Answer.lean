import Camex.Server.InitEntry

/-!
# Accepted handshakes with their message 2

* `serverNewIndex_some`: an index names its slot and is none of the entry's;
* `Answered`: an accepted handshake, step by step, with the message 2 it answered;
* `slot_invariant`: the rule for invariants of the entry of a slot that depend on message 2.
-/

namespace Camex

open Lib

variable {n : ℕ} {Hs : Type} {N : Noise Hs}

/-! ## The index of a session -/

/-- The low 16 bits of a session's index name its slot. -/
def NamesSlot (i : Fin n) (idx : BitVec 32) : Prop := (idx &&& 0xFFFF#32).toNat = i + 1

instance (i : Fin n) (idx : BitVec 32) : Decidable (NamesSlot i idx) := by
  unfold NamesSlot
  infer_instance

theorem NamesSlot.ne_zero {i : Fin n} {idx : BitVec 32} (h : NamesSlot i idx) : idx ≠ 0 := by
  rintro rfl
  unfold NamesSlot at h
  simp at h

theorem NamesSlot.eq {i j : Fin n} {idx : BitVec 32} (hi : NamesSlot i idx) (hj : NamesSlot j idx) : i = j := by
  unfold NamesSlot at hi hj
  exact Fin.ext (by omega)

theorem namesSlot_or (i : Fin n) (hi : i.val + 1 < 65536) (x : BitVec 32) :
    NamesSlot i ((x &&& 0xFFFF0000#32) ||| BitVec.ofNat 32 (i + 1)) := by
  have hhigh : x &&& 0xFFFF0000#32 &&& 0xFFFF#32 = 0#32 := by
    rw [BitVec.and_assoc, show 0xFFFF0000#32 &&& 0xFFFF#32 = 0#32 by decide, BitVec.and_zero]
  have hlow : (BitVec.ofNat 32 (i + 1) &&& 0xFFFF#32).toNat = i + 1 := by
    rw [BitVec.toNat_and, BitVec.toNat_ofNat, show (0xFFFF#32).toNat = 2 ^ 16 - 1 by decide,
      Nat.and_two_pow_sub_one_eq_mod]
    omega
  unfold NamesSlot
  rw [BitVec.and_or_distrib_right, hhigh, BitVec.zero_or, hlow]

theorem newIndexTries_some {c : ServerClient} {slot1 : BitVec 32} {newIndex : ℕ → BitVec 32} {ks : List ℕ}
    {idx : BitVec 32} (h : newIndexTries c slot1 newIndex ks = some idx) :
    indexUsed c idx = false ∧ ∃ x : BitVec 32, idx = (x &&& 0xFFFF0000#32) ||| slot1 := by
  induction ks with
  | nil => cases h
  | cons k ks ih =>
    unfold newIndexTries at h
    split at h
    · cases h
    · dsimp only at h
      split at h
      · exact ih h
      · cases h
        exact ⟨by simpa using ‹¬ indexUsed c _ = true›, newIndex k, rfl⟩

/-- **A new index** names the slot and is none of the entry's. -/
theorem serverNewIndex_some {c : ServerClient} {i : Fin n} {newIndex : ℕ → BitVec 32} {idx : BitVec 32}
    (hi : i.val + 1 < 65536) (h : serverNewIndex c i newIndex = some idx) :
    NamesSlot i idx ∧ indexUsed c idx = false := by
  obtain ⟨hunused, x, rfl⟩ := newIndexTries_some h
  exact ⟨namesSlot_or i hi x, hunused⟩

theorem initMessage2_some {env : PacketEnv} {c : ServerClient} {i : Fin n} {pkt : Bytes} {hs : Hs} {reply : CStr}
    {m : Message2} (h : initMessage2 N env c i pkt hs reply = some m) :
    serverNewIndex c i env.newIndex = some m.index := by
  unfold initMessage2 at h
  split at h
  · cases h
  · split at h
    · cases h
    · rename_i index hindex
      split at h
      · cases h
      · cases h
        exact hindex

/-! ## Accepted handshakes -/

/-- An accepted handshake: `e` is its entry, `c` that entry with its address, `m` the answer. -/
structure Answered (N : Noise Hs) (s : Server n) (env : PacketEnv) (pkt : Bytes) (src : SockAddr) (fd : ℤ)
    (s' : Server n) (r : Register) (reply : CStr) (s₁ : Server n) (e : Entry n) (pool : PoolCursor)
    (c : ServerClient) (hs : Hs) (m : Message2) : Prop where
  carries : Carries N s.conf pkt r
  recounted : Recounted s s₁
  passes : Passes s₁ r
  entry : serverEntryFor s₁ r src fd env.grow = some e
  configured : Configured e r src fd pool c (some reply)
  message : initMessage2 N env c e.slot pkt hs reply = some m
  state : s' = initDone e pool (initSession c r pkt m e.server.now) r

/-- An accepted handshake with the state that `initAuthenticate` left of message 1. -/
theorem serverHandleInit_authenticated {s s' : Server n} {env : PacketEnv} {pkt : Bytes} {src : SockAddr} {fd : ℤ}
    {slot : Fin n} {fresh : Bool} {r : Register} {reply : CStr} {packet : Bytes}
    (h : serverHandleInit N s env pkt src fd = (s', .accepted slot fresh r reply packet)) :
    ∃ s₁ e pool c hs m, Answered N s env pkt src fd s' r reply s₁ e pool c hs m ∧
      e.slot = slot ∧ e.fresh = fresh ∧ m.packet = packet ∧ (initAuthenticate N s env pkt src).2 = some (r, hs) := by
  obtain ⟨hrec, hsome⟩ := initAuthenticate_spec N s env pkt src
  unfold serverHandleInit at h
  split at h
  · cases h
  · rename_i s₁ r' hs hauth
    rw [hauth] at hrec hsome
    obtain ⟨hr, hpass⟩ := hsome r' hs rfl
    split at h
    · cases h
    · rename_i e he
      unfold initRegister at h
      dsimp only at h
      generalize hconf : initConfigure _ e.slot r' = q at h
      obtain ⟨pool, c, reply'⟩ := q
      dsimp only at h
      split at h
      · cases h
      · rename_i reply'
        split at h
        · cases h
        · rename_i m hm
          split at h
          · cases h
            exact ⟨s₁, e, pool, c, hs, m, ⟨hr, hrec, hpass, he, ⟨hconf⟩, hm, rfl⟩, rfl, rfl, rfl, by rw [hauth]⟩
          · cases h

theorem serverHandleInit_answered {s s' : Server n} {env : PacketEnv} {pkt : Bytes} {src : SockAddr} {fd : ℤ}
    {slot : Fin n} {fresh : Bool} {r : Register} {reply : CStr} {packet : Bytes}
    (h : serverHandleInit N s env pkt src fd = (s', .accepted slot fresh r reply packet)) :
    ∃ s₁ e pool c hs m, Answered N s env pkt src fd s' r reply s₁ e pool c hs m ∧
      e.slot = slot ∧ e.fresh = fresh ∧ m.packet = packet := by
  obtain ⟨s₁, e, pool, c, hs, m, ha, hslot, hfresh, hpacket, -⟩ := serverHandleInit_authenticated h
  exact ⟨s₁, e, pool, c, hs, m, ha, hslot, hfresh, hpacket⟩

namespace Answered

variable {s s' s₁ : Server n} {env : PacketEnv} {pkt : Bytes} {src : SockAddr} {fd : ℤ} {r : Register} {reply : CStr}
  {e : Entry n} {pool : PoolCursor} {c : ServerClient} {hs : Hs} {m : Message2}

theorem now (h : Answered N s env pkt src fd s' r reply s₁ e pool c hs m) : e.server.now = s.now :=
  (serverEntryFor_frame h.entry).now.trans h.recounted.now

theorem taken (h : Answered N s env pkt src fd s' r reply s₁ e pool c hs m) :
    Taken s r src fd e.slot e.fresh (e.server.clients e.slot) := serverEntryFor_taken h.recounted h.entry

theorem accepted (h : Answered N s env pkt src fd s' r reply s₁ e pool c hs m) :
    Accepted r src fd s.now pkt m (e.server.clients e.slot) (s'.clients e.slot) := by
  have := initDone_entry pkt m h.configured h.carries.idShort
  rw [← h.state, h.now] at this
  exact this

/-- The address is chosen among the entry's sessions as they were. -/
theorem session (h : Answered N s env pkt src fd s' r reply s₁ e pool c hs m) (w : Which) :
    c.session w = (e.server.clients e.slot).session w := by
  have hc := h.configured.sameButIps h.carries.idShort
  rw [initClaim_eq h.carries.idShort] at hc
  rw [hc]
  cases w <;> rfl

/-- The index in the answer names the slot and is none of the entry's. -/
theorem index (h : Answered N s env pkt src fd s' r reply s₁ e pool c hs m) (hn : n ≤ 65534) :
    NamesSlot e.slot m.index ∧
      ∀ w, ((e.server.clients e.slot).session w).valid = true →
        ((e.server.clients e.slot).session w).localIndex ≠ m.index := by
  have hlt := e.slot.isLt
  obtain ⟨hnames, hunused⟩ := serverNewIndex_some (by omega) (initMessage2_some h.message)
  refine ⟨hnames, fun w hw heq => ?_⟩
  rw [← h.session w] at hw heq
  simp only [indexUsed, Bool.or_eq_false_iff, Bool.and_eq_false_iff, beq_eq_false_iff_ne] at hunused
  obtain ⟨⟨hcur, hnext⟩, hprev⟩ := hunused
  have hno : ∀ x : Session, x.valid = true → x.localIndex = m.index →
      ¬ (x.valid = false ∨ x.localIndex ≠ m.index) := by
    rintro x hv hx (h | h)
    · rw [hv] at h
      cases h
    · exact h hx
  cases w with
  | cur => exact hno _ hw heq hcur
  | next => exact hno _ hw heq hnext
  | prev => exact hno _ hw heq hprev

end Answered

/-! ## Invariants of the entry of a slot -/

/-- **The rule for invariants of the entry of a slot** that know the answer of an accepted handshake. -/
theorem slot_invariant {P : Fin n → ServerClient → Prop} (hvacant : ∀ i c, Vacant c → P i c)
    (hretained : ∀ i c c', P i c → Retained c c' → P i c')
    (hpromoted : ∀ i c c', P i c → Promoted c c' → P i c')
    (hrestored : ∀ (s : Server n) r src fd j before c, P j (s.clients j) → Taken s r src fd j false before →
      Restored r src fd s.now before c → P j c)
    (haccepted : ∀ (s : Server n) env pkt src fd s' r reply s₁ e pool c hs m,
      Answered N s env pkt src fd s' r reply s₁ e pool c hs m → (e.fresh = false → P e.slot (s.clients e.slot)) →
      P e.slot (s'.clients e.slot))
    {s : Server n} (h : Machine.Reachable (serverMachine N n) s) (i : Fin n) : P i (s.clients i) := by
  have hchanged : ∀ i c c', P i c → Changed c c' → P i c' := by
    intro i c c' hc h
    cases h with
    | retained h => exact hretained i c c' hc h
    | promoted h => exact hpromoted i c c' hc h
    | vacated h => exact hvacant i c' h
  refine h.invariant (I := fun s => ∀ i, P i (s.clients i)) ?_ ?_ i
  · rintro s ⟨cfg, db, ctx, mem, ks, now, leases, -, rfl⟩ i
    exact hvacant i _ vacant_wiped
  · intro s e t hs _ hstep i
    rw [serverMachine_next hstep]
    have hcase := serverStep_case N s e
    generalize serverStep N s e = x at hcase
    by_cases hinit : ∃ o, x.2 = some (.init o)
    · obtain ⟨o, ho⟩ := hinit
      cases hcase with
      | data c _ _ _ => cases ho
      | ignored c _ _ => cases ho
      | quiet _ => cases ho
      | reload _ _ _ _ => cases ho
      | init c _ hread _ =>
        have hi : P i (c.server.clients i) := hretained i _ _ (hs i) (hread.retained i)
        dsimp only
        cases serverHandleInit_fate (N := N) c.server c.env c.packet c.src c.fd i with
        | alone hcore _ => exact hretained i _ _ hi (.of_core hcore)
        | adopted hc _ _ _ _ _ _ _ _ _ _ => rw [hc]; exact hvacant i _ vacant_wiped
        | unused hc _ _ _ _ _ => rw [hc]; exact hvacant i _ vacant_wiped
        | restored r hr _ ht h _ => exact hrestored _ r _ _ i _ _ hi ht h
        | accepted r hr _ ht m h reply ho =>
          obtain ⟨s₁, e, pool, c', hs', m', ha, hslot, -, -⟩ := serverHandleInit_answered (Prod.ext rfl ho)
          subst hslot
          exact haccepted _ _ _ _ _ _ _ _ _ _ _ _ _ _ ha fun _ => hi
    · exact hchanged i _ _ (hs i) (hcase.changed (fun o ho => hinit ⟨o, ho⟩) i)

end Camex
