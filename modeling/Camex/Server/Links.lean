import Camex.Server.InitEntry

/-!
# What an event does to the progress of the connections

* `Linked fd`: sockets go at most, and an entry that stays on a connection keeps its progress, but for the
  connection `fd` that a handshake moves to another entry, which starts anew;
* one lemma for each function, `serverHandleInit_linked` and `quietStep_linked` for the events.
-/

namespace Camex

open Lib

variable {n : ℕ}

/-- The entry is on the same connection, at the same place of its stream. -/
structure SameLink (c c' : ServerClient) : Prop where
  active : c'.active = true → c.active = true
  tcpFd : c'.tcpFd = c.tcpFd
  recvState : c'.recvState = c.recvState

theorem SameLink.refl (c : ServerClient) : SameLink c c := ⟨id, rfl, rfl⟩

/-- The entry is on the same connection, on none, or on `fd` which it takes up anew. -/
def LinkStep (fd : ℤ) (c c' : ServerClient) : Prop :=
  c'.active = true → 0 ≤ c'.tcpFd →
    c.active = true ∧ c'.tcpFd = c.tcpFd ∧ c'.recvState = c.recvState ∨ c'.tcpFd = fd ∧ c'.recvState = .zero

structure Linked (fd : ℤ) (s s' : Server n) : Prop where
  sockets : ∀ k ∈ s'.sockets, k ∈ s.sockets
  entry : ∀ i, LinkStep fd (s.clients i) (s'.clients i)

variable {fd : ℤ}

theorem SameLink.step {c c' : ServerClient} (h : SameLink c c') : LinkStep fd c c' :=
  fun ha _ => Or.inl ⟨h.active ha, h.tcpFd, h.recvState⟩

theorem linkStep_inactive (c : ServerClient) {c' : ServerClient} (h : c'.active = false) : LinkStep fd c c' :=
  fun ha _ => absurd ha (by simp [h])

theorem linkStep_offline (c : ServerClient) {c' : ServerClient} (h : c'.tcpFd < 0) : LinkStep fd c c' :=
  fun _ hfd => absurd hfd (not_le.mpr h)

theorem LinkStep.trans {c c' c'' : ServerClient} (h : LinkStep fd c c') (h' : LinkStep fd c' c'') :
    LinkStep fd c c'' := by
  intro ha hfd
  rcases h' ha hfd with ⟨ha', htcp', hrecv'⟩ | hnew
  · rcases h ha' (htcp' ▸ hfd) with ⟨hac, htcp, hrecv⟩ | ⟨htcp, hrecv⟩
    · exact Or.inl ⟨hac, htcp'.trans htcp, hrecv'.trans hrecv⟩
    · exact Or.inr ⟨htcp'.trans htcp, hrecv'.trans hrecv⟩
  · exact Or.inr hnew

namespace Linked

variable {s s' s'' : Server n}

theorem refl (s : Server n) : Linked fd s s := ⟨fun _ hk => hk, fun _ => (SameLink.refl _).step⟩

theorem trans (h : Linked fd s s') (h' : Linked fd s' s'') : Linked fd s s'' :=
  ⟨fun _ hk => h.sockets _ (h'.sockets _ hk), fun i => (h.entry i).trans (h'.entry i)⟩

theorem of_same (hsockets : s'.sockets = s.sockets) (h : ∀ i, SameLink (s.clients i) (s'.clients i)) :
    Linked fd s s' := ⟨fun _ hk => hsockets ▸ hk, fun i => (h i).step⟩

theorem of_setClient (i : Fin n) {c : ServerClient} (hc : LinkStep fd (s.clients i) c) :
    Linked fd s (s.setClient i c) := by
  refine ⟨fun _ hk => hk, fun j => ?_⟩
  by_cases hj : j = i
  · subst hj
    rwa [Server.setClient_self]
  · rw [Server.setClient_of_ne _ _ _ hj]
    exact (SameLink.refl _).step

end Linked

theorem netTcpClose_subset (sockets : List Socket) (fd : ℤ) : ∀ k ∈ netTcpClose sockets fd, k ∈ sockets := by
  unfold netTcpClose
  intro k hk
  split at hk
  · exact hk
  · exact (List.mem_filter.mp hk).1

section Functions

variable {s : Server n}

theorem serverDropEntry_linked (s : Server n) (i : Fin n) : Linked fd s (serverDropEntry s i) := by
  refine ⟨netTcpClose_subset _ _, fun j => ?_⟩
  by_cases hj : j = i
  · subst hj
    rw [serverDropEntry_self]
    exact linkStep_inactive _ rfl
  · rw [serverDropEntry_of_ne _ _ hj]
    exact (SameLink.refl _).step

theorem serverEndClient_linked (grow : Grow) (i : Fin n) (s : Server n) : Linked fd s (serverEndClient grow i s) := by
  refine Linked.trans ?_ (serverDropEntry_linked _ i)
  exact .of_same rfl fun _ => .refl _

theorem forSlots_linked {f : Fin n → Server n → Server n} (hf : ∀ i s, Linked fd s (f i s)) (s : Server n) :
    Linked fd s (forSlots f s) :=
  forSlots_induction (I := fun t => Linked fd s t) (fun i t ht => ht.trans (hf i t)) (.refl s)

theorem expireSessions_sameLink (c : ServerClient) (now : Time) : SameLink c (expireSessions c now) := by
  unfold expireSessions
  dsimp only
  split <;> split <;> exact ⟨id, rfl, rfl⟩

theorem serverExpireClients_linked (grow : Fin n → Grow) (s : Server n) :
    Linked fd s (serverExpireClients grow s) := by
  unfold serverExpireClients
  split
  · exact .refl s
  · have hchecked : Linked fd s { s with lastExpireCheck := s.now } := .of_same rfl fun _ => .refl _
    refine hchecked.trans (forSlots_linked (fun i t => ?_) _)
    unfold serverExpireClient
    dsimp only
    split
    · exact .refl t
    · have hset : Linked fd t (t.setClient i (expireSessions (t.clients i) t.now)) :=
        .of_setClient i (expireSessions_sameLink _ _).step
      split
      · exact hset.trans (serverEndClient_linked _ i _)
      · exact hset

theorem serverRevalidate_linked (grow : Fin n → Grow) (s : Server n) : Linked fd s (serverRevalidate grow s) := by
  have hkeys : ∀ s : Server n, Linked fd s (serverRevalidateKeys grow s) := forSlots_linked fun i t => by
    unfold revalidateKey
    dsimp only
    split
    · exact .refl t
    · exact serverEndClient_linked _ i t
  have hunknown : ∀ s : Server n, Linked fd s (serverRevalidateUnknownClients grow s) := fun s => by
    unfold serverRevalidateUnknownClients
    split
    · exact .refl s
    · refine forSlots_linked (fun i t => ?_) s
      unfold revalidateUnknown
      dsimp only
      split
      · exact .refl t
      · exact serverEndClient_linked _ i t
  have haddress : ∀ s : Server n, Linked fd s (serverRevalidateProfileAddresses s) := forSlots_linked fun i t => by
    unfold revalidateAddress
    dsimp only
    split
    · exact .refl t
    · have hset : Linked fd t (t.setClient i (withdrawOffer t.conf.db (t.clients i))) := by
        refine .of_setClient i ?_
        unfold withdrawOffer
        split <;> exact SameLink.step ⟨id, rfl, rfl⟩
      split
      · exact hset
      · exact hset.trans (serverDropEntry_linked _ i)
  exact ((hkeys s).trans (hunknown _)).trans (haddress _)

/-! ## Handshakes -/

variable {r : Register} {src : SockAddr} {grow : Grow}

theorem serverAdoptTcp_linked (i : Fin n) (s : Server n) : Linked fd s (serverAdoptTcp i fd s) := by
  unfold serverAdoptTcp
  split
  · exact .refl s
  · refine ⟨netTcpClose_subset _ _, fun j => ?_⟩
    dsimp only
    split
    · exact fun _ _ => Or.inr ⟨rfl, rfl⟩
    · split
      · exact linkStep_inactive _ rfl
      · exact (SameLink.refl _).step

theorem withIp_linked (e : Entry n) (r : Register) : Linked fd e.server (e.withIp r).server := by
  unfold Entry.withIp
  split
  · exact .refl _
  · exact .of_setClient _ (SameLink.step ⟨id, rfl, rfl⟩)

theorem serverEntryFor_linked {e : Entry n} (he : serverEntryFor s r src fd grow = some e) :
    Linked fd s e.server := by
  unfold serverEntryFor at he
  split at he
  · cases he
  · rename_i i _
    cases he
    have hnote : Linked fd s (s.setClient i (noteReconnect (s.clients i) src)) := by
      refine .of_setClient i ?_
      unfold noteReconnect
      split <;> exact SameLink.step ⟨id, rfl, rfl⟩
    exact (hnote.trans (serverAdoptTcp_linked i _)).trans (withIp_linked ⟨i, false, resumeEntry s i src fd⟩ r)
  · rename_i i _
    cases he
    exact withIp_linked ⟨i, false, s⟩ r
  · obtain ⟨⟨i, s'⟩, halloc, rfl⟩ := Option.map_eq_some_iff.mp he
    refine Linked.trans ?_ (withIp_linked ⟨i, true, s'⟩ r)
    rcases serverAllocClient_some halloc with ⟨-, rfl⟩ | ⟨-, rfl⟩
    · exact (Linked.of_setClient i (linkStep_offline _ (by decide : (-1 : ℤ) < 0))).trans
        (.of_same rfl fun _ => .refl _)
    · exact (serverEndClient_linked grow i s).trans
        (.of_setClient i (linkStep_offline _ (by decide : (-1 : ℤ) < 0)))

theorem Recounted.linked {s₁ : Server n} (h : Recounted s s₁) : Linked fd s s₁ :=
  .of_same h.sockets fun i => ⟨fun ha => (h.active i).symm.trans ha, h.tcpFd i,
    (congrArg ServerClient.recvState (h.core i) :)⟩

end Functions

variable {Hs : Type} {N : Noise Hs} {s : Server n}

theorem serverHandleInit_linked (s : Server n) (env : PacketEnv) (pkt : Bytes) (src : SockAddr) (fd : ℤ) :
    Linked fd s (serverHandleInit N s env pkt src fd).1 := by
  have hset : ∀ (t t' : Server n) (i : Fin n), t'.sockets = t.sockets →
      (∀ j, j ≠ i → t'.clients j = t.clients j) → LinkStep fd (t.clients i) (t'.clients i) → Linked fd t t' := by
    intro t t' i hsockets hother hi
    refine ⟨fun _ hk => hsockets ▸ hk, fun j => ?_⟩
    by_cases hj : j = i
    · subst hj
      exact hi
    · rw [hother j hj]
      exact (SameLink.refl _).step
  have hrun := serverHandleInit_cases N s env pkt src fd
  generalize (serverHandleInit N s env pkt src fd).1 = s' at hrun ⊢
  generalize (serverHandleInit N s env pkt src fd).2 = o at hrun
  cases hrun with
  | refused _ hrec => exact hrec.linked
  | failed s₁ r e pool c₀ c reply saved hrec hr hpass he hconf hc =>
    refine hrec.linked.trans ((serverEntryFor_linked he).trans
      (hset _ _ e.slot rfl (fun j hj => initFail_other _ hj) ?_))
    rcases initFail_entry hconf hr.idShort hc with ⟨-, h⟩ | ⟨-, h⟩
    · rw [h]
      exact linkStep_inactive _ rfl
    · rw [h.eq]
      exact SameLink.step ⟨id, rfl, rfl⟩
  | accepted s₁ r e pool c reply m hrec hr hpass he hconf =>
    refine hrec.linked.trans ((serverEntryFor_linked he).trans
      (hset _ _ e.slot rfl (fun j hj => initDone_other hj) ?_))
    rw [(initDone_entry pkt m hconf hr.idShort).eq]
    exact SameLink.step ⟨id, rfl, rfl⟩

/-! ## Other events -/

theorem SameButSent.sameLink {c c' : ServerClient} (h : SameButSent c c') : SameLink c c' := by
  rw [h]
  exact ⟨id, rfl, rfl⟩

theorem dataReceive_sameLink (c : ServerClient) (w : Which) (x : Session) (src : SockAddr) (now : Time) (len : ℕ) :
    SameLink c (dataReceive c w x src fd now len) := by
  unfold dataReceive
  cases w <;> dsimp only [ServerClient.setSession] <;> split <;> split <;> exact ⟨id, rfl, rfl⟩

theorem serverHandleData_linked (s : Server n) (env : PacketEnv) (pkt : Bytes) (src : SockAddr) :
    Linked fd s (serverHandleData N s env pkt src fd).1 := by
  rcases serverHandleData_cases (N := N) s env pkt src fd with h | ⟨i, w, plain, x, -, -, -, hd⟩
  · rw [h]
    exact .refl s
  · have hreceived : Linked fd s (dataReceived s i w x src fd plain.length) :=
      (Linked.of_setClient i (dataReceive_sameLink _ w x src s.now plain.length).step).trans
        (.of_same rfl fun _ => .refl _)
    exact hreceived.trans (.of_same (congrArg Server.sockets hd.eq :) fun j => (hd.entry j).sameLink)

theorem serverHandlePacket_linked (s : Server n) (env : PacketEnv) (pkt : Bytes) (src : SockAddr) :
    Linked fd s (serverHandlePacket N s env pkt src fd).1 := by
  unfold serverHandlePacket
  dsimp only
  split
  · exact serverHandleInit_linked s env pkt src fd
  · split
    · exact serverHandleData_linked s env pkt src
    · exact .refl s

end Camex
