import Camex.PeersConcrete
import Camex.Safety.Channel
import Camex.Safety.SessionRuns

/-!
# A client and its server agree

Runs of `peersLogged` whose log is `Ideal`, with any network and any other clients:

* `peers_agree`: a session of the client has the keys of a session that the server made for it;
* `peers_rekey`: the server sends the client nothing on the session of a rekey before the client has it;
* `peers_deliver`: what one side takes the other side sent, each packet once at most.
-/

namespace Camex

open Lib Machine

variable {n : ℕ} {C : Crypto} {ctx : ClientCtx} {c : ClientLoop} {s : Server n} {log : List (PeersNote n)}

/-! ## Sessions -/

/-- Both have the same keys, the other way round. -/
def SessionId.Pairs (x y : SessionId) : Prop := x.kSend = y.kRecv ∧ x.kRecv = y.kSend

theorem replied_iff {key : Key} {msg reply : Bytes} : Replied log key msg reply ↔
    ∃ slot first init y resp, Sum.inr (ServerNote.answered slot first key init y resp) ∈ log ∧
      initMessage1 init = msg ∧ resp.drop V2_RESP_HDR = reply := by
  constructor
  · rintro ⟨r, hr, rfl, rfl, rfl⟩
    obtain ⟨a, ha, hreply⟩ := List.mem_filterMap.mp hr
    cases a with
    | answered slot first key init y resp =>
      cases hreply
      exact ⟨slot, first, init, y, resp, mem_rights.mp ha, rfl, rfl⟩
    | sealed _ _ _ _ _ => cases hreply
    | taken _ _ _ _ _ => cases hreply
  · rintro ⟨slot, first, init, y, resp, hmem, rfl, rfl⟩
    exact ⟨_, List.mem_filterMap.mpr ⟨_, mem_rights.mpr hmem, rfl⟩, rfl, rfl, rfl⟩

theorem mem_began {index : BitVec 32} {hs : NoiseHs} {packet : Bytes}
    (h : Sum.inl (ClientNote.init index hs packet) ∈ log) :
    (index, hs, initMessage1 packet) ∈ (lefts log).filterMap ClientNote.began :=
  List.mem_filterMap.mpr ⟨_, mem_lefts.mpr h, rfl⟩

theorem MadeForClient.opened {y : SessionId} (h : MadeForClient log y) : SessionNote.opened y ∈ serverSide log := by
  obtain ⟨r, hr, rfl, -⟩ := h
  obtain ⟨a, ha, hreply⟩ := List.mem_filterMap.mp hr
  cases a with
  | answered slot first key init y resp =>
    cases hreply
    exact List.mem_map.mpr ⟨_, ha, rfl⟩
  | sealed _ _ _ _ _ => cases hreply
  | taken _ _ _ _ _ => cases hreply

theorem MadeForClient.append {y : SessionId} (h : MadeForClient log y) (more : List (PeersNote n)) :
    MadeForClient (log ++ more) y := by
  obtain ⟨r, hr, hy, b, hb, hmsg⟩ := h
  refine ⟨r, ?_, hy, b, ?_, hmsg⟩
  · rw [rights_append, List.filterMap_append]
    exact List.mem_append_left _ hr
  · rw [lefts_append, List.filterMap_append]
    exact List.mem_append_left _ hb

theorem sealed_iff {side : List SessionNote} {key : Key} {packet : Bytes} : Sealed side key packet ↔
    ∃ x count plain, SessionNote.sealed x count plain packet ∈ side ∧ x.kSend = key := by
  constructor
  · rintro ⟨p, hp, rfl, rfl⟩
    obtain ⟨a, ha, hsent⟩ := List.mem_filterMap.mp hp
    cases a with
    | sealed x count plain packet =>
      cases hsent
      exact ⟨x, count, plain, ha, rfl⟩
    | opened _ => cases hsent
    | taken _ _ _ => cases hsent
  · rintro ⟨x, count, plain, hmem, rfl⟩
    exact ⟨_, List.mem_filterMap.mpr ⟨_, hmem, rfl⟩, rfl, rfl⟩

theorem Sealed.append {side : List SessionNote} {key : Key} {packet : Bytes} (h : Sealed side key packet)
    (more : List SessionNote) : Sealed (side ++ more) key packet := by
  obtain ⟨p, hp, hkey⟩ := h
  refine ⟨p, ?_, hkey⟩
  rw [List.filterMap_append]
  exact List.mem_append_left _ hp

theorem clientSide_sealed {x : SessionId} {count : ℕ} {plain packet : Bytes}
    (h : SessionNote.sealed x count plain packet ∈ clientSide log) :
    ClientNote.sealed x count plain packet ∈ lefts log := by
  obtain ⟨a, ha, hnote⟩ := List.mem_filterMap.mp h
  cases a with
  | sealed x count plain packet =>
    cases hnote
    exact ha
  | init _ _ _ => cases hnote
  | opened _ _ _ => cases hnote
  | taken _ _ _ => cases hnote

section

variable {before after : List (PeersNote n)}

theorem Ideal.entry {a : PeersNote n} (h : Ideal ctx log) (hlog : log = before ++ a :: after) : Genuine ctx log before a := by
  unfold Ideal at h
  nth_rewrite 2 [hlog] at h
  exact Each.entry h

/-- **A RESP the client opens** was made for its INIT, and both have the same keys. -/
theorem opened_agrees (hdh : ∀ a b, C.x25519 a (C.publicKey b) = C.x25519 b (C.publicKey a))
    (h : (peersLogged C ctx n).Reachable ((c, s), log)) (hideal : Ideal ctx log) {x : SessionId} {hs : NoiseHs}
    {resp : Bytes} (hlog : log = before ++ .inl (.opened x hs resp) :: after) :
    ∃ slot first init y resp', Sum.inr (ServerNote.answered slot first ctx.pskKey init y resp') ∈ before ∧
      MadeForClient before y ∧ x.Pairs y ∧ (resp = resp' → x.remoteIndex = y.localIndex ∧ x.localIndex = y.remoteIndex) := by
  have htraced := client_traced (C := C) h.left
  have hresponses := server_responses h.right
  obtain ⟨priv, hpub, hbase⟩ := peers_base h
  dsimp only at hresponses
  rw [hbase] at hresponses
  have hgenuine := hideal.entry hlog
  subst hlog
  have hentries := htraced.entries
  rw [lefts_append, lefts_inl] at hentries
  obtain ⟨hopened, packet, hinit⟩ := Each.entry hentries
  have hbegan : Sum.inl (ClientNote.init x.localIndex hs packet) ∈ before := mem_lefts.mp hinit
  have hbuilt := htraced.built _ _ _ (mem_lefts.mpr (List.mem_append_left _ hbegan))
  obtain ⟨slot, first, init, y, resp', hanswered, hmsg1, hmsg2⟩ := replied_iff.mp (hgenuine _ (mem_began hbegan) rfl rfl)
  have hresponse := hresponses _ _ _ _ _ _ (mem_rights.mpr (List.mem_append_left _ hanswered))
  obtain ⟨hsend, hrecv, hindexes⟩ := handshake_agrees hdh hpub hbuilt hresponse hopened hmsg1 hmsg2.symm
  refine ⟨slot, first, init, y, resp', hanswered, ?_, ⟨hsend, hrecv⟩, hindexes⟩
  exact ⟨_, List.mem_filterMap.mpr ⟨_, mem_rights.mpr hanswered, rfl⟩, rfl, _, mem_began hbegan, hmsg1.symm⟩

end

/-- **Key agreement.** -/
theorem peers_agree (hdh : ∀ a b, C.x25519 a (C.publicKey b) = C.x25519 b (C.publicKey a))
    (h : (peersLogged C ctx n).Reachable ((c, s), log)) (hideal : Ideal ctx log) :
    ∀ x ∈ c.core.held, ∃ slot first init y resp hs resp',
      Sum.inr (ServerNote.answered slot first ctx.pskKey init y resp) ∈ log ∧ MadeForClient log y ∧
        Sum.inl (ClientNote.opened x.ident hs resp') ∈ log ∧ x.ident.Pairs y ∧
        (resp' = resp → x.remoteIndex = y.localIndex ∧ x.localIndex = y.remoteIndex) := by
  intro x hx
  obtain ⟨hs, resp', hopened⟩ := (client_traced (C := C) h.left).made x hx
  have hmem := mem_lefts.mp hopened
  obtain ⟨before, after, hlog⟩ := List.append_of_mem hmem
  obtain ⟨slot, first, init, y, resp, hanswered, hmade, hpairs, hindexes⟩ := opened_agrees hdh h hideal hlog
  refine ⟨slot, first, init, y, resp, hs, resp', ?_, ?_, hmem, hpairs, hindexes⟩
  · rw [hlog]
    exact List.mem_append_left _ hanswered
  · rw [hlog]
    exact hmade.append _

/-- The log ends with a packet on a session made for the client that is not the first one of its entry. -/
def sealedLater (log : List (PeersNote n)) : Bool :=
  match log.getLast? with
  | some (.inr (.sealed _ y _ _ _)) => MadeForClient log y && (rights log).all fun a =>
      match a with
      | .answered _ first _ _ z _ => !(first && z == y)
      | _ => true
  | _ => false

/-- Both sides behind a handshake and a rekey. -/
theorem toyPeers_rekeyed : ∃ c s log, (peersLogged sumCrypto toyPeerCtx 3).Reachable ((c, s), log) ∧
    Ideal toyPeerCtx log ∧ FreshKeys (clientSide log) ∧ FreshKeys (serverSide log) ∧
      c.core.cur.valid = true ∧ sealedLater log = true ∧ (clientSide log).length + (serverSide log).length = 11 := by
  obtain ⟨⟨⟨c, s⟩, log⟩, hreach, hlog⟩ := Machine.runUnder_reachable (M := peersLogged sumCrypto toyPeerCtx 3)
    (C := fun _ _ => True) (l := peersRekeys) (s := ((clientInit toyClientConfig 100, toyServer 3 .udp toyDb), []))
    (p := fun x => decide (Ideal toyPeerCtx x.2 ∧ FreshKeys (clientSide x.2) ∧ FreshKeys (serverSide x.2) ∧
      x.1.1.core.cur.valid = true ∧ sealedLater x.2 = true ∧
        (clientSide x.2).length + (serverSide x.2).length = 11)) toyPeers_start (by decide +kernel)
  exact ⟨c, s, log, hreach, of_decide_eq_true hlog⟩

theorem peers_agree_rekeyed : ∃ (c : ClientLoop) (s : Server 3) (log : List (PeersNote 3)),
    (peersLogged sumCrypto toyPeerCtx 3).Reachable ((c, s), log) ∧ c.core.cur.valid = true ∧
      ∃ y, MadeForClient log y ∧ c.core.cur.ident.Pairs y := by
  obtain ⟨c, s, log, hreach, hideal, -, -, hvalid, -⟩ := toyPeers_rekeyed
  obtain ⟨-, -, -, y, -, -, -, -, hmade, -, hpairs, -⟩ :=
    peers_agree sumCrypto_dh hreach hideal c.core.cur ⟨hvalid, Or.inl rfl⟩
  exact ⟨c, s, log, hreach, hvalid, y, hmade, hpairs⟩

/-! ## Rekeying -/

section

variable {before after : List (PeersNote n)}

/-- A packet that the client sealed before, on a session it opened before that. -/
theorem sealed_opened (h : (peersLogged C ctx n).Reachable ((c, s), log)) (hlog : log = before ++ after) {key : Key}
    {packet : Bytes} (hsealed : Sealed (clientSide before) key packet) :
    ∃ x hs resp, Sum.inl (ClientNote.opened x hs resp) ∈ before ∧ x.kSend = key := by
  obtain ⟨x, count, plain, hmem, hkey⟩ := sealed_iff.mp hsealed
  obtain ⟨pre, post, hpre⟩ := List.append_of_mem (mem_lefts.mp (clientSide_sealed hmem))
  have hentries := (client_traced (C := C) h.left).entries
  rw [hlog, hpre, List.append_assoc, List.cons_append, lefts_append, lefts_inl] at hentries
  obtain ⟨hs, resp, hopened⟩ := Each.entry hentries
  refine ⟨x, hs, resp, ?_, hkey⟩
  rw [hpre]
  exact List.mem_append_left _ (mem_lefts.mp hopened)

end

/-- **Rekeying**: when the server sends on a session made for the client, that is the first one of its entry, or the
client has opened it. -/
theorem peers_rekey (hdh : ∀ a b, C.x25519 a (C.publicKey b) = C.x25519 b (C.publicKey a))
    (h : (peersLogged C ctx n).Reachable ((c, s), log)) (hideal : Ideal ctx log) (hfresh : FreshKeys (serverSide log))
    {before after : List (PeersNote n)} {slot : Fin n} {y : SessionId} {count : ℕ} {plain packet : Bytes}
    (hlog : log = before ++ .inr (.sealed slot y count plain packet) :: after) (hmade : MadeForClient log y) :
    (∃ key init resp, Sum.inr (ServerNote.answered slot true key init y resp) ∈ before) ∨
      ∃ x hs resp, Sum.inl (ClientNote.opened x hs resp) ∈ before ∧ x.Pairs y := by
  have hseals := (server_confirmed h.right).seals
  rw [hlog, rights_append, rights_inr] at hseals
  rcases Each.entry hseals with ⟨key, init, resp, hmem⟩ | ⟨packet', plain', htaken⟩
  · exact Or.inl ⟨key, init, resp, mem_rights.mp hmem⟩
  -- the client sealed a packet with the key of `y`, so it had a session with it, and that is paired with `y`
  obtain ⟨pre, post, hpre⟩ := List.append_of_mem (mem_rights.mp htaken)
  have htakenAt : log = pre ++ .inr (.taken slot .next y packet' plain') ::
      (post ++ .inr (.sealed slot y count plain packet) :: after) := by rw [hlog, hpre]; simp
  have hsealed : Sealed (clientSide pre) y.kRecv packet' := hideal.entry htakenAt hmade
  obtain ⟨x, hs, resp, hopened, hkey⟩ := sealed_opened h htakenAt hsealed
  obtain ⟨pre', post', hpre'⟩ := List.append_of_mem hopened
  have hopenedAt : log = pre' ++ .inl (.opened x hs resp) :: (post' ++ .inr (.taken slot .next y packet' plain') ::
      (post ++ .inr (.sealed slot y count plain packet) :: after)) := by rw [htakenAt, hpre']; simp
  obtain ⟨-, -, -, y', -, -, hmade', hpairs, -⟩ := opened_agrees hdh h hideal hopenedAt
  have hmade' : MadeForClient log y' := by
    rw [hopenedAt]
    exact hmade'.append _
  obtain rfl : y' = y := hfresh.eq hmade'.opened hmade.opened (Or.inr (hpairs.1.symm.trans hkey))
  refine Or.inr ⟨x, hs, resp, ?_, hpairs⟩
  rw [hpre]
  exact List.mem_append_left _ hopened

theorem sealedLater_iff (h : sealedLater log = true) : ∃ before slot y count plain packet,
    log = before ++ [.inr (.sealed slot y count plain packet)] ∧ MadeForClient log y ∧
      ∀ key init resp, Sum.inr (ServerNote.answered slot true key init y resp) ∉ before := by
  unfold sealedLater at h
  split at h
  · rename_i slot y count plain packet hlast
    rw [Bool.and_eq_true] at h
    have hlog := List.dropLast_append_getLast? _ (Option.mem_def.mpr hlast)
    refine ⟨_, slot, y, count, plain, packet, hlog.symm, of_decide_eq_true h.1, fun key init resp hmem => ?_⟩
    have hrights : ServerNote.answered slot true key init y resp ∈ rights log := by
      rw [mem_rights, ← hlog]
      exact List.mem_append_left _ hmem
    simpa using List.all_eq_true.mp h.2 _ hrights
  · cases h

theorem peers_rekey_rekeyed : ∃ (c : ClientLoop) (s : Server 3) (before : List (PeersNote 3)) (slot : Fin 3) (y : SessionId)
    (count : ℕ) (plain packet : Bytes), (peersLogged sumCrypto toyPeerCtx 3).Reachable
      ((c, s), before ++ [.inr (.sealed slot y count plain packet)]) ∧
      ∃ x hs resp, Sum.inl (ClientNote.opened x hs resp) ∈ before ∧ x.Pairs y := by
  obtain ⟨c, s, log, hreach, hideal, -, hfresh, -, hlater, -⟩ := toyPeers_rekeyed
  obtain ⟨before, slot, y, count, plain, packet, hlog, hmade, hlate⟩ := sealedLater_iff hlater
  refine ⟨c, s, before, slot, y, count, plain, packet, hlog ▸ hreach, ?_⟩
  exact (peers_rekey sumCrypto_dh hreach hideal hfresh hlog hmade).resolve_left
    fun ⟨key, init, resp, hmem⟩ => hlate key init resp hmem

/-! ## Packets -/

theorem SealedAs.takenAs {x y : SessionId} {count : ℕ} {plain plain' packet : Bytes}
    (h : SealedAs C.noise x count plain packet) (htaken : TakenAs C.noise y packet plain') (hkey : x.kSend = y.kRecv) :
    plain' = plain := by
  obtain ⟨s, rfl, rfl, rfl⟩ := h.packet
  have hlimit := h.limit
  have hn : s.sendN < 2 ^ 64 := by
    have : V2_REJECT_AFTER_MSGS = 2 ^ 60 := rfl
    omega
  unfold TakenAs at htaken
  rw [dataHeader_counter _ _ hn, List.take_left' (dataHeader_length s), List.drop_left' (dataHeader_length s), ← hkey]
    at htaken
  exact Option.some.inj (htaken.symm.trans (C.aeadRead_aeadWrite _ _ _ _))

def SessionNote.session : SessionNote → SessionId
  | .opened x | .sealed x _ _ _ | .taken x _ _ => x

/-- The packets that the client took, and those that the server took on sessions it made for the client. -/
def clientTook (log : List (PeersNote n)) : List (Key × Bytes × Bytes) := (clientSide log).filterMap SessionNote.received

def serverTook (log : List (PeersNote n)) : List (Key × Bytes × Bytes) :=
  ((serverSide log).filter fun a => MadeForClient log a.session).filterMap SessionNote.received

section

variable {side : List SessionNote}

theorem received_nodup (h : (side.filterMap SessionNote.counter).Nodup) : (side.filterMap SessionNote.received).Nodup := by
  have hmap : side.filterMap SessionNote.counter =
      (side.filterMap SessionNote.received).map fun p => (p.1, readLe64 p.2.1 9) := by
    rw [List.map_filterMap]
    congr 1
    funext a
    cases a <;> rfl
  rw [hmap] at h
  exact h.of_map _

theorem mem_received {p : Key × Bytes × Bytes} (h : p ∈ side.filterMap SessionNote.received) :
    ∃ x packet plain, SessionNote.taken x packet plain ∈ side ∧ p = (x.kRecv, packet, plain) := by
  obtain ⟨a, ha, hp⟩ := List.mem_filterMap.mp h
  cases a with
  | taken x packet plain =>
    cases hp
    exact ⟨x, packet, plain, ha, rfl⟩
  | opened _ => cases hp
  | sealed _ _ _ _ => cases hp

theorem sent_of_taken {other : List SessionNote} {y : SessionId} {packet plain : Bytes}
    (hsealed : Sealed other y.kRecv packet) (htaken : TakenAs C.noise y packet plain)
    (has : ∀ x count plain packet, SessionNote.sealed x count plain packet ∈ other → SealedAs C.noise x count plain packet) :
    (y.kRecv, packet, plain) ∈ other.filterMap SessionNote.sent := by
  obtain ⟨x, count, plain', hmem, hkey⟩ := sealed_iff.mp hsealed
  obtain rfl := (has _ _ _ _ hmem).takenAs htaken hkey
  exact List.mem_filterMap.mpr ⟨_, hmem, by rw [← hkey]; rfl⟩

end

theorem clientSide_append (log more : List (PeersNote n)) : clientSide (log ++ more) = clientSide log ++ clientSide more := by
  unfold clientSide
  rw [lefts_append, List.filterMap_append]

theorem serverSide_append (log more : List (PeersNote n)) : serverSide (log ++ more) = serverSide log ++ serverSide more := by
  unfold serverSide
  rw [rights_append, List.map_append]

/-- **Delivery**: what the server takes for the client's the client sealed, and what the client takes the server
sealed, packet and content, and none of them more often. -/
theorem peers_deliver (hn : n ≤ 65534) (h : (peersLogged C ctx n).Reachable ((c, s), log)) (hideal : Ideal ctx log)
    (hclient : FreshKeys (clientSide log)) (hserver : FreshKeys (serverSide log)) :
    (serverTook log).Subperm ((clientSide log).filterMap SessionNote.sent) ∧
      (clientTook log).Subperm ((serverSide log).filterMap SessionNote.sent) := by
  have hC : Booked C.noise (clientSide log) c.core.held := (client_booked h.left hclient).booked
  have hS : Booked C.noise (serverSide log) s.held := server_booked hn h.right hserver
  refine ⟨List.subperm_of_subset ?_ fun p hp => ?_, List.subperm_of_subset (received_nodup hC.counters) fun p hp => ?_⟩
  · exact (received_nodup hS.counters).sublist (List.filter_sublist.filterMap _)
  · obtain ⟨y, packet, plain, hmem, rfl⟩ := mem_received hp
    obtain ⟨htaken, hmade⟩ := List.mem_filter.mp hmem
    obtain ⟨a, ha, hnote⟩ := List.mem_map.mp htaken
    cases a with
    | answered _ _ _ _ _ _ => cases hnote
    | sealed _ _ _ _ _ => cases hnote
    | taken slot w y packet plain =>
      cases hnote
      obtain ⟨before, after, hlog⟩ := List.append_of_mem (mem_rights.mp ha)
      have hsealed : Sealed (clientSide before) y.kRecv packet := hideal.entry hlog (of_decide_eq_true hmade)
      refine sent_of_taken ?_ (hS.takenAs _ _ _ htaken) hC.sealedAs
      rw [hlog, clientSide_append]
      exact hsealed.append _
  · obtain ⟨x, packet, plain, hmem, rfl⟩ := mem_received hp
    obtain ⟨a, ha, hnote⟩ := List.mem_filterMap.mp hmem
    cases a with
    | init _ _ _ => cases hnote
    | opened _ _ _ => cases hnote
    | sealed _ _ _ _ => cases hnote
    | taken x packet plain =>
      cases hnote
      obtain ⟨before, after, hlog⟩ := List.append_of_mem (mem_lefts.mp ha)
      have hsealed : Sealed (serverSide before) x.kRecv packet := hideal.entry hlog
      refine sent_of_taken ?_ (hC.takenAs _ _ _ hmem) hS.sealedAs
      rw [hlog, serverSide_append]
      exact hsealed.append _

theorem peers_deliver_rekeyed : ∃ (c : ClientLoop) (s : Server 3) (log : List (PeersNote 3)),
    (peersLogged sumCrypto toyPeerCtx 3).Reachable ((c, s), log) ∧
      (clientSide log).length + (serverSide log).length = 11 ∧
      (serverTook log).Subperm ((clientSide log).filterMap SessionNote.sent) ∧
        (clientTook log).Subperm ((serverSide log).filterMap SessionNote.sent) := by
  obtain ⟨c, s, log, hreach, hideal, hclient, hserver, -, -, hlen⟩ := toyPeers_rekeyed
  exact ⟨c, s, log, hreach, hlen, peers_deliver (by decide) hreach hideal hclient hserver⟩

end Camex
