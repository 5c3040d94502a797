import Camex.Server.Notes

/-!
# How sessions begin, and when the server sends on them

* `Response`: a RESP with its session: message 1 read with a PSK, message 2 written behind it; every RESP of a run is
  one (`server_responses`);
* `Confirmed`: a session of an entry that is its first one, or on which its client sent a packet;
  `server_confirmed`: the server sends on no other.
-/

namespace Camex

open Lib

variable {n : ℕ} {Hs : Type} {N : Noise Hs}

/-! ## Answers -/

variable (N) in
/-- A RESP to an INIT and the session made, from the state before message 1. -/
inductive Response (base : Hs) (key : Key) (init : Bytes) : SessionId → Bytes → Prop
  | mk {es seed : Key} {payload reply msg : Bytes} {hs hs' : Hs} (index : BitVec 32)
      (hes : N.msg1Es base (initMessage1 init) = some es)
      (hread : N.readMsg1 base key es (initMessage1 init) INIT_PAYLOAD_MAX = some (payload, hs))
      (hwrite : N.writeMsg2 hs seed reply RESP_MAX = some (msg, hs')) :
      Response base key init ⟨index, initClientIndex init, (N.split hs').2, (N.split hs').1⟩
        (CAMEX_MAGIC ++ V2_TYPE_RESP :: (v2WriteU32 index ++ v2WriteU32 (initClientIndex init) ++ msg))

theorem initAuthenticate_reads {s : Server n} {env : PacketEnv} {pkt : Bytes} {src : SockAddr} {r : Register} {hs : Hs}
    (h : (initAuthenticate N s env pkt src).2 = some (r, hs)) :
    ∃ es payload, N.msg1Es (initBase N s.conf.ctx) (initMessage1 pkt) = some es ∧
      N.readMsg1 (initBase N s.conf.ctx) r.key es (initMessage1 pkt) INIT_PAYLOAD_MAX = some (payload, hs) := by
  unfold initAuthenticate at h
  dsimp only at h
  split at h
  · cases h
  · split at h
    · cases h
    · split at h
      · cases h
      · rename_i es hes
        split at h
        · cases h
        · rename_i key payload hs' hopened
          split at h
          · cases h
          · rename_i r' hr'
            have hkey := (readRegister_some hr').1
            obtain ⟨-, -, -, -, hread⟩ := keyTrials_some N _ hopened
            split at h
            · cases h
              exact ⟨es, payload, hes, by rw [hkey]; exact hread⟩
            · cases h

theorem initMessage2_made {env : PacketEnv} {c : ServerClient} {i : Fin n} {pkt : Bytes} {hs : Hs} {reply : CStr}
    {m : Message2} (h : initMessage2 N env c i pkt hs reply = some m) :
    ∃ seed msg hs', N.writeMsg2 hs seed reply RESP_MAX = some (msg, hs') ∧ m.keys = N.split hs' ∧
      m.packet = CAMEX_MAGIC ++ V2_TYPE_RESP :: (v2WriteU32 m.index ++ v2WriteU32 (initClientIndex pkt) ++ msg) := by
  unfold initMessage2 at h
  split at h
  · cases h
  · split at h
    · cases h
    · split at h
      · cases h
      · rename_i hwrite
        cases h
        exact ⟨_, _, _, hwrite, rfl, rfl⟩

theorem serverHandleInit_response {s s' : Server n} {env : PacketEnv} {pkt : Bytes} {src : SockAddr} {fd : ℤ}
    {slot : Fin n} {fresh : Bool} {r : Register} {reply : CStr} {packet : Bytes}
    (h : serverHandleInit N s env pkt src fd = (s', .accepted slot fresh r reply packet)) :
    Response N (initBase N s.conf.ctx) r.key pkt
      ((s'.clients slot).session (if firstSession s slot fresh then .cur else .next)).ident packet := by
  obtain ⟨s₁, e, pool, c, hs, m, ha, rfl, rfl, rfl, hauth⟩ := serverHandleInit_authenticated h
  obtain ⟨es, payload, hes, hread⟩ := initAuthenticate_reads hauth
  obtain ⟨seed, msg, hs', hwrite, hkeys, hpacket⟩ := initMessage2_made ha.message
  rw [ha.taken.place, ha.accepted.session, if_pos rfl, hkeys, hpacket]
  exact .mk m.index hes hread hwrite

/-- Every RESP noted is made as `Response` says. -/
def Responses (N : Noise Hs) (base : Hs) (log : List (ServerNote n)) : Prop :=
  ∀ slot first key init x resp, ServerNote.answered slot first key init x resp ∈ log → Response N base key init x resp

theorem sealNotes_not_answered {i slot : Fin n} {x : Session} {plain : Bytes} {size : ℕ} {first : Bool} {key : Key}
    {init resp : Bytes} {y : SessionId} : ServerNote.answered slot first key init y resp ∉ sealNotes N i x plain size := by
  unfold sealNotes
  split
  · exact List.not_mem_nil
  · simp

theorem deliverNotes_not_answered {s : Server n} {i slot : Fin n} {w : Which} {plain : Bytes} {first : Bool} {key : Key}
    {init resp : Bytes} {y : SessionId} : ServerNote.answered slot first key init y resp ∉ deliverNotes N s i w plain := by
  unfold deliverNotes
  dsimp only
  split
  · exact sealNotes_not_answered
  · split
    · exact List.not_mem_nil
    · split
      · exact List.not_mem_nil
      · split
        · exact List.not_mem_nil
        · unfold forwardNotes
          split
          · exact List.not_mem_nil
          · exact sealNotes_not_answered

theorem serverNotes_answered {s : Server n} {e : Event n} {slot : Fin n} {first : Bool} {key : Key} {init resp : Bytes}
    {x : SessionId} (h : ServerNote.answered slot first key init x resp ∈ serverNotes N s e) :
    Response N (initBase N s.conf.ctx) key init x resp := by
  unfold serverNotes at h
  cases hcall : eventCall s e with
  | none =>
    rw [hcall] at h
    cases e with
    | tun packet env =>
      dsimp only at h
      unfold tunNotes at h
      split at h
      · cases h
      · unfold forwardNotes at h
        split at h
        · cases h
        · exact absurd h sealNotes_not_answered
    | _ => cases h
  | some c =>
    rw [hcall] at h
    dsimp only at h
    unfold packetNotes at h
    dsimp only at h
    split at h
    · generalize hinit : serverHandleInit N c.server c.env c.packet c.src c.fd = q at h
      obtain ⟨s', o⟩ := q
      cases o with
      | refused => cases h
      | failed slot fresh => cases h
      | accepted slot' fresh r reply packet =>
        cases List.mem_singleton.mp h
        rw [← (eventCall_reread hcall).conf]
        exact serverHandleInit_response hinit
    · split at h
      · unfold dataNotes at h
        split at h
        · cases h
        · split at h
          · cases h
          · rcases List.mem_cons.mp h with h | h
            · cases h
            · exact absurd h deliverNotes_not_answered
      · cases h

/-- The RESPs of a run, from the key pair that the server was started with. -/
theorem server_responses {s : Server n} {log : List (ServerNote n)} (h : (serverLogged N n).Reachable (s, log)) :
    Responses N (initBase N s.conf.ctx) log := by
  refine h.logged_invariant (I := fun s log => Responses N (initBase N s.conf.ctx) log) (fun s _ => nofun) ?_
  intro s log e t _ hs _ hnext slot first key init x resp hmem
  rw [serverMachine_next hnext, (serverStep_case N s e).initBase]
  rcases List.mem_append.mp hmem with hmem | hmem
  · exact hs _ _ _ _ _ _ hmem
  · exact serverNotes_answered hmem

/-! ## Confirmed sessions -/

/-- The session is the first one of its entry, or its client sent on it when it was `next`. -/
def Confirmed (log : List (ServerNote n)) (i : Fin n) (x : SessionId) : Prop :=
  (∃ key init resp, ServerNote.answered i true key init x resp ∈ log) ∨
    ∃ packet plain, ServerNote.taken i .next x packet plain ∈ log

def SealsConfirmed (log : List (ServerNote n)) : ServerNote n → Prop
  | .sealed i x _ _ _ => Confirmed log i x
  | _ => True

def CurConfirmed (log : List (ServerNote n)) (i : Fin n) (c : ServerClient) : Prop :=
  c.cur.valid = true → Confirmed log i c.cur.ident

section

variable {log more : List (ServerNote n)} {i j : Fin n} {c c' : ServerClient}

theorem Confirmed.append {x : SessionId} (h : Confirmed log i x) (more : List (ServerNote n)) :
    Confirmed (log ++ more) i x := by
  rcases h with ⟨key, init, resp, h⟩ | ⟨packet, plain, h⟩
  · exact Or.inl ⟨key, init, resp, List.mem_append_left _ h⟩
  · exact Or.inr ⟨packet, plain, List.mem_append_left _ h⟩

theorem CurConfirmed.append (h : CurConfirmed log i c) (more : List (ServerNote n)) : CurConfirmed (log ++ more) i c :=
  fun hv => (h hv).append more

theorem Session.Same.ident {x y : Session} (h : x.Same y) : y.ident = x.ident := by
  rw [h]
  rfl

theorem Retained.curConfirmed (h : Retained c c') (hc : CurConfirmed log i c) : CurConfirmed log i c' := by
  intro hv
  rw [h.cur.ident]
  exact hc (h.cur.valid.symm.trans hv)

theorem Promoted.curConfirmed {packet plain : Bytes} (h : Promoted c c')
    (htaken : ServerNote.taken i .next c.next.ident packet plain ∈ log) : CurConfirmed log i c' := by
  intro _
  rw [h.cur.ident]
  exact Or.inr ⟨packet, plain, htaken⟩

theorem Vacant.curConfirmed (h : Vacant c) : CurConfirmed log i c := by
  intro hv
  rw [h.cur] at hv
  cases hv

/-! ## What is sealed -/

theorem sealNotes_confirmed {plain : Bytes} {size : ℕ} (hc : CurConfirmed log i c) :
    EachAfter SealsConfirmed log (sealNotes N i c.cur plain size) := by
  unfold sealNotes
  split
  · trivial
  · rename_i hseal
    exact ⟨hc (sessionSeal_session N hseal).1, trivial⟩

theorem forwardNotes_confirmed {s : Server n} {packet : Bytes} {dst : Ip}
    (hs : ∀ i, CurConfirmed log i (s.clients i)) : EachAfter SealsConfirmed log (forwardNotes N s packet dst) := by
  unfold forwardNotes
  split
  · trivial
  · exact sealNotes_confirmed (hs _)

theorem deliverNotes_confirmed {s : Server n} {w : Which} {plain : Bytes} (hs : ∀ i, CurConfirmed log i (s.clients i)) :
    EachAfter SealsConfirmed log (deliverNotes N s i w plain) := by
  unfold deliverNotes
  dsimp only
  split
  · exact sealNotes_confirmed (hs i)
  · split
    · trivial
    · split
      · trivial
      · split
        · trivial
        · exact forwardNotes_confirmed hs

end

/-! ## Runs -/

theorem dataReceived_confirmed {s : Server n} {log : List (ServerNote n)} (hs : ∀ i, CurConfirmed log i (s.clients i))
    {i : Fin n} {w : Which} {x : Session} {pkt plain : Bytes}
    (hopen : sessionOpen N ((s.clients i).session w) pkt TUN_PACKET_MAX = some (plain, x)) (src : SockAddr) (fd : ℤ)
    (len : ℕ) (j : Fin n) : CurConfirmed (log ++ [.taken i w ((s.clients i).session w).ident pkt plain]) j
      ((dataReceived s i w x src fd len).clients j) := by
  by_cases hj : j = i
  · subst hj
    rw [show (dataReceived s j w x src fd len).clients j = dataReceive (s.clients j) w x src fd s.now len from
      Server.setClient_self ..]
    rcases dataReceive_changed hopen src fd s.now len with ⟨-, h⟩ | ⟨rfl, h⟩
    · exact h.curConfirmed ((hs j).append _)
    · have htaken : ServerNote.taken j .next ((s.clients j).session .next).ident pkt plain ∈
          log ++ [.taken j .next ((s.clients j).session .next).ident pkt plain] :=
        List.mem_append_right _ (List.mem_singleton_self _)
      exact h.curConfirmed htaken
  · rw [show (dataReceived s i w x src fd len).clients j = s.clients j from Server.setClient_of_ne _ _ _ hj]
    exact (hs j).append _

theorem SameButSent.curConfirmed {log : List (ServerNote n)} {i : Fin n} {c c' : ServerClient} (h : SameButSent c c')
    (hc : CurConfirmed log i c) : CurConfirmed log i c' := h.retained.curConfirmed hc

/-- **A DATA packet.** -/
theorem serverHandleData_confirmed {s : Server n} {log : List (ServerNote n)}
    (hs : ∀ i, CurConfirmed log i (s.clients i)) (env : PacketEnv) (pkt : Bytes) (src : SockAddr) (fd : ℤ) :
    (∀ j, CurConfirmed (log ++ dataNotes N s pkt src fd) j ((serverHandleData N s env pkt src fd).1.clients j)) ∧
      EachAfter SealsConfirmed log (dataNotes N s pkt src fd) := by
  unfold serverHandleData dataNotes
  cases dataSession s pkt fd with
  | none => exact ⟨fun j => (hs j).append _, trivial⟩
  | some q =>
    obtain ⟨i, w⟩ := q
    dsimp only
    cases hopen : sessionOpen N ((s.clients i).session w) pkt TUN_PACKET_MAX with
    | none => exact ⟨fun j => (hs j).append _, trivial⟩
    | some y =>
      obtain ⟨plain, x⟩ := y
      dsimp only
      have hmid := dataReceived_confirmed hs hopen src fd plain.length
      refine ⟨fun j => ?_, trivial, deliverNotes_confirmed hmid⟩
      have hlog : log ++ .taken i w ((s.clients i).session w).ident pkt plain ::
          deliverNotes N (dataReceived s i w x src fd plain.length) i w plain =
            log ++ [.taken i w ((s.clients i).session w).ident pkt plain] ++
              deliverNotes N (dataReceived s i w x src fd plain.length) i w plain := by simp
      rw [hlog]
      exact (((dataDeliver_delivered _ env i w plain).entry j).curConfirmed (hmid j)).append _

/-- **An INIT**: a session that becomes current at once is its entry's first one. -/
theorem serverHandleInit_confirmed {s : Server n} {log : List (ServerNote n)}
    (hs : ∀ i, CurConfirmed log i (s.clients i)) (env : PacketEnv) (pkt : Bytes) (src : SockAddr) (fd : ℤ) (j : Fin n) :
    CurConfirmed (log ++ initNotes s (serverHandleInit N s env pkt src fd).1 pkt
      (serverHandleInit N s env pkt src fd).2) j ((serverHandleInit N s env pkt src fd).1.clients j) := by
  have hfate := serverHandleInit_fate (N := N) s env pkt src fd j
  generalize serverHandleInit N s env pkt src fd = q at hfate
  obtain ⟨s', o⟩ := q
  dsimp only at hfate ⊢
  generalize hc' : s'.clients j = c' at hfate
  have hold := (hs j).append (initNotes s s' pkt o)
  cases hfate with
  | alone h _ => exact (Retained.of_core h).curConfirmed hold
  | adopted hc _ _ _ _ _ _ _ _ _ _ =>
    rw [hc]
    exact vacant_wiped.curConfirmed
  | unused hc _ _ _ _ _ =>
    rw [hc]
    exact vacant_wiped.curConfirmed
  | restored r _ _ ht h _ =>
    intro hv
    have hbefore := h.session .cur hv
    rw [show c'.cur = c'.session .cur from rfl, hbefore] at hv ⊢
    have htaken := (ht.session .cur hv).2
    rw [htaken] at hv ⊢
    exact hold hv
  | @accepted r hr _ fresh before ht m h reply ho =>
    subst ho
    intro hv
    have hsession := h.session .cur
    cases hfirst : firstSession s j fresh with
    | true =>
      refine Or.inl ⟨r.key, pkt, m.packet, List.mem_append_right _ ?_⟩
      rw [initNotes, hfirst, hc']
      exact List.mem_singleton_self _
    | false =>
      have hplace := ht.place
      rw [hfirst] at hplace
      rw [if_neg (by rw [← hplace]; decide)] at hsession
      rw [show c'.cur = c'.session .cur from rfl, hsession] at hv ⊢
      have htaken := (ht.session .cur hv).2
      rw [htaken] at hv ⊢
      exact hold hv

/-- The current sessions are confirmed, and so was every session that a packet was sealed on. -/
structure ServerConfirmed (s : Server n) (log : List (ServerNote n)) : Prop where
  cur : ∀ i, CurConfirmed log i (s.clients i)
  seals : Each SealsConfirmed log

theorem initNotes_confirmed {s s' : Server n} {log : List (ServerNote n)} {pkt : Bytes} {o : InitOutcome n} :
    EachAfter SealsConfirmed log (initNotes s s' pkt o) := by
  cases o with
  | refused => trivial
  | failed slot fresh => trivial
  | accepted slot fresh r reply packet => exact ⟨trivial, trivial⟩

theorem quietStep_keptOrVacated (s : Server n) (e : Event n) (j : Fin n) :
    KeptOrVacated (s.clients j) ((quietStep N s e).clients j) := by
  by_cases hreload : ∃ file mem grow, e = .reload file mem grow
  · obtain ⟨file, mem, grow, rfl⟩ := hreload
    show KeptOrVacated _ ((serverReload N s file mem grow).clients j)
    rcases serverReload_cases (N := N) s file mem grow with h | ⟨db, conf, -, -, hclients, -⟩
    · rw [h]
      exact .refl _
    · rw [hclients]
      exact (serverRevalidate_entry grow { s with conf := conf } j).keptOrVacated
  · exact (quietStep_noPacket fun file mem grow h => hreload ⟨file, mem, grow, h⟩).entry j

theorem serverStep_confirmed {s : Server n} {log : List (ServerNote n)} (h : ServerConfirmed s log) (e : Event n) :
    ServerConfirmed (serverStep N s e).1 (log ++ serverNotes N s e) := by
  unfold serverStep serverNotes
  cases hcall : eventCall s e with
  | some c =>
    have hc : ∀ i, CurConfirmed log i (c.server.clients i) := fun i =>
      ((eventCall_reread hcall).retained i).curConfirmed (h.cur i)
    dsimp only
    unfold packetNotes serverHandlePacket
    dsimp only
    split
    · exact ⟨serverHandleInit_confirmed hc c.env c.packet c.src c.fd, each_append.mpr ⟨h.seals, initNotes_confirmed⟩⟩
    · split
      · obtain ⟨hcur, hseals⟩ := serverHandleData_confirmed (N := N) hc c.env c.packet c.src c.fd
        exact ⟨hcur, each_append.mpr ⟨h.seals, hseals⟩⟩
      · exact ⟨fun j => (hc j).append _, each_append.mpr ⟨h.seals, trivial⟩⟩
  | none =>
    dsimp only
    refine ⟨fun j => ?_, each_append.mpr ⟨h.seals, ?_⟩⟩
    · cases quietStep_keptOrVacated (N := N) s e j with
      | retained hr => exact hr.curConfirmed ((h.cur j).append _)
      | vacated hv => exact hv.curConfirmed
    · cases e with
      | tun packet env =>
        show EachAfter SealsConfirmed log (tunNotes N s packet)
        unfold tunNotes
        split
        · trivial
        · exact forwardNotes_confirmed h.cur
      | _ => trivial

/-- **The server sends on confirmed sessions only.** -/
theorem server_confirmed {s : Server n} {log : List (ServerNote n)} (h : (serverLogged N n).Reachable (s, log)) :
    ServerConfirmed s log := by
  refine h.logged_invariant (I := ServerConfirmed) (fun s hs => ⟨fun i hv => ?_, trivial⟩) fun s log e t _ hs _ hnext => ?_
  · obtain ⟨cfg, db, ctx, mem, ks, now, leases, -, rfl⟩ := hs
    cases hv
  · rw [serverMachine_next hnext]
    exact serverStep_confirmed hs e

end Camex
