import Camex.Concrete
import Camex.Server.InitEntry

/-!
# Handshakes of a live client are accepted once

`acceptedFor i` lists the INITs that a run accepts for the client of slot `i`. Along a run on which the
entry stays live and every handshake meets `TimestampChecked`, their timestamps increase
(`acceptedFor_increasing`): the entry's `hs_ts` does not decrease, and an INIT for the client is accepted
on this entry and above its `hs_ts` only.
-/

namespace Camex

open Lib

variable {n : ℕ} {Hs : Type} {N : Noise Hs}

def LiveAt (s : Server n) (i : Fin n) : Prop := (s.clients i).Live (serverClientTimeout s.conf) s.now

/-- A handshake for the client of an entry: of its ID for an auto client, for its address for a manual
one. -/
def ForClient (c : ServerClient) (r : Register) : Prop :=
  r.auto = c.autoClient ∧
    if r.auto then strcaseeq c.clientId r.clientId = true else inetPton r.localIp = some c.ipBe

/-- A handshake that lands on a live entry is compared with the timestamp of this entry, under its key,
and a handshake for a live client lands on its entry or is rejected. -/
def TimestampChecked (s : Server n) (r : Register) (src : SockAddr) (fd : ℤ) : Prop :=
  ∀ i, LiveAt s i →
    (LeadsTo s r src fd i →
      registerOwner s.clients r = some i ∧ (s.clients i).pskKey = r.key) ∧
    (ForClient (s.clients i) r → LeadsTo s r src fd i ∨ entryChoice s r src fd = .rejected)

instance (s : Server n) (i : Fin n) : Decidable (LiveAt s i) := by
  unfold LiveAt
  infer_instance

instance (c : ServerClient) (r : Register) : Decidable (ForClient c r) := by
  unfold ForClient
  infer_instance

instance (s : Server n) (r : Register) (src : SockAddr) (fd : ℤ) :
    Decidable (TimestampChecked s r src fd) := by
  unfold TimestampChecked
  infer_instance

/-! ## What a run accepts -/

variable (N)

/-- The INIT an event brings, when it is accepted for the client of slot `i`. -/
def acceptedNow (i : Fin n) (s : Server n) (e : Event n) : Option (Bytes × Register) :=
  match eventCall s e, (serverStep N s e).2 with
  | some c, some (.init (.accepted _ _ r _ _)) =>
    if ForClient (c.server.clients i) r then some (c.packet, r) else none
  | _, _ => none

/-- The INITs a run accepts for the client of slot `i`, in the order of their acceptance. -/
def acceptedFor (i : Fin n) : Server n → List (Event n) → List (Bytes × Register)
  | _, [] => []
  | s, e :: es => (acceptedNow N i s e).toList ++ acceptedFor i (serverStep N s e).1 es

variable {N}

/-! ## One handshake -/

section Handshake

variable {s : Server n} {r : Register} {src : SockAddr} {fd : ℤ} {j : Fin n}

/-- A handshake that is not stale for a live client under its key is newer than its last one. -/
theorem Passes.newer (hpass : Passes s r) (hlive : LiveAt s j) (howner : registerOwner s.clients r = some j)
    (hkey : (s.clients j).pskKey = r.key) : (s.clients j).hsTs < r.ts := by
  have := hpass.fresh j howner
  obtain ⟨-, -, hcur, hdata, htimeout⟩ := hlive
  unfold staleFor at this
  simp only [hcur, hkey, Bool.true_and, bne_iff_ne.mpr hdata, beq_self_eq_true, decide_eq_true htimeout,
    decide_eq_false_iff_not] at this
  exact BitVec.not_le.mp this

/-- What a handshake does to the timestamp and the key of a live entry. -/
theorem InitFate.hsTs {pkt : Bytes} {o : InitOutcome n} {c' : ServerClient}
    (h : InitFate N s pkt src fd j o c')
    (hC : ∀ r, Carries N s.conf pkt r → TimestampChecked s r src fd) (hlive : LiveAt s j)
    (hreg : c'.registered = true) (hdata : c'.lastData ≠ 0) :
    (s.clients j).hsTs ≤ c'.hsTs ∧ c'.pskKey = (s.clients j).pskKey := by
  cases h with
  | alone h _ =>
    rw [ServerClient.eq_of_core h]
    exact ⟨BitVec.le_refl _, rfl⟩
  | adopted hc _ _ _ _ _ _ _ _ _ _ => rw [hc] at hreg; cases hreg
  | unused hc _ _ _ _ _ => rw [hc] at hreg; cases hreg
  | restored r hr hpass ht h _ =>
    obtain ⟨howner, hkey⟩ := (hC r hr j hlive).1 ht.leadsTo
    refine ⟨?_, by rw [h.eq, ht.eq]⟩
    rcases h.hsTs with hts | hts
    · rw [hts, ht.eq]
      exact BitVec.le_refl _
    · rw [hts]
      exact BitVec.le_of_lt (hpass.newer hlive howner hkey)
  | @accepted r hr hpass fresh _ ht m h _ _ =>
    cases fresh with
    | true =>
      rw [h.eq, ht.eq_fresh] at hdata
      exact absurd rfl hdata
    | false =>
      obtain ⟨howner, hkey⟩ := (hC r hr j hlive).1 ht.leadsTo
      rw [h.eq]
      exact ⟨BitVec.le_of_lt (hpass.newer hlive howner hkey), hkey.symm⟩

/-- **An INIT accepted for a live client** is accepted on its entry, under its key, and newer than the
last one. -/
theorem serverHandleInit_acceptedFor {env : PacketEnv} {pkt : Bytes} {k : Fin n} {fresh : Bool}
    {reply : CStr} {packet : Bytes}
    (ho : (serverHandleInit N s env pkt src fd).2 = .accepted k fresh r reply packet)
    (hC : ∀ r, Carries N s.conf pkt r → TimestampChecked s r src fd) (hlive : LiveAt s j)
    (hfor : ForClient (s.clients j) r) :
    Carries N s.conf pkt r ∧ r.key = (s.clients j).pskKey ∧ (s.clients j).hsTs < r.ts ∧
      ((serverHandleInit N s env pkt src fd).1.clients j).hsTs = r.ts := by
  have hfate := serverHandleInit_fate (N := N) s env pkt src fd k
  rw [ho] at hfate
  generalize hc' : (serverHandleInit N s env pkt src fd).1.clients k = c' at hfate
  cases hfate with
  | alone _ hno => exact (hno _ _ _ _ rfl).elim
  | adopted _ _ _ _ _ _ _ _ _ _ hno => exact (hno _ _ _ _ rfl).elim
  | unused _ _ _ _ _ h => cases h
  | restored _ _ _ _ _ h => cases h
  | accepted r' hr hpass ht m h reply' h' =>
    cases h'
    have hchoice := (hC r hr j hlive).2 hfor
    have hk : LeadsTo s r src fd j ∧ k = j := by
      cases ht with
      | own hk _ _ =>
        have hleads := hchoice.resolve_right fun hno => by rw [hk] at hno; cases hno
        exact ⟨hleads, hleads.eq (Or.inl hk)⟩
      | source hk _ _ =>
        have hleads := hchoice.resolve_right fun hno => by rw [hk] at hno; cases hno
        exact ⟨hleads, hleads.eq (Or.inr hk)⟩
      | fresh hk _ _ =>
        exfalso
        rcases hchoice with (hno | hno) | hno <;> rw [hk] at hno <;> cases hno
    obtain ⟨hleads, rfl⟩ := hk
    obtain ⟨howner, hkey⟩ := (hC r hr k hlive).1 hleads
    refine ⟨hr, hkey.symm, hpass.newer hlive howner hkey, ?_⟩
    rw [hc', h.eq]

end Handshake

/-! ## Runs -/

section Runs

variable {s : Server n} {e : Event n} {i : Fin n}

theorem Reread.liveAt {s' : Server n} (h : Reread s s') (hlive : LiveAt s i) : LiveAt s' i := by
  unfold LiveAt
  rw [h.conf, h.now, h.entry i]
  exact hlive

theorem Changed.hsTs {c c' : ServerClient} (h : Changed c c') (hreg : c'.registered = true) :
    c'.hsTs = c.hsTs ∧ c'.pskKey = c.pskKey := by
  cases h with
  | retained h => exact ⟨h.hsTs, h.pskKey⟩
  | promoted h => exact ⟨h.hsTs, h.pskKey⟩
  | vacated h =>
    rw [h.registered] at hreg
    cases hreg

/-- **A step** does not set back the timestamp of a live entry, nor change its key. -/
theorem serverStep_hsTs (hlive : LiveAt s i) (hC : OnInit N TimestampChecked s e)
    (hlive' : LiveAt (serverStep N s e).1 i) :
    (s.clients i).hsTs ≤ ((serverStep N s e).1.clients i).hsTs ∧
      ((serverStep N s e).1.clients i).pskKey = (s.clients i).pskKey := by
  have hcase := serverStep_case N s e
  obtain ⟨-, hreg, -, hdata, -⟩ := hlive'
  by_cases hinit : ∃ o, (serverStep N s e).2 = some (.init o)
  · obtain ⟨o, ho⟩ := hinit
    generalize serverStep N s e = x at hcase ho hreg hdata
    cases hcase with
    | init c hcall hread htype =>
      have := (serverHandleInit_fate (N := N) c.server c.env c.packet c.src c.fd i).hsTs
        (hC c hcall htype) (hread.liveAt hlive) hreg hdata
      rw [hread.entry i] at this
      exact this
    | data c _ _ _ => cases ho
    | ignored c _ _ => cases ho
    | quiet _ => cases ho
    | reload _ _ _ _ => cases ho
  · have hch := (hcase.changed (fun o ho => hinit ⟨o, ho⟩) i).hsTs hreg
    rw [hch.1]
    exact ⟨BitVec.le_refl _, hch.2⟩

/-- **An INIT a step accepts** for the live client of slot `i`. -/
theorem acceptedNow_spec (hlive : LiveAt s i) (hC : OnInit N TimestampChecked s e)
    {a : Bytes × Register} (ha : acceptedNow N i s e = some a) :
    initTimestamp N (initBase N s.conf.ctx) (s.clients i).pskKey a.1 = some a.2.ts ∧
      (s.clients i).hsTs < a.2.ts ∧ ((serverStep N s e).1.clients i).hsTs = a.2.ts := by
  unfold acceptedNow at ha
  have hcase := serverStep_case N s e
  generalize serverStep N s e = x at hcase ha ⊢
  cases hcase with
  | init c hcall hread htype =>
    rw [hcall] at ha
    dsimp only at ha ⊢
    split at ha
    · rename_i c' k fresh r reply packet hc ho
      cases hc
      split at ha
      · rename_i hfor
        cases ha
        rw [Option.some.injEq, PacketOutcome.init.injEq] at ho
        obtain ⟨hr, hkey, hnew, hts⟩ := serverHandleInit_acceptedFor ho (hC c hcall htype)
          (hread.liveAt hlive) hfor
        have hpsk : (c.server.clients i).pskKey = (s.clients i).pskKey := by rw [hread.entry i]
        have hold : (c.server.clients i).hsTs = (s.clients i).hsTs := by rw [hread.entry i]
        refine ⟨?_, hold ▸ hnew, hts⟩
        rw [← hread.conf, ← hpsk, ← hkey]
        exact hr.timestamp
      · cases ha
    · cases ha
  | data c hcall _ _ => simp [hcall] at ha
  | ignored c hcall _ => simp [hcall] at ha
  | quiet _ => simp at ha
  | reload _ _ _ _ => simp at ha

/-- The entry of slot `i` is live and the handshake is compared with its timestamp. -/
def LiveAndChecked (N : Noise Hs) (i : Fin n) (s : Server n) (e : Event n) : Prop :=
  LiveAt s i ∧ OnInit N TimestampChecked s e

instance (i : Fin n) (s : Server n) (e : Event n) : Decidable (LiveAndChecked N i s e) := by
  unfold LiveAndChecked
  infer_instance

/-- What the rest of a run accepts is newer than the entry's last handshake, and comes under its key. -/
theorem acceptedFor_newer {t : Server n} {es : List (Event n)}
    (h : Machine.Steps (serverMachine N n) (LiveAndChecked N i) s es t) :
    ∀ a ∈ acceptedFor N i s es, (s.clients i).hsTs < a.2.ts ∧
      initTimestamp N (initBase N s.conf.ctx) (s.clients i).pskKey a.1 = some a.2.ts := by
  induction h with
  | nil s => intro a ha; cases ha
  | @cons s s' t e es hstep hc hrest ih =>
    have hs' := serverMachine_next hstep
    intro a ha
    rw [acceptedFor, List.mem_append, ← hs'] at ha
    rcases ha with ha | ha
    · rw [Option.mem_toList] at ha
      obtain ⟨hts, hnew, -⟩ := acceptedNow_spec hc.1 hc.2 ha
      exact ⟨hnew, hts⟩
    · have hlive' : LiveAt s' i := by
        cases hrest with
        | nil => cases ha
        | cons _ hc' _ => exact hc'.1
      obtain ⟨hnew, hts⟩ := ih a ha
      rw [hs'] at hlive'
      obtain ⟨hle, hkey⟩ := serverStep_hsTs hc.1 hc.2 hlive'
      rw [hs'] at hnew hts
      rw [hkey, (serverStep_case N s e).initBase] at hts
      exact ⟨Nat.lt_of_le_of_lt hle hnew, hts⟩

/-- **Handshake replays of a live client are refused**: the INITs accepted for it are newer and newer,
so none of them is accepted twice, nor one that came before. -/
theorem acceptedFor_increasing {t : Server n} {es : List (Event n)}
    (h : Machine.Steps (serverMachine N n) (LiveAndChecked N i) s es t) :
    (∀ a ∈ acceptedFor N i s es, (s.clients i).hsTs < a.2.ts) ∧
      (acceptedFor N i s es).Pairwise (fun a b => a.2.ts < b.2.ts) ∧
      ((acceptedFor N i s es).map Prod.fst).Nodup := by
  have hincreasing : (acceptedFor N i s es).Pairwise (fun a b => a.2.ts < b.2.ts) := by
    induction h with
    | nil s => exact .nil
    | @cons s s' t e es hstep hc hrest ih =>
      have hs' := serverMachine_next hstep
      rw [acceptedFor, ← hs']
      refine List.pairwise_append.mpr ⟨?_, ih, fun a ha b hb => ?_⟩
      · cases acceptedNow N i s e with
        | none => exact .nil
        | some a => exact List.pairwise_singleton _ _
      · rw [Option.mem_toList] at ha
        obtain ⟨-, -, hts⟩ := acceptedNow_spec hc.1 hc.2 ha
        have := (acceptedFor_newer hrest b hb).1
        rwa [hs', hts] at this
  refine ⟨fun a ha => (acceptedFor_newer h a ha).1, hincreasing, ?_⟩
  rw [List.Nodup, List.pairwise_map]
  refine hincreasing.imp_of_mem fun {a b} ha hb hab hne => ?_
  have hts : a.2.ts = b.2.ts := by
    have := (acceptedFor_newer h a ha).2
    rw [hne, (acceptedFor_newer h b hb).2] at this
    exact (Option.some.inj this).symm
  rw [hts] at hab
  exact BitVec.lt_irrefl _ hab

end Runs

/-- The client renews its session, and again from another port. -/
def renewals : List (Event 3) :=
  [udpInit 65 2 (toySource 1 1000) "MODE=MANUAL CLIENT_ID=a LOCAL_IP=10.0.0.5",
    udpInit 65 3 (toySource 1 1001) "MODE=MANUAL CLIENT_ID=a LOCAL_IP=10.0.0.5"]

theorem acceptedFor_increasing_renewals : ∃ s : Server 3, (acceptedFor toyNoise 0 s renewals).length = 2 ∧
    ((acceptedFor toyNoise 0 s renewals).map Prod.fst).Nodup := by
  obtain ⟨s, -, hp⟩ := Machine.runUnder_reachable (M := toyMachine 3) (C := fun _ _ => True)
    (l := liveClient)
    (p := fun s => ((toyMachine 3).runUnder (LiveAndChecked toyNoise 0) s renewals).isSome &&
      (acceptedFor toyNoise 0 s renewals).length == 2)
    (toyServer_started 3 .udp toyDb) (by decide +kernel)
  rw [Bool.and_eq_true, beq_iff_eq, Option.isSome_iff_exists] at hp
  obtain ⟨⟨t, ht⟩, hlen⟩ := hp
  exact ⟨s, hlen, (acceptedFor_increasing (Machine.runUnder_steps ht)).2.2⟩

/-- A handshake of another client from its source and for its address, between two times that its own
handshake comes in. -/
def replays : List (Event 3) :=
  [udpInit 65 2 (toySource 1 1000) "MODE=MANUAL CLIENT_ID=a LOCAL_IP=10.0.0.5",
    udpInit 80 3 (toySource 1 1000) "MODE=MANUAL CLIENT_ID=p LOCAL_IP=10.0.0.5",
    udpInit 65 2 (toySource 1 1000) "MODE=MANUAL CLIENT_ID=a LOCAL_IP=10.0.0.5"]

theorem not_acceptedFor_increasing : ¬ ∀ s : Server 3, Machine.Reachable (toyMachine 3) s → ∀ es t i,
    Machine.Steps (toyMachine 3) (fun s _ => LiveAt s i) s es t →
      (acceptedFor toyNoise i s es).Pairwise (fun a b => a.2.ts < b.2.ts) ∧
        ((acceptedFor toyNoise i s es).map Prod.fst).Nodup := by
  intro h
  obtain ⟨s, hs, hp⟩ := Machine.runUnder_reachable (M := toyMachine 3) (C := fun _ _ => True)
    (l := liveClient)
    (p := fun s => ((toyMachine 3).runUnder (fun s _ => LiveAt s 0) s replays).isSome &&
      decide (¬ ((acceptedFor toyNoise 0 s replays).map Prod.fst).Nodup))
    (toyServer_started 3 .udp toyDb) (by decide +kernel)
  rw [Bool.and_eq_true, decide_eq_true_iff, Option.isSome_iff_exists] at hp
  obtain ⟨⟨t, ht⟩, hnodup⟩ := hp
  exact hnodup (h s hs _ t 0 (Machine.runUnder_steps ht)).2

end Camex
