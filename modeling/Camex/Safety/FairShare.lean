import Camex.Server.Shares
import Camex.Safety.TcpSlots

/-!
# Handshake budgets and fair shares

* `initCharges`: the requests to the budgets that an INIT makes, `budgetLog` those of a run;
* `keyTrials_ledger`, `initAuthenticate_ledger`: an INIT keeps the ledger of its second;
* `FairSecond`: the budgets, the shares, and what is left for live clients;
* `fairSecond`: it holds at the end of every run within a second in which the key of the share table stays;
  `shareTwice`: an address has its share twice when the key comes in the middle.
-/

namespace Camex

open Lib

variable {n : ℕ} {Hs : Type} (N : Noise Hs)

/-! ## Known sources -/

def liveSource (s : Server n) (src : SockAddr) : Option (Fin n) :=
  (serverFindByAddr s.clients src).filter fun i =>
    (s.clients i).registered && (s.clients i).cur.valid && (s.clients i).lastData != 0 &&
      decide (s.now - (s.clients i).lastData ≤ serverClientTimeout s.conf)

def initsCounted (s : Server n) (i : Fin n) : ℕ := if (s.clients i).hsWindow = s.now then (s.clients i).hsCount else 0

/-- An INIT from a live client within its `SERVER_KNOWN_PER_SEC` a second. -/
def knownSource (s : Server n) (src : SockAddr) : Bool :=
  (liveSource s src).any fun i => decide (initsCounted s i < SERVER_KNOWN_PER_SEC)

theorem serverKnownSource_known (s : Server n) (src : SockAddr) :
    (serverKnownSource s src).2.isSome = knownSource s src := by
  unfold serverKnownSource knownSource liveSource
  cases hfind : serverFindByAddr s.clients src with
  | none => rfl
  | some i =>
    have hlive : ((s.clients i).registered && (s.clients i).cur.valid && (s.clients i).lastData != 0 &&
        decide (s.now - (s.clients i).lastData ≤ serverClientTimeout s.conf)) =
        !(!(s.clients i).registered || !(s.clients i).cur.valid || (s.clients i).lastData == 0 ||
          decide (serverClientTimeout s.conf < s.now - (s.clients i).lastData)) := by
      simp only [Bool.not_or, Bool.not_not, bne, ← decide_not, not_lt]
    dsimp only
    split
    · rename_i hdead
      rw [Option.filter_some_neg (by rw [hlive, hdead]; decide)]
      rfl
    · rename_i halive
      rw [Option.filter_some_pos (by rw [hlive]; simpa using halive), Option.any_some]
      unfold initsCounted
      split
      · split
        · exact (decide_eq_false (by omega)).symm
        · exact (decide_eq_true (by omega)).symm
      · split
        · rename_i hfull
          exact absurd (show SERVER_KNOWN_PER_SEC ≤ 0 from hfull) (by decide)
        · rfl

theorem serverKnownSource_budget (s : Server n) (src : SockAddr) : (serverKnownSource s src).1.budget = s.budget := by
  unfold serverKnownSource
  split
  · rfl
  · dsimp only
    split
    · rfl
    · split <;> split <;> rfl

/-! ## The requests of an INIT -/

def trialCharges (ks : Keystore) (own : Option ℕ) (now : Time) (fresh : Bool → Option (BitVec 128)) (a : Ip)
    (base : Hs) (es : Key) (msg : Bytes) : List ℕ → Budget → Source n → List Charge
  | [], _, _ => []
  | i :: is, b, src =>
    match ks.entries[i]? with
    | none => []
    | some e =>
      if e.locked then trialCharges ks own now fresh a base es msg is b src
      else
        let opened := (N.readMsg1 base e.pskKey es msg INIT_PAYLOAD_MAX).isSome
        if i ≠ 0 ∨ e.owner ≠ [] then
          let keys := ks.entries.length
          let (b', src', ok) := serverKeyTrialBudget N b now fresh a keys src (own == some i)
          requestCharge N keys .trial b now fresh a src (own == some i) ::
            if !ok || opened then [] else trialCharges ks own now fresh a base es msg is b' src'
        else if opened then [] else trialCharges ks own now fresh a base es msg is b src

/-- The requests of an INIT: one for the handshake and, if it is granted, those of the key loop. -/
def initCharges (s : Server n) (env : PacketEnv) (pkt : Bytes) (src : SockAddr) : List Charge :=
  let ctx := s.conf.ctx
  let ks := s.conf.ks
  if !ctx.hasServerKey || !initMacOk N ctx pkt then []
  else
    let known := knownSource { s with budget := serverBudgetWindow s.budget s.now } src
    let (s, source) := serverSourceFor s src
    let (b, source', ok) := serverHandshakeBudget N s.budget s.now env.shareKey src.ip source
    requestCharge N ks.entries.length .handshake s.budget s.now env.shareKey src.ip source known ::
      if !ok then []
      else
        match N.msg1Es (initBase N ctx) (initMessage1 pkt) with
        | none => []
        | some es =>
          let own := source'.known.bind fun i => configKsFind ks (s.clients i).pskKey
          trialCharges N ks own s.now env.shareKey src.ip (initBase N ctx) es (initMessage1 pkt) (trialOrder ks own)
            b source'

theorem serverSourceFor_source (s : Server n) (src : SockAddr) :
    (serverSourceFor s src).1.budget = serverBudgetWindow s.budget s.now ∧
      (serverSourceFor s src).2.lookedUp = false ∧
      (serverSourceFor s src).2.known.isSome =
        knownSource { s with budget := serverBudgetWindow s.budget s.now } src :=
  ⟨serverKnownSource_budget .., rfl, serverKnownSource_known ..⟩

section Ledger

variable {N} {keys : ℕ} {b : Budget} {now : Time} {log : List Charge} {fresh : Bool → Option (BitVec 128)} {a : Ip}
  {src : Source n}

/-- **The key loop keeps the ledger.** -/
theorem keyTrials_ledger {ks : Keystore} (own : Option ℕ) (base : Hs) (es : Key) (msg : Bytes) (is : List ℕ)
    (h : Ledger N ks.entries.length b now log) (hr : SourceReady N b now fresh a src) :
    Ledger N ks.entries.length (keyTrials N ks own now fresh a base es msg is b src).1 now
      (log ++ trialCharges N ks own now fresh a base es msg is b src) := by
  induction is generalizing b src log with
  | nil =>
    unfold keyTrials trialCharges
    rwa [List.append_nil]
  | cons i is ih =>
    unfold keyTrials trialCharges
    cases ks.entries[i]? with
    | none =>
      dsimp only
      rwa [List.append_nil]
    | some e =>
      dsimp only
      by_cases hlocked : e.locked = true
      · rw [if_pos hlocked, if_pos hlocked]
        exact ih h hr
      · rw [if_neg hlocked, if_neg hlocked]
        unfold trialBudget
        by_cases hcounted : i ≠ 0 ∨ e.owner ≠ []
        · rw [if_pos hcounted, if_pos hcounted, serverKeyTrialBudget_eq]
          obtain ⟨hledger, hready, _⟩ := budgetRequest_ledger .trial (own == some i) h hr
          generalize requestCharge N ks.entries.length .trial b now fresh a src (own == some i) = c at hledger ⊢
          generalize budgetRequest N ks.entries.length .trial b now fresh a src (own == some i) = q at hledger hready ⊢
          obtain ⟨b', src', ok⟩ := q
          cases ok with
          | false => exact hledger
          | true =>
            cases N.readMsg1 base e.pskKey es msg INIT_PAYLOAD_MAX with
            | some opened => exact hledger
            | none =>
              have hrest := ih hledger hready
              rw [List.append_assoc] at hrest
              exact hrest
        · rw [if_neg hcounted, if_neg hcounted]
          cases N.readMsg1 base e.pskKey es msg INIT_PAYLOAD_MAX with
          | some opened =>
            dsimp only [Bool.not_true, Option.isSome_some]
            simpa using h
          | none => exact ih h hr

theorem initCheck_budget (s : Server n) (r : Register) : (initCheck s r).1.budget = s.budget := by
  unfold initCheck
  split <;> rfl

/-- The key may come or stay away as it may before the window of the second. -/
theorem SteadyKey.window (h : SteadyKey b now fresh) : SteadyKey (serverBudgetWindow b now) now fresh := by
  unfold serverBudgetWindow
  split
  · exact h
  · exact h

/-- **An INIT keeps the ledger.** -/
theorem initAuthenticate_ledger {s : Server n} {env : PacketEnv} {pkt : Bytes} {src : SockAddr}
    (h : Ledger N s.conf.ks.entries.length (serverBudgetWindow s.budget s.now) s.now log)
    (hsteady : initMacOk N s.conf.ctx pkt = true → SteadyKey s.budget s.now env.shareKey) :
    Ledger N s.conf.ks.entries.length
      (serverBudgetWindow (initAuthenticate N s env pkt src).1.budget s.now) s.now
      (log ++ initCharges N s env pkt src) := by
  unfold initAuthenticate initCharges
  dsimp only
  by_cases hmac : (!s.conf.ctx.hasServerKey || !initMacOk N s.conf.ctx pkt) = true
  · rw [if_pos hmac, if_pos hmac, List.append_nil]
    exact h
  · rw [if_neg hmac, if_neg hmac]
    obtain ⟨hbudget, hlooked, hknown⟩ := serverSourceFor_source s src
    have hrec := serverSourceFor_recounted s src
    rw [← hknown]
    generalize serverSourceFor s src = q at hbudget hlooked hrec ⊢
    obtain ⟨s₁, source⟩ := q
    dsimp only at hbudget hlooked hrec ⊢
    rw [hrec.now, hrec.conf, hbudget, serverHandshakeBudget_eq N s.conf.ks.entries.length]
    have hready : SourceReady N (serverBudgetWindow s.budget s.now) s.now env.shareKey src.ip source := by
      unfold SourceReady
      rw [hlooked, if_neg (by decide)]
      rw [Bool.or_eq_true, Bool.not_eq_true', Bool.not_eq_true', not_or, Bool.not_eq_false, Bool.not_eq_false] at hmac
      exact (hsteady hmac.2).window
    obtain ⟨hledger, hready', hknown'⟩ := budgetRequest_ledger .handshake source.known.isSome h hready
    generalize requestCharge N s.conf.ks.entries.length .handshake (serverBudgetWindow s.budget s.now) s.now env.shareKey
      src.ip source source.known.isSome = c at hledger ⊢
    generalize budgetRequest N s.conf.ks.entries.length .handshake (serverBudgetWindow s.budget s.now) s.now env.shareKey
      src.ip source source.known.isSome = q at hledger hready' hknown' ⊢
    obtain ⟨b', source', ok⟩ := q
    cases ok with
    | false =>
      show Ledger N _ (serverBudgetWindow b' s.now) s.now _
      rw [hledger.window_eq]
      exact hledger
    | true =>
      cases hes : N.msg1Es (initBase N s.conf.ctx) (initMessage1 pkt) with
      | none =>
        show Ledger N _ (serverBudgetWindow b' s.now) s.now _
        rw [hledger.window_eq]
        exact hledger
      | some es =>
        dsimp only [Bool.not_true] at hledger hready' hknown' ⊢
        have htrials := keyTrials_ledger (source'.known.bind fun i => configKsFind s.conf.ks (s₁.clients i).pskKey)
          (initBase N s.conf.ctx) es (initMessage1 pkt)
          (trialOrder s.conf.ks (source'.known.bind fun i => configKsFind s.conf.ks (s₁.clients i).pskKey)) hledger hready'
        rw [List.append_assoc] at htrials
        generalize trialCharges N _ _ _ _ _ _ _ _ _ _ _ = charges at htrials ⊢
        generalize keyTrials N _ _ _ _ _ _ _ _ _ _ _ = opened at htrials ⊢
        have hbudget' : ∀ t : Server n, t.budget = opened.1 → Ledger N s.conf.ks.entries.length
            (serverBudgetWindow t.budget s.now) s.now (log ++ c :: charges) := fun t ht => by
          rw [ht, htrials.window_eq]
          exact htrials
        obtain ⟨b'', opened⟩ := opened
        cases opened with
        | none => exact hbudget' _ rfl
        | some opened =>
          dsimp only
          cases readRegister s.conf.db s.conf.ks opened.1 opened.2.1 with
          | none => exact hbudget' _ rfl
          | some r =>
            dsimp only
            generalize hchecked : initCheck _ r = checked
            have hcheck : checked.1.budget = b'' := by
              rw [← hchecked]
              exact initCheck_budget _ r
            obtain ⟨t, ok⟩ := checked
            cases ok with
            | false => exact hbudget' t hcheck
            | true => exact hbudget' t hcheck

end Ledger

/-! ## Trials of own keys -/

def ownTrials (log : List Charge) : ℕ := log.countP fun c => decide (c.kind = .trial) && c.exempt

/-- The key loop asks for its own key at most as often as the key is in its order. -/
theorem trialCharges_own {ks : Keystore} {own : Option ℕ} {now : Time} {fresh : Bool → Option (BitVec 128)} {a : Ip}
    {base : Hs} {es : Key} {msg : Bytes} (is : List ℕ) (b : Budget) (src : Source n) :
    ownTrials (trialCharges N ks own now fresh a base es msg is b src) ≤ is.countP fun i => own == some i := by
  induction is generalizing b src with
  | nil => exact Nat.zero_le _
  | cons i is ih =>
    unfold trialCharges
    rw [List.countP_cons]
    cases ks.entries[i]? with
    | none => exact Nat.zero_le _
    | some e =>
      dsimp only
      split
      · exact (ih b src).trans (Nat.le_add_right _ _)
      · split
        · unfold ownTrials
          rw [List.countP_cons]
          refine Nat.add_le_add ?_ (le_of_eq (by simp [requestCharge]))
          split
          · exact Nat.zero_le _
          · exact ih _ _
        · split
          · exact Nat.zero_le _
          · exact (ih b src).trans (Nat.le_add_right _ _)

theorem ownTrials_append (l₁ l₂ : List Charge) : ownTrials (l₁ ++ l₂) = ownTrials l₁ + ownTrials l₂ :=
  List.countP_append ..

theorem exemptGranted_append (kind : ChargeKind) (l₁ l₂ : List Charge) :
    exemptGranted kind (l₁ ++ l₂) = exemptGranted kind l₁ + exemptGranted kind l₂ := List.countP_append ..

/-- An INIT asks for the trial of its own key once, and only when it is a known source's that was let in. -/
theorem initCharges_own (s : Server n) (env : PacketEnv) (pkt : Bytes) (src : SockAddr) :
    ownTrials (initCharges N s env pkt src) ≤ exemptGranted .handshake (initCharges N s env pkt src) := by
  unfold initCharges
  dsimp only
  split
  · exact le_rfl
  · obtain ⟨_, _, hknown⟩ := serverSourceFor_source s src
    rw [← hknown]
    generalize serverSourceFor s src = q
    obtain ⟨s₁, source⟩ := q
    dsimp only
    rw [serverHandshakeBudget_eq N s.conf.ks.entries.length]
    generalize hq : budgetRequest N s.conf.ks.entries.length .handshake s₁.budget s₁.now env.shareKey src.ip source
      source.known.isSome = q
    have hsource : q.2.1.known = source.known := by
      rw [← hq]
      exact budgetRequest_known .handshake source.known.isSome
    have hgranted : (requestCharge N s.conf.ks.entries.length .handshake s₁.budget s₁.now env.shareKey src.ip source
        source.known.isSome).granted = q.2.2 := by
      rw [← hq]
      rfl
    have hkind : (requestCharge N s.conf.ks.entries.length .handshake s₁.budget s₁.now env.shareKey src.ip source
        source.known.isSome).kind = .handshake := rfl
    have hexempt : (requestCharge N s.conf.ks.entries.length .handshake s₁.budget s₁.now env.shareKey src.ip source
        source.known.isSome).exempt = source.known.isSome := rfl
    generalize requestCharge N s.conf.ks.entries.length .handshake s₁.budget s₁.now env.shareKey src.ip source
      source.known.isSome = c at hgranted hkind hexempt ⊢
    obtain ⟨b', source', ok⟩ := q
    dsimp only at hsource hgranted ⊢
    have hhead : ∀ rest, ownTrials (c :: rest) = ownTrials rest := fun rest => by
      unfold ownTrials
      rw [List.countP_cons_of_neg (by simp [hkind])]
    rw [hhead]
    cases ok with
    | false => exact Nat.zero_le _
    | true =>
      cases N.msg1Es (initBase N s.conf.ctx) (initMessage1 pkt) with
      | none => exact Nat.zero_le _
      | some es =>
        dsimp only [Bool.not_true]
        refine (trialCharges_own N _ b' source').trans ?_
        cases hown : source'.known.bind fun i => configKsFind s.conf.ks (s₁.clients i).pskKey with
        | none =>
          rw [List.countP_eq_zero.mpr (by simp)]
          exact Nat.zero_le _
        | some o =>
          obtain ⟨i, hi, _⟩ := Option.bind_eq_some_iff.mp hown
          have hone : (trialOrder s.conf.ks (some o)).countP (fun i => some o == some i) ≤ 1 := by
            have hcount := (List.nodup_iff_count_le_one.mp (trialOrder_nodup s.conf.ks (some o))) o
            rw [List.count_eq_countP] at hcount
            refine (List.countP_mono_left fun j _ hj => ?_).trans hcount
            have heq : o = j := by simpa using hj
            rw [heq]
            exact beq_self_eq_true j
          refine hone.trans ?_
          have hsome : source.known.isSome = true := by
            rw [← hsource, hi]
            rfl
          unfold exemptGranted
          rw [List.countP_cons_of_pos (by simp [hkind, hgranted, hexempt, hsome])]
          exact Nat.le_add_left _ _

/-! ## What leaves the budgets alone -/

/-- The budgets, the clock and the configuration stay. -/
structure BudgetKept (s s' : Server n) : Prop where
  budget : s'.budget = s.budget
  now : s'.now = s.now
  conf : s'.conf = s.conf

theorem BudgetKept.refl (s : Server n) : BudgetKept s s := ⟨rfl, rfl, rfl⟩

theorem BudgetKept.trans {s t u : Server n} (h₁ : BudgetKept s t) (h₂ : BudgetKept t u) : BudgetKept s u :=
  ⟨h₂.budget.trans h₁.budget, h₂.now.trans h₁.now, h₂.conf.trans h₁.conf⟩

theorem serverAccept_budgetKept (s : Server n) (fd : ℤ) (peer : SockAddr) (stream : Bytes) (nonblocking : Bool) :
    BudgetKept s (serverAccept s fd peer stream nonblocking) := by
  have hslot : ∀ t : Server n, BudgetKept t (acceptSlot t fd peer stream) := by
    intro t
    unfold acceptSlot
    split <;> exact ⟨rfl, rfl, rfl⟩
  unfold serverAccept
  split
  · exact .refl s
  · dsimp only
    split
    · exact .refl s
    · split
      · split
        · exact .refl s
        · exact ⟨(hslot _).budget, (hslot _).now, (hslot _).conf⟩
      · exact hslot s

theorem serverExpireClients_budgetKept (grow : Fin n → Grow) (s : Server n) :
    BudgetKept s (serverExpireClients grow s) := by
  unfold serverExpireClients
  split
  · exact .refl s
  · refine forSlots_induction (I := fun t => BudgetKept s t) (fun i t ht => ht.trans ?_) ⟨rfl, rfl, rfl⟩
    unfold serverExpireClient
    dsimp only
    split
    · exact .refl t
    · split <;> exact ⟨rfl, rfl, rfl⟩

theorem drainTcpClientRead_budgetKept (s : Server n) (fd : ℤ) (buffer : Buffer) (reads : List Read) (grow : Grow) :
    BudgetKept s (drainTcpClientRead s fd buffer reads grow).1 := by
  have hreread : ∀ {t : Server n}, Reread s t → BudgetKept s t := fun h => by
    rw [h.eq]
    exact ⟨rfl, rfl, rfl⟩
  rcases drainTcpClientRead_cases s fd buffer reads grow with h | ⟨_, i, t, _, h, heq⟩
  · exact hreread h
  · rw [heq]
    exact (hreread h).trans ⟨rfl, rfl, rfl⟩

theorem delivered_budgetKept {s s' : Server n} (h : Delivered s s') : BudgetKept s s' := by
  rw [h.eq]
  exact ⟨rfl, rfl, rfl⟩

theorem serverHandleData_budgetKept (s : Server n) (env : PacketEnv) (pkt : Bytes) (src : SockAddr) (fd : ℤ) :
    BudgetKept s (serverHandleData N s env pkt src fd).1 := by
  rcases serverHandleData_cases (N := N) s env pkt src fd with h | ⟨i, w, plain, x, _, _, _, hd⟩
  · rw [h]
    exact .refl s
  · have hkept := delivered_budgetKept hd
    exact ⟨hkept.budget, hkept.now, hkept.conf⟩

theorem serverEntryFor_budgetKept {s : Server n} {r : Register} {src : SockAddr} {fd : ℤ} {grow : Grow} {e : Entry n}
    (h : serverEntryFor s r src fd grow = some e) : BudgetKept s e.server := by
  have hframe := serverEntryFor_frame h
  refine ⟨?_, hframe.now, hframe.conf⟩
  have hip : ∀ e : Entry n, (e.withIp r).server.budget = e.server.budget := by
    intro e
    unfold Entry.withIp
    split <;> rfl
  unfold serverEntryFor at h
  split at h
  · cases h
  · cases h
    rw [hip]
    unfold resumeEntry serverAdoptTcp
    dsimp only
    split <;> rfl
  · cases h
    rw [hip]
  · obtain ⟨⟨i, s'⟩, halloc, rfl⟩ := Option.map_eq_some_iff.mp h
    rw [hip]
    rcases serverAllocClient_some halloc with ⟨_, rfl⟩ | ⟨_, rfl⟩
    · rfl
    · rfl

theorem initRegister_budgetKept (e : Entry n) (env : PacketEnv) (pkt : Bytes) (src : SockAddr) (fd : ℤ) (r : Register)
    (hs : Hs) : BudgetKept e.server (initRegister N e env pkt src fd r hs).1 := by
  unfold initRegister
  dsimp only
  split
  · exact ⟨rfl, rfl, rfl⟩
  · split
    · exact ⟨rfl, rfl, rfl⟩
    · split
      · exact ⟨rfl, rfl, rfl⟩
      · exact ⟨rfl, rfl, rfl⟩

/-- Behind `initAuthenticate` a handshake leaves the budgets alone. -/
theorem serverHandleInit_budgetKept (s : Server n) (env : PacketEnv) (pkt : Bytes) (src : SockAddr) (fd : ℤ) :
    BudgetKept (initAuthenticate N s env pkt src).1 (serverHandleInit N s env pkt src fd).1 := by
  unfold serverHandleInit
  split
  · rename_i t h
    rw [h]
    exact .refl t
  · rename_i t r hs h
    rw [h]
    split
    · exact .refl t
    · rename_i e he
      exact (serverEntryFor_budgetKept he).trans (initRegister_budgetKept N e env pkt src fd r hs)

/-! ## A second -/

def eventCharges (s : Server n) (e : Event n) : List Charge :=
  match eventCall s e with
  | some c => if v2PacketType c.packet = V2_TYPE_INIT then initCharges N c.server c.env c.packet c.src else []
  | none => []

/-- The requests of a run, in their order. -/
def budgetLog : Server n → List (Event n) → List Charge
  | _, [] => []
  | s, e :: es => eventCharges N s e ++ budgetLog (serverStep N s e).1 es

/-- The clock stays, and the keystore. -/
def SameSecond (s : Server n) : Event n → Prop
  | .tick now => now = s.now
  | .reload _ _ _ => False
  | _ => True

instance (s : Server n) : ∀ e, Decidable (SameSecond s e)
  | .tick now => inferInstanceAs (Decidable (now = s.now))
  | .reload _ _ _ => isFalse id
  | .udp _ _ _ => isTrue trivial
  | .accept _ _ _ _ => isTrue trivial
  | .readable _ _ _ _ => isTrue trivial
  | .tun _ _ => isTrue trivial
  | .expire _ => isTrue trivial

/-- An INIT with a valid mac1 does not bring the key of the share table while a share is in use. -/
def KeepsShareKey (s : Server n) (e : Event n) : Prop :=
  ∀ c, eventCall s e = some c → v2PacketType c.packet = V2_TYPE_INIT → initMacOk N s.conf.ctx c.packet = true →
    SteadyKey s.budget s.now c.env.shareKey

instance (s : Server n) (e : Event n) : Decidable (KeepsShareKey N s e) :=
  inferInstanceAs (Decidable (∀ c ∈ eventCall s e, v2PacketType c.packet = V2_TYPE_INIT →
    initMacOk N s.conf.ctx c.packet = true → SteadyKey s.budget s.now c.env.shareKey))

/-- No budget was used in this second; the rest of the tables is as earlier ones left it. -/
def FreshSecond (s : Server n) : Prop := s.budget.window ≠ s.now ∧ Unused s.budget s.now

instance (s : Server n) : Decidable (FreshSecond s) :=
  inferInstanceAs (Decidable (s.budget.window ≠ s.now ∧ Unused s.budget s.now))

/-- A server in a second, with the ledger of it; `s₀` is the server that the second started with. -/
structure SecondLedger (s₀ s : Server n) (log : List Charge) : Prop where
  now : s.now = s₀.now
  conf : s.conf = s₀.conf
  ledger : Ledger N s₀.conf.ks.entries.length (serverBudgetWindow s.budget s₀.now) s₀.now log
  own : ownTrials log ≤ exemptGranted .handshake log

variable {N} {s₀ s s' t : Server n} {log : List Charge} {e : Event n}

theorem SecondLedger.start (h : FreshSecond s) : SecondLedger N s s [] where
  now := rfl
  conf := rfl
  ledger := .start _ h.1 h.2
  own := le_rfl

theorem SecondLedger.kept (h : SecondLedger N s₀ s log) (hk : BudgetKept s s') : SecondLedger N s₀ s' log where
  now := hk.now.trans h.now
  conf := hk.conf.trans h.conf
  ledger := by rw [hk.budget]; exact h.ledger
  own := h.own

theorem quietStep_budgetKept (hsame : SameSecond s e) : BudgetKept s (quietStep N s e) := by
  cases e with
  | tick now =>
    cases hsame
    exact .refl s
  | udp packet src env => exact .refl s
  | accept fd peer stream nonblocking => exact serverAccept_budgetKept s fd peer stream nonblocking
  | readable fd buffer reads env => exact drainTcpClientRead_budgetKept s fd buffer reads env.grow
  | tun packet env => exact delivered_budgetKept (handleTunPacket_delivered s env packet)
  | expire grow => exact serverExpireClients_budgetKept grow s
  | reload file mem grow => cases hsame

theorem SecondLedger.init (h : SecondLedger N s₀ s log) (env : PacketEnv) (pkt : Bytes) (src : SockAddr) (fd : ℤ)
    (hsteady : initMacOk N s.conf.ctx pkt = true → SteadyKey s.budget s.now env.shareKey) :
    SecondLedger N s₀ (serverHandleInit N s env pkt src fd).1 (log ++ initCharges N s env pkt src) := by
  have hrec := (initAuthenticate_spec N s env pkt src).1
  have hledger := h.ledger
  rw [← h.now, ← h.conf] at hledger
  have hauth : SecondLedger N s₀ (initAuthenticate N s env pkt src).1 (log ++ initCharges N s env pkt src) := by
    refine ⟨hrec.now.trans h.now, hrec.conf.trans h.conf, ?_, ?_⟩
    · rw [← h.now, ← h.conf]
      exact initAuthenticate_ledger hledger hsteady
    · rw [ownTrials_append, exemptGranted_append]
      exact Nat.add_le_add h.own (initCharges_own N s env pkt src)
  exact hauth.kept (serverHandleInit_budgetKept N s env pkt src fd)

theorem SecondLedger.step (h : SecondLedger N s₀ s log) (hsame : SameSecond s e) (hkey : KeepsShareKey N s e) :
    SecondLedger N s₀ (serverStep N s e).1 (log ++ eventCharges N s e) := by
  unfold serverStep eventCharges
  cases hcall : eventCall s e with
  | none =>
    rw [List.append_nil]
    exact h.kept (quietStep_budgetKept hsame)
  | some c =>
    have hreread : BudgetKept s c.server := by
      rw [(eventCall_reread hcall).eq]
      exact ⟨rfl, rfl, rfl⟩
    have hc := h.kept hreread
    dsimp only
    unfold serverHandlePacket
    dsimp only
    by_cases hinit : v2PacketType c.packet = V2_TYPE_INIT
    · rw [if_pos hinit, if_pos hinit]
      refine hc.init c.env c.packet c.src c.fd ?_
      rw [hreread.budget, hreread.now, hreread.conf]
      exact hkey c hcall hinit
    · rw [if_neg hinit, if_neg hinit, List.append_nil]
      split
      · exact hc.kept (serverHandleData_budgetKept N c.server c.env c.packet c.src c.fd)
      · exact hc

theorem SecondLedger.run {es : List (Event n)}
    (hrun : Machine.Steps (serverMachine N n) (fun s e => SameSecond s e ∧ KeepsShareKey N s e) s es t)
    (h : SecondLedger N s₀ s log) : SecondLedger N s₀ t (log ++ budgetLog N s es) := by
  induction hrun generalizing log with
  | nil s =>
    show SecondLedger N s₀ s (log ++ [])
    rwa [List.append_nil]
  | cons hstep hc _ ih =>
    rename_i s u t e es hrest
    have hnext : (serverStep N s e).1 = u := by
      have hsome : (if e.Enabled s then some (serverStep N s e).1 else none) = some u := hstep
      split at hsome
      · exact Option.some.inj hsome
      · cases hsome
    have hu := h.step hc.1 hc.2
    show SecondLedger N s₀ t (log ++ (eventCharges N s e ++ budgetLog N (serverStep N s e).1 es))
    rw [← List.append_assoc, hnext]
    rw [hnext] at hu
    exact ih hu

/-! ## What holds in a second -/

/-- The budgets, the shares, and what is left for live clients: `b` is the budget at second `now`, `log` the requests
of the second so far. -/
structure FairSecond (ks : Keystore) (b : Budget) (now : Time) (log : List Charge) : Prop where
  spent : ∀ kind, (serverBudgetWindow b now).spent kind = granted kind log
  whole : ∀ kind, granted kind log ≤ budgetLimit ks.entries.length kind
  unknown : ∀ kind, unknownGranted kind log ≤ serverUnknownShare (budgetLimit ks.entries.length kind)
  share : ∀ x, HasSlot (shareOwner b now) x →
    ∀ kind, shareGranted kind x log ≤ shareLimit ks.entries.length x.2 kind
  counts : ∀ k x, shareOwner b now k = some x → ∀ kind, (b.shares k).spent kind = shareGranted kind x log
  charged : ∀ c ∈ log, ∀ isNet k, c.slot isNet = some k → shareOwner b now k = some (c.share isNet)
  known : ∀ l₁ c l₂, log = l₁ ++ c :: l₂ → c.kind = .handshake → c.exempt = true → c.granted = false →
    SERVER_HANDSHAKES_PER_SEC - serverUnknownShare SERVER_HANDSHAKES_PER_SEC ≤ exemptGranted .handshake l₁
  own : ∀ c ∈ log, c.kind = .trial → c.exempt = true → c.granted = true
  ownFirst : ∀ o l₁ l₂, trialOrder ks (some o) = l₁ ++ o :: l₂ →
    ∀ i ∈ l₁, i = 0 ∧ ks.entries.head?.any fun e => e.owner == []

theorem shareOwner_window (b : Budget) (now : Time) : shareOwner (serverBudgetWindow b now) now = shareOwner b now := by
  unfold serverBudgetWindow
  split <;> rfl

theorem serverBudgetWindow_shares (b : Budget) (now : Time) : (serverBudgetWindow b now).shares = b.shares := by
  unfold serverBudgetWindow
  split <;> rfl

theorem trialOrder_own {ks : Keystore} {o : ℕ} {l₁ l₂ : List ℕ} (h : trialOrder ks (some o) = l₁ ++ o :: l₂) :
    ∀ i ∈ l₁, i = 0 ∧ ks.entries.head?.any fun e => e.owner == [] := by
  unfold trialOrder at h
  dsimp only at h
  generalize hglobal : (ks.entries.head?.any fun e => e.owner == []) = global at h ⊢
  generalize hahead : (if global = true then 1 else 0) = ahead at h
  have hone : ahead = 1 ∧ global = true ∨ ahead = 0 := by
    rw [← hahead]
    cases global with
    | false => exact Or.inr rfl
    | true => exact Or.inl ⟨rfl, rfl⟩
  have hat : ∀ k i, (l₁ ++ o :: l₂)[k]? = some i → trialIndex (some o) ahead k = i := by
    intro k i hk
    rw [← h, List.getElem?_map, Option.map_eq_some_iff] at hk
    obtain ⟨j, hj, rfl⟩ := hk
    obtain ⟨hlt, rfl⟩ := List.getElem?_eq_some_iff.mp hj
    rw [List.getElem_range]
  have hown := hat l₁.length o (by simp)
  have hplace : l₁.length ≤ ahead := by
    unfold trialIndex at hown
    dsimp only at hown
    split_ifs at hown <;> omega
  intro i hi
  obtain ⟨k, hk, rfl⟩ := List.getElem_of_mem hi
  have hfirst := hat k l₁[k] (by rw [List.getElem?_append_left hk, List.getElem?_eq_getElem hk])
  obtain ⟨hone, hglobal⟩ | hzero := hone
  · refine ⟨?_, hglobal⟩
    rw [← hfirst]
    unfold trialIndex
    dsimp only
    split_ifs <;> omega
  · omega

theorem unknownGranted_le (kind : ChargeKind) (l₁ l₂ : List Charge) :
    unknownGranted kind l₁ ≤ unknownGranted kind (l₁ ++ l₂) := by
  unfold unknownGranted
  rw [List.countP_append]
  exact Nat.le_add_right _ _

/-- An exempt request is refused only when the exempt ones have taken what the unknown sources leave. -/
theorem Ledger.exempt_left {keys : ℕ} {b : Budget} {now : Time} {l₁ l₂ : List Charge} {c : Charge}
    (h : Ledger N keys b now log) (hlog : log = l₁ ++ c :: l₂) (hexempt : c.exempt = true) (hg : c.granted = false) :
    budgetLimit keys c.kind - serverUnknownShare (budgetLimit keys c.kind) ≤ exemptGranted c.kind l₁ := by
  have hfull := h.refused l₁ c l₂ hlog hexempt hg
  have hunknown : unknownGranted c.kind l₁ ≤ serverUnknownShare (budgetLimit keys c.kind) := by
    refine (unknownGranted_le c.kind l₁ (c :: l₂)).trans ?_
    rw [← hlog]
    exact h.unknownLimit c.kind
  rw [granted_split] at hfull
  omega

theorem exemptGranted_le_ownTrials (l : List Charge) : exemptGranted .trial l ≤ ownTrials l := by
  refine List.countP_mono_left fun c _ hc => ?_
  simp only [Bool.and_eq_true] at hc ⊢
  exact ⟨hc.1.1, hc.2⟩

theorem ownTrials_le (l₁ l₂ : List Charge) : ownTrials l₁ ≤ ownTrials (l₁ ++ l₂) := by
  rw [ownTrials_append]
  exact Nat.le_add_right _ _

/-- The handshakes of a second are too few for their own keys' trials to take what the unknown sources leave. -/
theorem SecondLedger.own_granted (h : SecondLedger N s₀ t log) {c : Charge} (hc : c ∈ log) (hkind : c.kind = .trial)
    (hexempt : c.exempt = true) : c.granted = true := by
  by_contra hg
  rw [Bool.not_eq_true] at hg
  obtain ⟨l₁, l₂, hlog⟩ := List.append_of_mem hc
  have hleft := h.ledger.exempt_left hlog hexempt hg
  rw [hkind] at hleft
  have htrials : exemptGranted .trial l₁ ≤ 200 := by
    calc exemptGranted .trial l₁ ≤ ownTrials l₁ := exemptGranted_le_ownTrials l₁
      _ ≤ ownTrials log := by rw [hlog]; exact ownTrials_le l₁ _
      _ ≤ exemptGranted .handshake log := h.own
      _ ≤ granted .handshake log := by rw [granted_split]; exact Nat.le_add_left _ _
      _ ≤ 200 := h.ledger.limit .handshake
  have hlimit : 51200 ≤ budgetLimit s₀.conf.ks.entries.length .trial := Nat.le_max_left _ _
  unfold serverUnknownShare at hleft
  omega

/-- **A second is fair**, when the key of the share table does not come while a share is in use. -/
theorem fairSecond {es : List (Event n)} (hs : FreshSecond s)
    (hrun : Machine.Steps (serverMachine N n) (fun s e => SameSecond s e ∧ KeepsShareKey N s e) s es t) :
    FairSecond s.conf.ks t.budget s.now (budgetLog N s es) := by
  have h : SecondLedger N s t (budgetLog N s es) := (SecondLedger.start hs).run hrun
  have howner := shareOwner_window t.budget s.now
  refine
    { spent := h.ledger.spent
      whole := h.ledger.limit
      unknown := h.ledger.unknownLimit
      share := fun x hx kind => ?_
      counts := fun k x hk kind => ?_
      charged := fun c hc isNet k hk => ?_
      known := fun l₁ c l₂ hlog hkind hexempt hg => ?_
      own := fun c hc hkind hexempt => h.own_granted hc hkind hexempt
      ownFirst := fun o l₁ l₂ => trialOrder_own }
  · obtain ⟨k, hk⟩ := hx
    rw [← howner] at hk
    exact h.ledger.shareLimit k x hk kind
  · rw [← howner] at hk
    have hcount := h.ledger.share k x hk kind
    rwa [serverBudgetWindow_shares] at hcount
  · rw [← howner]
    exact h.ledger.charged c hc isNet k hk
  · have hleft := h.ledger.exempt_left hlog hexempt hg
    rwa [hkind] at hleft

/-! ## Runs within a second -/

/-- The handshake of a live client in the next second, and the trial of its own key. -/
def toyRekey : List (Event 3) := [udpInit 80 2 (toySource 2 1000) "MODE=MANUAL CLIENT_ID=p LOCAL_IP=10.0.0.6"]

theorem fairSecond_rekey : ∃ s t : Server 3,
    (budgetLog toyNoise s toyRekey).map (fun c => (c.kind, c.exempt)) = [(.handshake, true), (.trial, true)] ∧
      FairSecond s.conf.ks t.budget s.now (budgetLog toyNoise s toyRekey) := by
  have hp : ((toyMachine 3).runUnder (fun _ _ => True) (toyServer 3 .udp toyDb)
      [udpInit 80 1 (toySource 2 1000) "MODE=MANUAL CLIENT_ID=p LOCAL_IP=10.0.0.6",
        .udp (dataPacket 0x00010001#32 0 []) (toySource 2 1000) (toyEnv 0), .tick 101]).any (fun s =>
      decide (FreshSecond s) &&
        ((toyMachine 3).runUnder (fun s e => SameSecond s e ∧ KeepsShareKey toyNoise s e) s toyRekey).any fun _ =>
          (budgetLog toyNoise s toyRekey).map (fun c => (c.kind, c.exempt)) == [(.handshake, true), (.trial, true)]) =
      true := by
    decide +kernel
  obtain ⟨s, -, hp⟩ := (Option.any_eq_true _ _).mp hp
  rw [Bool.and_eq_true, decide_eq_true_eq] at hp
  obtain ⟨t, ht, hlog⟩ := (Option.any_eq_true _ _).mp hp.2
  exact ⟨s, t, beq_iff_eq.mp hlog, fairSecond hp.1 (Machine.runUnder_steps ht)⟩

/-- A table whose key moves every share. -/
def keyedNoise : Noise Unit := { toyNoise with shareHash := fun key _ => if key = 0 then 0 else 100 }

theorem keyedNoise_started : Started keyedNoise (toyServer 3 .udp toyDb) := toyServer_started 3 .udp toyDb

theorem toyServer_fresh (n : ℕ) (transport : Transport) (db : ServerDb) : FreshSecond (toyServer n transport db) :=
  ⟨by rintro ⟨⟩, fun _ => by rintro ⟨⟩⟩

/-- A source's share of the handshakes without randomness, and one more handshake with it. -/
def keyComes : List (Event 3) :=
  let init (key : Option (BitVec 128)) : Event 3 :=
    .udp (initPacket 65 1 "MODE=MANUAL CLIENT_ID=a LOCAL_IP=10.0.0.5") (toySource 1 1000)
      { toyEnv 1 with shareKey := fun _ => key }
  List.replicate 25 (init none) ++ [init (some 1)]

theorem shareTwice : ¬ ∀ (N : Noise Unit) (s t : Server 3) (es : List (Event 3)), Started N s → FreshSecond s →
    Machine.Steps (serverMachine N 3) SameSecond s es t → FairSecond s.conf.ks t.budget s.now (budgetLog N s es) := by
  intro h
  have hp : ((serverMachine keyedNoise 3).runUnder SameSecond (toyServer 3 .udp toyDb) keyComes).any (fun t =>
      shareOwner t.budget 100 100 == some (0xc6336401#32, false) &&
        shareGranted .handshake (0xc6336401#32, false) (budgetLog keyedNoise (toyServer 3 .udp toyDb) keyComes) == 26) =
      true := by
    decide +kernel
  obtain ⟨t, ht, hp⟩ := (Option.any_eq_true _ _).mp hp
  rw [Bool.and_eq_true, beq_iff_eq, beq_iff_eq] at hp
  obtain ⟨howner, hgranted⟩ := hp
  have hfair := h keyedNoise (toyServer 3 .udp toyDb) t keyComes keyedNoise_started (toyServer_fresh 3 .udp toyDb)
    (Machine.runUnder_steps ht)
  have hshare := hfair.share (0xc6336401#32, false) ⟨100, howner⟩ .handshake
  rw [show shareGranted _ _ _ = 26 from hgranted] at hshare
  exact absurd hshare (by decide)

end Camex
