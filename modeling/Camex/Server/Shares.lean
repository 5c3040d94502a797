import Camex.Lib.LossyTable
import Camex.Server.Auth

/-!
# The ledger of a second

A charge is a request to one of the two budgets, for a handshake or for a key trial, with the answer. `Ledger` says
that the counters of a second are the numbers of the charges that were granted, and that these keep to the limits;
`budgetRequest_ledger` that a request keeps it so.

* `budgetRequest`: both budgets are the same function of their counters and limits;
* `serverShareOf_claim`: the shares in use are a table of owners, and a lookup claims a slot of it;
* `SteadyKey`: a lookup does not change the key that places the shares while one is in use.
-/

namespace Camex

open Lib

variable {n : ℕ} {Hs : Type} (N : Noise Hs)

/-! ## Charges -/

inductive ChargeKind
  | handshake
  | trial
  deriving DecidableEq

/-- An address, or with `true` a /24. -/
abbrev ShareKey := Ip × Bool

/-- A request to a budget: from where, whether it is exempt from the shares of the unknown sources, the answer, and
the slots that were charged for its address and its /24. -/
structure Charge where
  kind : ChargeKind
  source : Ip
  exempt : Bool
  granted : Bool
  slot : Bool → Option (Fin SERVER_SRC_SLOTS)

def shareKeyOf (a : Ip) (isNet : Bool) : ShareKey := (if isNet then a &&& 0xFFFFFF00#32 else a, isNet)

def Charge.share (c : Charge) (isNet : Bool) : ShareKey := shareKeyOf c.source isNet

def granted (kind : ChargeKind) (log : List Charge) : ℕ := log.countP fun c => decide (c.kind = kind) && c.granted

def unknownGranted (kind : ChargeKind) (log : List Charge) : ℕ :=
  log.countP fun c => decide (c.kind = kind) && c.granted && !c.exempt

/-- What was granted without the shares of the unknown sources. -/
def exemptGranted (kind : ChargeKind) (log : List Charge) : ℕ :=
  log.countP fun c => decide (c.kind = kind) && c.granted && c.exempt

def shareGranted (kind : ChargeKind) (x : ShareKey) (log : List Charge) : ℕ :=
  log.countP fun c => decide (c.kind = kind) && c.granted && !c.exempt && decide (c.share x.2 = x)

theorem granted_split (kind : ChargeKind) (log : List Charge) :
    granted kind log = unknownGranted kind log + exemptGranted kind log := by
  unfold granted unknownGranted exemptGranted
  induction log with
  | nil => rfl
  | cons c log ih =>
    rw [List.countP_cons, List.countP_cons, List.countP_cons, ih]
    cases c.exempt <;> cases c.granted <;> by_cases hk : c.kind = kind <;> simp [hk] <;> omega

/-! ## Both budgets are one function -/

def ServerShare.spent (kind : ChargeKind) (h : ServerShare) : ℕ :=
  match kind with
  | .handshake => h.handshakes
  | .trial => h.trials

def ServerShare.charge (kind : ChargeKind) (h : ServerShare) : ServerShare :=
  match kind with
  | .handshake => { h with handshakes := h.handshakes + 1 }
  | .trial => { h with trials := h.trials + 1 }

def Budget.spent (kind : ChargeKind) (b : Budget) : ℕ :=
  match kind with
  | .handshake => b.handshakes
  | .trial => b.trials

def Budget.unknown (kind : ChargeKind) (b : Budget) : ℕ :=
  match kind with
  | .handshake => b.unknownHandshakes
  | .trial => b.unknownTrials

def Budget.spend (kind : ChargeKind) (b : Budget) : Budget :=
  match kind with
  | .handshake => { b with handshakes := b.handshakes + 1 }
  | .trial => { b with trials := b.trials + 1 }

/-- One more of the unknown sources' budget and of the whole one. -/
def Budget.spendUnknown (kind : ChargeKind) (b : Budget) : Budget :=
  match kind with
  | .handshake => { b with unknownHandshakes := b.unknownHandshakes + 1, handshakes := b.handshakes + 1 }
  | .trial => { b with unknownTrials := b.unknownTrials + 1, trials := b.trials + 1 }

/-- The whole budget; `keys` is the size of the keystore. -/
def budgetLimit (keys : ℕ) : ChargeKind → ℕ
  | .handshake => SERVER_HANDSHAKES_PER_SEC
  | .trial => serverKeyTrialsLimit keys

def shareLimit (keys : ℕ) (isNet : Bool) : ChargeKind → ℕ
  | .handshake =>
    if isNet then serverNetShare SERVER_HANDSHAKES_PER_SEC else serverSrcShare SERVER_HANDSHAKES_PER_SEC
  | .trial => serverTrialShare keys isNet

/-- `server_handshake_budget` and `server_key_trial_budget`. -/
def budgetRequest (keys : ℕ) (kind : ChargeKind) (b : Budget) (now : Time) (fresh : Bool → Option (BitVec 128))
    (a : Ip) (src : Source n) (exempt : Bool) : Budget × Source n × Bool :=
  if budgetLimit keys kind ≤ b.spent kind then (b, src, false)
  else if exempt then (b.spend kind, src, true)
  else if serverUnknownShare (budgetLimit keys kind) ≤ b.unknown kind then (b, src, false)
  else
    let (b, src) := serverSourceShares N b now fresh a src
    if shareSpent (fun h => shareLimit keys false kind ≤ h.spent kind) b src.addr ||
        shareSpent (fun h => shareLimit keys true kind ≤ h.spent kind) b src.net then (b, src, false)
    else
      ((chargeShare (.charge kind) (chargeShare (.charge kind) b src.addr) src.net).spendUnknown kind, src, true)

theorem serverHandshakeBudget_eq (keys : ℕ) (b : Budget) (now : Time) (fresh : Bool → Option (BitVec 128)) (a : Ip)
    (src : Source n) :
    serverHandshakeBudget N b now fresh a src = budgetRequest N keys .handshake b now fresh a src src.known.isSome :=
  rfl

theorem serverKeyTrialBudget_eq (keys : ℕ) (b : Budget) (now : Time) (fresh : Bool → Option (BitVec 128)) (a : Ip)
    (src : Source n) (own : Bool) :
    serverKeyTrialBudget N b now fresh a keys src own = budgetRequest N keys .trial b now fresh a src own :=
  rfl

/-! ## The shares in use -/

/-- Whose share a slot is in this second. -/
def shareOwner (b : Budget) (now : Time) (k : Fin SERVER_SRC_SLOTS) : Option ShareKey :=
  if (b.shares k).window = now then some ((b.shares k).key, (b.shares k).isNet) else none

def budgetProbes (b : Budget) (x : ShareKey) : List (Fin SERVER_SRC_SLOTS) :=
  shareProbes N (b.shareKey.getD 0) x.1 x.2

theorem budgetProbes_congr {b b' : Budget} (h : b'.shareKey = b.shareKey) : budgetProbes N b' = budgetProbes N b := by
  funext x
  unfold budgetProbes
  rw [h]

theorem budgetProbes_some (b : Budget) (x : ShareKey) : ∃ k, k ∈ budgetProbes N b x := by
  unfold budgetProbes shareProbes
  exact ⟨_, List.mem_map_of_mem (List.mem_range.mpr (by decide : 0 < SERVER_SRC_PROBES))⟩

/-- What the lookup of a share does. -/
structure ShareClaimed (b b' : Budget) (now : Time) (x : ShareKey) (slot : Option (Fin SERVER_SRC_SLOTS)) : Prop where
  frame : b' = { b with shares := b'.shares, shareKey := b'.shareKey }
  owner : shareOwner b' now = (claimSlot (shareOwner b now) x (budgetProbes N b' x)).1
  slot : slot = (claimSlot (shareOwner b now) x (budgetProbes N b' x)).2
  kept : ∀ k, (shareOwner b now k).isSome = true → b'.shares k = b.shares k
  new : ∀ k, shareOwner b now k = none → (shareOwner b' now k).isSome = true → ∀ kind, (b'.shares k).spent kind = 0

/-- `server_share_of` once the table has its key. -/
def claimShare (b : Budget) (now : Time) (x : ShareKey) : Budget × Option (Fin SERVER_SRC_SLOTS) :=
  match (budgetProbes N b x).find? fun k =>
    (b.shares k).window == now && (b.shares k).key == x.1 && (b.shares k).isNet == x.2 with
  | some k => (b, some k)
  | none =>
    match (budgetProbes N b x).find? fun k => (b.shares k).window != now with
    | none => (b, none)
    | some k => ({ b with shares := Function.update b.shares k ⟨x.1, x.2, now, 0, 0⟩ }, some k)

theorem serverShareOf_eq (b : Budget) (now : Time) (fresh : Option (BitVec 128)) (key : Ip) (isNet : Bool) :
    serverShareOf N b now fresh key isNet = claimShare N { b with shareKey := b.shareKey.or fresh } now (key, isNet) := by
  cases h : b.shareKey with
  | some k =>
    unfold serverShareOf
    rw [h]
    show claimShare N b now (key, isNet) = claimShare N { b with shareKey := some k } now (key, isNet)
    rw [← h]
  | none =>
    unfold serverShareOf
    rw [h]
    rfl

theorem claimShare_claimed (b : Budget) (now : Time) (x : ShareKey) :
    ShareClaimed N b (claimShare N b now x).1 now x (claimShare N b now x).2 := by
  unfold claimShare
  have hmine : (fun k => (b.shares k).window == now && (b.shares k).key == x.1 && (b.shares k).isNet == x.2) =
      fun k => decide (shareOwner b now k = some x) := by
    funext k
    unfold shareOwner
    obtain ⟨key, isNet⟩ := x
    by_cases hw : (b.shares k).window = now
    · rw [if_pos hw, Bool.eq_iff_iff]
      simp [hw]
    · simp [hw]
  have hfree : (fun k => (b.shares k).window != now) = fun k => (shareOwner b now k).isNone := by
    funext k
    unfold shareOwner
    by_cases hw : (b.shares k).window = now
    · simp [hw]
    · simp [hw]
  rw [hmine, hfree]
  have hsame : ∀ slot, claimSlot (shareOwner b now) x (budgetProbes N b x) = (shareOwner b now, slot) →
      ShareClaimed N b b now x slot := fun slot h =>
    { frame := rfl
      owner := by rw [h]
      slot := by rw [h]
      kept := fun _ _ => rfl
      new := fun k hnone hsome => by rw [hnone] at hsome; cases hsome }
  cases h₁ : (budgetProbes N b x).find? fun k => decide (shareOwner b now k = some x) with
  | some k => exact hsame (some k) (by unfold claimSlot; rw [h₁])
  | none =>
    cases h₂ : (budgetProbes N b x).find? fun k => (shareOwner b now k).isNone with
    | none => exact hsame none (by unfold claimSlot; rw [h₁, h₂])
    | some k =>
      have hclaim : claimSlot (shareOwner b now) x (budgetProbes N b x) =
          (Function.update (shareOwner b now) k (some x), some k) := by
        unfold claimSlot
        rw [h₁, h₂]
      have howner : shareOwner b now k = none := by simpa using List.find?_some h₂
      refine
        { frame := rfl
          owner := ?_
          slot := ?_
          kept := fun l hl => ?_
          new := fun l hnone hsome kind => ?_ }
      · show shareOwner { b with shares := _ } now =
          (claimSlot (shareOwner b now) x (budgetProbes N b x)).1
        rw [hclaim]
        funext l
        unfold shareOwner
        by_cases hl : l = k
        · subst hl
          simp
        · simp [hl]
      · show some k = (claimSlot (shareOwner b now) x (budgetProbes N b x)).2
        rw [hclaim]
      · have hne : l ≠ k := by
          rintro rfl
          rw [howner] at hl
          cases hl
        exact Function.update_of_ne hne ..
      · show ((Function.update b.shares k ⟨x.1, x.2, now, 0, 0⟩) l).spent kind = 0
        by_cases hl : l = k
        · subst hl
          rw [Function.update_self]
          cases kind <;> rfl
        · -- a slot without an owner before and another one than the new share has none after
          have hother : shareOwner { b with shares := Function.update b.shares k ⟨x.1, x.2, now, 0, 0⟩ } now l =
              shareOwner b now l := by
            unfold shareOwner
            simp [hl]
          have hsome' : (shareOwner { b with shares := Function.update b.shares k ⟨x.1, x.2, now, 0, 0⟩ } now l).isSome =
              true := hsome
          rw [hother, hnone] at hsome'
          cases hsome'

theorem claimShare_key (b : Budget) (now : Time) (x : ShareKey) : (claimShare N b now x).1.shareKey = b.shareKey := by
  unfold claimShare
  split
  · rfl
  · split <;> rfl

theorem serverShareOf_claimed (b : Budget) (now : Time) (fresh : Option (BitVec 128)) (key : Ip) (isNet : Bool) :
    ShareClaimed N b (serverShareOf N b now fresh key isNet).1 now (key, isNet)
        (serverShareOf N b now fresh key isNet).2 ∧
      (serverShareOf N b now fresh key isNet).1.shareKey = b.shareKey.or fresh := by
  rw [serverShareOf_eq]
  have h := claimShare_claimed N { b with shareKey := b.shareKey.or fresh } now (key, isNet)
  refine ⟨⟨?_, h.owner, h.slot, h.kept, h.new⟩, claimShare_key ..⟩
  rw [h.frame]

/-! ## The ledger -/

/-- **The ledger of a second**: the counters are the numbers of the charges that were granted, in the shares too; these
keep to the limits; a slot that was charged is still the share of the charge's source; and a request that is exempt
was refused only when the whole budget was spent. -/
structure Ledger (keys : ℕ) (b : Budget) (now : Time) (log : List Charge) : Prop where
  window : b.window = now
  spent : ∀ kind, b.spent kind = granted kind log
  unknown : ∀ kind, b.unknown kind = unknownGranted kind log
  placed : Placed (budgetProbes N b) (shareOwner b now)
  share : ∀ k x, shareOwner b now k = some x → ∀ kind, (b.shares k).spent kind = shareGranted kind x log
  without : ∀ x, ¬ HasSlot (shareOwner b now) x →
    (∀ kind, shareGranted kind x log = 0) ∨ CrowdedOut (budgetProbes N b) (shareOwner b now) x
  limit : ∀ kind, granted kind log ≤ budgetLimit keys kind
  unknownLimit : ∀ kind, unknownGranted kind log ≤ serverUnknownShare (budgetLimit keys kind)
  shareLimit : ∀ k x, shareOwner b now k = some x → ∀ kind, shareGranted kind x log ≤ shareLimit keys x.2 kind
  charged : ∀ c ∈ log, ∀ isNet k, c.slot isNet = some k → shareOwner b now k = some (c.share isNet)
  refused : ∀ l₁ c l₂, log = l₁ ++ c :: l₂ → c.exempt = true → c.granted = false →
    budgetLimit keys c.kind ≤ granted c.kind l₁

def Unused (b : Budget) (now : Time) : Prop := ∀ k, (b.shares k).window ≠ now

instance (b : Budget) (now : Time) : Decidable (Unused b now) :=
  inferInstanceAs (Decidable (∀ k, (b.shares k).window ≠ now))

theorem Unused.owner {b : Budget} {now : Time} (h : Unused b now) (k : Fin SERVER_SRC_SLOTS) :
    shareOwner b now k = none := if_neg (h k)

variable {N} {keys : ℕ} {b b' : Budget} {now : Time} {log : List Charge}

theorem Ledger.start (keys : ℕ) (hw : b.window ≠ now) (h : Unused b now) :
    Ledger N keys (serverBudgetWindow b now) now [] := by
  have heq : serverBudgetWindow b now =
      { b with window := now, handshakes := 0, unknownHandshakes := 0, trials := 0, unknownTrials := 0 } := by
    unfold serverBudgetWindow
    rw [if_neg hw]
  have hnone : ∀ k, shareOwner (serverBudgetWindow b now) now k = none := by
    intro k
    rw [heq]
    exact h.owner k
  refine
    { window := by rw [heq]
      spent := fun kind => by rw [heq]; cases kind <;> rfl
      unknown := fun kind => by rw [heq]; cases kind <;> rfl
      placed := .empty _ hnone
      share := fun k x hk => by rw [hnone k] at hk; cases hk
      without := fun x _ => Or.inl fun _ => rfl
      limit := fun kind => Nat.zero_le _
      unknownLimit := fun kind => Nat.zero_le _
      shareLimit := fun k x hk => by rw [hnone k] at hk; cases hk
      charged := fun c hc => by cases hc
      refused := fun l₁ c l₂ hl => by simp at hl }

theorem Ledger.window_eq (h : Ledger N keys b now log) : serverBudgetWindow b now = b := if_pos h.window

/-- The key that places the shares stays, or no share is in use. -/
theorem Ledger.lookup {x : ShareKey} {slot : Option (Fin SERVER_SRC_SLOTS)} (h : Ledger N keys b now log)
    (hc : ShareClaimed N b b' now x slot)
    (hkey : b'.shareKey = b.shareKey ∨ ∀ k, shareOwner b now k = none) :
    Ledger N keys b' now log ∧ Keeps (shareOwner b now) (shareOwner b' now) ∧
      (∀ k, slot = some k → shareOwner b' now k = some x) ∧
      (slot = none → CrowdedOut (budgetProbes N b') (shareOwner b' now) x) := by
  have hplaced : Placed (budgetProbes N b') (shareOwner b now) := by
    rcases hkey with hkey | hnone
    · rw [budgetProbes_congr N hkey]
      exact h.placed
    · exact .empty _ hnone
  have hwithout : ∀ y, ¬ HasSlot (shareOwner b now) y →
      (∀ kind, shareGranted kind y log = 0) ∨ CrowdedOut (budgetProbes N b') (shareOwner b now) y := by
    intro y hy
    rcases hkey with hkey | hnone
    · rw [budgetProbes_congr N hkey]
      exact h.without y hy
    · -- with no share in use nobody was crowded out, so nothing was granted
      rcases h.without y hy with hzero | hcrowded
      · exact Or.inl hzero
      · obtain ⟨k, hk⟩ := budgetProbes_some N b y
        obtain ⟨z, hz, _⟩ := hcrowded k hk
        rw [hnone] at hz
        cases hz
  have hkeeps : Keeps (shareOwner b now) (shareOwner b' now) := by
    rw [hc.owner]
    exact claimSlot_keeps hplaced
  have hnew : ∀ k y, shareOwner b' now k = some y → shareOwner b now k = some y ∨
      shareOwner b now k = none ∧ ∀ kind, shareGranted kind y log = 0 := by
    intro k y hk
    have hk' := hk
    rw [hc.owner] at hk
    rcases claimSlot_new hplaced hk with hold | ⟨hfree, hmem, rfl⟩
    · exact Or.inl hold
    · refine Or.inr ⟨hfree, ?_⟩
      have hnone : ¬ HasSlot (shareOwner b now) y := by
        rintro ⟨l, hl⟩
        have hplaced' : Placed (budgetProbes N b') (shareOwner b' now) := by
          rw [hc.owner]
          exact claimSlot_placed hplaced
        have hkl := hplaced'.unique k l y hk' (hkeeps l y hl)
        rw [hkl, hl] at hfree
        cases hfree
      rcases hwithout y hnone with hzero | hcrowded
      · exact hzero
      · obtain ⟨z, hz, _⟩ := hcrowded k hmem
        rw [hfree] at hz
        cases hz
  have hspent : ∀ kind, b'.spent kind = b.spent kind := fun kind => by
    rw [hc.frame]
    cases kind <;> rfl
  have hunknown : ∀ kind, b'.unknown kind = b.unknown kind := fun kind => by
    rw [hc.frame]
    cases kind <;> rfl
  refine ⟨?_, hkeeps, fun k hk => ?_, fun hnone => ?_⟩
  · refine
      { window := by rw [hc.frame]; exact h.window
        spent := fun kind => by rw [hspent, h.spent]
        unknown := fun kind => by rw [hunknown, h.unknown]
        placed := by rw [hc.owner]; exact claimSlot_placed hplaced
        share := fun k y hk kind => ?_
        without := fun y hy => ?_
        limit := h.limit
        unknownLimit := h.unknownLimit
        shareLimit := fun k y hk kind => ?_
        charged := fun c hlog isNet k hk => hkeeps _ _ (h.charged c hlog isNet k hk)
        refused := h.refused }
    · rcases hnew k y hk with hold | ⟨hfree, hzero⟩
      · rw [hc.kept k (by rw [hold]; rfl), h.share k y hold]
      · rw [hc.new k hfree (by rw [hk]; rfl), hzero]
    · rcases hwithout y fun ⟨k, hk⟩ => hy ⟨k, hkeeps k y hk⟩ with hzero | hcrowded
      · exact Or.inl hzero
      · exact Or.inr (hcrowded.keeps hkeeps)
    · rcases hnew k y hk with hold | ⟨_, hzero⟩
      · exact h.shareLimit k y hold kind
      · rw [hzero]
        exact Nat.zero_le _
  · rw [hc.owner]
    exact claimSlot_some hplaced (hc.slot.symm.trans hk)
  · rw [hc.owner]
    exact claimSlot_none hplaced (hc.slot.symm.trans hnone)

/-! ## A source's shares -/

def Source.slot (src : Source n) (isNet : Bool) : Option (Fin SERVER_SRC_SLOTS) := if isNet then src.net else src.addr

/-- The key that places the shares is there, or stays missing, or comes before any share is in use. -/
def SteadyKey (b : Budget) (now : Time) (fresh : Bool → Option (BitVec 128)) : Prop :=
  b.shareKey.isSome = true ∨ (∀ isNet, fresh isNet = none) ∨ ((fresh false).isSome = true ∧ Unused b now)

instance (b : Budget) (now : Time) (fresh : Bool → Option (BitVec 128)) : Decidable (SteadyKey b now fresh) :=
  inferInstanceAs (Decidable (b.shareKey.isSome = true ∨ (∀ isNet, fresh isNet = none) ∨
    ((fresh false).isSome = true ∧ Unused b now)))

variable (N) in
/-- The shares of a source were looked up. -/
structure Looked (b : Budget) (now : Time) (a : Ip) (src : Source n) : Prop where
  found : ∀ isNet k, src.slot isNet = some k → shareOwner b now k = some (shareKeyOf a isNet)
  crowded : ∀ isNet, src.slot isNet = none → CrowdedOut (budgetProbes N b) (shareOwner b now) (shareKeyOf a isNet)

variable (N) in
/-- The shares of a source were looked up, or can be. -/
def SourceReady (b : Budget) (now : Time) (fresh : Bool → Option (BitVec 128)) (a : Ip) (src : Source n) : Prop :=
  if src.lookedUp then Looked N b now a src else SteadyKey b now fresh

variable {fresh : Bool → Option (BitVec 128)} {a : Ip} {src : Source n}

theorem Looked.keeps (h : Looked N b now a src) (hkey : b'.shareKey = b.shareKey)
    (hk : Keeps (shareOwner b now) (shareOwner b' now)) : Looked N b' now a src where
  found isNet k hs := hk _ _ (h.found isNet k hs)
  crowded isNet hs := by
    rw [budgetProbes_congr N hkey]
    exact (h.crowded isNet hs).keeps hk

theorem serverSourceShares_ready (h : Ledger N keys b now log) (hr : SourceReady N b now fresh a src) :
    Ledger N keys (serverSourceShares N b now fresh a src).1 now log ∧
      Keeps (shareOwner b now) (shareOwner (serverSourceShares N b now fresh a src).1 now) ∧
      Looked N (serverSourceShares N b now fresh a src).1 now a (serverSourceShares N b now fresh a src).2 ∧
      (serverSourceShares N b now fresh a src).2.lookedUp = true ∧
      (serverSourceShares N b now fresh a src).2.known = src.known := by
  unfold serverSourceShares
  unfold SourceReady at hr
  by_cases hlooked : src.lookedUp = true
  · rw [if_pos hlooked] at hr ⊢
    exact ⟨h, .refl _, hr, hlooked, rfl⟩
  · rw [if_neg hlooked] at hr ⊢
    obtain ⟨hclaim₁, hkey₁⟩ := serverShareOf_claimed N b now (fresh false) a false
    generalize hq₁ : serverShareOf N b now (fresh false) a false = q₁ at hclaim₁ hkey₁ ⊢
    obtain ⟨b₁, addr⟩ := q₁
    dsimp only at hclaim₁ hkey₁ ⊢
    have hsteady₁ : b₁.shareKey = b.shareKey ∨ ∀ k, shareOwner b now k = none := by
      rcases hr with hsome | hnone | ⟨_, hunused⟩
      · refine Or.inl ?_
        rw [hkey₁, Option.or_of_isSome hsome]
      · refine Or.inl ?_
        rw [hkey₁, hnone false, Option.or_none]
      · exact Or.inr hunused.owner
    obtain ⟨h₁, hkeeps₁, hsome₁, hnone₁⟩ := h.lookup hclaim₁ hsteady₁
    obtain ⟨hclaim₂, hkey₂⟩ := serverShareOf_claimed N b₁ now (fresh true) (a &&& 0xFFFFFF00#32) true
    generalize hq₂ : serverShareOf N b₁ now (fresh true) (a &&& 0xFFFFFF00#32) true = q₂ at hclaim₂ hkey₂ ⊢
    obtain ⟨b₂, net⟩ := q₂
    dsimp only at hclaim₂ hkey₂ ⊢
    have hsteady₂ : b₂.shareKey = b₁.shareKey := by
      rw [hkey₂, hkey₁]
      rcases hr with hsome | hnone | ⟨hfresh, _⟩
      · rw [Option.or_of_isSome hsome, Option.or_of_isSome hsome]
      · rw [hnone true, Option.or_none]
      · rw [Option.or_of_isSome]
        rw [Option.isSome_or, hfresh, Bool.or_true]
    obtain ⟨h₂, hkeeps₂, hsome₂, hnone₂⟩ := h₁.lookup hclaim₂ (Or.inl hsteady₂)
    refine ⟨h₂, hkeeps₁.trans hkeeps₂, ⟨fun isNet k hk => ?_, fun isNet hk => ?_⟩, rfl, rfl⟩
    · cases isNet with
      | false => exact hkeeps₂ _ _ (hsome₁ k hk)
      | true => exact hsome₂ k hk
    · cases isNet with
      | false =>
        rw [budgetProbes_congr N hsteady₂]
        exact (hnone₁ hk).keeps hkeeps₂
      | true => exact hnone₂ hk

/-! ## One more charge -/

/-- A request that was added stands behind a list that was there, or is the last one. -/
theorem append_singleton_split {α : Type*} {l l₁ l₂ : List α} {c d : α} (h : l ++ [d] = l₁ ++ c :: l₂) :
    (l = l₁ ∧ d = c) ∨ ∃ l₃, l = l₁ ++ c :: l₃ := by
  rcases List.eq_nil_or_concat l₂ with rfl | ⟨l₃, e, rfl⟩
  · obtain ⟨hl, hd⟩ := List.append_inj' h rfl
    exact Or.inl ⟨hl, (List.cons.inj hd).1⟩
  · have h' : l ++ [d] = (l₁ ++ c :: l₃) ++ [e] := by
      rw [h, List.concat_eq_append, List.append_assoc, List.cons_append]
    exact Or.inr ⟨l₃, (List.append_inj' h' rfl).1⟩

variable {kind : ChargeKind} {c : Charge}

theorem granted_append : granted kind (log ++ [c]) =
    granted kind log + if c.kind = kind ∧ c.granted = true then 1 else 0 := by
  unfold granted
  rw [List.countP_append, List.countP_singleton]
  simp

theorem unknownGranted_append : unknownGranted kind (log ++ [c]) =
    unknownGranted kind log + if c.kind = kind ∧ c.granted = true ∧ c.exempt = false then 1 else 0 := by
  unfold unknownGranted
  rw [List.countP_append, List.countP_singleton]
  simp [and_assoc]

theorem shareGranted_append {x : ShareKey} : shareGranted kind x (log ++ [c]) =
    shareGranted kind x log + if c.kind = kind ∧ c.granted = true ∧ c.exempt = false ∧ c.share x.2 = x then 1 else 0 := by
  unfold shareGranted
  rw [List.countP_append, List.countP_singleton]
  simp [and_assoc]

theorem Ledger.refuse (h : Ledger N keys b now log) (hg : c.granted = false) (hslot : ∀ isNet, c.slot isNet = none)
    (hexempt : c.exempt = true → budgetLimit keys c.kind ≤ b.spent c.kind) : Ledger N keys b now (log ++ [c]) := by
  have hgranted : ∀ kind, granted kind (log ++ [c]) = granted kind log := fun kind => by
    rw [granted_append]
    simp [hg]
  have hunknown : ∀ kind, unknownGranted kind (log ++ [c]) = unknownGranted kind log := fun kind => by
    rw [unknownGranted_append]
    simp [hg]
  have hshare : ∀ kind x, shareGranted kind x (log ++ [c]) = shareGranted kind x log := fun kind x => by
    rw [shareGranted_append]
    simp [hg]
  refine
    { window := h.window
      spent := fun kind => by rw [hgranted]; exact h.spent kind
      unknown := fun kind => by rw [hunknown]; exact h.unknown kind
      placed := h.placed
      share := fun k x hk kind => by rw [hshare]; exact h.share k x hk kind
      without := fun x hx => by
        simp only [hshare]
        exact h.without x hx
      limit := fun kind => by rw [hgranted]; exact h.limit kind
      unknownLimit := fun kind => by rw [hunknown]; exact h.unknownLimit kind
      shareLimit := fun k x hk kind => by rw [hshare]; exact h.shareLimit k x hk kind
      charged := fun d hd isNet k hk => ?_
      refused := fun l₁ d l₂ hl hde hdg => ?_ }
  · rcases List.mem_append.mp hd with hd | hd
    · exact h.charged d hd isNet k hk
    · rw [List.mem_singleton.mp hd, hslot] at hk
      cases hk
  · rcases append_singleton_split hl with ⟨rfl, rfl⟩ | ⟨l₃, hlog⟩
    · rw [← h.spent]
      exact hexempt hde
    · exact h.refused l₁ d l₃ hlog hde hdg

theorem spend_spent (kind' : ChargeKind) : (b.spend kind).spent kind' = b.spent kind' + if kind = kind' then 1 else 0 := by
  cases kind <;> cases kind' <;> rfl

theorem spend_unknown (kind' : ChargeKind) : (b.spend kind).unknown kind' = b.unknown kind' := by
  cases kind <;> cases kind' <;> rfl

theorem spend_shares : (b.spend kind).shares = b.shares ∧ (b.spend kind).shareKey = b.shareKey ∧
    (b.spend kind).window = b.window := by
  cases kind <;> exact ⟨rfl, rfl, rfl⟩

theorem shareOwner_congr (h : ∀ k, (b'.shares k).key = (b.shares k).key ∧ (b'.shares k).isNet = (b.shares k).isNet ∧
    (b'.shares k).window = (b.shares k).window) : shareOwner b' now = shareOwner b now := by
  funext k
  obtain ⟨hkey, hnet, hwindow⟩ := h k
  unfold shareOwner
  rw [hkey, hnet, hwindow]

theorem Ledger.exempt (h : Ledger N keys b now log) (hkind : c.kind = kind) (hg : c.granted = true) (he : c.exempt = true)
    (hslot : ∀ isNet, c.slot isNet = none) (hlimit : b.spent kind < budgetLimit keys kind) :
    Ledger N keys (b.spend kind) now (log ++ [c]) := by
  obtain ⟨hshares, hkey, hwindow⟩ := @spend_shares b kind
  have howner : shareOwner (b.spend kind) now = shareOwner b now := shareOwner_congr fun k => by
    rw [hshares]
    exact ⟨rfl, rfl, rfl⟩
  have hprobes : budgetProbes N (b.spend kind) = budgetProbes N b := budgetProbes_congr N hkey
  have hgranted : ∀ kind', granted kind' (log ++ [c]) = granted kind' log + if kind = kind' then 1 else 0 := fun kind' => by
    rw [granted_append, hkind]
    simp [hg]
  have hunknown : ∀ kind', unknownGranted kind' (log ++ [c]) = unknownGranted kind' log := fun kind' => by
    rw [unknownGranted_append]
    simp [he]
  have hshare : ∀ kind' x, shareGranted kind' x (log ++ [c]) = shareGranted kind' x log := fun kind' x => by
    rw [shareGranted_append]
    simp [he]
  refine
    { window := by rw [hwindow]; exact h.window
      spent := fun kind' => by rw [spend_spent, hgranted, h.spent]
      unknown := fun kind' => by rw [spend_unknown, hunknown, h.unknown]
      placed := by rw [howner, hprobes]; exact h.placed
      share := fun k x hk kind' => by
        rw [howner] at hk
        rw [hshare, hshares]
        exact h.share k x hk kind'
      without := fun x hx => by
        rw [howner] at hx ⊢
        rw [hprobes]
        simp only [hshare]
        exact h.without x hx
      limit := fun kind' => ?_
      unknownLimit := fun kind' => by rw [hunknown]; exact h.unknownLimit kind'
      shareLimit := fun k x hk kind' => by
        rw [howner] at hk
        rw [hshare]
        exact h.shareLimit k x hk kind'
      charged := fun d hd isNet k hk => ?_
      refused := fun l₁ d l₂ hl hde hdg => ?_ }
  · rw [hgranted]
    split
    · rename_i heq
      rw [← heq, ← h.spent]
      omega
    · exact h.limit kind'
  · rw [howner]
    rcases List.mem_append.mp hd with hd | hd
    · exact h.charged d hd isNet k hk
    · rw [List.mem_singleton.mp hd, hslot] at hk
      cases hk
  · rcases append_singleton_split hl with ⟨_, rfl⟩ | ⟨l₃, hlog⟩
    · rw [hg] at hdg
      cases hdg
    · exact h.refused l₁ d l₃ hlog hde hdg

def chargeUnknown (kind : ChargeKind) (b : Budget) (src : Source n) : Budget :=
  (chargeShare (.charge kind) (chargeShare (.charge kind) b src.addr) src.net).spendUnknown kind

theorem chargeShare_shares (f : ServerShare → ServerShare) (b : Budget) (slot : Option (Fin SERVER_SRC_SLOTS))
    (k : Fin SERVER_SRC_SLOTS) :
    (chargeShare f b slot).shares k = if slot = some k then f (b.shares k) else b.shares k := by
  unfold chargeShare
  cases slot with
  | none => rfl
  | some l =>
    by_cases hl : l = k
    · subst hl
      simp
    · rw [if_neg (by simpa using hl)]
      exact Function.update_of_ne (Ne.symm hl) ..

theorem charge_spent (kind kind' : ChargeKind) (h : ServerShare) :
    (h.charge kind).spent kind' = h.spent kind' + if kind = kind' then 1 else 0 := by
  cases kind <;> cases kind' <;> rfl

theorem charge_owner (kind : ChargeKind) (h : ServerShare) :
    (h.charge kind).key = h.key ∧ (h.charge kind).isNet = h.isNet ∧ (h.charge kind).window = h.window := by
  cases kind <;> exact ⟨rfl, rfl, rfl⟩

theorem chargeShare_frame (f : ServerShare → ServerShare) (b : Budget) (slot : Option (Fin SERVER_SRC_SLOTS)) :
    chargeShare f b slot = { b with shares := (chargeShare f b slot).shares } := by
  unfold chargeShare
  cases slot <;> rfl

theorem spendUnknown_spent (kind' : ChargeKind) :
    (b.spendUnknown kind).spent kind' = b.spent kind' + if kind = kind' then 1 else 0 := by
  cases kind <;> cases kind' <;> rfl

theorem spendUnknown_unknown (kind' : ChargeKind) :
    (b.spendUnknown kind).unknown kind' = b.unknown kind' + if kind = kind' then 1 else 0 := by
  cases kind <;> cases kind' <;> rfl

theorem spendUnknown_shares : (b.spendUnknown kind).shares = b.shares ∧ (b.spendUnknown kind).shareKey = b.shareKey ∧
    (b.spendUnknown kind).window = b.window := by
  cases kind <;> exact ⟨rfl, rfl, rfl⟩

section ChargeUnknown

variable (kind b src)

theorem chargeUnknown_frame : (chargeUnknown kind b src).shareKey = b.shareKey ∧
    (chargeUnknown kind b src).window = b.window ∧
    (∀ kind', (chargeUnknown kind b src).spent kind' = b.spent kind' + if kind = kind' then 1 else 0) ∧
    ∀ kind', (chargeUnknown kind b src).unknown kind' = b.unknown kind' + if kind = kind' then 1 else 0 := by
  unfold chargeUnknown
  obtain ⟨_, hkey, hwindow⟩ := @spendUnknown_shares
    (chargeShare (.charge kind) (chargeShare (.charge kind) b src.addr) src.net) kind
  rw [hkey, hwindow]
  refine ⟨?_, ?_, fun kind' => ?_, fun kind' => ?_⟩
  · rw [chargeShare_frame, chargeShare_frame (.charge kind) b]
  · rw [chargeShare_frame, chargeShare_frame (.charge kind) b]
  · rw [spendUnknown_spent, chargeShare_frame, chargeShare_frame (.charge kind) b]
    cases kind' <;> rfl
  · rw [spendUnknown_unknown, chargeShare_frame, chargeShare_frame (.charge kind) b]
    cases kind' <;> rfl

theorem chargeUnknown_share (k : Fin SERVER_SRC_SLOTS) (kind' : ChargeKind) :
    ((chargeUnknown kind b src).shares k).spent kind' = (b.shares k).spent kind' +
      (if src.addr = some k ∧ kind = kind' then 1 else 0) + if src.net = some k ∧ kind = kind' then 1 else 0 := by
  unfold chargeUnknown
  rw [spendUnknown_shares.1, chargeShare_shares, chargeShare_shares]
  by_cases haddr : src.addr = some k <;> by_cases hnet : src.net = some k <;>
    simp only [haddr, hnet, if_true, if_false, true_and, false_and, charge_spent] <;> omega

theorem chargeUnknown_owner : shareOwner (chargeUnknown kind b src) now = shareOwner b now := by
  refine shareOwner_congr fun k => ?_
  unfold chargeUnknown
  rw [spendUnknown_shares.1, chargeShare_shares, chargeShare_shares]
  have h₁ := charge_owner kind (b.shares k)
  have h₂ := charge_owner kind ((b.shares k).charge kind)
  by_cases haddr : src.addr = some k
  · rw [if_pos haddr]
    by_cases hnet : src.net = some k
    · rw [if_pos hnet]
      exact ⟨h₂.1.trans h₁.1, h₂.2.1.trans h₁.2.1, h₂.2.2.trans h₁.2.2⟩
    · rw [if_neg hnet]
      exact h₁
  · rw [if_neg haddr]
    by_cases hnet : src.net = some k
    · rw [if_pos hnet]
      exact h₁
    · rw [if_neg hnet]
      exact ⟨rfl, rfl, rfl⟩

end ChargeUnknown

/-- The slot of a share in use is the one that its source found. -/
theorem Looked.slot_iff (h : Ledger N keys b now log) (hl : Looked N b now a src) {k : Fin SERVER_SRC_SLOTS}
    {x : ShareKey} (hk : shareOwner b now k = some x) (isNet : Bool) :
    src.slot isNet = some k ↔ shareKeyOf a isNet = x := by
  constructor
  · intro hs
    have howner := hl.found isNet k hs
    rw [hk] at howner
    exact (Option.some.inj howner).symm
  · rintro rfl
    cases hs : src.slot isNet with
    | none => exact absurd ⟨k, hk⟩ ((hl.crowded isNet hs).noSlot h.placed)
    | some l => rw [h.placed.unique l k _ (hl.found isNet l hs) hk]

theorem Ledger.chargeUnknown (h : Ledger N keys b now log) (hl : Looked N b now a src)
    (hc : c = ⟨kind, a, false, true, src.slot⟩) (hlimit : b.spent kind < budgetLimit keys kind)
    (hunknown : b.unknown kind < serverUnknownShare (budgetLimit keys kind))
    (hshare : ∀ isNet k, src.slot isNet = some k → (b.shares k).spent kind < Camex.shareLimit keys isNet kind) :
    Ledger N keys (chargeUnknown kind b src) now (log ++ [c]) := by
  subst hc
  obtain ⟨hkey, hwindow, hspent', hunknown'⟩ := chargeUnknown_frame b src kind
  have howner : shareOwner (Camex.chargeUnknown kind b src) now = shareOwner b now := chargeUnknown_owner ..
  have hprobes : budgetProbes N (Camex.chargeUnknown kind b src) = budgetProbes N b := budgetProbes_congr N hkey
  have hshareGranted : ∀ kind' (x : ShareKey), shareGranted kind' x (log ++ [⟨kind, a, false, true, src.slot⟩]) =
      shareGranted kind' x log + if kind = kind' ∧ shareKeyOf a x.2 = x then 1 else 0 := fun kind' x => by
    rw [shareGranted_append]
    simp [Charge.share]
  -- the count of a share in use goes up where its source is the one that asks
  have hcount : ∀ k x, shareOwner b now k = some x → ∀ kind', ((Camex.chargeUnknown kind b src).shares k).spent kind' =
      (b.shares k).spent kind' + if kind = kind' ∧ shareKeyOf a x.2 = x then 1 else 0 := by
    intro k x hk kind'
    rw [chargeUnknown_share]
    have haddr := hl.slot_iff h hk false
    have hnet := hl.slot_iff h hk true
    obtain ⟨key, isNet⟩ := x
    cases isNet with
    | false =>
      have hno : ¬ src.net = some k := fun hs => by
        have heq := congrArg Prod.snd (hnet.mp hs)
        cases heq
      have haddr' : src.addr = some k ↔ shareKeyOf a false = (key, false) := haddr
      simp only [hno, false_and, if_false, Nat.add_zero, haddr', and_comm]
    | true =>
      have hno : ¬ src.addr = some k := fun hs => by
        have heq := congrArg Prod.snd (haddr.mp hs)
        cases heq
      have hnet' : src.net = some k ↔ shareKeyOf a true = (key, true) := hnet
      simp only [hno, false_and, if_false, Nat.add_zero, hnet', and_comm]
  refine
    { window := by rw [hwindow]; exact h.window
      spent := fun kind' => ?_
      unknown := fun kind' => ?_
      placed := by rw [howner, hprobes]; exact h.placed
      share := fun k x hk kind' => ?_
      without := fun x hx => ?_
      limit := fun kind' => ?_
      unknownLimit := fun kind' => ?_
      shareLimit := fun k x hk kind' => ?_
      charged := fun d hd isNet k hk => ?_
      refused := fun l₁ d l₂ hlog hde hdg => ?_ }
  · rw [hspent', h.spent, granted_append]
    simp
  · rw [hunknown', h.unknown, unknownGranted_append]
    simp
  · rw [howner] at hk
    rw [hcount k x hk, hshareGranted, h.share k x hk]
  · rw [howner] at hx ⊢
    rw [hprobes]
    by_cases hax : shareKeyOf a x.2 = x
    · refine Or.inr ?_
      have hnone : src.slot x.2 = none := by
        cases hs : src.slot x.2 with
        | none => rfl
        | some k => exact absurd ⟨k, by rw [← hax]; exact hl.found x.2 k hs⟩ hx
      have hcrowded := hl.crowded x.2 hnone
      rwa [hax] at hcrowded
    · simp only [hshareGranted, hax, and_false, if_false, Nat.add_zero]
      exact h.without x hx
  · rw [granted_append]
    simp only [and_true]
    split
    · rename_i heq
      rw [← heq, ← h.spent]
      omega
    · exact h.limit kind'
  · rw [unknownGranted_append]
    simp only [and_true]
    split
    · rename_i heq
      rw [← heq, ← h.unknown]
      omega
    · exact h.unknownLimit kind'
  · rw [howner] at hk
    rw [hshareGranted]
    split
    · rename_i heq
      obtain ⟨rfl, hax⟩ := heq
      have hroom := hshare x.2 k ((hl.slot_iff h hk x.2).mpr hax)
      rw [h.share k x hk] at hroom
      omega
    · exact h.shareLimit k x hk kind'
  · rw [howner]
    rcases List.mem_append.mp hd with hd | hd
    · exact h.charged d hd isNet k hk
    · rw [List.mem_singleton.mp hd] at hk ⊢
      exact hl.found isNet k hk
  · rcases append_singleton_split hlog with ⟨_, rfl⟩ | ⟨l₃, hlog⟩
    · cases hdg
    · exact h.refused l₁ d l₃ hlog hde hdg

/-! ## A request -/

variable (N) in
def requestCharge (keys : ℕ) (kind : ChargeKind) (b : Budget) (now : Time) (fresh : Bool → Option (BitVec 128))
    (a : Ip) (src : Source n) (exempt : Bool) : Charge where
  kind := kind
  source := a
  exempt := exempt
  granted := (budgetRequest N keys kind b now fresh a src exempt).2.2
  slot :=
    if (budgetRequest N keys kind b now fresh a src exempt).2.2 && !exempt then
      (budgetRequest N keys kind b now fresh a src exempt).2.1.slot
    else fun _ => none

theorem SourceReady.looked (h : Looked N b now a src) (hs : src.lookedUp = true) : SourceReady N b now fresh a src := by
  unfold SourceReady
  rwa [if_pos hs]

theorem SourceReady.spend (h : SourceReady N b now fresh a src) : SourceReady N (b.spend kind) now fresh a src := by
  obtain ⟨hshares, hkey, _⟩ := @spend_shares b kind
  have howner : shareOwner (b.spend kind) now = shareOwner b now := shareOwner_congr fun k => by
    rw [hshares]
    exact ⟨rfl, rfl, rfl⟩
  unfold SourceReady at h ⊢
  split at h
  · rw [if_pos ‹_›]
    exact h.keeps hkey (howner ▸ .refl _)
  · rw [if_neg ‹_›]
    unfold SteadyKey Unused at h ⊢
    rwa [hshares, hkey]

/-- **A request keeps the ledger.** -/
theorem budgetRequest_ledger (kind : ChargeKind) (exempt : Bool) (h : Ledger N keys b now log)
    (hr : SourceReady N b now fresh a src) :
    Ledger N keys (budgetRequest N keys kind b now fresh a src exempt).1 now
        (log ++ [requestCharge N keys kind b now fresh a src exempt]) ∧
      SourceReady N (budgetRequest N keys kind b now fresh a src exempt).1 now fresh a
        (budgetRequest N keys kind b now fresh a src exempt).2.1 ∧
      (budgetRequest N keys kind b now fresh a src exempt).2.1.known = src.known := by
  unfold requestCharge budgetRequest
  split
  · rename_i hfull
    exact ⟨h.refuse rfl (fun _ => rfl) fun _ => hfull, hr, rfl⟩
  · rename_i hroom
    split
    · rename_i hexempt
      subst hexempt
      exact ⟨h.exempt rfl rfl rfl (fun _ => rfl) (by omega), hr.spend, rfl⟩
    · rename_i hexempt
      rw [Bool.not_eq_true] at hexempt
      subst hexempt
      split
      · exact ⟨h.refuse rfl (fun _ => rfl) (by rintro ⟨⟩), hr, rfl⟩
      · rename_i hunknown
        obtain ⟨h₁, _, hlooked, hup, hknown⟩ := serverSourceShares_ready h hr
        have hspent : ∀ kind, (serverSourceShares N b now fresh a src).1.spent kind = b.spent kind := fun kind => by
          rw [h₁.spent, h.spent]
        have hunknown₁ : ∀ kind, (serverSourceShares N b now fresh a src).1.unknown kind = b.unknown kind :=
          fun kind => by rw [h₁.unknown, h.unknown]
        generalize serverSourceShares N b now fresh a src = q at h₁ hlooked hup hknown hspent hunknown₁
        obtain ⟨b₁, src₁⟩ := q
        dsimp only at h₁ hlooked hup hknown hspent hunknown₁ ⊢
        split
        · exact ⟨h₁.refuse rfl (fun _ => rfl) (by rintro ⟨⟩), .looked hlooked hup, hknown⟩
        · rename_i hshare
          have hfree : ∀ isNet k, src₁.slot isNet = some k → (b₁.shares k).spent kind < shareLimit keys isNet kind := by
            intro isNet k hk
            rw [Bool.not_eq_true, Bool.or_eq_false_iff] at hshare
            unfold shareSpent at hshare
            cases isNet with
            | false =>
              have hk' : src₁.addr = some k := hk
              have hfree := hshare.1
              rw [hk'] at hfree
              simpa using hfree
            | true =>
              have hk' : src₁.net = some k := hk
              have hfree := hshare.2
              rw [hk'] at hfree
              simpa using hfree
          have hcharged := h₁.chargeUnknown hlooked rfl (by rw [hspent]; omega) (by rw [hunknown₁]; omega) hfree
          refine ⟨hcharged, .looked (hlooked.keeps (chargeUnknown_frame b₁ src₁ kind).1 ?_) hup, hknown⟩
          show Keeps (shareOwner b₁ now) (shareOwner (chargeUnknown kind b₁ src₁) now)
          rw [chargeUnknown_owner]
          exact .refl _

theorem budgetRequest_known (kind : ChargeKind) (exempt : Bool) :
    (budgetRequest N keys kind b now fresh a src exempt).2.1.known = src.known := by
  have hshares : (serverSourceShares N b now fresh a src).2.known = src.known := by
    unfold serverSourceShares
    split <;> rfl
  unfold budgetRequest
  split
  · rfl
  · split
    · rfl
    · split
      · rfl
      · dsimp only
        split
        · exact hshares
        · exact hshares

end Camex
