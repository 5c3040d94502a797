import Camex.Server.Expire

/-!
# Configuration reload (the reload block of `camex_run`)

`serverReload` switches the global key, builds the keystore and revalidates the clients; a step that
fails puts the previous configuration back. `serverReload_cases`: it kept everything, or it is the
three revalidations under the new configuration.
-/

namespace Camex

open Lib

variable {n : ℕ} {Hs : Type} (N : Noise Hs)

/-- The crypto context once the global key follows the new file; `none` without memory for it. -/
def reloadGlobalKey (cfg : Cfg) (mem : KeyMemory) (ctx : CryptoCtx) (db : ServerDb) : Option CryptoCtx :=
  if cfg.globalPskFromCli then some ctx
  else if db.globals.psk ≠ [] then
    match derivePskKey N mem db.globals.psk with
    | .ok key => some { ctx with ready := true, pskKey := key, hasGlobal := true }
    | .noMem => none
    -- a bad new key must not leave the old one working
    | .bad => some (cryptoDropGlobal { ctx with ready := true })
  else if ctx.hasGlobal then some (cryptoDropGlobal ctx)
  else some ctx

/-- The configuration a reload puts in place; `none` when it keeps the previous one. -/
def reloadConf (mem : KeyMemory) (conf : Conf) (db : ServerDb) : Option Conf :=
  match reloadGlobalKey N conf.cfg mem conf.ctx db with
  | none => none
  | some ctx =>
    match configBuildKeystore N mem ctx db with
    | .ok ks => some { conf with db := db, ks := ks, ctx := ctx }
    | .noKey => none
    | .noMem => none

def serverRevalidate (grow : Fin n → Grow) (s : Server n) : Server n :=
  serverRevalidateProfileAddresses (serverRevalidateUnknownClients grow (serverRevalidateKeys grow s))

/-- The reload block; `file` is `none` when the file cannot be read or does not parse. -/
def serverReload (s : Server n) (file : Option ServerDb) (mem : KeyMemory) (grow : Fin n → Grow) :
    Server n :=
  match file.bind (reloadConf N mem s.conf) with
  | none => s
  | some conf =>
    let s := serverRevalidate grow { s with conf := conf }
    { s with conf := { s.conf with tunnelIp := serverCheckPool s.conf.cfg.localCidr } }

/-! ## The revalidations, entry by entry -/

/-- An entry behind the revalidations: as it was, without its offer, or gone. -/
inductive Revalidated (c : ServerClient) : ServerClient → Prop
  | kept : Revalidated c c
  | withdrawn (h : c.active = true) : Revalidated c { c with pendingIpBe := 0, next := .wiped }
  | ended (h : c.active = true) : Revalidated c .wiped

/-- An entry the first two revalidations leave alone or end. -/
inductive KeptOrEnded (keep : Prop) (c : ServerClient) : ServerClient → Prop
  | kept (h : keep) : KeptOrEnded keep c c
  | ended (h : ¬ keep) (ha : c.active = true) : KeptOrEnded keep c .wiped

variable {N}

theorem serverRevalidateKeys_entry (grow : Fin n → Grow) (s : Server n) (i : Fin n) :
    KeptOrEnded ((s.clients i).active = true → (s.clients i).registered = true →
        keyStillAllowed s.conf.ks (s.clients i).pskKey (s.clients i).clientId = true)
      (s.clients i) ((serverRevalidateKeys grow s).clients i) := by
  refine forSlots_entry (revalidateKey_slotWise grow) (R := fun c => KeptOrEnded
    (c.active = true → c.registered = true → keyStillAllowed s.conf.ks c.pskKey c.clientId = true) c)
    i fun t hconf _ hi => ?_
  unfold revalidateKey
  dsimp only
  rw [hi, hconf]
  split
  · rename_i h
    rw [hi]
    refine .kept fun ha hr => ?_
    simpa [ha, hr] using h
  · rename_i h
    rw [serverEndClient_self]
    simp only [Bool.or_eq_true, Bool.not_eq_true', not_or, Bool.not_eq_false, Bool.not_eq_true] at h
    refine .ended (fun hk => ?_) h.1.1
    rw [hk h.1.1 h.1.2] at h
    exact absurd h.2 (by decide)

theorem serverRevalidateUnknownClients_entry (grow : Fin n → Grow) (s : Server n) (i : Fin n) :
    KeptOrEnded (s.conf.db.globals.denyUnknownClients = true → (s.clients i).active = true →
        (s.clients i).autoClient = true →
        (configDbFindClient s.conf.db (s.clients i).clientId).isSome = true)
      (s.clients i) ((serverRevalidateUnknownClients grow s).clients i) := by
  unfold serverRevalidateUnknownClients
  split
  · rename_i h
    refine .kept fun hd => ?_
    rw [hd] at h
    cases h
  · rename_i hdeny
    refine forSlots_entry (revalidateUnknown_slotWise grow) (R := fun c => KeptOrEnded
      (s.conf.db.globals.denyUnknownClients = true → c.active = true → c.autoClient = true →
        (configDbFindClient s.conf.db c.clientId).isSome = true) c)
      i fun t hconf _ hi => ?_
    unfold revalidateUnknown
    dsimp only
    rw [hi, hconf]
    split
    · rename_i h
      rw [hi]
      refine .kept fun _ ha hr => ?_
      simpa [ha, hr] using h
    · rename_i h
      rw [serverEndClient_self]
      simp only [Bool.or_eq_true, Bool.not_eq_true', not_or, Bool.not_eq_false] at h
      refine .ended (fun hk => ?_) h.1.1
      exact absurd (hk (by simpa using hdeny) h.1.1 h.1.2) (by simpa using h.2)

theorem serverRevalidateProfileAddresses_entry (s : Server n) (i : Fin n) :
    Revalidated (s.clients i) ((serverRevalidateProfileAddresses s).clients i) := by
  refine forSlots_entry revalidateAddress_slotWise (R := Revalidated) i fun t hconf _ hi => ?_
  unfold revalidateAddress
  dsimp only
  split
  · rw [hi]
    exact .kept
  · rename_i h
    simp only [Bool.or_eq_true, Bool.not_eq_true', not_or, Bool.not_eq_false] at h
    rw [hi] at h
    split
    · rw [Server.setClient_self, hi]
      unfold withdrawOffer
      split
      · exact .withdrawn h.1
      · exact .kept
    · rw [serverDropEntry_self]
      exact .ended h.1

theorem KeptOrEnded.revalidated {keep : Prop} {c c' : ServerClient} (h : KeptOrEnded keep c c') :
    Revalidated c c' := by
  cases h with
  | kept _ => exact .kept
  | ended _ ha => exact .ended ha

theorem Revalidated.trans {c c' c'' : ServerClient} (h : Revalidated c c') (h' : Revalidated c' c'') :
    Revalidated c c'' := by
  cases h with
  | kept => exact h'
  | withdrawn ha =>
    cases h' with
    | kept => exact .withdrawn ha
    | withdrawn _ => exact .withdrawn ha
    | ended _ => exact .ended ha
  | ended ha =>
    cases h' with
    | kept => exact .ended ha
    | withdrawn h => cases h
    | ended h => cases h

theorem serverRevalidateKeys_conf (grow : Fin n → Grow) (s : Server n) :
    (serverRevalidateKeys grow s).conf = s.conf := forSlots_conf (revalidateKey_slotWise grow) s

theorem serverRevalidateUnknownClients_conf (grow : Fin n → Grow) (s : Server n) :
    (serverRevalidateUnknownClients grow s).conf = s.conf := by
  unfold serverRevalidateUnknownClients
  split
  · rfl
  · exact forSlots_conf (revalidateUnknown_slotWise grow) s

theorem serverRevalidate_conf (grow : Fin n → Grow) (s : Server n) :
    (serverRevalidate grow s).conf = s.conf := by
  unfold serverRevalidate serverRevalidateProfileAddresses
  rw [forSlots_conf revalidateAddress_slotWise, serverRevalidateUnknownClients_conf,
    serverRevalidateKeys_conf]

theorem serverRevalidate_entry (grow : Fin n → Grow) (s : Server n) (i : Fin n) :
    Revalidated (s.clients i) ((serverRevalidate grow s).clients i) :=
  ((serverRevalidateKeys_entry grow s i).revalidated.trans
    (serverRevalidateUnknownClients_entry grow _ i).revalidated).trans
      (serverRevalidateProfileAddresses_entry _ i)

/-- An active entry that registered is left only with a key that is allowed. -/
theorem serverRevalidate_keyStillAllowed (grow : Fin n → Grow) (s : Server n) (i : Fin n)
    (ha : ((serverRevalidate grow s).clients i).active = true)
    (hr : ((serverRevalidate grow s).clients i).registered = true) :
    keyStillAllowed s.conf.ks ((serverRevalidate grow s).clients i).pskKey
      ((serverRevalidate grow s).clients i).clientId = true := by
  have hkeys := serverRevalidateKeys_entry grow s i
  have hrest : Revalidated ((serverRevalidateKeys grow s).clients i)
      ((serverRevalidate grow s).clients i) :=
    (serverRevalidateUnknownClients_entry grow _ i).revalidated.trans
      (serverRevalidateProfileAddresses_entry _ i)
  generalize (serverRevalidate grow s).clients i = c at hrest ha hr ⊢
  generalize (serverRevalidateKeys grow s).clients i = c₁ at hkeys hrest
  cases hkeys with
  | kept hk =>
    cases hrest with
    | kept => exact hk ha hr
    | withdrawn _ => exact hk ha hr
    | ended _ => cases ha
  | ended _ _ =>
    cases hrest with
    | kept => cases ha
    | withdrawn _ => cases ha
    | ended _ => cases ha

/-- The key switch is about the PSK: the server's key pair stays. -/
theorem reloadConf_initBase {mem : KeyMemory} {conf conf' : Conf} {db : ServerDb}
    (h : reloadConf N mem conf db = some conf') : initBase N conf'.ctx = initBase N conf.ctx := by
  unfold reloadConf at h
  split at h
  · cases h
  · rename_i ctx hctx
    have hbase : initBase N ctx = initBase N conf.ctx := by
      unfold reloadGlobalKey at hctx
      split at hctx
      · rw [← Option.some.inj hctx]
      · split at hctx
        · split at hctx
          · rw [← Option.some.inj hctx]
            rfl
          · cases hctx
          · rw [← Option.some.inj hctx]
            rfl
        · split at hctx <;> rw [← Option.some.inj hctx]
          rfl
    split at h
    · rw [← Option.some.inj h]
      exact hbase
    · cases h
    · cases h

/-- A reload keeps everything, or revalidates under the new configuration. -/
theorem serverReload_cases (s : Server n) (file : Option ServerDb) (mem : KeyMemory)
    (grow : Fin n → Grow) :
    serverReload N s file mem grow = s ∨
      ∃ db conf, file = some db ∧ reloadConf N mem s.conf db = some conf ∧
        (serverReload N s file mem grow).clients =
          (serverRevalidate grow { s with conf := conf }).clients ∧
        (serverReload N s file mem grow).conf =
          { conf with tunnelIp := serverCheckPool conf.cfg.localCidr } := by
  unfold serverReload
  cases file with
  | none => exact Or.inl rfl
  | some db =>
    rw [Option.bind_some]
    cases hconf : reloadConf N mem s.conf db with
    | none => exact Or.inl rfl
    | some conf =>
      refine Or.inr ⟨db, conf, rfl, hconf, rfl, ?_⟩
      dsimp only
      rw [serverRevalidate_conf]

end Camex
