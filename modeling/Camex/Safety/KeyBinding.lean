import Camex.Concrete
import Camex.Server.InitEntry

/-!
# A client's key is one its ID may use

* `keyStillAllowed_iff`, `serverRegisterAllowed_iff`: the check after a reload and the one of a
  handshake are both `KeyAllowed`;
* `KeyBound`: every registered entry has a key that its ID may use; an invariant of runs whose
  handshakes meet `KeepsKey` (`keyBound_reachable`).
-/

namespace Camex

open Lib

variable {n : ℕ} {Hs : Type} {N : Noise Hs}

/-! ## One relation, coded twice -/

section Checks

variable {ks : Keystore} {key : Key}

theorem not_keyAllowed_of_not_contains (hkey : configKsContains ks key = false) (clientId : CStr) :
    ¬ KeyAllowed ks key clientId := by
  unfold configKsContains at hkey
  rw [Option.isSome_eq_false_iff, Option.isNone_iff_eq_none] at hkey
  have hglobal : configKsIsGlobal ks key = false := by
    unfold configKsIsGlobal
    rw [hkey]
  have howned : configKsKeyOwnedBy ks key clientId = false := by
    rw [Bool.eq_false_iff]
    intro h
    unfold configKsKeyOwnedBy at h
    simp only [Bool.and_eq_true, List.any_eq_true] at h
    obtain ⟨-, e, he, -, hl, hk⟩ := h
    unfold ksFindKey at hkey
    have := List.find?_eq_none.mp hkey e he
    simp only [Bool.and_eq_true, not_and] at this
    exact this hl hk
  unfold KeyAllowed
  split
  · rw [howned]
    exact Bool.false_ne_true
  · rw [hglobal]
    exact Bool.false_ne_true

/-- **The check after a reload** is `KeyAllowed`. -/
theorem keyStillAllowed_iff (clientId : CStr) :
    keyStillAllowed ks key clientId = true ↔ KeyAllowed ks key clientId := by
  unfold keyStillAllowed
  by_cases hkey : configKsContains ks key = true
  · rw [KeyAllowed_iff hkey, hkey, Bool.true_and]
    by_cases hid : clientId = []
    · rw [if_pos hid, configKsIsGlobal_iff hkey, hid]
      simp
    · rw [if_neg hid]
      simp
  · rw [Bool.not_eq_true] at hkey
    rw [hkey]
    simp [not_keyAllowed_of_not_contains hkey]

/-- **The check of a handshake** is `KeyAllowed`: an auto client keeps the ID it names. -/
theorem serverRegisterAllowed_iff (hkey : configKsContains ks key = true) (db : ServerDb)
    (clientId localIp : CStr) :
    serverRegisterAllowed db ks key clientId localIp true = some clientId ↔
      KeyAllowed ks key clientId := by
  refine ⟨serverRegisterAllowed_keyAllowed hkey, fun h => ?_⟩
  rw [KeyAllowed_iff hkey] at h
  unfold serverRegisterAllowed
  have hid : (if clientId = [] ∧ (!(configKsOwner ks key == [])) = true
      then store CAMEX_CLIENT_ID_LEN (configKsOwner ks key) else clientId) = clientId := by
    rw [if_neg]
    rintro ⟨rfl, howner⟩
    simp only [configKsKeyOwnedBy_nil, Bool.false_eq_true, false_or] at h
    simp [h.1] at howner
  dsimp only
  rw [hid, if_neg, if_pos rfl]
  rintro ⟨-, hown, hglobal⟩
  rcases h with h | ⟨howner, hhas⟩
  · rw [h] at hown
    cases hown
  · simp [howner, hhas] at hglobal

end Checks

/-! ## The invariant -/

/-- Every client has a key that its ID may use. -/
def KeyBound (s : Server n) : Prop :=
  ∀ i, (s.clients i).registered = true →
    KeyAllowed s.conf.ks (s.clients i).pskKey (s.clients i).clientId

/-- A handshake that lands on a registered entry has an ID that may use the entry's key. -/
def KeepsKey (s : Server n) (r : Register) (src : SockAddr) (fd : ℤ) : Prop :=
  ∀ i, LeadsTo s r src fd i → (s.clients i).registered = true →
    KeyAllowed s.conf.ks (s.clients i).pskKey r.clientId

instance (s : Server n) (r : Register) (src : SockAddr) (fd : ℤ) :
    Decidable (KeepsKey s r src fd) := by
  unfold KeepsKey
  infer_instance

theorem Changed.keyAllowed {ks : Keystore} {c c' : ServerClient} (h : Changed c c')
    (hc : c.registered = true → KeyAllowed ks c.pskKey c.clientId) (hr : c'.registered = true) :
    KeyAllowed ks c'.pskKey c'.clientId := by
  cases h with
  | retained h =>
    rw [h.pskKey, h.clientId]
    exact hc (h.registered ▸ hr)
  | promoted h =>
    rw [h.pskKey, h.clientId]
    exact hc (h.registered ▸ hr)
  | vacated h =>
    rw [h.registered] at hr
    cases hr

theorem InitFate.keyAllowed {s : Server n} {pkt : Bytes} {src : SockAddr} {fd : ℤ} {j : Fin n}
    {o : InitOutcome n} {c' : ServerClient} (h : InitFate N s pkt src fd j o c')
    (hC : ∀ r, Carries N s.conf pkt r → KeepsKey s r src fd) (hs : KeyBound s)
    (hr' : c'.registered = true) : KeyAllowed s.conf.ks c'.pskKey c'.clientId := by
  cases h with
  | alone h _ => exact (Changed.retained (.of_core h)).keyAllowed (hs j) hr'
  | adopted hc _ _ _ _ _ _ _ _ _ _ => rw [hc] at hr'; cases hr'
  | unused hc _ _ _ _ _ => rw [hc] at hr'; cases hr'
  | restored r hr _ ht h _ =>
    -- the key is put back, the ID is not
    have hkey : c'.pskKey = (s.clients j).pskKey := by rw [h.eq, ht.eq]
    have hid : c'.clientId = r.clientId := by rw [h.eq]
    have hreg : (s.clients j).registered = true := by
      rw [h.eq, ht.eq] at hr'
      exact hr'
    rw [hkey, hid]
    exact hC r hr j ht.leadsTo hreg
  | accepted r hr _ _ m h _ _ =>
    rw [h.eq]
    exact hr.keyAllowed

theorem serverReload_keyBound {s : Server n} (hs : Machine.Reachable (serverMachine N n) s)
    (h : KeyBound s) (file : Option ServerDb) (mem : KeyMemory) (grow : Fin n → Grow) :
    KeyBound (serverReload N s file mem grow) := by
  rcases serverReload_cases (N := N) s file mem grow with heq | ⟨db, conf, -, -, hclients, hconf⟩
  · rwa [heq]
  · intro i hr
    rw [hclients] at hr ⊢
    rw [hconf, ← keyStillAllowed_iff]
    refine serverRevalidate_keyStillAllowed grow { s with conf := conf } i ?_ hr
    have hentry := serverRevalidate_entry grow { s with conf := conf } i
    generalize (serverRevalidate grow { s with conf := conf }).clients i = c at hentry hr ⊢
    cases hentry with
    | kept => exact (sound_reachable hs i).active hr
    | withdrawn _ => exact (sound_reachable hs i).active hr
    | ended _ => cases hr

theorem keyBound_reachable {s : Server n}
    (h : Machine.ReachableUnder (serverMachine N n) (OnInit N KeepsKey) s) : KeyBound s := by
  refine serverMachine_invariant N (I := KeyBound) ?_ ?_ ?_ ?_ h
  · rintro s ⟨cfg, db, ctx, mem, ks, now, leases, -, rfl⟩ i hr
    cases hr
  · intro s s' hs hq i hr
    rw [hq.conf]
    exact (hq.entry i).keyAllowed (hs i) hr
  · exact fun s file mem grow hreach hs => serverReload_keyBound hreach hs file mem grow
  · intro s env pkt src fd s' o _ hs hC hrun i hr
    rw [hrun.conf]
    exact (hrun.fate i).keyAllowed hC hs hr

/-- A reload that leaves the keystore as it is ends no session for its key. -/
theorem KeyBound.serverRevalidateKeys {s : Server n} (h : KeyBound s) {conf : Conf}
    (hks : conf.ks = s.conf.ks) (grow : Fin n → Grow) (i : Fin n) :
    (Camex.serverRevalidateKeys grow { s with conf := conf }).clients i = s.clients i := by
  have hentry := serverRevalidateKeys_entry grow { s with conf := conf } i
  generalize (Camex.serverRevalidateKeys grow { s with conf := conf }).clients i = c at hentry ⊢
  cases hentry with
  | kept _ => rfl
  | ended hk _ =>
    refine absurd (fun _ hr => ?_) hk
    rw [keyStillAllowed_iff, hks]
    exact h i hr

/-- **Key binding**: every client has a key its ID may use; the checks of a handshake and of a reload
are one relation, so a reload with the same keystore ends nobody's session. -/
theorem keyBinding {s : Server n}
    (h : Machine.ReachableUnder (serverMachine N n) (OnInit N KeepsKey) s) :
    (∀ i, (s.clients i).active = true → (s.clients i).registered = true →
      KeyAllowed s.conf.ks (s.clients i).pskKey (s.clients i).clientId) ∧
    (∀ (ks : Keystore) (db : ServerDb) key clientId localIp, configKsContains ks key = true →
      (serverRegisterAllowed db ks key clientId localIp true = some clientId ↔
        keyStillAllowed ks key clientId = true)) ∧
    (∀ (ks : Keystore) (db : ServerDb) key clientId localIp auto id, configKsContains ks key = true →
      serverRegisterAllowed db ks key clientId localIp auto = some id →
        keyStillAllowed ks key id = true) ∧
    ∀ conf grow, conf.ks = s.conf.ks → ∀ i,
      (Camex.serverRevalidateKeys grow { s with conf := conf }).clients i = s.clients i :=
  have hbound := keyBound_reachable h
  ⟨fun i _ hr => hbound i hr,
    fun _ db _ clientId localIp hkey => by
      rw [keyStillAllowed_iff, serverRegisterAllowed_iff hkey],
    fun _ _ _ _ _ _ _ hkey hallowed => by
      rw [keyStillAllowed_iff]
      exact serverRegisterAllowed_keyAllowed hkey hallowed,
    fun _ grow hks i => hbound.serverRevalidateKeys hks grow i⟩

/-- A client with the global key and one with its own. -/
theorem keyBinding_twoClients : ∃ s : Server 3,
    ((s.clients 0).pskKey = toyKey 65 ∧ (s.clients 1).pskKey = toyKey 80) ∧
    KeyAllowed s.conf.ks (s.clients 0).pskKey (s.clients 0).clientId ∧
    KeyAllowed s.conf.ks (s.clients 1).pskKey (s.clients 1).clientId := by
  obtain ⟨s, hs, hp⟩ := Machine.runUnder_reachable (M := toyMachine 3) (C := OnInit toyNoise KeepsKey)
    (l := [udpInit 65 1 (toySource 1 1000) "MODE=MANUAL CLIENT_ID=a LOCAL_IP=10.0.0.5",
      udpInit 80 2 (toySource 2 1000) "MODE=MANUAL CLIENT_ID=p LOCAL_IP=10.0.0.6"])
    (p := fun s => decide (((s.clients 0).pskKey = toyKey 65 ∧ (s.clients 1).pskKey = toyKey 80) ∧
      ((s.clients 0).active = true ∧ (s.clients 0).registered = true) ∧
      (s.clients 1).active = true ∧ (s.clients 1).registered = true))
    (toyServer_started 3 .udp toyDb) (by decide +kernel)
  rw [decide_eq_true_iff] at hp
  exact ⟨s, hp.1, (keyBinding hs).1 0 hp.2.1.1 hp.2.1.2, (keyBinding hs).1 1 hp.2.2.1 hp.2.2.2⟩

/-- A handshake of the client with its own key for the address and from the source of another one,
whose answer is not sent, leaves its ID with the global key. -/
theorem not_keyBinding : ¬ ∀ (s : Server 3), Machine.Reachable (toyMachine 3) s →
    ∀ i, (s.clients i).active = true → (s.clients i).registered = true →
      KeyAllowed s.conf.ks (s.clients i).pskKey (s.clients i).clientId := by
  intro h
  obtain ⟨s, hs, hp⟩ := Machine.runUnder_reachable (M := toyMachine 3) (C := fun _ _ => True)
    (l := [udpInit 65 1 (toySource 1 1000) "MODE=MANUAL CLIENT_ID=a LOCAL_IP=10.0.0.5",
      .udp (initPacket 80 2 "MODE=MANUAL CLIENT_ID=p LOCAL_IP=10.0.0.5") (toySource 1 1000)
        { toyEnv 2 with sent := false }])
    (p := fun s => decide ((s.clients 0).active = true ∧ (s.clients 0).registered = true ∧
      ¬ KeyAllowed s.conf.ks (s.clients 0).pskKey (s.clients 0).clientId))
    (toyServer_started 3 .udp toyDb) (by decide +kernel)
  rw [decide_eq_true_iff] at hp
  exact hp.2.2 (h s hs 0 hp.1 hp.2.1)

end Camex
