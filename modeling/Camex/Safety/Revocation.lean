import Camex.Safety.KeyBinding

/-!
# Keys a reload takes away

* `NamedKey`: the command line or a valid `psk=` of the file names the key; `reloadConf_ample`: with one
  such key a reload that finds memory puts a keystore of these keys in place;
* `KeyLog`: for each session the key of the handshake that made it, kept by `loggedMachine` along a run;
* `keyRevocation`: after such a reload no other key is usable, and no session is left of a key that its
  client may not use, in runs whose handshakes meet `SameKey`.
-/

namespace Camex

open Lib

variable {n : ℕ} {Hs : Type} (N : Noise Hs)

/-! ## The keystore after a reload -/

/-- The keys a reload of this file leaves: the one of the command line, or of a valid `psk=` in
`[server]` when there is none, and those of the sections. -/
def NamedKey (conf : Conf) (db : ServerDb) (key : Key) : Prop :=
  (conf.cfg.globalPskFromCli = true ∧ conf.ctx.hasGlobal = true ∧ key = conf.ctx.pskKey) ∨
  (conf.cfg.globalPskFromCli = false ∧ db.globals.psk ≠ [] ∧ N.keyFromPsk db.globals.psk = some key) ∨
  ∃ p ∈ pskSections db, N.keyFromPsk p.profile.psk = some key

variable {N}

theorem derivePskKey_ample_iff {psk : CStr} {key : Key} :
    derivePskKey N .ample psk = .ok key ↔ N.keyFromPsk psk = some key := by
  unfold derivePskKey
  split
  · simp_all
  · rename_i k hk
    rw [if_neg (by simp [KeyMemory.ample]), hk, KeyRc.ok.injEq, Option.some.injEq]

theorem reloadGlobalKey_ample (conf : Conf) (db : ServerDb) :
    ∃ ctx, reloadGlobalKey N conf.cfg .ample conf.ctx db = some ctx ∧
      (ctx.hasGlobal = true → NamedKey N conf db ctx.pskKey) ∧
      (conf.cfg.globalPskFromCli = true → ctx.hasGlobal = conf.ctx.hasGlobal) ∧
      (conf.cfg.globalPskFromCli = false → ∀ key, db.globals.psk ≠ [] →
        N.keyFromPsk db.globals.psk = some key → ctx.hasGlobal = true) := by
  unfold reloadGlobalKey
  split
  · rename_i hcli
    exact ⟨_, rfl, fun hg => Or.inl ⟨hcli, hg, rfl⟩, fun _ => rfl, fun h => by rw [hcli] at h; cases h⟩
  · rename_i hcli
    have hcli : conf.cfg.globalPskFromCli = false := by simpa using hcli
    split
    · rename_i hpsk
      split
      · rename_i key hkey
        have hk := derivePskKey_ample_iff.mp hkey
        exact ⟨_, rfl, fun _ => Or.inr (Or.inl ⟨hcli, hpsk, hk⟩),
          fun h => (by rw [hcli] at h; cases h), fun _ _ _ _ => rfl⟩
      · rename_i hno
        exact absurd hno (derivePskKey_ample N _)
      · rename_i hbad
        refine ⟨_, rfl, fun h => (by cases h), fun h => (by rw [hcli] at h; cases h), fun _ key _ hk => ?_⟩
        rw [derivePskKey_ample_iff.mpr hk] at hbad
        cases hbad
    · rename_i hpsk
      split
      · exact ⟨_, rfl, fun h => (by cases h), fun h => (by rw [hcli] at h; cases h),
          fun _ _ h => absurd h hpsk⟩
      · rename_i hg
        exact ⟨_, rfl, fun h => absurd h hg, fun _ => rfl, fun _ _ h => absurd h hpsk⟩

theorem keystoreEntries_named {conf : Conf} {db : ServerDb} {ctx : CryptoCtx}
    (hctx : ctx.hasGlobal = true → NamedKey N conf db ctx.pskKey) {e : KeystoreEntry}
    (he : e ∈ keystoreEntries N .ample ctx db) (hl : e.locked = false) :
    NamedKey N conf db e.pskKey := by
  unfold keystoreEntries at he
  rcases List.mem_append.mp he with he | he
  · split at he
    · rename_i hg
      rw [List.mem_singleton.mp he]
      exact hctx hg
    · cases he
  · obtain ⟨p, hp, rfl⟩ := List.mem_map.mp he
    refine Or.inr (Or.inr ⟨p, hp, ?_⟩)
    unfold keystoreEntryOf at hl ⊢
    split at hl
    · rename_i key hkey
      exact derivePskKey_ample_iff.mp hkey
    · cases hl

/-- **A reload with a usable key** puts a keystore of the keys it names in place. -/
theorem reloadConf_ample {conf : Conf} {db : ServerDb} (husable : ∃ key, NamedKey N conf db key) :
    ∃ conf', reloadConf N .ample conf db = some conf' ∧
      ∀ e ∈ conf'.ks.entries, e.locked = false → NamedKey N conf db e.pskKey := by
  obtain ⟨ctx, hctx, hglobal, hcli, hfile⟩ := reloadGlobalKey_ample (N := N) conf db
  -- the key the configuration names has an entry that is not locked
  have hunlocked : (keystoreEntries N .ample ctx db).all KeystoreEntry.locked = false := by
    rw [Bool.eq_false_iff]
    intro hall
    rw [List.all_eq_true] at hall
    have hfirst : ctx.hasGlobal = true → False := fun hg => by
      have := hall ⟨ctx.pskKey, [], false⟩ (by
        unfold keystoreEntries
        rw [if_pos hg]
        exact List.mem_append_left _ (List.mem_singleton.mpr rfl))
      cases this
    obtain ⟨key, ⟨hc, hg, -⟩ | ⟨hc, hpsk, hk⟩ | ⟨p, hp, hk⟩⟩ := husable
    · exact hfirst ((hcli hc).trans hg)
    · exact hfirst (hfile hc key hpsk hk)
    · have := hall _ (List.mem_append_right _ (List.mem_map_of_mem hp))
      unfold keystoreEntryOf at this
      rw [derivePskKey_ample_iff.mpr hk] at this
      cases this
  unfold reloadConf
  rw [hctx]
  dsimp only
  rw [configBuildKeystore_ample, hunlocked]
  by_cases hready : (!ctx.ready) = true
  · rw [if_pos hready]
    exact ⟨_, rfl, nofun⟩
  · rw [if_neg hready, if_neg (by decide)]
    exact ⟨_, rfl, fun e he hl => keystoreEntries_named hglobal he hl⟩

/-! ## The keys of the sessions -/

/-- For each session of an entry the key of the handshake that made it. -/
abbrev KeyLog (n : ℕ) := Fin n → Which → Key

/-- A packet's mark in the log: a handshake that is accepted makes the offered session of an entry that
has a current one, else the current session; a packet on the offered session promotes it. -/
def logStep (s : Server n) (log : KeyLog n) : Option (PacketOutcome n) → KeyLog n
  | some (.init (.accepted j fresh r _ _)) =>
    Function.update log j
      (Function.update (log j) (if !fresh && (s.clients j).cur.valid then .next else .cur) r.key)
  | some (.data o) =>
    match o.session with
    | some (i, .next) =>
      Function.update log i
        (Function.update (Function.update (log i) .prev (log i .cur)) .cur (log i .next))
    | _ => log
  | _ => log

def loggedMachine (N : Noise Hs) (n : ℕ) : Machine (Server n × KeyLog n) (Event n) where
  start x := Started N x.1
  next x e := ((serverMachine N n).next x.1 e).map fun t => (t, logStep x.1 x.2 (serverStep N x.1 e).2)

/-- A handshake that lands on a registered entry comes under the entry's key. -/
def SameKey (s : Server n) (r : Register) (src : SockAddr) (fd : ℤ) : Prop :=
  ∀ i, LeadsTo s r src fd i → (s.clients i).registered = true → (s.clients i).pskKey = r.key

instance (s : Server n) (r : Register) (src : SockAddr) (fd : ℤ) : Decidable (SameKey s r src fd) := by
  unfold SameKey
  infer_instance

/-- The sessions of an entry were all made under its key. -/
def MadeUnder (c : ServerClient) (keys : Which → Key) : Prop :=
  ∀ w, (c.session w).valid = true → keys w = c.pskKey

theorem Vacant.madeUnder {c : ServerClient} (h : Vacant c) (keys : Which → Key) : MadeUnder c keys := by
  intro w hw
  cases w with
  | cur => rw [show c.session .cur = c.cur from rfl, h.cur] at hw; cases hw
  | next => rw [show c.session .next = c.next from rfl, h.next] at hw; cases hw
  | prev => rw [show c.session .prev = c.prev from rfl, h.prev] at hw; cases hw

theorem Retained.madeUnder {c c' : ServerClient} (h : Retained c c') {keys : Which → Key}
    (hc : MadeUnder c keys) : MadeUnder c' keys := by
  intro w hw
  rw [h.pskKey]
  refine hc w ?_
  cases w with
  | cur => exact h.cur.valid.symm.trans hw
  | next =>
    rcases h.next with hn | hn
    · exact hn.valid.symm.trans hw
    · rw [show c'.session .next = c'.next from rfl, hn] at hw
      cases hw
  | prev =>
    rcases h.prev with ⟨hp, -⟩ | ⟨hp, -⟩
    · exact hp.valid.symm.trans hw
    · rw [show c'.session .prev = c'.prev from rfl, hp] at hw
      cases hw

theorem KeptOrVacated.madeUnder {c c' : ServerClient} (h : KeptOrVacated c c') {keys : Which → Key}
    (hc : MadeUnder c keys) : MadeUnder c' keys := by
  cases h with
  | retained h => exact h.madeUnder hc
  | vacated h => exact h.madeUnder keys

theorem Promoted.madeUnder {c c' : ServerClient} (h : Promoted c c') {keys : Which → Key}
    (hc : MadeUnder c keys) :
    MadeUnder c' (Function.update (Function.update keys .prev (keys .cur)) .cur (keys .next)) := by
  intro w hw
  rw [h.pskKey]
  cases w with
  | cur => exact (Function.update_self ..).trans (hc .next h.confirmed)
  | next =>
    rw [show c'.session .next = c'.next from rfl, h.next] at hw
    cases hw
  | prev =>
    rw [show c'.session .prev = c'.prev from rfl, h.prev] at hw
    exact hc .cur hw

section Handshake

variable {s : Server n} {src : SockAddr} {fd : ℤ} {j : Fin n} {pkt : Bytes} {o : InitOutcome n}
  {c' : ServerClient}

/-- What a handshake that is not accepted on the entry leaves of its sessions. -/
theorem InitFate.madeUnder (h : InitFate N s pkt src fd j o c')
    (ho : ∀ fresh r reply packet, o ≠ .accepted j fresh r reply packet) {keys : Which → Key}
    (hs : MadeUnder (s.clients j) keys) : MadeUnder c' keys := by
  cases h with
  | alone h _ => exact (Retained.of_core h).madeUnder hs
  | adopted hc _ _ _ _ _ _ _ _ _ _ => rw [hc]; exact vacant_wiped.madeUnder keys
  | unused hc _ _ _ _ _ => rw [hc]; exact vacant_wiped.madeUnder keys
  | restored r _ _ ht h _ =>
    intro w hw
    have hkey : c'.pskKey = (s.clients j).pskKey := by rw [h.eq, ht.eq]
    rw [hkey]
    refine hs w ?_
    cases w with
    | cur =>
      rcases h.cur with hc | ⟨-, hc⟩
      · rw [show c'.session .cur = c'.cur from rfl, hc, ht.eq] at hw
        exact hw
      · rw [show c'.session .cur = c'.cur from rfl, hc] at hw
        cases hw
    | next =>
      rw [show c'.session .next = c'.next from rfl, h.eq, ht.eq] at hw
      exact hw
    | prev =>
      rw [show c'.session .prev = c'.prev from rfl, h.eq, ht.eq] at hw
      exact hw
  | accepted r _ _ _ m _ reply h => exact absurd h (ho _ _ _ _)

/-- **An accepted handshake** makes its session under its key, which is the one of the others. -/
theorem InitFate.madeUnder_accepted {fresh : Bool} {r : Register} {reply : CStr} {packet : Bytes}
    (h : InitFate N s pkt src fd j (.accepted j fresh r reply packet) c')
    (hC : ∀ r, Carries N s.conf pkt r → SameKey s r src fd) (hsound : (s.clients j).Sound)
    {keys : Which → Key} (hs : MadeUnder (s.clients j) keys) :
    MadeUnder c' (Function.update keys
      (if !fresh && (s.clients j).cur.valid then .next else .cur) r.key) := by
  cases h with
  | alone _ hno => exact (hno _ _ _ _ rfl).elim
  | adopted _ _ _ _ _ _ _ _ _ _ hno => exact (hno _ _ _ _ rfl).elim
  | unused _ _ _ _ _ h => cases h
  | restored _ _ _ _ _ h => cases h
  | accepted r' hr _ ht m h reply' ho =>
    cases ho
    have hkey : c'.pskKey = r.key := by rw [h.eq]
    intro w hw
    rw [hkey]
    cases fresh with
    | true =>
      have hnext : c'.next = .wiped := by rw [h.eq, ht.eq_fresh]; rfl
      have hprev : c'.prev = .wiped := by rw [h.eq, ht.eq_fresh]; rfl
      cases w with
      | cur => exact Function.update_self ..
      | next => rw [show c'.session .next = c'.next from rfl, hnext] at hw; cases hw
      | prev => rw [show c'.session .prev = c'.prev from rfl, hprev] at hw; cases hw
    | false =>
      have hcur := hsound.cur
      by_cases hvalid : (s.clients j).cur.valid = true
      · -- the entry was registered, so its sessions are under this key already
        rw [hvalid] at hcur
        have hsame := hC r hr j ht.leadsTo hcur
        rw [hvalid]
        cases w with
        | cur =>
          rw [show c'.session .cur = c'.cur from rfl] at hw
          exact (hs .cur hvalid).trans hsame
        | next => exact Function.update_self ..
        | prev =>
          rw [show c'.session .prev = c'.prev from rfl, h.eq, ht.eq] at hw
          exact (hs .prev hw).trans hsame
      · rw [Bool.not_eq_true] at hvalid
        rw [hvalid] at hcur ⊢
        cases w with
        | cur => exact Function.update_self ..
        | next =>
          rw [show c'.session .next = c'.next from rfl, h.eq, ht.eq] at hw
          simp only [hvalid, Bool.false_eq_true, if_false] at hw
          rw [hsound.next hcur] at hw
          cases hw
        | prev =>
          rw [show c'.session .prev = c'.prev from rfl, h.eq, ht.eq] at hw
          dsimp only at hw
          rw [hsound.prev hcur] at hw
          cases hw

end Handshake

/-! ## Runs -/

/-- The log tells the key of every session, and it is its entry's. -/
def LogTrue (s : Server n) (log : KeyLog n) : Prop := ∀ i, MadeUnder (s.clients i) (log i)

section Step

variable {s : Server n} {log : KeyLog n}

theorem Reread.madeUnder {s' : Server n} (h : Reread s s') {i : Fin n} {keys : Which → Key}
    (hs : MadeUnder (s.clients i) keys) : MadeUnder (s'.clients i) keys := (h.retained i).madeUnder hs

theorem serverHandleData_logTrue (s₀ : Server n) (env : PacketEnv) (pkt : Bytes) (src : SockAddr) (fd : ℤ)
    (h : LogTrue s log) :
    LogTrue (serverHandleData N s env pkt src fd).1
      (logStep s₀ log (some (.data (serverHandleData N s env pkt src fd).2))) := by
  intro i
  unfold logStep
  dsimp only
  rcases serverHandleData_entry (N := N) s env pkt src fd i with ⟨hr, hno⟩ | ⟨hp, ho, -, -⟩
  · rcases ho : (serverHandleData N s env pkt src fd).2.session with _ | ⟨k, _ | _ | _⟩
    · exact hr.madeUnder (h i)
    · exact hr.madeUnder (h i)
    · have hik : i ≠ k := fun h => hno (h ▸ ho)
      dsimp only
      rw [Function.update_of_ne hik]
      exact hr.madeUnder (h i)
    · exact hr.madeUnder (h i)
  · rw [ho]
    dsimp only
    rw [Function.update_self]
    exact hp.madeUnder (h i)

theorem serverHandleInit_logTrue {s₀ : Server n} (hread : Reread s₀ s) (hhandling : Handling N s)
    (env : PacketEnv) (pkt : Bytes) (src : SockAddr) (fd : ℤ)
    (hC : ∀ r, Carries N s.conf pkt r → SameKey s r src fd) (h : LogTrue s log) :
    LogTrue (serverHandleInit N s env pkt src fd).1
      (logStep s₀ log (some (.init (serverHandleInit N s env pkt src fd).2))) := by
  intro i
  have hfate := serverHandleInit_fate (N := N) s env pkt src fd i
  generalize (serverHandleInit N s env pkt src fd).2 = o at hfate ⊢
  unfold logStep
  cases o with
  | refused => exact hfate.madeUnder (by simp) (h i)
  | failed slot fresh => exact hfate.madeUnder (by simp) (h i)
  | accepted j fresh r reply packet =>
    dsimp only
    by_cases hij : i = j
    · subst hij
      have hcur : (s₀.clients i).cur.valid = (s.clients i).cur.valid := by rw [hread.entry i]
      rw [Function.update_self, hcur]
      exact hfate.madeUnder_accepted hC (hhandling.sound i) (h i)
    · rw [Function.update_of_ne hij]
      refine hfate.madeUnder (fun fresh' r' reply' packet' ho => hij ?_) (h i)
      rw [InitOutcome.accepted.injEq] at ho
      exact ho.1.symm

end Step

theorem logTrue_reachable {x : Server n × KeyLog n}
    (h : Machine.ReachableUnder (loggedMachine N n) (fun x e => OnInit N SameKey x.1 e) x) :
    Machine.Reachable (serverMachine N n) x.1 ∧ LogTrue x.1 x.2 := by
  refine h.invariant (I := fun x => Machine.Reachable (serverMachine N n) x.1 ∧ LogTrue x.1 x.2) ?_ ?_
  · intro x hx
    refine ⟨⟨x.1, [], hx, .nil _⟩, fun i => ?_⟩
    obtain ⟨cfg, db, ctx, mem, ks, now, leases, -, hs⟩ := hx
    rw [hs]
    exact vacant_wiped.madeUnder _
  · rintro ⟨s, log⟩ e ⟨t, log'⟩ ⟨hreach, hlog⟩ hC hstep
    obtain ⟨t', hnext, ht⟩ := Option.map_eq_some_iff.mp hstep
    rw [Prod.mk.injEq] at ht
    obtain ⟨rfl, rfl⟩ := ht
    refine ⟨hreach.step trivial hnext, ?_⟩
    rw [serverMachine_next hnext]
    have hcase := serverStep_case N s e
    dsimp only
    generalize serverStep N s e = y at hcase
    cases hcase with
    | init c hcall hread htype =>
      exact serverHandleInit_logTrue hread ⟨s, hreach, hread⟩ _ _ _ _ (hC c hcall htype)
        fun i => hread.madeUnder (hlog i)
    | data c _ hread _ =>
      exact serverHandleData_logTrue s _ _ _ _ fun i => hread.madeUnder (hlog i)
    | ignored c _ hread => exact fun i => hread.madeUnder (hlog i)
    | quiet hq => exact fun i => (hq.entry i).madeUnder (hlog i)
    | reload file mem grow _ =>
      intro i
      rcases serverReload_cases (N := N) s file mem grow with heq | ⟨db, conf, -, -, hclients, -⟩
      · dsimp only
        rw [heq]
        exact hlog i
      · dsimp only
        rw [hclients]
        exact (serverRevalidate_entry grow { s with conf := conf } i).keptOrVacated.madeUnder (hlog i)

/-- **Key revocation by reload**: after a reload of a file with a usable key the keystore has no key
but those named, and every session left was made under a key that its client may use. -/
theorem keyRevocation {s : Server n} {log : KeyLog n}
    (h : Machine.ReachableUnder (loggedMachine N n) (fun x e => OnInit N SameKey x.1 e) (s, log))
    {db : ServerDb} (husable : ∃ key, NamedKey N s.conf db key) (grow : Fin n → Grow) :
    (∀ e ∈ (serverReload N s (some db) .ample grow).conf.ks.entries,
      e.locked = false → NamedKey N s.conf db e.pskKey) ∧
    ∀ i w, (((serverReload N s (some db) .ample grow).clients i).session w).valid = true →
      KeyAllowed (serverReload N s (some db) .ample grow).conf.ks (log i w)
        ((serverReload N s (some db) .ample grow).clients i).clientId := by
  obtain ⟨hreach, hlog⟩ := logTrue_reachable h
  obtain ⟨conf, hconf, hnamed⟩ := reloadConf_ample (N := N) husable
  have hclients : (serverReload N s (some db) .ample grow).clients =
      (serverRevalidate grow { s with conf := conf }).clients := by
    unfold serverReload
    rw [Option.bind_some, hconf]
  have hks : (serverReload N s (some db) .ample grow).conf.ks = conf.ks := by
    unfold serverReload
    rw [Option.bind_some, hconf]
    dsimp only
    rw [serverRevalidate_conf]
  rw [hks, hclients]
  refine ⟨hnamed, fun i w hw => ?_⟩
  have hentry := serverRevalidate_entry grow { s with conf := conf } i
  have hmade := hentry.keptOrVacated.madeUnder (hlog i) w hw
  have hallowed := serverRevalidate_keyStillAllowed grow { s with conf := conf } i
  have hsound := sound_reachable hreach i
  generalize (serverRevalidate grow { s with conf := conf }).clients i = c at hentry hmade hallowed hw
  have hreg : ∀ w, ((s.clients i).session w).valid = true → (s.clients i).registered = true := by
    intro w hw
    by_contra hno
    rw [Bool.not_eq_true] at hno
    have hcur := hsound.cur
    rw [hno] at hcur
    cases w with
    | cur => exact absurd (hcur.trans hw) (by decide)
    | next => exact absurd ((hsound.next hno).symm.trans hw) (by decide)
    | prev => exact absurd ((hsound.prev hno).symm.trans hw) (by decide)
  rw [show log i w = c.pskKey from hmade, ← keyStillAllowed_iff]
  cases hentry with
  | kept => exact hallowed (hsound.active (hreg w hw)) (hreg w hw)
  | withdrawn ha =>
    refine hallowed ha ?_
    cases w with
    | cur => exact hreg .cur hw
    | next => cases hw
    | prev => exact hreg .prev hw
  | ended _ =>
    cases w <;> cases hw

/-- The file without the global key. -/
def toyDbNoGlobal : ServerDb :=
  { toyDb with globals := { toyDb.globals with psk := [] } }

/-- The file with malformed keys only. -/
def toyDbMalformed : ServerDb where
  defaults := .empty
  clients := [toySection "p" "!" "" ""]
  globals := { toyDb.globals with psk := ascii "!" }
  idsDistinct := by decide
  idsNonempty := by decide
  idsShort := by decide
  defaultsFit := toyDb.defaultsFit
  profilesFit := by decide
  poolPrefixMin := toyDb.poolPrefixMin
  poolPrefixMax := toyDb.poolPrefixMax
  poolNetAligned := toyDb.poolNetAligned

/-- A reload takes the global key away, and its client; the one with its own key stays. -/
theorem keyRevocation_twoClients : ∃ (s : Server 3) (log : KeyLog 3),
    ((s.clients 0).active = false ∧ (s.clients 1).cur.valid = true) ∧
      KeyAllowed s.conf.ks (log 1 .cur) (s.clients 1).clientId := by
  obtain ⟨⟨s, log⟩, hs, hp⟩ := Machine.runUnder_reachable (M := loggedMachine toyNoise 3)
    (C := fun x e => OnInit toyNoise SameKey x.1 e) (s := (toyServer 3 .udp toyDb, fun _ _ => 0))
    (l := [udpInit 65 1 (toySource 1 1000) "MODE=MANUAL CLIENT_ID=a LOCAL_IP=10.0.0.5",
      udpInit 80 2 (toySource 2 1000) "MODE=MANUAL CLIENT_ID=p LOCAL_IP=10.0.0.6"])
    (p := fun x => (toyNoise.keyFromPsk (ascii "P") == some (toyKey 80)) &&
      let t := serverReload toyNoise x.1 (some toyDbNoGlobal) .ample fun _ _ => true
      !(t.clients 0).active && (t.clients 1).cur.valid)
    (toyServer_started 3 .udp toyDb) (by decide +kernel)
  simp only [Bool.and_eq_true, beq_iff_eq, Bool.not_eq_true'] at hp
  obtain ⟨hkey, hgone, hcur⟩ := hp
  refine ⟨_, log, ⟨hgone, hcur⟩, (keyRevocation hs ⟨toyKey 80, ?_⟩ fun _ _ => true).2 1 .cur hcur⟩
  exact Or.inr (Or.inr ⟨toySection "p" "P" "" "", by decide, hkey⟩)

/-- A file with malformed keys only leaves the old global key in use; and a session under a key that was
taken away stays when another client took the entry over. -/
theorem not_keyRevocation :
    (¬ ∀ (s : Server 3), Machine.Reachable (toyMachine 3) s → ∀ db grow,
      ∀ e ∈ (serverReload toyNoise s (some db) .ample grow).conf.ks.entries,
        e.locked = false → NamedKey toyNoise s.conf db e.pskKey) ∧
    ¬ ∀ (s : Server 3) log, Machine.Reachable (loggedMachine toyNoise 3) (s, log) → ∀ db grow i w,
      (((serverReload toyNoise s (some db) .ample grow).clients i).session w).valid = true →
        KeyAllowed (serverReload toyNoise s (some db) .ample grow).conf.ks (log i w)
          ((serverReload toyNoise s (some db) .ample grow).clients i).clientId := by
  constructor
  · intro h
    have hnamed := h (toyServer 3 .udp toyDb)
      ⟨_, [], toyServer_started 3 .udp toyDb, .nil _⟩ toyDbMalformed (fun _ _ => true)
      ⟨toyKey 65, [], false⟩ (by decide +kernel) rfl
    rcases hnamed with ⟨hcli, -⟩ | ⟨-, -, hpsk⟩ | ⟨p, hp, hpsk⟩
    · cases hcli
    · exact absurd hpsk (by decide +kernel)
    · rw [List.mem_singleton.mp (mem_pskSections hp)] at hpsk
      exact absurd hpsk (by decide +kernel)
  · intro h
    obtain ⟨⟨s, log⟩, hs, hp⟩ := Machine.runUnder_reachable (M := loggedMachine toyNoise 3)
      (C := fun _ _ => True) (s := (toyServer 3 .udp toyDb, fun _ _ => 0))
      (l := [udpInit 65 1 (toySource 1 1000) "MODE=MANUAL CLIENT_ID=a LOCAL_IP=10.0.0.5",
        udpInit 80 2 (toySource 1 1000) "MODE=MANUAL CLIENT_ID=p LOCAL_IP=10.0.0.5"])
      (p := fun x =>
        let t := serverReload toyNoise x.1 (some toyDbNoGlobal) .ample fun _ _ => true
        decide ((t.clients 0).cur.valid = true ∧
          ¬ KeyAllowed t.conf.ks (x.2 0 .cur) (t.clients 0).clientId))
      (toyServer_started 3 .udp toyDb) (by decide +kernel)
    rw [decide_eq_true_iff] at hp
    exact hp.2 (h s log hs _ _ 0 .cur hp.1)

end Camex
