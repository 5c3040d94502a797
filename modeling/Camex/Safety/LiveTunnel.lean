import Camex.ClientTunnel
import Camex.Safety.ConfigText

/-!
# A live tunnel and the configuration that describes it

* `Reconfigured`: the ways a reconfiguration can end, one constructor each;
* `TunnelDescribed`: `current_config` has the settings of the open tunnel, and while nothing is pending the tunnel
  is open with all its routes;
* `NoRouteFails`: no route fails of a tunnel that is opened with other settings, `ConfigChecked.keeps_iff`;
* `liveTunnel`: this holds after any sequence of CONFIGs, whichever of the commands fail; a change that fails leaves the
  old settings exactly when no route of a newly opened tunnel fails;
* `liveTunnel_follows`: a CONFIG whose commands all work is applied.
-/

namespace Camex

open Lib

/-! ## Settings -/

/-- Two configurations with the same settings of the tunnel. -/
structure SameSettings (a b : CamexConfig) : Prop where
  localCidr : a.localCidr = b.localCidr
  gatewayIp : a.gatewayIp = b.gatewayIp
  mtu : a.mtu = b.mtu
  routes : a.routes = b.routes

/-- The tunnel was opened with the settings of a configuration, and no other routes go through it. -/
structure OpenedWith (config : CamexConfig) (t : Tunnel) : Prop where
  settings : SameSettings t.config config
  params : openParams config = some t.params
  routes : ∀ route ∈ t.installed, route.cidr ∈ config.routes ∧ route.gateway = config.gatewayIp

/-- The tunnel has the settings of a configuration: if camex manages the routes, these and no others are installed,
else its backend was opened with them. -/
structure LiveTunnel (config : CamexConfig) (t : Tunnel) : Prop where
  settings : SameSettings t.config config
  params : openParams config = some t.params
  routes : t.backend.hostRoutes = true →
    ∀ route, route ∈ t.installed ↔ route.cidr ∈ config.routes ∧ route.gateway = config.gatewayIp

/-- A CONFIG that says the settings of a configuration, or leaves out the MTU. -/
structure ConfigSays (message : Bytes) (config : CamexConfig) : Prop where
  localCidr : (configValues "LOCAL_CIDR" message).getLast? = some config.localCidr
  gatewayIp : (configValues "GATEWAY_IP" message).getLast? = some config.gatewayIp
  mtu : ∀ v, (configValues "MTU" message).getLast? = some v → strtol v = some (config.mtu, [])
  routes : configValues "ROUTE_CIDR" message = config.routes

theorem SameSettings.refl (a : CamexConfig) : SameSettings a a := ⟨rfl, rfl, rfl, rfl⟩

theorem SameSettings.trans {a b c : CamexConfig} (h₁ : SameSettings a b) (h₂ : SameSettings b c) :
    SameSettings a c where
  localCidr := h₁.localCidr.trans h₂.localCidr
  gatewayIp := h₁.gatewayIp.trans h₂.gatewayIp
  mtu := h₁.mtu.trans h₂.mtu
  routes := h₁.routes.trans h₂.routes

theorem SameSettings.symm {a b : CamexConfig} (h : SameSettings a b) : SameSettings b a :=
  ⟨h.localCidr.symm, h.gatewayIp.symm, h.mtu.symm, h.routes.symm⟩

/-- The buffers that `memcmp` finds equal hold the same routes. -/
theorem routes_eq {a b : CamexConfig} (hcount : a.routeCount = b.routeCount)
    (hcidrs : a.routeCidrs = b.routeCidrs) : a.routes = b.routes := by
  unfold CamexConfig.routes
  rw [hcount, hcidrs]

theorem openParams_congr {a b : CamexConfig} (h : SameSettings a b) (hdevice : a.tunDev = b.tunDev) :
    openParams a = openParams b := by
  unfold openParams
  rw [h.localCidr, h.mtu, h.routes, hdevice]

theorem ConfigSays.congr {message : Bytes} {a b : CamexConfig} (h : ConfigSays message a) (hs : SameSettings a b) :
    ConfigSays message b where
  localCidr := by rw [← hs.localCidr]; exact h.localCidr
  gatewayIp := by rw [← hs.gatewayIp]; exact h.gatewayIp
  mtu := by rw [← hs.mtu]; exact h.mtu
  routes := by rw [← hs.routes]; exact h.routes

/-! ## What a CONFIG hands to a reconfiguration -/

section Probe

variable {message : Bytes} {config probe : CamexConfig}

theorem protoParseConfig_gateway (h : protoParseConfig message config = some probe) :
    (configValues "GATEWAY_IP" message).getLast? = some probe.gatewayIp := by
  obtain ⟨c, config₁, hfold, haccept, happly, hprobe⟩ := protoParseConfig_some h
  have hlast := (foldlM_configRead hfold).gatewayIp
  obtain ⟨hlocal, hgateway, happlied⟩ := configApplyProfile_some happly
  unfold configAccepted at haccept
  simp only [Bool.and_eq_true, Bool.or_eq_true, beq_iff_eq, hgateway, false_or] at haccept
  obtain ⟨ip, hip⟩ := Option.isSome_iff_exists.mp haccept.1.2
  have hshort : c.profile.gatewayIp.length < 16 := by
    rw [inetPton_some hip]
    have := (ipText_shape ip).1
    omega
  have hstored : probe.gatewayIp = c.profile.gatewayIp := by
    have h₁ : config₁.gatewayIp = c.profile.gatewayIp := by
      rw [happlied]
      exact store_of_lt hshort
    rw [hprobe]
    split
    · exact h₁
    · exact h₁
  rw [hstored]
  unfold lastValue at hlast
  unfold configValues
  cases hv : (fieldValues "GATEWAY_IP" ((tokens isCtrlDelim (untilNul message)).drop 2)).getLast? with
  | none =>
    rw [hv] at hlast
    exact absurd hlast hgateway
  | some v =>
    rw [hv] at hlast
    rw [hlast]
    rfl

theorem protoParseConfig_text (h : protoParseConfig message config = some probe) : ConfigSays message probe := by
  have hparts := protoParseConfig_parts h
  refine ⟨hparts.localCidr, protoParseConfig_gateway h, fun v hv => ?_, hparts.routes.symm⟩
  rcases hparts.mtu with ⟨hnone, _⟩ | ⟨w, hw, hread, _⟩
  · rw [hnone] at hv
    cases hv
  · rw [hw] at hv
    rw [← Option.some.inj hv]
    exact hread

/-- What is known of the settings that a CONFIG brings. -/
structure ProbeOf (config probe : CamexConfig) : Prop where
  parsed : (parseLocalCidr probe.localCidr).isSome = true
  gatewayIp : probe.gatewayIp.length < 16
  gateway : probe.gatewayIp ≠ []
  device : probe.tunDev = config.tunDev

theorem parseLocalCidr_short {cidr : CStr} (h : (parseLocalCidr cidr).isSome = true) : cidr.length < 32 := by
  by_contra hlen
  unfold parseLocalCidr at h
  rw [if_pos (Or.inr (not_lt.mp hlen))] at h
  cases h

theorem protoParseConfig_probe (h : protoParseConfig message config = some probe) : ProbeOf config probe := by
  have hparts := protoParseConfig_parts h
  obtain ⟨ip, hip⟩ := hparts.gatewayIp
  obtain ⟨hlength, hnonempty, _⟩ := ipText_shape ip
  refine ⟨?_, by rw [hip]; omega, by rw [hip]; exact hnonempty, by rw [hparts.frame]⟩
  obtain ⟨c, config₁, _, haccept, happly, hprobe⟩ := protoParseConfig_some h
  obtain ⟨hlocal, _, happlied⟩ := configApplyProfile_some happly
  unfold configAccepted at haccept
  simp only [Bool.and_eq_true, Bool.or_eq_true, beq_iff_eq, hlocal, false_or] at haccept
  have hcidr := haccept.1.1
  have hstored : config₁.localCidr = c.profile.localCidr := by
    rw [happlied]
    exact store_of_lt (parseLocalCidr_short hcidr)
  rw [hprobe]
  split
  · show (parseLocalCidr config₁.localCidr).isSome = true
    rwa [hstored]
  · rwa [hstored]

end Probe

/-! ## Opening and routes -/

theorem clientOpenTunnel_some {tunnel : Option Tunnel} {config : CamexConfig} {result : Option Backend} {t : Tunnel}
    (h : clientOpenTunnel tunnel config result = some t) :
    tunnel = none ∧ t.config = config ∧ openParams config = some t.params ∧ t.installed = [] ∧
      result = some t.backend := by
  unfold clientOpenTunnel packetOpen at h
  cases hp : openParams config with
  | none =>
    rw [hp] at h
    cases h
  | some params =>
    simp only [hp] at h
    cases tunnel with
    | some _ => cases h
    | none =>
      obtain ⟨backend, hbackend, rfl⟩ := Option.map_eq_some_iff.mp h
      exact ⟨rfl, rfl, rfl, rfl, hbackend⟩

theorem clientOpenTunnel_opened {tunnel : Option Tunnel} {config : CamexConfig} {result : Option Backend} {t : Tunnel}
    (h : clientOpenTunnel tunnel config result = some t) : OpenedWith config t := by
  obtain ⟨_, hconfig, hparams, hinstalled, _⟩ := clientOpenTunnel_some h
  refine ⟨by rw [hconfig]; exact .refl _, hparams, fun route hroute => ?_⟩
  rw [hinstalled] at hroute
  cases hroute

/-- A tunnel that was opened with some settings was opened with the same ones of another configuration. -/
theorem OpenedWith.congr {a b : CamexConfig} {t : Tunnel} (h : OpenedWith a t) (hs : SameSettings a b)
    (hdevice : a.tunDev = b.tunDev) : OpenedWith b t where
  settings := h.settings.trans hs
  params := by rw [← openParams_congr hs hdevice]; exact h.params
  routes := by rw [← hs.routes, ← hs.gatewayIp]; exact h.routes

theorem setRoutesFrom_mem {ok : ℕ → Bool} {gateway : CStr} {i : ℕ} {cidrs : List CStr} {installed : List HostRoute}
    {route : HostRoute} :
    (route ∈ (setRoutesFrom true ok gateway i cidrs installed).1 →
      route ∈ installed ∨ (route.cidr ∈ cidrs ∧ route.gateway = gateway)) ∧
    ((setRoutesFrom true ok gateway i cidrs installed).2 = 0 →
      route ∈ installed ∨ (route.cidr ∈ cidrs ∧ route.gateway = gateway) →
      route ∈ (setRoutesFrom true ok gateway i cidrs installed).1) := by
  induction cidrs generalizing i installed with
  | nil =>
    unfold setRoutesFrom
    refine ⟨Or.inl, fun _ h => ?_⟩
    rcases h with h | ⟨h, _⟩
    · exact h
    · cases h
  | cons cidr cidrs ih =>
    unfold setRoutesFrom
    split
    · have hset : ∀ r : HostRoute, r ∈ HostRoute.set true ⟨cidr, gateway⟩ installed ↔
          r = ⟨cidr, gateway⟩ ∨ r ∈ installed := fun r => List.mem_insert_iff
      obtain ⟨ih₁, ih₂⟩ := @ih (i + 1) (HostRoute.set true ⟨cidr, gateway⟩ installed)
      constructor
      · intro h
        rcases ih₁ h with h | ⟨h, hg⟩
        · rcases (hset route).mp h with rfl | h
          · exact Or.inr ⟨List.mem_cons_self, rfl⟩
          · exact Or.inl h
        · exact Or.inr ⟨List.mem_cons_of_mem _ h, hg⟩
      · intro hall h
        refine ih₂ hall ?_
        rcases h with h | ⟨h, hg⟩
        · exact Or.inl ((hset route).mpr (Or.inr h))
        · rcases List.mem_cons.mp h with h | h
          · refine Or.inl ((hset route).mpr (Or.inl ?_))
            cases route
            subst h hg
            rfl
          · exact Or.inr ⟨h, hg⟩
    · obtain ⟨ih₁, _⟩ := @ih (i + 1) installed
      constructor
      · intro h
        rcases ih₁ h with h | ⟨h, hg⟩
        · exact Or.inl h
        · exact Or.inr ⟨List.mem_cons_of_mem _ h, hg⟩
      · intro hall
        cases hall

theorem clientSetRoutes_opened {ok : ℕ → Bool} {config : CamexConfig} {t : Tunnel} (h : OpenedWith config t) :
    OpenedWith config (clientSetRoutes true ok config t).1 := by
  unfold clientSetRoutes
  split
  · exact h
  · refine ⟨h.settings, h.params, fun route hroute => ?_⟩
    rcases setRoutesFrom_mem.1 hroute with hold | hnew
    · exact h.routes route hold
    · exact hnew

theorem clientSetRoutes_live {ok : ℕ → Bool} {config : CamexConfig} {t : Tunnel} (h : OpenedWith config t)
    (hgateway : config.gatewayIp ≠ []) (hall : (clientSetRoutes true ok config t).2 = 0) :
    LiveTunnel config (clientSetRoutes true ok config t).1 := by
  have hopened : OpenedWith config (clientSetRoutes true ok config t).1 := clientSetRoutes_opened h
  refine ⟨hopened.settings, hopened.params, fun hroutes route => ⟨hopened.routes route, fun hroute => ?_⟩⟩
  unfold clientSetRoutes at hroutes hall ⊢
  split at hroutes
  · rename_i hskip
    rcases hskip with hskip | hskip
    · rw [hskip] at hroutes
      cases hroutes
    · exact absurd hskip hgateway
  · rename_i hset
    rw [if_neg hset] at hall ⊢
    exact setRoutesFrom_mem.2 hall (Or.inr hroute)

/-! ## Reconfiguring -/

/-- How a reconfiguration can end. -/
inductive Reconfigured (o : Outcome) (s : ClientTunnel) (next : CamexConfig) : Bool → ClientTunnel → Prop
  /-- Nothing was touched: the address cannot be read, or the tunnel cannot be opened again. -/
  | refused (h : parseLocalCidr next.localCidr = none ∨ ∃ t, s.tunnel = some t ∧ t.backend.isInherited = true) :
      Reconfigured o s next false s
  /-- The settings are those of the open tunnel: its routes once more. -/
  | repaired (t : Tunnel) (ht : s.tunnel = some t) (hsame : clientConfigSame s.current next = true) :
      Reconfigured o s next (decide ((clientSetRoutes true o.added s.current t).2 = 0))
        { s with
          tunnel := some (clientSetRoutes true o.added s.current t).1
          pending := decide ((clientSetRoutes true o.added s.current t).2 ≠ 0) }
  /-- Neither the new nor the old settings open a tunnel. -/
  | lost (hnext : clientOpenTunnel none next o.openNext = none)
      (hold : clientOpenTunnel none s.current o.openOld = none) :
      Reconfigured o s next false { s with tunnel := none, pending := true }
  /-- The old settings again. -/
  | restored (t : Tunnel) (hnext : clientOpenTunnel none next o.openNext = none)
      (hold : clientOpenTunnel none s.current o.openOld = some t) :
      Reconfigured o s next false
        { s with
          tunnel := some (clientSetRoutes true o.added s.current t).1
          pending := decide ((clientSetRoutes true o.added s.current t).2 ≠ 0) }
  /-- The new settings. -/
  | opened (t : Tunnel) (localIp : CStr) (hcidr : (parseLocalCidr next.localCidr).map Prod.fst = some localIp)
      (hnext : clientOpenTunnel none next o.openNext = some t)
      (hfree : ∀ t, s.tunnel = some t → t.backend.isInherited = false) :
      Reconfigured o s next
        (decide ((clientSetRoutes true o.added (adoptSettings s.current next localIp) t).2 = 0))
        { current := adoptSettings s.current next localIp
          tunnel := some (clientSetRoutes true o.added (adoptSettings s.current next localIp) t).1
          pending := decide ((clientSetRoutes true o.added (adoptSettings s.current next localIp) t).2 ≠ 0) }

section Reconfigure

variable {o : Outcome} {s : ClientTunnel} {next : CamexConfig}

theorem packetClose_none (tunnel : Option Tunnel) : packetClose tunnel = none := by
  cases tunnel <;> rfl

theorem clientReopen_cases {localIp : CStr} (hcidr : (parseLocalCidr next.localCidr).map Prod.fst = some localIp)
    (hfree : ∀ t, s.tunnel = some t → t.backend.isInherited = false) :
    Reconfigured o s next (clientReopen o s next localIp).1 (clientReopen o s next localIp).2 := by
  unfold clientReopen
  simp only [packetClose_none]
  cases hnext : clientOpenTunnel none next o.openNext with
  | some t => exact .opened t localIp hcidr hnext hfree
  | none =>
    cases hold : clientOpenTunnel none s.current o.openOld with
    | some t => exact .restored t hnext hold
    | none => exact .lost hnext hold

theorem camexClientReconfigure_cases :
    Reconfigured o s next (camexClientReconfigure o s next).1 (camexClientReconfigure o s next).2 := by
  unfold camexClientReconfigure
  cases hcidr : parseLocalCidr next.localCidr with
  | none => exact .refused (Or.inl hcidr)
  | some cidr =>
    obtain ⟨localIp, mask⟩ := cidr
    have hreopen : (∀ t, s.tunnel = some t → t.backend.isInherited = false) →
        Reconfigured o s next (clientReopen o s next localIp).1 (clientReopen o s next localIp).2 :=
      clientReopen_cases (by rw [hcidr]; rfl)
    cases ht : s.tunnel with
    | none => exact hreopen fun t hopen => by rw [ht] at hopen; cases hopen
    | some t =>
      dsimp only
      split
      · rename_i hinherited
        exact .refused (Or.inr ⟨t, ht, hinherited⟩)
      · rename_i hfree
        split
        · rename_i hsame
          exact .repaired t ht hsame
        · refine hreopen fun u hopen => ?_
          rw [ht] at hopen
          cases hopen
          exact Bool.not_eq_true _ ▸ hfree

end Reconfigure

/-! ## The invariant -/

/-- `current_config` has the settings of the open tunnel, and while nothing is pending the tunnel is open with all
its routes. -/
structure TunnelDescribed (s : ClientTunnel) : Prop where
  gateway : s.current.gatewayIp ≠ []
  opened : ∀ t, s.tunnel = some t → OpenedWith s.current t
  live : s.pending = false → ∃ t, s.tunnel = some t ∧ LiveTunnel s.current t

section Invariant

variable {o : Outcome} {s s' : ClientTunnel} {next config : CamexConfig} {payload : Bytes} {rc : Bool}

/-- A tunnel that was just opened, or was open, and whose routes were installed: the flag says whether all were. -/
theorem TunnelDescribed.routed {t : Tunnel} {ok : ℕ → Bool} {pending : Bool} (h : OpenedWith config t)
    (hgateway : config.gatewayIp ≠ []) (hpending : pending = false → (clientSetRoutes true ok config t).2 = 0) :
    TunnelDescribed ⟨config, some (clientSetRoutes true ok config t).1, pending⟩ where
  gateway := hgateway
  opened u hu := by
    rw [← Option.some.inj hu]
    exact clientSetRoutes_opened h
  live hlive := ⟨_, rfl, clientSetRoutes_live h hgateway (hpending hlive)⟩

theorem adoptSettings_same (localIp : CStr) (hp : ProbeOf config next) :
    SameSettings next (adoptSettings config next localIp) where
  localCidr := (store_of_lt (parseLocalCidr_short hp.parsed)).symm
  gatewayIp := (store_of_lt hp.gatewayIp).symm
  mtu := rfl
  routes := rfl

theorem clientConfigSame_settings {a b : CamexConfig} (h : clientConfigSame a b = true) : SameSettings a b := by
  unfold clientConfigSame at h
  simp only [Bool.and_eq_true, decide_eq_true_eq] at h
  obtain ⟨⟨⟨⟨hcidr, hgateway⟩, hmtu⟩, hcount⟩, hroutes⟩ := h
  exact ⟨hcidr, hgateway, hmtu, routes_eq hcount hroutes⟩

theorem Reconfigured.described (h : Reconfigured o s next rc s') (hs : TunnelDescribed s)
    (hp : ProbeOf s.current next) : TunnelDescribed s' := by
  cases h with
  | refused _ => exact hs
  | repaired t ht _ =>
    exact .routed (hs.opened t ht) hs.gateway fun hzero => by simpa using hzero
  | lost _ _ =>
    refine ⟨hs.gateway, fun t ht => ?_, fun hlive => ?_⟩
    · cases ht
    · cases hlive
  | restored t _ hold =>
    exact .routed (clientOpenTunnel_opened hold) hs.gateway fun hzero => by simpa using hzero
  | opened t localIp _ hnext _ =>
    have hsame := adoptSettings_same localIp hp
    have hopened := (clientOpenTunnel_opened hnext).congr hsame hp.device
    refine .routed hopened ?_ fun hzero => by simpa using hzero
    rw [← hsame.gatewayIp]
    exact hp.gateway

theorem setRoutesFrom_failed {add : Bool} {ok : ℕ → Bool} {gateway : CStr} {i : ℕ} {cidrs : List CStr}
    {installed : List HostRoute} (h : (setRoutesFrom add ok gateway i cidrs installed).2 ≠ 0) :
    ∃ j, ok j = false := by
  induction cidrs generalizing i installed with
  | nil => exact absurd rfl h
  | cons cidr cidrs ih =>
    unfold setRoutesFrom at h
    split at h
    · exact ih h
    · rename_i hfailed
      exact ⟨i, by simpa using hfailed⟩

theorem clientSetRoutes_failed {add : Bool} {ok : ℕ → Bool} {t : Tunnel}
    (h : (clientSetRoutes add ok config t).2 ≠ 0) : ∃ j, ok j = false := by
  unfold clientSetRoutes at h
  split at h
  · exact absurd rfl h
  · exact setRoutesFrom_failed h

/-- A change that failed: the old settings stay, or the tunnel was opened with the new ones, which are then those of
`current_config`, a route is missing and the flag is set. -/
inductive FailedChange (payload : Bytes) (o : Outcome) (s s' : ClientTunnel) : Prop
  | kept (h : s'.current = s.current)
  | lacksRoute (t : Tunnel) (hopen : o.openNext = some t.backend) (ht : s'.tunnel = some t)
      (hopened : OpenedWith s'.current t) (htext : ConfigSays payload s'.current)
      (hroute : ∃ i, o.added i = false) (hpending : s'.pending = true)

theorem clientSetRoutes_backend {add : Bool} {ok : ℕ → Bool} {t : Tunnel} :
    (clientSetRoutes add ok config t).1.backend = t.backend := by
  unfold clientSetRoutes
  split <;> rfl

theorem Reconfigured.failed (h : Reconfigured o s next false s') (hp : ProbeOf s.current next)
    (htext : ConfigSays payload next) : FailedChange payload o s s' := by
  generalize hrc : false = rc at h
  cases h with
  | refused _ => exact .kept rfl
  | repaired t ht _ => exact .kept rfl
  | lost _ _ => exact .kept rfl
  | restored t _ hold => exact .kept rfl
  | opened t localIp _ hnext _ =>
    have hfailed : (clientSetRoutes true o.added (adoptSettings s.current next localIp) t).2 ≠ 0 := by
      simpa using hrc.symm
    have hsame := adoptSettings_same localIp hp
    have hopened := (clientOpenTunnel_opened hnext).congr hsame hp.device
    refine .lacksRoute _ ?_ rfl (clientSetRoutes_opened hopened) (htext.congr hsame)
      (clientSetRoutes_failed hfailed) (by simpa using hfailed)
    rw [clientSetRoutes_backend]
    exact (clientOpenTunnel_some hnext).2.2.2.2

/-! ## A CONFIG -/

/-- What a CONFIG leads to. -/
inductive ConfigChecked (payload : Bytes) (o : Outcome) (s : ClientTunnel) : Option Bool → ClientTunnel → Prop
  | rejected (h : CAMEX_CONTROL_MAX ≤ payload.length ∨ protoParseConfig payload s.current = none) :
      ConfigChecked payload o s none s
  | skipped (probe : CamexConfig) (h : protoParseConfig payload s.current = some probe) (hpending : s.pending = false)
      (hsame : SameSettings probe s.current) : ConfigChecked payload o s none s
  | applied (probe : CamexConfig) (hlen : payload.length < CAMEX_CONTROL_MAX)
      (h : protoParseConfig payload s.current = some probe) (rc : Bool) (s' : ClientTunnel)
      (hstep : Reconfigured o s probe rc s') : ConfigChecked payload o s (some rc) s'

theorem clientCheckConfigChange_cases : ConfigChecked payload o s (clientCheckConfigChange payload o s).1
    (clientCheckConfigChange payload o s).2 := by
  unfold clientCheckConfigChange
  split
  · rename_i hlong
    exact .rejected (Or.inl hlong)
  · rename_i hshort
    cases hprobe : protoParseConfig payload s.current with
    | none => exact .rejected (Or.inr hprobe)
    | some probe =>
      dsimp only
      split
      · exact .applied probe (not_le.mp hshort) hprobe _ _ camexClientReconfigure_cases
      · rename_i hsame
        simp only [not_or, not_not, Bool.not_eq_true] at hsame
        obtain ⟨hpending, hcidr, hgateway, hmtu, hcount, hroutes⟩ := hsame
        exact .skipped probe hprobe hpending ⟨hcidr, hgateway, hmtu, routes_eq hcount hroutes⟩

theorem ConfigChecked.described {r : Option Bool} (h : ConfigChecked payload o s r s') (hs : TunnelDescribed s) :
    TunnelDescribed s' := by
  cases h with
  | rejected _ => exact hs
  | skipped _ _ _ _ => exact hs
  | applied probe hlen hprobe rc s' hstep => exact hstep.described hs (protoParseConfig_probe hprobe)

theorem clientStart_described {startup : CamexConfig} {opened : Option Backend} {added : ℕ → Bool} {pending : Bool}
    (h : clientStart startup payload opened added pending = some s) : TunnelDescribed s := by
  unfold clientStart at h
  cases hcurrent : clientApplyConfigResponse payload startup with
  | none =>
    rw [hcurrent] at h
    cases h
  | some current =>
    simp only [hcurrent] at h
    cases ht : clientOpenTunnel none current opened with
    | none =>
      rw [ht] at h
      cases h
    | some t =>
      simp only [ht] at h
      rw [← Option.some.inj h]
      have hgateway : current.gatewayIp ≠ [] := by
        unfold clientApplyConfigResponse at hcurrent
        split at hcurrent
        · cases hcurrent
        · obtain ⟨config, hconfig, hlocal⟩ := Option.map_eq_some_iff.mp hcurrent
          have hprobe := (protoParseConfig_probe hconfig).gateway
          rw [← hlocal]
          split
          · exact hprobe
          · exact hprobe
      show TunnelDescribed ⟨current, some (clientSetRoutes true added current t).1,
        if (clientSetRoutes true added current t).2 ≠ 0 then true else pending⟩
      refine .routed (clientOpenTunnel_opened ht) hgateway fun hzero => ?_
      by_contra hne
      rw [if_pos hne] at hzero
      cases hzero

theorem TunnelDescribed.reachable (h : tunnelMachine.Reachable s) : TunnelDescribed s := by
  refine h.invariant ?_ ?_
  · rintro s₀ ⟨startup, payload, opened, added, pending, hstart⟩
    exact clientStart_described hstart
  · intro s₀ e s₁ hs _ hstep
    rw [← Option.some.inj hstep]
    exact clientCheckConfigChange_cases.described hs

/-! ## Routes that fail -/

theorem clientOpenTunnel_parsed (hparsed : (parseLocalCidr config.localCidr).isSome = true) {b : Backend} :
    (clientOpenTunnel none config (some b)).isSome = true := by
  obtain ⟨cidr, hcidr⟩ := Option.isSome_iff_exists.mp hparsed
  unfold clientOpenTunnel openParams
  rw [hcidr]
  rfl

theorem setRoutesFrom_none {add : Bool} {ok : ℕ → Bool} {gateway : CStr} {i : ℕ} {cidrs : List CStr}
    {installed : List HostRoute} :
    (setRoutesFrom add ok gateway i cidrs installed).2 = 0 ↔ ∀ j < cidrs.length, ok (i + j) = true := by
  induction cidrs generalizing i installed with
  | nil => simp [setRoutesFrom]
  | cons cidr cidrs ih =>
    have hall : (∀ j < (cidr :: cidrs).length, ok (i + j) = true) ↔
        ok i = true ∧ ∀ j < cidrs.length, ok (i + 1 + j) = true := by
      rw [List.length_cons]
      constructor
      · refine fun h => ⟨h 0 (Nat.succ_pos _), fun j hj => ?_⟩
        rw [Nat.add_assoc, Nat.add_comm 1]
        exact h (j + 1) (Nat.succ_lt_succ hj)
      · rintro ⟨hfirst, hrest⟩ j hj
        cases j with
        | zero => exact hfirst
        | succ j =>
          rw [Nat.add_comm j, ← Nat.add_assoc]
          exact hrest j (Nat.lt_of_succ_lt_succ hj)
    rw [hall]
    unfold setRoutesFrom
    split
    · rename_i hok
      rw [ih]
      exact (and_iff_right hok).symm
    · rename_i hfailed
      exact ⟨fun h => absurd h (Nat.succ_ne_zero _), fun h => absurd h.1 hfailed⟩

theorem clientSetRoutes_none {add : Bool} {ok : ℕ → Bool} {t : Tunnel} (hgateway : config.gatewayIp ≠ []) :
    (clientSetRoutes add ok config t).2 = 0 ↔
      (t.backend.hostRoutes = true → ∀ j < config.routes.length, ok j = true) := by
  unfold clientSetRoutes
  split
  · rename_i hskip
    have hno := hskip.resolve_right hgateway
    simp [hno]
  · rename_i hset
    rw [not_or, Bool.not_eq_false] at hset
    simp only [setRoutesFrom_none, Nat.zero_add, hset.1, true_imp_iff]

/-- No route fails of a tunnel that is opened with other settings. -/
def NoRouteFails (payload : Bytes) (o : Outcome) (s : ClientTunnel) : Prop :=
  ∀ next backend, payload.length < CAMEX_CONTROL_MAX → protoParseConfig payload s.current = some next →
    ¬ SameSettings next s.current → (∀ t, s.tunnel = some t → t.backend.isInherited = false) →
      o.openNext = some backend → backend.hostRoutes = true → ∀ i < next.routes.length, o.added i = true

theorem adoptSettings_routes {t : Tunnel} {localIp : CStr} (hp : ProbeOf s.current next) :
    (clientSetRoutes true o.added (adoptSettings s.current next localIp) t).2 = 0 ↔
      (t.backend.hostRoutes = true → ∀ i < next.routes.length, o.added i = true) := by
  have hsame : SameSettings next (adoptSettings s.current next localIp) := adoptSettings_same localIp hp
  rw [clientSetRoutes_none (by rw [← hsame.gatewayIp]; exact hp.gateway), hsame.routes]

/-- **A change that fails leaves the old settings** if and only if no route of a newly opened tunnel fails. -/
theorem ConfigChecked.keeps_iff {r : Option Bool} (h : ConfigChecked payload o s r s') :
    (r = some false → SameSettings s.current s'.current) ↔ NoRouteFails payload o s := by
  cases h with
  | rejected hrejected =>
    refine ⟨fun _ next backend hlen hprobe => ?_, fun _ => nofun⟩
    rcases hrejected with hlong | hnone
    · omega
    · rw [hnone] at hprobe
      cases hprobe
  | skipped probe hprobe _ hsame =>
    refine ⟨fun _ next backend _ hnext hother => ?_, fun _ => nofun⟩
    cases hprobe.symm.trans hnext
    exact absurd hsame hother
  | applied probe hlen hprobe rc s' hstep =>
    have hp := protoParseConfig_probe hprobe
    have hopened : ∀ backend, o.openNext = some backend → (clientOpenTunnel none probe o.openNext).isSome = true := by
      intro backend hb
      rw [hb]
      exact clientOpenTunnel_parsed hp.parsed
    cases hstep with
    | refused hrefused =>
      refine ⟨fun _ next backend _ hnext _ hfree => ?_, fun _ _ => .refl _⟩
      cases hprobe.symm.trans hnext
      rcases hrefused with hnone | ⟨t, ht, hinherited⟩
      · have hparsed := hp.parsed
        rw [hnone] at hparsed
        cases hparsed
      · rw [hfree t ht] at hinherited
        cases hinherited
    | repaired t ht hsame =>
      refine ⟨fun _ next backend _ hnext hother => ?_, fun _ _ => .refl _⟩
      cases hprobe.symm.trans hnext
      exact absurd (clientConfigSame_settings hsame).symm hother
    | lost hfailed _ =>
      refine ⟨fun _ next backend _ _ _ _ hb => ?_, fun _ _ => .refl _⟩
      have hsome := hopened backend hb
      rw [hfailed] at hsome
      cases hsome
    | restored t hfailed _ =>
      refine ⟨fun _ next backend _ _ _ _ hb => ?_, fun _ _ => .refl _⟩
      have hsome := hopened backend hb
      rw [hfailed] at hsome
      cases hsome
    | opened t localIp _ hnext hfree =>
      have hsame : SameSettings probe (adoptSettings s.current probe localIp) := adoptSettings_same localIp hp
      have hbackend := (clientOpenTunnel_some hnext).2.2.2.2
      have hroutes : (clientSetRoutes true o.added (adoptSettings s.current probe localIp) t).2 = 0 ↔
          (t.backend.hostRoutes = true → ∀ i < probe.routes.length, o.added i = true) := adoptSettings_routes hp
      refine ⟨fun hkeeps next backend _ hparsed hother _ hb hhost => ?_, fun hnone hfailed => ?_⟩
      · cases hprobe.symm.trans hparsed
        cases hbackend.symm.trans hb
        by_contra hfails
        have hkept := hkeeps (congrArg some (decide_eq_false fun hzero => hfails (hroutes.mp hzero hhost)))
        exact hother (hsame.trans hkept.symm)
      · by_contra hother
        refine of_decide_eq_false (Option.some.inj hfailed) (hroutes.mpr fun hhost => ?_)
        exact hnone probe t.backend hlen hprobe (fun h => hother (h.symm.trans hsame)) hfree hbackend hhost

/-! ## Over any run -/

/-- **A live tunnel.** After any sequence of CONFIGs, whichever of the commands fail: while nothing is pending the
tunnel is open with the settings of `current_config` and has all its routes; a change that fails leaves the old settings
if and only if no route of a newly opened tunnel fails, and is a `FailedChange` always; and a CONFIG that is accepted
and skipped says the settings of the live tunnel. -/
theorem liveTunnel (h : tunnelMachine.Reachable s) :
    (s.pending = false → ∃ t, s.tunnel = some t ∧ LiveTunnel s.current t) ∧
      ∀ payload o r s', clientCheckConfigChange payload o s = (r, s') →
        ((r = some false → SameSettings s.current s'.current) ↔ NoRouteFails payload o s) ∧
        (r = some false → FailedChange payload o s s') ∧
          (r = none → payload.length < CAMEX_CONTROL_MAX → (protoParseConfig payload s.current).isSome = true →
            s' = s ∧ ∃ t, s.tunnel = some t ∧ LiveTunnel s.current t ∧ ConfigSays payload s.current) := by
  have hs := TunnelDescribed.reachable h
  refine ⟨hs.live, fun payload o r s' hstep => ?_⟩
  have hchecked : ConfigChecked payload o s r s' := by
    have hcases : ConfigChecked payload o s (clientCheckConfigChange payload o s).1
        (clientCheckConfigChange payload o s).2 := clientCheckConfigChange_cases
    rwa [hstep] at hcases
  refine ⟨hchecked.keeps_iff, ?_⟩
  cases hchecked with
  | rejected hrejected =>
    refine ⟨(by rintro ⟨⟩), fun _ hlen haccepted => ?_⟩
    rcases hrejected with hlong | hnone
    · omega
    · rw [hnone] at haccepted
      cases haccepted
  | skipped probe hprobe hpending hsame =>
    refine ⟨(by rintro ⟨⟩), fun _ _ _ => ⟨rfl, ?_⟩⟩
    obtain ⟨t, ht, hlive⟩ := hs.live hpending
    exact ⟨t, ht, hlive, (protoParseConfig_text hprobe).congr hsame⟩
  | applied probe hlen hprobe rc s' happlied =>
    refine ⟨fun hr => ?_, (by rintro ⟨⟩)⟩
    rw [Option.some.inj hr] at happlied
    exact happlied.failed (protoParseConfig_probe hprobe) (protoParseConfig_text hprobe)

/-! ## A CONFIG is followed -/

theorem clientSetRoutes_all {add : Bool} {ok : ℕ → Bool} (hok : ∀ i, ok i = true) (t : Tunnel) :
    (clientSetRoutes add ok config t).2 = 0 := by
  by_contra hne
  obtain ⟨j, hj⟩ := clientSetRoutes_failed hne
  rw [hok j] at hj
  cases hj

/-- A CONFIG that is accepted while the commands work: the tunnel is live with its settings, whatever failed before. -/
theorem liveTunnel_follows (h : tunnelMachine.Reachable s)
    (hfree : ∀ t, s.tunnel = some t → t.backend.isInherited = false) (hlen : payload.length < CAMEX_CONTROL_MAX)
    (haccepted : (protoParseConfig payload s.current).isSome = true) (hopen : o.openNext.isSome = true)
    (hadded : ∀ i, o.added i = true) (hstep : (clientCheckConfigChange payload o s).2 = s') :
    s'.pending = false ∧ ConfigSays payload s'.current ∧ ∃ t, s'.tunnel = some t ∧ LiveTunnel s'.current t := by
  have hs := TunnelDescribed.reachable h
  have hchecked : ConfigChecked payload o s (clientCheckConfigChange payload o s).1
      (clientCheckConfigChange payload o s).2 := clientCheckConfigChange_cases
  rw [hstep] at hchecked
  have hs' := hchecked.described hs
  suffices hsuff : s'.pending = false ∧ ConfigSays payload s'.current from
    ⟨hsuff.1, hsuff.2, hs'.live hsuff.1⟩
  generalize (clientCheckConfigChange payload o s).1 = r at hchecked
  cases hchecked with
  | rejected hrejected =>
    rcases hrejected with hlong | hnone
    · omega
    · rw [hnone] at haccepted
      cases haccepted
  | skipped probe hprobe hpending hsame =>
    exact ⟨hpending, (protoParseConfig_text hprobe).congr hsame⟩
  | applied probe hlen hprobe rc s' hstep =>
    have hp := protoParseConfig_probe hprobe
    have htext := protoParseConfig_text hprobe
    have hopened : (clientOpenTunnel none probe o.openNext).isSome = true := by
      obtain ⟨b, hb⟩ := Option.isSome_iff_exists.mp hopen
      rw [hb]
      exact clientOpenTunnel_parsed hp.parsed
    cases hstep with
    | refused hrefused =>
      rcases hrefused with hnone | ⟨t, ht, hinherited⟩
      · have hparsed := hp.parsed
        rw [hnone] at hparsed
        cases hparsed
      · rw [hfree t ht] at hinherited
        cases hinherited
    | repaired t ht hsame =>
      refine ⟨?_, htext.congr (clientConfigSame_settings hsame).symm⟩
      simpa using clientSetRoutes_all hadded t
    | lost hnext _ =>
      rw [hnext] at hopened
      cases hopened
    | restored t hnext _ =>
      rw [hnext] at hopened
      cases hopened
    | opened t localIp _ _ _ =>
      refine ⟨?_, htext.congr (adoptSettings_same localIp hp)⟩
      simpa using clientSetRoutes_all hadded t

end Invariant

/-! ## One client -/

/-- The first CONFIG of a client, its tunnel and its route. -/
def tunnelStart : Option ClientTunnel :=
  clientStart { CamexConfig.zero with autoConfig := true }
    (ascii "CAMEX CONFIG LOCAL_CIDR=10.0.0.2/24 GATEWAY_IP=10.0.0.1 ROUTE_CIDR=10.1.0.0/16")
    (some (.tun .created)) (fun _ => true) false

def tunnelChange : Bytes := ascii "CAMEX CONFIG LOCAL_CIDR=10.0.0.3/24 GATEWAY_IP=10.0.0.1 ROUTE_CIDR=10.2.0.0/16"

theorem tunnelStart_some : ∃ s, tunnelStart = some s ∧ s.pending = false ∧ tunnelMachine.Reachable s := by
  have hsome : (tunnelStart.any fun s => !s.pending) = true := by decide +kernel
  obtain ⟨s, hs, hpending⟩ := (Option.any_eq_true _ _).mp hsome
  exact ⟨s, hs, by simpa using hpending, s, [], ⟨_, _, _, _, _, hs⟩, .nil s⟩

/-- The tunnel cannot be opened with the new settings. -/
def tunnelRefused : Outcome := ⟨none, some (.tun .created), fun _ => true, fun _ => true⟩

/-- The new route cannot be installed, and later it can. -/
def tunnelRetries : List ConfigEvent :=
  [⟨tunnelChange, ⟨some (.tun .created), some (.tun .created), fun _ => true, fun _ => false⟩⟩,
    ⟨tunnelChange, ⟨some (.tun .created), some (.tun .created), fun _ => true, fun _ => true⟩⟩]

/-- A change whose tunnel cannot be opened leaves the old settings; tried again, first without its route, it ends in a
tunnel with the new ones. -/
theorem liveTunnel_retried : ∃ s₀ s₁ s t, tunnelMachine.Reachable s₀ ∧
    clientCheckConfigChange tunnelChange tunnelRefused s₀ = (some false, s₁) ∧ SameSettings s₀.current s₁.current ∧
      tunnelMachine.Steps (fun _ _ => True) s₁ tunnelRetries s ∧ s.current.localCidr = ascii "10.0.0.3/24" ∧
        s.tunnel = some t ∧ LiveTunnel s.current t := by
  have hrun : (tunnelStart.all fun s₀ =>
      let r := clientCheckConfigChange tunnelChange tunnelRefused s₀
      r.1 == some false && (tunnelMachine.runUnder (fun _ _ => True) r.2 tunnelRetries).any fun s =>
        !s.pending && s.current.localCidr == ascii "10.0.0.3/24") = true := by decide +kernel
  obtain ⟨s₀, hs₀, -, hreach⟩ := tunnelStart_some
  rw [hs₀, Option.all_some, Bool.and_eq_true, beq_iff_eq] at hrun
  obtain ⟨hrefused, hretried⟩ := hrun
  obtain ⟨s, hs, hend⟩ := (Option.any_eq_true _ _).mp hretried
  rw [Bool.and_eq_true, Bool.not_eq_true', beq_iff_eq] at hend
  have hsteps := Machine.runUnder_steps hs
  have hkept := ((liveTunnel hreach).2 tunnelChange tunnelRefused _ _ (Prod.ext hrefused rfl)).1.mpr
    fun next backend _ _ _ _ hopen => by cases hopen
  have hend' : tunnelMachine.Reachable s := by
    obtain ⟨start, es, hstart, hes⟩ := hreach
    have hmid : tunnelMachine.next s₀ ⟨tunnelChange, tunnelRefused⟩ =
      some (clientCheckConfigChange tunnelChange tunnelRefused s₀).2 := rfl
    exact ⟨start, es ++ ⟨tunnelChange, tunnelRefused⟩ :: tunnelRetries, hstart,
      hes.trans (.cons hmid trivial hsteps)⟩
  obtain ⟨t, ht, hlive⟩ := (liveTunnel hend').1 hend.1
  exact ⟨s₀, _, s, t, hreach, Prod.ext hrefused rfl, hkept rfl, hsteps, hend.2, ht, hlive⟩

/-- The new route fails: the change does, and `current_config` has the new address. -/
theorem failedChange_adopts : ∃ s o s', tunnelMachine.Reachable s ∧
    clientCheckConfigChange tunnelChange o s = (some false, s') ∧
    s.current.localCidr = ascii "10.0.0.2/24" ∧ s'.current.localCidr = ascii "10.0.0.3/24" := by
  let o : Outcome := ⟨some (.tun .created), some (.tun .created), fun _ => true, fun _ => false⟩
  have hrun : (tunnelStart.all fun s =>
      (clientCheckConfigChange tunnelChange o s).1 == some false &&
        s.current.localCidr == ascii "10.0.0.2/24" &&
        (clientCheckConfigChange tunnelChange o s).2.current.localCidr == ascii "10.0.0.3/24") = true := by
    decide +kernel
  obtain ⟨s, hs, _, hreach⟩ := tunnelStart_some
  rw [hs] at hrun
  simp only [Option.all_some, Bool.and_eq_true, beq_iff_eq] at hrun
  obtain ⟨⟨hresult, hold⟩, hnew⟩ := hrun
  exact ⟨s, o, (clientCheckConfigChange tunnelChange o s).2, hreach, Prod.ext hresult rfl, hold, hnew⟩

end Camex
