import Mathlib.Data.Fintype.Pi
import Camex.ClientConfig
import Camex.Lib.Runs

/-!
# The client's tunnel (`packet.c`, `camex.c`, `client.c`)

A client in auto mode opens its tunnel with the settings of its first CONFIG. A later CONFIG that says something
else is applied to the live tunnel: the old routes are removed, the tunnel is closed and opened again, the new routes
are installed.

* `Tunnel`: an open packet backend, what it was opened with and the routes installed through it;
* `camexClientReconfigure`: `camex_client_reconfigure`, for every outcome of the commands it runs;
* `tunnelMachine`: the client from its first CONFIG on, a CONFIG at a time.
-/

namespace Camex

open Lib

/-! ## The packet backend -/

/-- Where the TUN backend has its device from. -/
inductive TunSource
  | created
  | provided
  /-- The descriptor in `CAMEX_TUN_FD`. -/
  | inherited
  deriving DecidableEq

/-- An open `camex_packet_backend_t`: the TUN backend, or one that was plugged in with its `host_routes`. -/
inductive Backend
  | tun (source : TunSource)
  | plugged (hostRoutes : Bool)
  deriving DecidableEq

/-- `packet_host_routes`: camex manages the host's routes itself. -/
def Backend.hostRoutes : Backend → Bool
  | .tun source => source == .created
  | .plugged hostRoutes => hostRoutes

/-- `packet_backend_get() == &camex_tun_backend && tun_is_inherited()`. -/
def Backend.isInherited : Backend → Bool
  | .tun source => source == .inherited
  | .plugged _ => false

/-- `camex_packet_open_t`. -/
structure PacketOpen where
  localIp : CStr
  netmask : Ip
  mtu : ℤ
  routes : List CStr
  device : CStr
  deriving DecidableEq

/-- A route on the host: where to and through which gateway. -/
structure HostRoute where
  cidr : CStr
  gateway : CStr
  deriving DecidableEq

/-- An open tunnel: the configuration it was opened for, the parameters its backend was given, and the routes that
were installed since. -/
structure Tunnel where
  backend : Backend
  config : CamexConfig
  params : PacketOpen
  installed : List HostRoute

/-- `packet_open`, refused while a backend is open; `result`: how the backend's own `open` ends. -/
def packetOpen (tunnel : Option Tunnel) (config : CamexConfig) (params : PacketOpen) (result : Option Backend) :
    Option Tunnel :=
  if tunnel.isSome then none
  else result.map fun backend => ⟨backend, config, params, []⟩

def packetClose : Option Tunnel → Option Tunnel
  | some _ => none
  | none => none

def openParams (config : CamexConfig) : Option PacketOpen :=
  match parseLocalCidr config.localCidr with
  | none => none
  | some (localIp, netmask) => some ⟨localIp, netmask, config.mtu, config.routes, config.tunDev⟩

def clientOpenTunnel (tunnel : Option Tunnel) (config : CamexConfig) (result : Option Backend) : Option Tunnel :=
  match openParams config with
  | none => none
  | some params => packetOpen tunnel config params result

/-! ## Routes -/

/-- `camex_add_route` (a replace) or `camex_del_route`, once it worked. -/
def HostRoute.set (add : Bool) (route : HostRoute) (installed : List HostRoute) : List HostRoute :=
  if add then installed.insert route else installed.filter (· ≠ route)

/-- The loop of `client_set_routes` from its `i`-th route on, with the number of routes that failed. -/
def setRoutesFrom (add : Bool) (ok : ℕ → Bool) (gateway : CStr) :
    ℕ → List CStr → List HostRoute → List HostRoute × ℕ
  | _, [], installed => (installed, 0)
  | i, cidr :: cidrs, installed =>
    if ok i then setRoutesFrom add ok gateway (i + 1) cidrs (HostRoute.set add ⟨cidr, gateway⟩ installed)
    else
      match setRoutesFrom add ok gateway (i + 1) cidrs installed with
      | (installed, failed) => (installed, failed + 1)

/-- `client_set_routes` for the open tunnel; `ok i`: the command for the `i`-th route works. -/
def clientSetRoutes (add : Bool) (ok : ℕ → Bool) (config : CamexConfig) (tunnel : Tunnel) : Tunnel × ℕ :=
  if tunnel.backend.hostRoutes = false ∨ config.gatewayIp = [] then (tunnel, 0)
  else
    match setRoutesFrom add ok config.gatewayIp 0 config.routes tunnel.installed with
    | (installed, failed) => ({ tunnel with installed }, failed)

/-! ## Reconfiguring -/

/-- `current_config`, the backend and `client_reconfig_pending`. -/
structure ClientTunnel where
  current : CamexConfig
  tunnel : Option Tunnel
  pending : Bool

def camexClientInstallRoutes (ok : ℕ → Bool) (s : ClientTunnel) : ClientTunnel :=
  match s.tunnel with
  | none => s
  | some t =>
    match clientSetRoutes true ok s.current t with
    | (t, failed) => { s with tunnel := some t, pending := if failed ≠ 0 then true else s.pending }

def clientConfigSame (a b : CamexConfig) : Bool :=
  decide (a.localCidr = b.localCidr) && decide (a.gatewayIp = b.gatewayIp) && decide (a.mtu = b.mtu) &&
    decide (a.routeCount = b.routeCount) && decide (a.routeCidrs = b.routeCidrs)

/-- How the commands of a reconfiguration end: the tunnel opened with the new and with the old settings, the routes
removed and installed. -/
structure Outcome where
  openNext : Option Backend
  openOld : Option Backend
  removed : ℕ → Bool
  added : ℕ → Bool

/-- The settings of a CONFIG put into `current_config`. -/
def adoptSettings (config next : CamexConfig) (localIp : CStr) : CamexConfig :=
  { config with
    localCidr := store 32 next.localCidr
    localIp := store 16 localIp
    gatewayIp := store 16 next.gatewayIp
    mtu := next.mtu
    routeCount := next.routeCount
    routeCidrs := next.routeCidrs }

/-- `camex_client_reconfigure` behind its checks: close, open with the new settings, else with the old ones. -/
def clientReopen (o : Outcome) (s : ClientTunnel) (next : CamexConfig) (localIp : CStr) : Bool × ClientTunnel :=
  let removed := s.tunnel.map fun t => (clientSetRoutes false o.removed s.current t).1
  let closed := packetClose removed
  match clientOpenTunnel closed next o.openNext with
  | none =>
    match clientOpenTunnel closed s.current o.openOld with
    | none => (false, { s with tunnel := closed, pending := true })
    | some t =>
      match clientSetRoutes true o.added s.current t with
      | (t, failed) => (false, { s with tunnel := some t, pending := decide (failed ≠ 0) })
  | some t =>
    let current := adoptSettings s.current next localIp
    match clientSetRoutes true o.added current t with
    | (t, failed) => (decide (failed = 0), { current, tunnel := some t, pending := decide (failed ≠ 0) })

/-- `camex_client_reconfigure`; `true`: it returns 0. -/
def camexClientReconfigure (o : Outcome) (s : ClientTunnel) (next : CamexConfig) : Bool × ClientTunnel :=
  match parseLocalCidr next.localCidr with
  | none => (false, s)
  | some (localIp, _) =>
    match s.tunnel with
    | none => clientReopen o s next localIp
    | some t =>
      if t.backend.isInherited then (false, s)
      else if clientConfigSame s.current next then
        match clientSetRoutes true o.added s.current t with
        | (t, failed) => (decide (failed = 0), { s with tunnel := some t, pending := decide (failed ≠ 0) })
      else clientReopen o s next localIp

/-- `client_check_config_change`, with the result of the reconfiguration if there is one. -/
def clientCheckConfigChange (payload : Bytes) (o : Outcome) (s : ClientTunnel) : Option Bool × ClientTunnel :=
  if CAMEX_CONTROL_MAX ≤ payload.length then (none, s)
  else
    match protoParseConfig payload s.current with
    | none => (none, s)
    | some probe =>
      if s.pending = true ∨ probe.localCidr ≠ s.current.localCidr ∨ probe.gatewayIp ≠ s.current.gatewayIp ∨
          probe.mtu ≠ s.current.mtu ∨ probe.routeCount ≠ s.current.routeCount ∨
          probe.routeCidrs ≠ s.current.routeCidrs then
        match camexClientReconfigure o s probe with
        | (rc, s) => (some rc, s)
      else (none, s)

/-! ## From the first CONFIG on -/

def clientApplyConfigResponse (payload : Bytes) (config : CamexConfig) : Option CamexConfig :=
  if CAMEX_CONTROL_MAX ≤ payload.length then none
  else
    (protoParseConfig payload config).map fun config =>
      match parseLocalCidr config.localCidr with
      | some (localIp, _) => { config with localIp := store 16 localIp }
      | none => config

/-- The start of a client in auto mode: its first CONFIG, the tunnel opened, the routes installed. `none`: it ends.
`pending` is what a run before left in the flag. -/
def clientStart (startup : CamexConfig) (payload : Bytes) (opened : Option Backend) (added : ℕ → Bool)
    (pending : Bool) : Option ClientTunnel :=
  match clientApplyConfigResponse payload startup with
  | none => none
  | some current =>
    match clientOpenTunnel none current opened with
    | none => none
    | some t => some (camexClientInstallRoutes added ⟨current, some t, pending⟩)

/-- A CONFIG of a later handshake and how the commands end that it leads to. -/
structure ConfigEvent where
  payload : Bytes
  outcome : Outcome

def tunnelMachine : Machine ClientTunnel ConfigEvent where
  start s := ∃ startup payload opened added pending, clientStart startup payload opened added pending = some s
  next s e := some (clientCheckConfigChange e.payload e.outcome s).2

end Camex
