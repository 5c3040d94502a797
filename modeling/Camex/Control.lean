import Camex.Lib.CString
import Camex.Lib.Runs
import Mathlib.Logic.Function.Basic

/-!
# The control socket (`control.c`)

A local program sends one line on a connection and reads the answer. `WAIT` is held back: its answer is the fingerprint
of the clients' state, sent when it is not the one given or when the seconds are up. All who wait share one cached
fingerprint.

* `waitArgs`: the line of a `WAIT`;
* `controlStateHashNow`, `controlStateHash`: the fingerprint and its cache of 250 ms;
* `controlWaitStart`, `controlAnswer`, `fdsetConn`, `controlFdset`, `handleConn`, `controlHandle`;
* `controlMachine`, `effects`: the runs, and what became of the commands in their order.

The connections are numbered as they are accepted; the monotonic clock counts nanoseconds.
-/

namespace Camex.Control

open Lib

def CONTROL_CONNS : ℕ := 8
def CONTROL_TIMEOUT : ℤ := 10
def CONTROL_CMD_MAX : ℕ := 64
def CONTROL_END : CStr := ascii ".\n"
def CONTROL_WAIT_MAX : ℤ := 3600

/-- What `server.c` says of the state of the clients; `none`: no memory for the text. -/
structure Server (σ : Type*) where
  serverStateHash : σ → UInt64
  serverStatus : Bool → σ → Option CStr
  serverClientsList : Bool → σ → Option CStr
  serverClientsIndex : σ → Option CStr
  domain : σ → CStr

/-- `control_conn_t`; without an `fd` it is not used. -/
structure ControlConn where
  fd : Option ℕ
  cmd : CStr
  out : Option CStr
  outOff : ℕ
  since : ℤ
  waiting : Bool
  waitHash : UInt64
  waitUntil : ℤ

def CONTROL_CONN_FREE : ControlConn := ⟨none, [], none, 0, 0, false, 0, 0⟩

/-- The sockets and the cached fingerprint, with the state of the clients, how many connections were accepted, and the
last reading of the monotonic clock. -/
structure Ctl (σ : Type*) where
  server : σ
  listening : Bool
  conns : ℕ → ControlConn
  stateHash : UInt64
  stateHashAt : ℕ
  stateHashHave : Bool
  accepted : ℕ
  now : ℕ

/-- What became of a command: a `WAIT` came in when the state had the fingerprint `current`; it was answered; or there
was no memory for its answer. And how the state changed. -/
inductive Effect
  | changed (h : UInt64)
  | arrived (conn : ℕ) (current : UInt64) (given : Option UInt64) (secs : ℕ) (wall : ℤ)
  | answered (conn : ℕ) (h : UInt64) (wall : ℤ)
  | lost (conn : ℕ)
  deriving DecidableEq

variable {σ : Type*}

def Ctl.setConn (s : Ctl σ) (i : ℕ) (c : ControlConn) : Ctl σ := { s with conns := Function.update s.conns i c }

/-! ## The line of a WAIT -/

def isHex (b : UInt8) : Bool := isDigit b || (65 ≤ b && b ≤ 70) || (97 ≤ b && b ≤ 102)

def hexValue (b : UInt8) : ℕ := if isDigit b then b.toNat - 48 else (toLower b).toNat - 87

/-- `strtoull` base 16: the value before it is clipped, and the rest. -/
def strtoullHex (s : CStr) : Option (ℕ × CStr) :=
  let s := s.dropWhile isSpace
  let signed := match s with
    | c :: r => if c = 45 then (true, r) else if c = 43 then (false, r) else (false, s)
    | [] => (false, s)
  let body := match signed.2 with
    | 48 :: x :: d :: r => if toLower x = 120 ∧ isHex d then d :: r else signed.2
    | _ => signed.2
  let digits := body.takeWhile isHex
  if digits = [] then none
  else
    let v := digits.foldl (fun v b => v * 16 + hexValue b) 0
    some (if signed.1 ∧ v < 2 ^ 64 then (2 ^ 64 - v) % 2 ^ 64 else v, body.dropWhile isHex)

/-- The fingerprint given, `none` for `-`, and the seconds; outer `none`: malformed. -/
def waitArgs (cmd : CStr) : Option (Option UInt64 × ℕ) :=
  let p := cmd.drop 5
  let given := match p with
    | 45 :: r => some (none, r)
    | _ =>
      match strtoullHex p with
      | some (v, rest) =>
        if 16 < p.length - rest.length ∨ 2 ^ 64 ≤ v then none else some (some (UInt64.ofNat v), rest)
      | none => none
  match given with
  | some (given, 32 :: r) =>
    match strtol r with
    | some (secs, []) => if secs < 0 ∨ CONTROL_WAIT_MAX < secs then none else some (given, secs.toNat)
    | _ => none
  | _ => none

def hexDigit (d : ℕ) : UInt8 := if d < 10 then digit d else UInt8.ofNat (87 + d)

/-- `%016x` and a newline. -/
def waitText (h : UInt64) : CStr :=
  (List.range 16).map (fun k => hexDigit (h.toNat / 16 ^ (15 - k) % 16)) ++ [10]

/-! ## The fingerprint -/

section
variable (srv : Server σ)

/-- `control_state_hash_now`; `t`: the clock behind it. -/
def controlStateHashNow (s : Ctl σ) (t : ℕ) : Option (Ctl σ) :=
  if s.now ≤ t then
    some { s with stateHash := srv.serverStateHash s.server, stateHashAt := t, stateHashHave := true, now := t }
  else none

/-- The milliseconds between two readings as `control_state_hash` works them out. -/
def elapsedMs (now before : ℕ) : ℤ :=
  ((now / 10 ^ 9 : ℕ) - (before / 10 ^ 9 : ℕ) : ℤ) * 1000 +
    ((now % 10 ^ 9 : ℕ) - (before % 10 ^ 9 : ℕ) : ℤ).tdiv 1000000

/-- `control_state_hash`; `t`: its clock, `u`: the clock behind a new fingerprint. -/
def controlStateHash (s : Ctl σ) (t u : ℕ) : Option (Ctl σ) :=
  if s.now ≤ t then
    let s := { s with now := t }
    let ms := elapsedMs t s.stateHashAt
    if !s.stateHashHave || decide (250 ≤ ms) || decide (ms < 0) then controlStateHashNow srv s u else some s
  else none

/-- `control_finish`: an answer and the end marker; without memory the connection is closed. -/
def controlFinish (c : ControlConn) (out : Option CStr) (alloc : Bool) : ControlConn :=
  match out with
  | some text => if alloc then { c with out := some (text ++ CONTROL_END), outOff := 0 } else CONTROL_CONN_FREE
  | none => CONTROL_CONN_FREE

/-- `control_wait_answer`; `n`: the connection, `wall`: the time. -/
def controlWaitAnswer (c : ControlConn) (n : ℕ) (h : UInt64) (alloc : Bool) (wall : ℤ) : ControlConn × Effect :=
  (controlFinish { c with waiting := false } (some (waitText h)) alloc,
    if alloc then .answered n h wall else .lost n)

/-! ## A pass of the loop -/

/-- What `control_fdset` reads for a connection: its clocks, and if there is memory for an answer. -/
structure Visit where
  now : ℕ
  again : ℕ
  wall : ℤ
  since : ℤ
  alloc : Bool

def fdsetConn (v : Visit) (i : ℕ) (s : Ctl σ) : Option (Ctl σ × List Effect) :=
  match (s.conns i).fd with
  | none => some (s, [])
  | some n =>
    if (s.conns i).waiting then
      (controlStateHash srv s v.now v.again).map fun s =>
        if s.stateHash ≠ (s.conns i).waitHash ∨ (s.conns i).waitUntil ≤ v.wall then
          let a := controlWaitAnswer (s.conns i) n s.stateHash v.alloc v.wall
          (s.setConn i (if a.1.fd = none then a.1 else { a.1 with since := v.since }), [a.2])
        else (s, [])
    else if CONTROL_TIMEOUT < v.wall - (s.conns i).since then some (s.setConn i CONTROL_CONN_FREE, [])
    else some (s, [])

def sweep (f : ℕ → Ctl σ → Option (Ctl σ × List Effect)) : List ℕ → Ctl σ → Option (Ctl σ × List Effect)
  | [], s => some (s, [])
  | i :: is, s =>
    match f i s with
    | none => none
    | some (t, out) => (sweep f is t).map fun r => (r.1, out ++ r.2)

def controlFdset (visits : ℕ → Visit) (s : Ctl σ) : Option (Ctl σ × List Effect) :=
  if s.listening then sweep (fun i => fdsetConn srv (visits i) i) (List.range CONTROL_CONNS) s else some (s, [])

/-! ## Commands -/

inductive Recv
  | again
  | gone
  | bytes (b : CStr)

inductive Send
  | again
  | failed
  | bytes (n : ℕ)

/-- What `control_handle` meets at a connection: what can be read and written, its clocks, and the memory. -/
structure Io where
  recv : Option Recv
  send : Option Send
  now : ℕ
  wall : ℤ
  alloc : Bool

def badCommand : CStr :=
  ascii "ERROR unknown command (STATUS, STATUS JSON, CLIENTS, CLIENTS NAMES, CLIENTS INDEX, DOMAIN, WAIT <hash|-> <seconds>)\n"

/-- `control_wait_start` with its arguments read. -/
def controlWaitStart (io : Io) (i n : ℕ) (given : Option UInt64) (secs : ℕ) (s : Ctl σ) :
    Option (Ctl σ × List Effect) :=
  (controlStateHashNow srv s io.now).map fun s =>
    let came := Effect.arrived n s.stateHash given secs io.wall
    match given with
    | none =>
      let a := controlWaitAnswer (s.conns i) n s.stateHash io.alloc io.wall
      (s.setConn i a.1, [came, a.2])
    | some given =>
      if s.stateHash ≠ given ∨ secs = 0 then
        let a := controlWaitAnswer (s.conns i) n s.stateHash io.alloc io.wall
        (s.setConn i a.1, [came, a.2])
      else
        (s.setConn i { s.conns i with waiting := true, waitHash := given, waitUntil := io.wall + secs }, [came])

/-- The line of a command: up to its newline and before a carriage return, as a C string. -/
def commandLine (cmd : CStr) : CStr :=
  let line := beforeByte 10 cmd
  beforeByte 0 (if 10 ∈ cmd ∧ line.getLast? = some 13 then line.dropLast else line)

def commandAnswer (line : CStr) (server : σ) : Option CStr :=
  if line = ascii "STATUS" then srv.serverStatus false server
  else if line = ascii "STATUS JSON" then srv.serverStatus true server
  else if line = ascii "CLIENTS" then srv.serverClientsList false server
  else if line = ascii "CLIENTS NAMES" then srv.serverClientsList true server
  else if line = ascii "CLIENTS INDEX" then srv.serverClientsIndex server
  else if line = ascii "DOMAIN" then some ((srv.domain server).map toLower ++ [10])
  else some badCommand

def controlAnswer (io : Io) (i n : ℕ) (s : Ctl σ) : Option (Ctl σ × List Effect) :=
  let line := commandLine (s.conns i).cmd
  if ascii "WAIT " <+: line then
    match waitArgs line with
    | some (given, secs) => controlWaitStart srv io i n given secs s
    | none => some (s.setConn i (controlFinish (s.conns i) (some badCommand) io.alloc), [])
  else some (s.setConn i (controlFinish (s.conns i) (commandAnswer srv line s.server) io.alloc), [])

def readCommand (io : Io) (i n : ℕ) (r : Recv) (s : Ctl σ) : Option (Ctl σ × List Effect) :=
  match r with
  | .again => some (s, [])
  | .gone => some (s.setConn i CONTROL_CONN_FREE, [])
  | .bytes b =>
    let b := b.take (CONTROL_CMD_MAX - 1 - (s.conns i).cmd.length)
    if b = [] then some (s.setConn i CONTROL_CONN_FREE, [])
    else
      let cmd := (s.conns i).cmd ++ b
      let s := s.setConn i { s.conns i with cmd := cmd }
      if 10 ∈ cmd ∨ CONTROL_CMD_MAX - 1 ≤ cmd.length then controlAnswer srv io i n s else some (s, [])

def sendAnswer (i : ℕ) (out : CStr) (r : Send) (s : Ctl σ) : Ctl σ :=
  match r with
  | .again => s
  | .failed => s.setConn i CONTROL_CONN_FREE
  | .bytes k =>
    if out.length ≤ (s.conns i).outOff + k then s.setConn i CONTROL_CONN_FREE
    else s.setConn i { s.conns i with outOff := (s.conns i).outOff + k }

/-- An answer is sent when the socket takes some. -/
def sendReady (io : Io) (i : ℕ) (s : Ctl σ) : Ctl σ :=
  match (s.conns i).out, io.send with
  | some out, some r => sendAnswer i out r s
  | _, _ => s

/-- A waiting connection is read only to see the other side go away. -/
def waitRecv (i : ℕ) (r : Recv) (s : Ctl σ) : Ctl σ :=
  match r with
  | .gone => s.setConn i CONTROL_CONN_FREE
  | .bytes b => if b = [] then s.setConn i CONTROL_CONN_FREE else s
  | .again => s

def handleConn (io : Io) (i : ℕ) (s : Ctl σ) : Option (Ctl σ × List Effect) :=
  match (s.conns i).fd, io.recv with
  | none, _ => some (s, [])
  | some _, none => some (sendReady io i s, [])
  | some n, some r =>
    if (s.conns i).waiting then some (waitRecv i r s, [])
    else if (s.conns i).out = none then readCommand srv io i n r s
    else some (sendReady io i s, [])

/-- A connection is accepted into the first free place; `ok`: it can be watched. -/
def acceptConn (ok : Bool) (since : ℤ) (s : Ctl σ) : Ctl σ :=
  match (List.range CONTROL_CONNS).find? (fun i => (s.conns i).fd == none) with
  | some i =>
    if ok then
      { s.setConn i { CONTROL_CONN_FREE with fd := some s.accepted, since := since } with accepted := s.accepted + 1 }
    else s
  | none => s

def controlHandle (accepts : List (Bool × ℤ)) (ios : ℕ → Io) (s : Ctl σ) : Option (Ctl σ × List Effect) :=
  if s.listening then
    sweep (fun i => handleConn srv (ios i) i) (List.range CONTROL_CONNS)
      (accepts.foldl (fun s a => acceptConn a.1 a.2 s) s)
  else some (s, [])

/-- `control_close`, and a new listener when a reload has one. -/
def controlReopen (listening : Bool) (s : Ctl σ) : Ctl σ :=
  { s with listening := listening, conns := fun _ => CONTROL_CONN_FREE }

/-! ## Runs -/

inductive Event (σ : Type*)
  | change (server : σ)
  | pass (visits : ℕ → Visit)
  | handle (accepts : List (Bool × ℤ)) (ios : ℕ → Io)
  | reopen (listening : Bool)

/-- A step and what it does; `none` when the clock went back. -/
def step (s : Ctl σ) : Event σ → Option (Ctl σ × List Effect)
  | .change server => some ({ s with server := server }, [.changed (srv.serverStateHash server)])
  | .pass visits => controlFdset srv visits s
  | .handle accepts ios => controlHandle srv accepts ios s
  | .reopen listening => some (controlReopen listening s, [])

def Ctl.start (server : σ) : Ctl σ := ⟨server, false, fun _ => CONTROL_CONN_FREE, 0, 0, false, 0, 0⟩

def controlMachine : Machine (Ctl σ) (Event σ) where
  start s := ∃ server, s = .start server
  next s e := (step srv s e).map Prod.fst

def effects : Ctl σ → List (Event σ) → List Effect
  | _, [] => []
  | s, e :: es =>
    match step srv s e with
    | none => []
    | some (t, out) => out ++ effects t es

end

end Camex.Control
