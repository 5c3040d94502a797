import Camex.Control

/-!
# The token of `--wait` (`control.c`)

`camex --status --wait` prints one line: the sockets that it asked and the fingerprint of each. It takes that line back
as its token.

* `tokenPath`: a socket path in the token;
* `waitToken`: the token that the answers make;
* `tokenFind`, `tokenLost`: what is read from a token.
-/

namespace Camex.Control

open Lib

/-- `control_path_t`. -/
structure ControlPath where
  text : CStr
  fits : text.length < 108
  deriving DecidableEq

/-- `sizeof(path)` of an encoded path. -/
def TOKEN_PATH_SIZE : ℕ := 3 * 108

def tokenByte (b : UInt8) : CStr := if b = 44 then ascii "%2C" else if b = 37 then ascii "%25" else [b]

def tokenPathFrom (size : ℕ) (out : CStr) : CStr → Option CStr
  | [] => some out
  | b :: path => if size ≤ out.length + (tokenByte b).length then none else tokenPathFrom size (out ++ tokenByte b) path

def tokenPath (size : ℕ) (path : CStr) : Option CStr := tokenPathFrom size [] path

/-- `strchr`, as an offset. -/
def strchr (b : UInt8) (s : CStr) : Option ℕ := s.findIdx? (· == b)

/-! ## Printing -/

/-- The fields of `control_waiter_t` that the token is made of; `old` and `now` are there when they are known. -/
structure Waiter where
  path : ControlPath
  old : Option UInt64
  now : Option UInt64
  gone : Bool

/-- `%016x`. -/
def hexText (h : UInt64) : CStr := (List.range 16).map fun k => hexDigit (h.toNat / 16 ^ (15 - k) % 16)

/-- The fingerprint that a server is printed with. -/
def Waiter.hash (w : Waiter) : Option UInt64 :=
  if w.gone then none
  else
    match w.now with
    | some h => some h
    | none => w.old

/-- One turn of the loop that prints the token; the flag is `printed`. -/
def printWaiter (out : CStr × Bool) (w : Waiter) : CStr × Bool :=
  match w.hash with
  | none => out
  | some h =>
    match tokenPath TOKEN_PATH_SIZE w.path.text with
    | none => out
    | some enc => (out.1 ++ (if out.2 then [44] else []) ++ hexText h ++ 58 :: enc, true)

/-- The token that `control_wait` prints, without the newline behind it. -/
def waitToken (ws : List Waiter) : CStr :=
  let out := ws.foldl printWaiter ([], false)
  out.1 ++ if out.2 then [] else ascii "none"

/-! ## Reading -/

/-- The token that `control_wait` works with. -/
def tokenArg (token : CStr) : CStr := if token = ascii "-" ∨ token = ascii "none" then [] else token

/-- Does the entry at `p`, `elen` bytes long, have this path behind its colon? -/
def entryHasPath (p : CStr) (colon elen : ℕ) (path : CStr) : Bool :=
  decide (elen - colon - 1 = path.length) && (p.drop (colon + 1)).take path.length == path

/-- The loop of `token_find`; `fuel`: the length of the token. -/
def tokenFindFrom (path : CStr) : ℕ → CStr → Option UInt64
  | 0, _ => none
  | fuel + 1, p =>
    if p = [] then none
    else
      let comma := strchr 44 p
      let elen := comma.getD p.length
      if (strchr 58 p).any fun colon => decide (colon < elen ∧ colon = 16) && entryHasPath p colon elen path then
        match strtoullHex (p.take 16) with
        | some (v, []) => some (UInt64.ofNat v)
        | _ => none
      else
        match comma with
        | some comma => tokenFindFrom path fuel (p.drop (comma + 1))
        | none => none

def tokenFind (token rawpath : CStr) : Option UInt64 :=
  match tokenPath TOKEN_PATH_SIZE rawpath with
  | none => none
  | some path => tokenFindFrom path (token.length + 1) token

/-- Is the path of the entry at `p` one of the servers'? -/
def entryListed (p : CStr) (colon elen : ℕ) (servers : List ControlPath) : Bool :=
  servers.any fun w => (tokenPath TOKEN_PATH_SIZE w.text).any fun path => entryHasPath p colon elen path

def tokenLostFrom (servers : List ControlPath) : ℕ → CStr → Bool
  | 0, _ => false
  | fuel + 1, p =>
    if p = [] then false
    else
      let comma := strchr 44 p
      let elen := comma.getD p.length
      match strchr 58 p with
      | none => true
      | some colon =>
        if elen ≤ colon then true
        else if !entryListed p colon elen servers then true
        else
          match comma with
          | some comma => tokenLostFrom servers fuel (p.drop (comma + 1))
          | none => false

def tokenLost (token : CStr) (servers : List ControlPath) : Bool := tokenLostFrom servers (token.length + 1) token

end Camex.Control
