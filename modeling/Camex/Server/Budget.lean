import Camex.Server.State

/-!
# Handshake budgets and shares (`server.c`)

An INIT is charged to the whole budgets of the second and, unless it comes from a live client's
address, to those of the unknown sources, of its address and of its /24. The budgets decide which
handshakes are looked at; of the client table they touch only `hsWindow` and `hsCount` of the live
client at the source.
-/

namespace Camex

open Lib

variable {n : ℕ}

def SERVER_HANDSHAKES_PER_SEC : ℕ := 200
def SERVER_KEY_TRIALS_PER_SEC : ℕ := SERVER_HANDSHAKES_PER_SEC * 256
def SERVER_KNOWN_PER_SEC : ℕ := 4
def SERVER_SRC_PROBES : ℕ := 8

def serverUnknownShare (k : ℕ) : ℕ := k / 4 * 3

def serverSrcShare (k : ℕ) : ℕ := k / 8

def serverNetShare (k : ℕ) : ℕ := k / 4

/-- `server_source_t` without its address; a share is its slot in the table. -/
structure Source (n : ℕ) where
  lookedUp : Bool
  addr : Option (Fin SERVER_SRC_SLOTS)
  net : Option (Fin SERVER_SRC_SLOTS)
  known : Option (Fin n)

def serverBudgetWindow (b : Budget) (now : Time) : Budget :=
  if b.window = now then b
  else { b with window := now, handshakes := 0, unknownHandshakes := 0, trials := 0, unknownTrials := 0 }

/-- The hashed bytes of a share's key. -/
def shareMessage (key : Ip) (isNet : Bool) : Bytes := v2WriteU32 key ++ [if isNet then 1 else 0]

section

variable {Hs : Type} (N : Noise Hs)

/-- The slots a share is looked for in, in their order. -/
def shareProbes (key : BitVec 128) (k : Ip) (isNet : Bool) : List (Fin SERVER_SRC_SLOTS) :=
  (List.range SERVER_SRC_PROBES).map fun p =>
    ⟨(N.shareHash key (shareMessage k isNet) + BitVec.ofNat 32 p).toNat % SERVER_SRC_SLOTS,
      Nat.mod_lt _ (by decide)⟩

/-- `server_share_of`: the share's slot, one of a past second taken for it when it has none.
`fresh`: the random bytes for the table's key while it has none. -/
def serverShareOf (b : Budget) (now : Time) (fresh : Option (BitVec 128)) (key : Ip) (isNet : Bool) :
    Budget × Option (Fin SERVER_SRC_SLOTS) :=
  let b := match b.shareKey with
    | some _ => b
    | none => { b with shareKey := fresh }
  let probes := shareProbes N (b.shareKey.getD 0) key isNet
  let mine := fun k => (b.shares k).window == now && (b.shares k).key == key && (b.shares k).isNet == isNet
  match probes.find? mine with
  | some k => (b, some k)
  | none =>
    match probes.find? fun k => (b.shares k).window != now with
    | none => (b, none)
    | some k => ({ b with shares := Function.update b.shares k ⟨key, isNet, now, 0, 0⟩ }, some k)

def serverSourceShares (b : Budget) (now : Time) (fresh : Bool → Option (BitVec 128)) (a : Ip)
    (src : Source n) : Budget × Source n :=
  if src.lookedUp then (b, src)
  else
    let (b, addr) := serverShareOf N b now (fresh false) a false
    let (b, net) := serverShareOf N b now (fresh true) (a &&& 0xFFFFFF00#32) true
    (b, { src with lookedUp := true, addr := addr, net := net })

end

/-- `server_known_source`: the live client at a source, and its slot with the INIT counted. -/
def serverKnownSource (s : Server n) (src : SockAddr) : Server n × Option (Fin n) :=
  match serverFindByAddr s.clients src with
  | none => (s, none)
  | some i =>
    let c := s.clients i
    if !c.registered || !c.cur.valid || c.lastData == 0 ||
        decide (serverClientTimeout s.conf < s.now - c.lastData) then (s, none)
    else
      let c := if c.hsWindow = s.now then c else { c with hsWindow := s.now, hsCount := 0 }
      if SERVER_KNOWN_PER_SEC ≤ c.hsCount then (s.setClient i c, none)
      else (s.setClient i { c with hsCount := c.hsCount + 1 }, some i)

def serverSourceFor (s : Server n) (src : SockAddr) : Server n × Source n :=
  let s := { s with budget := serverBudgetWindow s.budget s.now }
  let (s, known) := serverKnownSource s src
  (s, ⟨false, none, none, known⟩)

def chargeShare (f : ServerShare → ServerShare) (b : Budget) (k : Option (Fin SERVER_SRC_SLOTS)) :
    Budget :=
  match k with
  | none => b
  | some k => { b with shares := Function.update b.shares k (f (b.shares k)) }

def shareSpent (spent : ServerShare → Bool) (b : Budget) (k : Option (Fin SERVER_SRC_SLOTS)) : Bool :=
  k.any fun k => spent (b.shares k)

section

variable {Hs : Type} (N : Noise Hs)

/-- `server_handshake_budget`; the flag: within the budgets. -/
def serverHandshakeBudget (b : Budget) (now : Time) (fresh : Bool → Option (BitVec 128)) (a : Ip)
    (src : Source n) : Budget × Source n × Bool :=
  if SERVER_HANDSHAKES_PER_SEC ≤ b.handshakes then (b, src, false)
  else if src.known.isSome then ({ b with handshakes := b.handshakes + 1 }, src, true)
  else if serverUnknownShare SERVER_HANDSHAKES_PER_SEC ≤ b.unknownHandshakes then (b, src, false)
  else
    let (b, src) := serverSourceShares N b now fresh a src
    if shareSpent (fun h => serverSrcShare SERVER_HANDSHAKES_PER_SEC ≤ h.handshakes) b src.addr ||
        shareSpent (fun h => serverNetShare SERVER_HANDSHAKES_PER_SEC ≤ h.handshakes) b src.net then
      (b, src, false)
    else
      let charge := fun h : ServerShare => { h with handshakes := h.handshakes + 1 }
      let b := chargeShare charge (chargeShare charge b src.addr) src.net
      ({ b with unknownHandshakes := b.unknownHandshakes + 1, handshakes := b.handshakes + 1 }, src,
        true)

def serverKeyTrialsLimit (keys : ℕ) : ℕ := max SERVER_KEY_TRIALS_PER_SEC (keys * 4)

def serverTrialShare (keys : ℕ) (isNet : Bool) : ℕ :=
  let limit := serverKeyTrialsLimit keys
  max (if isNet then serverNetShare limit else serverSrcShare limit) (keys * if isNet then 2 else 1)

/-- `server_key_trial_budget`; `keys` is the size of the keystore. -/
def serverKeyTrialBudget (b : Budget) (now : Time) (fresh : Bool → Option (BitVec 128)) (a : Ip)
    (keys : ℕ) (src : Source n) (own : Bool) : Budget × Source n × Bool :=
  let limit := serverKeyTrialsLimit keys
  if limit ≤ b.trials then (b, src, false)
  else if own then ({ b with trials := b.trials + 1 }, src, true)
  else if serverUnknownShare limit ≤ b.unknownTrials then (b, src, false)
  else
    let (b, src) := serverSourceShares N b now fresh a src
    if shareSpent (fun h => serverTrialShare keys false ≤ h.trials) b src.addr ||
        shareSpent (fun h => serverTrialShare keys true ≤ h.trials) b src.net then (b, src, false)
    else
      let charge := fun h : ServerShare => { h with trials := h.trials + 1 }
      let b := chargeShare charge (chargeShare charge b src.addr) src.net
      ({ b with unknownTrials := b.unknownTrials + 1, trials := b.trials + 1 }, src, true)

end

end Camex
