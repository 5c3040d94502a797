import Camex.Lib.Runs
import Mathlib.Data.List.Infix
import Mathlib.Logic.Function.Basic

/-!
# The queue of the kernel module (`camex-k.c`)

`/dev/camex` is a queue of packets between `camex_net_xmit` and `camex_chr_read`. The threads of the kernel run these
in any order; a step of the machine is a section under `rx_lock`, the compare-and-swap of an open, or what a thread does
with a packet that no other one can reach.

* `camexNetXmit`, `camexChrOpen`, `camexChrRelease`, `readTest`, `readTake`, `readFinish`: the sections;
* `queueMachine`, `effects`: the runs, and what they did to the packets in their order.
-/

namespace Camex.Kernel

open Lib

def QUEUE_LIMIT : ℤ := 64

/-- `struct sk_buff`: the number of the packet and its length. -/
structure Skb where
  id : ℕ
  len : ℕ
  deriving DecidableEq

/-- `struct camex_priv`. -/
structure CamexPriv where
  rxQueue : List Skb
  rxCount : ℤ
  attached : Bool

/-- Where a thread is in the driver: behind the section of a transmit that drops its packet, in a read that has not
found a packet yet, behind its test, or behind the section that took a packet. -/
inductive Task
  | idle
  | dropping (skb : Skb)
  | reading (file : ℕ) (nonblock : Bool) (count : ℕ)
  | ready (file count : ℕ)
  | holding (file count : ℕ) (skb : Skb)
  deriving DecidableEq

/-- The driver, its threads, the open files, and how many opens and transmits there were. -/
structure Sys where
  priv : CamexPriv
  task : ℕ → Task
  files : List ℕ
  opens : ℕ
  sent : ℕ

inductive FreedBy
  | read
  | drop
  | flush
  deriving DecidableEq

/-- What `camex_chr_read` returns for a packet. -/
inductive ReadResult
  | msgsize
  | fault
  | length (len : ℕ)
  deriving DecidableEq

/-- What a step does to the packets and the open files. -/
inductive Effect
  | attached (file : ℕ)
  | transmitted (id : ℕ)
  | queued (id : ℕ)
  | taken (file id : ℕ)
  | freed (id : ℕ) (how : FreedBy)
  | returned (file id : ℕ) (result : ReadResult)
  deriving DecidableEq

def Sys.setTask (s : Sys) (t : ℕ) (k : Task) : Sys := { s with task := Function.update s.task t k }

/-! ## The sections -/

/-- `camex_net_xmit` up to its unlock; `alloc`: there is memory for the node. -/
def camexNetXmit (s : Sys) (t len : ℕ) (alloc : Bool) : Sys × List Effect :=
  let skb : Skb := ⟨s.sent, len⟩
  let s := { s with sent := s.sent + 1 }
  if !s.priv.attached || decide (QUEUE_LIMIT ≤ s.priv.rxCount) then
    (s.setTask t (.dropping skb), [.transmitted skb.id])
  else if !alloc then (s.setTask t (.dropping skb), [.transmitted skb.id])
  else
    ({ s with priv := { s.priv with rxQueue := s.priv.rxQueue ++ [skb], rxCount := s.priv.rxCount + 1 } },
      [.transmitted skb.id, .queued skb.id])

/-- The end of a transmit that drops its packet. -/
def xmitDrop (s : Sys) (t : ℕ) (skb : Skb) : Sys × List Effect := (s.setTask t .idle, [.freed skb.id .drop])

/-- `camex_chr_open`; `capable`: the caller is a network admin. -/
def camexChrOpen (s : Sys) (capable : Bool) : Sys × List Effect :=
  if !capable then (s, [])
  else if s.priv.attached then (s, [])
  else
    ({ s with priv := { s.priv with attached := true }, files := s.opens :: s.files, opens := s.opens + 1 },
      [.attached s.opens])

def camexChrRelease (s : Sys) (file : ℕ) : Sys × List Effect :=
  ({ s with priv := ⟨[], 0, false⟩, files := s.files.erase file },
    s.priv.rxQueue.map fun skb => .freed skb.id .flush)

/-- The test of `camex_chr_read`; a blocking read sleeps while the queue is empty. -/
def readTest (s : Sys) (t file : ℕ) (nonblock : Bool) (count : ℕ) : Option (Sys × List Effect) :=
  if s.priv.rxQueue = [] then if nonblock then some (s.setTask t .idle, []) else none
  else some (s.setTask t (.ready file count), [])

/-- The section of `camex_chr_read` that takes the first packet. -/
def readTake (s : Sys) (t file count : ℕ) : Sys × List Effect :=
  match s.priv.rxQueue with
  | [] => (s.setTask t .idle, [])
  | skb :: rest =>
    (({ s with priv := { s.priv with rxQueue := rest, rxCount := s.priv.rxCount - 1 } } : Sys).setTask t
      (.holding file count skb), [.taken file skb.id])

/-- `fault`: `copy_to_user` fails. -/
def readResult (count : ℕ) (skb : Skb) (fault : Bool) : ReadResult :=
  if count < skb.len then .msgsize else if fault then .fault else .length skb.len

/-- The end of a read that took a packet: it is freed, whatever the read returns. -/
def readFinish (s : Sys) (t file count : ℕ) (skb : Skb) (fault : Bool) : Sys × List Effect :=
  (s.setTask t .idle, [.freed skb.id .read, .returned file skb.id (readResult count skb fault)])

/-! ## Runs -/

/-- A step of a thread. -/
inductive Event
  | xmit (t len : ℕ) (alloc : Bool)
  | drop (t : ℕ)
  | open (capable : Bool)
  | release (file : ℕ)
  | read (t file : ℕ) (nonblock : Bool) (count : ℕ)
  | test (t : ℕ)
  | signal (t : ℕ)
  | take (t : ℕ)
  | finish (t : ℕ) (fault : Bool)

/-- A step and what it does; `none` when the thread cannot take it. -/
def step (s : Sys) : Event → Option (Sys × List Effect)
  | .xmit t len alloc => if s.task t = .idle then some (camexNetXmit s t len alloc) else none
  | .drop t =>
    match s.task t with
    | .dropping skb => some (xmitDrop s t skb)
    | _ => none
  | .open capable => some (camexChrOpen s capable)
  | .release file => if file ∈ s.files then some (camexChrRelease s file) else none
  | .read t file nonblock count =>
    if s.task t = .idle ∧ file ∈ s.files then some (s.setTask t (.reading file nonblock count), []) else none
  | .test t =>
    match s.task t with
    | .reading file nonblock count => readTest s t file nonblock count
    | _ => none
  | .signal t =>
    match s.task t with
    | .reading _ false _ => some (s.setTask t .idle, [])
    | _ => none
  | .take t =>
    match s.task t with
    | .ready file count => some (readTake s t file count)
    | _ => none
  | .finish t fault =>
    match s.task t with
    | .holding file count skb => some (readFinish s t file count skb fault)
    | _ => none

def Sys.start : Sys := ⟨⟨[], 0, false⟩, fun _ => .idle, [], 0, 0⟩

def queueMachine : Machine Sys Event where
  start s := s = .start
  next s e := (step s e).map Prod.fst

def effects : Sys → List Event → List Effect
  | _, [] => []
  | s, e :: es =>
    match step s e with
    | none => []
    | some (t, out) => out ++ effects t es

end Camex.Kernel
