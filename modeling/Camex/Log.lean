import Mathlib.Logic.Function.Basic
import Camex.Util

/-!
# The log (`log.c`)

A call site writes `LOG_LIMIT_BURST` messages a second. The others are counted; a report says how many they were, with
the first message of another second or from `logLimitTick`.

* `logLimited`, `logLimitTick`: what they do to the limiters, and the lines that they write;
* `limitRun`: the calls and ticks of a run in their order.
-/

namespace Camex

open Lib

def LOG_LIMIT_BURST : ℕ := 5

def LOG_LIMITS_MAX : ℕ := 64

/-- `log_limit_t`; `suppressed` is an `unsigned int`. -/
structure LogLimit where
  window : Time
  count : ℕ
  suppressed : ℕ
  suppressedPriority : ℤ
  fmt : CStr
  listed : Bool
  deriving DecidableEq

def LogLimit.zero : LogLimit := ⟨0, 0, 0, 0, [], false⟩

/-- What a line is: a message of a call site, or the report of some that were suppressed. -/
inductive LogKind
  | message
  | report (suppressed : ℕ)
  deriving DecidableEq

/-- A line of the log, behind `log_message`. -/
structure LogLine (Site : Type) where
  site : Site
  kind : LogKind
  priority : ℤ
  text : CStr
  deriving DecidableEq

/-- What a call passes: `text` is what its format and arguments make. -/
structure LogCall where
  priority : ℤ
  fmt : CStr
  text : CStr

variable {Site : Type}

def logMessage (site : Site) (kind : LogKind) (priority : ℤ) (text : CStr) : LogLine Site :=
  ⟨site, kind, priority, store 512 text⟩

def logLimitReport (site : Site) (limit : LogLimit) : LogLimit × List (LogLine Site) :=
  ({ limit with suppressed := 0 },
    if 0 < limit.suppressed then
      [logMessage site (.report limit.suppressed) limit.suppressedPriority
        (ascii "(" ++ natText limit.suppressed ++ ascii " more \"" ++ limit.fmt.take 60 ++
          ascii "\" messages suppressed)")]
    else [])

/-- A call in the window that it begins, or that is open. -/
def logWindow (site : Site) (limit : LogLimit) (now : Time) : LogLimit × List (LogLine Site) :=
  if limit.window ≠ now then
    ({ (logLimitReport site limit).1 with window := now, count := 0 }, (logLimitReport site limit).2)
  else (limit, [])

/-- The message of a call: written, or counted. -/
def logWrite (site : Site) (limit : LogLimit) (call : LogCall) : LogLimit × List (LogLine Site) :=
  if LOG_LIMIT_BURST ≤ limit.count then
    ({ limit with
        suppressed := (limit.suppressed + 1) % 2 ^ 32
        suppressedPriority :=
          if limit.suppressed = 0 ∨ call.priority < limit.suppressedPriority then call.priority
          else limit.suppressedPriority }, [])
  else ({ limit with count := limit.count + 1 }, [logMessage site .message call.priority (store 512 call.text)])

/-- The limiters, those that `log_limit_tick` knows, and the log. -/
structure LogState (Site : Type) where
  limits : Site → LogLimit
  logLimits : List Site
  lines : List (LogLine Site)

def LogState.start : LogState Site := ⟨fun _ => .zero, [], []⟩

variable [DecidableEq Site]

/-- A limiter is written back, with the lines that came with it. -/
def LogState.put (s : LogState Site) (site : Site) (r : LogLimit × List (LogLine Site)) : LogState Site :=
  { s with limits := Function.update s.limits site r.1, lines := s.lines ++ r.2 }

/-- The site enters the list of `log_limit_tick` while there is room. -/
def LogState.list (s : LogState Site) (site : Site) : LogState Site :=
  if !(s.limits site).listed ∧ s.logLimits.length < LOG_LIMITS_MAX then
    { s with
      limits := Function.update s.limits site { s.limits site with listed := true }
      logLimits := s.logLimits ++ [site] }
  else s

def logLimited (s : LogState Site) (site : Site) (now : Time) (call : LogCall) : LogState Site :=
  let s := s.list site
  let s := s.put site (logWindow site { s.limits site with fmt := call.fmt } now)
  s.put site (logWrite site (s.limits site) call)

/-- One turn of the loop of `log_limit_tick`. -/
def tickStep (now : Time) (s : LogState Site) (site : Site) : LogState Site :=
  if 0 < (s.limits site).suppressed ∧ (s.limits site).window ≠ now then
    s.put site (logLimitReport site (s.limits site))
  else s

def logLimitTick (s : LogState Site) (now : Time) : LogState Site := s.logLimits.foldl (tickStep now) s

/-! ## Runs -/

/-- A call, or a tick, with what `time` answers there. -/
inductive LogEvent (Site : Type)
  | call (site : Site) (now : Time) (call : LogCall)
  | tick (now : Time)

def LogEvent.now : LogEvent Site → Time
  | .call _ now _ => now
  | .tick now => now

def limitStep (s : LogState Site) : LogEvent Site → LogState Site
  | .call site now call => logLimited s site now call
  | .tick now => logLimitTick s now

def limitRun (events : List (LogEvent Site)) : LogState Site := events.foldl limitStep .start

theorem limitRun_append (events : List (LogEvent Site)) (e : LogEvent Site) :
    limitRun (events ++ [e]) = limitStep (limitRun events) e := List.foldl_append ..

@[simp] theorem LogState.put_self (s : LogState Site) (site : Site) (r : LogLimit × List (LogLine Site)) :
    (s.put site r).limits site = r.1 := Function.update_self ..

@[simp] theorem LogState.put_of_ne (s : LogState Site) {site other : Site} (h : other ≠ site)
    (r : LogLimit × List (LogLine Site)) : (s.put site r).limits other = s.limits other :=
  Function.update_of_ne h ..

@[simp] theorem LogState.put_lines (s : LogState Site) (site : Site) (r : LogLimit × List (LogLine Site)) :
    (s.put site r).lines = s.lines ++ r.2 := rfl

end Camex
