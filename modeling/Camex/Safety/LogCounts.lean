import Mathlib.Algebra.BigOperators.Group.List.Basic
import Mathlib.Data.List.Induction
import Camex.Log

/-!
# The counts of the log

What becomes of the calls of a site: a line of its own, a number in a report, or the counter of the limiter.

* `logLimited_self`, `logLimited_other`, `logLimitTick_reports`: what a step does to these counts;
* `balance_run`: they make up the calls of a run, but for the calls that found the counter full;
* `left_step`: how many messages a window still has; `listed_run`: the sites that a tick knows;
* `logCounts_right`: all of it for every run.
-/

namespace Camex

open Lib

def LogKind.number : LogKind → ℕ
  | .message => 0
  | .report n => n

variable {Site : Type} [DecidableEq Site]

/-- The messages of a site in the log. -/
def writtenOf (site : Site) (lines : List (LogLine Site)) : ℕ :=
  lines.countP fun l => l.site = site ∧ l.kind = .message

/-- What the reports of a site add up to. -/
def reportedOf (site : Site) (lines : List (LogLine Site)) : ℕ :=
  (lines.map fun l => if l.site = site then l.kind.number else 0).sum

def callsOf (site : Site) (events : List (LogEvent Site)) : ℕ :=
  events.countP fun
    | .call other _ _ => other = site
    | .tick _ => false

/-- What is written, reported and still counted of a site. -/
def balance (site : Site) (s : LogState Site) : ℕ :=
  writtenOf site s.lines + reportedOf site s.lines + (s.limits site).suppressed

theorem written_append (site : Site) (ls ls' : List (LogLine Site)) :
    writtenOf site (ls ++ ls') = writtenOf site ls + writtenOf site ls' := List.countP_append

theorem reported_append (site : Site) (ls ls' : List (LogLine Site)) :
    reportedOf site (ls ++ ls') = reportedOf site ls + reportedOf site ls' := by
  unfold reportedOf
  rw [List.map_append, List.sum_append]

theorem counts_other {site other : Site} (h : other ≠ site) {ls : List (LogLine Site)}
    (hls : ∀ l ∈ ls, l.site = site) : writtenOf other ls = 0 ∧ reportedOf other ls = 0 := by
  constructor
  · refine List.countP_eq_zero.mpr fun l hl => ?_
    rw [hls l hl]
    simp [h.symm]
  · refine List.sum_eq_zero fun n hn => ?_
    obtain ⟨l, hl, rfl⟩ := List.mem_map.mp hn
    rw [hls l hl, if_neg h.symm]

/-! ## Steps -/

theorem logLimitReport_counts (site : Site) (limit : LogLimit) :
    writtenOf site (logLimitReport site limit).2 = 0 ∧
      reportedOf site (logLimitReport site limit).2 = limit.suppressed ∧
      ∀ l ∈ (logLimitReport site limit).2, l.site = site := by
  unfold logLimitReport
  split
  · refine ⟨by simp [writtenOf, logMessage], by simp [reportedOf, logMessage, LogKind.number], ?_⟩
    simp [logMessage]
  · rename_i h
    exact ⟨rfl, by simp [reportedOf]; omega, by simp⟩

theorem logWindow_counts (site : Site) (limit : LogLimit) (now : Time) :
    writtenOf site (logWindow site limit now).2 = 0 ∧
      reportedOf site (logWindow site limit now).2 + (logWindow site limit now).1.suppressed = limit.suppressed ∧
      ∀ l ∈ (logWindow site limit now).2, l.site = site := by
  obtain ⟨hwritten, hreported, hsite⟩ := logLimitReport_counts site limit
  unfold logWindow
  split
  · exact ⟨hwritten, hreported, hsite⟩
  · exact ⟨rfl, by simp [reportedOf], by simp⟩

omit [DecidableEq Site] in
theorem logWindow_opened (site : Site) (limit : LogLimit) (now : Time) :
    (logWindow site limit now).1.window = now ∧
      (logWindow site limit now).1.count = (if limit.window = now then limit.count else 0) ∧
      (logWindow site limit now).1.suppressed = if limit.window = now then limit.suppressed else 0 := by
  unfold logWindow logLimitReport
  by_cases h : limit.window = now
  · simp [h]
  · simp [h]

theorem logWrite_counts (site : Site) (limit : LogLimit) (call : LogCall) :
    reportedOf site (logWrite site limit call).2 = 0 ∧ (∀ l ∈ (logWrite site limit call).2, l.site = site) ∧
      (logWrite site limit call).1.window = limit.window ∧
      (LOG_LIMIT_BURST ≤ limit.count → writtenOf site (logWrite site limit call).2 = 0 ∧
        (logWrite site limit call).1.count = limit.count ∧
        (logWrite site limit call).1.suppressed = (limit.suppressed + 1) % 2 ^ 32) ∧
      (limit.count < LOG_LIMIT_BURST → writtenOf site (logWrite site limit call).2 = 1 ∧
        (logWrite site limit call).1.count = limit.count + 1 ∧
        (logWrite site limit call).1.suppressed = limit.suppressed) := by
  unfold logWrite
  split
  · rename_i h
    exact ⟨rfl, by simp, rfl, fun _ => ⟨rfl, rfl, rfl⟩, fun h' => absurd h (by omega)⟩
  · rename_i h
    refine ⟨by simp [reportedOf, logMessage, LogKind.number], by simp [logMessage], rfl, fun h' => absurd h' h,
      fun _ => ?_⟩
    exact ⟨by simp [writtenOf, logMessage], rfl, rfl⟩

theorem LogState.list_lines (s : LogState Site) (site : Site) : (s.list site).lines = s.lines := by
  unfold LogState.list
  split <;> rfl

theorem LogState.list_limits (s : LogState Site) (site other : Site) :
    (s.list site).limits other = s.limits other ∨
      (s.list site).limits other = { s.limits other with listed := true } := by
  unfold LogState.list
  split
  · by_cases h : other = site
    · subst h
      exact Or.inr (Function.update_self ..)
    · exact Or.inl (Function.update_of_ne h ..)
  · exact Or.inl rfl

/-- What a call leaves of its site: `count` and `suppressed` are those of the window that it falls into. -/
structure Called (site : Site) (now : Time) (s t : LogState Site) (count suppressed : ℕ) : Prop where
  window : (t.limits site).window = now
  reported : reportedOf site t.lines + suppressed = reportedOf site s.lines + (s.limits site).suppressed
  more : LOG_LIMIT_BURST ≤ count → writtenOf site t.lines = writtenOf site s.lines ∧
    (t.limits site).count = count ∧ (t.limits site).suppressed = (suppressed + 1) % 2 ^ 32
  first : count < LOG_LIMIT_BURST → writtenOf site t.lines = writtenOf site s.lines + 1 ∧
    (t.limits site).count = count + 1 ∧ (t.limits site).suppressed = suppressed

/-- The count of a site in the window of `now`. -/
def LogState.countAt (s : LogState Site) (site : Site) (now : Time) : ℕ :=
  if (s.limits site).window = now then (s.limits site).count else 0

/-- The messages of a site that are suppressed in the window of `now`. -/
def LogState.suppressedAt (s : LogState Site) (site : Site) (now : Time) : ℕ :=
  if (s.limits site).window = now then (s.limits site).suppressed else 0

theorem logLimited_self (s : LogState Site) (site : Site) (now : Time) (call : LogCall) :
    Called site now s (logLimited s site now call) (s.countAt site now) (s.suppressedAt site now) := by
  set l := { (s.list site).limits site with fmt := call.fmt } with hl
  have hsame : l.window = (s.limits site).window ∧ l.count = (s.limits site).count ∧
      l.suppressed = (s.limits site).suppressed := by
    rcases s.list_limits site site with h | h <;> rw [hl, h] <;> exact ⟨rfl, rfl, rfl⟩
  obtain ⟨hwindow, hcount, hsuppressed⟩ := hsame
  obtain ⟨hquiet, hmoved, -⟩ := logWindow_counts site l now
  obtain ⟨hopen, hopenCount, hopenSupp⟩ := logWindow_opened site l now
  obtain ⟨hreport, -, hkeep, hmore, hfirst⟩ := logWrite_counts site (logWindow site l now).1 call
  rw [hwindow, hcount] at hopenCount
  rw [hwindow, hsuppressed] at hopenSupp
  have hlimit : (logLimited s site now call).limits site = (logWrite site (logWindow site l now).1 call).1 := by
    unfold logLimited
    rw [LogState.put_self, LogState.put_self]
  have hlines : (logLimited s site now call).lines =
      s.lines ++ (logWindow site l now).2 ++ (logWrite site (logWindow site l now).1 call).2 := by
    unfold logLimited
    rw [LogState.put_lines, LogState.put_lines, LogState.put_self, LogState.list_lines]
  have hwritten : writtenOf site (logLimited s site now call).lines =
      writtenOf site s.lines + writtenOf site (logWrite site (logWindow site l now).1 call).2 := by
    rw [hlines, written_append, written_append, hquiet, Nat.add_zero]
  unfold LogState.countAt LogState.suppressedAt
  rw [← hopenCount, ← hopenSupp]
  refine ⟨by rw [hlimit, hkeep, hopen], ?_, fun h => ?_, fun h => ?_⟩
  · rw [hlines, reported_append, reported_append, hreport, Nat.add_zero, Nat.add_assoc, hmoved, hsuppressed]
  · obtain ⟨hw, hc, hs⟩ := hmore h
    rw [hwritten, hlimit, hw, hc, hs]
    exact ⟨rfl, rfl, rfl⟩
  · obtain ⟨hw, hc, hs⟩ := hfirst h
    rw [hwritten, hlimit, hw, hc, hs]
    exact ⟨rfl, rfl, rfl⟩

theorem logLimited_other (s : LogState Site) {site other : Site} (h : other ≠ site) (now : Time) (call : LogCall) :
    (logLimited s site now call).limits other = s.limits other ∧
      writtenOf other (logLimited s site now call).lines = writtenOf other s.lines ∧
      reportedOf other (logLimited s site now call).lines = reportedOf other s.lines := by
  have hlist : (s.list site).limits other = s.limits other := by
    unfold LogState.list
    split
    · exact Function.update_of_ne h ..
    · rfl
  unfold logLimited
  obtain ⟨-, -, hwindow⟩ := logWindow_counts site { (s.list site).limits site with fmt := call.fmt } now
  dsimp only
  rw [LogState.put_self]
  obtain ⟨-, hwrite, -⟩ := logWrite_counts site
    (logWindow site { (s.list site).limits site with fmt := call.fmt } now).1 call
  obtain ⟨hw, hr⟩ := counts_other h hwindow
  obtain ⟨hw', hr'⟩ := counts_other h hwrite
  refine ⟨?_, ?_, ?_⟩
  · rw [LogState.put_of_ne _ h, LogState.put_of_ne _ h, hlist]
  · rw [LogState.put_lines, LogState.put_lines, written_append, written_append, hw, hw', LogState.list_lines,
      Nat.add_zero]
  · rw [LogState.put_lines, LogState.put_lines, reported_append, reported_append, hr, hr', LogState.list_lines,
      Nat.add_zero]

/-- What reports do to a site. -/
structure Reported (site : Site) (s t : LogState Site) : Prop where
  window : (t.limits site).window = (s.limits site).window
  count : (t.limits site).count = (s.limits site).count
  suppressed : (t.limits site).suppressed ≤ (s.limits site).suppressed
  written : writtenOf site t.lines = writtenOf site s.lines
  moved : reportedOf site t.lines + (t.limits site).suppressed = reportedOf site s.lines + (s.limits site).suppressed

theorem Reported.refl (site : Site) (s : LogState Site) : Reported site s s := ⟨rfl, rfl, le_refl _, rfl, rfl⟩

theorem Reported.trans {site : Site} {s t u : LogState Site} (h : Reported site s t) (h' : Reported site t u) :
    Reported site s u :=
  ⟨h'.window.trans h.window, h'.count.trans h.count, h'.suppressed.trans h.suppressed, h'.written.trans h.written,
    h'.moved.trans h.moved⟩

theorem tickStep_reported (now : Time) (s : LogState Site) (site other : Site) :
    Reported other s (tickStep now s site) := by
  unfold tickStep
  split
  · obtain ⟨hwritten, hreported, hsite⟩ := logLimitReport_counts site (s.limits site)
    by_cases h : other = site
    · subst h
      constructor
      · rw [LogState.put_self]
        rfl
      · rw [LogState.put_self]
        rfl
      · rw [LogState.put_self]
        exact Nat.zero_le _
      · rw [LogState.put_lines, written_append, hwritten, Nat.add_zero]
      · rw [LogState.put_lines, reported_append, hreported, LogState.put_self]
        rfl
    · obtain ⟨hw, hr⟩ := counts_other h hsite
      constructor
      · rw [LogState.put_of_ne _ h]
      · rw [LogState.put_of_ne _ h]
      · rw [LogState.put_of_ne _ h]
      · rw [LogState.put_lines, written_append, hw, Nat.add_zero]
      · rw [LogState.put_lines, reported_append, hr, LogState.put_of_ne _ h, Nat.add_zero]
  · exact .refl other s

theorem tickLoop_reported (now : Time) (sites : List Site) (s : LogState Site) (site : Site) :
    Reported site s (sites.foldl (tickStep now) s) := by
  induction sites generalizing s with
  | nil => exact .refl site s
  | cons other sites ih => exact (tickStep_reported now s other site).trans (ih _)

theorem tickLoop_reports (now : Time) {sites : List Site} (s : LogState Site) {site : Site} (h : site ∈ sites)
    (hwindow : (s.limits site).window ≠ now) : ((sites.foldl (tickStep now) s).limits site).suppressed = 0 := by
  induction sites generalizing s with
  | nil => cases h
  | cons other sites ih =>
    have hstep := tickStep_reported now s other site
    rw [List.foldl_cons]
    rcases List.mem_cons.mp h with rfl | h
    · have hzero : ((tickStep now s site).limits site).suppressed = 0 := by
        unfold tickStep
        split
        · rw [LogState.put_self]
          rfl
        · rename_i hno
          rw [not_and_or] at hno
          rcases hno with hno | hno
          · omega
          · exact absurd hwindow hno
      have hrest := (tickLoop_reported now sites (tickStep now s site) site).suppressed
      omega
    · exact ih _ h (by rw [hstep.window]; exact hwindow)

theorem logLimitTick_reports (s : LogState Site) (now : Time) {site : Site} (h : site ∈ s.logLimits)
    (hwindow : (s.limits site).window ≠ now) : ((logLimitTick s now).limits site).suppressed = 0 ∧
      reportedOf site (logLimitTick s now).lines = reportedOf site s.lines + (s.limits site).suppressed := by
  have hzero := tickLoop_reports now s h hwindow
  have hmoved := (tickLoop_reported now s.logLimits s site).moved
  refine ⟨hzero, ?_⟩
  rw [hzero, Nat.add_zero] at hmoved
  exact hmoved

/-- A full counter: the next call that is suppressed wraps it. -/
def CounterFull (site : Site) (s : LogState Site) : LogEvent Site → Prop
  | .call other now _ => other = site ∧ (s.limits site).window = now ∧ LOG_LIMIT_BURST ≤ (s.limits site).count ∧
      (s.limits site).suppressed + 1 = 2 ^ 32
  | .tick _ => False

theorem calls_append (site : Site) (events : List (LogEvent Site)) (e : LogEvent Site) :
    callsOf site (events ++ [e]) = callsOf site events + callsOf site [e] := List.countP_append

theorem limitStep_call (s : LogState Site) (site : Site) (now : Time) (call : LogCall) :
    limitStep s (.call site now call) = logLimited s site now call := rfl

theorem limitStep_tick (s : LogState Site) (now : Time) : limitStep s (.tick now) = logLimitTick s now := rfl

theorem balance_step {s : LogState Site} {site : Site} (hs : (s.limits site).suppressed < 2 ^ 32)
    (e : LogEvent Site) :
    (CounterFull site s e → balance site (limitStep s e) + 2 ^ 32 = balance site s + callsOf site [e]) ∧
      (¬ CounterFull site s e → balance site (limitStep s e) = balance site s + callsOf site [e]) ∧
      ((limitStep s e).limits site).suppressed < 2 ^ 32 := by
  cases e with
  | tick now =>
    have h := tickLoop_reported now s.logLimits s site
    refine ⟨False.elim, fun _ => ?_, lt_of_le_of_lt h.suppressed hs⟩
    have hcalls : callsOf site [LogEvent.tick now] = 0 := rfl
    unfold balance
    rw [hcalls, limitStep_tick, logLimitTick, h.written, Nat.add_assoc, h.moved, Nat.add_zero, Nat.add_assoc]
  | call other now call =>
    by_cases hother : other = site
    · subst hother
      have hcalls : callsOf other [LogEvent.call other now call] = 1 := by simp [callsOf]
      have h := logLimited_self s other now call
      have hbound : s.suppressedAt other now < 2 ^ 32 := by
        unfold LogState.suppressedAt
        split
        · exact hs
        · exact Nat.two_pow_pos 32
      have hreported := h.reported
      unfold balance
      rw [hcalls, limitStep_call]
      by_cases hburst : LOG_LIMIT_BURST ≤ s.countAt other now
      · obtain ⟨hw, -, hsupp⟩ := h.more hburst
        have hfull : CounterFull other s (.call other now call) ↔ s.suppressedAt other now + 1 = 2 ^ 32 := by
          unfold CounterFull LogState.suppressedAt
          unfold LogState.countAt at hburst
          by_cases hwindow : (s.limits other).window = now
          · rw [if_pos hwindow] at hburst ⊢
            simp [hwindow, hburst]
          · rw [if_neg hwindow] at hburst
            cases hburst
        rw [hfull, hw, hsupp]
        refine ⟨fun hlast => ?_, fun hlast => ?_, Nat.mod_lt _ (Nat.two_pow_pos 32)⟩
        · rw [hlast, Nat.mod_self]
          omega
        · rw [Nat.mod_eq_of_lt (by omega)]
          omega
      · obtain ⟨hw, -, hsupp⟩ := h.first (Nat.lt_of_not_le hburst)
        have hfull : ¬ CounterFull other s (.call other now call) := by
          rintro ⟨-, hwindow, hcount, -⟩
          apply hburst
          unfold LogState.countAt
          rwa [if_pos hwindow]
        rw [hw, hsupp]
        exact ⟨fun h' => absurd h' hfull, fun _ => by omega, hbound⟩
    · have hcalls : callsOf site [LogEvent.call other now call] = 0 := by simp [callsOf, hother]
      obtain ⟨hlimit, hw, hr⟩ := logLimited_other s (Ne.symm hother) now call
      have hsame : balance site (limitStep s (.call other now call)) = balance site s := by
        unfold balance
        rw [limitStep_call, hlimit, hw, hr]
      refine ⟨fun h => absurd h.1 hother, fun _ => by rw [hsame, hcalls, Nat.add_zero], ?_⟩
      rwa [limitStep_call, hlimit]

/-! ## Runs -/

/-- No call of the site finds its counter full. -/
def NeverFull (site : Site) (events : List (LogEvent Site)) : Prop :=
  ∀ pre e post, events = pre ++ e :: post → ¬ CounterFull site (limitRun pre) e

theorem neverFull_append {site : Site} {events : List (LogEvent Site)} {e : LogEvent Site} :
    NeverFull site (events ++ [e]) ↔ NeverFull site events ∧ ¬ CounterFull site (limitRun events) e := by
  constructor
  · intro h
    refine ⟨fun pre e' post heq => h pre e' (post ++ [e]) ?_, h events e [] rfl⟩
    rw [heq, List.append_assoc, List.cons_append]
  · rintro ⟨hbefore, hlast⟩ pre e' post heq
    rcases List.eq_nil_or_concat post with rfl | ⟨post, e'', rfl⟩
    · obtain ⟨rfl, he⟩ := List.append_inj' heq rfl
      cases he
      exact hlast
    · rw [List.concat_eq_append, ← List.cons_append, ← List.append_assoc] at heq
      exact hbefore pre e' post (List.append_inj' heq rfl).1

/-- What is not accounted for are the counters that wrapped. -/
theorem balance_run (site : Site) (events : List (LogEvent Site)) :
    balance site (limitRun events) ≤ callsOf site events ∧
      balance site (limitRun events) % 2 ^ 32 = callsOf site events % 2 ^ 32 ∧
      (balance site (limitRun events) = callsOf site events ↔ NeverFull site events) ∧
      ((limitRun events).limits site).suppressed < 2 ^ 32 := by
  induction events using List.reverseRecOn with
  | nil =>
    refine ⟨le_refl _, rfl, ⟨fun _ pre e post h => ?_, fun _ => rfl⟩, Nat.two_pow_pos 32⟩
    cases pre <;> cases h
  | append_singleton events e ih =>
    obtain ⟨hle, hmod, hiff, hbound⟩ := ih
    obtain ⟨hfull, hroom, hnext⟩ := balance_step hbound e
    rw [limitRun_append, calls_append, neverFull_append, ← hiff]
    refine ⟨?_, ?_, ?_, hnext⟩
    · by_cases h : CounterFull site (limitRun events) e
      · have := hfull h
        omega
      · have := hroom h
        omega
    · by_cases h : CounterFull site (limitRun events) e
      · have := hfull h
        omega
      · have := hroom h
        omega
    · by_cases h : CounterFull site (limitRun events) e
      · have := hfull h
        exact ⟨fun heq => by omega, fun h' => absurd h h'.2⟩
      · have := hroom h
        exact ⟨fun heq => ⟨by omega, h⟩, fun h' => by omega⟩

def LogState.left (s : LogState Site) (site : Site) (now : Time) : ℕ := LOG_LIMIT_BURST - s.countAt site now

theorem left_step (s : LogState Site) (site : Site) {now : Time} {e : LogEvent Site} (he : e.now = now) :
    writtenOf site (limitStep s e).lines + (limitStep s e).left site now ≤ writtenOf site s.lines + s.left site now := by
  subst he
  cases e with
  | tick now =>
    have h := tickLoop_reported now s.logLimits s site
    unfold LogState.left LogState.countAt
    rw [limitStep_tick, logLimitTick, h.written, h.window, h.count, LogEvent.now]
  | call other now call =>
    rw [limitStep_call, LogEvent.now]
    by_cases hother : other = site
    · subst hother
      have h := logLimited_self s other now call
      have hcount : (logLimited s other now call).countAt other now =
          ((logLimited s other now call).limits other).count := if_pos h.window
      unfold LogState.left
      rw [hcount]
      by_cases hburst : LOG_LIMIT_BURST ≤ s.countAt other now
      · obtain ⟨hw, hc, -⟩ := h.more hburst
        rw [hw, hc]
      · obtain ⟨hw, hc, -⟩ := h.first (Nat.lt_of_not_le hburst)
        rw [hw, hc]
        omega
    · obtain ⟨hlimit, hw, -⟩ := logLimited_other s (Ne.symm hother) now call
      unfold LogState.left LogState.countAt
      rw [hlimit, hw]

theorem left_run (site : Site) {now : Time} (events block : List (LogEvent Site)) (h : ∀ e ∈ block, e.now = now) :
    writtenOf site (limitRun (events ++ block)).lines + (limitRun (events ++ block)).left site now ≤
      writtenOf site (limitRun events).lines + (limitRun events).left site now := by
  induction block using List.reverseRecOn with
  | nil => rw [List.append_nil]
  | append_singleton block e ih =>
    rw [← List.append_assoc, limitRun_append]
    have hstep := left_step (limitRun (events ++ block)) site (h e (List.mem_append_right _ List.mem_cons_self))
    exact hstep.trans (ih fun e he => h e (List.mem_append_left _ he))

/-! ## The list of the tick -/

/-- The flag of a limiter says whether the tick knows it. -/
def FlagsRight (s : LogState Site) : Prop := ∀ site, (s.limits site).listed = true ↔ site ∈ s.logLimits

theorem LogState.list_flags {s : LogState Site} (h : FlagsRight s) (site : Site) :
    FlagsRight (s.list site) ∧ s.logLimits ⊆ (s.list site).logLimits ∧
      s.logLimits.length ≤ (s.list site).logLimits.length ∧
      (site ∈ (s.list site).logLimits ∨ LOG_LIMITS_MAX ≤ (s.list site).logLimits.length) := by
  unfold LogState.list
  split
  · refine ⟨fun other => ?_, List.subset_append_left _ _, by simp, Or.inl (by simp)⟩
    rw [List.mem_append, List.mem_singleton, ← h other]
    by_cases hother : other = site
    · subst hother
      simp
    · dsimp only
      rw [Function.update_of_ne hother]
      simp [hother]
  · rename_i hno
    refine ⟨h, List.Subset.refl _, le_refl _, ?_⟩
    rw [not_and_or] at hno
    rcases hno with hno | hno
    · exact Or.inl ((h site).mp (by simpa using hno))
    · exact Or.inr (Nat.le_of_not_lt hno)

omit [DecidableEq Site] in
theorem logWindow_listed (site : Site) (limit : LogLimit) (now : Time) :
    (logWindow site limit now).1.listed = limit.listed := by
  unfold logWindow logLimitReport
  split <;> rfl

omit [DecidableEq Site] in
theorem logWrite_listed (site : Site) (limit : LogLimit) (call : LogCall) :
    (logWrite site limit call).1.listed = limit.listed := by
  unfold logWrite
  split <;> rfl

theorem FlagsRight.put {s : LogState Site} (h : FlagsRight s) (site : Site) {r : LogLimit × List (LogLine Site)}
    (hr : r.1.listed = (s.limits site).listed) : FlagsRight (s.put site r) := by
  intro other
  by_cases hother : other = site
  · subst hother
    rw [LogState.put_self, hr]
    exact h other
  · rw [LogState.put_of_ne _ hother]
    exact h other

/-- A step lists the site that it is a call of, and strikes none off. -/
theorem listed_step {s : LogState Site} (h : FlagsRight s) (e : LogEvent Site) :
    FlagsRight (limitStep s e) ∧ s.logLimits ⊆ (limitStep s e).logLimits ∧
      s.logLimits.length ≤ (limitStep s e).logLimits.length ∧
      ∀ site, 0 < callsOf site [e] →
        site ∈ (limitStep s e).logLimits ∨ LOG_LIMITS_MAX ≤ (limitStep s e).logLimits.length := by
  cases e with
  | call site now call =>
    obtain ⟨hflags, hsub, hlen, hnew⟩ := LogState.list_flags h site
    refine ⟨?_, hsub, hlen, fun other hcalls => ?_⟩
    · refine (hflags.put site ?_).put site ?_
      · rw [logWindow_listed]
      · rw [logWrite_listed]
    · have heq : site = other := by
        by_contra hne
        simp [callsOf, hne] at hcalls
      subst heq
      exact hnew
  | tick now =>
    have hloop : ∀ (sites : List Site) (t : LogState Site), FlagsRight t →
        FlagsRight (sites.foldl (tickStep now) t) ∧ (sites.foldl (tickStep now) t).logLimits = t.logLimits := by
      intro sites
      induction sites with
      | nil => exact fun t ht => ⟨ht, rfl⟩
      | cons site sites ih =>
        intro t ht
        have hstep : FlagsRight (tickStep now t site) ∧ (tickStep now t site).logLimits = t.logLimits := by
          unfold tickStep
          split
          · exact ⟨ht.put site rfl, rfl⟩
          · exact ⟨ht, rfl⟩
        obtain ⟨hrest, hsame⟩ := ih (tickStep now t site) hstep.1
        exact ⟨hrest, hsame.trans hstep.2⟩
    obtain ⟨hflags, hsame⟩ := hloop s.logLimits s h
    refine ⟨hflags, ?_, ?_, fun site hcalls => absurd hcalls (by simp [callsOf])⟩
    · change s.logLimits ⊆ (s.logLimits.foldl (tickStep now) s).logLimits
      rw [hsame]
      exact List.Subset.refl _
    · change _ ≤ (s.logLimits.foldl (tickStep now) s).logLimits.length
      rw [hsame]

/-- The tick knows the sites that were called, unless its list is full. -/
theorem listed_run (events : List (LogEvent Site)) : FlagsRight (limitRun events) ∧ ∀ site, 0 < callsOf site events →
    site ∈ (limitRun events).logLimits ∨ LOG_LIMITS_MAX ≤ (limitRun events).logLimits.length := by
  induction events using List.reverseRecOn with
  | nil =>
    exact ⟨fun site => by simp [limitRun, LogState.start, LogLimit.zero], fun site h => absurd h (by simp [callsOf])⟩
  | append_singleton events e ih =>
    obtain ⟨hflags, hcalled⟩ := ih
    obtain ⟨hnext, hsub, hlen, hnew⟩ := listed_step hflags e
    rw [limitRun_append]
    refine ⟨hnext, fun site hcalls => ?_⟩
    rw [calls_append] at hcalls
    rcases Nat.eq_zero_or_pos (callsOf site [e]) with hzero | hpos
    · rcases hcalled site (by omega) with hmem | hfull
      · exact Or.inl (hsub hmem)
      · exact Or.inr (hfull.trans hlen)
    · exact hnew site hpos

/-! ## The counts -/

/-- The log of a run counts a site right. -/
structure LogCountsRight (site : Site) (events : List (LogEvent Site)) : Prop where
  conserved : writtenOf site (limitRun events).lines + reportedOf site (limitRun events).lines +
    ((limitRun events).limits site).suppressed = callsOf site events ↔ NeverFull site events
  wrapped : (writtenOf site (limitRun events).lines + reportedOf site (limitRun events).lines +
    ((limitRun events).limits site).suppressed) % 2 ^ 32 = callsOf site events % 2 ^ 32
  burst : ∀ (now : Time) (block : List (LogEvent Site)), (∀ e ∈ block, e.now = now) →
    writtenOf site (limitRun (events ++ block)).lines ≤ writtenOf site (limitRun events).lines + LOG_LIMIT_BURST
  ticked : ∀ now, site ∈ (limitRun events).logLimits → ((limitRun events).limits site).window ≠ now →
    ((limitRun (events ++ [.tick now])).limits site).suppressed = 0 ∧
      reportedOf site (limitRun (events ++ [.tick now])).lines =
        reportedOf site (limitRun events).lines + ((limitRun events).limits site).suppressed
  listed : 0 < callsOf site events →
    site ∈ (limitRun events).logLimits ∨ LOG_LIMITS_MAX ≤ (limitRun events).logLimits.length

/-- **The log counts every call** of a site whose counter is never full. -/
theorem logCounts_right (site : Site) (events : List (LogEvent Site)) : LogCountsRight site events := by
  obtain ⟨-, hmod, hiff, -⟩ := balance_run site events
  refine ⟨hiff, hmod, fun now block hblock => ?_, fun now hmem hwindow => ?_, (listed_run events).2 site⟩
  · have hleft := left_run site events block hblock
    have hroom : (limitRun events).left site now ≤ LOG_LIMIT_BURST := Nat.sub_le _ _
    omega
  · rw [limitRun_append]
    exact logLimitTick_reports _ now hmem hwindow

/-- A site that is called again and again in one second. -/
def flood (k : ℕ) : List (LogEvent Unit) := List.replicate k (.call () 1 ⟨4, ascii "dropped", ascii "dropped"⟩)

theorem flood_counts (k : ℕ) : ((limitRun (flood (LOG_LIMIT_BURST + k))).limits ()).window = 1 ∧
    ((limitRun (flood (LOG_LIMIT_BURST + k))).limits ()).count = LOG_LIMIT_BURST ∧
    ((limitRun (flood (LOG_LIMIT_BURST + k))).limits ()).suppressed = k % 2 ^ 32 ∧
    writtenOf () (limitRun (flood (LOG_LIMIT_BURST + k))).lines = LOG_LIMIT_BURST ∧
    reportedOf () (limitRun (flood (LOG_LIMIT_BURST + k))).lines = 0 := by
  induction k with
  | zero => decide +kernel
  | succ k ih =>
    obtain ⟨hwindow, hcount, hsupp, hwritten, hreported⟩ := ih
    have hnext : flood (LOG_LIMIT_BURST + (k + 1)) =
        flood (LOG_LIMIT_BURST + k) ++ [.call () 1 ⟨4, ascii "dropped", ascii "dropped"⟩] := List.replicate_succ'
    have hstep := logLimited_self (limitRun (flood (LOG_LIMIT_BURST + k))) () 1 ⟨4, ascii "dropped", ascii "dropped"⟩
    unfold LogState.countAt LogState.suppressedAt at hstep
    rw [if_pos hwindow, if_pos hwindow, hcount, hsupp] at hstep
    obtain ⟨hw, hc, hs⟩ := hstep.more (le_refl _)
    have hr := hstep.reported
    rw [hreported, hsupp] at hr
    rw [hnext, limitRun_append]
    refine ⟨hstep.window, hc, hs.trans ?_, hw.trans hwritten, Nat.add_right_cancel hr⟩
    rw [Nat.mod_add_mod]

/-- The counter comes back to zero, and no line says so. -/
theorem not_logCounts : ¬ ∀ events : List (LogEvent Unit), writtenOf () (limitRun events).lines +
    reportedOf () (limitRun events).lines + ((limitRun events).limits ()).suppressed = callsOf () events := by
  intro h
  obtain ⟨-, -, hsupp, hwritten, hreported⟩ := flood_counts (2 ^ 32)
  have hcalls : ∀ k, callsOf () (flood k) = k := by
    intro k
    unfold callsOf flood
    rw [List.countP_replicate]
    rfl
  have hsum := h (flood (LOG_LIMIT_BURST + 2 ^ 32))
  rw [hsupp, hwritten, hreported, hcalls] at hsum
  omega

end Camex
