import NetServer.Log.Bookkeeping

/-!
# The clock of the log

On Windows the clock of the system has 32 bits and starts again from zero behind 49 days.
`GetBootTickCount` keeps its last reading and counts how often it has started again. As long as it
is called more often than that happens, what it returns is the true time (`bootTick_holds`), and
`CleanFile_` cleans as it would with a clock that never starts again (`getBootTickCount_true`).
-/

namespace NetServer

open Lib

/-! ## `GetBootTickCount` -/

/-- The static variables of `LogData::GetBootTickCount`. -/
structure BootTicks where
  lastTickCount : BitVec 32
  cycles : BitVec 32
  deriving DecidableEq, Repr

/-- A clock that is read modulo some number has started again between two readings, if they are
closer than that number, exactly when the second one is smaller. -/
theorem div_of_readings {modulus time next : Nat} (ordered : time ≤ next)
    (close : next < time + modulus) :
    next / modulus = if next % modulus < time % modulus then
      time / modulus + 1 else time / modulus := by
  have positive : 0 < modulus := by omega
  have before := Nat.div_add_mod time modulus
  have behind := Nat.div_add_mod next modulus
  have least : time / modulus ≤ next / modulus := Nat.div_le_div_right ordered
  have most : next / modulus ≤ time / modulus + 1 := by
    rw [← Nat.add_div_right time positive]
    exact Nat.div_le_div_right close.le
  obtain same | more : next / modulus = time / modulus ∨ next / modulus = time / modulus + 1 := by
    omega
  · rw [same] at behind ⊢
    rw [if_neg (by omega)]
  · rw [more, Nat.mul_succ] at behind
    rw [more, if_pos (by omega)]

/-- Two words next to each other. -/
theorem toNat_join (low high : BitVec 32) :
    (low.setWidth 64 ||| high.setWidth 64 <<< 32).toNat = high.toNat * 2 ^ 32 + low.toNat := by
  have shifted : high.toNat * 2 ^ 32 < 2 ^ 64 := by
    have small := high.isLt
    omega
  rw [BitVec.toNat_or, BitVec.toNat_shiftLeft, BitVec.toNat_setWidth_of_le (by decide),
    BitVec.toNat_setWidth_of_le (by decide), Nat.shiftLeft_eq, Nat.mod_eq_of_lt shifted,
    ← Nat.shiftLeft_eq,
    Nat.or_comm, Nat.shiftLeft_add_eq_or_of_lt low.isLt]

namespace BootTicks

/-- How the static variables start. -/
def new : BootTicks := ⟨0, 0⟩

/-- `LogData::GetBootTickCount` in the branch for Windows, when `GetTickCount` returns
`curTickCount`. -/
def getBootTickCount (ticks : BootTicks) (curTickCount : BitVec 32) : Int × BootTicks :=
  let cycles := if ticks.lastTickCount > curTickCount then ticks.cycles + 1 else ticks.cycles
  let ret := curTickCount.setWidth 64 ||| cycles.setWidth 64 <<< 32
  (ret.toInt, ⟨curTickCount, cycles⟩)

/-- The static variables hold a time. -/
structure Holds (ticks : BootTicks) (time : Nat) : Prop where
  last : ticks.lastTickCount.toNat = time % 2 ^ 32
  cycles : ticks.cycles.toNat = time / 2 ^ 32

/-- At the start the static variables hold the time 0. -/
theorem holds_new : new.Holds 0 := ⟨rfl, rfl⟩

/-- A call behind less than a round of the clock returns the time, and keeps it. -/
theorem Holds.call {ticks : BootTicks} {time next : Nat} (holds : ticks.Holds time)
    (ordered : time ≤ next) (close : next < time + 2 ^ 32) (small : next < 2 ^ 63) :
    (ticks.getBootTickCount (BitVec.ofNat 32 next)).1 = next ∧
      (ticks.getBootTickCount (BitVec.ofNat 32 next)).2.Holds next := by
  have reading : (BitVec.ofNat 32 next).toNat = next % 2 ^ 32 := BitVec.toNat_ofNat next 32
  have rounds : (if ticks.lastTickCount > BitVec.ofNat 32 next then
    ticks.cycles + 1 else ticks.cycles).toNat =
      next / 2 ^ 32 := by
    rw [div_of_readings ordered close, ← reading, ← holds.last, ← holds.cycles]
    by_cases again : ticks.lastTickCount > BitVec.ofNat 32 next
    · have one : (1 : BitVec 32).toNat = 1 := rfl
      rw [if_pos again, if_pos (BitVec.lt_def.mp again), BitVec.toNat_add, holds.cycles, one]
      exact Nat.mod_eq_of_lt (by omega)
    · rw [if_neg again, if_neg fun less => again (BitVec.lt_def.mpr less)]
  refine ⟨?_, reading, rounds⟩
  unfold getBootTickCount
  simp only
  have value :=
    (toNat_join (BitVec.ofNat 32 next) _).trans (congrArg₂ (· * 2 ^ 32 + ·) rounds reading)
  rw [BitVec.toInt_eq_toNat_of_lt (by rw [value]; omega), value]
  omega

end BootTicks

/-! ## Sequences of calls -/

/-- Times in milliseconds since the start of the system, of calls that follow each other in less
than a round of the clock. -/
structure CallTimes (t : Nat → Nat) : Prop where
  first : t 0 < 2 ^ 32
  ordered : ∀ n, t n ≤ t (n + 1)
  close : ∀ n, t (n + 1) < t n + 2 ^ 32

/-- The static variables behind some calls at the times of a sequence. -/
def ticksAfter (t : Nat → Nat) : Nat → BootTicks
  | 0 => .new
  | n + 1 => ((ticksAfter t n).getBootTickCount (BitVec.ofNat 32 (t n))).2

/-- What a call of a sequence returns. -/
def bootTick (t : Nat → Nat) (n : Nat) : Int :=
  ((ticksAfter t n).getBootTickCount (BitVec.ofNat 32 (t n))).1

section

variable {t : Nat → Nat}

/-- A call returns its time, and the static variables hold it behind the call. -/
theorem bootTick_holds (times : CallTimes t) {n : Nat} (small : t n < 2 ^ 63) :
    bootTick t n = t n ∧ (ticksAfter t (n + 1)).Holds (t n) := by
  induction n with
  | zero =>
    have close : t 0 < 0 + 2 ^ 32 := by
      rw [Nat.zero_add]
      exact times.first
    exact BootTicks.holds_new.call (Nat.zero_le _) close small
  | succ n ih =>
    have earlier := ih ((times.ordered n).trans_lt small)
    exact earlier.2.call (times.ordered n) (times.close n) small

/-- Later calls return later times. -/
theorem CallTimes.monotone (times : CallTimes t) : Monotone t :=
  monotone_nat_of_le_succ times.ordered

end

/-! ## When the log is cleaned -/

namespace LogData

variable {log next : LogData}

/-- `CleanFile_` notes its time if a minute has passed. -/
theorem cleanFile_lCleanTick {event : LogEvent} (ran : log.cleanFile event = .ok next) :
    next.lCleanTick = if event.ltNow - log.lCleanTick > 60000 then
      event.ltNow else log.lCleanTick := by
  unfold cleanFile at ran
  split_ifs at ran ⊢
  · obtain ⟨⟨iFileCount, rest⟩, -, ran⟩ := bind_eq_ok.mp ran
    cases ran
    rfl
  · cases ran
    rfl

/-- So does a call of `WriteLog`. -/
theorem step_lCleanTick {localtime : Int → Tm} {start : LogData} {event : LogEvent}
    {answer : LogAnswer} (taken : (logMachine localtime start).Steps log event answer next) :
    next.lCleanTick = if event.ltNow - log.lCleanTick > 60000 then
      event.ltNow else log.lCleanTick := by
  obtain ⟨cleaned, switched, log', isCleaned, isSwitched, -, iLogSize, rfl⟩ := step_ok taken
  rw [← cleanFile_lCleanTick isCleaned]
  rcases switchNewFile_ok isSwitched with ⟨rfl | rfl, -⟩ | ⟨-, rfl⟩
  · rfl
  · obtain ⟨fileFD, closed⟩ := closeFile_eq cleaned
    rw [closed]
  · rfl

end LogData

/-- The time of the last of some calls that came more than a minute behind the one like it before,
by the true clock. -/
def lastCleaning (t : Nat → Nat) : Nat → Nat
  | 0 => 0
  | n + 1 => if lastCleaning t n + 60000 < t n then t n else lastCleaning t n

/-- Calls at true times note the time of the last cleaning. The induction is on the run, which
starts with the call that has the number `n`. -/
theorem lCleanTick_run {t : Nat → Nat} {localtime : Int → Tm} {start log last : LogData}
    {trace : List (LogEvent × LogAnswer)} (ran : (logMachine localtime start).Run log trace last)
    {n : Nat}
    (reads : trace.map (fun step => step.1.ltNow) = (List.range' n trace.length).map fun call =>
      (t call : Int)) (noted : log.lCleanTick = lastCleaning t n) :
    last.lCleanTick = lastCleaning t (n + trace.length) := by
  induction ran generalizing n with
  | nil => exact noted
  | cons first rest ih =>
    rw [List.length_cons, List.range'_succ, List.map_cons, List.map_cons] at reads
    obtain ⟨read, reads⟩ := List.cons.inj reads
    rw [List.length_cons, Nat.add_comm _ 1, ← Nat.add_assoc]
    apply ih reads
    rw [LogData.step_lCleanTick first, show _ = (t n : Int) from read, noted, lastCleaning]
    split_ifs <;> omega

/-- For every sequence of times of calls, the first one before the clock starts again and the others
less than a round of it behind each other: every call of `GetBootTickCount` returns its time, while
that is an `INT64`. So the ticks are monotone, and in every run of calls of `WriteLog` the test of
`CleanFile_` tells whether more than a minute has passed since the last cleaning. -/
theorem getBootTickCount_true {t : Nat → Nat} (times : CallTimes t) :
    (∀ n, t n < 2 ^ 63 → bootTick t n = t n) ∧
      (∀ m n, m ≤ n → t n < 2 ^ 63 → bootTick t m ≤ bootTick t n) ∧
      ∀ (localtime : Int → Tm) (start last : LogData) (trace : List (LogEvent × LogAnswer)),
        start.lCleanTick = 0 → (logMachine localtime start).Run start trace last →
        trace.map (fun step => step.1.ltNow) = (List.range trace.length).map (bootTick t) →
        t trace.length < 2 ^ 63 →
        (bootTick t trace.length - last.lCleanTick > 60000 ↔
          lastCleaning t trace.length + 60000 < t trace.length) := by
  have small {m n : Nat} (earlier : m ≤ n) (isSmall : t n < 2 ^ 63) : t m < 2 ^ 63 :=
    (times.monotone earlier).trans_lt isSmall
  refine ⟨fun n isSmall => (bootTick_holds times isSmall).1, ?_, ?_⟩
  · intro m n earlier isSmall
    rw [(bootTick_holds times (small earlier isSmall)).1, (bootTick_holds times isSmall).1]
    exact Int.ofNat_le.mpr (times.monotone earlier)
  · intro localtime start last trace new ran reads isSmall
    have trueTimes : (List.range trace.length).map (bootTick t) =
        (List.range' 0 trace.length).map fun call => (t call : Int) := by
      rw [← List.range_eq_range']
      apply List.map_congr_left
      intro call listed
      exact (bootTick_holds times (small (List.mem_range.mp listed).le isSmall)).1
    have noted := lCleanTick_run ran (reads.trans trueTimes) new
    rw [Nat.zero_add] at noted
    rw [(bootTick_holds times isSmall).1, noted]
    omega

/-- Two calls with the start of a round between them, more than a minute apart. -/
def aroundWrap (n : Nat) : Nat := 2 ^ 32 - 1000 + 70000 * n

/-- The calls are less than a round apart. -/
theorem callTimes_aroundWrap : CallTimes aroundWrap where
  first := by decide
  ordered n := by
    unfold aroundWrap
    omega
  close n := by
    unfold aroundWrap
    omega

/-- The second call cleans again. -/
theorem getBootTickCount_true_wrap :
    CallTimes aroundWrap ∧ bootTick aroundWrap 1 = 4295036296 ∧
      bootTick aroundWrap 0 ≤ bootTick aroundWrap 1 ∧
      ∃ trace last, (logMachine dayClock startedLog).Run startedLog trace last ∧
        trace.map Prod.fst = [⟨100, 4294966296, 0, [], 0, true⟩] ∧
        bootTick aroundWrap 1 - last.lCleanTick > 60000 := by
  have exact := getBootTickCount_true callTimes_aroundWrap
  obtain ⟨trace, last, ran, events, -⟩ := Machine.run_of_exec_any (fun _ : LogData => true)
    (show ((logMachine dayClock startedLog).exec startedLog [⟨100, 4294966296, 0, [], 0, true⟩]).any
        _ = true by
      decide +kernel)
  have length : trace.length = 1 := by
    rw [← List.length_map Prod.fst, events]
    rfl
  have reads : trace.map (fun step => step.1.ltNow) =
      (List.range trace.length).map (bootTick aroundWrap) := by
    rw [show (fun step : LogEvent × LogAnswer => step.1.ltNow) =
      (fun event => event.ltNow) ∘ Prod.fst from rfl, ← List.map_map, events, length]
    decide
  have due := exact.2.2 dayClock startedLog last trace rfl ran reads (by rw [length]; decide)
  rw [length] at due
  exact ⟨callTimes_aroundWrap, exact.1 1 (by decide), exact.2.1 0 1 (by decide) (by decide), trace,
    last, ran, events, due.mpr (by decide)⟩

end NetServer
