import NetServer.Log.Rotation

/-!
# The space that is kept free

`CleanFile_` deletes the oldest files until the free space is what `Init` asked for, or only the
smallest number of files is left. `Init` asks for megabytes and multiplies in `int`: from 2048 on
the product is not what was asked for, and space is missing that the pass does not try to restore,
unless the limits on the number of files leave nothing to delete.
-/

namespace NetServer

open Lib

namespace LogData

/-- A log with the settings of an `Init`, and any files. -/
structure Configured (iMinFiles iMaxFiles iReserveMBytes : Int) (log : LogData) : Prop where
  isMin : log.iMinFiles = iMinFiles
  isMax : log.iMaxFiles = iMaxFiles
  reserve : log.iReserveByte = toInt (iReserveMBytes * 1024 * 1024)
  count : log.iFileCount = log.fileList.length

variable {iMinFiles iMaxFiles iReserveMBytes : Int} {log next : LogData}

/-! ## The second loop -/

/-- The size that is read first, and those behind it. -/
theorem sum_take_succ (sizes : List Int) (number : Nat) :
    (sizes.take (number + 1)).sum = sizes.headD 0 + (sizes.tail.take number).sum := by
  cases sizes with
  | nil => simp
  | cons size sizes => rw [List.take_succ_cons, List.sum_cons, List.headD_cons, List.tail_cons]

/-- The loop ends when enough was deleted, or at the smallest number of files. -/
theorem cleanSpace_reaches (nonneg : 0 ≤ iMinFiles) (lNeedClean : Int) (fileList : List Bytes)
    (sizes : List Int) :
    ∃ rest, cleanSpace iMinFiles lNeedClean fileList.length fileList sizes =
      ((rest.length : Int), rest) ∧
      rest.length ≤ fileList.length ∧
      (lNeedClean ≤ (sizes.take (fileList.length - rest.length)).sum ∨
        (rest.length : Int) ≤ iMinFiles) := by
  induction fileList generalizing lNeedClean sizes with
  | nil => exact ⟨[], rfl, le_refl _, .inr nonneg⟩
  | cons file fileList ih =>
    have less : ((file :: fileList).length : Int) - 1 = fileList.length := by
      rw [List.length_cons]
      omega
    rw [cleanSpace, less]
    by_cases many : ((file :: fileList).length : Int) > iMinFiles
    · rw [if_pos many]
      by_cases done : lNeedClean - sizes.headD 0 ≤ 0
      · refine ⟨fileList, if_pos done, Nat.le_succ _, .inl ?_⟩
        have one : (file :: fileList).length - fileList.length = 0 + 1 := by
          rw [List.length_cons]
          omega
        rw [one, sum_take_succ, List.take_zero, List.sum_nil]
        omega
      · obtain ⟨rest, ran, shorter, reaches⟩ := ih (lNeedClean - sizes.headD 0) sizes.tail
        refine ⟨rest, (if_neg done).trans ran, Nat.le_succ_of_le shorter,
          reaches.imp_left fun enough => ?_⟩
        have more : (file :: fileList).length - rest.length =
            fileList.length - rest.length + 1 := by
          rw [List.length_cons]
          omega
        rw [more, sum_take_succ]
        omega
    · exact ⟨file :: fileList, if_neg many, le_refl _, .inr (Int.not_lt.mp many)⟩

/-- A pass: the first loop leaves some files, and the second some of these, until there is space
enough. -/
theorem Configured.pass (configured : Configured iMinFiles iMaxFiles iReserveMBytes log)
    (nonneg : 0 ≤ iMinFiles) {event : LogEvent} (due : event.ltNow - log.lCleanTick > 60000) :
    ∃ rest left, cleanCount log.iMinFiles log.iMaxFiles log.iFileCount log.fileList =
      .ok ((rest.length : Int), rest) ∧
      ¬((rest.length : Int) ≥ iMaxFiles ∧ (rest.length : Int) > iMinFiles) ∧
      log.cleanFile event = .ok { log with
        iFileCount := left.length, fileList := left, lCleanTick := event.ltNow } ∧
      left.length ≤ rest.length ∧
      (log.iReserveByte ≤
        event.totalFreeBytes + (event.sizes.take (rest.length - left.length)).sum ∨
        (left.length : Int) ≤ iMinFiles) := by
  obtain ⟨rest, counted, -, few⟩ := cleanCount_eq nonneg iMaxFiles log.fileList
  rw [← configured.isMin, ← configured.isMax, ← configured.count] at counted
  unfold cleanFile
  rw [if_pos due, counted]
  by_cases short : log.iReserveByte - event.totalFreeBytes > 0
  · obtain ⟨left, ran, shorter, reaches⟩ :=
      cleanSpace_reaches nonneg (log.iReserveByte - event.totalFreeBytes) rest
        event.sizes
    refine ⟨rest, left, rfl, few, ?_, shorter, reaches.imp_left fun enough => by omega⟩
    rw [← configured.isMin] at ran
    simp only [bind, Except.bind, short, ↓reduceIte, ran]
    rfl
  · refine ⟨rest, rest, rfl, few, ?_, le_refl _, .inl ?_⟩
    · simp only [bind, Except.bind, short, ↓reduceIte]
      rfl
    · rw [Nat.sub_self, List.take_zero, List.sum_nil]
      omega

/-- The first loop leaves few files. -/
theorem cleanCount_few {iFileCount : Int} (few : ¬(iFileCount ≥ iMaxFiles ∧ iFileCount > iMinFiles))
    (fileList : List Bytes) :
    cleanCount iMinFiles iMaxFiles iFileCount fileList = .ok (iFileCount, fileList) := by
  cases fileList with
  | nil => rw [cleanCount, if_neg few]
  | cons file fileList => rw [cleanCount, if_neg few]

/-- A pass with few files and space enough changes the tick alone. -/
theorem cleanFile_idle (few : ¬(log.iFileCount ≥ log.iMaxFiles ∧ log.iFileCount > log.iMinFiles))
    {event : LogEvent} (due : event.ltNow - log.lCleanTick > 60000)
    (enough : log.iReserveByte ≤ event.totalFreeBytes) :
    log.cleanFile event = .ok { log with lCleanTick := event.ltNow } := by
  have space : ¬log.iReserveByte - event.totalFreeBytes > 0 := by omega
  unfold cleanFile
  rw [if_pos due, cleanCount_few few]
  simp only [bind, Except.bind, space, ↓reduceIte]
  rfl

/-! ## Runs -/

/-- `Init` configures a log. -/
theorem configured_init {pDir pFileName : Option Bytes} {iRet : Int} {test : DirTest}
    {rent : Option (List DirEntry)} {start : LogData}
    (inited : LogData.new.init pDir pFileName iMinFiles iMaxFiles iReserveMBytes test rent =
      .ok (iRet, start)) : Configured iMinFiles iMaxFiles iReserveMBytes start := by
  obtain ⟨log, rfl, isMin, count, none, -, isMax, reserve, -⟩ := init_ok inited
  refine ⟨isMin, isMax, reserve, ?_⟩
  simp [listing, count, none]

/-- Calls of `WriteLog` leave the settings and keep the count. -/
theorem Configured.step (nonneg : 0 ≤ iMinFiles) {localtime : Int → Tm} {start : LogData}
    {event : LogEvent} {answer : LogAnswer}
    (configured : Configured iMinFiles iMaxFiles iReserveMBytes log)
    (taken : (logMachine localtime start).Steps log event answer next) :
    Configured iMinFiles iMaxFiles iReserveMBytes next := by
  obtain ⟨cleaned, switched, log', isCleaned, isSwitched, -, iLogSize, rfl⟩ := step_ok taken
  have kept : Configured iMinFiles iMaxFiles iReserveMBytes cleaned := by
    by_cases due : event.ltNow - log.lCleanTick > 60000
    · obtain ⟨rest, left, -, -, passed, -⟩ := configured.pass nonneg due
      obtain rfl := Except.ok.inj (passed.symm.trans isCleaned)
      exact ⟨configured.isMin, configured.isMax, configured.reserve, rfl⟩
    · rw [cleanFile, if_neg due] at isCleaned
      cases isCleaned
      exact configured
  rcases switchNewFile_ok isSwitched with ⟨rfl | rfl, -⟩ | ⟨-, rfl⟩
  · exact ⟨kept.isMin, kept.isMax, kept.reserve, kept.count⟩
  · obtain ⟨fileFD, closed⟩ := closeFile_eq cleaned
    rw [closed]
    exact ⟨kept.isMin, kept.isMax, kept.reserve, kept.count⟩
  · refine ⟨kept.isMin, kept.isMax, kept.reserve, ?_⟩
    have count := kept.count
    simp only [List.length_append, List.length_singleton]
    omega

/-- All logs that calls of `WriteLog` lead to behind an `Init` are configured by it. -/
theorem configured_run {pDir pFileName : Option Bytes} {iRet : Int} {test : DirTest}
    {rent : Option (List DirEntry)} {start last : LogData} (nonneg : 0 ≤ iMinFiles)
    (inited : LogData.new.init pDir pFileName iMinFiles iMaxFiles iReserveMBytes test rent =
      .ok (iRet, start)) (localtime : Int → Tm) {trace : List (LogEvent × LogAnswer)}
    (ran : (logMachine localtime start).Run start trace last) :
    Configured iMinFiles iMaxFiles iReserveMBytes last :=
  ran.preserved (Configured.step nonneg) (configured_init inited)

/-- A pass restores the space that was asked for, or leaves the smallest number of files. -/
def RestoresReserve (iMinFiles iMaxFiles iReserveMBytes : Int) : Prop :=
  ∀ log, Configured iMinFiles iMaxFiles iReserveMBytes log →
    ∀ event, event.ltNow - log.lCleanTick > 60000 →
    ∃ iFileCount rest next,
      cleanCount log.iMinFiles log.iMaxFiles log.iFileCount log.fileList = .ok (iFileCount, rest) ∧
      log.cleanFile event = .ok next ∧
      (iReserveMBytes * 2 ^ 20 ≤
          event.totalFreeBytes + (event.sizes.take (rest.length - next.fileList.length)).sum ∨
        next.iFileCount ≤ next.iMinFiles)

/-- Below 2048 megabytes the product is what was asked for. -/
theorem toInt_megabytes (nonneg : 0 ≤ iReserveMBytes) (small : iReserveMBytes < 2048) :
    toInt (iReserveMBytes * 1024 * 1024) = iReserveMBytes * 2 ^ 20 := by
  rw [toInt_of_range (by omega) (by omega)]
  omega

/-- A log with one file more than the smallest number. -/
def oneMore (iMinFiles iMaxFiles iReserveMBytes : Int) : LogData :=
  { LogData.new with
    iMinFiles, iMaxFiles
    iReserveByte := toInt (iReserveMBytes * 1024 * 1024)
    iFileCount := (iMinFiles + 1).toNat
    fileList := List.replicate (iMinFiles + 1).toNat (bytes "./Log/wlog.log") }

/-- The log with one file too many keeps its configuration. -/
theorem configured_oneMore :
    (oneMore iMinFiles iMaxFiles iReserveMBytes).Configured iMinFiles iMaxFiles iReserveMBytes :=
  ⟨rfl, rfl, rfl, congrArg Nat.cast List.length_replicate.symm⟩

/-- With a product that is not what was asked for, a pass does not miss the space. -/
theorem not_restoresReserve (nonneg : 0 ≤ iMinFiles) (much : 2048 ≤ iReserveMBytes)
    (wide : iMinFiles + 1 < iMaxFiles) : ¬RestoresReserve iMinFiles iMaxFiles iReserveMBytes := by
  intro restores
  let log := oneMore iMinFiles iMaxFiles iReserveMBytes
  -- No product in `int` asks for more than 2 ^ 31 - 1 bytes, and these are less than was asked for.
  let event : LogEvent := ⟨0, 60001, 2 ^ 31 - 1, [], 0, false⟩
  have due : event.ltNow - log.lCleanTick > 60000 := by
    change (60001 : Int) - 0 > 60000
    decide
  have count : log.iFileCount = iMinFiles + 1 := Int.toNat_of_nonneg (by omega)
  have few : ¬(log.iFileCount ≥ log.iMaxFiles ∧ log.iFileCount > log.iMinFiles) := by
    rw [count]
    exact fun both => absurd both.1 (Int.not_le.mpr wide)
  have enough : log.iReserveByte ≤ event.totalFreeBytes := by
    have range := (toInt_range (iReserveMBytes * 1024 * 1024)).2
    exact Int.le_sub_one_of_lt range
  obtain ⟨iFileCount, rest, next, counted, passed, result⟩ :=
    restores log configured_oneMore event due
  rw [cleanCount_few few] at counted
  rw [cleanFile_idle few due enough] at passed
  obtain rfl : log.fileList = rest := (Prod.mk.inj (Except.ok.inj counted)).2
  obtain rfl := Except.ok.inj passed
  rcases result with restored | least
  · rw [Nat.sub_self, List.take_zero, List.sum_nil] at restored
    change iReserveMBytes * 2 ^ 20 ≤ 2 ^ 31 - 1 + 0 at restored
    omega
  · change log.iFileCount ≤ iMinFiles at least
    omega

end LogData

/-- For all settings of `Init` with a space that is not negative and a smallest number of files that
is not: every pass, from any files of any sizes and with any free space, ends with the space that
was asked for or with the smallest number of files, exactly when fewer than 2048 megabytes were
asked for, or the largest number of files is at most one more than the smallest. All logs that calls
of `WriteLog` lead to behind an `Init` have its settings. -/
theorem restores_reserve_iff {iMinFiles iReserveMBytes : Int} (iMaxFiles : Int)
    (asked : 0 ≤ iReserveMBytes) (nonneg : 0 ≤ iMinFiles) :
    (LogData.RestoresReserve iMinFiles iMaxFiles iReserveMBytes ↔
        iReserveMBytes < 2048 ∨ iMaxFiles ≤ iMinFiles + 1) ∧
      ∀ pDir pFileName test rent iRet start localtime trace last,
        LogData.new.init pDir pFileName iMinFiles iMaxFiles iReserveMBytes test rent =
          .ok (iRet, start) →
        (logMachine localtime start).Run start trace last →
          LogData.Configured iMinFiles iMaxFiles iReserveMBytes last := by
  refine ⟨?_, fun _ _ _ _ _ _ localtime _ _ inited ran =>
    LogData.configured_run nonneg inited localtime ran⟩
  constructor
  · intro restores
    by_contra neither
    rw [not_or, Int.not_lt, Int.not_le] at neither
    exact LogData.not_restoresReserve nonneg neither.1 neither.2 restores
  · intro condition log configured event due
    obtain ⟨rest, left, counted, few, passed, shorter, reaches⟩ := configured.pass nonneg due
    refine ⟨_, rest, _, counted, passed, ?_⟩
    change _ ∨ (left.length : Int) ≤ log.iMinFiles
    rw [configured.isMin]
    rcases condition with small | tight
    · rw [configured.reserve, LogData.toInt_megabytes asked small] at reaches
      exact reaches
    · right
      omega

/-- The settings of `main` ask for one gigabyte. -/
theorem restores_reserve_main : LogData.RestoresReserve 10 1000 1024 :=
  (restores_reserve_iff 1000 (by decide) (by decide)).1.mpr (.inl (by decide))

/-- Two gigabytes are asked for, the disk is full and there are two files, of which one may go: none
is deleted. -/
theorem reserve_is_not_restored :
    ∃ start next, LogData.new.init (some (bytes "./Log")) (some (bytes "srv")) 1 1000 2048 .found
        (some [⟨bytes "srv0.log", false, true, by decide⟩,
          ⟨bytes "srv1.log", false, true, by decide⟩]) =
        .ok (0, start) ∧
      start.iReserveByte = -2 ^ 31 ∧
      start.cleanFile ⟨100, 70000, 0, [600000, 600000], 70, true⟩ = .ok next ∧
      next.fileList = start.fileList ∧ next.iFileCount = 2 ∧ next.iMinFiles = 1 := by
  refine ⟨_, _, rfl, ?_, rfl, ?_⟩
  all_goals decide +kernel

end NetServer
