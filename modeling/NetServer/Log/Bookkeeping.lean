import NetServer.Log.LogData

/-!
# The count and the queue of the log files

`m_iFileCount` is the length of `m_FileList` behind every call, so the loops of `CleanFile_` find a
file when they take one, and they leave as many as `m_iMinFiles` asks for. The file that is open is
the last entry, and as one entry always stays, it is never deleted.
-/

namespace NetServer

open Lib

/-- Some files are left when others were taken from the front, and enough of them if any were
taken. -/
def Leaves (iMinFiles : Int) (fileList rest : List Bytes) : Prop :=
  ∃ popped, fileList = popped ++ rest ∧ (popped ≠ [] → iMinFiles ≤ rest.length)

namespace Leaves

variable {iMinFiles : Int} {fileList rest left : List Bytes}

/-- Nothing is taken. -/
theorem refl (iMinFiles : Int) (fileList : List Bytes) : Leaves iMinFiles fileList fileList :=
  ⟨[], rfl, fun some => absurd rfl some⟩

/-- One more file is taken. -/
theorem cons {file : Bytes} (many : ((file :: fileList).length : Int) > iMinFiles)
    (leaves : Leaves iMinFiles fileList rest) : Leaves iMinFiles (file :: fileList) rest := by
  obtain ⟨popped, rfl, enough⟩ := leaves
  refine ⟨file :: popped, rfl, fun _ => ?_⟩
  by_cases none : popped = []
  · rw [none, List.nil_append, List.length_cons] at many
    omega
  · exact enough none

/-- Files are taken twice. -/
theorem trans (leaves : Leaves iMinFiles fileList rest) (leaves' : Leaves iMinFiles rest left) :
    Leaves iMinFiles fileList left := by
  obtain ⟨popped, rfl, enough⟩ := leaves
  obtain ⟨popped', rfl, enough'⟩ := leaves'
  refine ⟨popped ++ popped', (List.append_assoc _ _ _).symm, fun some => ?_⟩
  by_cases none : popped' = []
  · rw [none, List.append_nil] at some
    rw [none, List.nil_append] at enough
    exact enough some
  · exact enough' none

/-- The last file is left. -/
theorem getLast? (leaves : Leaves iMinFiles fileList rest) (positive : 1 ≤ iMinFiles) :
    rest.getLast? = fileList.getLast? := by
  obtain ⟨popped, rfl, enough⟩ := leaves
  by_cases none : popped = []
  · rw [none, List.nil_append]
  · have stays : rest ≠ [] := by
      intro empty
      have few := enough none
      rw [empty, List.length_nil] at few
      omega
    rw [List.getLast?_append_of_ne_nil _ stays]

end Leaves

namespace LogData

/-! ## `CleanFile_` -/

/-- The first loop stops at the latest when the queue is empty, with few enough files. -/
theorem cleanCount_eq {iMinFiles : Int} (nonneg : 0 ≤ iMinFiles) (iMaxFiles : Int)
    (fileList : List Bytes) :
    ∃ rest, cleanCount iMinFiles iMaxFiles fileList.length fileList =
      .ok ((rest.length : Int), rest) ∧
      Leaves iMinFiles fileList rest ∧
      ¬((rest.length : Int) ≥ iMaxFiles ∧ (rest.length : Int) > iMinFiles) := by
  induction fileList with
  | nil =>
    have few : ¬((([] : List Bytes).length : Int) ≥ iMaxFiles ∧ (([] : List Bytes).length : Int) >
        iMinFiles) := by
      rw [List.length_nil]
      omega
    refine ⟨[], ?_, .refl _ _, few⟩
    rw [cleanCount, if_neg few]
  | cons file fileList ih =>
    have less : ((file :: fileList).length : Int) - 1 = fileList.length := by
      rw [List.length_cons]
      omega
    rw [cleanCount, less]
    split_ifs with many
    · obtain ⟨rest, ran, leaves, few⟩ := ih
      exact ⟨rest, ran, leaves.cons many.2, few⟩
    · exact ⟨file :: fileList, rfl, .refl _ _, many⟩

/-- The second loop stops at the smallest number of files at the latest. -/
theorem cleanSpace_eq (iMinFiles lNeedClean : Int) (fileList : List Bytes) (sizes : List Int) :
    ∃ rest, cleanSpace iMinFiles lNeedClean fileList.length fileList sizes =
      ((rest.length : Int), rest) ∧
      Leaves iMinFiles fileList rest := by
  induction fileList generalizing lNeedClean sizes with
  | nil => exact ⟨[], rfl, .refl _ _⟩
  | cons file fileList ih =>
    have less : ((file :: fileList).length : Int) - 1 = fileList.length := by
      rw [List.length_cons]
      omega
    rw [cleanSpace, less]
    by_cases many : ((file :: fileList).length : Int) > iMinFiles
    · rw [if_pos many]
      by_cases done : lNeedClean - sizes.headD 0 ≤ 0
      · exact ⟨fileList, if_pos done, (Leaves.refl _ _).cons many⟩
      · obtain ⟨rest, ran, leaves⟩ := ih (lNeedClean - sizes.headD 0) sizes.tail
        exact ⟨rest, (if_neg done).trans ran, leaves.cons many⟩
    · exact ⟨file :: fileList, if_neg many, .refl _ _⟩

/-- What holds between the calls. -/
structure Bookkept (iMinFiles : Int) (log : LogData) : Prop where
  positive : 1 ≤ iMinFiles
  isMin : log.iMinFiles = iMinFiles
  count : log.iFileCount = log.fileList.length
  last : ∀ file, log.fileFD = some file → log.fileList.getLast? = some file

/-- What `CleanFile_` does. -/
structure Cleans (iMinFiles : Int) (log cleaned : LogData) : Prop where
  frame : cleaned = { log with
    iFileCount := cleaned.iFileCount, fileList := cleaned.fileList,
    lCleanTick := cleaned.lCleanTick }
  count : cleaned.iFileCount = cleaned.fileList.length
  leaves : Leaves iMinFiles log.fileList cleaned.fileList

variable {iMinFiles : Int} {log next : LogData}

/-- `CleanFile_` never fails. -/
theorem Bookkept.cleanFile_eq (kept : Bookkept iMinFiles log) (event : LogEvent) :
    ∃ cleaned, log.cleanFile event = .ok cleaned ∧ Cleans iMinFiles log cleaned := by
  obtain ⟨positive, rfl, count, -⟩ := kept
  unfold cleanFile
  split_ifs
  · have nonneg : 0 ≤ log.iMinFiles := by omega
    obtain ⟨rest, ran, leaves, -⟩ := cleanCount_eq nonneg log.iMaxFiles log.fileList
    rw [count, ran]
    by_cases short : log.iReserveByte - event.totalFreeBytes > 0
    · obtain ⟨left, ran', leaves'⟩ :=
        cleanSpace_eq log.iMinFiles (log.iReserveByte - event.totalFreeBytes) rest
          event.sizes
      simp only [bind, Except.bind, short, ↓reduceIte, ran']
      exact ⟨_, rfl, rfl, rfl, leaves.trans leaves'⟩
    · simp only [bind, Except.bind, short, ↓reduceIte]
      exact ⟨_, rfl, rfl, rfl, leaves⟩
  · exact ⟨log, rfl, rfl, count, .refl _ _⟩

/-- Cleaning keeps the books. -/
theorem Cleans.bookkept (cleans : Cleans iMinFiles log next) (kept : Bookkept iMinFiles log) :
    Bookkept iMinFiles next where
  positive := kept.positive
  isMin := by
    rw [cleans.frame]
    exact kept.isMin
  count := cleans.count
  last file isOpen := by
    rw [cleans.frame] at isOpen
    rw [cleans.leaves.getLast? kept.positive]
    exact kept.last file isOpen

/-! ## New files -/

/-- A pushed file is the last one, and it is counted. -/
theorem push_ok {file : Bytes} (pushed : log.push file = .ok next) :
    next = { log with iFileCount := log.iFileCount + 1, fileList := log.fileList ++ [file] } := by
  unfold push at pushed
  split_ifs at pushed
  exact (Except.ok.inj pushed).symm

/-- A file that was pushed and opened keeps the books. -/
theorem Bookkept.opened (kept : Bookkept iMinFiles log) (file : Bytes) (iLogSize : Int) :
    Bookkept iMinFiles { log with
      iFileCount := log.iFileCount + 1
      fileList := log.fileList ++ [file]
      fileFD := some file
      iLogSize } where
  positive := kept.positive
  isMin := kept.isMin
  count := by
    have count := kept.count
    simp only [List.length_append, List.length_singleton]
    omega
  last other isOpen := by
    cases isOpen
    exact List.getLast?_concat

/-- Closing changes the descriptor alone. -/
theorem closeFile_eq (log : LogData) : ∃ fileFD, log.closeFile = { log with fileFD } := by
  unfold closeFile
  split_ifs
  · exact ⟨none, rfl⟩
  · exact ⟨log.fileFD, rfl⟩

/-- Closing keeps the books. -/
theorem Bookkept.closeFile (kept : Bookkept iMinFiles log) : Bookkept iMinFiles log.closeFile := by
  unfold LogData.closeFile
  split_ifs
  · exact ⟨kept.positive, kept.isMin, kept.count, fun file isOpen => nomatch isOpen⟩
  · exact kept

/-- The effect of opening: nothing, or a new file. -/
theorem openFile_ok {t : Tm} {opens switched : Bool}
    (ran : log.openFile t opens = .ok (switched, next)) :
    next = log ∧ (log.fileFD.isNone && opens) = false ∨
      (log.fileFD.isNone && opens) = true ∧ next = { log with
        iFileCount := log.iFileCount + 1
        fileList := log.fileList ++ [log.newName t]
        fileFD := some (log.newName t)
        iLogSize := 0 } := by
  unfold openFile at ran
  split_ifs at ran with isOpen long succeeds
  · cases ran
    exact .inl ⟨rfl, by simp [Option.isSome_iff_ne_none.mp isOpen]⟩
  · obtain ⟨pushed, isPushed, isNext⟩ := bind_eq_ok.mp ran
    cases isNext
    refine .inr ⟨by simp [succeeds, Option.not_isSome_iff_eq_none.mp isOpen], ?_⟩
    rw [push_ok isPushed]
  · cases ran
    exact .inl ⟨rfl, by simp [succeeds]⟩

/-- The effect of `SwitchNewFile`: it opens a new file, or leaves all but the descriptor. -/
theorem switchNewFile_ok {t : Tm} {opens switched : Bool}
    (ran : log.switchNewFile t opens = .ok (switched, next)) :
    (next = log ∨ next = log.closeFile) ∧ (log.bInit && opens && log.closeFile.fileFD.isNone) =
      false ∨
      (log.bInit && opens && log.closeFile.fileFD.isNone) = true ∧ next = { log with
        iFileCount := log.iFileCount + 1
        fileList := log.fileList ++ [log.newName t]
        fileFD := some (log.newName t)
        iLogSize := 0 } := by
  unfold switchNewFile at ran
  split_ifs at ran with notInit
  · cases ran
    have notInit : log.bInit = false := by simpa using notInit
    exact .inl ⟨.inl rfl, by rw [notInit, Bool.false_and, Bool.false_and]⟩
  · have isInit : log.bInit = true := by simpa using notInit
    have opening : (log.bInit && opens && log.closeFile.fileFD.isNone) =
        (log.closeFile.fileFD.isNone && opens) := by
      rw [isInit, Bool.true_and, Bool.and_comm]
    rw [opening]
    rcases openFile_ok ran with ⟨rfl, closed⟩ | ⟨opened, rfl⟩
    · exact .inl ⟨.inr rfl, closed⟩
    · obtain ⟨fileFD, closed⟩ := closeFile_eq log
      refine .inr ⟨opened, ?_⟩
      rw [closed]
      rfl

/-- `SwitchNewFile` keeps the books. -/
theorem Bookkept.switchNewFile (kept : Bookkept iMinFiles log) {t : Tm} {opens switched : Bool}
    (ran : log.switchNewFile t opens = .ok (switched, next)) : Bookkept iMinFiles next := by
  rcases switchNewFile_ok ran with ⟨rfl | rfl, -⟩ | ⟨-, rfl⟩
  · exact kept
  · exact kept.closeFile
  · exact kept.opened _ _

/-! ## Runs -/

/-- A step of a run: `CleanFile_`, `SwitchNewFile` and a longer text. -/
theorem step_ok {localtime : Int → Tm} {start : LogData} {event : LogEvent} {answer : LogAnswer}
    (taken : (logMachine localtime start).Steps log event answer next) :
    ∃ cleaned switched log', log.cleanFile event = .ok cleaned ∧
      cleaned.switchNewFile (localtime event.nowtime) event.opens = .ok (switched, log') ∧
      answer = ⟨switched, log.opensFile event⟩ ∧
      ∃ iLogSize, next = { log' with iLogSize } := by
  obtain ⟨⟨returns, written⟩, wrote, isNext⟩ := bind_eq_ok.mp taken.2
  obtain ⟨cleaned, isCleaned, wrote⟩ := bind_eq_ok.mp wrote
  obtain ⟨⟨switched, log'⟩, isSwitched, wrote⟩ := bind_eq_ok.mp wrote
  cases isNext
  refine ⟨cleaned, switched, log', isCleaned, isSwitched, ?_⟩
  cases switched with
  | false =>
    cases wrote
    exact ⟨rfl, _, rfl⟩
  | true =>
    cases wrote
    exact ⟨rfl, _, rfl⟩

/-- The books are kept in every run. -/
theorem Bookkept.step {localtime : Int → Tm} {start : LogData} {event : LogEvent}
    {answer : LogAnswer} (kept : Bookkept iMinFiles log)
    (taken : (logMachine localtime start).Steps log event answer next) :
    Bookkept iMinFiles next := by
  obtain ⟨cleaned, switched, log', isCleaned, isSwitched, -, iLogSize, rfl⟩ := step_ok taken
  obtain ⟨cleaned', isCleaned', cleans⟩ := kept.cleanFile_eq event
  obtain rfl := Except.ok.inj (isCleaned.symm.trans isCleaned')
  have kept' := (cleans.bookkept kept).switchNewFile isSwitched
  exact ⟨kept'.positive, kept'.isMin, kept'.count, kept'.last⟩

/-! ## `Init` -/

/-- The log with some more files of the directory. -/
def listing (log : LogData) (names : List Bytes) : LogData :=
  { log with
    iFileCount := log.iFileCount + names.length
    fileList := log.fileList ++ names.map log.pathName }

/-- With no more files the log stays as it is. -/
@[simp] theorem listing_nil (log : LogData) : log.listing [] = log := by
  simp [listing]

/-- Names are listed one behind the other. -/
theorem listing_append (log : LogData) (names names' : List Bytes) :
    (log.listing names).listing names' = log.listing (names ++ names') := by
  have path : (log.listing names).pathName = log.pathName := rfl
  have count : log.iFileCount + names.length + names'.length =
      log.iFileCount + (names ++ names').length := by
    rw [List.length_append]
    omega
  rw [listing, path, listing, listing, List.map_append, ← count, ← List.append_assoc]

/-- A pass of the search. -/
theorem searchEntry_ok {entry : DirEntry} (ran : log.searchEntry entry = .ok next) :
    next = log.listing (if !entry.isDir && entry.bMatch then [entry.dName] else []) := by
  unfold searchEntry at ran
  split_ifs at ran ⊢
  · rw [push_ok ran]
    rfl
  · cases ran
    rw [listing_nil]

end LogData

/-- The names that `SerarchLogsByDir` finds. -/
def foundNames (rent : Option (List DirEntry)) : List Bytes :=
  ((rent.getD []).filter fun entry => !entry.isDir && entry.bMatch).map DirEntry.dName

namespace LogData

variable {log next : LogData}

/-- The search lists what it finds. -/
theorem serarchLogsByDir_ok {rent : Option (List DirEntry)}
    (ran : log.serarchLogsByDir rent = .ok next) : next = log.listing (foundNames rent) := by
  cases rent with
  | none =>
    cases ran
    exact (listing_nil log).symm
  | some namelist =>
    unfold serarchLogsByDir at ran
    simp only at ran
    split_ifs at ran
    clear * - ran
    induction namelist generalizing log with
    | nil =>
      cases ran
      exact (listing_nil _).symm
    | cons entry namelist ih =>
      rw [List.foldlM_cons] at ran
      obtain ⟨searched, isSearched, ran⟩ := bind_eq_ok.mp ran
      rw [ih ran, searchEntry_ok isSearched, listing_append]
      congr 1
      simp only [foundNames, Option.getD_some, List.filter_cons]
      split_ifs
      · rfl
      · rfl

/-- The files that `Init` finds. -/
def initNames (test : DirTest) (rent : Option (List DirEntry)) : List Bytes :=
  if test = .found then foundNames rent else []

/-- `Init` of a new log. -/
theorem init_ok {pDir pFileName : Option Bytes} {iMinFiles iMaxFiles iReserveMBytes iRet : Int}
    {test : DirTest} {rent : Option (List DirEntry)} {start : LogData}
    (inited : LogData.new.init pDir pFileName iMinFiles iMaxFiles iReserveMBytes test rent =
      .ok (iRet, start)) :
    ∃ log : LogData, start = log.listing (initNames test rent) ∧ log.iMinFiles = iMinFiles ∧
      log.iFileCount = 0 ∧
      log.fileList = [] ∧ log.fileFD = none ∧ log.iMaxFiles = iMaxFiles ∧
      log.iReserveByte = toInt (iReserveMBytes * 1024 * 1024) ∧
      log.szDir = pDir.getD LogData.new.szDir ∧
      log.szFileName = pFileName.getD LogData.new.szFileName ∧
      (log.bInit = true ↔ test ≠ .failed) := by
  unfold LogData.init at inited
  simp only at inited
  split_ifs at inited
  cases test with
  | found =>
    obtain ⟨searched, isSearched, inited⟩ := bind_eq_ok.mp inited
    cases inited
    exact ⟨_, serarchLogsByDir_ok isSearched, rfl, rfl, rfl, rfl, rfl, rfl, rfl,
      rfl, by simp [LogData.new]⟩
  | created =>
    cases inited
    exact ⟨_, (listing_nil _).symm, rfl, rfl, rfl, rfl, rfl, rfl, rfl, rfl, by simp [LogData.new]⟩
  | failed =>
    cases inited
    exact ⟨_, (listing_nil _).symm, rfl, rfl, rfl, rfl, rfl, rfl, rfl, rfl, by simp⟩

/-- `Init` starts the books. -/
theorem bookkept_init {pDir pFileName : Option Bytes}
    {iMinFiles iMaxFiles iReserveMBytes iRet : Int} {test : DirTest} {rent : Option (List DirEntry)}
    {start : LogData} (positive : 1 ≤ iMinFiles)
    (inited : LogData.new.init pDir pFileName iMinFiles iMaxFiles iReserveMBytes test rent =
      .ok (iRet, start)) : Bookkept iMinFiles start := by
  obtain ⟨log, rfl, isMin, count, none, closed, -⟩ := init_ok inited
  refine ⟨positive, isMin, ?_, fun file isOpen => ?_⟩
  · simp [listing, count, none]
  · rw [listing, closed] at isOpen
    cases isOpen

end LogData

open LogData in
/-- For every `Init` that asks for one file at least, whatever it finds, and all calls of `WriteLog`
behind it, whatever the clocks, the disk and `fopen` do: the count is the length of the queue, the
file that is open is its last entry, and `CleanFile_` takes no file from an empty queue, leaves the
last entry and does not take the count below the smallest number of files. -/
theorem log_bookkeeping {pDir pFileName : Option Bytes}
    {iMinFiles iMaxFiles iReserveMBytes iRet : Int} {test : DirTest} {rent : Option (List DirEntry)}
    {start : LogData} (positive : 1 ≤ iMinFiles)
    (inited : LogData.new.init pDir pFileName iMinFiles iMaxFiles iReserveMBytes test rent =
      .ok (iRet, start)) (localtime : Int → Tm) {trace : List (LogEvent × LogAnswer)}
    {last : LogData} (ran : (logMachine localtime start).Run start trace last) :
    last.iFileCount = last.fileList.length ∧
      (∀ file, last.fileFD = some file → last.fileList.getLast? = some file) ∧
      ∀ event, ∃ cleaned, last.cleanFile event = .ok cleaned ∧
        (∃ popped, last.fileList = popped ++ cleaned.fileList ∧
          (popped ≠ [] → iMinFiles ≤ cleaned.iFileCount)) ∧
        ∀ file, last.fileFD = some file → cleaned.fileList.getLast? = some file := by
  have kept : Bookkept iMinFiles last := ran.preserved Bookkept.step (bookkept_init positive inited)
  refine ⟨kept.count, kept.last, fun event => ?_⟩
  obtain ⟨cleaned, isCleaned, cleans⟩ := kept.cleanFile_eq event
  refine ⟨cleaned, isCleaned, ?_, fun file isOpen => ?_⟩
  · rw [cleans.count]
    exact cleans.leaves
  · rw [cleans.leaves.getLast? kept.positive]
    exact kept.last file isOpen

/-- A log behind an `Init` that found one file. -/
def startedLog : LogData where
  bInit := true
  iMinFiles := 1
  iMaxFiles := 2
  iReserveByte := 0
  fileBytesLimit := 524288
  szDir := bytes "./Log"
  szFileName := bytes "srv"
  iLogSize := 0
  iFileCount := 1
  fileList := [bytes "./Log/srv0.log"]
  fileFD := none
  lCleanTick := 0

/-- `Init` leaves this log behind when the directory holds one file of it. -/
theorem init_startedLog :
    LogData.new.init (some (bytes "./Log")) (some (bytes "srv")) 1 2 0 .found
      (some [⟨bytes "old", true, false, by decide⟩, ⟨bytes "srv0.log", false, true, by decide⟩]) =
        .ok (0, startedLog) := by
  decide +kernel

/-- It opens a second file, and a minute later it deletes the first. -/
theorem log_bookkeeping_opened :
    ∃ trace last, (logMachine dayClock startedLog).Run startedLog trace last ∧
      trace.map Prod.fst = [⟨100, 0, 0, [], 0, true⟩, ⟨100, 70000, 0, [], 70, true⟩] ∧
      last.fileList.length = 1 ∧
      last.iFileCount = last.fileList.length := by
  obtain ⟨trace, last, ran, events, facts⟩ := Machine.run_of_exec_any
    (fun last : LogData => last.fileList.length == 1)
    (show ((logMachine dayClock startedLog).exec startedLog
      [⟨100, 0, 0, [], 0, true⟩, ⟨100, 70000, 0, [], 70, true⟩]).any _ = true by decide +kernel)
  exact ⟨trace, last, ran, events, beq_iff_eq.mp facts,
    (log_bookkeeping (by decide) init_startedLog dayClock ran).1⟩

end NetServer
