import NetServer.Log.Bookkeeping

/-!
# The names of the log files

`SwitchNewFile` names a file by the second and opens it for writing from its start. A second file in
the same second is the same file, and its records are gone. As long as no two files are opened in
one second of local time, and none in a second whose file `Init` found, every new name is new
(`rotation_opens_new`).
-/

namespace NetServer

open Lib

namespace LogData

variable {log next : LogData}

/-! ## What `CleanFile_` leaves -/

/-- Cleaning by count removes the oldest files and keeps the order of the others. -/
theorem cleanCount_suffix {iMinFiles iMaxFiles iFileCount iFileCount' : Int}
    {fileList rest : List Bytes}
    (ran : cleanCount iMinFiles iMaxFiles iFileCount fileList = .ok (iFileCount', rest)) :
    rest <:+ fileList := by
  induction fileList generalizing iFileCount with
  | nil =>
    unfold cleanCount at ran
    split_ifs at ran
    cases ran
    exact List.suffix_refl []
  | cons file fileList ih =>
    unfold cleanCount at ran
    split_ifs at ran
    · exact (ih ran).trans (List.suffix_cons file fileList)
    · cases ran
      exact List.suffix_refl _

/-- Cleaning by space removes the oldest files and keeps the order of the others. -/
theorem cleanSpace_suffix (iMinFiles lNeedClean iFileCount : Int) (fileList : List Bytes)
    (sizes : List Int) :
    (cleanSpace iMinFiles lNeedClean iFileCount fileList sizes).2 <:+ fileList := by
  induction fileList generalizing lNeedClean iFileCount sizes with
  | nil => exact List.suffix_refl []
  | cons file fileList ih =>
    unfold cleanSpace
    simp only
    split_ifs
    · exact List.suffix_cons file fileList
    · exact (ih _ _ _).trans (List.suffix_cons file fileList)
    · exact List.suffix_refl _

/-- Whatever the limits are, `CleanFile_` takes files from the front and changes nothing else but
the count and the tick. -/
theorem cleanFile_ok {event : LogEvent} (ran : log.cleanFile event = .ok next) :
    next.fileList <:+ log.fileList ∧ next = { log with
      iFileCount := next.iFileCount, fileList := next.fileList, lCleanTick :=
        next.lCleanTick } := by
  unfold cleanFile at ran
  split_ifs at ran
  · obtain ⟨⟨iFileCount, rest⟩, counted, ran⟩ := bind_eq_ok.mp ran
    have fewer := cleanCount_suffix counted
    by_cases short : log.iReserveByte - event.totalFreeBytes > 0
    · simp only [short, ↓reduceIte] at ran
      cases ran
      exact ⟨(cleanSpace_suffix _ _ _ _ _).trans fewer, rfl⟩
    · simp only [short, ↓reduceIte] at ran
      cases ran
      exact ⟨fewer, rfl⟩
  · cases ran
    exact ⟨List.suffix_refl _, rfl⟩

/-- Whether a file is opened does not depend on what is deleted. -/
theorem opensFile_cleaned {event : LogEvent} (ran : log.cleanFile event = .ok next) :
    next.opensFile event = log.opensFile event := by
  rw [(cleanFile_ok ran).2]
  unfold opensFile closeFile
  split_ifs
  · rfl
  · rfl

/-! ## Names -/

/-- Names of different seconds are different. -/
theorem newName_injective {t t' : Tm} (same : log.newName t = log.newName t') : t = t' := by
  have base := List.append_cancel_left same
  unfold baseName at base
  have stamp := List.append_cancel_right base
  exact Tm.stamp_injective (List.append_cancel_left stamp)

/-- A name in the directory that is a new name is its last part. -/
theorem pathName_eq_newName {dName : Bytes} {t : Tm} (noSlash : 47 ∉ dName)
    (same : log.pathName dName = log.newName t) : dName = log.baseName t := by
  have slash : bytes "/" = [47] := by decide
  unfold pathName newName at same
  split_ifs at same
  · rw [List.append_nil, List.append_assoc, slash] at same
    have slashed := List.append_cancel_left same
    rw [slashed] at noSlash
    exact absurd List.mem_cons_self noSlash
  · exact List.append_cancel_left same

end LogData

/-! ## The openings of a run -/

/-- The clock readings at which files were opened. -/
def openings (trace : List (LogEvent × LogAnswer)) : List Int :=
  trace.filterMap fun entry => if entry.2.opened then some entry.1.nowtime else none

/-- The openings of two runs follow each other. -/
theorem openings_append (front back : List (LogEvent × LogAnswer)) :
    openings (front ++ back) = openings front ++ openings back := List.filterMap_append

/-- No two files are opened in the same second, and none in a second whose file was found. -/
structure FreshSeconds (localtime : Int → Tm) (start : LogData) (found : List Bytes)
    (trace : List (LogEvent × LogAnswer)) : Prop where
  distinct : ((openings trace).map localtime).Nodup
  unfound : ∀ nowtime ∈ openings trace, start.baseName (localtime nowtime) ∉ found

/-- A file that a call opens is not in the queue. -/
def OpensNew (localtime : Int → Tm) (log : LogData) (event : LogEvent) : Prop :=
  log.opensFile event = true → ∀ cleaned, log.cleanFile event = .ok cleaned →
    cleaned.newName (localtime event.nowtime) ∉ cleaned.fileList

/-- The files of a log are those that it started with and those that it opened since. -/
structure Named (localtime : Int → Tm) (start : LogData) (times : List Int) (log : LogData) :
    Prop where
  szDir : log.szDir = start.szDir
  szFileName : log.szFileName = start.szFileName
  files : ∀ file ∈ log.fileList,
    file ∈ start.fileList ∨ ∃ nowtime ∈ times, file = start.newName (localtime nowtime)

namespace Named

variable {localtime : Int → Tm} {start log next : LogData} {times : List Int}

/-- New names depend on the directory and the name of the log alone. -/
theorem newName (named : Named localtime start times log) (t : Tm) :
    log.newName t = start.newName t := by
  rw [LogData.newName, LogData.newName, LogData.baseName, LogData.baseName, named.szDir,
    named.szFileName]

/-- Cleaning. -/
theorem cleanFile (named : Named localtime start times log) {event : LogEvent}
    (ran : log.cleanFile event = .ok next) : Named localtime start times next := by
  obtain ⟨fewer, frame⟩ := LogData.cleanFile_ok ran
  refine ⟨?_, ?_, fun file listed => named.files file (fewer.subset listed)⟩
  · rw [frame]
    exact named.szDir
  · rw [frame]
    exact named.szFileName

/-- A call adds the file that it opens. -/
theorem step (named : Named localtime start times log) {event : LogEvent} {answer : LogAnswer}
    (taken : (logMachine localtime start).Steps log event answer next) :
    Named localtime start (times ++ openings [(event, answer)]) next := by
  obtain ⟨cleaned, switched, log', isCleaned, isSwitched, rfl, iLogSize, rfl⟩ :=
    LogData.step_ok taken
  have named' := named.cleanFile isCleaned
  have earlier : ∀ file ∈ cleaned.fileList, file ∈ start.fileList ∨
      ∃ nowtime ∈ times ++ openings [(event, ⟨switched, log.opensFile event⟩)],
        file = start.newName (localtime nowtime) := by
    intro file listed
    rcases named'.files file listed with old | ⟨nowtime, inTimes, isName⟩
    · exact .inl old
    · exact .inr ⟨nowtime, List.mem_append_left _ inTimes, isName⟩
  rcases LogData.switchNewFile_ok isSwitched with ⟨rfl | rfl, -⟩ | ⟨opened, rfl⟩
  · exact ⟨named'.szDir, named'.szFileName, earlier⟩
  · obtain ⟨fileFD, closed⟩ := LogData.closeFile_eq cleaned
    rw [closed]
    exact ⟨named'.szDir, named'.szFileName, earlier⟩
  · refine ⟨named'.szDir, named'.szFileName, fun file listed => ?_⟩
    rcases List.mem_append.mp listed with old | new
    · exact earlier file old
    · have opens : log.opensFile event = true :=
        (LogData.opensFile_cleaned isCleaned).symm.trans opened
      refine .inr ⟨event.nowtime, List.mem_append_right _ (by simp [openings, opens]), ?_⟩
      rw [List.mem_singleton.mp new, named'.newName]

/-- A run adds the files that it opens. -/
theorem run (named : Named localtime start times log) {trace : List (LogEvent × LogAnswer)}
    {last : LogData} (ran : (logMachine localtime start).Run log trace last) :
    Named localtime start (times ++ openings trace) last := by
  induction ran generalizing times with
  | nil log =>
    rw [openings, List.filterMap_nil, List.append_nil]
    exact named
  | cons first rest ih =>
    have behind := ih (named.step first)
    rw [List.append_assoc, ← openings_append, List.singleton_append] at behind
    exact behind

end Named

/-- A new file has none of the names that the log started with. -/
theorem newName_not_found {pDir pFileName : Option Bytes}
    {iMinFiles iMaxFiles iReserveMBytes iRet : Int} {test : DirTest} {rent : Option (List DirEntry)}
    {start : LogData} {t : Tm}
    (inited : LogData.new.init pDir pFileName iMinFiles iMaxFiles iReserveMBytes test rent =
      .ok (iRet, start)) (unfound : start.baseName t ∉ LogData.initNames test rent) :
    start.newName t ∉ start.fileList := by
  obtain ⟨log, rfl, -, -, none, -⟩ := LogData.init_ok inited
  intro listed
  rw [LogData.listing, none, List.nil_append] at listed
  obtain ⟨dName, isFound, same⟩ := List.mem_map.mp listed
  have noSlash : 47 ∉ dName := by
    unfold LogData.initNames at isFound
    split_ifs at isFound
    · obtain ⟨entry, -, rfl⟩ := List.mem_map.mp isFound
      exact entry.noSlash
    · exact absurd isFound List.not_mem_nil
  exact unfound (LogData.pathName_eq_newName noSlash same ▸ isFound)

/-- For every `Init` and every run of calls behind it in which no two files are opened in the same
second of local time, and none in a second whose file `Init` found: every file that is opened has a
name that is not in the queue. -/
theorem rotation_opens_new {pDir pFileName : Option Bytes}
    {iMinFiles iMaxFiles iReserveMBytes iRet : Int} {test : DirTest} {rent : Option (List DirEntry)}
    {start : LogData}
    (inited : LogData.new.init pDir pFileName iMinFiles iMaxFiles iReserveMBytes test rent =
      .ok (iRet, start)) (localtime : Int → Tm) {trace : List (LogEvent × LogAnswer)}
    {last : LogData} (ran : (logMachine localtime start).Run start trace last)
    (fresh : FreshSeconds localtime start (LogData.initNames test rent) trace) :
    (logMachine localtime start).Throughout (OpensNew localtime) start trace := by
  intro front event answer ahead before reached opens cleaned isCleaned listed
  obtain ⟨back, rfl⟩ := ahead
  -- the answer records that this call opens a file
  rw [List.append_assoc] at ran
  obtain ⟨before', reached', behind⟩ := ran.split
  obtain rfl := reached.unique reached'
  cases behind with
  | cons first _ =>
    obtain ⟨-, switched, -, -, -, rfl, -⟩ := LogData.step_ok first
    have here : openings [(event, ⟨switched, before.opensFile event⟩)] = [event.nowtime] := by
      simp [openings, opens]
    have distinct := fresh.distinct
    have unfound := fresh.unfound event.nowtime
    simp only [openings_append, here] at distinct unfound
    have start' : Named localtime start [] start := ⟨rfl, rfl, fun file listed => .inl listed⟩
    have named := (start'.run reached).cleanFile isCleaned
    rw [named.newName] at listed
    rcases named.files _ listed with found | ⟨nowtime, earlier, same⟩
    · exact newName_not_found inited (unfound (by simp)) found
    · have second := LogData.newName_injective same
      rw [List.nil_append] at earlier
      rw [List.append_assoc, List.map_append, List.nodup_append] at distinct
      exact distinct.2.2 _ (List.mem_map_of_mem earlier) _ (by simp) second.symm

/-- Files that grow past the limit in different seconds. -/
theorem rotation_opens_new_seconds :
    ∃ trace last, (logMachine dayClock startedLog).Run startedLog trace last ∧
      trace.map Prod.fst = [⟨600000, 0, 0, [], 10, true⟩, ⟨100, 0, 0, [], 11, true⟩] ∧
      last.fileList.length = 3 ∧
      (logMachine dayClock startedLog).Throughout (OpensNew dayClock) startedLog trace := by
  obtain ⟨trace, last, ran, events, facts⟩ := Machine.run_of_exec_check
    (fun (last : LogData) trace => last.fileList.length == 3 &&
      decide ((openings trace).map dayClock).Nodup &&
      decide (∀ nowtime ∈ openings trace, startedLog.baseName (dayClock nowtime) ∉
        [bytes "srv0.log"]))
    (show ((logMachine dayClock startedLog).exec startedLog
      [⟨600000, 0, 0, [], 10, true⟩, ⟨100, 0, 0, [], 11, true⟩]).any _ = true by decide +kernel)
  simp only [Bool.and_eq_true, beq_iff_eq, decide_eq_true_eq] at facts
  exact ⟨trace, last, ran, events, facts.1.1,
    rotation_opens_new init_startedLog dayClock ran ⟨facts.1.2, facts.2⟩⟩

/-- No name is in the queue twice. -/
def DistinctFiles (log : LogData) : Prop := log.fileList.Nodup

/-- As long as the names of new files are new, no name is in the queue twice. -/
theorem distinctFiles_of_opensNew {localtime : Int → Tm} {start last : LogData}
    {trace : List (LogEvent × LogAnswer)} (ran : (logMachine localtime start).Run start trace last)
    (new : (logMachine localtime start).Throughout (OpensNew localtime) start trace)
    (distinct : DistinctFiles start) : DistinctFiles last := by
  refine ran.preserved_throughout (fun {log event answer next} nodup new taken => ?_) new distinct
  obtain ⟨cleaned, switched, log', isCleaned, isSwitched, -, iLogSize, rfl⟩ := LogData.step_ok taken
  have fewer := nodup.sublist (LogData.cleanFile_ok isCleaned).1.sublist
  rcases LogData.switchNewFile_ok isSwitched with ⟨rfl | rfl, -⟩ | ⟨opened, rfl⟩
  · exact fewer
  · obtain ⟨fileFD, closed⟩ := LogData.closeFile_eq cleaned
    rw [closed]
    exact fewer
  · have absent := new ((LogData.opensFile_cleaned isCleaned).symm.trans opened) cleaned isCleaned
    refine List.nodup_append.mpr ⟨fewer, List.pairwise_singleton _ _,
      fun file listed other isNew same => absent ?_⟩
    rw [← List.mem_singleton.mp isNew, ← same]
    exact listed

/-- Messages of ordinary length that fill a file within a second: it is opened again from its
start. -/
theorem rotation_reopens : ∃ trace last,
    (logMachine dayClock startedLog).Run startedLog trace last ∧
      trace.map Prod.fst = List.replicate 130 ⟨4090, 0, 0, [], 10, true⟩ ∧
      ¬(logMachine dayClock startedLog).Throughout (OpensNew dayClock) startedLog trace := by
  obtain ⟨trace, last, ran, events, facts⟩ := Machine.run_of_exec_any
    (fun last : LogData => decide ¬last.fileList.Nodup)
    (show ((logMachine dayClock startedLog).exec startedLog
      (List.replicate 130 ⟨4090, 0, 0, [], 10, true⟩)).any _ = true by decide +kernel)
  refine ⟨trace, last, ran, events, fun new => ?_⟩
  exact of_decide_eq_true facts
    (distinctFiles_of_opensNew ran new (by unfold DistinctFiles; decide))

end NetServer
