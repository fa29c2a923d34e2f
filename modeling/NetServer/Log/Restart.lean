import NetServer.Common.FileSystem
import NetServer.Log.Matching
import NetServer.Log.Rotation

/-!
# The log files of an earlier run

A process that starts again looks for its log files in the log directory, by the names of the
entries. A file has been opened under a path, with the prefix behind the directory. If the prefix
has a slash, the path may lead elsewhere, and the names of the entries are only what is behind the
last slash. `main` uses its own path in the prefix.
-/

namespace NetServer

open Lib

/-- The arguments of `LogData::Init`. -/
structure InitArguments where
  pDir : Option Bytes
  pFileName : Option Bytes
  iMinFiles : Int
  iMaxFiles : Int
  iReserveMBytes : Int
  deriving DecidableEq, Repr

/-- A new log with the names that `Init` copies. -/
def InitArguments.names (args : InitArguments) : LogData :=
  { LogData.new with
    szDir := args.pDir.getD LogData.new.szDir,
    szFileName := args.pFileName.getD LogData.new.szFileName }

namespace FileSystem

variable (fs : FileSystem) (brackets : Brackets)

/-- `LogData::IsExistDir`. The mode of a device has the bit that is tested, but a slash behind a
device is an error. -/
def isExistDir (lpsz : Bytes) : Bool :=
  match fs.node lpsz with
  | some (.dir _) => true
  | some .device => lpsz.getLast? ≠ some 47
  | _ => false

/-- `LogData::TestDir`, where `mkdir` may fail. It fails without a name. -/
def testDir (makes : Bool) : Option Bytes → DirTest
  | none => .failed
  | some pDir =>
    if fs.isExistDir pDir then .found else if makes && pDir ≠ [] then .created else .failed

/-- The entries that `LogData::SerarchLogsByDir` goes through. -/
def rent (log : LogData) : Option (List DirEntry) :=
  (fs.scandir log.szDir).map fun namelist => namelist.map fun name =>
    { dName := name.val
      isDir := fs.isExistDir (log.pathName name.val)
      bMatch := matchingString brackets name.val (log.szFileName ++ bytes "*.log")
      noSlash := name.property.2 }

/-- `LogData::Init` in a new process. -/
def initLog (makes : Bool) (args : InitArguments) : Except LogFault (Int × LogData) :=
  LogData.new.init args.pDir args.pFileName args.iMinFiles args.iMaxFiles args.iReserveMBytes
    (fs.testDir makes args.pDir) (fs.rent brackets args.names)

end FileSystem

/-- A run behind `Init` opened the file of a second under a name. -/
def Created (brackets : Brackets) (args : InitArguments) (t : Tm) (name : Bytes) : Prop :=
  ∃ (fs : FileSystem) (makes : Bool) (iRet : Int) (start last : LogData) (localtime : Int → Tm)
    (trace : List (LogEvent × LogAnswer)) (nowtime : Int),
    fs.initLog brackets makes args = .ok (iRet, start) ∧
    (logMachine localtime start).Run start trace last ∧
      nowtime ∈ openings trace ∧ t = localtime nowtime ∧ name = start.newName t

/-- The search ends without a fault. -/
def Searchable (log : LogData) (rent : Option (List DirEntry)) : Prop :=
  (∀ entry ∈ rent.getD [], (log.pathName entry.dName).length < 260) ∧
    (foundNames rent).length < 2 ^ 31

/-! ## The files of a run -/

namespace LogData

variable {log next start last : LogData} {localtime : Int → Tm}

/-- A call keeps the names and whether the log is in use. -/
theorem step_frame {event : LogEvent} {answer : LogAnswer}
    (taken : (logMachine localtime start).Steps log event answer next) :
    next.bInit = log.bInit ∧ next.szDir = log.szDir ∧ next.szFileName = log.szFileName := by
  obtain ⟨cleaned, switched, log', isCleaned, isSwitched, -, iLogSize, rfl⟩ := step_ok taken
  have frame : cleaned.bInit = log.bInit ∧ cleaned.szDir = log.szDir ∧
      cleaned.szFileName = log.szFileName := by
    rw [(cleanFile_ok isCleaned).2]
    exact ⟨rfl, rfl, rfl⟩
  rcases switchNewFile_ok isSwitched with ⟨rfl | rfl, -⟩ | ⟨-, rfl⟩
  · exact frame
  · obtain ⟨fileFD, closed⟩ := closeFile_eq cleaned
    rw [closed]
    exact frame
  · exact frame

/-- A file that is opened has a name that fits its buffer. -/
theorem newName_fits {t : Tm} {opens switched : Bool}
    (ran : log.switchNewFile t opens = .ok (switched, next))
    (opened : (log.bInit && opens && log.closeFile.fileFD.isNone) = true) :
    (log.newName t).length < 128 := by
  simp only [Bool.and_eq_true] at opened
  obtain ⟨fileFD, closed⟩ := closeFile_eq log
  have same : log.closeFile.newName t = log.newName t := by rw [closed]; rfl
  rw [switchNewFile, if_neg (by simp [opened.1.1]), openFile,
    if_neg (by simp [Option.isNone_iff_eq_none.mp opened.2]), same] at ran
  by_contra long
  rw [if_pos (Nat.le_of_not_lt long)] at ran
  cases ran

/-- The log of a run that opens a file is in use, and the name of the file fits its buffer. -/
theorem opening_fits {trace : List (LogEvent × LogAnswer)}
    (ran : (logMachine localtime start).Run log trace last) {nowtime : Int}
    (opened : nowtime ∈ openings trace) :
    log.bInit = true ∧ (log.newName (localtime nowtime)).length < 128 := by
  induction ran with
  | nil log => exact absurd opened List.not_mem_nil
  | @cons log next last event answer trace first rest ih =>
    rw [← List.singleton_append, openings_append, List.mem_append] at opened
    obtain now | later := opened
    · obtain ⟨cleaned, switched, log', isCleaned, isSwitched, rfl, -⟩ := step_ok first
      have opens : log.opensFile event = true ∧ event.nowtime = nowtime := by
        obtain ⟨entry, listed, isOpening⟩ := List.mem_filterMap.mp now
        rw [List.mem_singleton.mp listed, Option.ite_none_right_eq_some, Option.some.injEq]
          at isOpening
        exact isOpening
      have opened := (opensFile_cleaned isCleaned).trans opens.1
      have fits := newName_fits isSwitched opened
      rw [(cleanFile_ok isCleaned).2] at opened fits
      rw [← opens.2]
      exact ⟨(Bool.and_eq_true _ _ ▸ (Bool.and_eq_true _ _ ▸ opened).1).1, fits⟩
    · obtain ⟨used, dir, name⟩ := step_frame first
      have later := ih later
      rw [used, newName, baseName, dir, name] at later
      exact later

end LogData

/-- A file that a run opened: the directory has a name, and the path is short. -/
theorem Created.name_eq {brackets : Brackets} {args : InitArguments} {t : Tm} {name : Bytes}
    (created : Created brackets args t name) :
    args.pDir.isSome = true ∧ args.names.szDir ≠ [] ∧ name = args.names.newName t ∧
      name.length < 128 := by
  obtain ⟨fs, makes, iRet, start, last, localtime, trace, nowtime, inited, ran, opened, rfl, rfl⟩ :=
    created
  obtain ⟨used, fits⟩ := LogData.opening_fits ran opened
  obtain ⟨log, rfl, -, -, -, -, -, -, szDir, szFileName, inUse⟩ := LogData.init_ok inited
  have same :
    (log.listing (LogData.initNames (fs.testDir makes args.pDir)
      (fs.rent brackets args.names))).newName
      (localtime nowtime) = args.names.newName (localtime nowtime) := by
    rw [LogData.newName, LogData.newName, LogData.baseName, LogData.baseName, LogData.listing,
      szDir, szFileName]
    rfl
  have tested := inUse.mp used
  cases isDir : args.pDir with
  | none =>
    rw [isDir] at tested
    exact absurd rfl tested
  | some dir =>
    refine ⟨rfl, ?_, same, fits⟩
    intro none
    obtain rfl : dir = [] := by rw [← none, InitArguments.names, isDir, Option.getD_some]
    rw [isDir] at tested
    have absent : ¬fs.isExistDir [] = true := by
      intro found
      cases found
    apply tested
    rw [FileSystem.testDir, if_neg absent, if_neg (by simp)]

/-- The names that `Init` copied, where a file was opened. -/
structure FittingNames (args : InitArguments) : Prop where
  dir : args.names.szDir.length < 260
  search : (args.names.szFileName ++ bytes "*.log").length < 128

/-- `Init` does not stop at them. -/
theorem FittingNames.not_long {args : InitArguments} (fitting : FittingNames args) :
    ¬(260 ≤ (args.pDir.getD LogData.new.szDir).length ∨
      128 ≤ (args.pFileName.getD LogData.new.szFileName).length) := by
  have search := fitting.search
  rw [List.length_append] at search
  have nameFits : args.names.szFileName.length < 128 := by omega
  exact not_or.mpr ⟨Nat.not_le_of_lt fitting.dir, Nat.not_le_of_lt nameFits⟩

/-- Names for which a file was opened fit. -/
theorem fittingNames_of_newName {args : InitArguments} {t : Tm}
    (fits : (args.names.newName t).length < 128) : FittingNames args := by
  have ends : (bytes "*.log").length = 5 ∧ (bytes ".log").length = 4 ∧ (bytes "/").length = 1 := by
    decide
  rw [LogData.newName, LogData.baseName, List.length_append, List.length_append, List.length_append,
    List.length_append] at fits
  refine ⟨by omega, ?_⟩
  rw [List.length_append]
  omega

/-- A log as `Init` leaves it in an empty directory. -/
structure Untouched (log : LogData) : Prop where
  used : log.bInit = true
  closed : log.fileFD = none
  none : log.iFileCount = 0
  size : log.iLogSize ≤ log.fileBytesLimit
  tick : log.lCleanTick = 0

/-- The first call opens a file. -/
theorem Untouched.opens {log : LogData} (untouched : Untouched log) {t : Tm}
    (fits : (log.newName t).length < 128) :
    ∃ next, (logMachine (fun _ => t) log).Steps log ⟨0, 0, 0, [], 0, true⟩ ⟨true, true⟩ next := by
  obtain ⟨used, closed, none, size, tick⟩ := untouched
  have stays : log.closeFile = log := if_neg (Int.not_lt.mpr size)
  have cleaned : log.cleanFile ⟨0, 0, 0, [], 0, true⟩ = .ok log := if_neg (by rw [tick]; decide)
  have opened : log.opensFile ⟨0, 0, 0, [], 0, true⟩ = true := by
    rw [LogData.opensFile, stays, used, closed]
    rfl
  obtain ⟨next, switched⟩ : ∃ next, log.switchNewFile t true = .ok (true, next) := by
    rw [LogData.switchNewFile, used, if_neg (by decide), stays, LogData.openFile, closed,
      if_neg (by decide), if_neg (Nat.not_le_of_lt fits), if_pos rfl, LogData.push,
      if_pos (by rw [none]; decide)]
    exact ⟨_, rfl⟩
  have written : log.writeLog (fun _ => t) ⟨0, 0, 0, [], 0, true⟩ =
      .ok (true, { next with iLogSize := toInt (next.iLogSize + 0) }) :=
    bind_eq_ok.mpr ⟨log, cleaned, bind_eq_ok.mpr ⟨_, switched, rfl⟩⟩
  refine ⟨{ next with iLogSize := toInt (next.iLogSize + 0) }, rfl, bind_eq_ok.mpr ⟨_, written, ?_⟩⟩
  rw [opened]
  rfl

/-- `Init` ends without a fault where there are no files. -/
theorem InitArguments.init_empty {args : InitArguments} (fitting : FittingNames args)
    {test : DirTest} (tested : test ≠ .failed) {rent : Option (List DirEntry)}
    (empty : rent.getD [] = []) :
    ∃ start, LogData.new.init args.pDir args.pFileName args.iMinFiles args.iMaxFiles
      args.iReserveMBytes test rent =
      .ok (0, start) ∧ Untouched start ∧ start.newName = args.names.newName := by
  have search (log : LogData) (isName : log.szFileName = args.names.szFileName) :
      log.serarchLogsByDir rent = .ok log := by
    cases rent with
    | none => rfl
    | some namelist =>
      rw [Option.getD_some] at empty
      rw [empty, LogData.serarchLogsByDir, isName, if_neg (Nat.not_le_of_lt fitting.search)]
      rfl
  have small : LogData.new.iLogSize ≤ LogData.new.fileBytesLimit := by decide
  unfold LogData.init
  dsimp only
  rw [if_neg fitting.not_long]
  cases test with
  | found => exact ⟨_, bind_eq_ok.mpr ⟨_, search _ rfl, rfl⟩, ⟨rfl, rfl, rfl, small, rfl⟩, rfl⟩
  | created => exact ⟨_, rfl, ⟨rfl, rfl, rfl, small, rfl⟩, rfl⟩
  | failed => exact absurd rfl tested

/-- Every directory with a name and every prefix, if they are short, are those of a log file. -/
theorem created_iff {brackets : Brackets} {args : InitArguments} {t : Tm} {name : Bytes} :
    Created brackets args t name ↔
      args.pDir.isSome = true ∧ args.names.szDir ≠ [] ∧ name = args.names.newName t ∧
      name.length < 128 := by
  refine ⟨Created.name_eq, ?_⟩
  rintro ⟨named, some, rfl, fits⟩
  obtain ⟨dir, isDir⟩ := Option.isSome_iff_exists.mp named
  have isName : args.names.szDir = dir := by rw [InitArguments.names, isDir, Option.getD_some]
  -- a system without files
  let fs : FileSystem := ⟨0, 0, fun _ => []⟩
  have tested : fs.testDir true args.pDir ≠ .failed := by
    rw [isDir, FileSystem.testDir]
    split_ifs with isFound makes
    · decide
    · decide
    · exact absurd (isName ▸ some) (by simpa using makes)
  have empty : (fs.rent brackets args.names).getD [] = [] := by
    rw [FileSystem.rent, FileSystem.scandir]
    cases (fs.node args.names.szDir).bind Node.ino? with
    | none => rfl
    | some ino => rfl
  obtain ⟨start, inited, untouched, same⟩ :=
    InitArguments.init_empty (fittingNames_of_newName fits) tested empty
  rw [← same] at fits ⊢
  obtain ⟨next, opened⟩ := untouched.opens fits
  have ran := Machine.Run.cons opened (.nil next)
  exact ⟨fs, true, 0, start, next, fun _ => t, _, 0, inited, ran, List.mem_singleton_self 0,
    rfl, rfl⟩

/-! ## The search -/

namespace LogData

variable {log : LogData}

/-- The loop of the search ends without a fault when all paths fit their buffer and the count is a
number. -/
theorem foldlM_searchEntry_ok_iff (namelist : List DirEntry) (count : log.iFileCount < 2 ^ 31) :
    (∃ next, namelist.foldlM searchEntry log = .ok next) ↔
      (∀ entry ∈ namelist, (log.pathName entry.dName).length < 260) ∧
        log.iFileCount + (foundNames (some namelist)).length < 2 ^ 31 := by
  induction namelist generalizing log with
  | nil =>
    rw [foundNames, Option.getD_some, List.filter_nil, List.map_nil, List.length_nil]
    exact iff_of_true ⟨log, rfl⟩ ⟨fun entry listed => absurd listed List.not_mem_nil, by omega⟩
  | cons entry namelist ih =>
    rw [List.foldlM_cons, List.forall_mem_cons]
    by_cases fits : (log.pathName entry.dName).length < 260
    · by_cases found : (!entry.isDir && entry.bMatch) = true
      · have names : foundNames (some (entry :: namelist)) =
            entry.dName :: foundNames (some namelist) := by
          simp only [foundNames, Option.getD_some, List.filter_cons, found, ↓reduceIte,
            List.map_cons]
        have isPush : log.searchEntry entry = log.push (log.pathName entry.dName) := by
          rw [searchEntry, if_neg (Nat.not_le_of_lt fits), if_pos found]
        rw [names, List.length_cons, isPush, push]
        by_cases room : log.iFileCount + 1 < 2 ^ 31
        · rw [if_pos room]
          refine (ih room).trans (and_congr (and_iff_right fits).symm ?_)
          dsimp only
          omega
        · rw [if_neg room]
          apply iff_of_false
          · rintro ⟨next, ran⟩
            cases ran
          · intro small
            omega
      · have names : foundNames (some (entry :: namelist)) = foundNames (some namelist) := by
          simp only [foundNames, Option.getD_some, List.filter_cons, found, ↓reduceIte,
            Bool.false_eq_true]
        have passed : log.searchEntry entry = .ok log := by
          rw [searchEntry, if_neg (Nat.not_le_of_lt fits), if_neg found]
        rw [names, passed]
        exact (ih count).trans (and_congr_left' (and_iff_right fits).symm)
    · have failed : log.searchEntry entry = .error .bufferOverflow := if_pos (Nat.le_of_not_lt fits)
      rw [failed]
      apply iff_of_false
      · rintro ⟨next, ran⟩
        cases ran
      · intro short
        exact fits short.1.1

end LogData

namespace InitArguments

variable {args : InitArguments} {namelist : List DirEntry}

/-- What `Init` enters when it finds the directory. -/
theorem fileList_init {rent : Option (List DirEntry)} {iRet : Int} {start : LogData}
    (inited : LogData.new.init args.pDir args.pFileName args.iMinFiles args.iMaxFiles
      args.iReserveMBytes .found rent =
      .ok (iRet, start)) : start.fileList = (foundNames rent).map args.names.pathName := by
  obtain ⟨log, rfl, -, -, none, -, -, -, szDir, -⟩ := LogData.init_ok inited
  have paths : log.pathName = args.names.pathName := by
    funext dName
    rw [LogData.pathName, LogData.pathName, szDir]
    rfl
  rw [LogData.listing, none, paths, LogData.initNames, if_pos rfl, List.nil_append]

/-- `Init` ends without a fault when the search does. -/
theorem init_ok_iff (fitting : FittingNames args) :
    (∃ iRet start, LogData.new.init args.pDir args.pFileName args.iMinFiles args.iMaxFiles
      args.iReserveMBytes .found
      (some namelist) = .ok (iRet, start)) ↔ Searchable args.names (some namelist) := by
  have search (log : LogData) (paths : log.pathName = args.names.pathName)
      (isName : log.szFileName = args.names.szFileName) (none : log.iFileCount = 0) :
      (∃ iRet start, (do
        let log ← log.serarchLogsByDir (some namelist)
        return ((0 : Int), log)) = .ok (iRet, start)) ↔ Searchable args.names (some namelist) := by
    have loop := log.foldlM_searchEntry_ok_iff namelist (by omega)
    have whole : log.serarchLogsByDir (some namelist) =
        namelist.foldlM LogData.searchEntry log := by
      rw [LogData.serarchLogsByDir, isName, if_neg (Nat.not_le_of_lt fitting.search)]
    have counted : log.iFileCount + ((foundNames (some namelist)).length : Int) < 2 ^ 31 ↔
        (foundNames (some namelist)).length < 2 ^ 31 := by omega
    rw [counted, paths] at loop
    rw [Searchable, Option.getD_some, ← loop, whole]
    constructor
    · rintro ⟨iRet, start, ran⟩
      obtain ⟨next, ran, -⟩ := bind_eq_ok.mp ran
      exact ⟨next, ran⟩
    · rintro ⟨next, ran⟩
      exact ⟨0, next, bind_eq_ok.mpr ⟨next, ran, rfl⟩⟩
  unfold LogData.init
  dsimp only
  rw [if_neg fitting.not_long]
  exact search _ rfl rfl rfl

end InitArguments

/-! ## Paths -/

/-- Stamps are digits. -/
theorem Tm.isDigit_of_mem_stamp {t : Tm} {c : UInt8} (printed : c ∈ t.stamp) : IsDigit c := by
  simp only [stamp, List.mem_append] at printed
  rcases printed with ((((year | mon) | mday) | hour) | min) | sec
  all_goals exact isDigit_of_mem_padded ‹_›

namespace LogData

variable {log : LogData} {dName : Bytes}

/-- The path of an entry has one component more than the directory, with a slash behind the
directory or without. -/
theorem components_pathName (some : dName ≠ []) (noSlash : 47 ∉ dName) :
    components (log.pathName dName) = components log.szDir ++ [dName] := by
  have slash : bytes "/" = [47] := by decide
  rw [pathName, slash]
  split_ifs with ends
  · obtain ⟨front, isDir⟩ := List.getLast?_eq_some_iff.mp ends
    rw [isDir, List.append_nil, List.append_assoc, List.singleton_append, components_slash,
      components_slash, components_nil, List.append_nil, components_name some noSlash]
  · rw [List.append_assoc, List.singleton_append, components_slash, components_name some noSlash]

/-- The path of an entry starts with the directory. -/
theorem pathName_starts : log.szDir <+: log.pathName dName := by
  rw [pathName, List.append_assoc]
  exact List.prefix_append _ _

/-- The components of the path of a new file. -/
theorem components_newName (t : Tm) :
    components (log.newName t) = components log.szDir ++
      (components (dirPart log.szFileName) ++
        [namePart log.szFileName ++ (t.stamp ++ bytes ".log")]) := by
  have slash : bytes "/" = [47] := by decide
  have some : t.stamp ++ bytes ".log" ≠ [] := by simp [bytes]
  have noSlash : 47 ∉ t.stamp ++ bytes ".log" := by
    rw [List.mem_append, not_or]
    exact ⟨fun digit => absurd (Tm.isDigit_of_mem_stamp digit) (by decide), by decide⟩
  rw [newName, baseName, slash, List.append_assoc, List.singleton_append, components_slash,
    List.append_assoc, components_append_name _ some noSlash]

end LogData

namespace FileSystem

variable {fs : FileSystem} {brackets : Brackets} {log : LogData} {logDir : Nat}

/-- A directory that is found has a name. -/
theorem ne_nil_of_node {path : Bytes} {node : Node} (found : fs.node path = some node) :
    path ≠ [] := by
  rintro rfl
  cases found

/-- Where the path of an entry of the log directory leads. -/
theorem node_pathName (found : fs.node log.szDir = some (.dir logDir)) {dName : Bytes}
    (some : dName ≠ []) (noSlash : 47 ∉ dName) :
    fs.node (log.pathName dName) = fs.lookup logDir dName := by
  rw [node_below (ne_nil_of_node found) log.pathName_starts (log.components_pathName some noSlash),
    found]
  exact bind_pure _

/-- The place of an entry of the log directory. -/
theorem place_pathName (found : fs.node log.szDir = some (.dir logDir)) {dName : Bytes}
    (some : dName ≠ []) (noSlash : 47 ∉ dName) :
    fs.place (log.pathName dName) = .some (logDir, dName) := by
  have parts : components (log.pathName dName) = components log.szDir ++ ([] ++ [dName]) :=
    log.components_pathName some noSlash
  rw [place_below (ne_nil_of_node found) log.pathName_starts parts]
  exact ⟨_, found, rfl, rfl⟩

/-- The names that are found are those of entries. -/
theorem place_of_mem_foundNames (found : fs.node log.szDir = some (.dir logDir)) {dName : Bytes}
    (listed : dName ∈ foundNames (fs.rent brackets log)) :
    fs.place (log.pathName dName) = some (logDir, dName) ∧
      matchingString brackets dName (log.szFileName ++ bytes "*.log") = true := by
  rw [foundNames, rent, scandir, found] at listed
  obtain ⟨entry, inRent, rfl⟩ := List.mem_map.mp listed
  obtain ⟨inRent, isFound⟩ := List.mem_filter.mp inRent
  obtain ⟨name, -, rfl⟩ := List.mem_map.mp inRent
  exact ⟨place_pathName found name.property.1 name.property.2, (Bool.and_eq_true _ _ ▸ isFound).2⟩

/-- A file of the log directory is found when its name matches. -/
theorem mem_foundNames (found : fs.node log.szDir = some (.dir logDir)) {dName : Bytes}
    (isFile : fs.lookup logDir dName = some .file) (notDots : dName ≠ bytes "..")
    (isMatch : matchingString brackets dName (log.szFileName ++ bytes "*.log") = true) :
    dName ∈ foundNames (fs.rent brackets log) := by
  have notDot : dName ≠ bytes "." := by
    rintro rfl
    rw [lookup, if_pos rfl] at isFile
    cases isFile
  have isEntry := isFile
  rw [lookup, if_neg notDot, Option.map_eq_some_iff] at isEntry
  obtain ⟨⟨name, node⟩, inEntries, -⟩ := isEntry
  have isName := List.find?_some inEntries
  obtain rfl : name.val = dName := of_decide_eq_true isName
  have notDir : fs.isExistDir (log.pathName name.val) = false := by
    rw [isExistDir, node_pathName found name.property.1 name.property.2, isFile]
  have listed : name ∈ ((fs.entries logDir).map Prod.fst).filter fun name =>
      name.val ≠ bytes "." ∧ name.val ≠ bytes ".." :=
    List.mem_filter.mpr ⟨List.mem_map_of_mem (List.mem_of_find?_eq_some inEntries),
      decide_eq_true ⟨notDot, notDots⟩⟩
  rw [foundNames, rent, scandir, found]
  refine List.mem_map.mpr ⟨_, List.mem_filter.mpr ⟨List.mem_map_of_mem listed, ?_⟩, rfl⟩
  dsimp only
  rw [notDir, isMatch]
  rfl

end FileSystem

/-! ## The next run -/

namespace FileSystem

variable {fs : FileSystem} {brackets : Brackets} {makes : Bool} {args : InitArguments}
  {logDir : Nat}

/-- `Init` searches a directory that is found. -/
theorem initLog_eq (named : args.pDir.isSome = true)
    (found : fs.node args.names.szDir = some (.dir logDir)) :
    fs.initLog brackets makes args =
      LogData.new.init args.pDir args.pFileName args.iMinFiles args.iMaxFiles
      args.iReserveMBytes .found (fs.rent brackets args.names) := by
  obtain ⟨dir, isDir⟩ := Option.isSome_iff_exists.mp named
  have tested : fs.testDir makes args.pDir = .found := by
    rw [InitArguments.names, isDir, Option.getD_some] at found
    rw [isDir, testDir, isExistDir, found]
    rfl
  rw [initLog, tested]

/-- It enters the paths of the files that it finds. -/
theorem fileList_initLog (named : args.pDir.isSome = true)
    (found : fs.node args.names.szDir = some (.dir logDir)) {iRet : Int} {start : LogData}
    (inited : fs.initLog brackets makes args = .ok (iRet, start)) :
    start.fileList = (foundNames (fs.rent brackets args.names)).map args.names.pathName := by
  rw [initLog_eq named found] at inited
  exact InitArguments.fileList_init inited

/-- It ends without a fault when the search does. -/
theorem initLog_ok_iff (named : args.pDir.isSome = true)
    (found : fs.node args.names.szDir = some (.dir logDir)) (fitting : FittingNames args) :
    (∃ iRet start, fs.initLog brackets makes args = .ok (iRet, start)) ↔
      Searchable args.names (fs.rent brackets args.names) := by
  obtain ⟨namelist, isRent⟩ : ∃ namelist, fs.rent brackets args.names = some namelist := by
    rw [rent, scandir, found]
    exact ⟨_, rfl⟩
  rw [initLog_eq named found, isRent]
  exact InitArguments.init_ok_iff fitting

end FileSystem

/-- Whatever the directory, the prefix and the other arguments are: a file that a run opened, and
that is there when the next run starts, is found by it exactly when the search ends without a fault,
the prefix up to its last slash leads from the log directory back to it, and the name behind the
last slash matches the pattern of the search. -/
theorem restart_finds_iff {brackets : Brackets} {args : InitArguments} {t : Tm} {name : Bytes}
    (created : Created brackets args t name) {fs : FileSystem} (present : fs.HasFile name)
    (makes : Bool) :
    (∃ iRet start, fs.initLog brackets makes args = .ok (iRet, start) ∧
      ∃ path ∈ start.fileList, fs.place path = fs.place name) ↔
      Searchable args.names (fs.rent brackets args.names) ∧
        (∃ logDir, fs.node args.names.szDir = some (.dir logDir) ∧
          fs.walk (.dir logDir) (components (dirPart args.names.szFileName)) = some (.dir logDir)) ∧
        matchingString brackets (namePart args.names.szFileName ++ (t.stamp ++ bytes ".log"))
          (args.names.szFileName ++ bytes "*.log") = true := by
  obtain ⟨named, some, rfl, fits⟩ := created.name_eq
  obtain ⟨ino, last, isPlace, isFile⟩ := present
  -- The path of the file goes through the log directory.
  have starts : args.names.szDir <+: args.names.newName t := by
    rw [LogData.newName, List.append_assoc]
    exact List.prefix_append _ _
  have below := isPlace
  rw [FileSystem.place_below some starts (LogData.components_newName t)] at below
  obtain ⟨node, found, walked, rfl⟩ := below
  obtain ⟨logDir, rfl⟩ := FileSystem.walk_dir walked
  have ended :=
    @FileSystem.initLog_ok_iff fs brackets makes args logDir named found
      (fittingNames_of_newName fits)
  constructor
  · rintro ⟨iRet, start, inited, path, listed, samePlace⟩
    rw [FileSystem.fileList_initLog named found inited] at listed
    obtain ⟨dName, isFound, rfl⟩ := List.mem_map.mp listed
    obtain ⟨place, isMatch⟩ := FileSystem.place_of_mem_foundNames found isFound
    rw [place, isPlace, Option.some.injEq, Prod.mk.injEq] at samePlace
    obtain ⟨rfl, rfl⟩ := samePlace
    exact ⟨ended.mp ⟨iRet, start, inited⟩, ⟨logDir, found, walked⟩, isMatch⟩
  · rintro ⟨searchable, ⟨logDir', found', back⟩, isMatch⟩
    obtain rfl : logDir = logDir' := by
      rw [found, Option.some.injEq, Node.dir.injEq] at found'
      exact found'
    obtain rfl : ino = logDir := by
      rw [walked, Option.some.injEq, Node.dir.injEq] at back
      exact back
    have notDots : namePart args.names.szFileName ++ (t.stamp ++ bytes ".log") ≠ bytes ".." := by
      intro dots
      have short := congrArg List.length dots
      have ends : (bytes ".log").length = 4 ∧ (bytes "..").length = 2 := by decide
      rw [List.length_append, List.length_append] at short
      omega
    have isFound := FileSystem.mem_foundNames found isFile notDots isMatch
    obtain ⟨iRet, start, inited⟩ := ended.mpr searchable
    have listed := List.mem_map_of_mem (f := args.names.pathName) isFound
    rw [← FileSystem.fileList_initLog named found inited] at listed
    exact ⟨iRet, start, inited, _, listed,
      (FileSystem.place_of_mem_foundNames found isFound).1.trans isPlace.symm⟩

/-! ## Prefixes -/

section

variable (brackets : Brackets) {szFileName : Bytes} (noNull : 0 ∉ szFileName)
  (noBracket : 91 ∉ szFileName) (noBackslash : 92 ∉ szFileName) (t : Tm)

include noNull noBracket noBackslash

/-- The tokens of the pattern of the search. -/
theorem globTokens_search :
    globTokens brackets (cString (szFileName ++ bytes "*.log")) =
      (szFileName ++ bytes "*.log").map plainToken := by
  have absent {c : UInt8} (noName : c ∉ szFileName) (noEnd : c ∉ bytes "*.log") :
      c ∉ szFileName ++ bytes "*.log" := by
    rw [List.mem_append, not_or]
    exact ⟨noName, noEnd⟩
  rw [cString_eq_self.mpr (absent noNull (by decide)),
    globTokens_plain brackets (absent noBracket (by decide)) (absent noBackslash (by decide))]

/-- The names of files match a prefix without slashes, brackets and backslashes, and they are in the
log directory. -/
theorem matching_of_noSlash (noSlash : 47 ∉ szFileName) :
    (∀ (fs : FileSystem) logDir, fs.walk (.dir logDir) (components (dirPart szFileName)) =
      some (.dir logDir)) ∧
      matchingString brackets (namePart szFileName ++ (t.stamp ++ bytes ".log"))
        (szFileName ++ bytes "*.log") =
        true := by
  obtain ⟨noDir, isName⟩ := parts_of_noSlash noSlash
  have noNull' : 0 ∉ szFileName ++ (t.stamp ++ bytes ".log") := by
    rw [List.mem_append, List.mem_append, not_or, not_or]
    exact ⟨noNull, fun digit => absurd (Tm.isDigit_of_mem_stamp digit) (by decide), by decide⟩
  have ends : bytes "*.log" = 42 :: bytes ".log" := by decide
  rw [noDir, isName]
  refine ⟨fun fs logDir => rfl, ?_⟩
  rw [matchingString, fnmatch, globTokens_search brackets noNull noBracket noBackslash,
    cString_eq_self.mpr noNull', List.map_append, globMatch_append]
  refine ⟨szFileName, t.stamp ++ bytes ".log", rfl, globMatch_plain_self szFileName, ?_⟩
  rw [ends, List.map_cons]
  exact globMatch_star.mpr ⟨t.stamp, bytes ".log", rfl, globMatch_plain_self _⟩

/-- No name of a file matches a prefix with a slash, and without brackets and backslashes. -/
theorem not_matching_of_slash (slash : 47 ∈ szFileName) :
    matchingString brackets (namePart szFileName ++ (t.stamp ++ bytes ".log"))
      (szFileName ++ bytes "*.log") =
      false := by
  rw [Bool.eq_false_iff]
  intro isMatch
  rw [matchingString, fnmatch, globTokens_search brackets noNull noBracket noBackslash] at isMatch
  have asked : literal 47 ∈ (szFileName ++ bytes "*.log").map plainToken :=
    List.mem_map.mpr ⟨47, List.mem_append_left _ slash, rfl⟩
  have listed := (List.takeWhile_prefix _).subset (mem_of_globMatch asked isMatch)
  rw [List.mem_append, List.mem_append] at listed
  rcases listed with inName | inStamp | inEnd
  · exact slash_not_mem_namePart szFileName inName
  · exact absurd (Tm.isDigit_of_mem_stamp inStamp) (by decide)
  · exact absurd inEnd (by decide)

end

/-- The log of the server under its name alone. -/
def serverArguments : InitArguments :=
  ⟨some (bytes "./SealServerLog"), some (bytes "server_9000"), 10, 1000, 1024⟩

/-- The log as `main` starts it when the server was called with `./server`. -/
def mainArguments : InitArguments :=
  ⟨some (bytes "./SealServerLog"), some (bytes "./server_9000"), 10, 1000, 1024⟩

/-- The log directory with one file in it. -/
def serverSystem : FileSystem where
  root := 0
  cwd := 0
  entries
    | 0 => [(⟨bytes "SealServerLog", by decide⟩, .dir 1)]
    | 1 => [(⟨bytes "server_900020261117000010.log", by decide⟩, .file)]
    | _ => []

/-- A prefix without a slash. -/
theorem restart_finds_server :
    ∃ iRet start, serverSystem.initLog noBrackets false serverArguments = .ok (iRet, start) ∧
      ∃ path ∈ start.fileList,
        serverSystem.place path =
          serverSystem.place (serverArguments.names.newName (dayClock 10)) := by
  have created :
      Created noBrackets serverArguments (dayClock 10)
        (serverArguments.names.newName (dayClock 10)) :=
    created_iff.mpr ⟨rfl, by decide, rfl, by decide +kernel⟩
  have present : serverSystem.HasFile (serverArguments.names.newName (dayClock 10)) :=
    ⟨1, bytes "server_900020261117000010.log", by decide +kernel, by decide +kernel⟩
  obtain ⟨back, isMatch⟩ :=
    matching_of_noSlash noBrackets (show 0 ∉ serverArguments.names.szFileName by decide)
      (by decide) (by decide) (dayClock 10) (by decide)
  have searchable :
      Searchable serverArguments.names (serverSystem.rent noBrackets serverArguments.names) :=
    ⟨by decide +kernel, by decide +kernel⟩
  exact (restart_finds_iff created present false).mpr ⟨searchable, ⟨1, by decide +kernel, back _ _⟩,
    isMatch⟩

/-- The file that `main` has opened with its path in the prefix is in the log directory, and it is
not found. -/
theorem restart_loses_main_log :
    ∃ start,
      Created noBrackets mainArguments (dayClock 10) (mainArguments.names.newName (dayClock 10)) ∧
        serverSystem.HasFile (mainArguments.names.newName (dayClock 10)) ∧
        serverSystem.place (mainArguments.names.newName (dayClock 10)) =
          some (1, bytes "server_900020261117000010.log") ∧
        serverSystem.node mainArguments.names.szDir = some (.dir 1) ∧
        serverSystem.initLog noBrackets false mainArguments = .ok (0, start) ∧
        start.fileList = [] := by
  refine ⟨_, created_iff.mpr ⟨rfl, by decide, rfl, by decide +kernel⟩,
    ⟨1, bytes "server_900020261117000010.log", by decide +kernel, by decide +kernel⟩, by
      decide +kernel,
    by decide +kernel, rfl, ?_⟩
  decide +kernel

end NetServer
