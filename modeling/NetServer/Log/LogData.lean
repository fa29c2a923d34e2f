import NetServer.Common.Printf
import NetServer.Lib.Loop
import NetServer.Lib.Machine

/-!
# The log files, `LogData`

`LogData` writes to one file at a time and opens a new one when the file has grown past a limit. It
keeps the names of its files in a queue with a count beside it, and `CleanFile_` deletes the oldest
ones from time to time. The clocks, the free space, the sizes of files, the listing of the directory
and the outcome of `fopen` are inputs.
-/

namespace NetServer

open Lib

/-- What ends a run of the log. -/
inductive LogFault where
  /-- `front` or `pop` of an empty queue. -/
  | emptyQueue
  /-- `m_iFileCount` leaves the range of `int`. -/
  | countOverflow
  /-- A name does not fit its buffer. -/
  | bufferOverflow
  deriving DecidableEq, Repr

/-! ## Local time -/

/-- `struct tm` of a moment since 1900. -/
structure Tm where
  tmYear : Nat
  tmMon : Nat
  tmMday : Nat
  tmHour : Nat
  tmMin : Nat
  tmSec : Nat
  mon_lt : tmMon < 12
  mday_le : tmMday ≤ 31
  hour_lt : tmHour < 24
  min_lt : tmMin < 60
  sec_le : tmSec ≤ 60
  deriving DecidableEq, Repr

/-- `%04d%02d%02d%02d%02d%02d` of the local time. -/
def Tm.stamp (t : Tm) : Bytes :=
  padded 4 (t.tmYear + 1900) ++ padded 2 (t.tmMon + 1) ++ padded 2 t.tmMday ++ padded 2 t.tmHour ++
    padded 2 t.tmMin ++ padded 2 t.tmSec

/-- Different seconds have different stamps. -/
theorem Tm.stamp_injective {t t' : Tm} (same : t.stamp = t'.stamp) : t = t' := by
  have two {number number' : Nat} (small : number < 100) (small' : number' < 100) :
      (padded 2 number).length = (padded 2 number').length := by
    rw [length_padded_two small, length_padded_two small']
  obtain ⟨same, sec⟩ :=
    List.append_inj' same (two (by have := t.sec_le; omega) (by have := t'.sec_le; omega))
  obtain ⟨same, min⟩ :=
    List.append_inj' same (two (by have := t.min_lt; omega) (by have := t'.min_lt; omega))
  obtain ⟨same, hour⟩ :=
    List.append_inj' same (two (by have := t.hour_lt; omega) (by have := t'.hour_lt; omega))
  obtain ⟨same, mday⟩ :=
    List.append_inj' same (two (by have := t.mday_le; omega) (by have := t'.mday_le; omega))
  obtain ⟨year, mon⟩ :=
    List.append_inj' same (two (by have := t.mon_lt; omega) (by have := t'.mon_lt; omega))
  have year := padded_injective year
  have mon := padded_injective mon
  cases t
  cases t'
  simp only [Nat.add_right_cancel_iff] at year mon
  simp only [Tm.mk.injEq]
  exact ⟨year, mon, padded_injective mday, padded_injective hour, padded_injective min,
    padded_injective sec⟩

/-- A clock that runs through one day. -/
def dayClock (nowtime : Int) : Tm where
  tmYear := 126
  tmMon := 10
  tmMday := 17
  tmHour := nowtime.toNat / 3600 % 24
  tmMin := nowtime.toNat / 60 % 60
  tmSec := nowtime.toNat % 60
  mon_lt := by decide
  mday_le := by decide
  hour_lt := Nat.mod_lt _ (by decide)
  min_lt := Nat.mod_lt _ (by decide)
  sec_le := Nat.le_of_lt (Nat.lt_of_lt_of_le (Nat.mod_lt _ (by decide)) (by decide))

/-! ## The data -/

/-- The fields of `LogData`; `fileFD` is the name of the file that is open. -/
structure LogData where
  bInit : Bool
  iMinFiles : Int
  iMaxFiles : Int
  iReserveByte : Int
  fileBytesLimit : Int
  szDir : Bytes
  szFileName : Bytes
  iLogSize : Int
  iFileCount : Int
  fileList : List Bytes
  fileFD : Option Bytes
  lCleanTick : Int
  deriving DecidableEq, Repr

/-- An entry of a directory, with what `IsExistDir` and `MatchingString` say of it. -/
structure DirEntry where
  dName : Bytes
  isDir : Bool
  bMatch : Bool
  noSlash : 47 ∉ dName
  deriving DecidableEq, Repr

/-- What `TestDir` finds. -/
inductive DirTest where
  | found
  | created
  | failed
  deriving DecidableEq, Repr

/-- What one call of `WriteLog` meets: the length of the text, the tick count, the free space, the
sizes of the files that are deleted for space, the clock and whether `fopen` succeeds. -/
structure LogEvent where
  iLen : Int
  ltNow : Int
  totalFreeBytes : Int
  sizes : List Int
  nowtime : Int
  opens : Bool
  deriving DecidableEq, Repr

namespace LogData

/-- The constructor `LogData::LogData`. -/
def new : LogData where
  bInit := true
  iMinFiles := 100
  iMaxFiles := 1000
  iReserveByte := 512
  fileBytesLimit := 524288
  szDir := bytes "./Log"
  szFileName := bytes "wlog"
  iLogSize := 0
  iFileCount := 0
  fileList := []
  fileFD := none
  lCleanTick := 0

variable (log : LogData)

/-- `m_iFileCount++; m_FileList.push(file)`. -/
def push (file : Bytes) : Except LogFault LogData :=
  if log.iFileCount + 1 < 2 ^ 31 then
    .ok { log with iFileCount := log.iFileCount + 1, fileList := log.fileList ++ [file] }
  else .error .countOverflow

/-- The name of an entry of the directory. -/
def pathName (dName : Bytes) : Bytes :=
  log.szDir ++ (if log.szDir.getLast? = some 47 then [] else bytes "/") ++ dName

/-- A pass of the loop of `LogData::SerarchLogsByDir`. -/
def searchEntry (entry : DirEntry) : Except LogFault LogData :=
  if 260 ≤ (log.pathName entry.dName).length then .error .bufferOverflow
  else if !entry.isDir && entry.bMatch then log.push (log.pathName entry.dName)
  else .ok log

/-- `LogData::SerarchLogsByDir`, where `scandir` may fail. -/
def serarchLogsByDir : Option (List DirEntry) → Except LogFault LogData
  | none => .ok log
  | some namelist =>
    if 128 ≤ (log.szFileName ++ bytes "*.log").length then .error .bufferOverflow
    else namelist.foldlM searchEntry log

/-- `LogData::Init`. -/
def init (pDir pFileName : Option Bytes) (iMinFiles iMaxFiles iReserveMBytes : Int) (test : DirTest)
    (rent : Option (List DirEntry)) : Except LogFault (Int × LogData) :=
  let szDir := pDir.getD log.szDir
  let szFileName := pFileName.getD log.szFileName
  if 260 ≤ szDir.length ∨ 128 ≤ szFileName.length then .error .bufferOverflow
  else
    let log := { log with
      szDir, iMinFiles, iMaxFiles, iReserveByte := toInt (iReserveMBytes * 1024 * 1024),
      szFileName }
    match test with
    | .found => do
      let log ← log.serarchLogsByDir rent
      return (0, log)
    | .created => return (0, log)
    | .failed => return (-1, { log with bInit := false })

/-! ## A call of `WriteLog` -/

/-- The last part of the name of a file of a second. -/
def baseName (t : Tm) : Bytes := log.szFileName ++ t.stamp ++ bytes ".log"

/-- The name that `SwitchNewFile` builds. -/
def newName (t : Tm) : Bytes := log.szDir ++ bytes "/" ++ log.baseName t

/-- The first part of `LogData::SwitchNewFile`: a file that has grown past the limit is closed. -/
def closeFile : LogData :=
  if log.iLogSize > log.fileBytesLimit then { log with fileFD := none } else log

/-- The second part of `LogData::SwitchNewFile`: a file is opened when none is open. -/
def openFile (t : Tm) (opens : Bool) : Except LogFault (Bool × LogData) :=
  if log.fileFD.isSome then .ok (true, log)
  else if 128 ≤ (log.newName t).length then .error .bufferOverflow
  else if opens then do
    let pushed ← log.push (log.newName t)
    return (true, { pushed with fileFD := some (log.newName t), iLogSize := 0 })
  else .ok (false, log)

/-- `LogData::SwitchNewFile`. -/
def switchNewFile (t : Tm) (opens : Bool) : Except LogFault (Bool × LogData) :=
  if !log.bInit then .ok (false, log) else log.closeFile.openFile t opens

/-- The first loop of `LogData::CleanFile_`, which does not look whether there is a file. -/
def cleanCount (iMinFiles iMaxFiles : Int) : Int → List Bytes → Except LogFault (Int × List Bytes)
  | iFileCount, [] =>
    if iFileCount ≥ iMaxFiles ∧ iFileCount > iMinFiles then
      .error .emptyQueue else .ok (iFileCount, [])
  | iFileCount, file :: fileList =>
    if iFileCount ≥ iMaxFiles ∧ iFileCount > iMinFiles then
      cleanCount iMinFiles iMaxFiles (iFileCount - 1) fileList
    else .ok (iFileCount, file :: fileList)

/-- The second loop of `LogData::CleanFile_`. -/
def cleanSpace (iMinFiles : Int) : Int → Int → List Bytes → List Int → Int × List Bytes
  | _, iFileCount, [], _ => (iFileCount, [])
  | lNeedClean, iFileCount, file :: fileList, sizes =>
    if iFileCount > iMinFiles then
      let iFileSize := sizes.headD 0
      if lNeedClean - iFileSize ≤ 0 then (iFileCount - 1, fileList)
      else cleanSpace iMinFiles (lNeedClean - iFileSize) (iFileCount - 1) fileList sizes.tail
    else (iFileCount, file :: fileList)

/-- `LogData::CleanFile_`. -/
def cleanFile (event : LogEvent) : Except LogFault LogData :=
  if event.ltNow - log.lCleanTick > 60000 then do
    let (iFileCount, fileList) ← cleanCount log.iMinFiles log.iMaxFiles log.iFileCount log.fileList
    let lNeedClean := log.iReserveByte - event.totalFreeBytes
    let (iFileCount, fileList) :=
      if lNeedClean > 0 then cleanSpace log.iMinFiles lNeedClean iFileCount fileList event.sizes
      else (iFileCount, fileList)
    return { log with iFileCount, fileList, lCleanTick := event.ltNow }
  else .ok log

/-- `LogData::WriteLog`. -/
def writeLog (localtime : Int → Tm) (event : LogEvent) : Except LogFault (Bool × LogData) := do
  let log ← log.cleanFile event
  let (switched, log) ← log.switchNewFile (localtime event.nowtime) event.opens
  if switched then return (true, { log with iLogSize := toInt (log.iLogSize + event.iLen) })
  else return (false, log)

/-- Whether a call opens a file. -/
def opensFile (event : LogEvent) : Bool := log.bInit && event.opens && log.closeFile.fileFD.isNone

end LogData

/-- What a call of `WriteLog` returns, and whether it opened a file. -/
structure LogAnswer where
  returns : Bool
  opened : Bool
  deriving DecidableEq, Repr

/-- All runs of calls of `WriteLog` behind `Init`. -/
def logMachine (localtime : Int → Tm) (start : LogData) :
    Machine LogData LogEvent LogAnswer LogFault where
  init := start
  enabled _ _ := true
  step log event := do
    let (returns, next) ← log.writeLog localtime event
    return (next, ⟨returns, log.opensFile event⟩)

end NetServer
