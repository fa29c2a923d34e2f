import NetServer.Common.Split
import NetServer.Lib.Loop

/-!
# The configuration, `CConfiger`

The configuration is read line by line into a buffer of 128 bytes. A blank line, a line that is
only a carriage return and the end of the file look the same to `OnInit`, which takes the fifth
of them in a row for the end. Every other line is tried as a performance item first and as a
data source after that.
-/

namespace NetServer

open Lib

/-- `ConfigInfo`. -/
structure ConfigInfo where
  stAddress : Bytes
  stPort : Bytes
  stUsername : Bytes
  stPassword : Bytes
  stDbname : Bytes
  deriving DecidableEq, Repr

/-! ## Reading lines -/

/-- A `std::ifstream`: what is left to read, and whether no error and no end has been met. -/
structure Ifstream where
  rest : Bytes
  good : Bool
  deriving DecidableEq, Repr

namespace Ifstream

/-- `getline` into a zeroed array: up to `size - 1` bytes before a line end, which is taken too. The
end of the file and a line that does not fit end all reading. -/
def getline (ifs : Ifstream) (size : Nat) : Bytes × Ifstream :=
  if ifs.good then
    let line := ifs.rest.takeWhile (· != 10)
    if line.length < size then
      match ifs.rest.drop line.length with
      | [] => (line, ⟨[], false⟩)
      | _ :: rest => (line, ⟨rest, true⟩)
    else (line.take (size - 1), ⟨ifs.rest.drop (size - 1), false⟩)
  else ([], ifs)

/-- `CConfiger::ReadLine`: whether there was nothing in the line, and the line, which ends at the
first null and loses one carriage return at its end. -/
def readLine (ifs : Ifstream) : Bool × Bytes × Ifstream :=
  let (line, ifs) := ifs.getline 128
  let outString := line.takeWhile (· != 0)
  if outString = [] then (true, outString, ifs)
  else if outString = bytes "\r" then (true, [], ifs)
  else if outString.getLast? = some 13 then (false, outString.dropLast, ifs)
  else (false, outString, ifs)

/-- Reading never lengthens what is left, and a line that is not empty shortens it. -/
theorem getline_shorter {ifs ifs' : Ifstream} {size : Nat} {line : Bytes}
    (read : ifs.getline size = (line, ifs')) :
    ifs'.rest.length ≤ ifs.rest.length ∧ (line ≠ [] → ifs'.rest.length < ifs.rest.length) := by
  have front : (ifs.rest.takeWhile (· != 10)).length ≤ ifs.rest.length :=
    (List.takeWhile_prefix _).length_le
  unfold getline at read
  split at read
  · simp only at read
    split at read
    · split at read
      · cases read
        refine ⟨Nat.zero_le _, fun nonempty => ?_⟩
        have positive := List.length_pos_of_ne_nil nonempty
        simp only [List.length_nil]
        omega
      · rename_i behind
        cases read
        have total := congrArg List.length behind
        simp only [List.length_drop, List.length_cons] at total
        simp only
        omega
    · cases read
      refine ⟨by simp, fun nonempty => ?_⟩
      have positive := List.length_pos_of_ne_nil nonempty
      simp only [List.length_take, List.length_drop] at positive ⊢
      omega
  · cases read
    exact ⟨Nat.le_refl _, fun nonempty => absurd rfl nonempty⟩

/-- Reading a line never lengthens what is left, and a line with something in it shortens it. -/
theorem readLine_shorter {ifs ifs' : Ifstream} {isDone : Bool} {outStr : Bytes}
    (read : ifs.readLine = (isDone, outStr, ifs')) :
    ifs'.rest.length ≤ ifs.rest.length ∧ (isDone = false → ifs'.rest.length < ifs.rest.length) := by
  unfold readLine at read
  cases taken : ifs.getline 128 with
  | mk line after =>
    have shorter := getline_shorter taken
    rw [taken] at read
    simp only at read
    by_cases empty : line.takeWhile (· != 0) = []
    · rw [if_pos empty] at read
      cases read
      exact ⟨shorter.1, fun done => nomatch done⟩
    · have nonempty : line ≠ [] := by
        intro none
        rw [none] at empty
        exact empty rfl
      rw [if_neg empty] at read
      split at read
      · cases read
        exact ⟨shorter.1, fun _ => shorter.2 nonempty⟩
      · split at read <;> cases read <;> exact ⟨shorter.1, fun _ => shorter.2 nonempty⟩

end Ifstream

/-! ## The items -/

/-- The fields of `CConfiger`, under the source's names. The maps hold what the pointers in the
source lead to; nothing changes that after it is made. -/
structure Configer where
  configMysqlMap : Std.ExtTreeMap Int ConfigInfo
  configRedisMap : Std.ExtTreeMap Int ConfigInfo
  threads : Int
  isEnableRecord : Bool
  isEnablessl : Bool
  insertWait : Int
  insertCount : Int

namespace Configer

/-- The constructor `CConfiger::CConfiger`. -/
def new : Configer where
  configMysqlMap := ∅
  configRedisMap := ∅
  threads := 10
  isEnableRecord := false
  isEnablessl := false
  insertWait := 100
  insertCount := 100

/-- `CConfiger::PerformanceItem`: whether the line was one. -/
def performanceItem (configer : Configer) (str : Bytes) : Bool × Configer :=
  match find (bytes "=") str with
  | none => (false, configer)
  | some pos =>
    let header := str.take pos
    let value := str.drop (pos + 1)
    if header = bytes "threads" then (true, { configer with threads := atoi value })
    else if header = bytes "insert_max_count" then
      (true, { configer with insertCount := atoi value })
    else if header = bytes "insert_wait" then (true, { configer with insertWait := atoi value })
    else if header = bytes "enable_record" then
      (true, { configer with isEnableRecord := value = bytes "true" })
    else if header = bytes "enable_ssl" then
      (true, { configer with isEnablessl := value = bytes "true" })
    else (false, configer)

/-- `CConfiger::SplitString2`. -/
def splitString2 (s : Bytes) (splitchar : UInt8) : List Bytes := splitLoop s splitchar

/-- `CConfiger::SplitString`: a comment is one field, and the fields of a line stand behind its
first `=`. -/
def splitString (str : Bytes) : List Bytes :=
  if str.head? = some 35 then [bytes "#"]
  else
    match find (bytes "=") str with
    | some pos => splitString2 (str.drop (pos + 1)) 38
    | none => []

/-- `CConfiger::SourceDataItme`: whether the line was a comment or a data source. The first item of
a zone stays. -/
def sourceDataItme (configer : Configer) (str : Bytes) : Bool × Configer :=
  match splitString str with
  | [] => (false, configer)
  | kind :: fields =>
    if kind = bytes "#" then (true, configer)
    else if kind = bytes "mysql" then
      match fields with
      | zoneCode :: address :: port :: username :: password :: dbname :: _ =>
        (true, { configer with
                  configMysqlMap := configer.configMysqlMap.insertIfNew (atoi zoneCode)
                    ⟨address, port, username, password, dbname⟩ })
      | _ => (false, configer)
    else if kind = bytes "redis" then
      let iZoneCode := (fields[0]?.map atoi).getD (-1)
      (true, { configer with
                configRedisMap := configer.configRedisMap.insertIfNew iZoneCode
                  ⟨fields[1]?.getD [], fields[2]?.getD [], fields[3]?.getD [],
                    fields[4]?.getD [], []⟩ })
    else (false, configer)

/-- `CConfiger::ParaseLine`. -/
def paraseLine (configer : Configer) (str : Bytes) : Bool × Configer :=
  match configer.performanceItem str with
  | (true, configer) => (true, configer)
  | (false, configer) => configer.sourceDataItme str

/-! ## `OnInit` -/

/-- One pass of the loop of `CConfiger::OnInit`: the fields, the file and the number of blank lines
just read. -/
def initIteration (state : Configer × Ifstream × Nat) :
    Except Empty ((Configer × Ifstream × Nat) ⊕ (Bool × Configer)) :=
  let (configer, ifs, iCount) := state
  let (isDone, outStr, ifs) := ifs.readLine
  if outStr = [] ∧ isDone = true ∧ iCount < 4 then
    if iCount + 1 > 4 then .ok (.inr (true, configer)) else .ok (.inl (configer, ifs, iCount + 1))
  else if isDone = false ∧ outStr.head? ≠ some 13 then
    match configer.paraseLine outStr with
    | (true, configer) => .ok (.inl (configer, ifs, 0))
    | (false, configer) => .ok (.inr (false, configer))
  else if isDone then .ok (.inr (true, configer))
  else .ok (.inl (configer, ifs, iCount))

/-- What is left of the file, and of the blank lines that may follow each other. -/
def initSize (state : Configer × Ifstream × Nat) : Nat :=
  6 * state.2.1.rest.length + (5 - state.2.2)

/-- Every pass takes something from the file or counts a blank line. -/
theorem initIteration_shrinks (state next : Configer × Ifstream × Nat)
    (continued : initIteration state = .ok (.inl next)) : initSize next < initSize state := by
  obtain ⟨configer, ifs, iCount⟩ := state
  unfold initIteration at continued
  cases read : ifs.readLine with
  | mk isDone after =>
    obtain ⟨outStr, ifs'⟩ := after
    have shorter := Ifstream.readLine_shorter read
    simp only [read] at continued
    unfold initSize
    split at continued
    · rename_i blank
      split at continued
      · cases continued
      · cases continued
        simp only
        omega
    · split at continued
      · rename_i line
        have less := shorter.2 line.1
        split at continued
        · cases continued
          simp only
          omega
        · cases continued
      · split at continued
        · cases continued
        · rename_i more
          have less := shorter.2 (by simpa using more)
          cases continued
          simp only
          omega

/-- `CConfiger::OnInit` of a file with some contents, or of one that cannot be opened. -/
def onInit (configer : Configer) (file : Option Bytes) : Bool × Configer :=
  match file with
  | none => (false, configer)
  | some contents =>
    match loop initIteration initSize initIteration_shrinks (configer, ⟨contents, true⟩, 0) with
    | .ok result => result
    | .error never => nomatch never

/-! ## The getters -/

/-- `CConfiger::GetCfgThreads`. -/
def getCfgThreads (configer : Configer) : Int := configer.threads

/-- `CConfiger::GetEnableRecord`. -/
def getEnableRecord (configer : Configer) : Bool := configer.isEnableRecord

/-- `CConfiger::GetInsertWait`. -/
def getInsertWait (configer : Configer) : Int := configer.insertWait

/-- `CConfiger::GetInsertCount`. -/
def getInsertCount (configer : Configer) : Int := configer.insertCount

/-- `CConfiger::GetEnableSSL`. -/
def getEnableSSL (configer : Configer) : Bool := configer.isEnablessl

/-- `CConfiger::GetConfigInfo`: what becomes of `info`. -/
def getConfigInfo (configer : Configer) (iZoneCode : Int) (info : ConfigInfo) (isRedis : Bool) :
    ConfigInfo :=
  if isRedis then
    match configer.configRedisMap[iZoneCode]? with
    | some item => { item with stDbname := info.stDbname }
    | none => info
  else
    match configer.configMysqlMap[iZoneCode]? with
    | some item => item
    | none => info

/-- `CConfiger::GetConfigInfos`. -/
def getConfigInfos (configer : Configer) (isRedis : Bool) : Std.ExtTreeMap Int ConfigInfo :=
  if isRedis then
    configer.configRedisMap.toList.foldl
      (fun configs entry => configs.insertIfNew entry.1 { entry.2 with stDbname := [] }) ∅
  else configer.configMysqlMap.toList.foldl (fun configs entry =>
    configs.insertIfNew entry.1 entry.2) ∅

end Configer

end NetServer
