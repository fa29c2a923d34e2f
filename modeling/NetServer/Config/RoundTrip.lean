import NetServer.Config.Syntax

/-!
# A configuration file is read back

A file is a list of lines. `OnInit` of its text applies every line to the configuration in turn,
as long as no five blank lines follow each other. A file that lists every item of a configuration
once, in any order, therefore leaves exactly that configuration.
-/

namespace NetServer

open Lib Configer

/-! ## Reading a line of the file -/

namespace Ifstream

/-- The bytes of a line are no line feeds. -/
theorem ne_feed {line : Bytes} (clean : 10 ∉ line) : ∀ c ∈ line, (c != 10) = true :=
  fun _ inLine => bne_iff_ne.mpr (ne_of_mem_of_not_mem inLine clean)

/-- A line with a line feed is taken whole. -/
theorem getline_line {line : Bytes} (clean : 10 ∉ line) {size : Nat} (short : line.length < size)
    (rest : Bytes) : getline ⟨line ++ 10 :: rest, true⟩ size = (line, ⟨rest, true⟩) := by
  have front : (line ++ 10 :: rest).takeWhile (· != 10) = line := by
    rw [List.takeWhile_append_of_pos (ne_feed clean)]
    simp
  simp only [getline, ↓reduceIte, front, short, List.drop_left]

/-- A line at the end of the file is taken whole. -/
theorem getline_last {line : Bytes} (clean : 10 ∉ line) {size : Nat} (short : line.length < size) :
    getline ⟨line, true⟩ size = (line, ⟨[], false⟩) := by
  have front : line.takeWhile (· != 10) = line := List.takeWhile_eq_self_iff.mpr (ne_feed clean)
  simp only [getline, ↓reduceIte, front, short, List.drop_length]

variable {ifs ifs' : Ifstream} {cr : Bool}

/-- `ReadLine` of a blank line. -/
theorem readLine_blank (taken : ifs.getline 128 = (ConfigLine.body (.blank, cr), ifs')) :
    ifs.readLine = (true, [], ifs') := by
  unfold readLine
  rw [taken]
  cases cr <;> rfl

/-- `ReadLine` of a comment: it may be cut, but it stays a comment. -/
theorem readLine_comment {text : Bytes}
    (taken : ifs.getline 128 = (ConfigLine.body (.comment text, cr), ifs')) :
    ∃ str, str.head? = some 35 ∧ ifs.readLine = (false, str, ifs') := by
  have isComment : ∃ rest, (ConfigLine.body (.comment text, cr)).takeWhile (· != 0) = 35 :: rest :=
    ⟨_, rfl⟩
  obtain ⟨rest, outString⟩ := isComment
  have notReturn : (35 :: rest : Bytes) ≠ bytes "\r" := by
    intro same
    cases same
  unfold readLine
  rw [taken]
  simp only [outString, reduceCtorEq, notReturn, ↓reduceIte]
  split
  · rename_i ending
    cases rest with
    | nil => cases ending
    | cons c rest => exact ⟨_, rfl, rfl⟩
  · exact ⟨_, rfl, rfl⟩

/-- `ReadLine` of an item gives its text. -/
theorem readLine_readable {line : ConfigLine} (readable : line.Readable)
    (taken : ifs.getline 128 = (ConfigLine.body (line, cr), ifs')) :
    ifs.readLine = (false, line.text, ifs') := by
  have outString : (ConfigLine.body (line, cr)).takeWhile (· != 0) =
      ConfigLine.body (line, cr) := by
    rw [List.takeWhile_eq_self_iff]
    intro c inBody
    rcases List.mem_append.mp inBody with inText | inEnd
    · simpa using (readable.oneLine c inText).2.2
    · cases cr with
      | false => cases inEnd
      | true =>
        rw [if_pos rfl, List.mem_singleton] at inEnd
        subst inEnd
        decide
  have noReturn : 13 ∉ line.text := fun inText => (readable.oneLine 13 inText).1 rfl
  unfold readLine
  rw [taken]
  simp only [outString]
  cases cr with
  | false =>
    have isText : ConfigLine.body (line, false) = line.text := List.append_nil _
    have notReturn : line.text ≠ bytes "\r" := by
      intro same
      rw [same] at noReturn
      exact noReturn List.mem_cons_self
    have notLast : line.text.getLast? ≠ some 13 := fun last => noReturn (List.mem_of_getLast? last)
    simp only [isText, readable.nonempty, notReturn, notLast, ↓reduceIte]
  | true =>
    have isText : ConfigLine.body (line, true) = line.text ++ [13] := rfl
    have nonempty : line.text ++ [13] ≠ [] := by simp
    have notReturn : line.text ++ [13] ≠ bytes "\r" := by
      intro same
      have length := congrArg List.length same
      have positive := List.length_pos_of_ne_nil readable.nonempty
      have single : (bytes "\r").length = 1 := rfl
      rw [single, List.length_append, List.length_singleton] at length
      omega
    simp only [isText, nonempty, notReturn, List.getLast?_concat, List.dropLast_concat, ↓reduceIte]

/-- `ReadLine` behind the end of the file. -/
theorem readLine_bad (rest : Bytes) : readLine ⟨rest, false⟩ = (true, [], ⟨rest, false⟩) := rfl

end Ifstream

/-! ## The loop over the lines -/

section

variable {configer : Configer} {ifs ifs' : Ifstream} {iCount : Nat}

/-- A blank line is counted. -/
theorem initIteration_blank (read : ifs.readLine = (true, [], ifs')) (few : iCount < 4) :
    initIteration (configer, ifs, iCount) = .ok (.inl (configer, ifs', iCount + 1)) := by
  have notMore : ¬iCount + 1 > 4 := by omega
  simp only [initIteration, read, few, notMore, and_self, ↓reduceIte]

/-- The fifth blank line ends the loop. -/
theorem initIteration_done (read : ifs.readLine = (true, [], ifs')) (many : ¬iCount < 4) :
    initIteration (configer, ifs, iCount) = .ok (.inr (true, configer)) := by
  simp [initIteration, read, many]

/-- A line that is not blank is parsed. -/
theorem initIteration_line {str : Bytes} {parsed : Configer}
    (read : ifs.readLine = (false, str, ifs')) (first : str.head? ≠ some 13)
    (accepted : configer.paraseLine str = (true, parsed)) :
    initIteration (configer, ifs, iCount) = .ok (.inl (parsed, ifs', 0)) := by
  simp [initIteration, read, first, accepted]

/-- One pass takes a line of the file and applies it. -/
theorem initIteration_apply {line : ConfigLine × Bool} (valid : line.1.Valid)
    (short : (ConfigLine.body line).length < 128)
    (taken : ifs.getline 128 = (ConfigLine.body line, ifs')) (few : line.1 = .blank → iCount < 4) :
    initIteration (configer, ifs, iCount) =
      .ok (.inl (line.1.apply configer, ifs', if line.1 = .blank then iCount + 1 else 0)) := by
  obtain ⟨line, cr⟩ := line
  rcases valid.cases with isBlank | ⟨text, isComment, -⟩ | readable
  · have isBlank : line = .blank := isBlank
    subst isBlank
    rw [if_pos rfl]
    exact initIteration_blank (Ifstream.readLine_blank taken) (few rfl)
  · have isComment : line = .comment text := isComment
    subst isComment
    obtain ⟨str, isComment, read⟩ := Ifstream.readLine_comment taken
    refine initIteration_line read ?_ (paraseLine_comment configer isComment)
    rw [isComment]
    decide
  · have nonblank : line ≠ .blank := by
      intro isBlank
      subst isBlank
      exact readable.nonempty rfl
    rw [if_neg nonblank]
    have small : line.text.length < 2 ^ 31 := by
      change (line.text ++ _).length < 128 at short
      rw [List.length_append] at short
      omega
    refine initIteration_line (Ifstream.readLine_readable readable taken) ?_
      (readable.parsed small configer)
    exact fun isReturn => (readable.oneLine 13 (List.mem_of_head? isReturn)).1 rfl

/-- Behind the end of the file only blank lines are read. -/
theorem initLoop_bad (configer : Configer) (rest : Bytes) (iCount : Nat) :
    loop initIteration initSize initIteration_shrinks (configer, ⟨rest, false⟩, iCount) =
      .ok (true, configer) := by
  by_cases few : iCount < 4
  · rw [loop_continue (initIteration_blank (Ifstream.readLine_bad rest) few)]
    exact initLoop_bad configer rest (iCount + 1)
  · exact loop_return (initIteration_done (Ifstream.readLine_bad rest) few)
termination_by 4 - iCount

end

/-- The text of lines that all end with a line feed. -/
def linesOfFile (lines : List (ConfigLine × Bool)) : Bytes :=
  lines.flatMap fun line => ConfigLine.body line ++ [10]

/-- The last line, which may end with the file. -/
theorem initLoop_last {last : ConfigLine × Bool} (valid : last.1.Valid)
    (short : (ConfigLine.body last).length < 128) (configer : Configer) (iCount : Nat) :
    loop initIteration initSize initIteration_shrinks (configer, ⟨ConfigLine.body last, true⟩,
      iCount) =
      .ok (true, last.1.apply configer) := by
  have taken := Ifstream.getline_last valid.body short
  by_cases ends : last.1 = .blank ∧ ¬iCount < 4
  · have isBlank : last = (.blank, last.2) := Prod.ext ends.1 rfl
    rw [isBlank] at taken ⊢
    exact loop_return (initIteration_done (Ifstream.readLine_blank taken) ends.2)
  · have few : last.1 = .blank → iCount < 4 := by
      intro isBlank
      by_contra many
      exact ends ⟨isBlank, many⟩
    rw [loop_continue (initIteration_apply valid short taken few)]
    exact initLoop_bad _ _ _

/-- `OnInit` applies every line in turn as long as no five blank lines follow each other. -/
theorem initLoop_lines {lines : List (ConfigLine × Bool)} {last : ConfigLine × Bool}
    (valid : ∀ line ∈ lines ++ [last], line.1.Valid)
    (short : ∀ line ∈ lines ++ [last], (ConfigLine.body line).length < 128) (configer : Configer)
    {iCount : Nat}
    (runs : ¬List.replicate 5 ConfigLine.blank <:+:
      List.replicate iCount .blank ++ lines.map Prod.fst) :
    loop initIteration initSize initIteration_shrinks
        (configer, ⟨linesOfFile lines ++ ConfigLine.body last, true⟩, iCount) =
      .ok (true, (lines ++ [last]).foldl (fun configer line =>
        line.1.apply configer) configer) := by
  induction lines generalizing configer iCount with
  | nil => exact initLoop_last (valid last (by simp)) (short last (by simp)) configer iCount
  | cons line lines ih =>
    have isValid := valid line (by simp)
    have isShort := short line (by simp)
    have isText : linesOfFile (line :: lines) ++ ConfigLine.body last =
        ConfigLine.body line ++ 10 :: (linesOfFile lines ++ ConfigLine.body last) := by
      simp [linesOfFile]
    have taken :=
      Ifstream.getline_line isValid.body isShort (linesOfFile lines ++ ConfigLine.body last)
    have counted : line.1 = .blank →
      List.replicate iCount ConfigLine.blank ++ (line :: lines).map Prod.fst =
        List.replicate (iCount + 1) .blank ++ lines.map Prod.fst := by
      intro isBlank
      rw [List.map_cons, isBlank, List.replicate_succ', List.append_assoc, List.singleton_append]
    have few : line.1 = .blank → iCount < 4 := by
      intro isBlank
      by_contra many
      have five : iCount + 1 = 5 + (iCount - 4) := by omega
      rw [counted isBlank, five, List.replicate_add, List.append_assoc] at runs
      exact runs (List.prefix_append _ _).isInfix
    rw [isText, loop_continue (initIteration_apply isValid isShort taken few)]
    rw [List.cons_append, List.foldl_cons]
    refine ih (fun other later => valid other (by simp [later]))
      (fun other later => short other (by simp [later])) _ ?_
    by_cases isBlank : line.1 = .blank
    · rw [if_pos isBlank, ← counted isBlank]
      exact runs
    · rw [if_neg isBlank]
      have later : lines.map Prod.fst <:+
          List.replicate iCount .blank ++ (line :: lines).map Prod.fst :=
        (List.suffix_cons _ _).trans (List.suffix_append _ _)
      exact fun inside => runs (inside.trans later.isInfix)

/-! ## Files -/

/-- A configuration file: lines that end with a line feed or with a carriage return and a line feed,
and a last line that ends with the file and may be empty. -/
structure ConfigFile where
  lines : List (ConfigLine × Bool)
  last : ConfigLine × Bool
  valid : ∀ line ∈ lines ++ [last], line.1.Valid
  short : ∀ line ∈ lines ++ [last], (ConfigLine.body line).length ≤ 127
  runs : ¬List.replicate 5 ConfigLine.blank <:+: lines.map Prod.fst

namespace ConfigFile

/-- The contents of a file. -/
def text (file : ConfigFile) : Bytes := linesOfFile file.lines ++ ConfigLine.body file.last

/-- All lines of a file. -/
def entries (file : ConfigFile) : List ConfigLine := (file.lines ++ [file.last]).map Prod.fst

/-- `OnInit` of a file succeeds and applies its lines in turn. -/
theorem onInit_text (file : ConfigFile) (configer : Configer) :
    configer.onInit (some file.text) =
      (true, file.entries.foldl (fun configer line => line.apply configer) configer) := by
  have short : ∀ line ∈ file.lines ++ [file.last], (ConfigLine.body line).length < 128 :=
    fun line inFile => Nat.lt_succ_of_le (file.short line inFile)
  have looped := @initLoop_lines file.lines file.last file.valid short configer 0 file.runs
  simp only [onInit, text, looped, entries, List.foldl_map]

end ConfigFile

/-! ## Items that are listed once -/

/-- The first entry of each key stays in a map. -/
theorem getElem?_foldl_insertIfNew {β : Type} (entries : List (Int × β))
    (map : Std.ExtTreeMap Int β) (key : Int) :
    (entries.foldl (fun map entry => map.insertIfNew entry.1 entry.2) map)[key]? =
      map[key]?.or ((entries.find? fun entry => entry.1 = key).map Prod.snd) := by
  induction entries generalizing map with
  | nil => simp
  | cons entry entries ih =>
    rw [List.foldl_cons, ih, Std.ExtTreeMap.getElem?_insertIfNew]
    by_cases same : entry.1 = key
    · subst same
      rw [List.find?_cons_of_pos (by simp)]
      cases value : map[entry.1]? with
      | none =>
        have absent : entry.1 ∉ map := by simpa using value
        simp [absent]
      | some found =>
        have present : entry.1 ∈ map := by
          rw [Std.ExtTreeMap.mem_iff_isSome_getElem?, value]
          rfl
        simp [present]
    · have other : ¬(compare entry.1 key = .eq ∧ entry.1 ∉ map) :=
        fun equal => same (Std.compare_eq_iff_eq.mp equal.1)
      rw [if_neg other, List.find?_cons_of_neg (by simpa using same)]

/-- A map filled with the entries of another one, in any order, is that one. -/
theorem foldl_insertIfNew_eq {β : Type} {entries : List (Int × β)} {map : Std.ExtTreeMap Int β}
    (perm : entries.Perm map.toList) :
    entries.foldl (fun map entry => map.insertIfNew entry.1 entry.2) ∅ = map := by
  have isEntry : ∀ key value, (key, value) ∈ entries ↔ map[key]? = some value := by
    intro key value
    rw [perm.mem_iff, Std.ExtTreeMap.mem_toList_iff_getElem?_eq_some]
  refine Std.ExtTreeMap.ext_getElem? fun key => ?_
  rw [getElem?_foldl_insertIfNew, Std.ExtTreeMap.getElem?_empty, Option.none_or]
  cases found : entries.find? fun entry => entry.1 = key with
  | none =>
    cases value : map[key]? with
    | none => rfl
    | some info =>
      have absent := List.find?_eq_none.mp found (key, info) ((isEntry key info).mpr value)
      simp at absent
  | some entry =>
    have inEntries := List.mem_of_find?_eq_some found
    have isKey : entry.1 = key := by simpa using List.find?_some found
    subst isKey
    exact ((isEntry entry.1 entry.2).mp inEntries).symm

/-- A configuration: its numbers, its flags and its data sources by zone. -/
structure Configuration where
  number : NumberItem → Int
  flag : FlagItem → Bool
  mysql : Std.ExtTreeMap Int ConfigInfo
  redis : Std.ExtTreeMap Int ConfigInfo

namespace ConfigLine

/-- The number a line gives an item. -/
def numberOf (item : NumberItem) : ConfigLine → Option Int
  | .number found value => if found = item then some value.value else none
  | _ => none

/-- The flag a line gives an item. -/
def flagOf (item : FlagItem) : ConfigLine → Option Bool
  | .flag found value => if found = item then some value else none
  | _ => none

/-- The mysql data source of a line. -/
def mysqlOf : ConfigLine → Option (Int × ConfigInfo)
  | .mysql _ zone info => some (zone.value, info)
  | _ => none

/-- The redis data source of a line. -/
def redisOf : ConfigLine → Option (Int × ConfigInfo)
  | .redis _ zone info => some (zone.value, info)
  | _ => none

end ConfigLine

/-- The lines of a file list every item of a configuration once. -/
structure ConfigFile.Lists (file : ConfigFile) (config : Configuration) : Prop where
  numbers : ∀ item, file.entries.filterMap (ConfigLine.numberOf item) = [config.number item]
  flags : ∀ item, file.entries.filterMap (ConfigLine.flagOf item) = [config.flag item]
  mysql : (file.entries.filterMap ConfigLine.mysqlOf).Perm config.mysql.toList
  redis : (file.entries.filterMap ConfigLine.redisOf).Perm config.redis.toList

/-- A field that lines of one kind change, after all lines. -/
theorem foldl_apply {β γ : Type} (field : Configer → γ) (pick : ConfigLine → Option β)
    (change : γ → β → γ)
    (one : ∀ configer line, field (line.apply configer) =
      (pick line).elim (field configer) (change (field configer))) (lines : List ConfigLine)
    (configer : Configer) :
    field (lines.foldl (fun configer line => line.apply configer) configer) =
      (lines.filterMap pick).foldl change (field configer) := by
  induction lines generalizing configer with
  | nil => rfl
  | cons line lines ih =>
    rw [List.foldl_cons, ih, one]
    cases picked : pick line with
    | none => rw [List.filterMap_cons_none picked, Option.elim_none]
    | some value => rw [List.filterMap_cons_some picked, List.foldl_cons, Option.elim_some]

/-- The configuration that the lines of a file make. -/
def ConfigFile.result (file : ConfigFile) : Configer :=
  file.entries.foldl (fun configer line => line.apply configer) Configer.new

/-- What a line does to each field. -/
theorem ConfigLine.apply_fields (line : ConfigLine) (configer : Configer) :
    (line.apply configer).threads = (line.numberOf .threads).elim configer.threads id ∧
    (line.apply configer).insertWait = (line.numberOf .insertWait).elim configer.insertWait id ∧
    (line.apply configer).insertCount =
      (line.numberOf .insertMaxCount).elim configer.insertCount id ∧
    (line.apply configer).isEnableRecord =
      (line.flagOf .enableRecord).elim configer.isEnableRecord id ∧
    (line.apply configer).isEnablessl = (line.flagOf .enableSsl).elim configer.isEnablessl id ∧
    (line.apply configer).configMysqlMap = line.mysqlOf.elim configer.configMysqlMap
      (fun entry => configer.configMysqlMap.insertIfNew entry.1 entry.2) ∧
    (line.apply configer).configRedisMap = line.redisOf.elim configer.configRedisMap
      (fun entry => configer.configRedisMap.insertIfNew entry.1 entry.2) := by
  cases line with
  | number item value => cases item <;> exact ⟨rfl, rfl, rfl, rfl, rfl, rfl, rfl⟩
  | flag item value => cases item <;> exact ⟨rfl, rfl, rfl, rfl, rfl, rfl, rfl⟩
  | _ => exact ⟨rfl, rfl, rfl, rfl, rfl, rfl, rfl⟩

/-- A field whose item is listed once has the value listed. -/
theorem ConfigFile.result_once {file : ConfigFile} {γ : Type} {field : Configer → γ}
    {pick : ConfigLine → Option γ} {value : γ} (once : file.entries.filterMap pick = [value])
    (one : ∀ configer line, field (line.apply configer) = (pick line).elim (field configer) id) :
    field file.result = value := by
  have folded := foldl_apply field pick (fun _ value => value) one file.entries Configer.new
  rw [once] at folded
  exact folded

/-- A map whose items are those of another one in some order is that one. -/
theorem ConfigFile.result_map {file : ConfigFile} {field : Configer → Std.ExtTreeMap Int ConfigInfo}
    {pick : ConfigLine → Option (Int × ConfigInfo)} {map : Std.ExtTreeMap Int ConfigInfo}
    (listed : (file.entries.filterMap pick).Perm map.toList) (empty : field Configer.new = ∅)
    (one : ∀ configer line, field (line.apply configer) =
      (pick line).elim (field configer) fun entry => (field configer).insertIfNew entry.1 entry.2) :
    field file.result = map := by
  have folded :=
    foldl_apply field pick (fun map entry => map.insertIfNew entry.1 entry.2) one file.entries
      Configer.new
  rw [empty, foldl_insertIfNew_eq listed] at folded
  exact folded

namespace ConfigFile.Lists

variable {file : ConfigFile} {config : Configuration}

/-- A redis data source has no name of a database. -/
theorem redis_unnamed (lists : file.Lists config) {zone : Int} {info : ConfigInfo}
    (isItem : config.redis[zone]? = some info) : info.stDbname = [] := by
  have listed : (zone, info) ∈ file.entries.filterMap ConfigLine.redisOf := by
    rw [lists.redis.mem_iff, Std.ExtTreeMap.mem_toList_iff_getElem?_eq_some]
    exact isItem
  obtain ⟨line, inEntries, isRedis⟩ := List.mem_filterMap.mp listed
  obtain ⟨⟨line', cr⟩, inFile, same⟩ := List.mem_map.mp inEntries
  have same : line' = line := same
  subst same
  have valid := file.valid _ inFile
  cases line' with
  | redis name zone info =>
    cases isRedis
    exact valid.2.1
  | _ => cases isRedis

/-- `GetConfigInfos` copies the redis data sources. -/
theorem copies_redis (lists : file.Lists config) {configer : Configer}
    (same : configer.configRedisMap = config.redis) :
    configer.getConfigInfos true = config.redis := by
  have copied : ∀ (configs : Std.ExtTreeMap Int ConfigInfo), ∀ entry ∈ config.redis.toList,
      configs.insertIfNew entry.1 { entry.2 with stDbname := [] } =
        configs.insertIfNew entry.1 entry.2 := by
    intro configs entry isEntry
    have unnamed := lists.redis_unnamed (Std.ExtTreeMap.mem_toList_iff_getElem?_eq_some.mp isEntry)
    rw [← unnamed]
  simp only [getConfigInfos, ↓reduceIte, same]
  rw [List.foldl_ext _ _ _ copied]
  exact foldl_insertIfNew_eq (List.Perm.refl _)

end ConfigFile.Lists

/-- `OnInit` of a file that lists every item of a configuration once succeeds on a new
configuration, and the getters then return exactly that configuration. -/
theorem config_round_trip {file : ConfigFile} {config : Configuration} (lists : file.Lists config) :
    ∃ configer, Configer.new.onInit (some file.text) = (true, configer) ∧
      configer.getCfgThreads = config.number .threads ∧
      configer.getInsertWait = config.number .insertWait ∧
      configer.getInsertCount = config.number .insertMaxCount ∧
      configer.getEnableRecord = config.flag .enableRecord ∧
      configer.getEnableSSL = config.flag .enableSsl ∧
      configer.getConfigInfos false = config.mysql ∧ configer.getConfigInfos true = config.redis ∧
      (∀ zone info, configer.getConfigInfo zone info false = config.mysql[zone]?.getD info) ∧
      (∀ zone info, configer.getConfigInfo zone info true =
        (config.redis[zone]?.map fun item =>
          { item with stDbname := info.stDbname }).getD info) := by
  have fields := ConfigLine.apply_fields
  have mysql : file.result.configMysqlMap = config.mysql :=
    ConfigFile.result_map lists.mysql rfl fun configer line => (fields line configer).2.2.2.2.2.1
  have redis : file.result.configRedisMap = config.redis :=
    ConfigFile.result_map lists.redis rfl fun configer line => (fields line configer).2.2.2.2.2.2
  refine ⟨file.result, file.onInit_text _, ?_, ?_, ?_, ?_, ?_, ?_, ?_, ?_, ?_⟩
  · exact ConfigFile.result_once (lists.numbers .threads) fun configer line =>
      (fields line configer).1
  · exact ConfigFile.result_once (lists.numbers .insertWait) fun configer line =>
      (fields line configer).2.1
  · exact ConfigFile.result_once (lists.numbers .insertMaxCount) fun configer line =>
      (fields line configer).2.2.1
  · exact ConfigFile.result_once (lists.flags .enableRecord) fun configer line =>
      (fields line configer).2.2.2.1
  · exact ConfigFile.result_once (lists.flags .enableSsl) fun configer line =>
      (fields line configer).2.2.2.2.1
  · rw [← mysql]
    exact foldl_insertIfNew_eq (List.Perm.refl _)
  · exact lists.copies_redis redis
  · intro zone info
    rw [← mysql]
    simp only [getConfigInfo, Bool.false_eq_true, ↓reduceIte]
    cases file.result.configMysqlMap[zone]? <;> rfl
  · intro zone info
    rw [← redis]
    simp only [getConfigInfo, ↓reduceIte]
    cases file.result.configRedisMap[zone]? <;> rfl

/-- The zone of the sample. -/
def sampleZone : Numeral :=
  ⟨.none, bytes "4503", 0, by decide, by decide +kernel, by decide +kernel⟩

/-- The mysql server of the sample. -/
def sampleMysql : ConfigInfo :=
  ⟨bytes "192.168.1.211", bytes "3306", bytes "root", bytes "", bytes "esdb4503"⟩

/-- The redis server of the sample, without a password. -/
def sampleRedis : ConfigInfo :=
  ⟨bytes "192.168.1.211", bytes "6379", bytes "admin", bytes "", bytes ""⟩

/-- The sources of the sample can be written under every clean name. -/
theorem sample_valid {name : Bytes} (clean : CleanName name) (zone : Numeral) :
    (ConfigLine.mysql name zone sampleMysql).Valid ∧
      (ConfigLine.redis name zone sampleRedis).Valid := by
  simp only [ConfigLine.Valid, cleanField_iff]
  have mysql : ∀ field ∈ [sampleMysql.stAddress, sampleMysql.stPort, sampleMysql.stUsername,
      sampleMysql.stPassword, sampleMysql.stDbname], (13 ∉ field ∧ 10 ∉ field ∧ 0 ∉ field) ∧
      38 ∉ field := by
    decide +kernel
  have redis : ∀ field ∈ [sampleRedis.stAddress, sampleRedis.stPort, sampleRedis.stUsername,
      sampleRedis.stPassword], (13 ∉ field ∧ 10 ∉ field ∧ 0 ∉ field) ∧ 38 ∉ field := by
    decide +kernel
  exact ⟨⟨clean, by decide, mysql⟩, clean, by decide, redis⟩

/-- The threads of the sample. -/
def sampleThreads : Numeral :=
  ⟨.none, bytes "016", 1, by decide, by decide +kernel, by decide +kernel⟩

/-- The wait of the sample. -/
def sampleWait : Numeral :=
  ⟨.minus, bytes "100", 0, by decide, by decide +kernel, by decide +kernel⟩

/-- The largest count of the sample. -/
def sampleMaxCount : Numeral :=
  ⟨.plus, bytes "250", 0, by decide, by decide +kernel, by decide +kernel⟩

/-- The lines of the sample in front of its last one. -/
def sampleLines : List (ConfigLine × Bool) :=
  [(.comment (bytes " threads=1"), false), (.number .threads sampleThreads, true), (.blank, false),
    (.blank, true), (.blank, false), (.blank, false),
    (.redis (bytes "HuNan") sampleZone sampleRedis, false), (.flag .enableSsl true, true),
    (.mysql (bytes "HuNan") sampleZone sampleMysql, true), (.number .insertWait sampleWait, false),
    (.flag .enableRecord false, false)]

/-- The last line of the sample. -/
def sampleLast : ConfigLine × Bool := (.number .insertMaxCount sampleMaxCount, false)

/-- Every line of the sample can be written. -/
theorem sampleLines_valid : ∀ line ∈ sampleLines ++ [sampleLast], line.1.Valid := by
  have clean : CleanName (bytes "HuNan") := cleanName_iff.2 (by decide +kernel)
  have sources := sample_valid clean sampleZone
  simp only [sampleLines, sampleLast, List.cons_append, List.nil_append, List.forall_mem_cons]
  exact ⟨by decide +kernel, trivial, trivial, trivial, trivial, trivial, sources.2, trivial,
    sources.1, trivial, trivial, trivial, fun _ listed => absurd listed List.not_mem_nil⟩

/-- Every line of the sample fits into the line buffer. -/
theorem sampleLines_short :
    ∀ line ∈ sampleLines ++ [sampleLast], (ConfigLine.body line).length ≤ 127 := by
  decide +kernel

/-- The sample has no five blank lines in a row. -/
theorem sampleLines_runs : ¬List.replicate 5 ConfigLine.blank <:+: sampleLines.map Prod.fst := by
  decide +kernel

/-- A file with comments, both line ends, blank lines and no line end at its end. -/
def sampleFile : ConfigFile where
  lines := sampleLines
  last := sampleLast
  valid := sampleLines_valid
  short := sampleLines_short
  runs := sampleLines_runs

/-- What the sample lists. -/
def sampleConfiguration : Configuration where
  number
    | .threads => 16
    | .insertWait => -100
    | .insertMaxCount => 250
  flag
    | .enableRecord => false
    | .enableSsl => true
  mysql := (∅ : Std.ExtTreeMap Int ConfigInfo).insert 4503 sampleMysql
  redis := (∅ : Std.ExtTreeMap Int ConfigInfo).insert 4503 sampleRedis

/-- The sample is read back. -/
theorem config_round_trip_sample :
    sampleFile.Lists sampleConfiguration ∧
      ∃ configer, Configer.new.onInit (some sampleFile.text) = (true, configer) ∧
        configer.getCfgThreads = 16 ∧
        configer.getConfigInfos true = sampleConfiguration.redis := by
  have lists : sampleFile.Lists sampleConfiguration :=
    { numbers := by intro item; cases item <;> decide +kernel
      flags := by intro item; cases item <;> decide +kernel
      mysql := by decide +kernel
      redis := by decide +kernel }
  obtain ⟨configer, done, threads, -, -, -, -, -, redis, -⟩ := config_round_trip lists
  exact ⟨lists, configer, done, threads, redis⟩

end NetServer
