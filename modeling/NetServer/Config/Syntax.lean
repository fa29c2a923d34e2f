import NetServer.Config.Configer

/-!
# The lines of a configuration file

A line is blank, a comment, a number, a flag or a data source. Its text is what the documentation
of the format shows; `ParaseLine` reads the line back from it.
-/

namespace NetServer

open Lib

/-! ## Numbers -/

/-- The sign in front of a number. -/
inductive Sign where
  | none
  | plus
  | minus
  deriving DecidableEq, Repr

/-- The text of a sign. -/
def Sign.text : Sign → Bytes
  | .none => []
  | .plus => [43]
  | .minus => [45]

/-- The number that decimal digits stand for. -/
def decimalValue (digits : Bytes) : Nat :=
  digits.foldl (fun value c => value * 10 + (c.toNat - 48)) 0

/-- The number that a sign and decimal digits stand for. -/
def signedValue (sign : Sign) (digits : Bytes) : Int :=
  match sign with
  | .minus => -(decimalValue digits : Int)
  | _ => decimalValue digits

/-- An `int` in decimal, with any leading zeros and with blanks behind it. -/
structure Numeral where
  sign : Sign
  digits : Bytes
  blanks : Nat
  nonempty : digits ≠ []
  areDigits : ∀ c ∈ digits, isDigit c = true
  range : -2 ^ 31 ≤ signedValue sign digits ∧ signedValue sign digits < 2 ^ 31
  deriving DecidableEq

namespace Numeral

/-- The text of a number. -/
def text (numeral : Numeral) : Bytes :=
  numeral.sign.text ++ numeral.digits ++ List.replicate numeral.blanks 32

/-- The value of a number. -/
def value (numeral : Numeral) : Int := signedValue numeral.sign numeral.digits

end Numeral

/-- Digits followed by blanks have the value of the digits. -/
theorem digitsValue_blanks {digits : Bytes} (areDigits : ∀ c ∈ digits, isDigit c = true)
    (read blanks : Nat) :
    digitsValue read (digits ++ List.replicate blanks 32) =
      digits.foldl (fun value c => value * 10 + (c.toNat - 48)) read := by
  induction digits generalizing read with
  | nil =>
    cases blanks with
    | zero => rfl
    | succ blanks => simp [List.replicate_succ, digitsValue, isDigit]
  | cons c digits ih =>
    have isDigit := areDigits c List.mem_cons_self
    have rest := ih (fun other later => areDigits other (List.mem_cons_of_mem _ later))
    simp only [List.cons_append, digitsValue, isDigit, ↓reduceIte, rest, List.foldl_cons]

/-- The bytes of the digits. -/
theorem isDigit_bounds {c : UInt8} (digit : isDigit c = true) : 48 ≤ c.toNat ∧ c.toNat ≤ 57 := by
  simpa [isDigit, UInt8.le_iff_toNat_le] using digit

/-- A digit is not a byte below or above the digits. -/
theorem isDigit_ne {c other : UInt8} (digit : isDigit c = true) (outside : isDigit other = false) :
    c ≠ other := by
  intro same
  rw [same, outside] at digit
  cases digit

/-- A digit is not a space. -/
theorem isSpace_of_isDigit {c : UInt8} (digit : isDigit c = true) : isSpace c = false := by
  have bounds := isDigit_bounds digit
  have notBlank : c ≠ 32 := isDigit_ne digit (by decide)
  simp only [isSpace, Bool.or_eq_false_iff, beq_eq_false_iff_ne, Bool.and_eq_false_iff,
    decide_eq_false_iff_not, UInt8.le_iff_toNat_le]
  exact ⟨notBlank, Or.inr (by simp only [UInt8.reduceToNat]; omega)⟩

/-- `strtol` reads a number. -/
theorem leadingNumber_text (numeral : Numeral) : leadingNumber numeral.text = numeral.value := by
  obtain ⟨sign, digits, blanks, nonempty, areDigits, range⟩ := numeral
  have decimal := digitsValue_blanks areDigits 0 blanks
  cases sign with
  | none =>
    obtain ⟨c, rest, isCons⟩ := List.exists_cons_of_ne_nil nonempty
    subst isCons
    have digit := areDigits c List.mem_cons_self
    have notMinus : c ≠ 45 := isDigit_ne digit (by decide)
    have notPlus : c ≠ 43 := isDigit_ne digit (by decide)
    simp only [Numeral.text, Sign.text, List.nil_append, List.cons_append] at decimal ⊢
    simp only [leadingNumber, List.dropWhile_cons, isSpace_of_isDigit digit, Bool.false_eq_true,
      ↓reduceIte, notMinus, notPlus, decimal]
    rfl
  | plus =>
    have notSpace : isSpace 43 = false := by decide
    simp only [Numeral.text, Sign.text, List.cons_append, List.nil_append, leadingNumber,
      List.dropWhile_cons, notSpace, Bool.false_eq_true, ↓reduceIte, decimal]
    rfl
  | minus =>
    have notSpace : isSpace 45 = false := by decide
    simp only [Numeral.text, Sign.text, List.cons_append, List.nil_append, leadingNumber,
      List.dropWhile_cons, notSpace, Bool.false_eq_true, ↓reduceIte, decimal]
    rfl

/-- `atoi` reads a number. -/
theorem atoi_text (numeral : Numeral) : atoi numeral.text = numeral.value := by
  have range : -2 ^ 31 ≤ numeral.value ∧ numeral.value < 2 ^ 31 := numeral.range
  have inLong : strtol numeral.text = numeral.value := by
    rw [strtol, leadingNumber_text]
    omega
  rw [atoi, inLong]
  exact toInt_of_range range.1 range.2

/-! ## Lines -/

/-- A text that fits in one line: no carriage return, no line feed and no null. -/
def OneLine (text : Bytes) : Prop := ∀ c ∈ text, c ≠ 13 ∧ c ≠ 10 ∧ c ≠ 0

instance (text : Bytes) : Decidable (OneLine text) :=
  inferInstanceAs (Decidable (∀ c ∈ text, c ≠ 13 ∧ c ≠ 10 ∧ c ≠ 0))

/-- A text fits in one line if none of three bytes is in it. -/
theorem oneLine_iff {text : Bytes} : OneLine text ↔ 13 ∉ text ∧ 10 ∉ text ∧ 0 ∉ text := by
  constructor
  · intro oneLine
    exact ⟨fun inText => (oneLine 13 inText).1 rfl, fun inText => (oneLine 10 inText).2.1 rfl,
      fun inText => (oneLine 0 inText).2.2 rfl⟩
  · rintro ⟨noReturn, noFeed, noNull⟩ c inText
    exact ⟨ne_of_mem_of_not_mem inText noReturn, ne_of_mem_of_not_mem inText noFeed,
      ne_of_mem_of_not_mem inText noNull⟩

/-- The items with a number. -/
inductive NumberItem where
  | threads
  | insertWait
  | insertMaxCount
  deriving DecidableEq, Repr

/-- The key of an item with a number. -/
def NumberItem.key : NumberItem → Bytes
  | .threads => bytes "threads"
  | .insertWait => bytes "insert_wait"
  | .insertMaxCount => bytes "insert_max_count"

/-- The items with a flag. -/
inductive FlagItem where
  | enableRecord
  | enableSsl
  deriving DecidableEq, Repr

/-- The key of an item with a flag. -/
def FlagItem.key : FlagItem → Bytes
  | .enableRecord => bytes "enable_record"
  | .enableSsl => bytes "enable_ssl"

/-- The text of a flag. -/
def flagText (value : Bool) : Bytes := if value then bytes "true" else bytes "false"

/-- The keys that are not names of data sources. -/
def reservedKeys : List Bytes :=
  [NumberItem.threads.key, NumberItem.insertMaxCount.key, NumberItem.insertWait.key,
    FlagItem.enableRecord.key, FlagItem.enableSsl.key]

/-- The name of a data source. -/
structure CleanName (name : Bytes) : Prop where
  oneLine : OneLine name
  noEquals : 61 ∉ name
  noComment : name.head? ≠ some 35
  notReserved : name ∉ reservedKeys

/-- A field of a data source. -/
structure CleanField (field : Bytes) : Prop where
  oneLine : OneLine field
  noAmpersand : 38 ∉ field

instance (name : Bytes) : Decidable (CleanName name) :=
  decidable_of_iff (OneLine name ∧ 61 ∉ name ∧ name.head? ≠ some 35 ∧ ∀ key ∈ reservedKeys,
    name ≠ key)
    ⟨fun h => ⟨h.1, h.2.1, h.2.2.1, fun reserved => h.2.2.2 name reserved rfl⟩,
      fun h => ⟨h.oneLine, h.noEquals, h.noComment, fun _ isKey same =>
        h.notReserved (same ▸ isKey)⟩⟩

instance (field : Bytes) : Decidable (CleanField field) :=
  decidable_of_iff (OneLine field ∧ 38 ∉ field) ⟨fun h => ⟨h.1, h.2⟩, fun h =>
    ⟨h.oneLine, h.noAmpersand⟩⟩

/-- A name is clean if four bytes are not in it and it is neither a comment nor a key. -/
theorem cleanName_iff {name : Bytes} :
    CleanName name ↔
      (13 ∉ name ∧ 10 ∉ name ∧ 0 ∉ name) ∧ 61 ∉ name ∧ name.head? ≠ some 35 ∧
        name ∉ reservedKeys := by
  rw [← oneLine_iff]
  exact ⟨fun h => ⟨h.oneLine, h.noEquals, h.noComment, h.notReserved⟩,
    fun h => ⟨h.1, h.2.1, h.2.2.1, h.2.2.2⟩⟩

/-- A field is clean if four bytes are not in it. -/
theorem cleanField_iff {field : Bytes} : CleanField field ↔
    (13 ∉ field ∧ 10 ∉ field ∧ 0 ∉ field) ∧ 38 ∉ field := by
  rw [← oneLine_iff]
  exact ⟨fun h => ⟨h.oneLine, h.noAmpersand⟩, fun h => ⟨h.1, h.2⟩⟩

/-- A line of a configuration file. -/
inductive ConfigLine where
  | blank
  | comment (text : Bytes)
  | number (item : NumberItem) (value : Numeral)
  | flag (item : FlagItem) (value : Bool)
  | mysql (name : Bytes) (zone : Numeral) (info : ConfigInfo)
  | redis (name : Bytes) (zone : Numeral) (info : ConfigInfo)
  deriving DecidableEq

namespace ConfigLine

/-- What stands behind the name of a data source: its kind, its zone and the other fields. -/
def sourceText (kind : Bytes) (zone : Numeral) (fields : List Bytes) : Bytes :=
  [38].intercalate (kind :: zone.text :: fields)

/-- The text of a line without its end. -/
def text : ConfigLine → Bytes
  | .blank => []
  | .comment text => 35 :: text
  | .number item value => item.key ++ 61 :: value.text
  | .flag item value => item.key ++ 61 :: flagText value
  | .mysql name zone info => name ++ 61 :: sourceText (bytes "mysql") zone
      [info.stAddress, info.stPort, info.stUsername, info.stPassword, info.stDbname]
  | .redis name zone info => name ++ 61 :: sourceText (bytes "redis") zone
      [info.stAddress, info.stPort, info.stUsername, info.stPassword]

/-- The parts of a line that can be written in the format. -/
def Valid : ConfigLine → Prop
  | .blank | .number _ _ | .flag _ _ => True
  | .comment text => 10 ∉ text
  | .mysql name _ info => CleanName name ∧ info.stDbname ≠ [] ∧
      ∀ field ∈ [info.stAddress, info.stPort, info.stUsername, info.stPassword, info.stDbname],
        CleanField field
  | .redis name _ info => CleanName name ∧ info.stDbname = [] ∧
      ∀ field ∈ [info.stAddress, info.stPort, info.stUsername, info.stPassword], CleanField field

instance (line : ConfigLine) : Decidable line.Valid :=
  match line with
  | .blank | .number _ _ | .flag _ _ => inferInstanceAs (Decidable True)
  | .comment text => inferInstanceAs (Decidable (10 ∉ text))
  | .mysql name _ info => inferInstanceAs (Decidable (CleanName name ∧ info.stDbname ≠ [] ∧
      ∀ field ∈ [info.stAddress, info.stPort, info.stUsername, info.stPassword, info.stDbname],
        CleanField field))
  | .redis name _ info => inferInstanceAs (Decidable (CleanName name ∧ info.stDbname = [] ∧
      ∀ field ∈ [info.stAddress, info.stPort, info.stUsername, info.stPassword], CleanField field))

/-- What a line does to the configuration read so far. -/
def apply (line : ConfigLine) (configer : Configer) : Configer :=
  match line with
  | .blank | .comment _ => configer
  | .number .threads value => { configer with threads := value.value }
  | .number .insertWait value => { configer with insertWait := value.value }
  | .number .insertMaxCount value => { configer with insertCount := value.value }
  | .flag .enableRecord value => { configer with isEnableRecord := value }
  | .flag .enableSsl value => { configer with isEnablessl := value }
  | .mysql _ zone info =>
    { configer with configMysqlMap := configer.configMysqlMap.insertIfNew zone.value info }
  | .redis _ zone info =>
    { configer with configRedisMap := configer.configRedisMap.insertIfNew zone.value info }

end ConfigLine

/-! ## Reading a line back -/

open Configer

/-- The sign of an assignment. -/
theorem find_equals {name : Bytes} (clean : 61 ∉ name) (rest : Bytes) :
    find (bytes "=") (name ++ 61 :: rest) = some name.length := find_single_append clean rest

/-- A reserved key fits in one line, has no sign of an assignment and starts no comment. -/
theorem reservedKeys_clean :
    ∀ key ∈ reservedKeys, OneLine key ∧ 61 ∉ key ∧ key.head? ≠ none ∧ key.head? ≠ some 35 := by
  rw [reservedKeys]
  simp only [NumberItem.key, FlagItem.key, oneLine_iff]
  repeat rw [bytes_ofList]
  decide +kernel

/-- The key of an item with a number is reserved. -/
theorem NumberItem.key_mem (item : NumberItem) : item.key ∈ reservedKeys := by
  cases item with
  | threads => exact .head _
  | insertMaxCount => exact .tail _ (.head _)
  | insertWait => exact .tail _ (.tail _ (.head _))

/-- The key of an item with a flag is reserved. -/
theorem FlagItem.key_mem (item : FlagItem) : item.key ∈ reservedKeys := by
  cases item with
  | enableRecord => exact .tail _ (.tail _ (.tail _ (.head _)))
  | enableSsl => exact .tail _ (.tail _ (.tail _ (.tail _ (.head _))))

/-- `PerformanceItem` of a number. -/
theorem performanceItem_number (configer : Configer) (item : NumberItem) (value : Numeral) :
    configer.performanceItem (item.key ++ 61 :: value.text) =
      (true, (ConfigLine.number item value).apply configer) := by
  have clean : 61 ∉ item.key := (reservedKeys_clean _ item.key_mem).2.1
  have header : (item.key ++ 61 :: value.text).take item.key.length = item.key := List.take_left
  have behind : (item.key ++ 61 :: value.text).drop (item.key.length + 1) = value.text := by simp
  unfold performanceItem
  simp only [find_equals clean, header, behind, atoi_text]
  cases item <;> rfl

/-- `PerformanceItem` of a flag. -/
theorem performanceItem_flag (configer : Configer) (item : FlagItem) (value : Bool) :
    configer.performanceItem (item.key ++ 61 :: flagText value) =
      (true, (ConfigLine.flag item value).apply configer) := by
  have clean : 61 ∉ item.key := (reservedKeys_clean _ item.key_mem).2.1
  have header : (item.key ++ 61 :: flagText value).take item.key.length = item.key := List.take_left
  have behind : (item.key ++ 61 :: flagText value).drop (item.key.length + 1) = flagText value := by
    simp
  unfold performanceItem
  simp only [find_equals clean, header, behind]
  cases item <;> cases value <;> rfl

/-- `PerformanceItem` of a line with another key. -/
theorem performanceItem_other (configer : Configer) {str : Bytes}
    (other : ∀ pos, find (bytes "=") str = some pos → str.take pos ∉ reservedKeys) :
    configer.performanceItem str = (false, configer) := by
  unfold performanceItem
  cases found : find (bytes "=") str with
  | none => rfl
  | some pos =>
    have notReserved := other pos found
    simp only [reservedKeys, NumberItem.key, FlagItem.key, List.mem_cons, List.not_mem_nil,
      or_false, not_or] at notReserved
    simp only [notReserved, ↓reduceIte]

/-- `ParaseLine` of a comment. -/
theorem paraseLine_comment (configer : Configer) {str : Bytes} (isComment : str.head? = some 35) :
    configer.paraseLine str = (true, configer) := by
  have other : configer.performanceItem str = (false, configer) := by
    refine performanceItem_other configer fun pos _ reserved => ?_
    have outside := (reservedKeys_clean _ reserved).2.2
    rw [List.head?_take, isComment] at outside
    split at outside
    · exact outside.1 rfl
    · exact outside.2 rfl
  have isKind : splitString str = [bytes "#"] := if_pos isComment
  simp only [paraseLine, other, sourceDataItme, isKind, ↓reduceIte]

/-- `PerformanceItem` of a data source. -/
theorem performanceItem_source (configer : Configer) {name : Bytes} (clean : CleanName name)
    (rest : Bytes) : configer.performanceItem (name ++ 61 :: rest) = (false, configer) := by
  refine performanceItem_other configer fun pos found => ?_
  rw [find_equals clean.noEquals, Option.some.injEq] at found
  subst found
  rw [List.take_left]
  exact clean.notReserved

/-- The text of a number is a field. -/
theorem Numeral.clean (numeral : Numeral) : CleanField numeral.text := by
  have plain : ∀ c ∈ numeral.text, c ≠ 13 ∧ c ≠ 10 ∧ c ≠ 0 ∧ c ≠ 38 := by
    intro c inText
    simp only [Numeral.text, List.mem_append, List.mem_replicate] at inText
    rcases inText with (inSign | inDigits) | ⟨-, isBlank⟩
    · have signs : ∀ sign : Sign, ∀ c ∈ sign.text, c ≠ 13 ∧ c ≠ 10 ∧ c ≠ 0 ∧ c ≠ 38 := by
        intro sign
        cases sign <;> simp [Sign.text]
      exact signs _ c inSign
    · have digit := numeral.areDigits c inDigits
      exact ⟨isDigit_ne digit (by decide), isDigit_ne digit (by decide),
        isDigit_ne digit (by decide), isDigit_ne digit (by decide)⟩
    · rw [isBlank]
      decide
  exact ⟨fun c inText => ⟨(plain c inText).1, (plain c inText).2.1, (plain c inText).2.2.1⟩,
    fun inText => (plain 38 inText).2.2.2 rfl⟩

/-- The fields of a data source. -/
theorem splitString_source {name : Bytes} (clean : CleanName name) {kind : Bytes} (zone : Numeral)
    {fields : List Bytes} (isField : CleanField kind) (nonempty : kind ≠ [])
    (areFields : ∀ field ∈ fields, CleanField field)
    (small : (name ++ 61 :: ConfigLine.sourceText kind zone fields).length < 2 ^ 31) :
    splitString (name ++ 61 :: ConfigLine.sourceText kind zone fields) =
      trimLast (kind :: zone.text :: fields) := by
  have noComment : (name ++ 61 :: ConfigLine.sourceText kind zone fields).head? ≠ some 35 := by
    cases name with
    | nil => simp
    | cons c rest => simpa using clean.noComment
  have behind : (name ++ 61 :: ConfigLine.sourceText kind zone fields).drop (name.length + 1) =
      ConfigLine.sourceText kind zone fields := by simp
  have front : (ConfigLine.sourceText kind zone fields).head? ≠ some 38 := by
    obtain ⟨c, rest, isCons⟩ := List.exists_cons_of_ne_nil nonempty
    subst isCons
    have notSeparator : c ≠ 38 := fun same => isField.noAmpersand (same ▸ List.mem_cons_self)
    simpa [ConfigLine.sourceText, List.intercalate] using notSeparator
  have separate : ∀ field ∈ kind :: zone.text :: fields, 38 ∉ field := by
    simp only [List.forall_mem_cons]
    exact ⟨isField.noAmpersand, zone.clean.noAmpersand, fun field inFields =>
      (areFields field inFields).noAmpersand⟩
  unfold splitString
  rw [if_neg noComment, find_equals clean.noEquals]
  have shorter : (ConfigLine.sourceText kind zone fields).length < 2 ^ 31 := by
    rw [List.length_append, List.length_cons] at small
    omega
  simp only [behind, splitString2, splitLoop_of_small shorter, fieldsOf, front, ↓reduceIte]
  rw [ConfigLine.sourceText, List.splitOn_intercalate 38 separate (List.cons_ne_nil _ _)]

/-- `ParaseLine` of a mysql data source. -/
theorem paraseLine_mysql (configer : Configer) {name : Bytes} {zone : Numeral} {info : ConfigInfo}
    (valid : (ConfigLine.mysql name zone info).Valid)
    (small : (ConfigLine.mysql name zone info).text.length < 2 ^ 31) :
    configer.paraseLine (ConfigLine.mysql name zone info).text =
      (true, (ConfigLine.mysql name zone info).apply configer) := by
  obtain ⟨clean, named, areFields⟩ := valid
  have isField : CleanField (bytes "mysql") :=
    ⟨oneLine_iff.2 (by decide +kernel), by decide +kernel⟩
  have fields := splitString_source clean zone isField (by decide) areFields small
  rw [trimLast, if_neg (by simpa using named)] at fields
  have notComment : bytes "mysql" ≠ bytes "#" := by decide
  simp only [paraseLine, ConfigLine.text, performanceItem_source configer clean,
    sourceDataItme, fields, notComment, ↓reduceIte, atoi_text]
  rfl

/-- `ParaseLine` of a redis data source; an empty last field is not there. -/
theorem paraseLine_redis (configer : Configer) {name : Bytes} {zone : Numeral} {info : ConfigInfo}
    (valid : (ConfigLine.redis name zone info).Valid)
    (small : (ConfigLine.redis name zone info).text.length < 2 ^ 31) :
    configer.paraseLine (ConfigLine.redis name zone info).text =
      (true, (ConfigLine.redis name zone info).apply configer) := by
  obtain ⟨clean, unnamed, areFields⟩ := valid
  obtain ⟨address, port, username, password, dbname⟩ := info
  have isField : CleanField (bytes "redis") :=
    ⟨oneLine_iff.2 (by decide +kernel), by decide +kernel⟩
  have fields := splitString_source clean zone isField (by decide) areFields small
  have notComment : bytes "redis" ≠ bytes "#" := by decide
  have notMysql : bytes "redis" ≠ bytes "mysql" := by decide
  have unnamed : dbname = [] := unnamed
  subst unnamed
  by_cases empty : password = []
  · subst empty
    have fields' : splitString (name ++ 61 :: ConfigLine.sourceText (bytes "redis") zone
        [address, port, username, []]) =
        [bytes "redis", zone.text, address, port, username] := fields
    simp only [paraseLine, ConfigLine.text, performanceItem_source configer clean, sourceDataItme,
      fields', notComment, notMysql, ↓reduceIte]
    simp [ConfigLine.apply, atoi_text]
  · rw [trimLast, if_neg (by simpa using empty)] at fields
    simp only [paraseLine, ConfigLine.text, performanceItem_source configer clean,
      sourceDataItme, fields, notComment, notMysql, ↓reduceIte]
    simp [ConfigLine.apply, atoi_text]

/-! ## The text of a line in the file -/

/-- Texts of one line one behind the other. -/
theorem oneLine_append {left right : Bytes} (first : OneLine left) (second : OneLine right) :
    OneLine (left ++ right) := List.forall_mem_append.mpr ⟨first, second⟩

/-- What stands behind the name of a data source fits in one line. -/
theorem oneLine_intercalate {fields : List Bytes} (areFields : ∀ field ∈ fields, OneLine field) :
    OneLine ([38].intercalate fields) := by
  induction fields with
  | nil => exact fun c inText => nomatch inText
  | cons field fields ih =>
    rw [List.forall_mem_cons] at areFields
    cases fields with
    | nil => simpa [List.intercalate] using areFields.1
    | cons next later =>
      rw [List.intercalate_cons_cons]
      exact oneLine_append (oneLine_append areFields.1 (oneLine_iff.2 (by decide))) (ih areFields.2)

/-- The text of a data source fits in one line. -/
theorem oneLine_source {name kind : Bytes} (zone : Numeral) {fields : List Bytes}
    (clean : CleanName name) (isField : OneLine kind)
    (areFields : ∀ field ∈ fields, CleanField field) :
    OneLine (name ++ 61 :: ConfigLine.sourceText kind zone fields) := by
  have separate : ∀ field ∈ kind :: zone.text :: fields, OneLine field := by
    simp only [List.forall_mem_cons]
    exact ⟨isField, zone.clean.oneLine, fun field inFields => (areFields field inFields).oneLine⟩
  have equals : OneLine [61] := oneLine_iff.2 (by decide)
  exact oneLine_append clean.oneLine (oneLine_append equals (oneLine_intercalate separate))

namespace ConfigLine

/-- The text of an item: it is not empty, fits in one line, and `ParaseLine` reads it if its length
is an `int`. -/
structure Readable (line : ConfigLine) : Prop where
  nonempty : line.text ≠ []
  oneLine : OneLine line.text
  parsed : line.text.length < 2 ^ 31 → ∀ configer : Configer,
    configer.paraseLine line.text = (true, line.apply configer)

/-- A line is blank, a comment or an item. -/
theorem Valid.cases {line : ConfigLine} (valid : line.Valid) :
    line = .blank ∨ (∃ text, line = .comment text ∧ 10 ∉ text) ∨ line.Readable := by
  have assigned : ∀ key value : Bytes, key ++ 61 :: value ≠ [] := fun key value => by simp
  have equals : OneLine [61] := oneLine_iff.2 (by decide)
  cases line with
  | blank => exact .inl rfl
  | comment text => exact .inr (.inl ⟨text, rfl, valid⟩)
  | number item value =>
    have key : OneLine item.key := (reservedKeys_clean _ item.key_mem).1
    refine .inr (.inr ⟨assigned _ _, oneLine_append key (oneLine_append equals value.clean.oneLine),
      ?_⟩)
    intro _ configer
    simp only [Configer.paraseLine, text, performanceItem_number]
  | flag item value =>
    have key : OneLine item.key := (reservedKeys_clean _ item.key_mem).1
    have isFlag : OneLine (flagText value) := by
      cases value <;> exact oneLine_iff.2 (by decide +kernel)
    refine .inr (.inr ⟨assigned _ _, oneLine_append key (oneLine_append equals isFlag), ?_⟩)
    intro _ configer
    simp only [Configer.paraseLine, text, performanceItem_flag]
  | mysql name zone info =>
    have kind : OneLine (bytes "mysql") := oneLine_iff.2 (by decide +kernel)
    exact .inr (.inr ⟨assigned _ _, oneLine_source zone valid.1 kind valid.2.2,
      fun small configer => paraseLine_mysql configer valid small⟩)
  | redis name zone info =>
    have kind : OneLine (bytes "redis") := oneLine_iff.2 (by decide +kernel)
    exact .inr (.inr ⟨assigned _ _, oneLine_source zone valid.1 kind valid.2.2,
      fun small configer => paraseLine_redis configer valid small⟩)

/-- The line without its line feed: its text and a carriage return if the line ends with both. -/
def body (line : ConfigLine × Bool) : Bytes := line.1.text ++ if line.2 then [13] else []

/-- There is no line feed in a line. -/
theorem Valid.body {line : ConfigLine × Bool} (valid : line.1.Valid) :
    10 ∉ ConfigLine.body line := by
  have ending : 10 ∉ (if line.2 then [13] else [] : Bytes) := by
    split <;> decide
  have text : 10 ∉ line.1.text := by
    rcases valid.cases with isBlank | ⟨text, isComment, clean⟩ | readable
    · rw [isBlank]
      exact List.not_mem_nil
    · rw [isComment]
      simpa [ConfigLine.text] using clean
    · exact fun inText => (readable.oneLine 10 inText).2.1 rfl
  exact fun inBody => (List.mem_append.mp inBody).elim text ending

end ConfigLine

end NetServer
