import NetServer.Records.LogClient
import NetServer.Redis.Format

/-!
# A record on its way through Redis

A producer encodes a record, and `MakeSAddRedisCmd` puts it into a command behind its key. The text
of an encoding has no blank, percent sign or null, so hiredis takes the command apart as it was put
together, and `RecordFromRedis` decodes what comes back (`record_carried`). The lengths are `int`s,
so a record whose command is too long for one is lost.
-/

namespace NetServer

open Base64

/-- `CUtilRedis::MakeSAddRedisCmd`. -/
def makeSAddRedisCmd (key value : Bytes) : Bytes := bytes "SADD " ++ key ++ bytes " " ++ value

/-- A command is three words. -/
theorem makeSAddRedisCmd_eq (key value : Bytes) :
    makeSAddRedisCmd key value = [32].intercalate [bytes "SADD", key, value] := by
  have front : bytes "SADD " = bytes "SADD" ++ [32] := by decide
  have blank : bytes " " = [32] := by decide
  rw [makeSAddRedisCmd, front, blank, List.intercalate_cons_cons, List.intercalate_cons_cons,
    List.intercalate_singleton]
  simp only [List.append_assoc]

/-- What `Encode` writes is a word. -/
theorem isWord_encode {d : Bytes} (nonempty : d ≠ []) : IsWord (encode d) where
  nonempty isEmpty := by
    have longer := length_encode d
    rw [isEmpty, List.length_nil] at longer
    have := List.length_pos_iff.mpr nonempty
    omega
  clean c written := by
    have sextets : ∀ index < 64, encodeChar index ≠ 0 ∧ encodeChar index ≠ 32 ∧
        encodeChar index ≠ 37 := by
      decide +kernel
    rcases isText_of_mem_encode written with ⟨index, small, rfl⟩ | rfl | rfl | rfl
    · exact sextets index small
    · exact ⟨by decide, by decide, by decide⟩
    · exact ⟨by decide, by decide, by decide⟩
    · exact ⟨by decide, by decide, by decide⟩

/-- What a number is printed with can stand in a word. -/
theorem isWordByte_decimalInt {number : Int} {c : UInt8} (printed : c ∈ decimalInt number) :
    IsWordByte c := by
  have digit {c : UInt8} (isDigit : IsDigit c) : IsWordByte c := by
    obtain ⟨low, -⟩ := isDigit
    refine ⟨?_, ?_, ?_⟩ <;> rintro rfl <;> exact absurd low (by decide)
  unfold decimalInt at printed
  split_ifs at printed
  · rcases List.mem_append.mp printed with sign | digits
    · obtain rfl : c = 45 := by simpa [bytes] using sign
      exact ⟨by decide, by decide, by decide⟩
    · exact digit (isDigit_of_mem_decimal digits)
  · exact digit (isDigit_of_mem_decimal printed)

/-- The keys of a zone are words. -/
theorem isWord_key {zone : Int} {key : Bytes} (isKey : key ∈ onKeysInit (decimalInt zone)) :
    IsWord key := by
  have made {arg : Bytes} (nonempty : arg ≠ []) (clean : ∀ c ∈ arg, IsWordByte c) :
      IsWord (makeOneKey (decimalInt zone) arg) := by
    refine ⟨fun isEmpty => nonempty (List.append_eq_nil_iff.mp isEmpty).2, fun c inKey => ?_⟩
    rcases List.mem_append.mp inKey with inZone | inArg
    · exact isWordByte_decimalInt (List.mem_of_mem_take inZone)
    · exact clean c inArg
  simp only [onKeysInit, List.mem_cons, List.not_mem_nil, or_false] at isKey
  rcases isKey with rfl | rfl | rfl | rfl | rfl | rfl <;>
    exact made (by decide) (List.all_iff_forall_prop.mp (by decide))

/-- The words of the command for a record. -/
theorem record_areWords {zone : Int} {key d : Bytes} (isKey : key ∈ onKeysInit (decimalInt zone))
    (nonempty : d ≠ []) : ∀ word ∈ [bytes "SADD", key, encode d], IsWord word := by
  intro word listed
  simp only [List.mem_cons, List.not_mem_nil, or_false] at listed
  rcases listed with rfl | rfl | rfl
  · exact ⟨by decide, List.all_iff_forall_prop.mp (by decide)⟩
  · exact isWord_key isKey
  · exact isWord_encode nonempty

/-- The value is not shorter than its argument in the command. -/
theorem length_lt_totalLength (name key value : Bytes) :
    value.length < totalLength [name, key, value] := by
  simp only [totalLength, List.map_cons, List.map_nil, List.sum_cons, List.sum_nil, bulklen]
  omega

/-- The reply with the encoding of a record is decoded. -/
theorem recordFromRedis_encode {client : RedisClient} (connected : client.pRedisContext = true)
    {d : Bytes} (nonempty : d ≠ []) (fits : (encode d).length < 2 ^ 31) :
    recordFromRedis client (some (.string (some (encode d)))) = .ok d := by
  have clean : 0 ∉ encode d := fun zero => ((isWord_encode nonempty).clean 0 zero).1 rfl
  have length : toInt (encode d).length = (encode d).length := toInt_of_range (by omega) (by omega)
  have decoded := decode_encodeFrom d none (by rw [← encode_eq]; omega)
  rw [← encode_eq, ← length] at decoded
  rw [recordFromRedis, RedisClient.execString_string connected, cString_eq_self.mpr clean]
  exact decodeReply_ok decoded

/-- For every zone, kind of record and record that is not empty and whose command fits an `int`:
hiredis takes the command apart into the name, the key and the encoding, reading no other argument,
and the member comes back as the record. -/
theorem record_carried {zone : Int} {key d : Bytes} {client : RedisClient}
    (isKey : key ∈ onKeysInit (decimalInt zone)) (nonempty : d ≠ [])
    (fits : totalLength [bytes "SADD", key, encode d] + 1 < 2 ^ 31)
    (connected : client.pRedisContext = true) :
    redisvFormatCommand (makeSAddRedisCmd key (encode d)) =
        .ok (some ⟨[bytes "SADD", key, encode d], protocolText [bytes "SADD", key, encode d]⟩) ∧
      recordFromRedis client (some (.string (some (encode d)))) = .ok d := by
  have shorter := length_lt_totalLength (bytes "SADD") key (encode d)
  refine ⟨?_, recordFromRedis_encode connected nonempty (by omega)⟩
  rw [makeSAddRedisCmd_eq, redisvFormatCommand_words (record_areWords isKey nonempty)]
  exact buildCommand_fits fits

/-- A record with a null, a blank and a percent sign. -/
theorem record_carried_specials :
    redisvFormatCommand (makeSAddRedisCmd (bytes "4401_UPDATE_ESEAL") (encode [0, 32, 37])) =
        .ok (some ⟨[bytes "SADD", bytes "4401_UPDATE_ESEAL", encode [0, 32, 37]],
          protocolText [bytes "SADD", bytes "4401_UPDATE_ESEAL", encode [0, 32, 37]]⟩) ∧
      recordFromRedis connectedRedis (some (.string (some (encode [0, 32, 37])))) =
        .ok [0, 32, 37] :=
  @record_carried 4401 _ _ connectedRedis (by decide +kernel) (by decide) (by decide +kernel) rfl

/-- A record whose length fits an `int` and whose encoding does not: the command for it is not
built. -/
theorem record_too_long :
    ∃ d : Bytes, d ≠ [] ∧ d.length < 2 ^ 31 ∧
      ∀ command, redisvFormatCommand (makeSAddRedisCmd (bytes "4401_UPDATE_ESEAL") (encode d)) ≠
        .ok (some command) := by
  obtain ⟨d, length⟩ : ∃ d : Bytes, d.length = 2 ^ 31 - 1 :=
    ⟨List.replicate (2 ^ 31 - 1) 0, List.length_replicate⟩
  have nonempty : d ≠ [] := by
    rw [← List.length_pos_iff, length]
    omega
  refine ⟨d, nonempty, by omega, fun command => ?_⟩
  have isKey : bytes "4401_UPDATE_ESEAL" ∈ onKeysInit (decimalInt 4401) := by decide +kernel
  rw [makeSAddRedisCmd_eq, redisvFormatCommand_words (record_areWords isKey nonempty)]
  refine buildCommand_too_long ?_ command
  have longer := length_encode d
  have shorter := length_lt_totalLength (bytes "SADD") (bytes "4401_UPDATE_ESEAL") (encode d)
  omega

end NetServer
