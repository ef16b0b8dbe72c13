import PrivacyPass.Proof.Wire.ExternalBuffer

/-
This file proves which failed calls of the reader and of the external writer leave no trace.
-/

namespace PrivacyPass

open Library

namespace ByteReader

/-- A read without a value leaves the cursor where it was. -/
def Whole {α : Type} (read : Read UInt8 α) : Prop :=
  ∀ reader, (read reader).1 = none → (read reader).2 = reader

section Primitives

/-- A read with a value may move the cursor. -/
theorem moved_whole {α : Type} (value : α) (moved reader : ByteReader) :
    (some value, moved).1 = none → (some value, moved).2 = reader := by
  intro failed
  cases failed

theorem readU8_whole : Whole readU8 := by
  intro reader
  unfold readU8
  split
  · exact moved_whole _ _ _
  · exact fun _ => rfl

theorem readU16_whole : Whole readU16 := by
  intro reader
  unfold readU16
  split
  · exact moved_whole _ _ _
  · exact fun _ => rfl

theorem readU32_whole : Whole readU32 := by
  intro reader
  unfold readU32
  split
  · exact moved_whole _ _ _
  · exact fun _ => rfl

/-- The variable-length read looks for all of its bytes before it moves. -/
theorem readVarint_whole : Whole readVarint := by
  intro reader
  unfold readVarint
  split
  · exact fun _ => rfl
  dsimp only
  split
  · exact moved_whole _ _ _
  split
  · split
    · exact moved_whole _ _ _
    · exact fun _ => rfl
  split
  · split
    · exact moved_whole _ _ _
    · exact fun _ => rfl
  · split
    · exact moved_whole _ _ _
    · exact fun _ => rfl

theorem readBytes_whole (count : Nat) : Whole (readBytes count) := by
  intro reader
  unfold readBytes
  split
  · exact fun _ => rfl
  · exact moved_whole _ _ _

theorem readArray_whole (size : Nat) : Whole (readArray size) := by
  intro reader
  unfold readArray
  split
  · exact fun _ => rfl
  · exact moved_whole _ _ _

theorem peekU8_whole : Whole peekU8 := by
  intro reader
  unfold peekU8
  split
  · exact moved_whole _ _ _
  · exact fun _ => rfl

theorem skip_whole (count : Nat) : Whole (Operation.skip count).read := by
  intro reader
  change (if (skip count reader).1 then some () else none) = none → (skip count reader).2 = reader
  unfold skip
  split
  · exact fun _ => rfl
  · exact moved_whole () _ reader

end Primitives

/-- The length is there, and it announces more bytes than follow it. -/
def Operation.Cut : Operation → Bytes → Prop
  | .bytesU8, length :: payload => payload.length < length.toNat
  | .bytesU16, high :: low :: payload => payload.length < high.toNat * 256 + low.toNat
  | _, _ => False

/-- A payload that is missing after a consumed length leaves the cursor behind the length. -/
theorem readBytes_keeps_iff {count : Nat} {before word rest : Bytes} (nonempty : word ≠ []) :
    ((readBytes count ⟨before ++ word, rest⟩).1 = none →
        position (readBytes count ⟨before ++ word, rest⟩).2 = before.length) ↔
      ¬ rest.length < count := by
  unfold readBytes remaining
  split
  · next short =>
      refine iff_of_false (fun keeps => ?_) (fun enough => enough short)
      have same : (before ++ word).length = before.length := keeps rfl
      have longer := List.length_pos_iff.mpr nonempty
      rw [List.length_append] at same
      omega
  · next enough => exact iff_of_true (fun failed => nomatch failed) enough

/-- A failed read keeps the position exactly when it has not consumed a length. -/
theorem Operation.read_keeps_iff (operation : Operation) (reader : ByteReader) :
    ((operation.read reader).1 = none → position (operation.read reader).2 = position reader) ↔
      ¬ operation.Cut reader.rest := by
  have whole {α : Type} {read : Read UInt8 α} (whole : Whole read) :
      (read reader).1 = none → position (read reader).2 = position reader :=
    fun failed => congrArg position (whole reader failed)
  cases operation with
  | u8 => exact iff_of_true (whole readU8_whole) id
  | u16 => exact iff_of_true (whole readU16_whole) id
  | u32 => exact iff_of_true (whole readU32_whole) id
  | varint => exact iff_of_true (whole readVarint_whole) id
  | bytes count => exact iff_of_true (whole (readBytes_whole count)) id
  | bytesU8 =>
      rcases reader with ⟨before, _ | ⟨length, payload⟩⟩
      · exact iff_of_true (fun _ => rfl) id
      · exact readBytes_keeps_iff (List.cons_ne_nil _ _)
  | bytesU16 =>
      rcases reader with ⟨before, _ | ⟨high, _ | ⟨low, payload⟩⟩⟩
      · exact iff_of_true (fun _ => rfl) id
      · exact iff_of_true (fun _ => rfl) id
      · change _ ↔ ¬ payload.length < high.toNat * 256 + low.toNat
        rw [← u16_toNat]
        exact readBytes_keeps_iff (List.cons_ne_nil _ _)
  | array size => exact iff_of_true (whole (readArray_whole size)) id
  | peekU8 => exact iff_of_true (whole peekU8_whole) id
  | skip count => exact iff_of_true (whole (skip_whole count)) id

end ByteReader

namespace ByteWriter

/-- The external buffer has room for this many bytes. -/
def room (writer : ByteWriter) : Nat := writer.externalBuffer.length - writer.pos

/-- The first part of the call fits the room, and the whole call does not. -/
def Operation.Cut : Operation → Nat → Prop
  | .varint value, room => 1 ≤ room ∧ room < varintSize value
  | .bytesU8 data, room => data.length ≤ 255 ∧ 1 ≤ room ∧ room < 1 + data.length
  | .bytesU16 data, room => data.length ≤ 65535 ∧ 2 ≤ room ∧ room < 2 + data.length
  | _, _ => False

section Requests

open Request

/-- A call is cut exactly when its request is torn. -/
theorem Operation.cut_iff (operation : Operation) (room : Nat) :
    operation.Cut room ↔ operation.request.Torn room := by
  cases operation with
  | u8 value => exact iff_of_false id (torn_single _ room)
  | u16 value => exact iff_of_false id (torn_single _ room)
  | u32 value => exact iff_of_false id (torn_single _ room)
  | varint value =>
      change (1 ≤ room ∧ room < varintSize value) ↔ _
      rw [← ByteReader.varintBytes_length, ← torn_word]
      rfl
  | bytes data => exact iff_of_false id (torn_single _ room)
  | bytesU8 data => exact (torn_limited 255 [data.length.toUInt8] data room).symm
  | bytesU16 data => exact (torn_limited 65535 (u16Bytes data.length.toUInt16) data room).symm
  | array data => exact iff_of_false id (torn_single _ room)

/-- Only an empty payload that is written alone is an empty piece. -/
theorem Operation.request_proper (operation : Operation) : operation.request.Proper := by
  cases operation with
  | u8 value => exact proper_single _
  | u16 value => exact proper_single _
  | u32 value => exact proper_single _
  | varint value => exact proper_word _
  | bytes data => exact proper_single _
  | bytesU8 data => exact proper_limited (List.cons_ne_nil _ _)
  | bytesU16 data => exact proper_limited (List.cons_ne_nil _ _)
  | array data => exact proper_single _

end Requests

section Full

/-- The call fails on a writer whose position has left the buffer, and it moves nothing. -/
def Stuck (call : Write) : Prop :=
  ∀ writer, writer.useExternal = true → writer.externalBuffer.length < writer.pos →
    (call writer).1 = false ∧ (call writer).2.size = writer.size ∧ (call writer).2.view = writer.view

theorem writeAll_stuck (bytes : Bytes) : Stuck (writeAll bytes) := by
  intro writer external outside
  rw [writeAll, if_pos external, if_pos (by omega)]
  exact ⟨rfl, rfl, rfl⟩

theorem Stuck.both {first : Write} (stuck : Stuck first) (second : Write) :
    Stuck (both first second) := by
  intro writer external outside
  obtain ⟨failed, size, view⟩ := stuck writer external outside
  rw [ByteWriter.both]
  split
  · next step =>
      rw [step] at failed
      cases failed
  · next step =>
      rw [step] at size view
      exact ⟨rfl, size, view⟩

/-- Above its limit the call does nothing, and below it the front part already fails. -/
theorem limited_stuck {limit : Nat} {front data : Bytes} :
    Stuck (if data.length > limit then fun writer => (false, writer)
      else both (writeAll front) (writeAll data)) := by
  split
  · exact fun _ _ _ => ⟨rfl, rfl, rfl⟩
  · exact (writeAll_stuck front).both _

/-- The first byte of each width already fails. -/
theorem writeVarint_stuck (value : UInt64) : Stuck (writeVarint value) := by
  unfold writeVarint
  split
  · exact writeAll_stuck _
  split
  · exact (writeAll_stuck _).both _
  split
  · exact (writeAll_stuck _).both _
  · exact (writeAll_stuck _).both _

theorem Operation.write_stuck (operation : Operation) : Stuck operation.write := by
  cases operation with
  | u8 value => exact writeAll_stuck _
  | u16 value => exact writeAll_stuck _
  | u32 value => exact writeAll_stuck _
  | varint value => exact writeVarint_stuck value
  | bytes data => exact writeAll_stuck _
  | bytesU8 data => exact limited_stuck
  | bytesU16 data => exact limited_stuck
  | array data => exact writeAll_stuck _

end Full

/-- No call is cut without room. -/
theorem Operation.not_cut_zero (operation : Operation) : ¬ operation.Cut 0 := by
  intro cut
  cases operation with
  | varint value => exact absurd cut.1 (by decide)
  | bytesU8 data => exact absurd cut.2.1 (by decide)
  | bytesU16 data => exact absurd cut.2.1 (by decide)
  | _ => exact cut

/-- A failed call keeps the size and the view exactly when it is not cut. -/
theorem Operation.write_keeps_iff (operation : Operation) {writer : ByteWriter}
    (external : writer.useExternal = true) :
    ((operation.write writer).1 = false → (operation.write writer).2.size = writer.size ∧
        (operation.write writer).2.view = writer.view) ↔ ¬ operation.Cut writer.room := by
  by_cases inside : writer.pos ≤ writer.externalBuffer.length
  · have length : (writer.externalBuffer.take writer.pos).length = writer.pos :=
      List.length_take_of_le inside
    have linked : writer.Shows (⟨writer.externalBuffer.take writer.pos, by omega, writer.overflow⟩ :
        BoundedLog UInt8 writer.externalBuffer.length) := ⟨external, rfl, length.symm, rfl, rfl⟩
    generalize log : (⟨writer.externalBuffer.take writer.pos, _, writer.overflow⟩ :
        BoundedLog UInt8 writer.externalBuffer.length) = content at linked
    have same : writer.room = content.room := by rw [room, linked.placed, BoundedLog.room]
    obtain ⟨answer, moved⟩ := operation.write_refines.external linked
    rw [answer, moved.size_eq, moved.view_eq, linked.size_eq, linked.view_eq, operation.cut_iff, same,
      ← BoundedLog.answer_keeps_iff operation.request_proper]
    constructor
    · exact fun keeps failed => (keeps failed).2
    · exact fun keeps failed => ⟨congrArg List.length (keeps failed), keeps failed⟩
  · have outside : writer.externalBuffer.length < writer.pos := Nat.lt_of_not_le inside
    have noRoom : writer.room = 0 := Nat.sub_eq_zero_of_le (Nat.le_of_lt outside)
    rw [noRoom]
    exact iff_of_true (fun _ => (operation.write_stuck writer external outside).2) operation.not_cut_zero

end ByteWriter

/-- A failed read keeps the position exactly when it has not consumed a length, and a failed write on
an external buffer keeps the size and the view exactly when none of its parts fits. -/
theorem failed_call_keeps_iff (reading : ByteReader.Operation) (reader : ByteReader)
    (writing : ByteWriter.Operation) {writer : ByteWriter} (external : writer.useExternal = true) :
    (((reading.read reader).1 = none →
        ByteReader.position (reading.read reader).2 = ByteReader.position reader) ↔
      ¬ reading.Cut reader.rest) ∧
    (((writing.write writer).1 = false → (writing.write writer).2.size = writer.size ∧
        (writing.write writer).2.view = writer.view) ↔ ¬ writing.Cut writer.room) :=
  ⟨reading.read_keeps_iff reader, writing.write_keeps_iff external⟩

/-- One byte has been read, and one byte of a length is left. -/
def readingReader : ByteReader := ⟨[0xAA], [0x00]⟩

/-- Two bytes are written, and there is room for one more. -/
def fillingWriter : ByteWriter :=
  { externalBuffer := [0xAA, 0xBB, 0x00], pos := 2, useExternal := true }

/-- A read with half of a length and a write with room for half of a length leave no trace. -/
theorem failed_call_keeps_partial :
    (ByteReader.Operation.bytesU16.read readingReader).1 = none ∧
    ByteReader.position (ByteReader.Operation.bytesU16.read readingReader).2 = 1 ∧
    ((ByteWriter.Operation.bytesU16 [0x01, 0x02]).write fillingWriter).1 = false ∧
    ((ByteWriter.Operation.bytesU16 [0x01, 0x02]).write fillingWriter).2.size = 2 ∧
    ((ByteWriter.Operation.bytesU16 [0x01, 0x02]).write fillingWriter).2.view = [0xAA, 0xBB] := by
  obtain ⟨reads, writes⟩ := failed_call_keeps_iff .bytesU16 readingReader (.bytesU16 [0x01, 0x02])
    (rfl : fillingWriter.useExternal = true)
  have unread : (ByteReader.Operation.bytesU16.read readingReader).1 = none := by decide
  have unwritten : ((ByteWriter.Operation.bytesU16 [0x01, 0x02]).write fillingWriter).1 = false := by
    decide
  have fits : ¬ (ByteWriter.Operation.bytesU16 [0x01, 0x02]).Cut fillingWriter.room := by
    rintro ⟨-, room, -⟩
    exact absurd room (by decide)
  exact ⟨unread, reads.mpr id unread, unwritten, writes.mpr fits unwritten⟩

/-- A length without its payload stays consumed, and half of a number stays written. -/
theorem failed_call_keeps_not :
    (¬ ∀ (reading : ByteReader.Operation) (reader : ByteReader), (reading.read reader).1 = none →
      ByteReader.position (reading.read reader).2 = ByteReader.position reader) ∧
    ¬ ∀ (writing : ByteWriter.Operation) (writer : ByteWriter), writer.useExternal = true →
      (writing.write writer).1 = false → (writing.write writer).2.size = writer.size ∧
        (writing.write writer).2.view = writer.view := by
  constructor
  · intro always
    have kept := always .bytesU8 (.start [1]) rfl
    revert kept
    decide
  · intro always
    have kept := (always (.varint 64) (.external [0]) rfl (by decide)).1
    revert kept
    decide

end PrivacyPass
