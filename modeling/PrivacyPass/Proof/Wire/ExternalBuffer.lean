import PrivacyPass.Library.BoundedLog
import PrivacyPass.Proof.Wire.Primitives

/-
This file proves that a writer over a caller's buffer is a bounded log of bytes, and that it agrees
with an owned writer as long as the bytes fit.
-/

namespace PrivacyPass.ByteWriter

open Library

/-- The external writer shows the content of a log whose capacity is the size of the buffer. -/
structure Shows {capacity : Nat} (writer : ByteWriter) (log : BoundedLog UInt8 capacity) : Prop where
  external : writer.useExternal = true
  sized : writer.externalBuffer.length = capacity
  placed : writer.pos = log.content.length
  shown : writer.externalBuffer.take writer.pos = log.content
  remembered : writer.overflow = log.overflow

/-- The call answers the request in both modes. -/
structure Refines (call : Write) (request : Request UInt8) : Prop where
  external : ∀ {capacity : Nat} {writer : ByteWriter} {log : BoundedLog UInt8 capacity},
    writer.Shows log → (call writer).1 = (log.answer request).1 ∧
      (call writer).2.Shows (log.answer request).2
  owned : ∀ data, call { data := data } = ((request.append data).1, { data := (request.append data).2 })

section Views

variable {capacity : Nat} {writer : ByteWriter} {log : BoundedLog UInt8 capacity}

theorem external_shows (buffer : Bytes) :
    (external buffer).Shows (BoundedLog.empty : BoundedLog UInt8 buffer.length) :=
  ⟨rfl, rfl, rfl, rfl, rfl⟩

theorem Shows.view_eq (linked : writer.Shows log) : writer.view = log.content := by
  rw [view, if_pos linked.external, linked.shown]

theorem Shows.size_eq (linked : writer.Shows log) : writer.size = log.content.length := by
  rw [size, if_pos linked.external, linked.placed]

end Views

section Calls

/-- A fixed-size write puts one piece into the log. -/
theorem writeAll_refines (bytes : Bytes) : Refines (writeAll bytes) (some [bytes]) where
  external := by
    intro capacity writer log ⟨external, sized, placed, shown, remembered⟩
    change _ = (log.putAll [bytes]).1 ∧ Shows _ (log.putAll [bytes]).2
    rw [BoundedLog.putAll_singleton, writeAll, if_pos external]
    by_cases fits : log.content.length + bytes.length ≤ capacity
    · have room : ¬ writer.pos + bytes.length > writer.externalBuffer.length := by omega
      have inside : (writer.externalBuffer.take writer.pos).length = writer.pos :=
        List.length_take_of_le (by omega)
      rw [if_neg room, BoundedLog.put_of_fits fits]
      refine ⟨rfl, external, ?_, ?_, ?_, remembered⟩
      · rw [List.length_append, List.length_append, List.length_drop, inside]
        omega
      · rw [BoundedLog.push, List.length_append, placed]
      · change List.take (writer.pos + bytes.length) (_ ++ _ ++ _) = log.content ++ bytes
        rw [List.take_left' (by rw [List.length_append, inside]), shown]
    · have full : writer.pos + bytes.length > writer.externalBuffer.length := by omega
      rw [if_pos full, BoundedLog.put_of_exceeds fits]
      exact ⟨rfl, external, sized, placed, shown, rfl⟩
  owned data := by
    change _ = (true, ({ data := data ++ [bytes].flatten } : ByteWriter))
    rw [List.flatten_singleton]
    rfl

/-- A conjunction of calls puts its pieces one after another. -/
theorem Refines.both {first second : Write} {piece : Bytes} {pieces : List Bytes}
    (one : Refines first (some [piece])) (two : Refines second (some pieces)) :
    Refines (both first second) (some (piece :: pieces)) where
  external := by
    intro capacity writer log linked
    obtain ⟨answer, moved⟩ := one.external linked
    change _ = (log.putAll [piece]).1 at answer
    change Shows _ (log.putAll [piece]).2 at moved
    rw [BoundedLog.putAll_singleton] at answer moved
    change _ = (log.putAll (piece :: pieces)).1 ∧ Shows _ (log.putAll (piece :: pieces)).2
    rw [ByteWriter.both]
    by_cases fits : log.content.length + piece.length ≤ capacity
    · rw [BoundedLog.put_of_fits fits] at answer moved
      rw [BoundedLog.putAll_cons_of_fits pieces fits]
      split
      · next step =>
          rw [step] at moved
          exact two.external moved
      · next step =>
          rw [step] at answer
          cases answer
    · rw [BoundedLog.put_of_exceeds fits] at answer moved
      rw [BoundedLog.putAll_cons_of_exceeds pieces fits]
      split
      · next step =>
          rw [step] at answer
          cases answer
      · next step =>
          rw [step] at moved
          exact ⟨rfl, moved⟩
  owned data := by
    have left := one.owned data
    change _ = (true, ({ data := data ++ [piece].flatten } : ByteWriter)) at left
    have right := two.owned (data ++ [piece].flatten)
    change _ = (true, ({ data := data ++ [piece].flatten ++ pieces.flatten } : ByteWriter)) at right
    change _ = (true, ({ data := data ++ (piece :: pieces).flatten } : ByteWriter))
    rw [ByteWriter.both, left]
    change second _ = _
    rw [right, List.flatten_singleton, List.flatten_cons, List.append_assoc]

theorem writeU8_refines (value : UInt8) : Refines (writeU8 value) (some [[value]]) :=
  writeAll_refines [value]

/-- A variable-length write puts its bytes one by one. -/
theorem writeVarint_refines (value : UInt64) :
    Refines (writeVarint value) (some ((varintBytes value).map fun byte => [byte])) := by
  unfold writeVarint varintBytes
  split
  · exact writeU8_refines _
  split
  · exact (writeU8_refines _).both (writeU8_refines _)
  split
  · exact (writeU8_refines _).both ((writeU8_refines _).both
      ((writeU8_refines _).both (writeU8_refines _)))
  · exact (writeU8_refines _).both ((writeU8_refines _).both ((writeU8_refines _).both
      ((writeU8_refines _).both ((writeU8_refines _).both ((writeU8_refines _).both
        ((writeU8_refines _).both (writeU8_refines _)))))))

/-- A write with a limit puts the front part and the data, or refuses both. -/
theorem limited_refines {limit : Nat} {front data : Bytes} :
    Refines (if data.length > limit then fun writer => (false, writer)
        else both (writeAll front) (writeAll data))
      (if data.length > limit then none else some [front, data]) := by
  split
  · exact ⟨fun linked => ⟨rfl, linked⟩, fun _ => rfl⟩
  · exact (writeAll_refines front).both (writeAll_refines data)

/-- These are the pieces that a call writes as a whole, and a payload that is too long has none. -/
def Operation.request : Operation → Request UInt8
  | .u8 value => some [[value]]
  | .u16 value => some [u16Bytes value]
  | .u32 value => some [u32Bytes value]
  | .varint value => some ((varintBytes value).map fun byte => [byte])
  | .bytes data => some [data]
  | .bytesU8 data => if data.length > 255 then none else some [[data.length.toUInt8], data]
  | .bytesU16 data =>
      if data.length > 65535 then none else some [u16Bytes data.length.toUInt16, data]
  | .array data => some [data.val]

/-- Each call answers its request. -/
theorem Operation.write_refines (operation : Operation) : Refines operation.write operation.request := by
  cases operation with
  | u8 value => exact writeU8_refines value
  | u16 value => exact writeAll_refines (u16Bytes value)
  | u32 value => exact writeAll_refines (u32Bytes value)
  | varint value => exact writeVarint_refines value
  | bytes data => exact writeAll_refines data
  | bytesU8 data => exact limited_refines
  | bytesU16 data => exact limited_refines
  | array data => exact writeAll_refines data.val

end Calls

section Runs

/-- A program of calls on an external writer is a list of requests to the log. -/
theorem writeEach_external (operations : List Operation) {capacity : Nat} {writer : ByteWriter}
    {log : BoundedLog UInt8 capacity} (linked : writer.Shows log) :
    (writeEach operations writer).1 = (log.answerAll (operations.map Operation.request)).1 ∧
      (writeEach operations writer).2.Shows (log.answerAll (operations.map Operation.request)).2 := by
  induction operations generalizing writer log with
  | nil => exact ⟨rfl, linked⟩
  | cons operation operations ih =>
      obtain ⟨answer, moved⟩ := operation.write_refines.external linked
      obtain ⟨answers, last⟩ := ih moved
      rw [writeEach, List.map_cons, BoundedLog.answerAll, answer, answers]
      exact ⟨rfl, last⟩

/-- A program of calls on an owned writer is a list of requests to a log without a capacity. -/
theorem writeEach_owned (operations : List Operation) (data : Bytes) :
    writeEach operations { data := data } =
      ((Request.appendAll (operations.map Operation.request) data).1,
        { data := (Request.appendAll (operations.map Operation.request) data).2 }) := by
  induction operations generalizing data with
  | nil => rfl
  | cons operation operations ih =>
      rw [writeEach, operation.write_refines.owned data, ih]
      rfl

/-- A program that fits the buffer answers and writes as on an owned writer, and every other program
overflows. No program writes past the buffer. -/
theorem writeEach_external_agrees (buffer : Bytes) (operations : List Operation) :
    ((writeEach operations {}).2.view.length ≤ buffer.length →
      (writeEach operations (external buffer)).1 = (writeEach operations {}).1 ∧
        (writeEach operations (external buffer)).2.view = (writeEach operations {}).2.view ∧
        (writeEach operations (external buffer)).2.hasOverflow = false) ∧
      (buffer.length < (writeEach operations {}).2.view.length →
        (writeEach operations (external buffer)).2.hasOverflow = true) ∧
      (writeEach operations (external buffer)).2.size ≤ buffer.length := by
  obtain ⟨answers, final⟩ := writeEach_external operations (external_shows buffer)
  have owned := writeEach_owned operations []
  rw [owned, answers, final.view_eq, final.size_eq, hasOverflow, final.remembered]
  refine ⟨fun fits => ?_, fun exceeds => ?_, BoundedLog.small _⟩
  · exact BoundedLog.answerAll_of_fits fits
  · exact BoundedLog.answerAll_of_exceeds exceeds

/-- Three bytes fit a buffer of four. -/
theorem writeEach_external_agrees_four :
    (writeEach [.u8 1, .bytesU8 [2]] (external [0, 0, 0, 0])).1 = [true, true] ∧
      (writeEach [.u8 1, .bytesU8 [2]] (external [0, 0, 0, 0])).2.view = [1, 1, 2] ∧
      (writeEach [.u8 1, .bytesU8 [2]] (external [0, 0, 0, 0])).2.hasOverflow = false :=
  (writeEach_external_agrees [0, 0, 0, 0] [.u8 1, .bytesU8 [2]]).1 (by decide)

end Runs

end PrivacyPass.ByteWriter
