import Mathlib.Tactic.Common
import PrivacyPass.Construction.Types
import PrivacyPass.Library.BigEndian
import PrivacyPass.Library.Cursor

/-
This file models the byte reader, the byte writer and the variable-length integers.
-/

namespace PrivacyPass

open Library

/-- The cursor keeps the bytes before `pos_` and the bytes from `pos_` on. -/
abbrev ByteReader := Cursor UInt8

abbrev ByteDecoder (α : Type) := Decoder UInt8 Error α

namespace ByteReader

def remaining (reader : ByteReader) : Nat := reader.rest.length

def position (reader : ByteReader) : Nat := reader.before.length

def readU8 (reader : ByteReader) : Option UInt8 × ByteReader :=
  match reader.rest with
  | value :: rest => (some value, ⟨reader.before ++ [value], rest⟩)
  | _ => (none, reader)

def readU16 (reader : ByteReader) : Option UInt16 × ByteReader :=
  match reader.rest with
  | b0 :: b1 :: rest =>
      (some ((b0.toUInt16 <<< 8) ||| b1.toUInt16), ⟨reader.before ++ [b0, b1], rest⟩)
  | _ => (none, reader)

def readU32 (reader : ByteReader) : Option UInt32 × ByteReader :=
  match reader.rest with
  | b0 :: b1 :: b2 :: b3 :: rest =>
      (some ((b0.toUInt32 <<< 24) ||| (b1.toUInt32 <<< 16) ||| (b2.toUInt32 <<< 8) |||
        b3.toUInt32), ⟨reader.before ++ [b0, b1, b2, b3], rest⟩)
  | _ => (none, reader)

/-- The two high bits of the first byte select the width. -/
def readVarint (reader : ByteReader) : Option UInt64 × ByteReader :=
  match reader.rest with
  | [] => (none, reader)
  | first :: tail =>
      let prefixBits := first >>> 6
      if prefixBits = 0 then
        (some (first &&& 0x3F).toUInt64, ⟨reader.before ++ [first], tail⟩)
      else if prefixBits = 1 then
        match tail with
        | b1 :: rest =>
            (some (((first &&& 0x3F).toUInt16 <<< 8) ||| b1.toUInt16).toUInt64,
              ⟨reader.before ++ [first, b1], rest⟩)
        | _ => (none, reader)
      else if prefixBits = 2 then
        match tail with
        | b1 :: b2 :: b3 :: rest =>
            (some (((first &&& 0x3F).toUInt32 <<< 24) ||| (b1.toUInt32 <<< 16) |||
              (b2.toUInt32 <<< 8) ||| b3.toUInt32).toUInt64,
              ⟨reader.before ++ [first, b1, b2, b3], rest⟩)
        | _ => (none, reader)
      else
        match tail with
        | b1 :: b2 :: b3 :: b4 :: b5 :: b6 :: b7 :: rest =>
            (some (((first &&& 0x3F).toUInt64 <<< 56) ||| (b1.toUInt64 <<< 48) |||
              (b2.toUInt64 <<< 40) ||| (b3.toUInt64 <<< 32) ||| (b4.toUInt64 <<< 24) |||
              (b5.toUInt64 <<< 16) ||| (b6.toUInt64 <<< 8) ||| b7.toUInt64),
              ⟨reader.before ++ [first, b1, b2, b3, b4, b5, b6, b7], rest⟩)
        | _ => (none, reader)

def readBytes (count : Nat) (reader : ByteReader) : Option Bytes × ByteReader :=
  if reader.remaining < count then (none, reader)
  else
    (some (reader.rest.take count),
      ⟨reader.before ++ reader.rest.take count, reader.rest.drop count⟩)

/-- A missing payload leaves the length byte consumed. -/
def readBytesU8 (reader : ByteReader) : Option Bytes × ByteReader :=
  match reader.readU8 with
  | (none, moved) => (none, moved)
  | (some length, moved) => readBytes length.toNat moved

/-- A missing payload leaves the two length bytes consumed. -/
def readBytesU16 (reader : ByteReader) : Option Bytes × ByteReader :=
  match reader.readU16 with
  | (none, moved) => (none, moved)
  | (some length, moved) => readBytes length.toNat moved

def readArray (size : Nat) (reader : ByteReader) : Option (FixedBytes size) × ByteReader :=
  if short : reader.rest.length < size then (none, reader)
  else
    (some ⟨reader.rest.take size, by rw [List.length_take]; omega⟩,
      ⟨reader.before ++ reader.rest.take size, reader.rest.drop size⟩)

/-- This read looks at the next byte and leaves it unread. -/
def peekU8 (reader : ByteReader) : Option UInt8 × ByteReader :=
  match reader.rest with
  | value :: _ => (some value, reader)
  | _ => (none, reader)

def skip (count : Nat) (reader : ByteReader) : Bool × ByteReader :=
  if reader.remaining < count then (false, reader)
  else (true, ⟨reader.before ++ reader.rest.take count, reader.rest.drop count⟩)

/-- The members of the class that read. -/
inductive Operation where
  | u8
  | u16
  | u32
  | varint
  | bytes (count : Nat)
  | bytesU8
  | bytesU16
  | array (size : Nat)
  | peekU8
  | skip (count : Nat)
  deriving DecidableEq

namespace Operation

def Result : Operation → Type
  | .u8 => UInt8
  | .u16 => UInt16
  | .u32 => UInt32
  | .varint => UInt64
  | .bytes _ => Bytes
  | .bytesU8 => Bytes
  | .bytesU16 => Bytes
  | .array size => FixedBytes size
  | .peekU8 => UInt8
  | .skip _ => Unit

/-- A skip that answers `false` counts as an absent value. -/
def read : (operation : Operation) → Read UInt8 operation.Result
  | .u8 => readU8
  | .u16 => readU16
  | .u32 => readU32
  | .varint => readVarint
  | .bytes count => readBytes count
  | .bytesU8 => readBytesU8
  | .bytesU16 => readBytesU16
  | .array size => readArray size
  | .peekU8 => ByteReader.peekU8
  | .skip count => fun reader =>
      (if (ByteReader.skip count reader).1 then some () else none, (ByteReader.skip count reader).2)

end Operation

theorem readBytes_consumes {count : Nat} (positive : 0 < count) (error : Error) :
    Consumes (Decoder.ofRead (readBytes count) error) := by
  intro cursor value final success
  rw [Decoder.ofRead_eq_ok] at success
  unfold readBytes remaining at success
  split at success
  · cases success
  · next enough =>
      cases success
      rw [List.length_drop]
      omega

end ByteReader

/-- A 16-bit integer goes to the wire with its high byte first. -/
def u16Bytes (value : UInt16) : Bytes := [(value >>> 8).toUInt8, value.toUInt8]

/-- A 32-bit integer goes to the wire with its high byte first. -/
def u32Bytes (value : UInt32) : Bytes :=
  [(value >>> 24).toUInt8, (value >>> 16).toUInt8, (value >>> 8).toUInt8, value.toUInt8]

/-- A variable-length integer goes to the wire in the shortest form that holds it. -/
def varintBytes (value : UInt64) : Bytes :=
  if value ≤ 0x3F then [value.toUInt8]
  else if value ≤ 0x3FFF then [((0x40 : UInt64) ||| (value >>> 8)).toUInt8, value.toUInt8]
  else if value ≤ 0x3FFFFFFF then
    [((0x80 : UInt64) ||| (value >>> 24)).toUInt8, (value >>> 16).toUInt8,
      (value >>> 8).toUInt8, value.toUInt8]
  else
    [((0xC0 : UInt64) ||| (value >>> 56)).toUInt8, (value >>> 48).toUInt8,
      (value >>> 40).toUInt8, (value >>> 32).toUInt8, (value >>> 24).toUInt8,
      (value >>> 16).toUInt8, (value >>> 8).toUInt8, value.toUInt8]

/-- The owned mode appends to `data`, and the external mode writes into a caller's buffer. -/
structure ByteWriter where
  data : Bytes := []
  externalBuffer : Bytes := []
  pos : Nat := 0
  useExternal : Bool := false
  overflow : Bool := false
  deriving DecidableEq, Repr

/-- A write call reports whether it succeeded. -/
abbrev Write := ByteWriter → Bool × ByteWriter

namespace ByteWriter

def external (buffer : Bytes) : ByteWriter := { externalBuffer := buffer, useExternal := true }

def size (writer : ByteWriter) : Nat :=
  if writer.useExternal then writer.pos else writer.data.length

def view (writer : ByteWriter) : Bytes :=
  if writer.useExternal then writer.externalBuffer.take writer.pos else writer.data

def take (writer : ByteWriter) : Bytes :=
  if writer.useExternal then writer.externalBuffer.take writer.pos else writer.data

/-- Every fixed-size write checks the room for all of its bytes before it stores the first. -/
def writeAll (bytes : Bytes) : Write := fun writer =>
  if writer.useExternal then
    if writer.pos + bytes.length > writer.externalBuffer.length then
      (false, { writer with overflow := true })
    else
      (true, { writer with
        externalBuffer := writer.externalBuffer.take writer.pos ++ bytes ++
          writer.externalBuffer.drop (writer.pos + bytes.length)
        pos := writer.pos + bytes.length })
  else (true, { writer with data := writer.data ++ bytes })

def writeU8 (value : UInt8) : Write := writeAll [value]

def writeU16 (value : UInt16) : Write := writeAll (u16Bytes value)

def writeU32 (value : UInt32) : Write := writeAll (u32Bytes value)

def writeBytes (bytes : Bytes) : Write := writeAll bytes

/-- The conjunction of two write calls skips the second after a failure. -/
def both (first second : Write) : Write := fun writer =>
  match first writer with
  | (true, moved) => second moved
  | (false, moved) => (false, moved)

def writeVarint (value : UInt64) : Write :=
  if value ≤ 0x3F then
    writeU8 value.toUInt8
  else if value ≤ 0x3FFF then
    both (writeU8 ((0x40 : UInt64) ||| (value >>> 8)).toUInt8) (writeU8 value.toUInt8)
  else if value ≤ 0x3FFFFFFF then
    both (writeU8 ((0x80 : UInt64) ||| (value >>> 24)).toUInt8) <|
    both (writeU8 (value >>> 16).toUInt8) <|
    both (writeU8 (value >>> 8).toUInt8) (writeU8 value.toUInt8)
  else
    both (writeU8 ((0xC0 : UInt64) ||| (value >>> 56)).toUInt8) <|
    both (writeU8 (value >>> 48).toUInt8) <|
    both (writeU8 (value >>> 40).toUInt8) <|
    both (writeU8 (value >>> 32).toUInt8) <|
    both (writeU8 (value >>> 24).toUInt8) <|
    both (writeU8 (value >>> 16).toUInt8) <|
    both (writeU8 (value >>> 8).toUInt8) (writeU8 value.toUInt8)

def writeBytesU8 (bytes : Bytes) : Write :=
  if bytes.length > 255 then fun writer => (false, writer)
  else both (writeU8 bytes.length.toUInt8) (writeBytes bytes)

def writeBytesU16 (bytes : Bytes) : Write :=
  if bytes.length > 65535 then fun writer => (false, writer)
  else both (writeU16 bytes.length.toUInt16) (writeBytes bytes)

def writeArray {size : Nat} (array : FixedBytes size) : Write := writeBytes array.val

def hasOverflow (writer : ByteWriter) : Bool := writer.overflow

/-- The members of the class that write, with what they write. -/
inductive Operation where
  | u8 (value : UInt8)
  | u16 (value : UInt16)
  | u32 (value : UInt32)
  | varint (value : UInt64)
  | bytes (data : Bytes)
  | bytesU8 (data : Bytes)
  | bytesU16 (data : Bytes)
  | array {size : Nat} (data : FixedBytes size)

def Operation.write : Operation → Write
  | .u8 value => writeU8 value
  | .u16 value => writeU16 value
  | .u32 value => writeU32 value
  | .varint value => writeVarint value
  | .bytes data => writeBytes data
  | .bytesU8 data => writeBytesU8 data
  | .bytesU16 data => writeBytesU16 data
  | .array data => writeArray data

/-- A program makes its calls one after another and keeps their answers. -/
def writeEach : List Operation → ByteWriter → List Bool × ByteWriter
  | [], writer => ([], writer)
  | operation :: operations, writer =>
      let called := operation.write writer
      let others := writeEach operations called.2
      (called.1 :: others.1, others.2)

/-- A serializer makes its calls one after another and ignores their answers. -/
def callAll (calls : List Write) (writer : ByteWriter) : ByteWriter :=
  calls.foldl (fun writer call => (call writer).2) writer

/-- A serializer takes the bytes that its calls left in a fresh owned writer. -/
def build (calls : List Write) : Bytes := (callAll calls {}).take

end ByteWriter

def varintSize (value : UInt64) : Nat :=
  if value ≤ 0x3F then 1
  else if value ≤ 0x3FFF then 2
  else if value ≤ 0x3FFFFFFF then 4
  else 8

end PrivacyPass
