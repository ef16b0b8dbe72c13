import Mathlib.Data.List.DropRight
import PrivacyPass.Construction.Types

/-
This file models the base64url encoding of byte strings.
-/

namespace PrivacyPass.Base64Url

def encodeTable : Bytes :=
  ascii "ABCDEFGHIJKLMNOPQRSTUVWXYZabcdefghijklmnopqrstuvwxyz0123456789-_"

/-- The table has an entry for each byte, and 255 marks the bytes outside the alphabet. -/
def decodeTable : List UInt8 := [
  255, 255, 255, 255, 255, 255, 255, 255, 255, 255, 255, 255, 255, 255, 255, 255,
  255, 255, 255, 255, 255, 255, 255, 255, 255, 255, 255, 255, 255, 255, 255, 255,
  255, 255, 255, 255, 255, 255, 255, 255, 255, 255, 255, 255, 255,  62, 255, 255,
   52,  53,  54,  55,  56,  57,  58,  59,  60,  61, 255, 255, 255, 255, 255, 255,
  255,   0,   1,   2,   3,   4,   5,   6,   7,   8,   9,  10,  11,  12,  13,  14,
   15,  16,  17,  18,  19,  20,  21,  22,  23,  24,  25, 255, 255, 255, 255,  63,
  255,  26,  27,  28,  29,  30,  31,  32,  33,  34,  35,  36,  37,  38,  39,  40,
   41,  42,  43,  44,  45,  46,  47,  48,  49,  50,  51, 255, 255, 255, 255, 255,
  255, 255, 255, 255, 255, 255, 255, 255, 255, 255, 255, 255, 255, 255, 255, 255,
  255, 255, 255, 255, 255, 255, 255, 255, 255, 255, 255, 255, 255, 255, 255, 255,
  255, 255, 255, 255, 255, 255, 255, 255, 255, 255, 255, 255, 255, 255, 255, 255,
  255, 255, 255, 255, 255, 255, 255, 255, 255, 255, 255, 255, 255, 255, 255, 255,
  255, 255, 255, 255, 255, 255, 255, 255, 255, 255, 255, 255, 255, 255, 255, 255,
  255, 255, 255, 255, 255, 255, 255, 255, 255, 255, 255, 255, 255, 255, 255, 255,
  255, 255, 255, 255, 255, 255, 255, 255, 255, 255, 255, 255, 255, 255, 255, 255,
  255, 255, 255, 255, 255, 255, 255, 255, 255, 255, 255, 255, 255, 255, 255, 255]

/-- This function looks up the six bits of the chunk above the shift. -/
def symbol (chunk shift : UInt32) : UInt8 :=
  encodeTable.getD ((chunk >>> shift) &&& 0x3F).toNat 0

def encode : Bytes → Bytes
  | [] => []
  | [first] =>
      let chunk := first.toUInt32 <<< 16
      [symbol chunk 18, symbol chunk 12]
  | [first, second] =>
      let chunk := (first.toUInt32 <<< 16) ||| (second.toUInt32 <<< 8)
      [symbol chunk 18, symbol chunk 12, symbol chunk 6]
  | first :: second :: third :: rest =>
      let chunk := (first.toUInt32 <<< 16) ||| (second.toUInt32 <<< 8) ||| third.toUInt32
      symbol chunk 18 :: symbol chunk 12 :: symbol chunk 6 :: symbol chunk 0 :: encode rest

def padding : UInt8 := 0x3D

/-- The loop adds padding until four divides the length. -/
def encodePadded (data : Bytes) : Bytes :=
  encode data ++ List.replicate ((4 - (encode data).length % 4) % 4) padding

/-- Each character adds six bits to the buffer, and each eight bits leave it as one byte. -/
def decodeLoop : Bytes → UInt32 → UInt32 → Bytes → Result Bytes
  | [], _, _, result => .ok result
  | char :: rest, buffer, bits, result =>
      let value := decodeTable.getD char.toNat 255
      if value = 255 then .error ⟨.invalidBase64, "Invalid base64url character"⟩
      else
        let buffer := (buffer <<< 6) ||| value.toUInt32
        let bits := bits + 6
        if bits ≥ 8 then
          decodeLoop rest buffer (bits - 8)
            (result ++ [((buffer >>> (bits - 8)) &&& 0xFF).toUInt8])
        else decodeLoop rest buffer bits result

def decode (encoded : Bytes) : Result Bytes :=
  let stripped := encoded.rdropWhile (· = padding)
  if encoded.length - stripped.length > 2 ∨ padding ∈ stripped ∨ stripped.length % 4 = 1 then
    .error ⟨.invalidBase64, "Invalid base64url padding"⟩
  else decodeLoop stripped 0 0 []

end PrivacyPass.Base64Url
