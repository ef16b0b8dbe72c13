import PrivacyPass.Proof.Wire.Primitives

/-
This file proves what the reader makes of every variable-length integer that the writer writes.
-/

namespace PrivacyPass

open Library

namespace ByteReader

/-- The reader returns the low 62 bits of each written value and leaves the rest unread. -/
theorem readVarint_written (value : UInt64) : Reads readVarint (varintBytes value) (lowBits value) :=
  (varintBytes_form_low value).reads

end ByteReader

namespace ByteWriter

/-- A written value is read back with its predicted size exactly when it has at most 62 bits. -/
theorem writeVarint_honest_iff (value : UInt64) :
    (∀ writer, writeVarint value {} = (true, writer) → writer.view.length = varintSize value ∧
      ∀ rest, ByteReader.readVarint (.start (writer.view ++ rest)) = (some value, ⟨writer.view, rest⟩)) ↔
      value.toNat < 2 ^ 62 := by
  have written : writeVarint value {} = (true, { data := varintBytes value }) :=
    writeVarint_appends value []
  have read (rest : Bytes) : ByteReader.readVarint (.start (varintBytes value ++ rest)) =
      (some (ByteReader.lowBits value), ⟨varintBytes value, rest⟩) := ByteReader.readVarint_written value [] rest
  rw [← ByteReader.lowBits_eq_self_iff]
  constructor
  · intro honest
    have back := (honest _ written).2 []
    change ByteReader.readVarint (.start (varintBytes value ++ [])) = _ at back
    rw [read] at back
    exact Option.some.inj (congrArg Prod.fst back)
  · intro fits writer success
    rw [written] at success
    cases success
    refine ⟨ByteReader.varintBytes_length value, fun rest => ?_⟩
    change ByteReader.readVarint (.start (varintBytes value ++ rest)) = _
    rw [read, fits]
    rfl

/-- The smallest value of 63 bits is written without complaint and read back as zero. -/
theorem writeVarint_honest_not :
    ¬ ∀ (value : UInt64) (writer : ByteWriter), writeVarint value {} = (true, writer) →
      writer.view.length = varintSize value ∧ ∀ rest,
        ByteReader.readVarint (.start (writer.view ++ rest)) = (some value, ⟨writer.view, rest⟩) := by
  intro always
  have read := (always 0x4000000000000000 _ rfl).2 []
  revert read
  decide

end ByteWriter
end PrivacyPass
