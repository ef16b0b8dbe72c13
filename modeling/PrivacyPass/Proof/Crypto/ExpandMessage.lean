import PrivacyPass.Construction.Crypto.Voprf
import PrivacyPass.Library.Expansion

/-
This file proves that the message expansion of the group library follows its recursive definition.
-/

namespace PrivacyPass.Crypto

open Library Expansion

/-- The digest of SHA-384 is any function of the message that has no failures. -/
abbrev totalHash (evpSha256 : Bytes → Option Hash256) (H : Bytes → Hash384) : HashBackend where
  evpSha256 := evpSha256
  evpSha384 data := some (H data)

section Loop

variable (evpSha256 : Bytes → Option Hash256) (H : Bytes → Hash384) (msg dst : Bytes) (lenInBytes : Nat)

theorem sha384_total (data : Bytes) : @sha384 (totalHash evpSha256 H) data = .ok (H data) := rfl

/-- The loop that carries the last block computes the blocks of the recursion. -/
theorem expandBlocks_eq (count index : Nat) :
    @expandBlocks (totalHash evpSha256 H) (firstBlock H 128 msg dst lenInBytes) (tagPrime dst) count
        (index + 2) (block H 128 msg dst lenInBytes (index + 1)) =
      .ok (blocks H 128 msg dst lenInBytes (index + 2) count) := by
  induction count generalizing index with
  | zero => rfl
  | succ count ih =>
      have next : @sha384 (totalHash evpSha256 H)
          (List.zipWith (· ^^^ ·) (firstBlock H 128 msg dst lenInBytes).val
            (block H 128 msg dst lenInBytes (index + 1)).val ++ [(index + 2).toUInt8] ++ tagPrime dst) =
          .ok (block H 128 msg dst lenInBytes (index + 2)) := by
        rw [sha384_total, block, toBytes_one]
        rfl
      unfold expandBlocks
      dsimp only
      rw [Result.bind_ok next, Result.bind_ok (ih (index + 1)), blocks_succ]

/-- The blocks cover the length, so the resize only cuts. -/
theorem resize_eq :
    ((block H 128 msg dst lenInBytes 1).val ++
          blocks H 128 msg dst lenInBytes 2 ((lenInBytes + 48 - 1) / 48 - 1)).take lenInBytes ++
        List.replicate (lenInBytes - ((block H 128 msg dst lenInBytes 1).val ++
          blocks H 128 msg dst lenInBytes 2 ((lenInBytes + 48 - 1) / 48 - 1)).length) 0 =
      expand H 128 msg dst lenInBytes := by
  rw [expand, Nat.ceilDiv_eq_add_pred_div]
  rcases Nat.eq_zero_or_pos lenInBytes with rfl | positive
  · rw [List.take_zero, List.take_zero, Nat.zero_sub, List.replicate_zero, List.append_nil]
  · obtain ⟨others, ell⟩ : ∃ others, (lenInBytes + 48 - 1) / 48 = others + 1 :=
      ⟨(lenInBytes + 48 - 1) / 48 - 1, by omega⟩
    have long : lenInBytes ≤ (blocks H 128 msg dst lenInBytes 1 (others + 1)).length := by
      rw [blocks_length]
      omega
    rw [ell, Nat.add_sub_cancel, ← blocks_succ, Nat.sub_eq_zero_of_le long, List.replicate_zero,
      List.append_nil]

/-- Admitted parameters give the expansion. -/
theorem expandMessageXmd_admitted (short : lenInBytes ≤ 255 * 48) (tagged : dst.length ≤ 255) :
    @expandMessageXmd (totalHash evpSha256 H) msg dst lenInBytes =
      .ok (expand H 128 msg dst lenInBytes) := by
  have admitted : ¬ (lenInBytes > 255 * 48 ∨ dst.length > 255) := by omega
  have first : @sha384 (totalHash evpSha256 H) (List.replicate 128 (0 : UInt8) ++ msg ++
      [(lenInBytes >>> 8).toUInt8, lenInBytes.toUInt8] ++ [0] ++ tagPrime dst) =
      .ok (firstBlock H 128 msg dst lenInBytes) := by
    rw [sha384_total, firstBlock, toBytes_two, toBytes_one]
    rfl
  have second : @sha384 (totalHash evpSha256 H)
      ((firstBlock H 128 msg dst lenInBytes).val ++ [1] ++ tagPrime dst) =
      .ok (block H 128 msg dst lenInBytes 1) := by
    rw [sha384_total, block, toBytes_one]
    rfl
  have tag : dst ++ [dst.length.toUInt8] = tagPrime dst := by rw [tagPrime, toBytes_one]
  unfold expandMessageXmd
  rw [if_neg admitted]
  dsimp only
  rw [tag, Result.bind_ok first, Result.bind_ok second,
    Result.bind_ok (expandBlocks_eq evpSha256 H msg dst lenInBytes ((lenInBytes + 48 - 1) / 48 - 1) 0)]
  exact congrArg Except.ok (resize_eq H msg dst lenInBytes)

end Loop

/-- The code computes the expansion of every admitted request, whose length is the requested one, and
it refuses every other request. -/
theorem expandMessageXmd_eq_expand (evpSha256 : Bytes → Option Hash256) (H : Bytes → Hash384)
    (msg dst : Bytes) (lenInBytes : Nat) :
    @expandMessageXmd (totalHash evpSha256 H) msg dst lenInBytes =
        (if lenInBytes ≤ 12240 ∧ dst.length ≤ 255 then .ok (expand H 128 msg dst lenInBytes)
        else .error ⟨.cryptoError, "Invalid expand_message_xmd parameters"⟩) ∧
      (expand H 128 msg dst lenInBytes).length = lenInBytes := by
  refine ⟨?_, expand_length H 128 msg dst lenInBytes (by decide)⟩
  split
  · next admitted => exact expandMessageXmd_admitted evpSha256 H msg dst lenInBytes admitted.1 admitted.2
  · next refused =>
      unfold expandMessageXmd
      rw [if_pos (by omega)]

end PrivacyPass.Crypto
