import PrivacyPass.Proof.Wire.BatchFormat
import PrivacyPass.Proof.Wire.Challenge
import PrivacyPass.Proof.Wire.Token

/-
This file proves that every size that is computed before an encoding is the length of the encoding.
-/

namespace PrivacyPass

open Library

/-- The size is the length of every encoding that succeeds. -/
def Predicts {α : Type} (size : α → Nat) (serialize : α → Result Bytes) : Prop :=
  ∀ value bytes, serialize value = .ok bytes → bytes.length = size value

namespace TokenChallenge

/-- A loop that has passed the first entry puts a comma before each of the others. -/
theorem appendOrigins_succ (index : Nat) (result : Bytes) (origins : List Bytes) :
    appendOrigins (index + 1) result origins = result ++ origins.flatMap (comma :: ·) := by
  induction origins generalizing index result with
  | nil => rw [appendOrigins, List.flatMap_nil, List.append_nil]
  | cons origin origins ih =>
      rw [appendOrigins, if_pos (Nat.succ_pos index), ih, List.flatMap_cons]
      simp only [List.append_assoc, List.cons_append, List.nil_append]

theorem intercalate_cons (origin : Bytes) (origins : List Bytes) :
    [comma].intercalate (origin :: origins) = origin ++ origins.flatMap (comma :: ·) := by
  induction origins generalizing origin with
  | nil => simp
  | cons second origins ih =>
      rw [List.intercalate_cons_cons, ih, List.flatMap_cons]
      simp only [List.append_assoc, List.cons_append, List.nil_append]

/-- The loop of the join computes the text of the entries. -/
theorem originInfoString_eq_loop (challenge : TokenChallenge) :
    challenge.originInfoString = appendOrigins 0 [] challenge.originInfo := by
  unfold originInfoString
  cases challenge.originInfo with
  | nil => rfl
  | cons origin origins =>
      rw [intercalate_cons, appendOrigins, appendOrigins_succ]
      rfl

/-- The two loops run side by side, and the number is the length of the text at every index. -/
theorem countOrigins_eq_length (index : Nat) (result : Bytes) (origins : List Bytes) :
    countOrigins index result.length origins = (appendOrigins index result origins).length := by
  induction origins generalizing index result with
  | nil => rfl
  | cons origin origins ih =>
      rw [countOrigins, appendOrigins, ← ih]
      congr 1
      rw [List.length_append]
      split
      · rw [List.length_append, List.length_singleton]
      · rfl

/-- The loop that counts commas predicts the encoding. -/
theorem countedSize_predicts : Predicts countedSize serialize := by
  intro challenge bytes success
  obtain ⟨-, rfl⟩ := serialize_eq_ok.mp success
  rw [wire_length, countedSize, originInfoString_eq_loop, ← countOrigins_eq_length]
  rfl

end TokenChallenge

section Formats

theorem Token.serializedSize_predicts : Predicts Token.serializedSize Token.serialize := by
  intro token bytes success
  rw [Token.serialize_eq] at success
  rw [← Except.ok.inj success, Token.wire_length]

theorem AuthenticatorInput.serializedSize_predicts :
    Predicts AuthenticatorInput.serializedSize AuthenticatorInput.serialize := by
  intro input bytes success
  rw [AuthenticatorInput.serialize_eq] at success
  rw [← Except.ok.inj success, AuthenticatorInput.wire_length]
  rfl

theorem TokenRequest.serializedSize_predicts :
    Predicts TokenRequest.serializedSize TokenRequest.serialize := by
  intro request bytes success
  rw [TokenRequest.serialize_eq] at success
  rw [← Except.ok.inj success, TokenRequest.wire_length]

/-- The size of a batch follows the width of its payload's size. -/
theorem BatchedTokenRequest.serializedSize_predicts :
    Predicts BatchedTokenRequest.serializedSize BatchedTokenRequest.serialize := by
  intro ⟨requests⟩ bytes success
  rw [BatchedTokenRequest.serialize_eq] at success
  rw [← Except.ok.inj success, payloadWire, List.length_append, ByteReader.varintBytes_length,
    BatchedTokenRequest.flatMap_wire_length]
  rfl

theorem TokenResponse.serializedSize_predicts :
    Predicts TokenResponse.serializedSize TokenResponse.serialize := by
  intro ⟨type, content⟩ bytes success
  rw [TokenResponse.serialize_eq] at success
  rw [← Except.ok.inj success]
  cases content with
  | blindRsa content => rfl
  | voprf content => exact List.length_append

end Formats

/-- Each of the six formats predicts the length of its encoding, and the challenge does so with both
of its sizes. -/
theorem serializedSize_predicts_all :
    Predicts TokenChallenge.serializedSize TokenChallenge.serialize ∧
      Predicts TokenChallenge.countedSize TokenChallenge.serialize ∧
      Predicts Token.serializedSize Token.serialize ∧
      Predicts AuthenticatorInput.serializedSize AuthenticatorInput.serialize ∧
      Predicts TokenRequest.serializedSize TokenRequest.serialize ∧
      Predicts BatchedTokenRequest.serializedSize BatchedTokenRequest.serialize ∧
      Predicts TokenResponse.serializedSize TokenResponse.serialize :=
  ⟨fun _ _ success => TokenChallenge.serializedSize_exact success, TokenChallenge.countedSize_predicts,
    Token.serializedSize_predicts, AuthenticatorInput.serializedSize_predicts,
    TokenRequest.serializedSize_predicts, BatchedTokenRequest.serializedSize_predicts,
    TokenResponse.serializedSize_predicts⟩

end PrivacyPass
