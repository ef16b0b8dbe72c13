import Mathlib.Data.List.Basic

/-
This file holds the value types that every part of the library shares.
-/

namespace PrivacyPass

abbrev Bytes := List UInt8

/-- A `std::array` carries its length in its type. -/
abbrev FixedBytes (size : Nat) := { bytes : Bytes // bytes.length = size }

abbrev Nonce := FixedBytes 32
abbrev ChallengeDigest := FixedBytes 32
abbrev TokenKeyId := FixedBytes 32
abbrev Hash256 := FixedBytes 32
abbrev Hash384 := FixedBytes 48

def FixedBytes.zero (size : Nat) : FixedBytes size := ⟨List.replicate size 0, by simp⟩

/-- A `std::string` literal stands for its bytes. -/
def ascii (text : String) : Bytes := text.toList.map fun char => char.toNat.toUInt8

/-- The enumeration has a fixed underlying type, and the decoders cast any 16-bit value to it. -/
structure TokenType where
  value : UInt16
  deriving DecidableEq, Repr

namespace TokenType

def voprfP384Sha384 : TokenType := ⟨0x0001⟩
def blindRsa : TokenType := ⟨0x0002⟩
def voprfRistretto255Sha512 : TokenType := ⟨0x0005⟩
def partiallyBlindRsa : TokenType := ⟨0xDA7A⟩
def arcP256 : TokenType := ⟨0xE5AC⟩

end TokenType

inductive ErrorCode where
  | ok
  | bufferTooSmall
  | invalidLength
  | malformedData
  | unexpectedEnd
  | cryptoError
  | invalidKey
  | invalidSignature
  | blindingFailed
  | unblindingFailed
  | verificationFailed
  | randomGenerationFailed
  | tokenMissing
  | tokenInvalid
  | tokenExpired
  | tokenReplayed
  | scopeMismatch
  | issuerUnknown
  | tokenMalformed
  | unsupportedTokenType
  | invalidChallenge
  | invalidHeader
  | missingParameter
  | invalidBase64
  deriving DecidableEq, Repr

structure Error where
  code : ErrorCode
  message : String
  deriving DecidableEq, Repr

abbrev Result (α : Type) := Except Error α

/-- A sequence of two computations succeeds exactly when both succeed. -/
theorem Result.bind_eq_ok {α β : Type} {first : Result α} {next : α → Result β} {value : β} :
    (first >>= next) = .ok value ↔ ∃ middle, first = .ok middle ∧ next middle = .ok value := by
  cases first with
  | error error =>
      constructor
      · intro success
        cases success
      · intro ⟨_, equal, _⟩
        cases equal
  | ok middle =>
      constructor
      · intro success
        exact ⟨middle, rfl, success⟩
      · intro ⟨_, equal, success⟩
        cases equal
        exact success

/-- A successful step hands its value to the next one. -/
theorem Result.bind_ok {α β : Type} {first : Result α} {next : α → Result β} {value : α}
    (success : first = .ok value) : (first >>= next) = next value := by
  rw [success]
  rfl

structure TokenTypeInfo where
  type : TokenType
  authenticatorSize : Nat
  keyIdSize : Nat
  blindedElementSize : Nat
  publiclyVerifiable : Bool
  deriving DecidableEq, Repr

/-- The key of an issuer is registered under the id that its holder gives for it. -/
structure PublicKey where
  type : TokenType
  data : Bytes
  keyId : TokenKeyId
  deriving DecidableEq

def TokenTypeInfo.forType (type : TokenType) : TokenTypeInfo :=
  if type = .voprfP384Sha384 then ⟨type, 48, 32, 49, false⟩
  else if type = .blindRsa then ⟨type, 256, 32, 256, true⟩
  else if type = .voprfRistretto255Sha512 then ⟨type, 64, 32, 32, false⟩
  else if type = .partiallyBlindRsa then ⟨type, 256, 32, 256, true⟩
  else if type = .arcP256 then ⟨type, 65, 32, 65, false⟩
  else ⟨type, 0, 0, 0, false⟩

/-- The loop keeps the disjunction of all byte differences. -/
def byteDifference (a b : Bytes) : UInt8 :=
  (a.zip b).foldl (fun diff pair => diff ||| (pair.1 ^^^ pair.2)) 0

def constantTimeEqual (a b : Bytes) : Bool :=
  if a.length ≠ b.length then false else byteDifference a b == 0

/-- The accumulated difference is zero exactly when it started at zero and all pairs agree. -/
theorem byteDifference_fold (pairs : List (UInt8 × UInt8)) (start : UInt8) :
    pairs.foldl (fun diff pair => diff ||| (pair.1 ^^^ pair.2)) start = 0 ↔
      start = 0 ∧ ∀ pair ∈ pairs, pair.1 = pair.2 := by
  induction pairs generalizing start with
  | nil => simp
  | cons pair pairs ih =>
      rw [List.foldl_cons, ih]
      simp only [UInt8.or_eq_zero_iff, UInt8.xor_eq_zero_iff, List.mem_cons, forall_eq_or_imp,
        and_assoc]

/-- The comparison returns true exactly on equal buffers. -/
theorem constantTimeEqual_iff (a b : Bytes) : constantTimeEqual a b = true ↔ a = b := by
  unfold constantTimeEqual
  by_cases length : a.length = b.length
  · rw [if_neg (by simpa using length), beq_iff_eq, byteDifference, byteDifference_fold]
    constructor
    · intro ⟨_, same⟩
      apply List.ext_getElem length
      intro index left right
      exact same (a[index], b[index]) (List.mem_iff_getElem.mpr
        ⟨index, by rw [List.length_zip]; omega, List.getElem_zip⟩)
    · rintro rfl
      refine ⟨rfl, ?_⟩
      intro pair member
      obtain ⟨index, inside, rfl⟩ := List.mem_iff_getElem.mp member
      simp
  · rw [if_pos length]
    constructor
    · intro absurd
      cases absurd
    · intro equal
      exact absurd (congrArg List.length equal) length

end PrivacyPass
