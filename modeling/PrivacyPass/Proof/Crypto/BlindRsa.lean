import PrivacyPass.Construction.Crypto.BlindRsa
import PrivacyPass.Library.BlindSignature
import PrivacyPass.Proof.Crypto.Bignum

/-
This file proves that an unblinded signature is the signature of the message.
-/

namespace PrivacyPass.Crypto

open Library BlindSignature

section Blinding

variable {n : Nat}

/-- The loop takes exactly the numbers with an inverse, and zero is none of them. -/
def takes (n r : Nat) : Bool := decide (r ≠ 0 ∧ Nat.gcd r n = 1)

theorem takes_iff {r : Nat} : takes n r = true ↔ r ≠ 0 ∧ Nat.gcd r n = 1 := decide_eq_true_iff

/-- The loop stops at the first number that it takes. -/
theorem drawBlind_eq (draws : List Nat) : BlindRsaPublicKey.drawBlind n draws =
    (draws.find? (takes n)).bind fun r => (bnModInverse r n).map fun inverse => (r, inverse) := by
  induction draws with
  | nil => rfl
  | cons r draws ih =>
      unfold BlindRsaPublicKey.drawBlind
      by_cases zero : r = 0
      · have skipped : ¬ takes n r = true := by simp [takes, zero]
        rw [if_pos zero, ih, List.find?_cons_of_neg skipped]
      · rw [if_neg zero]
        by_cases coprime : Nat.gcd r n = 1
        · have taken := takes_iff.mpr ⟨zero, coprime⟩
          rw [List.find?_cons_of_pos taken, bnModInverse, if_pos coprime]
          simp [bnModInverse, coprime]
        · have skipped : ¬ takes n r = true := by simp [takes, coprime]
          rw [bnModInverse, if_neg coprime, List.find?_cons_of_neg skipped]
          exact ih

/-- The loop returns the number that it takes and the inverse of this number. -/
theorem drawBlind_eq_some {draws : List Nat} {r inverse : Nat} :
    BlindRsaPublicKey.drawBlind n draws = some (r, inverse) ↔
      draws.find? (takes n) = some r ∧ bnModInverse r n = some inverse := by
  rw [drawBlind_eq]
  cases draws.find? (takes n) with
  | none => simp
  | some taken =>
      rw [Option.bind_some, Option.map_eq_some_iff, Option.some.injEq]
      constructor
      · intro ⟨found, inverted, same⟩
        obtain ⟨rfl, rfl⟩ := Prod.mk.inj same
        exact ⟨rfl, inverted⟩
      · rintro ⟨rfl, inverted⟩
        exact ⟨inverse, inverted, rfl⟩

/-- The loop ends with a candidate that has an inverse. -/
theorem drawBlind_spec {draws : List Nat} (invertible : ∃ r ∈ draws, r ≠ 0 ∧ Nat.gcd r n = 1) :
    ∃ r ∈ draws, ∃ inverse, BlindRsaPublicKey.drawBlind n draws = some (r, inverse) ∧
      bnModInverse r n = some inverse := by
  obtain ⟨unit, member, good⟩ := invertible
  obtain ⟨r, found⟩ := Option.isSome_iff_exists.mp
    (List.find?_isSome.mpr ⟨unit, member, takes_iff.mpr good⟩)
  obtain ⟨-, coprime⟩ := takes_iff.mp (List.find?_some found)
  have inverted : bnModInverse r n = some _ := if_pos coprime
  exact ⟨r, List.mem_of_find?_eq_some found, _, drawBlind_eq_some.mpr ⟨found, inverted⟩, inverted⟩

/-- A candidate that the loop takes has an inverse. -/
theorem drawBlind_invertible {draws : List Nat} {r inverse : Nat}
    (drawn : BlindRsaPublicKey.drawBlind n draws = some (r, inverse)) :
    ∃ r ∈ draws, r ≠ 0 ∧ Nat.gcd r n = 1 := by
  obtain ⟨found, -⟩ := drawBlind_eq_some.mp drawn
  exact ⟨r, List.mem_of_find?_eq_some found, takes_iff.mp (List.find?_some found)⟩

end Blinding

section Sizes

variable {n : Nat}

theorem bnMontCtxSet_of_odd (odd : n % 2 = 1) : ¬ bnMontCtxSet n = false := by
  simp [bnMontCtxSet, odd]

theorem lt_of_size (size : bnNumBytes n = rsaModulusSize) : n < 256 ^ rsaModulusSize := by
  rw [← size]
  exact lt_bnNumBytes n

/-- A modulus of 2048 bits fills the bytes of an encoding. -/
theorem bnNumBytes_of_bits (bits : bnNumBits n = rsaBits) : bnNumBytes n = rsaModulusSize := by
  rw [bnNumBytes, bits]
  rfl

theorem lt_of_bits (bits : bnNumBits n = rsaBits) : n < 256 ^ rsaModulusSize :=
  lt_of_size (bnNumBytes_of_bits bits)

end Sizes

variable [RsaBackend]

/-- A key is read when the library reads it and its parameters are the right ones. -/
theorem fromSpki_eq_ok {spki : Bytes} {key : BlindRsaPublicKey} :
    BlindRsaPublicKey.fromSpki spki = .ok key ↔ spki.length ≤ maxInputSize ∧
      ∃ pkey, RsaBackend.parsePublicKeySpki spki = some pkey ∧
        validateRsaParams pkey rsaBits rsaPublicExponent = .ok () ∧ key = ⟨some pkey, spki⟩ := by
  unfold BlindRsaPublicKey.fromSpki
  split
  · next long => simp [Nat.not_le.mpr long]
  · next short =>
      cases parses : RsaBackend.parsePublicKeySpki spki with
      | none => simp
      | some pkey =>
          cases valid : validateRsaParams pkey rsaBits rsaPublicExponent with
          | error error => simp [valid]
          | ok => simp [valid, Nat.le_of_not_lt short, eq_comm]

/-- The inverse of the blinding data belongs to a factor among the draws. -/
theorem blind_inverse {key : BlindRsaPublicKey} {pkey : EvpPkey} (held : key.pkey = some pkey)
    {msg salt : Bytes} {draws : List Nat} {blinding : BlindingData}
    (blinded : key.blind msg salt draws = .ok blinding) :
    ∃ r inverse, BlindRsaPublicKey.drawBlind pkey.n draws = some (r, inverse) ∧
      bnBn2BinPad inverse (bnNumBytes pkey.n) = some blinding.inverse := by
  rw [BlindRsaPublicKey.blind, held] at blinded
  dsimp only at blinded
  split at blinded
  · cases blinded
  · obtain ⟨encoded, -, blinded⟩ := Result.bind_eq_ok.mp blinded
    split at blinded
    · cases blinded
    split at blinded
    · cases blinded
    · next r inverse drawn =>
        refine ⟨r, inverse, drawn, ?_⟩
        split at blinded
        · cases blinded
        · split at blinded
          · next written _ =>
              cases blinded
              exact written
          · cases blinded

/-- A message can only be blinded with an invertible factor. -/
theorem blind_invertible {key : BlindRsaPublicKey} {pkey : EvpPkey} (held : key.pkey = some pkey)
    {msg salt : Bytes} {draws : List Nat} {blinding : BlindingData}
    (blinded : key.blind msg salt draws = .ok blinding) :
    ∃ r ∈ draws, r ≠ 0 ∧ Nat.gcd r pkey.n = 1 := by
  obtain ⟨r, inverse, drawn, -⟩ := blind_inverse held blinded
  exact drawBlind_invertible drawn

section Steps

variable {pkey : EvpPkey} (size : bnNumBytes pkey.n = rsaModulusSize) (odd : pkey.n % 2 = 1)

include size odd

/-- The blinding multiplies the encoding by a power of the factor. -/
theorem blind_ok {key : BlindRsaPublicKey} (held : key.pkey = some pkey) {msg salt encoded : Bytes}
    {draws : List Nat} {r inverse : Nat} (encodes : emsaPssEncode pkey msg salt = .ok encoded)
    (drawn : BlindRsaPublicKey.drawBlind pkey.n draws = some (r, inverse)) (below : inverse < pkey.n) :
    key.blind msg salt draws = .ok ⟨BigEndian.toBytes 256 inverse, BigEndian.toBytes 256
      (BigEndian.ofBytes encoded * (r ^ pkey.e % pkey.n) % pkey.n)⟩ := by
  have fits := lt_of_size size
  have positive : 0 < pkey.n := Nat.zero_lt_of_lt below
  have blinded := Nat.mod_lt (BigEndian.ofBytes encoded * (r ^ pkey.e % pkey.n)) positive
  have inverseBytes := bnBn2BinPad_of_lt (below.trans fits)
  have blindedBytes := bnBn2BinPad_of_lt (blinded.trans fits)
  have power : bnModExpMont r pkey.e pkey.n = some (r ^ pkey.e % pkey.n) := by
    rw [bnModExpMont, if_pos odd]
    rfl
  have product : bnModMulMontgomery (BigEndian.ofBytes encoded) (r ^ pkey.e % pkey.n) pkey.n =
      some (BigEndian.ofBytes encoded * (r ^ pkey.e % pkey.n) % pkey.n) := by
    rw [bnModMulMontgomery, if_pos odd]
  rw [BlindRsaPublicKey.blind, held]
  simp only [size, encodes, drawn, power, Option.bind_some, ne_eq, not_true_eq_false, if_false, bind,
    Except.bind, product, inverseBytes, blindedBytes, if_neg (bnMontCtxSet_of_odd odd)]
  rfl

omit [RsaBackend] in
/-- The signer raises every residue but zero to its private exponent. -/
theorem blindSign_ok {key : BlindRsaPrivateKey} (held : key.pkey = some pkey) {d blinded : Nat}
    (known : pkey.d = some d) (nonzero : blinded ≠ 0) (below : blinded < pkey.n) :
    key.blindSign (BigEndian.toBytes 256 blinded) =
      .ok (BigEndian.toBytes 256 (blinded ^ d % pkey.n)) := by
  have fits := lt_of_size size
  have read : BigEndian.ofBytes (BigEndian.toBytes 256 blinded) = blinded :=
    BigEndian.ofBytes_toBytes (below.trans fits)
  have power : bnModExpMont blinded d pkey.n = some (blinded ^ d % pkey.n) := by
    rw [bnModExpMont, if_pos odd]
    rfl
  have range : ¬ (blinded = 0 ∨ blinded ≥ pkey.n) := by omega
  rw [BlindRsaPrivateKey.blindSign, held]
  simp only [BigEndian.toBytes_length, known, size, read, power, if_neg range, if_neg (bnMontCtxSet_of_odd odd)]
  rfl

/-- The unblinding multiplies the blind signature by the inverse, and the result is verified. -/
theorem finalize_ok {key : BlindRsaPublicKey} (held : key.pkey = some pkey) {z inverse : Nat}
    {blindedMsg msg : Bytes} (nonzero : z ≠ 0) (below : z < pkey.n) (reduced : inverse < pkey.n)
    (verified : key.verify msg (BigEndian.toBytes 256 (z * inverse % pkey.n)) = .ok true) :
    (key.finalize (BigEndian.toBytes 256 z) ⟨BigEndian.toBytes 256 inverse, blindedMsg⟩ msg).1 =
      .ok (BigEndian.toBytes 256 (z * inverse % pkey.n)) := by
  have fits := lt_of_size size
  have readSignature : BigEndian.ofBytes (BigEndian.toBytes 256 z) = z :=
    BigEndian.ofBytes_toBytes (below.trans fits)
  have readInverse : BigEndian.ofBytes (BigEndian.toBytes 256 inverse) = inverse :=
    BigEndian.ofBytes_toBytes (reduced.trans fits)
  have product : bnModMulMontgomery z inverse pkey.n = some (z * inverse % pkey.n) := by
    rw [bnModMulMontgomery, if_pos odd]
  have range : ¬ (z = 0 ∨ z ≥ pkey.n) := by omega
  have written : BigEndian.toBytes rsaModulusSize (z * inverse % pkey.n) =
      BigEndian.toBytes 256 (z * inverse % pkey.n) := rfl
  rw [BlindRsaPublicKey.finalize, held]
  simp only [BigEndian.toBytes_length, size, readSignature, readInverse, product, if_neg range,
    written, verified]
  rfl

omit odd in
/-- A blind signature beyond the modulus is refused. -/
theorem finalize_of_large {key : BlindRsaPublicKey} (held : key.pkey = some pkey) {z inverse : Nat}
    {blindedMsg msg : Bytes} (fits : z < 256 ^ rsaModulusSize) (large : pkey.n ≤ z) :
    (key.finalize (BigEndian.toBytes 256 z) ⟨BigEndian.toBytes 256 inverse, blindedMsg⟩ msg).1 =
      .error ⟨.unblindingFailed, "Blind signature out of range"⟩ := by
  have read : BigEndian.ofBytes (BigEndian.toBytes 256 z) = z := BigEndian.ofBytes_toBytes fits
  have range : z = 0 ∨ z ≥ pkey.n := .inr large
  rw [BlindRsaPublicKey.finalize, held]
  simp only [BigEndian.toBytes_length, size, read, if_pos range]
  rfl

end Steps

section Exchange

/-- The crypto library hashes every message. -/
structure HashesSucceed : Prop where
  sha256 : ∀ data, ∃ digest, HashBackend.evpSha256 data = some digest
  sha384 : ∀ data, ∃ digest, HashBackend.evpSha384 data = some digest

/-- The key has the parameters that every key is checked for, and its modulus is odd. -/
structure IsPssKey (pkey : EvpPkey) : Prop where
  valid : validateRsaParams pkey rsaBits rsaPublicExponent = .ok ()
  odd : Odd pkey.n

/-- The crypto library pads messages for the keys of the scheme and accepts the signatures of its
paddings, as RSASSA-PSS asks for. -/
structure PssConforms : Prop where
  /-- A salt of the right size is enough for an encoding. -/
  pads : ∀ pkey digest salt, IsPssKey pkey → salt.length = saltLength →
    ∃ encoded, RsaBackend.paddingAddPkcs1Pss pkey digest salt = some encoded
  /-- The first bit of an encoding is clear, and its last byte is the trailer. -/
  encodes : ∀ pkey digest salt encoded, IsPssKey pkey →
    RsaBackend.paddingAddPkcs1Pss pkey digest salt = some encoded →
      BigEndian.ofBytes encoded < 2 ^ (rsaBits - 1) ∧ ∃ front, encoded = front ++ [0xBC]
  /-- A reduced number is a signature when its power is an encoding of the message. -/
  verifies : ∀ pkey msg signature digest salt encoded, IsPssKey pkey →
    HashBackend.evpSha384 msg = some digest → salt.length = saltLength →
    RsaBackend.paddingAddPkcs1Pss pkey digest salt = some encoded →
    signature.length = rsaModulusSize → BigEndian.ofBytes signature < pkey.n →
    BigEndian.ofBytes signature ^ pkey.e % pkey.n = BigEndian.ofBytes encoded →
      RsaBackend.digestVerify pkey msg signature = some true

omit [RsaBackend] in
theorem validateRsaParams_ok {pkey : EvpPkey} {bits e : Nat}
    (valid : validateRsaParams pkey bits e = .ok ()) : bnNumBits pkey.n = bits ∧ pkey.e = e := by
  unfold validateRsaParams at valid
  split at valid
  · cases valid
  split at valid
  · cases valid
  · next same => exact ⟨by tauto, by tauto⟩

omit [RsaBackend] in
theorem IsPssKey.bits {pkey : EvpPkey} (keyed : IsPssKey pkey) : bnNumBits pkey.n = rsaBits :=
  (validateRsaParams_ok keyed.valid).1

omit [RsaBackend] in
theorem IsPssKey.exponent {pkey : EvpPkey} (keyed : IsPssKey pkey) : pkey.e = rsaPublicExponent :=
  (validateRsaParams_ok keyed.valid).2

theorem emsaPssEncode_padded {pkey : EvpPkey} {msg salt encoded : Bytes} {digest : Hash384}
    (hashed : HashBackend.evpSha384 msg = some digest)
    (padded : RsaBackend.paddingAddPkcs1Pss pkey digest salt = some encoded) :
    emsaPssEncode pkey msg salt = .ok encoded := by
  have digested : sha384 msg = .ok digest := by rw [sha384, hashed]
  rw [emsaPssEncode, Result.bind_ok digested, padded]

/-- Every message has an encoding, which is a number below the modulus and not zero. -/
theorem emsaPssEncode_ok (hashes : HashesSucceed) (pss : PssConforms) {pkey : EvpPkey}
    (keyed : IsPssKey pkey) (msg : Bytes) {salt : Bytes}
    (salted : salt.length = saltLength) :
    ∃ digest encoded, HashBackend.evpSha384 msg = some digest ∧
      RsaBackend.paddingAddPkcs1Pss pkey digest salt = some encoded ∧
      emsaPssEncode pkey msg salt = .ok encoded ∧ BigEndian.ofBytes encoded ≠ 0 ∧
      BigEndian.ofBytes encoded < pkey.n := by
  have large : 2 ^ (rsaBits - 1) ≤ pkey.n := le_of_bnNumBits keyed.bits (by decide)
  obtain ⟨digest, hashed⟩ := hashes.sha384 msg
  obtain ⟨encoded, padded⟩ := pss.pads pkey digest salt keyed salted
  obtain ⟨half, front, trailed⟩ := pss.encodes pkey digest salt encoded keyed padded
  have nonzero : BigEndian.ofBytes encoded ≠ 0 := by
    rw [trailed, BigEndian.ofBytes_concat]
    exact Nat.succ_ne_zero _
  exact ⟨digest, encoded, hashed, padded, emsaPssEncode_padded hashed padded, nonzero, half.trans_le large⟩

/-- The unblinded number is the signature of the encoding, and the library accepts it. -/
theorem unblinded_accepted (pss : PssConforms) {pkey : EvpPkey} {d : Nat}
    (keyed : IsPssKey pkey) (exponents : RsaExponents pkey.n pkey.e d) {msg salt : Bytes}
    {digest : Hash384} {encoded : Bytes} (hashed : HashBackend.evpSha384 msg = some digest)
    (salted : salt.length = saltLength)
    (padded : RsaBackend.paddingAddPkcs1Pss pkey digest salt = some encoded)
    (below : BigEndian.ofBytes encoded < pkey.n) (fits : pkey.n < 256 ^ rsaModulusSize)
    {r inverse : Nat} (cancels : (r : ZMod pkey.n) * inverse = 1) :
    RsaBackend.digestVerify pkey msg (BigEndian.toBytes 256
      ((BigEndian.ofBytes encoded * (r ^ pkey.e % pkey.n) % pkey.n) ^ d % pkey.n * inverse % pkey.n)) =
        some true := by
  have range : 0 < pkey.n := Nat.zero_lt_of_lt below
  rw [exponents.unblind_mod cancels]
  have read : BigEndian.ofBytes (BigEndian.toBytes 256 (BigEndian.ofBytes encoded ^ d % pkey.n)) =
      BigEndian.ofBytes encoded ^ d % pkey.n :=
    BigEndian.ofBytes_toBytes ((Nat.mod_lt _ range).trans fits)
  apply pss.verifies pkey msg _ digest salt encoded keyed hashed salted padded
  · exact BigEndian.toBytes_length _ _
  · rw [read]
    exact Nat.mod_lt _ range
  · rw [read]
    exact exponents.check_mod below

/-- The message passes through the blinding, the signer and the unblinding, and the signature that
comes out is accepted under the public key. -/
theorem blind_sign_finalize (hashes : HashesSucceed) (pss : PssConforms) {pkey secret : EvpPkey}
    {d : Nat} (keyed : IsPssKey pkey) (exponents : RsaExponents pkey.n pkey.e d)
    (modulus : secret.n = pkey.n) (known : secret.d = some d)
    (msg : Bytes) {salt : Bytes} (salted : salt.length = saltLength) {draws : List Nat}
    (invertible : ∃ r ∈ draws, r ≠ 0 ∧ Nat.gcd r pkey.n = 1) :
    ∃ blinding signature authenticator,
      blinding.blindedMsg.length = 256 ∧ signature.length = 256 ∧ authenticator.length = 256 ∧
      (⟨some secret⟩ : BlindRsaPrivateKey).blindSign blinding.blindedMsg = .ok signature ∧
      ∀ key : BlindRsaPublicKey, key.pkey = some pkey →
        key.blind msg salt draws = .ok blinding ∧
        key.verify msg authenticator = .ok true ∧
        ∀ kept, (key.finalize signature ⟨blinding.inverse, kept⟩ msg).1 = .ok authenticator := by
  have size := bnNumBytes_of_bits keyed.bits
  have fits := lt_of_bits keyed.bits
  have odd : pkey.n % 2 = 1 := Nat.odd_iff.mp keyed.odd
  have positive : pkey.e ≠ 0 := by rw [keyed.exponent]; decide
  obtain ⟨digest, encoded, hashed, padded, encodes, nonzero, below⟩ :=
    emsaPssEncode_ok hashes pss keyed msg salted
  obtain ⟨r, -, inverse, drawn, inverted⟩ := drawBlind_spec invertible
  have range : 0 < pkey.n := Nat.zero_lt_of_lt below
  obtain ⟨cancels, reduced⟩ := bnModInverse_spec range inverted
  let blinded := BigEndian.ofBytes encoded * (r ^ pkey.e % pkey.n) % pkey.n
  let z := blinded ^ d % pkey.n
  have blindedNonzero : blinded ≠ 0 := blinded_mod_ne_zero cancels nonzero below
  have zNonzero : z ≠ 0 := by
    apply exponents.signature_mod_ne_zero positive
    rwa [Nat.mod_eq_of_lt (Nat.mod_lt _ range)]
  have accepted : RsaBackend.digestVerify pkey msg (BigEndian.toBytes 256 (z * inverse % pkey.n)) =
      some true := unblinded_accepted pss keyed exponents hashed salted padded below fits cancels
  refine ⟨⟨BigEndian.toBytes 256 inverse, BigEndian.toBytes 256 blinded⟩, BigEndian.toBytes 256 z,
    BigEndian.toBytes 256 (z * inverse % pkey.n), BigEndian.toBytes_length _ _,
    BigEndian.toBytes_length _ _, BigEndian.toBytes_length _ _, ?_, ?_⟩
  · have signed := @blindSign_ok secret (by rw [modulus, size]) (by rw [modulus, odd]) ⟨some secret⟩ rfl
      d blinded known blindedNonzero (by rw [modulus]; exact Nat.mod_lt _ range)
    rwa [modulus] at signed
  · intro key held
    have verified : key.verify msg (BigEndian.toBytes 256 (z * inverse % pkey.n)) = .ok true := by
      rw [BlindRsaPublicKey.verify, held]
      simp only [accepted]
    refine ⟨blind_ok size odd held encodes drawn reduced, verified, ?_⟩
    intro kept
    exact finalize_ok size odd held zNonzero (Nat.mod_lt _ range) reduced verified

end Exchange
end PrivacyPass.Crypto
