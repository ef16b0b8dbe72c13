import PrivacyPass.Proof.Crypto.BlindingData

/-
This file proves the arithmetic of an honest blind signature.
-/

namespace PrivacyPass.Crypto

open Library BlindSignature

/-- An invertible number is drawn at once, and its inverse cancels it. -/
theorem drawBlind_cons {n r : Nat} (large : 1 < n) (nonzero : r ≠ 0) (coprime : Nat.gcd r n = 1) :
    ∃ inverse, (∀ draws, BlindRsaPublicKey.drawBlind n (r :: draws) = some (r, inverse)) ∧
      inverse < n ∧ (r : ZMod n) * inverse = 1 ∧ r * inverse % n = 1 := by
  obtain ⟨inverse, inverts⟩ : ∃ inverse, bnModInverse r n = some inverse := by
    rw [bnModInverse, if_pos coprime]
    exact ⟨_, rfl⟩
  obtain ⟨cancels, reduced⟩ := bnModInverse_spec (by omega) inverts
  refine ⟨inverse, ?_, reduced, cancels, ?_⟩
  · intro draws
    exact drawBlind_eq_some.mpr ⟨List.find?_cons_of_pos (takes_iff.mpr ⟨nonzero, coprime⟩), inverts⟩
  · have same : ((r * inverse : ℕ) : ZMod n) = (1 : ℕ) := by
      push_cast
      exact cancels
    rw [(ZMod.natCast_eq_natCast_iff' _ _ _).mp same, Nat.mod_eq_of_lt large]

/-- For every key of 2048 bits over two primes, every encoding below the modulus and every invertible
factor the signer accepts the blinded message, the client accepts the range of the answer, and the
unblinded value is the signature of the encoding, whatever the factor was. -/
theorem blind_sign_unblind [RsaBackend] {p q d : Nat} (primeLeft : p.Prime) (primeRight : q.Prime)
    (different : p ≠ q) (oddLeft : Odd p) (oddRight : Odd q) {pkey secret : EvpPkey}
    (modulus : pkey.n = p * q) (bits : bnNumBits pkey.n = rsaBits)
    (inverse : pkey.e * d ≡ 1 [MOD (p - 1).lcm (q - 1)]) (shared : secret.n = pkey.n)
    (known : secret.d = some d) {msg salt encoded : Bytes}
    (encodes : emsaPssEncode pkey msg salt = .ok encoded) (nonzero : 0 < BigEndian.ofBytes encoded)
    (below : BigEndian.ofBytes encoded < pkey.n) {r : Nat} (positive : 1 ≤ r)
    (invertible : Nat.gcd r pkey.n = 1) :
    ∃ rInv,
      let m := BigEndian.ofBytes encoded
      let blinded := m * r ^ pkey.e % pkey.n
      let z := blinded ^ d % pkey.n
      let s := m ^ d % pkey.n
      (r * rInv % pkey.n = 1 ∧ z * rInv % pkey.n = s ∧ s ^ pkey.e % pkey.n = m) ∧
      (0 < blinded ∧ 0 < z) ∧
      (rInv < pkey.n ∧ blinded < pkey.n ∧ z < pkey.n ∧ s < pkey.n ∧ pkey.n < 256 ^ rsaModulusSize) ∧
      (⟨some secret⟩ : BlindRsaPrivateKey).blindSign (BigEndian.toBytes 256 blinded) =
        .ok (BigEndian.toBytes 256 z) ∧
      ∀ key : BlindRsaPublicKey, key.pkey = some pkey →
        (∀ draws, key.blind msg salt (r :: draws) =
          .ok ⟨BigEndian.toBytes 256 rInv, BigEndian.toBytes 256 blinded⟩) ∧
        ∀ kept, key.finalize (BigEndian.toBytes 256 z) ⟨BigEndian.toBytes 256 rInv, kept⟩ msg =
          (match key.verify msg (BigEndian.toBytes 256 s) with
            | .ok true => .ok (BigEndian.toBytes 256 s)
            | _ => .error ⟨.verificationFailed, "Unblinded signature verification failed"⟩,
          ⟨[], kept⟩) := by
  have exponents : RsaExponents pkey.n pkey.e d := by
    rw [modulus]
    exact rsaExponents_of_primes primeLeft primeRight different oddLeft oddRight inverse
  have exponent : pkey.e ≠ 0 := by
    have odd : p ≠ 2 := fun two => absurd oddLeft (by rw [two]; decide)
    exact left_ne_zero_of_mul
      (exponents_ne_zero primeLeft odd (inverse.of_dvd (Nat.dvd_lcm_left _ _)))
  have odd : pkey.n % 2 = 1 := Nat.odd_iff.mp exponents.odd
  have size := bnNumBytes_of_bits bits
  have fits := lt_of_bits bits
  have range : 0 < pkey.n := Nat.zero_lt_of_lt below
  have large : 1 < pkey.n := by omega
  obtain ⟨rInv, drawn, reduced, cancels, product⟩ :=
    drawBlind_cons large (Nat.ne_of_gt positive) invertible
  let m := BigEndian.ofBytes encoded
  let blinded := m * r ^ pkey.e % pkey.n
  let z := blinded ^ d % pkey.n
  have split : m * (r ^ pkey.e % pkey.n) % pkey.n = blinded := Nat.mul_mod_mod _ _ _
  have blindedNonzero : blinded ≠ 0 := by
    rw [← split]
    exact blinded_mod_ne_zero cancels (Nat.ne_of_gt nonzero) below
  have blindedReduced : blinded < pkey.n := Nat.mod_lt _ range
  have zNonzero : z ≠ 0 := by
    apply exponents.signature_mod_ne_zero exponent
    rwa [Nat.mod_eq_of_lt blindedReduced]
  have zReduced : z < pkey.n := Nat.mod_lt _ range
  have unblinded : z * rInv % pkey.n = m ^ d % pkey.n := by
    have whole := exponents.unblind_mod cancels m
    rwa [split] at whole
  refine ⟨rInv, ⟨product, unblinded, exponents.check_mod below⟩,
    ⟨Nat.pos_of_ne_zero blindedNonzero, Nat.pos_of_ne_zero zNonzero⟩,
    ⟨reduced, blindedReduced, zReduced, Nat.mod_lt _ range, fits⟩, ?_, ?_⟩
  · have signed := @blindSign_ok secret (by rw [shared, size]) (by rw [shared, odd]) ⟨some secret⟩ rfl
      d blinded known blindedNonzero (by rw [shared]; exact blindedReduced)
    rwa [shared] at signed
  · intro key held
    constructor
    · intro draws
      rw [blind_ok size odd held encodes (drawn draws) reduced, split]
    · intro kept
      have readSignature := BigEndian.ofBytes_toBytes (zReduced.trans fits)
      have readInverse := BigEndian.ofBytes_toBytes (reduced.trans fits)
      have unblinds : key.Unblinds (BigEndian.toBytes 256 z) ⟨BigEndian.toBytes 256 rInv, kept⟩ pkey
          (m ^ d % pkey.n) := by
        refine ⟨held, size, odd, BigEndian.toBytes_length _ _, BigEndian.toBytes_length _ _, ?_, ?_, ?_⟩
        · exact readSignature.symm ▸ zNonzero
        · exact readSignature.symm ▸ zReduced
        · rw [← unblinded]
          exact congrArg (· % pkey.n) (congrArg₂ (· * ·) readSignature.symm readInverse.symm)
      exact unblinds.finalize msg

/-- The answer of the recorded key to a message that was blinded with 2 is in range and unblinds to
the signature. -/
theorem blind_sign_unblind_recorded :
    ∃ encoded rInv,
      @emsaPssEncode pssBackend (pssKey recordedModulus none) [0x69] (List.replicate 48 0) =
        .ok encoded ∧
      (BigEndian.ofBytes encoded * 2 ^ (pssKey recordedModulus none).e % recordedModulus) ^
          recordedExponent % recordedModulus * rInv % recordedModulus =
        BigEndian.ofBytes encoded ^ recordedExponent % recordedModulus := by
  obtain ⟨left, right, different, oddLeft, oddRight, inverse⟩ := recorded_primes
  obtain ⟨-, encoded, -, -, encodes, nonzero, below⟩ :=
    @emsaPssEncode_ok pssBackend pssBackend_hashes pssBackend_conforms (pssKey recordedModulus none)
      (pssKey_isPssKey recorded_exponents.odd recordedModulus_bits none) [0x69] (List.replicate 48 0)
      List.length_replicate
  obtain ⟨rInv, ⟨-, unblinded, -⟩, -⟩ := @blind_sign_unblind pssBackend leftPrime rightPrime
    recordedExponent left right different oddLeft oddRight (pssKey recordedModulus none)
    (pssKey recordedModulus (some recordedExponent)) rfl recordedModulus_bits inverse rfl rfl [0x69]
    (List.replicate 48 0) encoded encodes (Nat.pos_of_ne_zero nonzero) below 2 (by decide)
    (Nat.coprime_two_left.mpr recorded_exponents.odd)
  exact ⟨encoded, rInv, encodes, unblinded⟩

end PrivacyPass.Crypto
