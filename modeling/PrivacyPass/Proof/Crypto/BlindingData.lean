import PrivacyPass.Proof.Exchange

/-
This file proves what a finalization leaves of the blinding data.
-/

namespace PrivacyPass.Crypto

open Library

namespace BlindRsaPublicKey

/-- The call passes the checks of its inputs and reaches the unblinded value. -/
structure Unblinds (key : BlindRsaPublicKey) (blindSig : Bytes) (blindingData : BlindingData)
    (pkey : EvpPkey) (value : Nat) : Prop where
  held : key.pkey = some pkey
  size : bnNumBytes pkey.n = rsaModulusSize
  odd : pkey.n % 2 = 1
  blindSig_length : blindSig.length = rsaModulusSize
  inverse_length : blindingData.inverse.length = rsaModulusSize
  nonzero : BigEndian.ofBytes blindSig ≠ 0
  below : BigEndian.ofBytes blindSig < pkey.n
  value_eq : value =
    BigEndian.ofBytes blindSig * BigEndian.ofBytes blindingData.inverse % pkey.n

section Outcome

variable [RsaBackend] {key : BlindRsaPublicKey} {blindSig msg : Bytes} {blindingData : BlindingData}

/-- A call that reaches the unblinded value clears the inverse and verifies the value. -/
theorem Unblinds.finalize {pkey : EvpPkey} {value : Nat}
    (unblinds : key.Unblinds blindSig blindingData pkey value) (msg : Bytes) :
    key.finalize blindSig blindingData msg =
      (match key.verify msg (BigEndian.toBytes rsaModulusSize value) with
        | .ok true => .ok (BigEndian.toBytes rsaModulusSize value)
        | _ => .error ⟨.verificationFailed, "Unblinded signature verification failed"⟩,
      { blindingData with inverse := [] }) := by
  obtain ⟨held, size, odd, blindSigLength, inverseLength, nonzero, below, rfl⟩ := unblinds
  have short : ¬ rsaModulusSize > maxInputSize := by decide
  have range : ¬ (BigEndian.ofBytes blindSig = 0 ∨ BigEndian.ofBytes blindSig ≥ pkey.n) := by omega
  have product : bnModMulMontgomery (BigEndian.ofBytes blindSig)
      (BigEndian.ofBytes blindingData.inverse) pkey.n =
        some (BigEndian.ofBytes blindSig * BigEndian.ofBytes blindingData.inverse % pkey.n) := by
    rw [bnModMulMontgomery, if_pos odd]
  unfold BlindRsaPublicKey.finalize
  rw [held]
  simp only [blindSigLength, inverseLength, size, product, if_neg short, if_neg range, ne_eq,
    not_true_eq_false, or_self, if_false]
  cases key.verify msg (BigEndian.toBytes rsaModulusSize
      (BigEndian.ofBytes blindSig * BigEndian.ofBytes blindingData.inverse % pkey.n)) with
  | error error => rfl
  | ok verified => cases verified <;> rfl

/-- A call either reaches the unblinded value or fails and leaves the blinding data. -/
theorem finalize_cases (key : BlindRsaPublicKey) (blindSig : Bytes) (blindingData : BlindingData)
    (msg : Bytes) :
    (∃ pkey value, key.Unblinds blindSig blindingData pkey value) ∨
      ∃ error, key.finalize blindSig blindingData msg = (.error error, blindingData) := by
  unfold BlindRsaPublicKey.finalize
  split
  · exact .inr ⟨_, rfl⟩
  · next pkey held =>
      split
      · exact .inr ⟨_, rfl⟩
      dsimp only
      split
      · exact .inr ⟨_, rfl⟩
      · next size =>
          have size := not_not.mp size
          split
          · exact .inr ⟨_, rfl⟩
          · next lengths =>
              split
              · exact .inr ⟨_, rfl⟩
              · next range =>
                  by_cases odd : pkey.n % 2 = 1
                  · exact .inl ⟨pkey, _, held, size, odd, by omega, by omega, by omega, by omega, rfl⟩
                  · rw [bnModMulMontgomery, if_neg odd]
                    exact .inr ⟨_, rfl⟩

/-- Without an inverse every call fails. -/
theorem finalize_cleared (cleared : blindingData.inverse = []) (blindSig msg : Bytes) :
    ∃ error, (key.finalize blindSig blindingData msg).1 = .error error := by
  rcases finalize_cases key blindSig blindingData msg with ⟨pkey, value, unblinds⟩ | ⟨error, failed⟩
  · have long := unblinds.inverse_length
    rw [cleared] at long
    cases long
  · exact ⟨error, by rw [failed]⟩

/-- A failed call leaves the blinding data for a later one, and a successful call lets every later
one fail, exactly when no unblinded value fails its verification. -/
theorem finalize_keeps_iff (key : BlindRsaPublicKey) (blindSig : Bytes) (blindingData : BlindingData)
    (msg : Bytes) :
    ((∀ error, (key.finalize blindSig blindingData msg).1 = .error error →
        (key.finalize blindSig blindingData msg).2 = blindingData ∧
        ∀ genuine message,
          key.finalize genuine (key.finalize blindSig blindingData msg).2 message =
            key.finalize genuine blindingData message) ∧
      ∀ signature, (key.finalize blindSig blindingData msg).1 = .ok signature →
        (key.finalize blindSig blindingData msg).2.inverse = [] ∧
        ∀ (later : BlindRsaPublicKey) other message, ∃ error,
          (later.finalize other (key.finalize blindSig blindingData msg).2 message).1 =
            .error error) ↔
      ∀ pkey value, key.Unblinds blindSig blindingData pkey value →
        key.verify msg (BigEndian.toBytes rsaModulusSize value) = .ok true := by
  constructor
  · intro ⟨keeps, _⟩ pkey value unblinds
    by_contra rejected
    have ended := unblinds.finalize msg
    have failed : ∃ error, (key.finalize blindSig blindingData msg).1 = .error error := by
      rw [ended]
      dsimp only
      split
      · next verified => exact absurd verified rejected
      · exact ⟨_, rfl⟩
    obtain ⟨error, failed⟩ := failed
    obtain ⟨kept, -⟩ := keeps error failed
    rw [ended] at kept
    have long := unblinds.inverse_length
    rw [← kept] at long
    cases long
  · intro verifies
    rcases finalize_cases key blindSig blindingData msg with ⟨pkey, value, unblinds⟩ | ⟨error, failed⟩
    · have ended := unblinds.finalize msg
      rw [verifies pkey value unblinds] at ended
      rw [ended]
      constructor
      · intro error failed
        cases failed
      · intro signature finalized
        exact ⟨rfl, fun later other message => finalize_cleared rfl other message⟩
    · rw [failed]
      constructor
      · intro error failed
        exact ⟨rfl, fun genuine message => rfl⟩
      · intro signature finalized
        cases finalized

end Outcome

section Instances

/-- No encoding is the number one, as each ends with its trailer. -/
theorem pss_verify_one (scheme : Pss.Scheme) (digest : Bytes) :
    Pss.verify scheme digest (BigEndian.toBytes 256 1) = false := by
  unfold Pss.verify
  rw [decide_eq_false_iff_not]
  intro ⟨_, same⟩
  obtain ⟨front, trailed⟩ := Pss.encode_trailer scheme digest
    (Pss.recoverSalt scheme (BigEndian.toBytes 256 1))
  have number := congrArg BigEndian.ofBytes (trailed.symm.trans same)
  rw [BigEndian.ofBytes_concat, BigEndian.ofBytes_toBytes (Nat.one_lt_pow (by decide) (by decide))]
    at number
  have trailer : (0xBC : UInt8).toNat = 188 := rfl
  omega

/-- The power of one is one, and the verification refuses it. -/
theorem pssBackend_rejects_one {key : BlindRsaPublicKey} {n : Nat}
    (held : key.pkey = some (pssKey n none)) (large : 1 < n) (msg : Bytes) :
    @verify pssBackend key msg (BigEndian.toBytes rsaModulusSize 1) = .ok false := by
  have read : BigEndian.ofBytes (BigEndian.toBytes rsaModulusSize 1) = 1 :=
    BigEndian.ofBytes_toBytes (Nat.one_lt_pow (by decide) (by decide))
  have power : BigEndian.ofBytes (BigEndian.toBytes rsaModulusSize 1) ^ (pssKey n none).e % n = 1 := by
    rw [read, one_pow, Nat.mod_eq_of_lt large]
  rw [@verify.eq_1 pssBackend, held]
  change Except.ok (decide _ && Pss.verify pssScheme _ (BigEndian.toBytes 256
    (BigEndian.ofBytes (BigEndian.toBytes rsaModulusSize 1) ^ (pssKey n none).e % n))) = Except.ok false
  rw [power, pss_verify_one, Bool.and_false]

/-- The factor itself is a forged answer to the client of any key: it unblinds to one. -/
theorem forged_unblinds {n : Nat} (bits : bnNumBits n = rsaBits) (odd : n % 2 = 1)
    {key : BlindRsaPublicKey} (held : key.pkey = some (pssKey n none)) {msg salt : Bytes}
    {blinding : BlindingData} (blinds : @blind pssBackend key msg salt [2] = .ok blinding) :
    key.Unblinds (BigEndian.toBytes rsaModulusSize 2) blinding (pssKey n none) 1 := by
  have size := bnNumBytes_of_bits bits
  have large : 2 < n := (Nat.pow_lt_pow_right (by decide) (by decide) : 2 ^ 1 < 2 ^ (rsaBits - 1)).trans_le
    (le_of_bnNumBits bits (by decide))
  have fits := lt_of_bits bits
  obtain ⟨r, inverse, drawn, written⟩ := @blind_inverse pssBackend key _ held _ _ _ _ blinds
  obtain ⟨found, inverts⟩ := drawBlind_eq_some.mp drawn
  obtain rfl : r = 2 := List.mem_singleton.mp (List.mem_of_find?_eq_some found)
  obtain ⟨cancels, reduced⟩ := bnModInverse_spec (show 0 < (pssKey n none).n by exact Nat.zero_lt_of_lt large)
    inverts
  have kept : blinding.inverse = BigEndian.toBytes rsaModulusSize inverse := by
    change bnBn2BinPad inverse (bnNumBytes n) = some blinding.inverse at written
    rw [size, bnBn2BinPad_of_lt (reduced.trans fits)] at written
    exact (Option.some.inj written).symm
  have read : BigEndian.ofBytes (BigEndian.toBytes rsaModulusSize 2) = 2 :=
    BigEndian.ofBytes_toBytes (large.trans fits)
  have one : 2 * inverse % n = 1 := by
    have same : ((2 * inverse : ℕ) : ZMod n) = (1 : ℕ) := by
      push_cast
      exact cancels
    rw [(ZMod.natCast_eq_natCast_iff' _ _ _).mp same, Nat.mod_eq_of_lt (by omega)]
  refine ⟨held, size, odd, BigEndian.toBytes_length _ _, ?_, ?_, ?_, ?_⟩
  · rw [kept, BigEndian.toBytes_length]
  · rw [read]
    decide
  · rw [read]
    exact large
  · rw [read, kept, BigEndian.ofBytes_toBytes (reduced.trans fits)]
    exact one.symm

/-- A forged answer makes the client lose the inverse, and the answer of the issuer, which the kept
blinding data would accept, comes too late. -/
theorem finalize_forged :
    ∃ blinding forged genuine authenticator,
      @blind pssBackend ⟨some (pssKey recordedModulus none), []⟩ [0x69] (List.replicate 48 0) [2] =
        .ok blinding ∧
      @BlindRsaPrivateKey.blindSign ⟨some (pssKey recordedModulus (some recordedExponent))⟩
        blinding.blindedMsg = .ok genuine ∧
      (@finalize pssBackend ⟨some (pssKey recordedModulus none), []⟩ genuine blinding [0x69]).1 =
        .ok authenticator ∧
      @finalize pssBackend ⟨some (pssKey recordedModulus none), []⟩ forged blinding [0x69] =
        (.error ⟨.verificationFailed, "Unblinded signature verification failed"⟩,
          { blinding with inverse := [] }) ∧
      ∃ error, (@finalize pssBackend ⟨some (pssKey recordedModulus none), []⟩ genuine
        { blinding with inverse := [] } [0x69]).1 = .error error := by
  have odd := recorded_exponents.odd
  have large : 1 < recordedModulus :=
    (Nat.one_lt_two_pow (by decide)).trans_le (le_of_bnNumBits recordedModulus_bits (by decide))
  obtain ⟨blinding, genuine, authenticator, -, -, -, signed, accepted⟩ :=
    @blind_sign_finalize pssBackend pssBackend_hashes pssBackend_conforms (pssKey recordedModulus none)
      (pssKey recordedModulus (some recordedExponent)) recordedExponent
      (pssKey_isPssKey odd recordedModulus_bits none) recorded_exponents rfl rfl [0x69]
      (List.replicate 48 0) List.length_replicate [2]
      ⟨2, List.mem_cons_self, by decide, Nat.coprime_two_left.mpr odd⟩
  obtain ⟨blinds, -, finalizes⟩ := accepted ⟨some (pssKey recordedModulus none), []⟩ rfl
  have unblinds := forged_unblinds recordedModulus_bits (Nat.odd_iff.mp odd) rfl blinds
  have failed := @Unblinds.finalize pssBackend _ _ _ _ _ unblinds [0x69]
  rw [pssBackend_rejects_one rfl large] at failed
  exact ⟨blinding, _, genuine, authenticator, blinds, signed, finalizes blinding.blindedMsg, failed,
    @finalize_cleared pssBackend _ _ rfl _ _⟩

end Instances

end BlindRsaPublicKey
end PrivacyPass.Crypto
