import PrivacyPass.Construction.PrivateToken
import PrivacyPass.Proof.Crypto.Bignum
import PrivacyPass.Proof.Crypto.Dleq

/-
This file proves that the client and the server of the VOPRF compute one output.
-/

namespace PrivacyPass.Crypto

open Library BlindEvaluation

/-- The crypto library computes in a group of prime order, and it reads its encodings back. -/
structure GroupConforms [CurveBackend] [AddCommGroup EcBackend.Point] (generator : EcBackend.Point) :
    Prop where
  prime : EcBackend.order.Prime
  /-- A scalar fits into its bytes. -/
  order_lt : EcBackend.order < 256 ^ p384ScalarSize
  torsion : ∀ point : EcBackend.Point, EcBackend.order • point = 0
  generator_ne_zero : generator ≠ 0
  mul : ∀ scalar point, EcBackend.mul scalar point = some (scalar • point)
  mulGenerator : ∀ scalar, EcBackend.mulGenerator scalar = some (scalar • generator)
  mulAdd : ∀ scalar point factor,
    CurveBackend.mulAdd scalar point factor = some (scalar • generator + factor • point)
  add : ∀ left right, EcBackend.add left right = some (left + right)
  isOnCurve : ∀ point, EcBackend.isOnCurve point = true
  isAtInfinity : ∀ point, EcBackend.isAtInfinity point = true ↔ point = 0
  encodes : ∀ point, ∃ octets, EcBackend.pointToOct point = some octets
  /-- Every point but zero has a compressed encoding of its own. -/
  compressed : ∀ point octets, point ≠ 0 → EcBackend.pointToOct point = some octets →
    octets.length = p384ElementSize ∧ (octets.head? = some 0x02 ∨ octets.head? = some 0x03) ∧
      EcBackend.octToPoint octets = some point

/-- The hash of every message is there. -/
def Sha384Succeeds [HashBackend] : Prop := ∀ data, ∃ digest, HashBackend.evpSha384 data = some digest

section Hashing

variable [HashBackend]

theorem sha384_ok (hashes : Sha384Succeeds) (data : Bytes) : ∃ digest, sha384 data = .ok digest := by
  obtain ⟨digest, found⟩ := hashes data
  exact ⟨digest, by rw [sha384, found]⟩

theorem expandBlocks_ok (hashes : Sha384Succeeds) (b0 : Hash384) (dstPrime : Bytes) (count : Nat) :
    ∀ i previous, ∃ bytes, expandBlocks b0 dstPrime count i previous = .ok bytes := by
  induction count with
  | zero => exact fun _ _ => ⟨[], rfl⟩
  | succ count ih =>
      intro i previous
      obtain ⟨block, hashed⟩ := sha384_ok hashes
        (List.zipWith (· ^^^ ·) b0.val previous.val ++ [i.toUInt8] ++ dstPrime)
      obtain ⟨rest, expanded⟩ := ih (i + 1) block
      exact ⟨block.val ++ rest, by
        rw [expandBlocks, Result.bind_ok hashed, Result.bind_ok expanded]⟩

/-- The expansion of a message succeeds for every admitted length and tag. -/
theorem expandMessageXmd_ok (hashes : Sha384Succeeds) (msg : Bytes) {dst : Bytes} {lenInBytes : Nat}
    (admitted : ¬ (lenInBytes > 255 * 48 ∨ dst.length > 255)) :
    ∃ bytes, expandMessageXmd msg dst lenInBytes = .ok bytes := by
  rw [expandMessageXmd, if_neg admitted]
  obtain ⟨b0, first⟩ := sha384_ok hashes (List.replicate 128 (0 : UInt8) ++ msg ++
    [(lenInBytes >>> 8).toUInt8, lenInBytes.toUInt8] ++ [0] ++ (dst ++ [dst.length.toUInt8]))
  obtain ⟨b1, second⟩ := sha384_ok hashes (b0.val ++ [1] ++ (dst ++ [dst.length.toUInt8]))
  obtain ⟨blocks, rest⟩ := expandBlocks_ok hashes b0 (dst ++ [dst.length.toUInt8])
    ((lenInBytes + 48 - 1) / 48 - 1) 2 b1
  dsimp only
  rw [Result.bind_ok first, Result.bind_ok second, Result.bind_ok rest]
  exact ⟨_, rfl⟩

end Hashing

section Keys

variable [CurveBackend]

omit [CurveBackend] in
theorem VoprfPrivateKey.toBytes_eq_ok {key : VoprfPrivateKey} {bytes : Bytes} :
    key.toBytes = .ok bytes ↔ ∃ k, key.scalar = some k ∧ k < 256 ^ p384ScalarSize ∧
      bytes = BigEndian.toBytes p384ScalarSize k := by
  obtain ⟨_ | k⟩ := key
  · constructor
    · intro serialized
      cases serialized
    · intro ⟨k, found, _⟩
      cases found
  · rw [VoprfPrivateKey.toBytes]
    dsimp only
    constructor
    · intro serialized
      unfold bnBn2BinPad at serialized
      split at serialized
      · next small =>
          split at small
          · next size =>
              refine ⟨k, rfl, (lt_bnNumBytes k).trans_le (Nat.pow_le_pow_right (by decide) size), ?_⟩
              rw [← Except.ok.inj serialized, Option.some.inj small]
          · cases small
      · cases serialized
    · intro ⟨_, found, fits, same⟩
      cases found
      rw [bnBn2BinPad_of_lt fits, same]

theorem VoprfPrivateKey.fromBytes_eq_ok {key : VoprfPrivateKey} {data : Bytes} :
    VoprfPrivateKey.fromBytes data = .ok key ↔ data.length = p384ScalarSize ∧
      0 < BigEndian.ofBytes data ∧ BigEndian.ofBytes data < EcBackend.order ∧
      key = ⟨some (BigEndian.ofBytes data)⟩ := by
  unfold VoprfPrivateKey.fromBytes
  dsimp only
  split
  · next size =>
      constructor
      · intro read
        cases read
      · intro ⟨same, _⟩
        exact absurd same size
  · next size =>
      split
      · next range =>
          constructor
          · intro read
            cases read
          · intro ⟨_, positive, below, _⟩
            omega
      · next range =>
          constructor
          · intro read
            exact ⟨not_not.mp size, by omega, by omega, (Except.ok.inj read).symm⟩
          · intro ⟨_, _, _, same⟩
            rw [same]

/-- The server of an issuer holds the scalar of its key, and it is there for a scalar in range. -/
theorem privateIssuer_server_iff {key : VoprfPrivateKey} {memory : TokenKeyId × UInt8}
    {server : VoprfServer} : (PrivateIssuer.create key memory).server = some server ↔
      ∃ k, key.scalar = some k ∧ 0 < k ∧ k < EcBackend.order ∧ k < 256 ^ p384ScalarSize ∧
        server = ⟨⟨some k⟩⟩ := by
  have copies : (PrivateIssuer.create key memory).server = some server ↔
      (key.toBytes >>= VoprfPrivateKey.fromBytes) = .ok server.privateKey := by
    change ((key.toBytes >>= VoprfPrivateKey.fromBytes).toOption.map VoprfServer.mk) = _ ↔ _
    cases key.toBytes >>= VoprfPrivateKey.fromBytes with
    | error error =>
        constructor
        · intro holds
          cases holds
        · intro holds
          cases holds
    | ok copy =>
        change some (VoprfServer.mk copy) = _ ↔ _
        constructor
        · intro holds
          cases holds
          rfl
        · intro holds
          rw [Except.ok.inj holds]
  rw [copies, Result.bind_eq_ok]
  constructor
  · intro ⟨bytes, serialized, read⟩
    obtain ⟨k, found, fits, rfl⟩ := VoprfPrivateKey.toBytes_eq_ok.mp serialized
    obtain ⟨-, positive, below, same⟩ := VoprfPrivateKey.fromBytes_eq_ok.mp read
    rw [BigEndian.ofBytes_toBytes fits] at positive below same
    exact ⟨k, found, positive, below, fits, congrArg VoprfServer.mk same⟩
  · rintro ⟨k, found, positive, below, fits, rfl⟩
    refine ⟨_, VoprfPrivateKey.toBytes_eq_ok.mpr ⟨k, found, fits, rfl⟩, ?_⟩
    apply VoprfPrivateKey.fromBytes_eq_ok.mpr
    rw [BigEndian.ofBytes_toBytes fits]
    exact ⟨BigEndian.toBytes_length _ _, positive, below, rfl⟩

/-- The output of the VOPRF hashes the input and the multiple of its point. -/
def VoprfOutput (k : Nat) (input output : Bytes) : Prop :=
  ∃ H N element, hashToCurve input = .ok H ∧ EcBackend.mul k H = some N ∧
    pointToBytes N = .ok element ∧ finalizeOutput input element = .ok output

/-- The server accepts exactly the output of its scalar. -/
theorem verifyFinalize_iff {k : Nat} (fits : k < 256 ^ p384ScalarSize) {input output : Bytes}
    (short : input.length ≤ maxInputSize) :
    (⟨⟨some k⟩⟩ : VoprfServer).verifyFinalize input output = .ok true ↔ VoprfOutput k input output := by
  have serialized : (⟨some k⟩ : VoprfPrivateKey).toBytes = .ok (BigEndian.toBytes p384ScalarSize k) :=
    VoprfPrivateKey.toBytes_eq_ok.mpr ⟨k, rfl, fits, rfl⟩
  rw [VoprfServer.verifyFinalize, if_neg (by omega)]
  constructor
  · intro accepted
    obtain ⟨H, hashed, accepted⟩ := Result.bind_eq_ok.mp accepted
    rw [Result.bind_ok serialized, BigEndian.ofBytes_toBytes fits] at accepted
    dsimp only at accepted
    split at accepted
    · cases accepted
    · next N multiplied =>
        obtain ⟨element, encoded, accepted⟩ := Result.bind_eq_ok.mp accepted
        obtain ⟨expected, finalized, accepted⟩ := Result.bind_eq_ok.mp accepted
        have same := of_decide_eq_true (Except.ok.inj accepted)
        exact ⟨H, N, element, hashed, multiplied, encoded, by rw [finalized, same]⟩
  · intro ⟨H, N, element, hashed, multiplied, encoded, finalized⟩
    rw [Result.bind_ok hashed, Result.bind_ok serialized, BigEndian.ofBytes_toBytes fits]
    dsimp only
    rw [multiplied]
    dsimp only
    rw [Result.bind_ok encoded, Result.bind_ok finalized, decide_eq_true rfl]

end Keys

section Protocol

variable [CurveBackend] [AddCommGroup EcBackend.Point] {generator : EcBackend.Point}

theorem GroupConforms.computesGroup (conforms : GroupConforms generator) : ComputesGroup generator where
  prime := conforms.prime
  torsion := conforms.torsion
  mul := conforms.mul
  mulAdd := conforms.mulAdd
  add := conforms.add

/-- The bytes of a point. -/
def octets (point : EcBackend.Point) : Bytes := (EcBackend.pointToOct point).getD []

theorem pointToBytes_eq (conforms : GroupConforms generator) (point : EcBackend.Point) :
    pointToBytes point = .ok (octets point) := by
  obtain ⟨bytes, encoded⟩ := conforms.encodes point
  rw [pointToBytes, octets, encoded]
  rfl

/-- A point is read back from its bytes unless it is zero. -/
theorem bytesToPoint_octets (conforms : GroupConforms generator) {point : EcBackend.Point}
    (nonzero : point ≠ 0) :
    bytesToPoint (octets point) = some point ∧ (octets point).length = p384ElementSize := by
  obtain ⟨bytes, encoded⟩ := conforms.encodes point
  obtain ⟨size, head, decoded⟩ := conforms.compressed point bytes nonzero encoded
  have finite : EcBackend.isAtInfinity point = false := by
    rw [Bool.eq_false_iff]
    exact fun infinite => nonzero ((conforms.isAtInfinity point).mp infinite)
  have form : ¬ (bytes.length ≠ p384ElementSize ∨ (bytes.head? ≠ some 0x02 ∧ bytes.head? ≠ some 0x03)) := by
    tauto
  rw [octets, encoded, Option.getD_some, bytesToPoint, if_neg form, decoded]
  simp [conforms.isOnCurve, finite, size]

/-- A scalar is read back from its bytes. -/
theorem scalar_bytes (conforms : GroupConforms generator) {scalar : Nat}
    (below : scalar < EcBackend.order) :
    bnBn2BinPad scalar p384ScalarSize = some (BigEndian.toBytes p384ScalarSize scalar) ∧
      BigEndian.ofBytes (BigEndian.toBytes p384ScalarSize scalar) = scalar := by
  have fits := below.trans conforms.order_lt
  exact ⟨bnBn2BinPad_of_lt fits, BigEndian.ofBytes_toBytes fits⟩

theorem zeroPadded_eq (conforms : GroupConforms generator) {scalar : Nat}
    (below : scalar < EcBackend.order) :
    zeroPadded scalar p384ScalarSize = BigEndian.toBytes p384ScalarSize scalar :=
  zeroPadded_of_lt (below.trans conforms.order_lt)

theorem hashToScalar_ok (conforms : GroupConforms generator) (hashes : Sha384Succeeds)
    (input : Bytes) : ∃ scalar, hashToScalar input = .ok scalar ∧ scalar < EcBackend.order := by
  obtain ⟨uniform, expanded⟩ := @expandMessageXmd_ok _ hashes input dstH2S 72 (by decide)
  refine ⟨BigEndian.ofBytes uniform % EcBackend.order, ?_, Nat.mod_lt _ conforms.prime.pos⟩
  rw [hashToScalar, Result.bind_ok expanded]

/-- The composites are one multiple of the two points. -/
theorem computeComposites_ok (conforms : GroupConforms generator) (hashes : Sha384Succeeds)
    (B C D : EcBackend.Point) : ∃ di : Nat, computeComposites B C D = .ok (di • C, di • D) := by
  obtain ⟨seed, seeded⟩ := sha384_ok hashes (appendU16LenPrefixed
    (appendU16LenPrefixed [] (octets B)) (dstSeedPrefix ++ contextString))
  obtain ⟨di, scaled, -⟩ := hashToScalar_ok conforms hashes (appendU16LenPrefixed (appendU16LenPrefixed
    (appendU16 (appendU16LenPrefixed [] seed.val) 0) (octets C)) (octets D) ++ dstComposite)
  have composite : computeCompositeScalar B C D = .ok di := by
    rw [computeCompositeScalar]
    simp only [pointToBytes_eq conforms]
    rw [Result.bind_ok seeded, scaled]
  exact ⟨di, computeComposites_eq conforms.computesGroup composite⟩

theorem computeDleqChallenge_ok (conforms : GroupConforms generator) (hashes : Sha384Succeeds)
    (B M Z t2 t3 : EcBackend.Point) :
    ∃ c, computeDleqChallenge B M Z t2 t3 = .ok c ∧ c < EcBackend.order := by
  obtain ⟨c, scaled, below⟩ := hashToScalar_ok conforms hashes
    ([octets B, octets M, octets Z, octets t2, octets t3].foldl appendU16LenPrefixed [] ++ dstChallenge)
  refine ⟨c, ?_, below⟩
  rw [computeDleqChallenge]
  simp only [pointToBytes_eq conforms]
  exact scaled

/-- The proof of the server is accepted by the client. -/
theorem verifyDleqProof_generate (conforms : GroupConforms generator) (hashes : Sha384Succeeds)
    {draws : List Nat} {t : Nat} (drawn : drawScalar draws = some t) (k : Nat) (R : EcBackend.Point) :
    ∃ proof, generateDleqProof draws k (k • generator) R (k • R) = .ok proof ∧
      proof.length = p384ProofSize ∧
      verifyDleqProof (k • generator) R (k • R) proof = .ok true := by
  obtain ⟨di, composites⟩ := computeComposites_ok conforms hashes (k • generator) R (k • R)
  obtain ⟨c, challenged, below⟩ := computeDleqChallenge_ok conforms hashes (k • generator) (di • R)
    (di • k • R) (t • generator) (t • di • R)
  have positive := conforms.prime.pos
  have responds := response_lt positive t c k
  obtain ⟨cPadded, cRead⟩ := scalar_bytes conforms below
  obtain ⟨sPadded, sRead⟩ := scalar_bytes conforms responds
  let cBytes := BigEndian.toBytes p384ScalarSize c
  let sBytes := BigEndian.toBytes p384ScalarSize (response EcBackend.order t c k)
  have cLength : cBytes.length = p384ScalarSize := BigEndian.toBytes_length _ _
  have sLength : sBytes.length = p384ScalarSize := BigEndian.toBytes_length _ _
  have size : (cBytes ++ sBytes).length = p384ProofSize := by
    rw [List.length_append, cLength, sLength]
    rfl
  refine ⟨cBytes ++ sBytes, ?_, size, ?_⟩
  · rw [generateDleqProof, Result.bind_ok composites, drawn]
    simp only [conforms.mulGenerator, conforms.mul]
    rw [Result.bind_ok challenged]
    have rendered : bnBn2BinPad ((t + EcBackend.order - c * k % EcBackend.order) % EcBackend.order)
        p384ScalarSize = some sBytes := sPadded
    simp only [cPadded, rendered]
    rfl
  · have front : proofChallenge (cBytes ++ sBytes) = c := by
      rw [proofChallenge, List.take_left' cLength, cRead]
    have back : proofResponse (cBytes ++ sBytes) = response EcBackend.order t c k := by
      rw [proofResponse, List.drop_left' cLength, List.take_of_length_le sLength.le, sRead]
    -- both commitments come out of the response as the prover has made them
    have first := commitment positive (conforms.torsion generator) t c k
    have second := commitment positive (conforms.torsion (di • R)) t c k
    have recomputed := recomputeCommitments_eq conforms.computesGroup (k • generator) (di • R) (di • k • R) c
      (response EcBackend.order t c k)
    rw [first, smul_comm di k, second] at recomputed
    rw [smul_comm di k] at composites challenged
    have ran : dleqRun (k • generator) R (k • R) (cBytes ++ sBytes) =
        .ok ⟨di • R, k • di • R, t • generator, t • di • R⟩ := by
      apply dleqRun_eq_ok.mpr
      rw [front, back]
      exact ⟨size, below, responds, composites, recomputed⟩
    exact verifyDleqProof_eq_ok.mpr ⟨_, c, ran, challenged, by rw [front, decide_eq_true rfl]⟩

omit [AddCommGroup EcBackend.Point] in
theorem finalizeOutput_ok (hashes : Sha384Succeeds) {input element : Bytes} (short : input.length ≤ 65535)
    (small : element.length ≤ 65535) : ∃ output, finalizeOutput input element = .ok output := by
  obtain ⟨hash, hashed⟩ := sha384_ok hashes
    (appendU16LenPrefixed (appendU16LenPrefixed [] input) element ++ dstFinalize)
  refine ⟨hash.val, ?_⟩
  rw [finalizeOutput, if_neg (by omega)]
  exact Result.bind_ok hashed

section Parties

variable {k r : Nat} {input : Bytes} {H : EcBackend.Point}

/-- A private key has the multiple of the generator as its public key. -/
theorem publicKey_eq (conforms : GroupConforms generator) (k : Nat) :
    (⟨some k⟩ : VoprfPrivateKey).publicKey = .ok ⟨some (k • generator)⟩ := by
  simp only [VoprfPrivateKey.publicKey, conforms.mulGenerator]

theorem privateKey_toBytes (conforms : GroupConforms generator) (below : k < EcBackend.order) :
    (⟨some k⟩ : VoprfPrivateKey).toBytes = .ok (BigEndian.toBytes p384ScalarSize k) :=
  VoprfPrivateKey.toBytes_eq_ok.mpr ⟨k, rfl, below.trans conforms.order_lt, rfl⟩

/-- The client blinds the point of its input. -/
theorem blind_eq (conforms : GroupConforms generator) (client : VoprfClient)
    (hashed : hashToCurve input = .ok H) (positive : 1 ≤ r) (below : r < EcBackend.order) :
    client.blind (some r) input =
      .ok ⟨BigEndian.toBytes p384ScalarSize r, octets (r • H), input⟩ := by
  cases r with
  | zero => omega
  | succ r =>
      rw [VoprfClient.blind, Result.bind_ok hashed]
      simp only [conforms.mul]
      rw [Result.bind_ok (pointToBytes_eq conforms _), zeroPadded_eq conforms below]

/-- The server evaluates every point but zero and proves it. -/
theorem blindEvaluate_eq (conforms : GroupConforms generator) (hashes : Sha384Succeeds)
    (positive : 1 ≤ k) (below : k < EcBackend.order) {draws : List Nat} {t : Nat}
    (drawn : drawScalar draws = some t) {R : EcBackend.Point} (nonzero : R ≠ 0) :
    ∃ proof, (⟨⟨some k⟩⟩ : VoprfServer).blindEvaluate draws (octets R) =
        .ok ⟨octets (k • R), proof⟩ ∧ proof.length = p384ProofSize ∧
      verifyDleqProof (k • generator) R (k • R) proof = .ok true := by
  obtain ⟨proof, proved, size, accepted⟩ := verifyDleqProof_generate conforms hashes drawn k R
  obtain ⟨decoded, length⟩ := bytesToPoint_octets conforms nonzero
  have publicNonzero : k • generator ≠ 0 :=
    nsmul_ne_zero conforms.prime (conforms.torsion generator) conforms.generator_ne_zero positive below
  refine ⟨proof, ?_, size, accepted⟩
  rw [VoprfServer.blindEvaluate, if_neg (by rw [length, p384ElementSize, maxInputSize]; omega),
    decoded]
  dsimp only
  rw [Result.bind_ok (privateKey_toBytes conforms below), (scalar_bytes conforms below).2, conforms.mul]
  dsimp only
  rw [Result.bind_ok (publicKey_eq conforms k)]
  have published : (⟨some (k • generator)⟩ : VoprfPublicKey).toBytes = .ok (octets (k • generator)) :=
    pointToBytes_eq conforms _
  rw [Result.bind_ok published, (bytesToPoint_octets conforms publicNonzero).1]
  dsimp only
  rw [Result.bind_ok proved, Result.bind_ok (pointToBytes_eq conforms _)]

omit [AddCommGroup EcBackend.Point] in
/-- A client whose inputs are all read hashes the uncovered point. -/
theorem finalize_parsed {client : VoprfClient} {data : VoprfFinalizationData}
    {evaluation : VoprfEvaluation} {Y R Z N : EcBackend.Point} {pubBytes element : Bytes} {rInv : Nat}
    (sizes : ¬ (evaluation.evaluatedElement.length > maxInputSize ∨
      evaluation.proof.length ≠ p384ProofSize ∨ data.blindScalar.length > maxInputSize ∨
      data.blindedElement.length > maxInputSize))
    (readZ : bytesToPoint evaluation.evaluatedElement = some Z)
    (readR : bytesToPoint data.blindedElement = some R)
    (published : client.publicKey.toBytes = .ok pubBytes) (readY : bytesToPoint pubBytes = some Y)
    (accepted : verifyDleqProof Y R Z evaluation.proof = .ok true)
    (inverts : bnModInverse (BigEndian.ofBytes data.blindScalar) EcBackend.order = some rInv)
    (multiplied : EcBackend.mul rInv Z = some N) (encoded : pointToBytes N = .ok element) :
    client.finalize data evaluation = finalizeOutput data.input element := by
  rw [VoprfClient.finalize, if_neg sizes, readZ, readR]
  dsimp only
  rw [Result.bind_ok published, readY]
  dsimp only
  rw [Result.bind_ok accepted, if_neg (show ¬ true = false from Bool.noConfusion), inverts]
  dsimp only
  rw [multiplied]
  exact Result.bind_ok encoded

/-- The client uncovers the multiple of its point and hashes it with the input. -/
theorem finalize_eq (conforms : GroupConforms generator) (positive : 1 ≤ k)
    (below : k < EcBackend.order) (blinding : 1 ≤ r) (reduced : r < EcBackend.order) (nonzero : H ≠ 0)
    {proof : Bytes} (size : proof.length = p384ProofSize)
    (accepted : verifyDleqProof (k • generator) (r • H) (k • r • H) proof = .ok true) :
    (⟨⟨some (k • generator)⟩⟩ : VoprfClient).finalize
        ⟨BigEndian.toBytes p384ScalarSize r, octets (r • H), input⟩ ⟨octets (k • r • H), proof⟩ =
      finalizeOutput input (octets (k • H)) := by
  have torsion (point : EcBackend.Point) := conforms.torsion point
  have blinded : r • H ≠ 0 := nsmul_ne_zero conforms.prime (torsion H) nonzero blinding reduced
  have evaluated : k • r • H ≠ 0 := nsmul_ne_zero conforms.prime (torsion _) blinded positive below
  have publicNonzero : k • generator ≠ 0 :=
    nsmul_ne_zero conforms.prime (torsion generator) conforms.generator_ne_zero positive below
  obtain ⟨readZ, sizeZ⟩ := bytesToPoint_octets conforms evaluated
  obtain ⟨readR, sizeR⟩ := bytesToPoint_octets conforms blinded
  have published : (⟨some (k • generator)⟩ : VoprfPublicKey).toBytes = .ok (octets (k • generator)) :=
    pointToBytes_eq conforms _
  have coprime : Nat.gcd r EcBackend.order = 1 :=
    ((conforms.prime.coprime_iff_not_dvd.mpr fun divides =>
      absurd (Nat.le_of_dvd blinding divides) (Nat.not_le.mpr reduced)).symm)
  obtain ⟨rInv, inverts⟩ : ∃ rInv, bnModInverse r EcBackend.order = some rInv := by
    rw [bnModInverse, if_pos coprime]
    exact ⟨_, rfl⟩
  have inverse : r * rInv ≡ 1 [MOD EcBackend.order] := by
    have product := (bnModInverse_spec conforms.prime.pos inverts).1
    rw [← ZMod.natCast_eq_natCast_iff]
    push_cast
    exact product
  refine finalize_parsed ?_ readZ readR published (bytesToPoint_octets conforms publicNonzero).1 accepted
    ?_ (conforms.mul rInv (k • r • H)) ?_
  · change ¬ ((octets (k • r • H)).length > maxInputSize ∨ proof.length ≠ p384ProofSize ∨
      (BigEndian.toBytes p384ScalarSize r).length > maxInputSize ∨
      (octets (r • H)).length > maxInputSize)
    rw [sizeZ, sizeR, size, BigEndian.toBytes_length, p384ElementSize, p384ScalarSize, maxInputSize]
    omega
  · exact (scalar_bytes conforms reduced).2.symm ▸ inverts
  · rw [unblind (torsion H) inverse k]
    exact pointToBytes_eq conforms _

/-- The server accepts the output that it computes itself. -/
theorem verifyFinalize_eq (conforms : GroupConforms generator) (below : k < EcBackend.order)
    (short : input.length ≤ 65535) (hashed : hashToCurve input = .ok H) {output : Bytes}
    (finalized : finalizeOutput input (octets (k • H)) = .ok output) :
    (⟨⟨some k⟩⟩ : VoprfServer).verifyFinalize input output = .ok true := by
  have fits : input.length ≤ maxInputSize := by
    rw [maxInputSize]
    omega
  apply (verifyFinalize_iff (below.trans conforms.order_lt) fits).mpr
  exact ⟨H, k • H, octets (k • H), hashed, conforms.mul k H, pointToBytes_eq conforms _, finalized⟩

/-- An issuer holds its own key in its server. -/
theorem privateIssuer_server (conforms : GroupConforms generator) (positive : 1 ≤ k)
    (below : k < EcBackend.order) (memory : TokenKeyId × UInt8) :
    (PrivateIssuer.create ⟨some k⟩ memory).server = some ⟨⟨some k⟩⟩ :=
  privateIssuer_server_iff.mpr ⟨k, rfl, positive, below, below.trans conforms.order_lt, rfl⟩

end Parties

/-- For every blinding scalar and every nonce of the proof the evaluation is proved to the client,
the client ends with one and the same output, and the server and its issuer accept this output. -/
theorem finalize_verifyFinalize (conforms : GroupConforms generator) (hashes : Sha384Succeeds)
    {k : Nat} (positive : 1 ≤ k) (below : k < EcBackend.order) {input : Bytes}
    (short : input.length ≤ 65535) {H : EcBackend.Point} (hashed : hashToCurve input = .ok H)
    (nonzero : H ≠ 0) :
    ∃ publicKey output, (⟨some k⟩ : VoprfPrivateKey).publicKey = .ok publicKey ∧
      (∀ r draws t, 1 ≤ r → r < EcBackend.order → drawScalar draws = some t →
        ∃ data evaluation Y R Z,
          (⟨publicKey⟩ : VoprfClient).blind (some r) input = .ok data ∧
          (⟨⟨some k⟩⟩ : VoprfServer).blindEvaluate draws data.blindedElement = .ok evaluation ∧
          publicKey.point = some Y ∧ bytesToPoint data.blindedElement = some R ∧
          bytesToPoint evaluation.evaluatedElement = some Z ∧
          verifyDleqProof Y R Z evaluation.proof = .ok true ∧
          (⟨publicKey⟩ : VoprfClient).finalize data evaluation = .ok output) ∧
      (⟨⟨some k⟩⟩ : VoprfServer).verifyFinalize input output = .ok true ∧
      ∀ memory (token : Token), token.tokenType = .voprfP384Sha384 →
        token.authenticatorInput.serialize = .ok input → token.authenticator = output →
        (PrivateIssuer.create ⟨some k⟩ memory).verify token = .ok true := by
  have issued : k • H ≠ 0 := nsmul_ne_zero conforms.prime (conforms.torsion H) nonzero positive below
  obtain ⟨output, finalized⟩ := finalizeOutput_ok hashes short
    (show (octets (k • H)).length ≤ 65535 by
      rw [(bytesToPoint_octets conforms issued).2, p384ElementSize]
      omega)
  have accepted := verifyFinalize_eq conforms below short hashed finalized
  refine ⟨⟨some (k • generator)⟩, output, publicKey_eq conforms k, ?_, accepted, ?_⟩
  · intro r draws t blinding reduced drawn
    have blinded : r • H ≠ 0 := nsmul_ne_zero conforms.prime (conforms.torsion H) nonzero blinding reduced
    have evaluated : k • r • H ≠ 0 :=
      nsmul_ne_zero conforms.prime (conforms.torsion _) blinded positive below
    obtain ⟨proof, evaluates, size, verified⟩ :=
      blindEvaluate_eq conforms hashes positive below drawn blinded
    refine ⟨_, _, k • generator, r • H, k • r • H, blind_eq conforms _ hashed blinding reduced,
      evaluates, rfl, (bytesToPoint_octets conforms blinded).1,
      (bytesToPoint_octets conforms evaluated).1, verified, ?_⟩
    rw [finalize_eq conforms positive below blinding reduced nonzero size verified, finalized]
  · intro memory token typed serialized authenticated
    rw [PrivateIssuer.verify, if_neg (not_not.mpr typed), Result.bind_ok serialized,
      privateIssuer_server conforms positive below memory, authenticated]
    exact accepted

end Protocol

section Instances

/-- This library computes in the group of order 5, hashes every message to zero and maps every
message to one point. -/
abbrev smallBackend : CurveBackend where
  evpSha256 _ := some (.zero 32)
  evpSha384 _ := some (.zero 48)
  Point := ZMod 5
  order := 5
  octToPoint octets := some (octets.getLastD 0).toNat
  isOnCurve _ := true
  isAtInfinity point := decide (point = 0)
  pointToOct point :=
    some (if point = 0 then [0] else 0x02 :: List.replicate 47 0 ++ [point.val.toUInt8])
  mul scalar point := some (scalar • point)
  mulGenerator scalar := some (scalar • 1)
  add left right := some (left + right)
  fieldModulus := 13
  curveA := 1
  curveB := 1
  setAffineCoordinates _ _ := some 1
  mulAdd scalar point factor := some (scalar • 1 + factor • point)

abbrev smallGroup : AddCommGroup (@EcBackend.Point smallBackend.toEcBackend) :=
  inferInstanceAs (AddCommGroup (ZMod 5))

theorem smallBackend_compressed (point : ZMod 5) (octets : Bytes) (nonzero : point ≠ 0)
    (encoded : smallBackend.pointToOct point = some octets) :
    octets.length = p384ElementSize ∧ (octets.head? = some 0x02 ∨ octets.head? = some 0x03) ∧
      smallBackend.octToPoint octets = some point := by
  have table : ∀ point : ZMod 5, (point.val.toUInt8.toNat : ZMod 5) = point := by decide
  have shape := (Option.some.inj encoded).symm
  rw [if_neg nonzero] at shape
  rw [shape]
  exact ⟨rfl, .inl rfl, congrArg some (table point)⟩

theorem smallBackend_conforms : @GroupConforms smallBackend smallGroup (1 : ZMod 5) := by
  refine @GroupConforms.mk smallBackend smallGroup (1 : ZMod 5) (by decide) (by decide) ?_ ?_
    (fun _ _ => rfl) (fun _ => rfl) (fun _ _ _ => rfl) (fun _ _ => rfl) (fun _ => rfl)
    (fun _ => decide_eq_true_iff) (fun _ => ⟨_, rfl⟩) smallBackend_compressed
  · show ∀ point : ZMod 5, 5 • point = 0
    decide
  · show (1 : ZMod 5) ≠ 0
    decide

theorem smallBackend_hashToCurve : @hashToCurve smallBackend [0x69] = .ok (2 : ZMod 5) := by
  rfl

/-- The parties of the small group agree for the key 3, the blinding scalar 2 and the nonce 4. -/
theorem finalize_verifyFinalize_small :
    ∃ publicKey data evaluation output,
      @VoprfClient.blind smallBackend (@VoprfClient.mk smallBackend publicKey) (some 2) [0x69] =
        .ok data ∧
      @VoprfServer.blindEvaluate smallBackend.toEcBackend ⟨⟨some 3⟩⟩ [0, 4] data.blindedElement =
        .ok evaluation ∧
      @VoprfClient.finalize smallBackend (@VoprfClient.mk smallBackend publicKey) data evaluation =
        .ok output ∧
      @VoprfServer.verifyFinalize smallBackend ⟨⟨some 3⟩⟩ [0x69] output = .ok true := by
  have point : (2 : ZMod 5) ≠ 0 := by decide
  obtain ⟨publicKey, output, -, evaluates, accepted, -⟩ := @finalize_verifyFinalize smallBackend
    smallGroup (1 : ZMod 5) smallBackend_conforms (fun _ => ⟨_, rfl⟩) 3 (by decide) (by decide) [0x69]
    (by decide) (2 : ZMod 5) smallBackend_hashToCurve point
  obtain ⟨data, evaluation, Y, R, Z, blinds, evaluated, -, -, -, -, finalized⟩ :=
    evaluates 2 [0, 4] 4 (by decide) (by decide) rfl
  exact ⟨publicKey, data, evaluation, output, blinds, evaluated, finalized, accepted⟩

end Instances

end PrivacyPass.Crypto
