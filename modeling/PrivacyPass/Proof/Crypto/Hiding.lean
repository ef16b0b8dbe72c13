import PrivacyPass.Construction.MultiKeyIssuer
import PrivacyPass.Library.Hiding
import PrivacyPass.Proof.Crypto.Voprf
import PrivacyPass.Proof.Exchange

/-
This file proves that a blinded message has one law for all messages.
-/

namespace PrivacyPass.Crypto

open Library Hiding BlindEvaluation ArithmeticFunction

section Factors

variable {n : Nat}

/-- A unit permutes the numbers that the loop takes. -/
theorem takes_unit [NeZero n] (unit : (ZMod n)ˣ) (draw : ZMod n) :
    takes n ((unit : ZMod n) * draw).val = takes n draw.val := by
  have coprime (value : ZMod n) : Nat.gcd value.val n = 1 ↔ IsUnit value := by
    rw [← Nat.coprime_iff_gcd_eq_one, ← ZMod.isUnit_iff_coprime, ZMod.natCast_zmod_val]
  apply decide_eq_decide.mpr
  rw [coprime, coprime, Units.isUnit_units_mul, Ne, Ne, ZMod.val_eq_zero, ZMod.val_eq_zero,
    Units.mul_right_eq_zero]

/-- A unit moves the number that the loop takes. -/
theorem find_unit [NeZero n] (unit : (ZMod n)ˣ) (draws : List (ZMod n)) :
    (draws.map fun draw => ((unit : ZMod n) * draw).val).find? (takes n) =
      ((draws.map ZMod.val).find? (takes n)).map fun r : Nat => ((unit : ZMod n) * (r : ZMod n)).val := by
  induction draws with
  | nil => rfl
  | cons draw draws ih =>
      have same := takes_unit unit draw
      rw [List.map_cons, List.map_cons]
      cases taken : takes n draw.val with
      | true =>
          rw [List.find?_cons_of_pos (same.trans taken), List.find?_cons_of_pos taken, Option.map_some,
            ZMod.natCast_zmod_val]
      | false =>
          rw [List.find?_cons_of_neg (by rw [same, taken]; exact Bool.noConfusion),
            List.find?_cons_of_neg (by rw [taken]; exact Bool.noConfusion), ih]

/-- The number that the loop takes is the first one with an inverse. -/
theorem drawBlind_first (draws : List Nat) :
    (BlindRsaPublicKey.drawBlind n draws).map Prod.fst = draws.find? (takes n) := by
  rw [drawBlind_eq]
  cases found : draws.find? (takes n) with
  | none => rfl
  | some r =>
      have inverted : bnModInverse r n = some _ := if_pos (takes_iff.mp (List.find?_some found)).2
      rw [Option.bind_some, inverted]
      rfl

/-- The loop takes each unit with the same probability. -/
theorem drawBlind_uniform (positive : 0 < n) (count : Nat) {first second : Nat}
    (firstBelow : first < n) (firstUnit : first.Coprime n) (secondBelow : second < n)
    (secondUnit : second.Coprime n) :
    (uniformDraws n positive count).map
        (fun draws => (BlindRsaPublicKey.drawBlind n draws).map Prod.fst) (some first) =
      (uniformDraws n positive count).map
        (fun draws => (BlindRsaPublicKey.drawBlind n draws).map Prod.fst) (some second) := by
  have : NeZero n := ⟨positive.ne'⟩
  let unit := ZMod.unitOfCoprime second secondUnit / ZMod.unitOfCoprime first firstUnit
  have moved : (unit : ZMod n) * first = second := by
    have product : unit * ZMod.unitOfCoprime first firstUnit = ZMod.unitOfCoprime second secondUnit :=
      div_mul_cancel _ _
    exact congrArg Units.val product
  apply map_uniformDraws_apply positive count unit
  intro draws
  rw [drawBlind_first, drawBlind_first, find_unit, Option.map_eq_some_iff]
  constructor
  · intro ⟨r, found, equal⟩
    obtain ⟨draw, -, rfl⟩ := List.mem_map.mp (List.mem_of_find?_eq_some found)
    have same : (unit : ZMod n) * draw = unit * first := by
      rw [moved, ← equal, ZMod.natCast_zmod_val, ZMod.natCast_zmod_val]
    rw [found, unit.mul_right_inj.mp same, ZMod.val_cast_of_lt firstBelow]
  · intro found
    refine ⟨first, found, ?_⟩
    rw [moved, ZMod.val_cast_of_lt secondBelow]

/-- The loop takes exactly the units but zero. -/
theorem drawBlind_support (positive : 0 < n) {count : Nat} (drawn : 0 < count) {r : Nat} :
    some r ∈ ((uniformDraws n positive count).map
        fun draws => (BlindRsaPublicKey.drawBlind n draws).map Prod.fst).support ↔
      0 < r ∧ r < n ∧ r.Coprime n := by
  rw [PMF.mem_support_map_iff]
  constructor
  · intro ⟨draws, possible, taken⟩
    rw [drawBlind_first] at taken
    obtain ⟨nonzero, coprime⟩ := takes_iff.mp (List.find?_some taken)
    obtain ⟨-, below⟩ := (mem_support_uniformDraws positive count draws).mp possible
    exact ⟨Nat.pos_of_ne_zero nonzero, below r (List.mem_of_find?_eq_some taken), coprime⟩
  · intro ⟨nonzero, below, coprime⟩
    refine ⟨List.replicate count r, (mem_support_uniformDraws positive count _).mpr ?_, ?_⟩
    · exact ⟨List.length_replicate, fun draw member => List.eq_of_mem_replicate member ▸ below⟩
    · have taken := takes_iff.mpr ⟨nonzero.ne', coprime⟩
      rw [drawBlind_first, List.find?_replicate_of_length_pos drawn, if_pos taken]

end Factors

section Rsa

variable [RsaBackend] {pkey : EvpPkey} {msg salt encoded : Bytes}

namespace BlindRsaPublicKey

/-- The client sends the blinded message and keeps the rest. -/
def sentMsg (key : BlindRsaPublicKey) (msg salt : Bytes) (draws : List Nat) : Result Bytes :=
  (key.blind msg salt draws).map BlindingData.blindedMsg

/-- The message is multiplied by the power of the first number that the loop takes. -/
def blindedBytes (pkey : EvpPkey) (m : Nat) : Option Nat → Result Bytes
  | some r => .ok (BigEndian.toBytes 256 (m * (r ^ pkey.e % pkey.n) % pkey.n))
  | none => .error ⟨.blindingFailed, "Failed to generate r"⟩

theorem sentMsg_eq {key : BlindRsaPublicKey} (held : key.pkey = some pkey) (odd : Odd pkey.n)
    (size : bnNumBytes pkey.n = rsaModulusSize) (encodes : emsaPssEncode pkey msg salt = .ok encoded)
    (draws : List Nat) :
    key.sentMsg msg salt draws =
      blindedBytes pkey (BigEndian.ofBytes encoded) (draws.find? (takes pkey.n)) := by
  unfold sentMsg
  cases found : draws.find? (takes pkey.n) with
  | none =>
      have drawn : drawBlind pkey.n draws = none := by rw [drawBlind_eq, found, Option.bind_none]
      rw [blind, held]
      simp only [size, encodes, drawn, ne_eq, not_true_eq_false, if_false, bind, Except.bind,
        if_neg (bnMontCtxSet_of_odd (Nat.odd_iff.mp odd))]
      rfl
  | some r =>
      obtain ⟨-, coprime⟩ := takes_iff.mp (List.find?_some found)
      have inverted : bnModInverse r pkey.n = some _ := if_pos coprime
      have drawn := drawBlind_eq_some.mpr ⟨found, inverted⟩
      have below := (bnModInverse_spec odd.pos inverted).2
      rw [blind_ok size (Nat.odd_iff.mp odd) held encodes drawn below]
      rfl

/-- A single candidate that is a unit is the factor. -/
theorem sentMsg_single {key : BlindRsaPublicKey} (held : key.pkey = some pkey) (odd : Odd pkey.n)
    (size : bnNumBytes pkey.n = rsaModulusSize) (encodes : emsaPssEncode pkey msg salt = .ok encoded)
    {r : Nat} (unit : r.Coprime pkey.n) :
    key.sentMsg msg salt [r] = blindedBytes pkey (BigEndian.ofBytes encoded) (some r) := by
  have nonzero : r ≠ 0 := by
    rintro rfl
    rw [(Nat.coprime_zero_left pkey.n).mp unit] at size
    revert size
    decide
  rw [sentMsg_eq held odd size encodes, List.find?_cons_of_pos (takes_iff.mpr ⟨nonzero, unit⟩)]

omit [RsaBackend] in
/-- Two blinded messages have the same bytes exactly when they are the same number. -/
theorem blindedBytes_eq_iff (odd : Odd pkey.n) (size : bnNumBytes pkey.n = rsaModulusSize)
    {left right first second : Nat} :
    blindedBytes pkey left (some first) = blindedBytes pkey right (some second) ↔
      left * (first ^ pkey.e % pkey.n) % pkey.n = right * (second ^ pkey.e % pkey.n) % pkey.n := by
  have fits := lt_bnNumBytes pkey.n
  rw [size, rsaModulusSize] at fits
  rw [blindedBytes, blindedBytes, Except.ok.injEq]
  constructor
  · intro equal
    have numbers := congrArg BigEndian.ofBytes equal
    rwa [BigEndian.ofBytes_toBytes ((Nat.mod_lt _ odd.pos).trans fits),
      BigEndian.ofBytes_toBytes ((Nat.mod_lt _ odd.pos).trans fits)] at numbers
  · exact congrArg (BigEndian.toBytes 256)

/-- For each unit there is exactly one unit that blinds another message to the same number. -/
theorem sentMsg_existsUnique {key : BlindRsaPublicKey} (held : key.pkey = some pkey) (odd : Odd pkey.n)
    (size : bnNumBytes pkey.n = rsaModulusSize) (coprime : pkey.e.Coprime (carmichael pkey.n))
    {other otherSalt otherEncoded : Bytes} (encodes : emsaPssEncode pkey msg salt = .ok encoded)
    (otherEncodes : emsaPssEncode pkey other otherSalt = .ok otherEncoded)
    (unit : (BigEndian.ofBytes encoded).Coprime pkey.n)
    (otherUnit : (BigEndian.ofBytes otherEncoded).Coprime pkey.n) {r : Nat} (factor : r.Coprime pkey.n) :
    ∃! r', (r' < pkey.n ∧ r'.Coprime pkey.n) ∧
      key.sentMsg other otherSalt [r'] = key.sentMsg msg salt [r] := by
  have : NeZero pkey.n := ⟨odd.pos.ne'⟩
  have same (r' : Nat) (factor' : r'.Coprime pkey.n) :
      key.sentMsg other otherSalt [r'] = key.sentMsg msg salt [r] ↔
        BigEndian.ofBytes otherEncoded * (r' ^ pkey.e % pkey.n) % pkey.n =
          BigEndian.ofBytes encoded * (r ^ pkey.e % pkey.n) % pkey.n := by
    rw [sentMsg_single held odd size otherEncodes factor', sentMsg_single held odd size encodes factor]
    exact blindedBytes_eq_iff odd size
  obtain ⟨r', ⟨range, moved⟩, unique⟩ := existsUnique_unit coprime unit otherUnit factor
  refine ⟨r', ⟨range, (same r' range.2).mpr moved⟩, ?_⟩
  intro another ⟨inside, equal⟩
  exact unique another ⟨inside, (same another inside.2).mp equal⟩

/-- Two messages that are encoded as units are blinded to numbers of one law. -/
theorem sentMsg_law {key : BlindRsaPublicKey} (held : key.pkey = some pkey) (odd : Odd pkey.n)
    (coprime : pkey.e.Coprime (carmichael pkey.n)) {other otherSalt otherEncoded : Bytes}
    (encodes : emsaPssEncode pkey msg salt = .ok encoded)
    (otherEncodes : emsaPssEncode pkey other otherSalt = .ok otherEncoded)
    (unit : (BigEndian.ofBytes encoded).Coprime pkey.n)
    (otherUnit : (BigEndian.ofBytes otherEncoded).Coprime pkey.n) (count : Nat) :
    (uniformDraws pkey.n odd.pos count).map (key.sentMsg msg salt) =
      (uniformDraws pkey.n odd.pos count).map (key.sentMsg other otherSalt) := by
  have : NeZero pkey.n := ⟨odd.pos.ne'⟩
  by_cases size : bnNumBytes pkey.n = rsaModulusSize
  · obtain ⟨factor, exchanges⟩ := exists_exchange coprime unit otherUnit
    apply map_uniformDraws_eq odd.pos count factor
    intro draws
    rw [sentMsg_eq held odd size encodes, sentMsg_eq held odd size otherEncodes, find_unit]
    cases (draws.map ZMod.val).find? (takes pkey.n) with
    | none => rfl
    | some r =>
        refine congrArg (fun value => Except.ok (BigEndian.toBytes 256 value))
          (product_mod_eq_iff.mpr ?_)
        rw [ZMod.natCast_zmod_val]
        exact exchanges r
  · have refused (msg salt : Bytes) (draws : List Nat) : key.sentMsg msg salt draws =
        .error ⟨.invalidKey, "Unexpected RSA modulus size"⟩ := by
      rw [sentMsg, blind, held]
      dsimp only
      rw [if_pos size]
      rfl
    congr 1
    funext draws
    rw [refused, refused]

end BlindRsaPublicKey

end Rsa

section Voprf

variable [CurveBackend] [AddCommGroup EcBackend.Point] {generator : EcBackend.Point}
  {input : Bytes} {H : EcBackend.Point}

namespace VoprfClient

/-- The client sends the blinded element and keeps the rest. -/
def sentElement (client : VoprfClient) (input : Bytes) (draw : Option Nat) : Result Bytes :=
  (client.blind draw input).map VoprfFinalizationData.blindedElement

/-- Every scalar but zero is taken. -/
theorem sentElement_eq (conforms : GroupConforms generator) (client : VoprfClient)
    (hashed : hashToCurve input = .ok H) {r : Nat} (below : r < EcBackend.order) :
    client.sentElement input (some r) =
      if r = 0 then .error ⟨.blindingFailed, "Failed to generate blinding scalar"⟩
      else .ok (octets (r • H)) := by
  by_cases zero : r = 0
  · rw [if_pos zero, zero, sentElement, blind, Result.bind_ok hashed]
    rfl
  · rw [if_neg zero, sentElement, blind_eq conforms client hashed (Nat.pos_of_ne_zero zero) below]
    rfl

/-- Two inputs with points but zero are blinded to elements of one law. -/
theorem sentElement_law (conforms : GroupConforms generator)
    (card : Nat.card EcBackend.Point = EcBackend.order) (client : VoprfClient)
    (hashed : hashToCurve input = .ok H) (nonzero : H ≠ 0) {other : Bytes} {otherH : EcBackend.Point}
    (otherHashed : hashToCurve other = .ok otherH) (otherNonzero : otherH ≠ 0) :
    (uniformDraws EcBackend.order conforms.prime.pos 1).map
        (fun draws => client.sentElement input draws.head?) =
      (uniformDraws EcBackend.order conforms.prime.pos 1).map
        fun draws => client.sentElement other draws.head? := by
  have : NeZero EcBackend.order := ⟨conforms.prime.ne_zero⟩
  obtain ⟨unit, exchanges⟩ := exists_exchange_nsmul conforms.prime card nonzero otherNonzero
  apply map_uniformDraws_eq conforms.prime.pos 1 unit
  intro draws
  cases draws with
  | nil =>
      rw [List.map_nil, List.head?_nil, sentElement, sentElement, blind, blind, Result.bind_ok hashed,
        Result.bind_ok otherHashed]
      rfl
  | cons draw draws =>
      have zero : ((unit : ZMod EcBackend.order) * draw).val = 0 ↔ draw.val = 0 := by
        rw [ZMod.val_eq_zero, ZMod.val_eq_zero, Units.mul_right_eq_zero]
      rw [List.map_cons, List.map_cons, List.head?_cons, List.head?_cons,
        sentElement_eq conforms client hashed (ZMod.val_lt _),
        sentElement_eq conforms client otherHashed (ZMod.val_lt _), exchanges]
      exact if_congr zero rfl rfl

/-- For each scalar there is exactly one scalar that blinds another input to the same element. -/
theorem sentElement_existsUnique (conforms : GroupConforms generator)
    (card : Nat.card EcBackend.Point = EcBackend.order) (client : VoprfClient)
    (hashed : hashToCurve input = .ok H) (nonzero : H ≠ 0) {other : Bytes} {otherH : EcBackend.Point}
    (otherHashed : hashToCurve other = .ok otherH) (otherNonzero : otherH ≠ 0) {r : Nat}
    (positive : 1 ≤ r) (below : r < EcBackend.order) :
    ∃! r', (1 ≤ r' ∧ r' < EcBackend.order) ∧
      client.sentElement other (some r') = client.sentElement input (some r) := by
  have same (r' : Nat) (range : 1 ≤ r' ∧ r' < EcBackend.order) :
      client.sentElement other (some r') = client.sentElement input (some r) ↔
        r' • otherH = r • H := by
    rw [sentElement_eq conforms client otherHashed range.2, sentElement_eq conforms client hashed below,
      if_neg (by omega), if_neg (by omega), Except.ok.injEq]
    refine ⟨fun equal => ?_, congrArg octets⟩
    have left := nsmul_ne_zero conforms.prime (conforms.torsion otherH) otherNonzero range.1 range.2
    have right := nsmul_ne_zero conforms.prime (conforms.torsion H) nonzero positive below
    have read := (bytesToPoint_octets conforms left).1
    rw [equal, (bytesToPoint_octets conforms right).1] at read
    exact (Option.some.inj read).symm
  obtain ⟨r', ⟨range, moved⟩, unique⟩ :=
    existsUnique_scalar conforms.prime card nonzero otherNonzero positive below
  refine ⟨r', ⟨range, (same r' range).mpr moved⟩, ?_⟩
  intro another ⟨inside, equal⟩
  exact unique another ⟨inside, (same another inside).mp equal⟩

end VoprfClient

end Voprf

section Claim

/-- Blinding hides the message in both schemes: for each factor exactly one factor gives another
message the same product, the factors are uniform on the units, and the blinded values of both
messages have one law. -/
theorem blinding_hides [IssuanceBackend] [AddCommGroup EcBackend.Point]
    {generator : EcBackend.Point} (conforms : GroupConforms generator)
    (card : Nat.card EcBackend.Point = EcBackend.order) :
    (∀ n e left right r : Nat, 0 < n → e.Coprime (carmichael n) → left.Coprime n → right.Coprime n →
      r.Coprime n → ∃! r', (r' < n ∧ r'.Coprime n) ∧
        right * (r' ^ e % n) % n = left * (r ^ e % n) % n) ∧
    (∀ (key : BlindRsaPublicKey) (pkey : EvpPkey) (odd : Odd pkey.n)
        (msg salt encoded other otherSalt otherEncoded : Bytes), key.pkey = some pkey →
      pkey.e.Coprime (carmichael pkey.n) → emsaPssEncode pkey msg salt = .ok encoded →
      emsaPssEncode pkey other otherSalt = .ok otherEncoded →
      (BigEndian.ofBytes encoded).Coprime pkey.n → (BigEndian.ofBytes otherEncoded).Coprime pkey.n →
      (bnNumBytes pkey.n = rsaModulusSize →
        (∀ draws, key.sentMsg msg salt draws = BlindRsaPublicKey.blindedBytes pkey
          (BigEndian.ofBytes encoded) ((BlindRsaPublicKey.drawBlind pkey.n draws).map Prod.fst)) ∧
        ∀ r, r.Coprime pkey.n → ∃! r', (r' < pkey.n ∧ r'.Coprime pkey.n) ∧
          key.sentMsg other otherSalt [r'] = key.sentMsg msg salt [r]) ∧
      ∀ count, (uniformDraws pkey.n odd.pos count).map (key.sentMsg msg salt) =
        (uniformDraws pkey.n odd.pos count).map (key.sentMsg other otherSalt)) ∧
    (∀ (n : Nat) (positive : 0 < n) (count : Nat),
      let drawn := (uniformDraws n positive count).map fun draws =>
        (BlindRsaPublicKey.drawBlind n draws).map Prod.fst
      (0 < count → ∀ r, some r ∈ drawn.support ↔ 0 < r ∧ r < n ∧ r.Coprime n) ∧
      ∀ first second, first < n → first.Coprime n → second < n → second.Coprime n →
        drawn (some first) = drawn (some second)) ∧
    (∀ (left right : EcBackend.Point) (r : Nat), left ≠ 0 → right ≠ 0 → 1 ≤ r →
      r < EcBackend.order → ∃! r', (1 ≤ r' ∧ r' < EcBackend.order) ∧ r' • right = r • left) ∧
    ∀ (client : VoprfClient) (input other : Bytes) (H otherH : EcBackend.Point),
      hashToCurve input = .ok H → hashToCurve other = .ok otherH → H ≠ 0 → otherH ≠ 0 →
      (∀ r < EcBackend.order, (∃ bytes, client.sentElement input (some r) = .ok bytes) ↔ 1 ≤ r) ∧
      (∀ r, 1 ≤ r → r < EcBackend.order → client.sentElement input (some r) = .ok (octets (r • H)) ∧
        ∃! r', (1 ≤ r' ∧ r' < EcBackend.order) ∧
          client.sentElement other (some r') = client.sentElement input (some r)) ∧
      (uniformDraws EcBackend.order conforms.prime.pos 1).map
          (fun draws => client.sentElement input draws.head?) =
        (uniformDraws EcBackend.order conforms.prime.pos 1).map
          fun draws => client.sentElement other draws.head? := by
  refine ⟨?_, ?_, ?_, ?_, ?_⟩
  · intro n e left right r positive coprime leftUnit rightUnit unit
    have : NeZero n := ⟨positive.ne'⟩
    exact existsUnique_unit coprime leftUnit rightUnit unit
  · intro key pkey odd msg salt encoded other otherSalt otherEncoded held coprime encodes otherEncodes
      unit otherUnit
    refine ⟨fun size => ⟨fun draws => ?_, fun r factor => ?_⟩, fun count => ?_⟩
    · rw [drawBlind_first, BlindRsaPublicKey.sentMsg_eq held odd size encodes]
    · exact BlindRsaPublicKey.sentMsg_existsUnique held odd size coprime encodes otherEncodes unit
        otherUnit factor
    · exact BlindRsaPublicKey.sentMsg_law held odd coprime encodes otherEncodes unit otherUnit count
  · intro n positive count drawn
    refine ⟨fun some' r => drawBlind_support positive some', ?_⟩
    intro first second firstBelow firstUnit secondBelow secondUnit
    exact drawBlind_uniform positive count firstBelow firstUnit secondBelow secondUnit
  · intro left right r leftNonzero rightNonzero positive below
    exact existsUnique_scalar conforms.prime card leftNonzero rightNonzero positive below
  · intro client input other H otherH hashed otherHashed nonzero otherNonzero
    refine ⟨fun r below => ?_, fun r positive below => ⟨?_, ?_⟩, ?_⟩
    · rw [VoprfClient.sentElement_eq conforms client hashed below]
      by_cases zero : r = 0
      · simp [zero]
      · simp [zero, Nat.one_le_iff_ne_zero]
    · rw [VoprfClient.sentElement_eq conforms client hashed below, if_neg (by omega)]
    · exact VoprfClient.sentElement_existsUnique conforms card client hashed nonzero otherHashed
        otherNonzero positive below
    · exact VoprfClient.sentElement_law conforms card client hashed nonzero otherHashed otherNonzero

/-- This library pads as the standard asks for and computes in the group of order 5. -/
abbrev hidingBackend : IssuanceBackend :=
  { pssBackend, smallBackend with
    evpSha384 := fun data =>
      some ⟨BigEndian.toBytes 48 (BigEndian.ofBytes data % (2 ^ 384 - 1)), BigEndian.toBytes_length _ _⟩
    setAffineCoordinates := fun x _ => some (x : ZMod 5) }

abbrev hidingGroup : AddCommGroup (@EcBackend.Point hidingBackend.toEcBackend) := smallGroup

theorem hidingBackend_conforms : @GroupConforms hidingBackend.toCurveBackend hidingGroup (1 : ZMod 5) := by
  obtain ⟨prime, small, torsion, nonzero, mul, mulGenerator, mulAdd, add, onCurve, infinite, encodes,
    compressed⟩ := smallBackend_conforms
  exact @GroupConforms.mk hidingBackend.toCurveBackend hidingGroup (1 : ZMod 5) prime small torsion nonzero
    mul mulGenerator mulAdd add onCurve infinite encodes compressed

theorem hidingBackend_card : Nat.card (ZMod 5) = 5 := Nat.card_zmod 5

theorem hashToCurve_one : @hashToCurve hidingBackend.toCurveBackend [1] = .ok (2 : ZMod 5) :=
  @of_decide_eq_true _ ((inferInstance : DecidableEq (Result (ZMod 5))) _ _) (by decide +kernel)

theorem hashToCurve_five : @hashToCurve hidingBackend.toCurveBackend [5] = .ok (1 : ZMod 5) :=
  @of_decide_eq_true _ ((inferInstance : DecidableEq (Result (ZMod 5))) _ _) (by decide +kernel)

/-- The client does not use its key to blind an input. -/
abbrev hidingClient : @VoprfClient hidingBackend.toCurveBackend :=
  @VoprfClient.mk hidingBackend.toCurveBackend (@VoprfPublicKey.mk hidingBackend.toEcBackend none)

def hidingSalt : Bytes := List.replicate 48 0x22

abbrev hidingKey (n : Nat) : BlindRsaPublicKey := ⟨some (pssKey n none), []⟩

def hidingEncoded (msg : Bytes) : Bytes :=
  Pss.encode pssScheme (BigEndian.toBytes 48 (BigEndian.ofBytes msg % (2 ^ 384 - 1))) hidingSalt

theorem hidingKey_encodes {n : Nat} (bits : bnNumBits n = rsaBits) (msg : Bytes) :
    @emsaPssEncode hidingBackend.toRsaBackend (pssKey n none) msg hidingSalt = .ok (hidingEncoded msg) := by
  have padded : bnNumBits (pssKey n none).n = rsaBits ∧ hidingSalt.length = saltLength :=
    ⟨bits, List.length_replicate⟩
  exact @emsaPssEncode_padded hidingBackend.toRsaBackend _ _ _ _ _ rfl (if_pos padded)

/-- The messages `1` and `5` are hidden under the recorded key and in the group of order 5. -/
theorem blinding_hides_recorded :
    (∃! r', (r' < recordedModulus ∧ r'.Coprime recordedModulus) ∧
      @BlindRsaPublicKey.sentMsg hidingBackend.toRsaBackend (hidingKey recordedModulus) [5] hidingSalt
          [r'] =
        @BlindRsaPublicKey.sentMsg hidingBackend.toRsaBackend (hidingKey recordedModulus) [1] hidingSalt
          [2]) ∧
    (∃! r', (1 ≤ r' ∧ r' < 5) ∧ r' • (1 : ZMod 5) = 3 • (2 : ZMod 5)) ∧
    ∃! r', (1 ≤ r' ∧ r' < 5) ∧
      @VoprfClient.sentElement hidingBackend.toCurveBackend hidingClient [5] (some r') =
        @VoprfClient.sentElement hidingBackend.toCurveBackend hidingClient [1] (some 3) := by
  obtain ⟨-, rsa, -, points, voprf⟩ := @blinding_hides hidingBackend hidingGroup (1 : ZMod 5)
    hidingBackend_conforms hidingBackend_card
  have message {n d : Nat} (exponents : BlindSignature.RsaExponents n 65537 d)
      (bits : bnNumBits n = rsaBits) (one : (BigEndian.ofBytes (hidingEncoded [1])).Coprime n)
      (five : (BigEndian.ofBytes (hidingEncoded [5])).Coprime n) :
      ∃! r', (r' < n ∧ r'.Coprime n) ∧
        @BlindRsaPublicKey.sentMsg hidingBackend.toRsaBackend (hidingKey n) [5] hidingSalt [r'] =
          @BlindRsaPublicKey.sentMsg hidingBackend.toRsaBackend (hidingKey n) [1] hidingSalt [2] := by
    have : NeZero n := ⟨exponents.odd.pos.ne'⟩
    have coprime : Nat.Coprime 65537 (carmichael n) := coprime_carmichael exponents
    have size := bnNumBytes_of_bits bits
    exact ((rsa (hidingKey n) (pssKey n none) exponents.odd [1] hidingSalt (hidingEncoded [1]) [5]
      hidingSalt (hidingEncoded [5]) rfl coprime (hidingKey_encodes bits [1])
      (hidingKey_encodes bits [5]) one five).1 size).2 2 (Nat.coprime_two_left.mpr exponents.odd)
  have one : (2 : ZMod 5) ≠ 0 := by decide
  have five : (1 : ZMod 5) ≠ 0 := by decide
  obtain ⟨-, elements, -⟩ :=
    voprf hidingClient [1] [5] (2 : ZMod 5) (1 : ZMod 5) hashToCurve_one hashToCurve_five one five
  refine ⟨?_, ?_, ?_⟩
  · exact message recorded_exponents recordedModulus_bits (by decide +kernel) (by decide +kernel)
  · exact points (2 : ZMod 5) (1 : ZMod 5) 3 one five (by decide) (by decide)
  · exact (elements 3 (by decide) (by decide)).2

end Claim

end PrivacyPass.Crypto
