import PrivacyPass.Proof.Moq.Authorization
import PrivacyPass.Proof.Wire.Token

/-
This file proves which bytes are decoded although they are not written again.
-/

namespace PrivacyPass.Moq

open Library

section Extent

/-- The length in front of the data. -/
def announced : Bytes → Nat
  | high :: low :: _ => high.toNat * 256 + low.toNat
  | _ => 0

def elementExtent (data : Bytes) : Nat := 2 + announced data

def elementsExtent : Nat → Bytes → Nat
  | 0, _ => 0
  | count + 1, data =>
      elementExtent data + elementsExtent count (data.drop (elementExtent data))

def namespaceExtent : Bytes → Nat
  | type :: count :: rest =>
      if type = AuthScope.wildcardMarker then 1 else 2 + elementsExtent count.toNat rest
  | _ => 1

def trackExtent : Bytes → Nat
  | type :: rest => if type = AuthScope.wildcardMarker then 1 else 1 + elementExtent rest
  | [] => 0

/-- The number of bytes that a scope has by its own counts and lengths. -/
def scopeExtent : Bytes → Nat
  | count :: rest =>
      let namespaceMatch := rest.drop count.toNat
      let trackNameMatch := namespaceMatch.drop (namespaceExtent namespaceMatch)
      1 + count.toNat + namespaceExtent namespaceMatch + trackExtent trackNameMatch
  | [] => 0

/-- Each frame announces the extent of its scope, and nothing follows the last frame. -/
def framesExact : Nat → Bytes → Bool
  | 0, data => data.isEmpty
  | count + 1, data =>
      announced data == scopeExtent ((data.drop 2).take (announced data)) &&
        framesExact count (data.drop (2 + announced data))

def infoExact : Bytes → Bool
  | count :: rest => framesExact count.toNat rest
  | [] => false

theorem announced_sizedWire {bytes : Bytes} (fits : bytes.length ≤ 65535) (rest : Bytes) :
    announced (sizedWire bytes ++ rest) = bytes.length := by
  have small := bytes.length.toUInt16.toNat_lt
  have read := length_toUInt16 fits
  have high : (bytes.length.toUInt16 >>> 8).toUInt8.toNat = bytes.length.toUInt16.toNat / 256 := by
    simp [Nat.shiftRight_eq_div_pow]
    omega
  have low : bytes.length.toUInt16.toUInt8.toNat = bytes.length.toUInt16.toNat % 256 :=
    UInt16.toNat_toUInt8 _
  change _ * 256 + _ = _
  rw [high, low, read]
  omega

theorem elementExtent_sizedWire {bytes : Bytes} (fits : bytes.length ≤ 65535) (rest : Bytes) :
    elementExtent (sizedWire bytes ++ rest) = (sizedWire bytes).length := by
  rw [elementExtent, announced_sizedWire fits, sizedWire_length]

theorem elementsExtent_sizedWire {pattern : Namespace}
    (short : ∀ elem ∈ pattern, elem.length ≤ 65535) (rest : Bytes) :
    elementsExtent pattern.length (pattern.flatMap sizedWire ++ rest) =
      (pattern.flatMap sizedWire).length := by
  induction pattern with
  | nil => rfl
  | cons head tail ih =>
      rw [List.length_cons, elementsExtent, List.flatMap_cons, List.append_assoc,
        elementExtent_sizedWire (short head List.mem_cons_self), List.drop_left,
        ih fun elem member => short elem (List.mem_cons_of_mem _ member), List.length_append]

theorem namespaceExtent_wire {decoded : NamespaceMatch}
    (fits : ∀ rule, decoded = .rule rule →
      rule.pattern.length ≤ 255 ∧ ∀ elem ∈ rule.pattern, elem.length ≤ 65535) (rest : Bytes) :
    namespaceExtent (AuthScope.namespaceWire decoded ++ rest) =
      (AuthScope.namespaceWire decoded).length := by
  cases decoded with
  | wildcard => cases rest <;> rfl
  | rule rule =>
      obtain ⟨few, short⟩ := fits rule rfl
      change (if rule.matchType.toByte = AuthScope.wildcardMarker then 1 else
        2 + elementsExtent rule.pattern.length.toUInt8.toNat
          (rule.pattern.flatMap sizedWire ++ rest)) = (rule.pattern.flatMap sizedWire).length + 1 + 1
      rw [if_neg (MatchType.toByte_ne_wildcardMarker _), length_toUInt8 few,
        elementsExtent_sizedWire short]
      omega

theorem trackExtent_wire {decoded : TrackNameMatch}
    (fits : ∀ rule, decoded = .rule rule → rule.pattern.length ≤ 65535) (rest : Bytes) :
    trackExtent (AuthScope.trackWire decoded ++ rest) = (AuthScope.trackWire decoded).length := by
  cases decoded with
  | wildcard => rfl
  | rule rule =>
      change (if rule.matchType.toByte = AuthScope.wildcardMarker then 1 else
        1 + elementExtent (sizedWire rule.pattern ++ rest)) = (sizedWire rule.pattern).length + 1
      rw [if_neg (MatchType.toByte_ne_wildcardMarker _), elementExtent_sizedWire (fits rule rfl)]
      omega

/-- The extent of a scope ends where its wire format ends. -/
theorem scopeExtent_wire {scope : AuthScope} (encodable : scope.Encodable) (rest : Bytes) :
    scopeExtent (scope.wire ++ rest) = scope.wire.length := by
  obtain ⟨few, namespaceFits, trackFits⟩ := encodable
  have actions : (scope.actions.flatMap fun action => [action.toByte]).length = scope.actions.length := by
    simp
  rw [AuthScope.wire, List.cons_append, scopeExtent, length_toUInt8 few, List.append_assoc,
    List.append_assoc, List.drop_left' actions, namespaceExtent_wire namespaceFits, List.drop_left,
    trackExtent_wire trackFits, List.length_cons, List.length_append, List.length_append, actions]
  omega

end Extent

section Strict

/-- A word that is followed by more data is not the whole data. -/
theorem eq_front_iff {word rest : Bytes} : word = word ++ rest ↔
    (word ++ rest).length = word.length := by
  rw [List.self_eq_append_right, List.length_append, Nat.add_eq_left, List.length_eq_zero_iff]

/-- An input is written again exactly when nothing follows it. -/
theorem authenticatorInput_strict {data : Bytes} {input : AuthenticatorInput}
    (success : AuthenticatorInput.deserialize data = .ok input) :
    input.serialize = .ok data ↔ data.length = 98 := by
  obtain ⟨rest, rfl⟩ := AuthenticatorInput.deserialize_front success
  rw [AuthenticatorInput.serialize_eq, Except.ok.injEq, eq_front_iff, AuthenticatorInput.wire_length]

/-- A scope is written again exactly when the data ends with its extent. -/
theorem authScope_strict {data : Bytes} {scope : AuthScope}
    (success : AuthScope.deserialize data = .ok scope) :
    scope.serialize = .ok data ↔ data.length = scopeExtent data := by
  obtain ⟨final, success⟩ := Decoder.run_eq_ok.mp success
  obtain ⟨_, ⟨rfl, encodable⟩, rest⟩ := AuthScope.decoder_only _ _ _ success
  change data = _ at rest
  rw [rest, AuthScope.serialize_eq, Except.ok.injEq, eq_front_iff, scopeExtent_wire encodable]

/-- Frames are written again exactly when each of them announces its scope and nothing follows. -/
theorem framesExact_iff {frames : List Bytes} {scopes : List AuthScope} {rest : Bytes}
    (all : List.Forall₂ AuthorizationInfo.Framed frames scopes) :
    framesExact scopes.length (frames.flatten ++ rest) = true ↔
      (scopes.flatMap fun scope => sizedWire scope.wire) = frames.flatten ++ rest := by
  induction all with
  | nil => exact List.isEmpty_iff.trans eq_comm
  | @cons frame scope frames scopes framed all ih =>
      obtain ⟨slack, rfl, short, encodable⟩ := framed
      have length := announced_sizedWire short (frames.flatten ++ rest)
      have body : ((sizedWire (scope.wire ++ slack) ++ (frames.flatten ++ rest)).drop 2).take
          (scope.wire ++ slack).length = scope.wire ++ slack := by
        change List.take _ (scope.wire ++ slack ++ (frames.flatten ++ rest)) = _
        exact List.take_left
      have behind : (sizedWire (scope.wire ++ slack) ++ (frames.flatten ++ rest)).drop
          (2 + (scope.wire ++ slack).length) = frames.flatten ++ rest :=
        List.drop_left' (sizedWire_length _)
      rw [List.length_cons, List.flatten_cons, List.flatMap_cons, List.append_assoc, framesExact, length,
        body, behind, scopeExtent_wire encodable, Bool.and_eq_true, beq_iff_eq, ih]
      by_cases empty : slack = []
      · rw [empty, List.append_nil, List.append_cancel_left_eq]
        exact and_iff_right rfl
      · have longer : ¬ (scope.wire ++ slack).length = scope.wire.length := by
          rw [List.length_append, Nat.add_eq_left]
          exact mt List.length_eq_zero_iff.mp empty
        have fits : scope.wire.length ≤ 65535 := by
          rw [List.length_append] at short
          omega
        refine iff_of_false (fun both => longer both.1) fun equal => longer ?_
        have lengths := congrArg announced equal
        rw [announced_sizedWire fits, length] at lengths
        exact lengths.symm

/-- An info is written again exactly when its frames are exact. -/
theorem authorizationInfo_strict {data : Bytes} {info : AuthorizationInfo}
    (success : AuthorizationInfo.deserialize data = .ok info) :
    info.serialize = .ok data ↔ infoExact data = true := by
  obtain ⟨frames, rest, rfl, few, all⟩ := AuthorizationInfo.deserialize_framed success
  rw [AuthorizationInfo.serialize_eq, Except.ok.injEq, AuthorizationInfo.wire, List.cons_inj_right,
    ← framesExact_iff all, infoExact, length_toUInt8 few]

/-- Decoded values are written again exactly when their data has the extent that its own counts and
lengths announce. -/
theorem written_again_iff (data : Bytes) :
    (∀ input, AuthenticatorInput.deserialize data = .ok input →
      (input.serialize = .ok data ↔ data.length = 98)) ∧
    (∀ scope, AuthScope.deserialize data = .ok scope →
      (scope.serialize = .ok data ↔ data.length = scopeExtent data)) ∧
    ∀ info, AuthorizationInfo.deserialize data = .ok info →
      (info.serialize = .ok data ↔ infoExact data = true) :=
  ⟨fun _ => authenticatorInput_strict, fun _ => authScope_strict, fun _ => authorizationInfo_strict⟩

/-- One scope in an exact frame is written again. -/
theorem written_again_single : (⟨[⟨[], .wildcard, .wildcard⟩]⟩ : AuthorizationInfo).serialize =
    .ok [1, 0, 3, 0, 0xFF, 0xFF] :=
  ((written_again_iff [1, 0, 3, 0, 0xFF, 0xFF]).2.2 ⟨[⟨[], .wildcard, .wildcard⟩]⟩ rfl).mpr (by decide)

/-- This input has a type and three arrays of zeros. -/
def zeroInput : AuthenticatorInput := ⟨.blindRsa, .zero 32, .zero 32, .zero 32⟩

/-- One byte more is accepted behind an input, behind a scope, behind the scopes of an info and inside a
frame, and it is not written again. -/
theorem slack_accepted :
    (∃ input, AuthenticatorInput.deserialize (zeroInput.wire ++ [7]) = .ok input ∧
      input.serialize ≠ .ok (zeroInput.wire ++ [7])) ∧
    (∃ scope, AuthScope.deserialize [0, 0xFF, 0xFF, 7] = .ok scope ∧
      scope.serialize ≠ .ok [0, 0xFF, 0xFF, 7]) ∧
    (∃ info, AuthorizationInfo.deserialize [1, 0, 3, 0, 0xFF, 0xFF, 7] = .ok info ∧
      info.serialize ≠ .ok [1, 0, 3, 0, 0xFF, 0xFF, 7]) ∧
    ∃ info, AuthorizationInfo.deserialize [1, 0, 4, 0, 0xFF, 0xFF, 7] = .ok info ∧
      info.serialize ≠ .ok [1, 0, 4, 0, 0xFF, 0xFF, 7] := by
  have input := zeroInput.deserialize_append [7]
  have scope : AuthScope.deserialize [0, 0xFF, 0xFF, 7] = .ok ⟨[], .wildcard, .wildcard⟩ := rfl
  have behind : AuthorizationInfo.deserialize [1, 0, 3, 0, 0xFF, 0xFF, 7] =
      .ok ⟨[⟨[], .wildcard, .wildcard⟩]⟩ := rfl
  have inside : AuthorizationInfo.deserialize [1, 0, 4, 0, 0xFF, 0xFF, 7] =
      .ok ⟨[⟨[], .wildcard, .wildcard⟩]⟩ := rfl
  refine ⟨⟨_, input, ?_⟩, ⟨_, scope, ?_⟩, ⟨_, behind, ?_⟩, ⟨_, inside, ?_⟩⟩
  · exact fun written => absurd ((authenticatorInput_strict input).mp written) (by decide)
  · exact fun written => absurd ((authScope_strict scope).mp written) (by decide)
  · exact fun written => absurd ((authorizationInfo_strict behind).mp written) (by decide)
  · exact fun written => absurd ((authorizationInfo_strict inside).mp written) (by decide)

end Strict
end PrivacyPass.Moq
