import PrivacyPass.Construction.Serialization

/-
This file models the authorization scopes of media over QUIC and their wire format.
-/

namespace PrivacyPass.Moq

open Library

inductive Action where
  | clientSetup
  | serverSetup
  | publishNamespace
  | subscribeNamespace
  | subscribe
  | requestUpdate
  | publish
  | fetch
  | trackStatus
  deriving DecidableEq, Repr

namespace Action

def toByte : Action → UInt8
  | clientSetup => 0
  | serverSetup => 1
  | publishNamespace => 2
  | subscribeNamespace => 3
  | subscribe => 4
  | requestUpdate => 5
  | publish => 6
  | fetch => 7
  | trackStatus => 8

def all : List Action :=
  [clientSetup, serverSetup, publishNamespace, subscribeNamespace, subscribe, requestUpdate, publish,
    fetch, trackStatus]

/-- The decoder casts the bytes of the enumeration and no others. -/
def ofByte (value : UInt8) : Option Action := all.find? fun action => action.toByte = value

end Action

inductive MatchType where
  | matchExact
  | matchPrefix
  | matchSuffix
  | matchContains
  deriving DecidableEq, Repr

namespace MatchType

def toByte : MatchType → UInt8
  | matchExact => 0
  | matchPrefix => 1
  | matchSuffix => 2
  | matchContains => 3

def all : List MatchType := [matchExact, matchPrefix, matchSuffix, matchContains]

def ofByte (value : UInt8) : Option MatchType := all.find? fun type => type.toByte = value

end MatchType

abbrev Namespace := List Bytes

abbrev TrackName := Bytes

structure NamespaceMatchRule where
  matchType : MatchType
  pattern : Namespace
  deriving DecidableEq

/-- The last case tries each start at which the pattern still fits. -/
def NamespaceMatchRule.matchesNamespace (rule : NamespaceMatchRule) (ns : Namespace) : Bool :=
  match rule.matchType with
  | .matchExact => decide (ns = rule.pattern)
  | .matchPrefix => rule.pattern.isPrefixOf ns
  | .matchSuffix => rule.pattern.isSuffixOf ns
  | .matchContains => (List.range (ns.length + 1 - rule.pattern.length)).any fun start =>
      (ns.drop start).take rule.pattern.length = rule.pattern

/-- The inner loop compares the elements until two of them differ, and an index that leaves its list
reads nothing. -/
def compareLoop (ns pattern : Namespace) (offset : Nat) : (count i : Nat) → Option Bool
  | 0, _ => some true
  | count + 1, i =>
      match ns[offset + i]?, pattern[i]? with
      | some elem, some expected =>
          if elem ≠ expected then some false else compareLoop ns pattern offset count (i + 1)
      | _, _ => none

/-- The outer loop ends at the first start at which the whole pattern is found. -/
def containsLoop (ns pattern : Namespace) (start : Nat) : Option Bool :=
  if start + pattern.length ≤ ns.length then
    match compareLoop ns pattern start pattern.length 0 with
    | some false => containsLoop ns pattern (start + 1)
    | found => found
  else some false
termination_by ns.length + 1 - start

/-- These are the loops of the source over the indices of the two lists. -/
def NamespaceMatchRule.matchesLoop (rule : NamespaceMatchRule) (ns : Namespace) : Option Bool :=
  match rule.matchType with
  | .matchExact =>
      if ns.length ≠ rule.pattern.length then some false
      else compareLoop ns rule.pattern 0 ns.length 0
  | .matchPrefix =>
      if ns.length < rule.pattern.length then some false
      else compareLoop ns rule.pattern 0 rule.pattern.length 0
  | .matchSuffix =>
      if ns.length < rule.pattern.length then some false
      else compareLoop ns rule.pattern (ns.length - rule.pattern.length) rule.pattern.length 0
  | .matchContains => containsLoop ns rule.pattern 0

structure TrackNameMatchRule where
  matchType : MatchType
  pattern : TrackName
  deriving DecidableEq

/-- This function returns the first position of the pattern, or the end of the name. -/
def search (name pattern : Bytes) : Nat :=
  ((List.range (name.length + 1 - pattern.length)).find? fun start =>
    (name.drop start).take pattern.length = pattern).getD name.length

/-- A search that ends at the end of the name counts as a failure. -/
def TrackNameMatchRule.matchesName (rule : TrackNameMatchRule) (name : TrackName) : Bool :=
  match rule.matchType with
  | .matchExact => decide (name = rule.pattern)
  | .matchPrefix => rule.pattern.isPrefixOf name
  | .matchSuffix => rule.pattern.isSuffixOf name
  | .matchContains => decide (search name rule.pattern ≠ name.length)

/-- A match is a rule or accepts everything. -/
inductive Match (ρ : Type) where
  | rule (rule : ρ)
  | wildcard
  deriving DecidableEq

abbrev NamespaceMatch := Match NamespaceMatchRule

abbrev TrackNameMatch := Match TrackNameMatchRule

structure AuthScope where
  actions : List Action
  namespaceMatch : NamespaceMatch
  trackNameMatch : TrackNameMatch
  deriving DecidableEq

namespace AuthScope

def authorizes (scope : AuthScope) (action : Action) (ns : Namespace) (track : TrackName) : Bool :=
  if action ∉ scope.actions then false
  else
    let nsMatches :=
      match scope.namespaceMatch with
      | .rule rule => rule.matchesNamespace ns
      | .wildcard => true
    if nsMatches = false then false
    else
      match scope.trackNameMatch with
      | .rule rule => rule.matchesName track
      | .wildcard => true

def wildcardMarker : UInt8 := 0xFF

def writeElement (elem : Bytes) : List Write :=
  [ByteWriter.writeU16 elem.length.toUInt16, ByteWriter.writeBytes elem]

def writeNamespace : NamespaceMatch → List Write
  | .wildcard => [ByteWriter.writeU8 wildcardMarker]
  | .rule rule =>
      [ByteWriter.writeU8 rule.matchType.toByte,
        ByteWriter.writeU8 rule.pattern.length.toUInt8] ++ rule.pattern.flatMap writeElement

def writeTrack : TrackNameMatch → List Write
  | .wildcard => [ByteWriter.writeU8 wildcardMarker]
  | .rule rule =>
      ByteWriter.writeU8 rule.matchType.toByte :: writeElement rule.pattern

/-- The counts and lengths are narrowed to their field without a check. -/
def serialize (scope : AuthScope) : Result Bytes :=
  .ok <| ByteWriter.build <|
    [ByteWriter.writeU8 scope.actions.length.toUInt8] ++
      scope.actions.map (fun action => ByteWriter.writeU8 action.toByte) ++
      writeNamespace scope.namespaceMatch ++ writeTrack scope.trackNameMatch

def maxElementSize : UInt16 := 65535

/-- An element and a track pattern are read behind their length. -/
def sizedDecoder (lengthMessage largeMessage dataMessage : String) : ByteDecoder Bytes := do
  let length ← .ofRead ByteReader.readU16 ⟨.unexpectedEnd, lengthMessage⟩
  .reject (length > maxElementSize) ⟨.malformedData, largeMessage⟩
  .ofRead (ByteReader.readBytes length.toNat) ⟨.unexpectedEnd, dataMessage⟩

def elementDecoder : ByteDecoder Bytes :=
  sizedDecoder "Failed to read element length" "Element too large" "Failed to read element"

def trackPatternDecoder : ByteDecoder Bytes :=
  sizedDecoder "Failed to read track length" "Track pattern too large"
    "Failed to read track pattern"

def actionDecoder : ByteDecoder Action := do
  let value ← .ofRead ByteReader.readU8 ⟨.unexpectedEnd, "Failed to read action"⟩
  match Action.ofByte value with
  | some action => pure action
  | none => throw ⟨.malformedData, "Invalid action value: " ++ toString value⟩

/-- A match starts with the wildcard marker or with the type of its rule. -/
def matchDecoder {ρ : Type} (typeMessage invalidMessage : String)
    (rule : MatchType → ByteDecoder ρ) : ByteDecoder (Match ρ) := do
  let type ← .ofRead ByteReader.readU8 ⟨.unexpectedEnd, typeMessage⟩
  if type = wildcardMarker then pure .wildcard
  else
    match MatchType.ofByte type with
    | some matchType => do
        let rule ← rule matchType
        pure (.rule rule)
    | none => throw ⟨.malformedData, invalidMessage ++ toString type⟩

def namespaceDecoder : ByteDecoder NamespaceMatch :=
  matchDecoder "Failed to read namespace match type" "Invalid namespace match type: "
    fun matchType => do
      let count ← .ofRead ByteReader.readU8 ⟨.unexpectedEnd, "Failed to read namespace count"⟩
      let pattern ← elementDecoder.times count.toNat
      pure ⟨matchType, pattern⟩

def trackDecoder : ByteDecoder TrackNameMatch :=
  matchDecoder "Failed to read track match type" "Invalid track match type: "
    fun matchType => do
      let pattern ← trackPatternDecoder
      pure ⟨matchType, pattern⟩

/-- The decoder ignores the bytes behind the track match. -/
def decoder : ByteDecoder AuthScope := do
  let count ← .ofRead ByteReader.readU8 ⟨.unexpectedEnd, "Failed to read actions count"⟩
  let actions ← actionDecoder.times count.toNat
  let namespaceMatch ← namespaceDecoder
  let trackNameMatch ← trackDecoder
  pure ⟨actions, namespaceMatch, trackNameMatch⟩

def deserialize (data : Bytes) : Result AuthScope := decoder.run data

end AuthScope
end PrivacyPass.Moq
