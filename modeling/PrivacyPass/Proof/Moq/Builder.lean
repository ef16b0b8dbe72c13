import PrivacyPass.Construction.Moq.Builder
import PrivacyPass.Proof.Moq.ChallengePath
import PrivacyPass.Proof.Moq.MatchRules

/-
This file proves what a sequence of builder calls authorizes before and after the encoding.
-/

namespace PrivacyPass.Moq

open Library

/-- A wildcard admits everything, and a rule admits what it means. -/
def Match.Admits {ρ : Type} (means : ρ → Prop) : Match ρ → Prop
  | .wildcard => True
  | .rule held => means held

namespace AuthScope

theorem authorizes_iff {scope : AuthScope} {action : Action} {ns : Namespace} {track : TrackName} :
    scope.authorizes action ns track = true ↔ action ∈ scope.actions ∧
      scope.namespaceMatch.Admits (fun rule => rule.matchesNamespace ns = true) ∧
      scope.trackNameMatch.Admits (fun rule => rule.matchesName track = true) := by
  rcases scope with ⟨actions, namespaceMatch, trackNameMatch⟩
  unfold authorizes
  dsimp only
  by_cases listed : action ∈ actions
  · rw [if_neg (not_not.mpr listed)]
    cases namespaceMatch <;> cases trackNameMatch <;> simp [Match.Admits, listed]
  · simp [listed]

namespace Builder

/-- The actions that a call allows. -/
def Call.allowed : Call → List Action
  | .allowAction action => [action]
  | .allowActions actions => actions
  | _ => []

/-- What a call says about the namespace. -/
def Call.namespaceMatch : Call → Option NamespaceMatch
  | .forNamespaceExact ns => some (.rule ⟨.matchExact, ns⟩)
  | .forNamespacePrefix front => some (.rule ⟨.matchPrefix, front⟩)
  | .forNamespaceSuffix back => some (.rule ⟨.matchSuffix, back⟩)
  | .forNamespaceContaining pattern => some (.rule ⟨.matchContains, pattern⟩)
  | .forAnyNamespace => some .wildcard
  | _ => none

/-- What a call says about the track. -/
def Call.trackNameMatch : Call → Option TrackNameMatch
  | .forTrackExact name => some (.rule ⟨.matchExact, name⟩)
  | .forTrackPrefix front => some (.rule ⟨.matchPrefix, front⟩)
  | .forTrackSuffix back => some (.rule ⟨.matchSuffix, back⟩)
  | .forTrackContaining pattern => some (.rule ⟨.matchContains, pattern⟩)
  | .forAnyTrack => some .wildcard
  | _ => none

/-- The last call about a matter decides it, and without one everything matches. -/
def lastMatch {ρ : Type} (matcher : Call → Option (Match ρ)) (calls : List Call) : Match ρ :=
  (calls.filterMap matcher).getLast?.getD .wildcard

theorem lastMatch_concat {ρ : Type} (matcher : Call → Option (Match ρ)) (calls : List Call) (call : Call) :
    lastMatch matcher (calls ++ [call]) = (matcher call).getD (lastMatch matcher calls) := by
  unfold lastMatch
  rw [List.filterMap_append]
  cases found : matcher call <;> simp [found]

theorem allowActions_eq (builder : Builder) (actions : List Action) :
    builder.allowActions actions = { builder with actions := builder.actions ++ actions } := by
  unfold allowActions
  induction actions generalizing builder with
  | nil => simp
  | cons action actions ih => simp [ih, allowAction]

/-- A call adds its actions and replaces the match that it names. -/
theorem apply_eq (builder : Builder) (call : Call) :
    builder.apply call = ⟨builder.actions ++ call.allowed,
      call.namespaceMatch.getD builder.namespaceMatch,
      call.trackNameMatch.getD builder.trackNameMatch⟩ := by
  cases call with
  | allowActions actions =>
      rw [apply, allowActions_eq]
      rfl
  | allowAction action => rfl
  | _ => simp [apply, Call.allowed, Call.namespaceMatch, Call.trackNameMatch, forNamespaceExact,
      forNamespacePrefix, forNamespaceSuffix, forNamespaceContaining, forAnyNamespace, forNamespace,
      forTrackExact, forTrackPrefix, forTrackSuffix, forTrackContaining, forAnyTrack, forTrack]

/-- The scope that a new builder makes after these calls. -/
def scopeOf (calls : List Call) : AuthScope := (calls.foldl apply AuthScope.builder).build

theorem scopeOf_eq (calls : List Call) :
    scopeOf calls = ⟨calls.flatMap Call.allowed, lastMatch Call.namespaceMatch calls,
      lastMatch Call.trackNameMatch calls⟩ := by
  have built : calls.foldl apply AuthScope.builder = ⟨calls.flatMap Call.allowed,
      lastMatch Call.namespaceMatch calls, lastMatch Call.trackNameMatch calls⟩ := by
    induction calls using List.reverseRecOn with
    | nil => rfl
    | append_singleton calls call ih =>
        rw [List.foldl_append, List.foldl_cons, List.foldl_nil, ih, apply_eq, List.flatMap_append,
          lastMatch_concat, lastMatch_concat]
        simp
  rw [scopeOf, built]
  rfl

/-- The calls permit an action that one of them allows, on the namespaces and the tracks that the
last calls about them admit. -/
structure Permits (calls : List Call) (action : Action) (ns : Namespace) (track : TrackName) : Prop where
  allowed : ∃ call ∈ calls, action ∈ call.allowed
  admitsNamespace : (lastMatch Call.namespaceMatch calls).Admits fun rule =>
    rule.matchType.Means rule.pattern ns
  admitsTrack : (lastMatch Call.trackNameMatch calls).Admits fun rule =>
    rule.matchType.Means rule.pattern track ∧
      ¬ (rule.matchType = .matchContains ∧ rule.pattern = [] ∧ track = [])

/-- A built scope authorizes what its calls permit. -/
theorem authorizes_scopeOf {calls : List Call} {action : Action} {ns : Namespace} {track : TrackName} :
    (scopeOf calls).authorizes action ns track = true ↔ Permits calls action ns track := by
  rw [authorizes_iff, scopeOf_eq, List.mem_flatMap]
  have namespaces : (lastMatch Call.namespaceMatch calls).Admits
      (fun rule => rule.matchesNamespace ns = true) ↔ (lastMatch Call.namespaceMatch calls).Admits
        fun rule => rule.matchType.Means rule.pattern ns := by
    cases lastMatch Call.namespaceMatch calls with
    | wildcard => rfl
    | rule rule => exact rule.matchesNamespace_iff ns
  have tracks : (lastMatch Call.trackNameMatch calls).Admits
      (fun rule => rule.matchesName track = true) ↔ (lastMatch Call.trackNameMatch calls).Admits
        fun rule => rule.matchType.Means rule.pattern track ∧
          ¬ (rule.matchType = .matchContains ∧ rule.pattern = [] ∧ track = []) := by
    cases lastMatch Call.trackNameMatch calls with
    | wildcard => rfl
    | rule rule => exact TrackNameMatchRule.matchesName_iff rule.matchType
  rw [namespaces, tracks]
  constructor
  · intro ⟨allowed, admitsNamespace, admitsTrack⟩
    exact ⟨allowed, admitsNamespace, admitsTrack⟩
  · intro permits
    exact ⟨permits.allowed, permits.admitsNamespace, permits.admitsTrack⟩

end Builder
end AuthScope

namespace AuthorizationInfo

open AuthScope.Builder (Permits scopeOf authorizes_scopeOf)

namespace Builder

/-- The scopes that a call adds. -/
def Call.added : Call → List AuthScope
  | .addScope scope => [scope]
  | .addScopes scopes => scopes

theorem apply_eq (builder : Builder) (call : Call) :
    builder.apply call = ⟨builder.scopes ++ call.added⟩ := by
  cases call with
  | addScope scope => rfl
  | addScopes scopes =>
      change builder.addScopes scopes = ⟨builder.scopes ++ scopes⟩
      unfold addScopes
      induction scopes generalizing builder with
      | nil => simp
      | cons scope scopes ih => simp [ih, addScope]

theorem build_foldl (calls : List Call) :
    (calls.foldl apply AuthorizationInfo.builder).build = ⟨calls.flatMap Call.added⟩ := by
  have built : calls.foldl apply AuthorizationInfo.builder = ⟨calls.flatMap Call.added⟩ := by
    induction calls using List.reverseRecOn with
    | nil => rfl
    | append_singleton calls call ih =>
        rw [List.foldl_append, List.foldl_cons, List.foldl_nil, ih, apply_eq, List.flatMap_append]
        simp
  rw [built]
  rfl

end Builder

theorem authorizes_iff {info : AuthorizationInfo} {action : Action} {ns : Namespace}
    {track : TrackName} : info.authorizes action ns track = true ↔
      ∃ scope ∈ info.scopes, scope.authorizes action ns track = true := List.any_eq_true

/-- An info from any calls authorizes, before its encoding and after its decoding, what the calls for
one of its scopes permit. -/
theorem decoded_authorizes {calls : List Builder.Call} {plans : List (List AuthScope.Builder.Call)}
    (made : calls.flatMap Builder.Call.added = plans.map scopeOf)
    (encodable : (⟨plans.map scopeOf⟩ : AuthorizationInfo).Encodable) : ∃ text decoded,
      (calls.foldl Builder.apply builder).build.encodeForOriginInfo = .ok text ∧
      decodeFromOriginInfo text = .ok decoded ∧
      decoded = (calls.foldl Builder.apply builder).build ∧
      ∀ action ns track, decoded.authorizes action ns track = true ↔
        ∃ plan ∈ plans, Permits plan action ns track := by
  rw [Builder.build_foldl, made]
  refine ⟨_, _, encodeForOriginInfo_eq _, decodeFromOriginInfo_encode encodable, rfl, ?_⟩
  intro action ns track
  simp only [authorizes_iff, List.mem_map, exists_exists_and_eq_and, authorizes_scopeOf]

/-- The text of an info is decoded to the same info exactly when the info is encodable. -/
theorem decodeFromOriginInfo_eq_ok (info : AuthorizationInfo) :
    (∀ text, info.encodeForOriginInfo = .ok text → decodeFromOriginInfo text = .ok info) ↔
      info.Encodable := by
  rw [encodeForOriginInfo_eq]
  constructor
  · intro survives
    have decoded := survives _ rfl
    rw [decodeFromOriginInfo, Base64Url.decode_encode] at decoded
    exact deserialize_encodable decoded
  · rintro encodable _ ⟨⟩
    exact decodeFromOriginInfo_encode encodable

/-- One scope of bounded size is encodable when its counts fit. -/
theorem encodable_single {scope : AuthScope} :
    (⟨[scope]⟩ : AuthorizationInfo).Encodable ↔ scope.FewParts ∧ scope.encodedSize ≤ 65535 := by
  constructor
  · rintro ⟨-, each⟩
    obtain ⟨⟨few, parts, -⟩, size⟩ := each scope (List.mem_singleton.mpr rfl)
    exact ⟨⟨few, fun rule found => (parts rule found).1⟩, size⟩
  · intro ⟨few, size⟩
    refine ⟨by simp, ?_⟩
    simpa using ⟨AuthScope.encodable_of_size few size, size⟩

/-- The bytes that the elements of a namespace take on the wire. -/
def namespaceSize (ns : Namespace) : Nat := (ns.map fun elem => 2 + elem.length).sum

/-- A subscriber may work on its one track, a publisher on all tracks of its namespace and a relay
everywhere; a preset survives its encoding exactly when its namespace and its track fit. -/
theorem presets_authorize (ns : Namespace) (track : TrackName) :
    (∀ action other name, (forSubscriber ns track).authorizes action other name = true ↔
      action ∈ [.clientSetup, .subscribe, .fetch, .trackStatus] ∧ other = ns ∧ name = track) ∧
    (∀ action other name, (forPublisher ns).authorizes action other name = true ↔
      action ∈ [.clientSetup, .publishNamespace, .publish] ∧ other = ns) ∧
    (∀ action other name, forRelay.authorizes action other name = true) ∧
    ((∀ text, (forSubscriber ns track).encodeForOriginInfo = .ok text →
      decodeFromOriginInfo text = .ok (forSubscriber ns track)) ↔
        ns.length ≤ 255 ∧ namespaceSize ns + track.length ≤ 65525) ∧
    ((∀ text, (forPublisher ns).encodeForOriginInfo = .ok text →
      decodeFromOriginInfo text = .ok (forPublisher ns)) ↔
        ns.length ≤ 255 ∧ namespaceSize ns ≤ 65528) ∧
    ∀ text, forRelay.encodeForOriginInfo = .ok text → decodeFromOriginInfo text = .ok forRelay := by
  have subscriber : forSubscriber ns track = ⟨[⟨[.clientSetup, .subscribe, .fetch, .trackStatus],
    .rule ⟨.matchExact, ns⟩, .rule ⟨.matchExact, track⟩⟩]⟩ := rfl
  have publisher : forPublisher ns = ⟨[⟨[.clientSetup, .publishNamespace, .publish],
    .rule ⟨.matchExact, ns⟩, .wildcard⟩]⟩ := rfl
  refine ⟨?_, ?_, ?_, ?_, ?_, ?_⟩
  · intro action other name
    simp [subscriber, authorizes_iff, AuthScope.authorizes_iff, Match.Admits,
      NamespaceMatchRule.matchesNamespace, TrackNameMatchRule.matchesName]
  · intro action other name
    simp [publisher, authorizes_iff, AuthScope.authorizes_iff, Match.Admits,
      NamespaceMatchRule.matchesNamespace]
  · intro action other name
    cases action <;> rfl
  · rw [decodeFromOriginInfo_eq_ok, subscriber, encodable_single]
    simp only [AuthScope.FewParts, AuthScope.encodedSize, AuthScope.matchSize, namespaceSize,
      List.length_cons, List.length_nil, Match.rule.injEq, forall_eq']
    omega
  · rw [decodeFromOriginInfo_eq_ok, publisher, encodable_single]
    simp only [AuthScope.FewParts, AuthScope.encodedSize, AuthScope.matchSize, namespaceSize,
      List.length_cons, List.length_nil, Match.rule.injEq, forall_eq']
    omega
  · rw [decodeFromOriginInfo_eq_ok]
    refine encodable_single.mpr ⟨⟨by decide, ?_⟩, by decide⟩
    rintro rule ⟨⟩

end AuthorizationInfo

section Instances

/-- Two scopes: one for a namespace whose exact match is replaced by a front, one for everything. -/
def twoPlans : List (List AuthScope.Builder.Call) :=
  [[.allowAction .subscribe, .forNamespaceExact [[0x61]], .allowActions [.fetch],
    .forNamespacePrefix [[0x62]], .forTrackSuffix [0x63]], [.allowAction .clientSetup]]

/-- The last namespace call counts after the encoding, too. -/
theorem AuthorizationInfo.decoded_authorizes_two : ∃ text decoded,
    ((([.addScopes (twoPlans.map AuthScope.Builder.scopeOf)] : List Builder.Call).foldl
      Builder.apply builder).build.encodeForOriginInfo = .ok text ∧
      decodeFromOriginInfo text = .ok decoded ∧
      decoded.authorizes .fetch [[0x62], [0x61]] [0x63] = true ∧
      ¬ decoded.authorizes .subscribe [[0x61]] [0x63] = true) := by
  have encodable : (⟨twoPlans.map AuthScope.Builder.scopeOf⟩ : AuthorizationInfo).Encodable := by
    refine ⟨by decide, ?_⟩
    have scopes : twoPlans.map AuthScope.Builder.scopeOf = [⟨[.subscribe, .fetch],
      .rule ⟨.matchPrefix, [[0x62]]⟩, .rule ⟨.matchSuffix, [0x63]⟩⟩,
        ⟨[.clientSetup], .wildcard, .wildcard⟩] := rfl
    have parts : ∀ scope ∈ twoPlans.map AuthScope.Builder.scopeOf,
        scope.FewParts ∧ scope.encodedSize ≤ 65535 := by
      simp [scopes, AuthScope.FewParts, AuthScope.encodedSize, AuthScope.matchSize]
    exact fun scope member => ⟨AuthScope.encodable_of_size (parts scope member).1
      (parts scope member).2, (parts scope member).2⟩
  have added : ([.addScopes (twoPlans.map AuthScope.Builder.scopeOf)] : List Builder.Call).flatMap
      Builder.Call.added = twoPlans.map AuthScope.Builder.scopeOf := rfl
  obtain ⟨text, decoded, encoded, again, same, -⟩ := decoded_authorizes added encodable
  exact ⟨text, decoded, encoded, again, by rw [same]; decide, by rw [same]; decide⟩

end Instances

end PrivacyPass.Moq
