import PrivacyPass.Construction.Moq.AuthorizationInfo

/-
This file models the builders of authorization scopes and infos and the presets made with them.
-/

namespace PrivacyPass.Moq

namespace AuthScope

/-- A new builder allows no action on any namespace and any track. -/
structure Builder where
  actions : List Action := []
  namespaceMatch : NamespaceMatch := .wildcard
  trackNameMatch : TrackNameMatch := .wildcard
  deriving DecidableEq

namespace Builder

def allowAction (builder : Builder) (action : Action) : Builder :=
  { builder with actions := builder.actions ++ [action] }

def allowActions (builder : Builder) (actions : List Action) : Builder :=
  actions.foldl allowAction builder

/-- The last call about the namespace decides. -/
def forNamespace (builder : Builder) (namespaceMatch : NamespaceMatch) : Builder :=
  { builder with namespaceMatch := namespaceMatch }

def forNamespaceExact (builder : Builder) (ns : Namespace) : Builder :=
  builder.forNamespace (.rule ⟨.matchExact, ns⟩)

def forNamespacePrefix (builder : Builder) (front : Namespace) : Builder :=
  builder.forNamespace (.rule ⟨.matchPrefix, front⟩)

def forNamespaceSuffix (builder : Builder) (back : Namespace) : Builder :=
  builder.forNamespace (.rule ⟨.matchSuffix, back⟩)

def forNamespaceContaining (builder : Builder) (pattern : Namespace) : Builder :=
  builder.forNamespace (.rule ⟨.matchContains, pattern⟩)

def forAnyNamespace (builder : Builder) : Builder := builder.forNamespace .wildcard

/-- The last call about the track decides. -/
def forTrack (builder : Builder) (trackNameMatch : TrackNameMatch) : Builder :=
  { builder with trackNameMatch := trackNameMatch }

def forTrackExact (builder : Builder) (name : TrackName) : Builder :=
  builder.forTrack (.rule ⟨.matchExact, name⟩)

def forTrackPrefix (builder : Builder) (front : TrackName) : Builder :=
  builder.forTrack (.rule ⟨.matchPrefix, front⟩)

def forTrackSuffix (builder : Builder) (back : TrackName) : Builder :=
  builder.forTrack (.rule ⟨.matchSuffix, back⟩)

def forTrackContaining (builder : Builder) (pattern : TrackName) : Builder :=
  builder.forTrack (.rule ⟨.matchContains, pattern⟩)

def forAnyTrack (builder : Builder) : Builder := builder.forTrack .wildcard

def build (builder : Builder) : AuthScope :=
  ⟨builder.actions, builder.namespaceMatch, builder.trackNameMatch⟩

/-- The members of the class that change the builder. -/
inductive Call where
  | allowAction (action : Action)
  | allowActions (actions : List Action)
  | forNamespaceExact (ns : Namespace)
  | forNamespacePrefix (front : Namespace)
  | forNamespaceSuffix (back : Namespace)
  | forNamespaceContaining (pattern : Namespace)
  | forAnyNamespace
  | forTrackExact (name : TrackName)
  | forTrackPrefix (front : TrackName)
  | forTrackSuffix (back : TrackName)
  | forTrackContaining (pattern : TrackName)
  | forAnyTrack
  deriving DecidableEq

def apply (builder : Builder) : Call → Builder
  | .allowAction action => builder.allowAction action
  | .allowActions actions => builder.allowActions actions
  | .forNamespaceExact ns => builder.forNamespaceExact ns
  | .forNamespacePrefix front => builder.forNamespacePrefix front
  | .forNamespaceSuffix back => builder.forNamespaceSuffix back
  | .forNamespaceContaining pattern => builder.forNamespaceContaining pattern
  | .forAnyNamespace => builder.forAnyNamespace
  | .forTrackExact name => builder.forTrackExact name
  | .forTrackPrefix front => builder.forTrackPrefix front
  | .forTrackSuffix back => builder.forTrackSuffix back
  | .forTrackContaining pattern => builder.forTrackContaining pattern
  | .forAnyTrack => builder.forAnyTrack

end Builder

def builder : Builder := {}

end AuthScope

namespace AuthorizationInfo

structure Builder where
  scopes : List AuthScope := []
  deriving DecidableEq

namespace Builder

def addScope (builder : Builder) (scope : AuthScope) : Builder :=
  { builder with scopes := builder.scopes ++ [scope] }

def addScopes (builder : Builder) (scopes : List AuthScope) : Builder :=
  scopes.foldl addScope builder

def build (builder : Builder) : AuthorizationInfo := ⟨builder.scopes⟩

inductive Call where
  | addScope (scope : AuthScope)
  | addScopes (scopes : List AuthScope)
  deriving DecidableEq

def apply (builder : Builder) : Call → Builder
  | .addScope scope => builder.addScope scope
  | .addScopes scopes => builder.addScopes scopes

end Builder

def builder : Builder := {}

/-- A subscriber works on one track. -/
def forSubscriber (ns : Namespace) (track : TrackName) : AuthorizationInfo :=
  (builder.addScope
    (((AuthScope.builder.allowActions [.clientSetup, .subscribe, .fetch, .trackStatus]).forNamespaceExact
      ns).forTrackExact track).build).build

/-- A publisher works on every track of one namespace. -/
def forPublisher (ns : Namespace) : AuthorizationInfo :=
  (builder.addScope
    (((AuthScope.builder.allowActions [.clientSetup, .publishNamespace, .publish]).forNamespaceExact
      ns).forAnyTrack).build).build

/-- A relay takes part in every action. -/
def forRelay : AuthorizationInfo :=
  (builder.addScope
    (((AuthScope.builder.allowActions
      [.clientSetup, .serverSetup, .publishNamespace, .subscribeNamespace, .subscribe, .requestUpdate,
        .publish, .fetch, .trackStatus]).forAnyNamespace).forAnyTrack).build).build

end AuthorizationInfo
end PrivacyPass.Moq
