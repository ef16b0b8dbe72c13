import PrivacyPass.Construction.Moq.AuthorizationInfo
import PrivacyPass.Construction.TokenProvider

/-
This file models the client that asks for tokens and reads what a relay's challenge authorizes.
-/

namespace PrivacyPass.Moq

open Library Crypto

structure MoqClient where
  provider : TokenProvider

namespace MoqClient

def config : TokenProviderConfig where
  maxCachedTokens := 10
  originName := ascii "origin.example.com"

def create : MoqClient := ⟨{ config := config }⟩

def addIssuer (client : MoqClient) (name : Bytes) (key : PublicKey) : MoqClient :=
  ⟨client.provider.addIssuerKey name key⟩

section Requests

variable [IssuanceBackend]

def prepareRequest (client : MoqClient) (draws : ProviderDraws) (challenge : TokenChallenge) :
    Result TokenRequestContext := client.provider.prepareRequest draws challenge

def finalize (client : MoqClient) (walk : client.provider.Walk) (response : TokenResponse)
    (context : TokenRequestContext) : Result Token := client.provider.finalize walk response context

end Requests

def parseAuthInfo (challenge : TokenChallenge) : Result AuthorizationInfo :=
  match challenge.originInfo with
  | [] => .error ⟨.malformedData, "No origin_info"⟩
  | first :: _ => AuthorizationInfo.decodeFromOriginInfo first

/-- No token is looked at. -/
def tokenAuthorizes (challenge : TokenChallenge) (action : Action) (ns : Namespace)
    (track : TrackName) : Bool :=
  match parseAuthInfo challenge with
  | .error _ => false
  | .ok info => info.authorizes action ns track

/-- The one member of the class that changes its state. -/
inductive Call where
  | addIssuer (name : Bytes) (key : PublicKey)

def machine : Machine MoqClient Call Unit where
  step client call :=
    match call with
    | .addIssuer name key => ((), client.addIssuer name key)

end MoqClient
end PrivacyPass.Moq
