import PrivacyPass.Library.BigEndian
import PrivacyPass.Library.BitString
import PrivacyPass.Library.BlindEvaluation
import PrivacyPass.Library.BlindSignature
import PrivacyPass.Library.BoundedLog
import PrivacyPass.Library.Cursor
import PrivacyPass.Library.Expansion
import PrivacyPass.Library.Hiding
import PrivacyPass.Library.Unlinkability
import PrivacyPass.Library.Machine
import PrivacyPass.Library.Memo
import PrivacyPass.Library.Occurrence
import PrivacyPass.Library.Pieces
import PrivacyPass.Library.Primality
import PrivacyPass.Library.Pss
import PrivacyPass.Library.Queue
import PrivacyPass.Library.SimplifiedSwu
import PrivacyPass.Library.Stock
import PrivacyPass.Library.TimedSet
import PrivacyPass.Construction.Types
import PrivacyPass.Construction.Base64Url
import PrivacyPass.Construction.Crypto.Bignum
import PrivacyPass.Construction.Crypto.Hash
import PrivacyPass.Construction.Crypto.BlindRsa
import PrivacyPass.Construction.Crypto.Voprf
import PrivacyPass.Construction.ReplayCache
import PrivacyPass.Construction.Serialization
import PrivacyPass.Construction.Token
import PrivacyPass.Construction.TokenChallenge
import PrivacyPass.Construction.ChallengeObjects
import PrivacyPass.Construction.Origin
import PrivacyPass.Construction.TokenRequest
import PrivacyPass.Construction.TokenResponse
import PrivacyPass.Construction.Client
import PrivacyPass.Construction.Crypto.HashToCurve
import PrivacyPass.Construction.Crypto.VoprfProtocol
import PrivacyPass.Construction.Http.AuthScheme
import PrivacyPass.Construction.Issuer
import PrivacyPass.Construction.Moq.AuthScope
import PrivacyPass.Construction.Moq.AuthorizationInfo
import PrivacyPass.Construction.PrivateToken
import PrivacyPass.Construction.MultiKeyIssuer
import PrivacyPass.Construction.PrivateRedemption
import PrivacyPass.Construction.Redemption
import PrivacyPass.Construction.TokenAuthenticator
import PrivacyPass.Construction.TokenProvider
import PrivacyPass.Construction.UnifiedClient
import PrivacyPass.Construction.Deployment
import PrivacyPass.Construction.Issuance
import PrivacyPass.Construction.Moq.Builder
import PrivacyPass.Construction.Moq.Relay
import PrivacyPass.Construction.Moq.Client
import PrivacyPass.Proof.Origin.Verify
import PrivacyPass.Proof.Authenticator.Revocation
import PrivacyPass.Proof.Authenticator.Redemption
import PrivacyPass.Proof.Authenticator.IssuerBinding
import PrivacyPass.Proof.Authenticator.Reservation
import PrivacyPass.Proof.Authenticator.Eviction
import PrivacyPass.Proof.Authenticator.Representation
import PrivacyPass.Proof.Wire.Primitives
import PrivacyPass.Proof.Wire.Varint
import PrivacyPass.Proof.Wire.ExternalBuffer
import PrivacyPass.Proof.Wire.FailedCalls
import PrivacyPass.Proof.Wire.Challenge
import PrivacyPass.Proof.Wire.OriginEntries
import PrivacyPass.Proof.ChallengeAgreement
import PrivacyPass.Proof.ChallengeFreshness
import PrivacyPass.Proof.DigestCache
import PrivacyPass.Proof.Crypto.Bignum
import PrivacyPass.Proof.Crypto.BlindRsa
import PrivacyPass.Proof.Crypto.HashToCurve
import PrivacyPass.Proof.Crypto.ExpandMessage
import PrivacyPass.Proof.Crypto.Dleq
import PrivacyPass.Proof.Crypto.Voprf
import PrivacyPass.Proof.Crypto.DleqSoundness
import PrivacyPass.Proof.Wire.Base64Url
import PrivacyPass.Proof.Wire.Base64Language
import PrivacyPass.Proof.Http.AuthScheme
import PrivacyPass.Proof.Wire.Batches
import PrivacyPass.Proof.Wire.BatchFormat
import PrivacyPass.Proof.Issuer.Batch
import PrivacyPass.Proof.Wire.Token
import PrivacyPass.Proof.Wire.Sizes
import PrivacyPass.Proof.Exchange
import PrivacyPass.Proof.Crypto.BlindingData
import PrivacyPass.Proof.Crypto.RsaArithmetic
import PrivacyPass.Proof.Crypto.Hiding
import PrivacyPass.Proof.Http.Grammar
import PrivacyPass.Proof.Http.AuthParams
import PrivacyPass.Proof.Http.MaxAge
import PrivacyPass.Proof.Http.MixedSchemes
import PrivacyPass.Proof.Http.ChallengeList
import PrivacyPass.Proof.Issuer.MultiKey
import PrivacyPass.Proof.Issuer.KeyBinding
import PrivacyPass.Proof.Moq.MatchRules
import PrivacyPass.Proof.Moq.Scopes
import PrivacyPass.Proof.Moq.Authorization
import PrivacyPass.Proof.Moq.Strictness
import PrivacyPass.Proof.Moq.ChallengePath
import PrivacyPass.Proof.Origin.TypeBinding
import PrivacyPass.Proof.Origin.FailedRedemption
import PrivacyPass.Proof.Origin.Incremental
import PrivacyPass.Proof.Issuer.Bookkeeping
import PrivacyPass.Proof.Origin.Registry
import PrivacyPass.Proof.Origin.Redemptions
import PrivacyPass.Proof.Provider.Finalization
import PrivacyPass.Proof.Provider.Stock
import PrivacyPass.Proof.UnifiedClient
import PrivacyPass.Proof.Deployment
import PrivacyPass.Proof.Provider.Requests
import PrivacyPass.Proof.Provider.Batch
import PrivacyPass.Proof.Replay.Representation
import PrivacyPass.Proof.Replay.Cache
import PrivacyPass.Proof.Replay.Buckets
import PrivacyPass.Proof.Replay.Concurrency
import PrivacyPass.Proof.Replay.PrivateRedemption
import PrivacyPass.Proof.Replay.Query
import PrivacyPass.Proof.Replay.RealTime
import PrivacyPass.Proof.Authenticator.Agreement
import PrivacyPass.Proof.Moq.Builder
import PrivacyPass.Proof.Moq.Relay
import PrivacyPass.Proof.ChallengeBinding
import PrivacyPass.Proof.Moq.Escalation
import PrivacyPass.Proof.Moq.RelayExchange
import PrivacyPass.Proof.Moq.Client
import PrivacyPass.Proof.Unlinkability
import PrivacyPass.Construction.Crypto.Signing
import PrivacyPass.Proof.Signing
import PrivacyPass.Construction.Lifecycle
import PrivacyPass.Proof.Lifecycle
