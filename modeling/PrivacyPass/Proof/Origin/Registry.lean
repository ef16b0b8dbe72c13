import PrivacyPass.Proof.Origin.Incremental

/-
This file proves that the last registry call on a key id decides which key answers for it.
-/

namespace PrivacyPass

open Library Crypto

namespace PublicOrigin

section Calls

variable [RsaBackend]

omit [RsaBackend] in
/-- A removed id has no key, and the other ids keep their keys. -/
theorem heldKey_removeIssuerKey (origin : PublicOrigin) (keyId id : TokenKeyId) :
    (origin.removeIssuerKey keyId).heldKey id = if keyId = id then none else origin.heldKey id := by
  unfold removeIssuerKey
  split
  · next absent =>
      split
      · next same => rw [heldKey, ← same, absent, Option.bind_none]
      · rfl
  · unfold heldKey
    dsimp only
    split
    · next same => rw [← same, AList.lookup_erase, Option.bind_none]
    · next different => rw [AList.lookup_erase_ne (Ne.symm different)]

/-- A redemption keeps the keys. -/
theorem heldKey_verifyAndRedeem (origin : PublicOrigin) (tick : Nat) (token : Token)
    (challenge : TokenChallenge) (id : TokenKeyId) :
    (origin.verifyAndRedeem tick token challenge).2.heldKey id = origin.heldKey id := by
  unfold verifyAndRedeem
  dsimp only
  split <;> rfl

/-- The key id that a call registers or removes. A key without an id is dropped. -/
def Call.subject : Call → Option TokenKeyId
  | .addIssuerKey key => key.keyId.toOption
  | .removeIssuerKey keyId => some keyId
  | .verify _ _ => none
  | .verifyAndRedeem _ _ => none

omit [RsaBackend] in
/-- The key that a call leaves for its id. -/
def Call.key : Call → Option BlindRsaPublicKey
  | .addIssuerKey key => some key
  | _ => none

/-- This function lists the registry calls on a key id in their order. -/
def callsOn (id : TokenKeyId) (calls : List Call) : List Call :=
  calls.filter fun call => decide (call.subject = some id)

def lastCallOn (id : TokenKeyId) (calls : List Call) : Option Call := (callsOn id calls).getLast?

theorem lastCallOn_concat (id : TokenKeyId) (calls : List Call) (call : Call) :
    lastCallOn id (calls ++ [call]) =
      if call.subject = some id then some call else lastCallOn id calls := by
  unfold lastCallOn callsOn
  rw [List.filter_append]
  split
  · next same =>
      rw [List.filter_cons_of_pos (by simpa using same), List.filter_nil, List.getLast?_concat]
  · next different =>
      rw [List.filter_cons_of_neg (by simpa using different), List.filter_nil, List.append_nil]

/-- Each call changes the key of its own id and no other. -/
theorem heldKey_step (origin : PublicOrigin) (tick : Nat) (call : Call) (id : TokenKeyId) :
    (machine.step origin (tick, call)).2.heldKey id =
      if call.subject = some id then call.key else origin.heldKey id := by
  cases call with
  | addIssuerKey key =>
      apply (heldKey_addIssuerKey origin key id).trans
      cases named : key.keyId <;> simp [Call.subject, Call.key, named, Except.toOption]
  | removeIssuerKey keyId =>
      apply (heldKey_removeIssuerKey origin keyId id).trans
      simp [Call.subject, Call.key]
  | verify token challenge => rfl
  | verifyAndRedeem token challenge => exact heldKey_verifyAndRedeem origin tick token challenge id

end Calls

section Runs

variable [RsaBackend] {allowed : List ((Nat × Call) × Answer) → Nat × Call → Prop}
  {config : OriginConfig} {keys : List BlindRsaPublicKey} {history : List ((Nat × Call) × Answer)}
  {origin : PublicOrigin} {token : Token} {challenge : TokenChallenge}

/-- The constructor registers its keys before the calls of the run. -/
def registered (keys : List BlindRsaPublicKey) (history : List ((Nat × Call) × Answer)) : List Call :=
  keys.map .addIssuerKey ++ history.map fun event => event.1.2

omit [RsaBackend] in
theorem registered_concat (keys : List BlindRsaPublicKey) (history : List ((Nat × Call) × Answer))
    (input : Nat × Call) (answer : Answer) :
    registered keys (history ++ [(input, answer)]) = registered keys history ++ [input.2] := by
  rw [registered, List.map_append, ← List.append_assoc]
  rfl

/-- The constructed origin holds for each id the last key with it. -/
theorem heldKey_create_registered (config : OriginConfig) (keys : List BlindRsaPublicKey)
    (id : TokenKeyId) :
    (create config keys).heldKey id = (lastCallOn id (registered keys [])).bind Call.key := by
  rw [registered, List.map_nil, List.append_nil]
  induction keys using List.reverseRecOn with
  | nil => rfl
  | append_singleton keys key ih =>
      rw [create_concat, List.map_append, List.map_cons, List.map_nil, lastCallOn_concat, apply_ite
        (fun last => Option.bind last Call.key), ← ih]
      exact heldKey_step (create config keys) 0 (.addIssuerKey key) id

/-- Over every run the last registry call on an id has left its key. -/
theorem heldKey_of_runs (runs : machine.Runs allowed (create config keys) history origin)
    (id : TokenKeyId) :
    origin.heldKey id = (lastCallOn id (registered keys history)).bind Call.key := by
  induction runs with
  | start => exact heldKey_create_registered config keys id
  | @step history origin input before legal ih =>
      rw [registered_concat, lastCallOn_concat, apply_ite (fun last => Option.bind last Call.key), ← ih]
      exact heldKey_step origin input.1 input.2 id

omit [RsaBackend] in
/-- A call with a key is the addition of the key. -/
theorem bind_key_eq_some {last : Option Call} {key : BlindRsaPublicKey} :
    last.bind Call.key = some key ↔ last = some (.addIssuerKey key) := by
  rcases last with _ | call
  · simp
  · cases call <;> simp [Call.key]

/-- The last call on an id is about the id. -/
theorem subject_of_lastCallOn {id : TokenKeyId} {calls : List Call} {call : Call}
    (last : lastCallOn id calls = some call) : call.subject = some id :=
  of_decide_eq_true (List.mem_filter.mp (List.mem_of_getLast? last)).2

/-- The token has the form, the type and the digest that the origin asks for. -/
structure Checked (token : Token) (challenge : TokenChallenge) : Prop where
  structured : token.validate = .ok ()
  typed : token.tokenType = .blindRsa ∨ token.tokenType = .partiallyBlindRsa
  digested : challenge.digest.1 = .ok token.challengeDigest

/-- A checked token is answered by the key that it names. -/
theorem Checked.verify (checked : Checked token challenge) (origin : PublicOrigin) :
    origin.verify token challenge =
      (origin.heldAnswer token).getD (.error ⟨.issuerUnknown, "Unknown issuer key"⟩) := by
  rw [← lookup_heldAnswer]
  unfold PublicOrigin.verify
  rw [checked.structured, checked.digested]
  have typed : ¬ (token.tokenType ≠ .blindRsa ∧ token.tokenType ≠ .partiallyBlindRsa) := by
    have known := checked.typed
    tauto
  have same : ¬ constantTimeEqual token.challengeDigest.val token.challengeDigest.val = false := by
    rw [Bool.not_eq_false, constantTimeEqual_iff]
  change (if _ then _ else (if _ then _ else _)) = _
  exact (if_neg typed).trans (if_neg same)

/-- A key never answers that the issuer is unknown. -/
theorem verify_ne_issuerUnknown (key : BlindRsaPublicKey) (msg signature : Bytes) (message : String) :
    key.verify msg signature ≠ .error ⟨.issuerUnknown, message⟩ := by
  unfold BlindRsaPublicKey.verify
  split
  · simp
  · split <;> simp

/-- Over every run a checked token is verified with a key exactly when the last registry call on its
key id added the key, which then has this id. Otherwise its issuer is unknown, and no call on another
id matters. -/
theorem verify_registered (runs : machine.Runs allowed (create config keys) history origin)
    (checked : Checked token challenge) :
    (∀ key, origin.HoldsKey token.tokenKeyId key ↔
      lastCallOn token.tokenKeyId (registered keys history) = some (.addIssuerKey key)) ∧
    (∀ key, origin.HoldsKey token.tokenKeyId key →
      key.keyId = .ok token.tokenKeyId ∧ origin.verify token challenge =
        key.verify (ByteWriter.build token.authenticatorInput.calls) token.authenticator) ∧
    (origin.verify token challenge = .error ⟨.issuerUnknown, "Unknown issuer key"⟩ ↔
      ∀ key, ¬ origin.HoldsKey token.tokenKeyId key) ∧
    ∀ otherConfig otherKeys otherHistory other,
      machine.Runs allowed (create otherConfig otherKeys) otherHistory other →
      callsOn token.tokenKeyId (registered otherKeys otherHistory) =
        callsOn token.tokenKeyId (registered keys history) →
      other.verify token challenge = origin.verify token challenge := by
  have held := heldKey_of_runs runs token.tokenKeyId
  have last (key : BlindRsaPublicKey) : origin.HoldsKey token.tokenKeyId key ↔
      lastCallOn token.tokenKeyId (registered keys history) = some (.addIssuerKey key) := by
    rw [← heldKey_eq_some, held, bind_key_eq_some]
  refine ⟨last, ?_, ?_, ?_⟩
  · intro key holds
    constructor
    · have named := subject_of_lastCallOn ((last key).mp holds)
      cases id : key.keyId <;> simp_all [Call.subject, Except.toOption]
    · rw [checked.verify, heldAnswer, heldKey_eq_some.mpr holds]
      rfl
  · rw [checked.verify, heldAnswer]
    cases found : origin.heldKey token.tokenKeyId with
    | none =>
        apply iff_of_true rfl
        intro key holds
        rw [← heldKey_eq_some, found] at holds
        cases holds
    | some key =>
        apply iff_of_false (verify_ne_issuerUnknown key _ _ _)
        intro none
        exact none key (heldKey_eq_some.mp found)
  · intro otherConfig otherKeys otherHistory other otherRuns same
    apply verify_congr
    rw [heldAnswer, heldAnswer, held, heldKey_of_runs otherRuns, lastCallOn, lastCallOn, same]

end Runs

end PublicOrigin

section Instances

/-- The key of the constructor is removed before the first token arrives. -/
def removedHistory : List ((Nat × PublicOrigin.Call) × PublicOrigin.Answer) :=
  [((0, .removeIssuerKey (.zero 32)), .done)]

/-- The issuer of the token of zeros is unknown once its key is removed. -/
theorem PublicOrigin.verify_registered_removed :
    @PublicOrigin.verify zeroBackend.toRsaBackend
      (PublicOrigin.removeIssuerKey (@PublicOrigin.create zeroBackend.toRsaBackend zeroConfig [zeroKey])
        (.zero 32)) zeroToken zeroChallenge = .error ⟨.issuerUnknown, "Unknown issuer key"⟩ := by
  have runs := (Machine.Runs.start : (@PublicOrigin.machine zeroBackend.toRsaBackend).Runs
    (fun _ _ => True) (@PublicOrigin.create zeroBackend.toRsaBackend zeroConfig [zeroKey]) [] _).step
      (0, .removeIssuerKey (.zero 32)) trivial
  have registered := @PublicOrigin.verify_registered zeroBackend.toRsaBackend _ zeroConfig [zeroKey]
    removedHistory _ zeroToken zeroChallenge runs
      (@PublicOrigin.Checked.mk zeroBackend.toRsaBackend _ _
        (Token.validate_eq_ok.mpr ⟨by decide, List.length_replicate⟩) (.inl rfl) rfl)
  apply registered.2.2.1.mpr
  intro key holds
  have added := (registered.1 key).mp holds
  cases added

end Instances

end PrivacyPass
