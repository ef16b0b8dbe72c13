import Mathlib.Data.List.TakeWhile
import PrivacyPass.Construction.MultiKeyIssuer
import PrivacyPass.Proof.Exchange

/-
This file proves when an issuer with several keys answers a request with the key it was made for.
-/

namespace PrivacyPass

open Library Crypto

theorem Result.toOption_eq_some {α : Type} {result : Result α} {value : α} :
    result.toOption = some value ↔ result = .ok value := by
  cases result with
  | error error => exact iff_of_false (fun equal => nomatch equal) (fun equal => nomatch equal)
  | ok other => exact Option.some_inj.trans (Except.ok.injEq other value ▸ Iff.rfl)

namespace KeyedIssuers

variable {ι : Type} {held : KeyedIssuers ι} {answer : Nat → ι → Result TokenResponse} {truncated : UInt8}

/-- The key ids that are listed under a truncated id. -/
def listed (held : KeyedIssuers ι) (truncated : UInt8) : List TokenKeyId :=
  (held.keysByTruncatedId.lookup truncated).getD []

/-- A response is the first answer of the listed keys. -/
theorem issue_eq_ok {unknown unmatched : String} {response : TokenResponse} :
    held.issue answer truncated unknown unmatched = .ok response ↔
      held.tryKeys answer (held.listed truncated) = some response := by
  unfold issue listed
  cases held.keysByTruncatedId.lookup truncated with
  | none => exact iff_of_false (fun equal => nomatch equal) (fun equal => nomatch equal)
  | some keyIds =>
      dsimp only [Option.getD_some]
      split
      · next empty =>
          rw [List.isEmpty_iff.mp empty]
          exact iff_of_false (fun equal => nomatch equal) (fun equal => nomatch equal)
      · cases held.tryKeys answer keyIds with
        | none => exact iff_of_false (fun equal => nomatch equal) (fun equal => nomatch equal)
        | some first => exact (Except.ok.injEq first response ▸ Option.some_inj.symm)

end KeyedIssuers

namespace MultiKeyIssuer

variable [CryptoBackend]

/-- The key goes into the list of its kind and its truncated id, and a removal empties the list. -/
def nextKeys (kind : TokenType) (truncated : UInt8) (keys : List (TokenKeyId × IssuerKey)) :
    Call → List (TokenKeyId × IssuerKey)
  | .addKey key =>
      match key.keyId with
      | .ok keyId =>
          if key.kind = kind ∧ truncatedKeyId keyId = truncated then keys ++ [(keyId, key)] else keys
      | .error _ => keys
  | .removeKey removed => if removed = truncated then [] else keys

/-- The keys of one kind that were added under a truncated id since its last removal. -/
def currentKeys (kind : TokenType) (truncated : UInt8) (history : List (Call × Result Unit)) :
    List (TokenKeyId × IssuerKey) :=
  history.foldl (fun keys event => nextKeys kind truncated keys event.1) []

/-- The key that was added last under its id. -/
def standing (keys : List (TokenKeyId × IssuerKey)) (keyId : TokenKeyId) : Option IssuerKey :=
  (keys.reverse.find? fun entry => entry.1 = keyId).map Prod.snd

/-- The ids that stand in the list before the first entry of the key id. -/
def rivals (keys : List (TokenKeyId × IssuerKey)) (keyId : TokenKeyId) : List TokenKeyId :=
  (keys.map Prod.fst).takeWhile (· ≠ keyId)

/-- None of the keys that were added before the key answers the request. -/
def Unrivalled (keys : List (TokenKeyId × IssuerKey)) (keyId : TokenKeyId) (draws : Nat → List Nat)
    (request : TokenRequest) : Prop :=
  ∀ index rival key, (rivals keys keyId)[index]? = some rival → standing keys rival = some key →
    ∀ response, key.issue (draws index) request ≠ .ok response

omit [CryptoBackend] in
/-- A search over a numbered list ends at the first element with a result. -/
theorem findSome?_zipIdx {α β : Type} {list : List α} {search : α × Nat → Option β} {result : β} :
    list.zipIdx.findSome? search = some result ↔
      ∃ before element after, list = before ++ element :: after ∧
        search (element, before.length) = some result ∧
        ∀ index earlier, before[index]? = some earlier → search (earlier, index) = none := by
  rw [List.findSome?_eq_some_iff]
  constructor
  · intro ⟨front, ⟨element, place⟩, back, whole, found, failed⟩
    have numbered {index : Nat} {pair : α × Nat}
        (inside : (front ++ (element, place) :: back)[index]? = some pair) : pair.2 = index := by
      rw [← whole, List.getElem?_zipIdx, Option.map_eq_some_iff] at inside
      obtain ⟨value, -, rfl⟩ := inside
      exact Nat.zero_add index
    have placed : place = front.length :=
      numbered (by rw [List.getElem?_append_right (Nat.le_refl _), Nat.sub_self]; rfl)
    have values : list = front.map Prod.fst ++ element :: back.map Prod.fst := by
      rw [← List.zipIdx_map_fst 0 list, whole, List.map_append, List.map_cons]
    refine ⟨_, element, _, values, by rw [List.length_map, ← placed]; exact found, ?_⟩
    intro index earlier inside
    rw [List.getElem?_map, Option.map_eq_some_iff] at inside
    obtain ⟨⟨value, number⟩, here, rfl⟩ := inside
    obtain rfl : number = index := by
      refine numbered (Eq.trans ?_ here)
      exact List.getElem?_append_left (List.getElem?_eq_some_iff.mp here).1
    exact failed _ (List.mem_of_getElem? here)
  · rintro ⟨before, element, after, rfl, found, failed⟩
    refine ⟨before.zipIdx, (element, before.length), after.zipIdx (before.length + 1), ?_, found, ?_⟩
    · rw [List.zipIdx_append]
      simp
    · intro ⟨earlier, index⟩ member
      exact failed index earlier (List.mem_zipIdx_iff_getElem?.mp member)

section Registry

variable {ι : Type} {held : KeyedIssuers ι} {make : IssuerKey → Option ι}
  {keys : UInt8 → List (TokenKeyId × IssuerKey)}

/-- The maps list the current keys in their order and hold the issuer that was added last. -/
structure Represents (held : KeyedIssuers ι) (make : IssuerKey → Option ι)
    (keys : UInt8 → List (TokenKeyId × IssuerKey)) : Prop where
  listed : ∀ truncated,
    (held.keysByTruncatedId.lookup truncated).getD [] = (keys truncated).map Prod.fst
  placed : ∀ truncated entry, entry ∈ keys truncated → truncatedKeyId entry.1 = truncated
  stored : ∀ keyId, held.issuers.lookup keyId =
    (standing (keys (truncatedKeyId keyId)) keyId).bind make

omit [CryptoBackend] in
theorem standing_concat {keys : List (TokenKeyId × IssuerKey)} {keyId other : TokenKeyId}
    {key : IssuerKey} :
    standing (keys ++ [(other, key)]) keyId = if other = keyId then some key else standing keys keyId := by
  unfold standing
  rw [List.reverse_concat, List.find?_cons]
  by_cases same : other = keyId
  · simp [same]
  · simp [same]

omit [CryptoBackend] in
theorem standing_mem {keys : List (TokenKeyId × IssuerKey)} {keyId : TokenKeyId} {key : IssuerKey}
    (stands : standing keys keyId = some key) : (keyId, key) ∈ keys := by
  obtain ⟨entry, found, rfl⟩ := Option.map_eq_some_iff.mp stands
  have same : entry.1 = keyId := by simpa using List.find?_some found
  subst same
  exact List.mem_reverse.mp (List.mem_of_find?_eq_some found)

omit [CryptoBackend] in
theorem standing_of_mem {keys : List (TokenKeyId × IssuerKey)} {keyId : TokenKeyId} {key : IssuerKey}
    (member : (keyId, key) ∈ keys) : ∃ other, standing keys keyId = some other := by
  cases found : standing keys keyId with
  | some other => exact ⟨other, rfl⟩
  | none =>
      rw [standing, Option.map_eq_none_iff, List.find?_eq_none] at found
      exact absurd (by simp) (found _ (List.mem_reverse.mpr member))

omit [CryptoBackend] in
/-- An added key is listed last, and its issuer takes the place of an earlier one. -/
theorem Represents.add (represents : Represents held make keys) {keyId : TokenKeyId} {key : IssuerKey}
    {issuer : ι} (made : make key = some issuer) :
    Represents (held.add keyId (truncatedKeyId keyId) issuer) make
      (Function.update keys (truncatedKeyId keyId) (keys (truncatedKeyId keyId) ++ [(keyId, key)])) := by
  refine ⟨?_, ?_, ?_⟩
  · intro truncated
    change ((held.keysByTruncatedId.insert _ _).lookup truncated).getD [] = _
    by_cases same : truncated = truncatedKeyId keyId
    · subst same
      rw [AList.lookup_insert, Option.getD_some, represents.listed, Function.update_self,
        List.map_append]
      rfl
    · rw [AList.lookup_insert_ne same, represents.listed, Function.update_of_ne same]
  · intro truncated entry member
    by_cases same : truncated = truncatedKeyId keyId
    · subst same
      rw [Function.update_self] at member
      rcases List.mem_append.mp member with earlier | last
      · exact represents.placed _ entry earlier
      · rw [List.mem_singleton.mp last]
    · rw [Function.update_of_ne same] at member
      exact represents.placed truncated entry member
  · intro other
    change (held.issuers.insert keyId issuer).lookup other = _
    by_cases same : other = keyId
    · subst same
      rw [AList.lookup_insert, Function.update_self, standing_concat, if_pos rfl, Option.bind_some, made]
    · rw [AList.lookup_insert_ne same, represents.stored]
      by_cases together : truncatedKeyId other = truncatedKeyId keyId
      · rw [together, Function.update_self, standing_concat, if_neg (Ne.symm same)]
      · rw [Function.update_of_ne together]

omit [CryptoBackend] in
theorem lookup_foldl_erase (keyIds : List TokenKeyId) (issuers : AList fun _ : TokenKeyId => ι)
    (keyId : TokenKeyId) :
    (keyIds.foldl (fun issuers keyId => issuers.erase keyId) issuers).lookup keyId =
      if keyId ∈ keyIds then none else issuers.lookup keyId := by
  induction keyIds generalizing issuers with
  | nil => simp
  | cons first rest ih =>
      rw [List.foldl_cons, ih]
      by_cases same : keyId = first
      · subst same
        simp
      · simp [same, AList.lookup_erase_ne same]

omit [CryptoBackend] in
/-- A removal takes every key of the truncated id and no other one. -/
theorem Represents.removeKey (represents : Represents held make keys) (removed : UInt8) :
    Represents (held.removeKey removed) make (Function.update keys removed []) := by
  have listed := represents.listed removed
  unfold KeyedIssuers.removeKey
  cases found : held.keysByTruncatedId.lookup removed with
  | none =>
      rw [found, Option.getD_none, eq_comm, List.map_eq_nil_iff] at listed
      rw [← listed, Function.update_eq_self]
      exact represents
  | some keyIds =>
      rw [found, Option.getD_some] at listed
      refine ⟨?_, ?_, ?_⟩
      · intro truncated
        change ((held.keysByTruncatedId.erase removed).lookup truncated).getD [] = _
        by_cases same : truncated = removed
        · subst same
          rw [AList.lookup_erase, Function.update_self]
          rfl
        · rw [AList.lookup_erase_ne same, represents.listed, Function.update_of_ne same]
      · intro truncated entry member
        by_cases same : truncated = removed
        · subst same
          rw [Function.update_self] at member
          cases member
        · rw [Function.update_of_ne same] at member
          exact represents.placed truncated entry member
      · intro keyId
        change (keyIds.foldl _ held.issuers).lookup keyId = _
        rw [lookup_foldl_erase, represents.stored, listed]
        by_cases same : truncatedKeyId keyId = removed
        · rw [same, Function.update_self]
          split
          · rfl
          · next absent =>
              cases stands : standing (keys removed) keyId with
              | none => rfl
              | some key => exact absurd (List.mem_map_of_mem (standing_mem stands)) absent
        · rw [Function.update_of_ne same, if_neg]
          intro member
          obtain ⟨entry, inside, rfl⟩ := List.mem_map.mp member
          exact same (represents.placed removed entry inside)

/-- A listed key id answers with the key that was added last under it. -/
theorem Represents.candidate (represents : Represents held make keys)
    {answer : Nat → ι → Result TokenResponse} {draws : Nat → List Nat} {request : TokenRequest}
    (agrees : ∀ key issuer index, make key = some issuer →
      answer index issuer = key.issue (draws index) request) {truncated : UInt8}
    (made : ∀ entry ∈ keys truncated, ∃ issuer, make entry.2 = some issuer) {entry}
    (member : entry ∈ keys truncated) (index : Nat) :
    ∃ key, standing (keys truncated) entry.1 = some key ∧ (entry.1, key) ∈ keys truncated ∧
      (match held.issuers.lookup entry.1 with
        | none => none
        | some issuer => (answer index issuer).toOption) = (key.issue (draws index) request).toOption := by
  obtain ⟨key, stands⟩ := standing_of_mem member
  have inside := standing_mem stands
  obtain ⟨issuer, makes⟩ := made _ inside
  refine ⟨key, stands, inside, ?_⟩
  rw [represents.stored, represents.placed truncated entry member, stands, Option.bind_some, makes]
  exact congrArg Except.toOption (agrees key issuer index makes)

omit [CryptoBackend] in
theorem rivals_of_split {keys : List (TokenKeyId × IssuerKey)} {keyId : TokenKeyId}
    {before after : List TokenKeyId} (listed : keys.map Prod.fst = before ++ keyId :: after) :
    rivals keys keyId = before.takeWhile (· ≠ keyId) := by
  rw [rivals, listed, List.takeWhile_append]
  split
  · next whole =>
      rw [List.takeWhile_cons_of_neg (by simp), List.append_nil]
      exact ((List.takeWhile_prefix _).eq_of_length whole).symm
  · rfl

omit [CryptoBackend] in
/-- A request gets the answer of the first current key that answers. -/
theorem issue_of_current (represents : Represents held make keys)
    {answer : Nat → ι → Result TokenResponse} {truncated : UInt8} {unknown unmatched : String}
    {response : TokenResponse} : held.issue answer truncated unknown unmatched = .ok response ↔
      held.tryKeys answer ((keys truncated).map Prod.fst) = some response := by
  rw [KeyedIssuers.issue_eq_ok, KeyedIssuers.listed, represents.listed]

section Good

variable {answer : Nat → ι → Result TokenResponse} {draws : Nat → List Nat} {request : TokenRequest}
  {good : TokenResponse → Prop} {truncated : UInt8} {keyId : TokenKeyId}
  (agrees : ∀ key issuer index, make key = some issuer →
    answer index issuer = key.issue (draws index) request)
  (made : ∀ entry ∈ keys truncated, ∃ issuer, make entry.2 = some issuer)

include agrees made

/-- Where no response of another key is good, a good response comes from the first key that is tried
under the id, so that no rival has answered. -/
theorem unrivalled_of_good (represents : Represents held make keys)
    (other : ∀ rivalId rival, (rivalId, rival) ∈ keys truncated → rivalId ≠ keyId →
      ∀ index response, rival.issue (draws index) request = .ok response → ¬ good response)
    {response : TokenResponse}
    (issued : held.tryKeys answer ((keys truncated).map Prod.fst) = some response)
    (fine : good response) : Unrivalled (keys truncated) keyId draws request := by
  intro index rivalId rival early stands answered answers
  obtain ⟨before, first, after, listed, found, failed⟩ := findSome?_zipIdx.mp issued
  have inside {id : TokenKeyId} (among : id ∈ before ++ first :: after) :
      ∃ entry ∈ keys truncated, entry.1 = id := by
    rw [← listed] at among
    exact List.mem_map.mp among
  obtain rfl : first = keyId := by
    -- a response of another key is not good
    by_contra different
    obtain ⟨entry, held, rfl⟩ := inside (by simp : first ∈ before ++ first :: after)
    obtain ⟨last, -, here, attempt⟩ := represents.candidate agrees made held before.length
    refine other entry.1 last here different before.length response ?_ fine
    exact Result.toOption_eq_some.mp (attempt.symm.trans found)
  rw [rivals_of_split listed] at early
  have earlier : before[index]? = some rivalId := by
    obtain ⟨rest, whole⟩ : before.takeWhile (· ≠ first) <+: before := List.takeWhile_prefix _
    rw [← whole, List.getElem?_append_left (List.getElem?_eq_some_iff.mp early).1, early]
  obtain ⟨entry, held, rfl⟩ := inside (List.mem_append_left _ (List.mem_of_getElem? earlier))
  obtain ⟨last, lastStands, -, attempt⟩ := represents.candidate agrees made held index
  rw [stands] at lastStands
  cases lastStands
  have none := attempt.symm.trans (failed index entry.1 earlier)
  rw [answers] at none
  cases none

/-- Where no rival answers, the key itself does. -/
theorem good_of_unrivalled (represents : Represents held make keys) {key : IssuerKey}
    (member : (keyId, key) ∈ keys truncated)
    (own : ∀ same, (keyId, same) ∈ keys truncated → ∀ index, ∃ response,
      same.issue (draws index) request = .ok response ∧ good response)
    (unrivalled : Unrivalled (keys truncated) keyId draws request) :
    ∃ response, held.tryKeys answer ((keys truncated).map Prod.fst) = some response ∧
      good response := by
  have among : keyId ∈ (keys truncated).map Prod.fst := List.mem_map.mpr ⟨_, member, rfl⟩
  obtain ⟨before, after, listed, fresh⟩ := List.eq_append_cons_of_mem among
  have first : rivals (keys truncated) keyId = before := by
    rw [rivals_of_split listed, List.takeWhile_eq_self_iff]
    intro id early
    exact decide_eq_true (ne_of_mem_of_not_mem early fresh)
  obtain ⟨last, -, here, attempt⟩ := represents.candidate agrees made member before.length
  obtain ⟨response, issued, fine⟩ := own last here before.length
  refine ⟨response, findSome?_zipIdx.mpr ⟨before, keyId, after, listed, ?_, ?_⟩, fine⟩
  · exact attempt.trans (Result.toOption_eq_some.mpr issued)
  · intro index rivalId early
    have inside : rivalId ∈ (keys truncated).map Prod.fst := by
      rw [listed]
      exact List.mem_append_left _ (List.mem_of_getElem? early)
    obtain ⟨entry, held, rfl⟩ := List.mem_map.mp inside
    obtain ⟨rival, stands, -, attempt⟩ := represents.candidate agrees made held index
    apply attempt.trans
    rw [← first] at early
    cases answered : rival.issue (draws index) request with
    | error error => rfl
    | ok response => exact absurd answered (unrivalled index entry.1 rival early stands response)

/-- Where the responses of the key and of no other key are good, the response is good exactly when
the key has no rival that answers. -/
theorem issue_good_iff (represents : Represents held make keys) {key : IssuerKey}
    (member : (keyId, key) ∈ keys truncated)
    (own : ∀ same, (keyId, same) ∈ keys truncated → ∀ index, ∃ response,
      same.issue (draws index) request = .ok response ∧ good response)
    (other : ∀ rivalId rival, (rivalId, rival) ∈ keys truncated → rivalId ≠ keyId →
      ∀ index response, rival.issue (draws index) request = .ok response → ¬ good response)
    (unknown unmatched : String) :
    (∃ response, held.issue answer truncated unknown unmatched = .ok response ∧ good response) ↔
      Unrivalled (keys truncated) keyId draws request := by
  simp only [issue_of_current represents]
  constructor
  · intro ⟨response, issued, fine⟩
    exact unrivalled_of_good agrees made represents other issued fine
  · exact good_of_unrivalled agrees made represents member own

end Good

end Registry

section Runs

variable {kind : TokenType} {keys : UInt8 → List (TokenKeyId × IssuerKey)}

theorem nextKeys_add {key : IssuerKey} {keyId : TokenKeyId} (same : key.kind = kind)
    (named : key.keyId = .ok keyId) :
    (fun truncated => nextKeys kind truncated (keys truncated) (.addKey key)) =
      Function.update keys (truncatedKeyId keyId) (keys (truncatedKeyId keyId) ++ [(keyId, key)]) := by
  funext truncated
  by_cases here : truncated = truncatedKeyId keyId
  · subst here
    simp [nextKeys, named, same]
  · rw [Function.update_of_ne here]
    simp [nextKeys, named, Ne.symm here]

theorem nextKeys_other {key : IssuerKey} (other : key.kind ≠ kind) (truncated : UInt8)
    (keys : List (TokenKeyId × IssuerKey)) : nextKeys kind truncated keys (.addKey key) = keys := by
  simp only [nextKeys, other, false_and, if_false]
  split <;> rfl

theorem nextKeys_error {key : IssuerKey} {error : Error} (unnamed : key.keyId = .error error)
    (truncated : UInt8) (keys : List (TokenKeyId × IssuerKey)) :
    nextKeys kind truncated keys (.addKey key) = keys := by
  simp only [nextKeys, unnamed]

theorem nextKeys_remove (removed : UInt8) :
    (fun truncated => nextKeys kind truncated (keys truncated) (.removeKey removed)) =
      Function.update keys removed [] := by
  funext truncated
  by_cases here : truncated = removed
  · simp [nextKeys, here]
  · simp [nextKeys, here, Ne.symm here]

omit [CryptoBackend] in
theorem kinds_differ : TokenType.blindRsa ≠ .voprfP384Sha384 := by decide

def publicIssuer : IssuerKey → Option PublicIssuer
  | .blindRsa key => some (.create key)
  | .voprf _ _ => none

def privateIssuer : IssuerKey → Option PrivateIssuer
  | .blindRsa _ => none
  | .voprf key memory => some (.create key memory)

theorem publicIssuer_of_kind {key : IssuerKey} (typed : key.kind = .blindRsa) :
    ∃ issuer, publicIssuer key = some issuer := by
  cases key with
  | blindRsa key => exact ⟨_, rfl⟩
  | voprf key memory => exact absurd typed kinds_differ.symm

theorem privateIssuer_of_kind {key : IssuerKey} (typed : key.kind = .voprfP384Sha384) :
    ∃ issuer, privateIssuer key = some issuer := by
  cases key with
  | blindRsa key => exact absurd typed kinds_differ
  | voprf key memory => exact ⟨_, rfl⟩

theorem publicIssuer_issue {key : IssuerKey} {issuer : PublicIssuer}
    (makes : publicIssuer key = some issuer) (draws : List Nat) (request : TokenRequest) :
    issuer.issue request = key.issue draws request := by
  cases key <;> cases makes
  rfl

theorem privateIssuer_issue {key : IssuerKey} {issuer : PrivateIssuer}
    (makes : privateIssuer key = some issuer) (draws : List Nat) (request : TokenRequest) :
    issuer.issue draws request = key.issue draws request := by
  cases key <;> cases makes
  rfl

theorem publicIssuer_privateKey (key : BlindRsaPrivateKey) :
    (PublicIssuer.create key).privateKey = key := by
  unfold PublicIssuer.create
  split
  · rfl
  split <;> rfl

theorem publicIssuer_truncatedKeyId {key : BlindRsaPrivateKey} {keyId : TokenKeyId}
    (named : (IssuerKey.blindRsa key).keyId = .ok keyId) :
    (PublicIssuer.create key).truncatedKeyId = truncatedKeyId keyId := by
  obtain ⟨pub, published, identified⟩ := Result.bind_eq_ok.mp named
  unfold PublicIssuer.create
  simp only [published, identified]

theorem privateIssuer_truncatedKeyId {key : VoprfPrivateKey} {memory : TokenKeyId × UInt8}
    {keyId : TokenKeyId} (named : (IssuerKey.voprf key memory).keyId = .ok keyId) :
    (PrivateIssuer.create key memory).truncatedKeyId = truncatedKeyId keyId := by
  change key.publicKey.bind VoprfPublicKey.keyId = .ok keyId at named
  unfold PrivateIssuer.create
  simp only [named]

/-- An added key is filed under its id and the last byte of its id. -/
theorem addBlindRsaKey_of_ok {key : BlindRsaPrivateKey} {keyId : TokenKeyId} (multi : MultiKeyIssuer)
    (named : (IssuerKey.blindRsa key).keyId = .ok keyId) : multi.addBlindRsaKey key =
      (.ok (), { multi with rsa := multi.rsa.add keyId (truncatedKeyId keyId) (.create key) }) := by
  have truncated := publicIssuer_truncatedKeyId named
  change key.publicKey.bind BlindRsaPublicKey.keyId = .ok keyId at named
  unfold addBlindRsaKey
  simp only [publicIssuer_privateKey, named, truncated]

theorem addBlindRsaKey_of_error {key : BlindRsaPrivateKey} {error : Error} (multi : MultiKeyIssuer)
    (unnamed : (IssuerKey.blindRsa key).keyId = .error error) :
    multi.addBlindRsaKey key = (.error error, multi) := by
  change key.publicKey.bind BlindRsaPublicKey.keyId = .error error at unnamed
  unfold addBlindRsaKey
  simp only [publicIssuer_privateKey, unnamed]

theorem addVoprfKey_of_ok {key : VoprfPrivateKey} {memory : TokenKeyId × UInt8} {keyId : TokenKeyId}
    (multi : MultiKeyIssuer) (named : (IssuerKey.voprf key memory).keyId = .ok keyId) :
    multi.addVoprfKey key memory = (.ok (),
      { multi with voprf := multi.voprf.add keyId (truncatedKeyId keyId) (.create key memory) }) := by
  have truncated := privateIssuer_truncatedKeyId named
  change key.publicKey.bind VoprfPublicKey.keyId = .ok keyId at named
  unfold addVoprfKey
  simp only [show (PrivateIssuer.create key memory).privateKey = key from rfl, named, truncated]

theorem addVoprfKey_of_error {key : VoprfPrivateKey} {memory : TokenKeyId × UInt8} {error : Error}
    (multi : MultiKeyIssuer) (unnamed : (IssuerKey.voprf key memory).keyId = .error error) :
    multi.addVoprfKey key memory = (.error error, multi) := by
  change key.publicKey.bind VoprfPublicKey.keyId = .error error at unnamed
  unfold addVoprfKey
  simp only [show (PrivateIssuer.create key memory).privateKey = key from rfl, unnamed]

/-- The two registries represent the current keys of their kinds. -/
structure Registered (history : List (Call × Result Unit)) (multi : MultiKeyIssuer) : Prop where
  rsa : Represents multi.rsa publicIssuer fun truncated => currentKeys .blindRsa truncated history
  voprf : Represents multi.voprf privateIssuer fun truncated =>
    currentKeys .voprfP384Sha384 truncated history

theorem registered_empty : Registered [] {} := by
  have none {ι : Type} (make : IssuerKey → Option ι) : Represents {} make fun _ => [] := by
    refine ⟨fun _ => rfl, ?_, fun _ => rfl⟩
    intro truncated entry member
    cases member
  exact ⟨none _, none _⟩

theorem currentKeys_concat (kind : TokenType) (truncated : UInt8) (history : List (Call × Result Unit))
    (event : Call × Result Unit) :
    currentKeys kind truncated (history ++ [event]) =
      nextKeys kind truncated (currentKeys kind truncated history) event.1 := by
  rw [currentKeys, List.foldl_append]
  rfl

variable {history : List (Call × Result Unit)} {multi : MultiKeyIssuer}

/-- Each call moves both registries as it moves the current keys. -/
theorem Registered.step (registered : Registered history multi) (call : Call) :
    Registered (history ++ [(call, (machine.step multi call).1)]) (machine.step multi call).2 := by
  obtain ⟨rsa, voprf⟩ := registered
  have concat (kind : TokenType) :
      (fun truncated => currentKeys kind truncated (history ++ [(call, (machine.step multi call).1)])) =
        fun truncated => nextKeys kind truncated (currentKeys kind truncated history) call :=
    funext fun truncated => currentKeys_concat kind truncated history _
  suffices next : Represents (machine.step multi call).2.rsa publicIssuer (fun truncated =>
      nextKeys .blindRsa truncated (currentKeys .blindRsa truncated history) call) ∧
      Represents (machine.step multi call).2.voprf privateIssuer (fun truncated =>
        nextKeys .voprfP384Sha384 truncated (currentKeys .voprfP384Sha384 truncated history) call) from
    ⟨concat .blindRsa ▸ next.1, concat .voprfP384Sha384 ▸ next.2⟩
  cases call with
  | removeKey removed =>
      rw [nextKeys_remove, nextKeys_remove]
      exact ⟨rsa.removeKey removed, voprf.removeKey removed⟩
  | addKey key =>
      cases key with
      | blindRsa key =>
          change Represents (multi.addBlindRsaKey key).2.rsa _ _ ∧
            Represents (multi.addBlindRsaKey key).2.voprf _ _
          simp only [nextKeys_other (show (IssuerKey.blindRsa key).kind ≠ .voprfP384Sha384 from kinds_differ)]
          cases named : (IssuerKey.blindRsa key).keyId with
          | error error =>
              rw [addBlindRsaKey_of_error multi named]
              simp only [nextKeys_error named]
              exact ⟨rsa, voprf⟩
          | ok keyId =>
              rw [addBlindRsaKey_of_ok multi named,
                nextKeys_add (show (IssuerKey.blindRsa key).kind = .blindRsa from rfl) named]
              exact ⟨rsa.add rfl, voprf⟩
      | voprf key memory =>
          change Represents (multi.addVoprfKey key memory).2.rsa _ _ ∧
            Represents (multi.addVoprfKey key memory).2.voprf _ _
          simp only [nextKeys_other (show (IssuerKey.voprf key memory).kind ≠ .blindRsa from kinds_differ.symm)]
          cases named : (IssuerKey.voprf key memory).keyId with
          | error error =>
              rw [addVoprfKey_of_error multi named]
              simp only [nextKeys_error named]
              exact ⟨rsa, voprf⟩
          | ok keyId =>
              rw [addVoprfKey_of_ok multi named,
                nextKeys_add (show (IssuerKey.voprf key memory).kind = .voprfP384Sha384 from rfl) named]
              exact ⟨rsa, voprf.add rfl⟩

theorem registered_of_runs {allowed : List (Call × Result Unit) → Call → Prop}
    (runs : machine.Runs allowed {} history multi) : Registered history multi :=
  runs.invariant registered_empty fun _ _ call registered _ => registered.step call

/-- A current key has its kind and stands under its own id. -/
theorem currentKeys_entry {entry : TokenKeyId × IssuerKey} {truncated : UInt8}
    (member : entry ∈ currentKeys kind truncated history) :
    entry.2.kind = kind ∧ entry.2.keyId = .ok entry.1 := by
  induction history using List.reverseRecOn with
  | nil => cases member
  | append_singleton history event ih =>
      rw [currentKeys_concat] at member
      unfold nextKeys at member
      split at member
      · split at member
        · next named =>
            split at member
            · next typed =>
                rcases List.mem_append.mp member with earlier | last
                · exact ih earlier
                · rw [List.mem_singleton.mp last]
                  exact ⟨typed.1, named⟩
            · exact ih member
        · exact ih member
      · split at member
        · cases member
        · exact ih member

theorem currentKeys_kind {entry : TokenKeyId × IssuerKey} {truncated : UInt8}
    (member : entry ∈ currentKeys kind truncated history) : entry.2.kind = kind :=
  (currentKeys_entry member).1

/-- A key is current from its addition to the next removal of its truncated id. -/
theorem mem_currentKeys {key : IssuerKey} {keyId : TokenKeyId} {answer : Result Unit}
    (named : key.keyId = .ok keyId) {before after : List (Call × Result Unit)}
    (kept : ∀ event ∈ after, event.1 ≠ .removeKey (truncatedKeyId keyId)) :
    (keyId, key) ∈ currentKeys key.kind (truncatedKeyId keyId)
      (before ++ (.addKey key, answer) :: after) := by
  induction after using List.reverseRecOn with
  | nil =>
      rw [currentKeys_concat]
      simp [nextKeys, named]
  | append_singleton after event ih =>
      rw [← List.cons_append, ← List.append_assoc, currentKeys_concat]
      have held := ih fun event member => kept event (List.mem_append_left _ member)
      have other := kept event (by simp)
      unfold nextKeys
      split
      · split
        · split
          · exact List.mem_append_left _ held
          · exact held
        · exact held
      · next removed call =>
          rw [if_neg]
          · exact held
          · intro same
            exact other (by rw [call, same])

/-- Two keys of one kind and one truncated id stand in the order of their addition. -/
theorem currentKeys_pair {first second : IssuerKey} {firstId secondId : TokenKeyId}
    (firstNamed : first.keyId = .ok firstId) (secondNamed : second.keyId = .ok secondId)
    (kinds : second.kind = first.kind) (shared : truncatedKeyId secondId = truncatedKeyId firstId) :
    currentKeys first.kind (truncatedKeyId firstId)
      [(.addKey first, .ok ()), (.addKey second, .ok ())] = [(firstId, first), (secondId, second)] := by
  simp [currentKeys, nextKeys, firstNamed, secondNamed, shared, kinds]

/-- No key stands before the first one. -/
theorem unrivalled_first (keyId : TokenKeyId) (key : IssuerKey) (rest : List (TokenKeyId × IssuerKey))
    (draws : Nat → List Nat) (request : TokenRequest) :
    Unrivalled ((keyId, key) :: rest) keyId draws request := by
  intro index rival other early
  simp [rivals] at early

end Runs

end MultiKeyIssuer

section Requests

variable [CryptoBackend]

/-- An issuer that answers has been asked for its own kind and by its own truncated id. -/
theorem IssuerKey.issue_ok {key : IssuerKey} {keyId : TokenKeyId} {draws : List Nat}
    {request : TokenRequest} {response : TokenResponse} (named : key.keyId = .ok keyId)
    (issued : key.issue draws request = .ok response) :
    request.truncatedTokenKeyId = truncatedKeyId keyId ∧
      (key.kind = .blindRsa ∧ (request.tokenType = .blindRsa ∨ request.tokenType = .partiallyBlindRsa) ∨
        key.kind = .voprfP384Sha384 ∧ request.tokenType = .voprfP384Sha384) := by
  cases key with
  | blindRsa key =>
      rw [← MultiKeyIssuer.publicIssuer_truncatedKeyId named]
      change (PublicIssuer.create key).issue request = .ok response at issued
      unfold PublicIssuer.issue at issued
      split at issued
      · cases issued
      split at issued
      · cases issued
      · exact ⟨by tauto, .inl ⟨rfl, by tauto⟩⟩
  | voprf key memory =>
      rw [← MultiKeyIssuer.privateIssuer_truncatedKeyId named]
      change (PrivateIssuer.create key memory).issue draws request = .ok response at issued
      unfold PrivateIssuer.issue at issued
      split at issued
      · cases issued
      split at issued
      · cases issued
      · exact ⟨by tauto, .inr ⟨rfl, by tauto⟩⟩

end Requests

namespace MultiKeyIssuer

section Requests

variable [IssuanceBackend] {history : List (Call × Result Unit)} {multi : MultiKeyIssuer}

/-- Where the responses of a current key finalize under it and those of other keys do not, the
response to a request finalizes exactly when no key that was added before answers the request. -/
theorem issue_finalizes_iff
    (runs : machine.Runs (fun _ _ => True) {} history multi) {key : IssuerKey} {keyId : TokenKeyId}
    (named : key.keyId = .ok keyId) {before after : List (Call × Result Unit)} {answer : Result Unit}
    (added : history = before ++ (.addKey key, answer) :: after)
    (kept : ∀ event ∈ after, event.1 ≠ .removeKey (truncatedKeyId keyId))
    {draws : Nat → List Nat} {request : TokenRequest} {finalizationData : FinalizationData}
    (own : ∀ same, (keyId, same) ∈ currentKeys key.kind (truncatedKeyId keyId) history → ∀ index,
      ∃ response, same.issue (draws index) request = .ok response ∧
        ∃ token, key.finalize response finalizationData = .ok token)
    (other : ∀ rivalId rival,
      (rivalId, rival) ∈ currentKeys key.kind (truncatedKeyId keyId) history → rivalId ≠ keyId →
        ∀ index response, rival.issue (draws index) request = .ok response →
          ¬ ∃ token, key.finalize response finalizationData = .ok token) :
    (∃ response, multi.issue draws request = .ok response ∧
        ∃ token, key.finalize response finalizationData = .ok token) ↔
      Unrivalled (currentKeys key.kind (truncatedKeyId keyId) history) keyId draws request := by
  obtain ⟨rsa, voprf⟩ := registered_of_runs runs
  have member : (keyId, key) ∈ currentKeys key.kind (truncatedKeyId keyId) history := by
    rw [added]
    exact mem_currentKeys named kept
  obtain ⟨response, issued, -⟩ := own key member 0
  obtain ⟨truncated, typed⟩ := IssuerKey.issue_ok named issued
  cases key with
  | blindRsa key =>
      have dispatched : multi.issue draws request = multi.rsa.issue
          (fun _ issuer => issuer.issue request) (truncatedKeyId keyId) "Unknown RSA key ID"
          "No matching RSA key found" := by
        obtain ⟨-, typed⟩ | ⟨differs, -⟩ := typed
        · rw [issue, if_pos typed, truncated]
        · exact absurd differs kinds_differ
      rw [dispatched]
      exact issue_good_iff
        (fun key issuer index makes => publicIssuer_issue makes (draws index) request)
        (fun entry inside => publicIssuer_of_kind (currentKeys_kind inside)) rsa member own other _ _
  | voprf key memory =>
      have dispatched : multi.issue draws request = multi.voprf.issue
          (fun index issuer => issuer.issue (draws index) request) (truncatedKeyId keyId)
          "Unknown VOPRF key ID" "No matching VOPRF key found" := by
        obtain ⟨differs, -⟩ | ⟨-, typed⟩ := typed
        · exact absurd differs.symm kinds_differ
        · rw [issue, if_neg (by rw [typed]; decide), if_pos typed, truncated]
      rw [dispatched]
      exact issue_good_iff
        (fun key issuer index makes => privateIssuer_issue makes (draws index) request)
        (fun entry inside => privateIssuer_of_kind (currentKeys_kind inside)) voprf member own other _ _

theorem runs_addBlindRsaKey {key : BlindRsaPrivateKey} {keyId : TokenKeyId}
    (runs : machine.Runs (fun _ _ => True) {} history multi)
    (named : (IssuerKey.blindRsa key).keyId = .ok keyId) :
    ∃ next, machine.Runs (fun _ _ => True) {} (history ++ [(.addKey (.blindRsa key), .ok ())]) next :=
  ⟨_, runs.next trivial (addBlindRsaKey_of_ok multi named)⟩

/-- The first of two keys with one truncated id answers for both where it can. -/
theorem issue_first {first second : BlindRsaPrivateKey} {firstId secondId : TokenKeyId}
    (firstNamed : (IssuerKey.blindRsa first).keyId = .ok firstId)
    (secondNamed : (IssuerKey.blindRsa second).keyId = .ok secondId) (different : secondId ≠ firstId)
    (shared : truncatedKeyId secondId = truncatedKeyId firstId)
    (runs : machine.Runs (fun _ _ => True) {}
      [(.addKey (.blindRsa first), .ok ()), (.addKey (.blindRsa second), .ok ())] multi)
    {draws : Nat → List Nat} {request : TokenRequest} {response : TokenResponse}
    (answers : (IssuerKey.blindRsa first).issue (draws 0) request = .ok response) :
    multi.issue draws request = .ok response := by
  obtain ⟨rsa, -⟩ := registered_of_runs runs
  obtain ⟨truncated, typed⟩ := IssuerKey.issue_ok firstNamed answers
  have typed : request.tokenType = .blindRsa ∨ request.tokenType = .partiallyBlindRsa := by
    rcases typed with ⟨-, typed⟩ | ⟨differs, -⟩
    · exact typed
    · exact absurd differs kinds_differ
  have listed : currentKeys .blindRsa (truncatedKeyId firstId)
      [(.addKey (.blindRsa first), .ok ()), (.addKey (.blindRsa second), .ok ())] =
        [(firstId, .blindRsa first), (secondId, .blindRsa second)] :=
    currentKeys_pair firstNamed secondNamed rfl shared
  have among : (firstId, IssuerKey.blindRsa first) ∈ currentKeys .blindRsa (truncatedKeyId firstId)
      [(.addKey (.blindRsa first), .ok ()), (.addKey (.blindRsa second), .ok ())] := by
    rw [listed]
    exact List.mem_cons_self
  obtain ⟨key, stands, -, attempt⟩ := rsa.candidate
    (fun key issuer index makes => publicIssuer_issue makes (draws index) request)
    (fun entry inside => publicIssuer_of_kind (currentKeys_kind inside)) among 0
  obtain rfl : IssuerKey.blindRsa first = key := by
    rw [listed] at stands
    simpa [standing, different] using stands
  rw [issue, if_pos typed, truncated, issue_of_current rsa, listed]
  exact findSome?_zipIdx.mpr ⟨[], firstId, [secondId], rfl,
    attempt.trans (Result.toOption_eq_some.mpr answers), by simp⟩

end Requests

section Instances

/-- These primes stand one above a multiple of a power of two. -/
def rivalLeftPrime : Nat := 2089457 * 2 ^ (1002 + 1) + 1

def rivalRightPrime : Nat := 32213 * 2 ^ (1008 + 1) + 1

def rivalModulus : Nat := rivalLeftPrime * rivalRightPrime

def rivalExponent : Nat :=
  0x11bea55950000ffff0000ffff0000ffff0000ffff0000ffff0000ffff0000ffff0000ffff0000ffff0000ffff0000ffff0000ffff0000ffff0000ffff0000ffff0000ffff0000ffff0000ffff0000ffff0000ffff0000ffff0000ffff0000ffff0000ffff0000ffff0000ffff0000ffff0000ffff0000ffff0000ffff0000ffff0001

theorem rival_exponents : BlindSignature.RsaExponents rivalModulus 65537 rivalExponent := by
  have left : rivalLeftPrime.Prime :=
    @Primality.prime_of_squareTimes rivalLeftPrime 2089457 1002 3 (by norm_num)
      (by rw [rivalLeftPrime]) (by decide +kernel) (by decide +kernel)
  have right : rivalRightPrime.Prime :=
    @Primality.prime_of_squareTimes rivalRightPrime 32213 1008 3 (by norm_num)
      (by rw [rivalRightPrime]) (by decide +kernel) (by decide +kernel)
  exact BlindSignature.rsaExponents_of_primes left right (by decide +kernel)
    (Nat.odd_iff.mpr (by decide +kernel)) (Nat.odd_iff.mpr (by decide +kernel)) (by decide +kernel)

theorem rivalModulus_bits : bnNumBits rivalModulus = rsaBits := by decide +kernel

/-- The digests of the two keys end with the same byte, and the second entry is for a challenge. -/
def sharedSha256 : List (Nat × Nat) :=
  (0x18c7991ef447e449, 0xd870a3fd311b91f92e153081c04818208efced754622fd8fe1b1d2ad64e46886) ::
    (0xcfb5592cb018c26, 0x514be49a12248b8172ee4a01752da8d2a90eed6e33fedf9be79eacd5765dfa8a) ::
    exchangeSha256

/-- This library knows the digests of another key and another challenge besides those of the recorded
exchange. -/
abbrev sharedBackend : IssuanceBackend :=
  { pssBackend with
    evpSha256 := fun data => some (totalHash 32 sharedSha256 data)
    Point := Unit
    order := 1
    octToPoint := fun _ => none
    isOnCurve := fun _ => false
    isAtInfinity := fun _ => true
    pointToOct := fun _ => none
    mul := fun _ _ => none
    mulGenerator := fun _ => none
    add := fun _ _ => none
    fieldModulus := 13
    curveA := 1
    curveB := 1
    setAffineCoordinates := fun _ _ => none
    mulAdd := fun _ _ _ => none }

theorem sharedBackend_hashes : @HashesSucceed sharedBackend.toRsaBackend :=
  @HashesSucceed.mk sharedBackend.toRsaBackend (fun _ => ⟨_, rfl⟩) (fun _ => ⟨_, rfl⟩)

theorem sharedBackend_conforms : @PssConforms sharedBackend.toRsaBackend := by
  obtain ⟨pads, encodes, verifies⟩ := pssBackend_conforms
  exact @PssConforms.mk sharedBackend.toRsaBackend pads encodes verifies

def sharedKeyId (n : Nat) : TokenKeyId := totalHash 32 sharedSha256 (pssSpki n)

theorem sharedKey_pair {n d : Nat} (exponents : BlindSignature.RsaExponents n 65537 d)
    (bits : bnNumBits n = rsaBits) : @IssuerKeyPair sharedBackend.toRsaBackend (pssKey n (some d))
      (pssKey n none) d (pssSpki n) (sharedKeyId n) := by
  obtain ⟨exponents, known, modulus, marshalled, nonempty, short, parsed, valid, -⟩ :=
    pssKey_pair exponents bits
  exact @IssuerKeyPair.mk sharedBackend.toRsaBackend _ _ _ _ _ exponents known modulus marshalled
    nonempty short parsed valid rfl

/-- The issuer holds the key of a modulus and its private exponent. -/
def sharedKey (n d : Nat) : IssuerKey := .blindRsa ⟨some (pssKey n (some d))⟩

theorem sharedKey_kind (n d : Nat) : (sharedKey n d).kind = .blindRsa := rfl

theorem sharedKey_keyId {n d : Nat} (exponents : BlindSignature.RsaExponents n 65537 d)
    (bits : bnNumBits n = rsaBits) :
    @IssuerKey.keyId sharedBackend.toCryptoBackend (sharedKey n d) = .ok (sharedKeyId n) := by
  have pair := sharedKey_pair exponents bits
  change (@BlindRsaPrivateKey.publicKey sharedBackend.toRsaBackend _).bind _ = _
  rw [@IssuerKeyPair.publicKey_eq sharedBackend.toRsaBackend _ _ _ _ _ pair]
  exact @IssuerKeyPair.keyId_eq sharedBackend.toRsaBackend _ _ _ _ _ pair

theorem sharedNonce_length : (List.replicate 32 (0x11 : UInt8)).length = 32 := rfl

def sharedDraws : RequestDraws :=
  ⟨some ⟨List.replicate 32 0x11, sharedNonce_length⟩, List.replicate 48 0x22, [2]⟩

def sharedDigest : ChallengeDigest := totalHash 32 sharedSha256
  (TokenChallenge.wire TokenType.blindRsa.value (ascii "issuer.example.com") none
    (ascii "origin.example.com"))

theorem sharedDigest_eq :
    (@TokenChallenge.digest sharedBackend.toHashBackend pssChallenge).1 = .ok sharedDigest := by
  decide +kernel

def sharedEncoded (n : Nat) : Bytes :=
  Pss.encode pssScheme (totalHash 48 exchangeSha384 (AuthenticatorInput.wire
    ⟨.blindRsa, ⟨List.replicate 32 0x11, sharedNonce_length⟩, sharedDigest, sharedKeyId n⟩)).val
      (List.replicate 48 0x22)

def sharedBlinded (n : Nat) : Nat :=
  BigEndian.ofBytes (sharedEncoded n) * (2 ^ (pssKey n none).e % (pssKey n none).n) % (pssKey n none).n

def sharedRequest (n : Nat) : TokenRequest :=
  ⟨.blindRsa, truncatedKeyId (sharedKeyId n), BigEndian.toBytes 256 (sharedBlinded n)⟩

def sharedData (n inverse : Nat) : FinalizationData :=
  ⟨.blindRsa, ⟨List.replicate 32 0x11, sharedNonce_length⟩, sharedDigest, sharedKeyId n,
    .blindRsa ⟨BigEndian.toBytes 256 inverse, []⟩⟩

/-- The recorded factor is invertible for every odd modulus. -/
theorem sharedDraws_invertible {n : Nat} (odd : Odd n) :
    ∃ r ∈ sharedDraws.factors, r ≠ 0 ∧ Nat.gcd r n = 1 :=
  ⟨2, List.mem_cons_self, by decide, Nat.coprime_two_left.mpr odd⟩

/-- The blinding of the recorded factor is known but for the inverse. -/
theorem sharedKey_blind {n : Nat} (odd : Odd n) (bits : bnNumBits n = rsaBits) : ∃ inverse,
    @BlindRsaPublicKey.blind sharedBackend.toRsaBackend ⟨some (pssKey n none), pssSpki n⟩
      (AuthenticatorInput.wire ⟨.blindRsa, ⟨List.replicate 32 0x11, rfl⟩, sharedDigest, sharedKeyId n⟩)
      sharedDraws.salt sharedDraws.factors =
        .ok ⟨BigEndian.toBytes 256 inverse, BigEndian.toBytes 256 (sharedBlinded n)⟩ := by
  have size : bnNumBytes (pssKey n none).n = rsaModulusSize := bnNumBytes_of_bits bits
  have padded : bnNumBits (pssKey n none).n = rsaBits ∧ sharedDraws.salt.length = saltLength :=
    ⟨bits, List.length_replicate⟩
  have encodes : @emsaPssEncode sharedBackend.toRsaBackend (pssKey n none) (AuthenticatorInput.wire
      ⟨.blindRsa, ⟨List.replicate 32 0x11, rfl⟩, sharedDigest, sharedKeyId n⟩) sharedDraws.salt =
        .ok (sharedEncoded n) :=
    @emsaPssEncode_padded sharedBackend.toRsaBackend _ _ _ _ _ rfl (if_pos padded)
  obtain ⟨r, member, inverse, drawn, inverted⟩ :=
    drawBlind_spec (sharedDraws_invertible (show Odd (pssKey n none).n from odd))
  obtain rfl : r = 2 := List.mem_singleton.mp member
  obtain ⟨-, below⟩ := bnModInverse_spec (show 0 < (pssKey n none).n from odd.pos) inverted
  exact ⟨inverse, @blind_ok sharedBackend.toRsaBackend (pssKey n none) size (Nat.odd_iff.mp odd)
    ⟨some (pssKey n none), pssSpki n⟩ rfl _ _ _ _ _ _ encodes drawn below⟩

/-- The client asks for a token of the key, and the response of the key finalizes. -/
theorem sharedRequest_created {n d : Nat} (exponents : BlindSignature.RsaExponents n 65537 d)
    (bits : bnNumBits n = rsaBits) : ∃ inverse signature token,
      @PublicClient.createTokenRequest sharedBackend.toRsaBackend sharedDraws pssChallenge
        ⟨some (pssKey n none), pssSpki n⟩ = .ok ⟨sharedRequest n, sharedData n inverse⟩ ∧
      (∀ draws, @IssuerKey.issue sharedBackend.toCryptoBackend draws (sharedRequest n) (sharedKey n d) =
        .ok signature) ∧
      @IssuerKey.finalize sharedBackend signature (sharedData n inverse) (sharedKey n d) =
        .ok token := by
  have pair := sharedKey_pair exponents bits
  obtain ⟨inverse, blinds⟩ := sharedKey_blind exponents.odd bits
  have invertible := sharedDraws_invertible (show Odd (pssKey n none).n from exponents.odd)
  obtain ⟨blinding, signature, authenticator, -, -, -, issued, accepted⟩ :=
    @IssuerKeyPair.issue_finalize sharedBackend.toRsaBackend _ _ _ _ _ sharedBackend_hashes
      sharedBackend_conforms pair pssChallenge (.inl rfl) sharedDraws _ rfl _ sharedDigest_eq
      List.length_replicate invertible
  obtain ⟨blinded, -, created, finalized⟩ := accepted ⟨some (pssKey n none), pssSpki n⟩ rfl
  cases (Except.ok.inj (blinded.symm.trans blinds))
  refine ⟨inverse, .createBlindRsa signature, ⟨.blindRsa, ⟨List.replicate 32 0x11, rfl⟩, sharedDigest,
    sharedKeyId n, authenticator⟩, created ?_, fun _ => issued, ?_⟩
  · exact @IssuerKeyPair.keyId_eq sharedBackend.toRsaBackend _ _ _ _ _ pair
  · change (@BlindRsaPrivateKey.publicKey sharedBackend.toRsaBackend _).bind _ = _
    rw [@IssuerKeyPair.publicKey_eq sharedBackend.toRsaBackend _ _ _ _ _ pair]
    exact finalized .blindRsa

/-- This is the public key that is read from its encoding. -/
def sharedRsaKey (n : Nat) : BlindRsaPublicKey := ⟨some (pssKey n none), pssSpki n⟩

theorem sharedRsaKey_keyId {n d : Nat} (exponents : BlindSignature.RsaExponents n 65537 d)
    (bits : bnNumBits n = rsaBits) :
    @BlindRsaPublicKey.keyId sharedBackend.toRsaBackend (sharedRsaKey n) = .ok (sharedKeyId n) :=
  @IssuerKeyPair.keyId_eq sharedBackend.toRsaBackend _ _ _ _ _ (sharedKey_pair exponents bits)

theorem sharedRsaKey_parsed {n d : Nat} (exponents : BlindSignature.RsaExponents n 65537 d)
    (bits : bnNumBits n = rsaBits) :
    @BlindRsaPublicKey.fromSpki sharedBackend.toRsaBackend (pssSpki n) = .ok (sharedRsaKey n) := by
  obtain ⟨-, -, -, -, -, short, parsed, valid, -⟩ := sharedKey_pair exponents bits
  exact (@fromSpki_eq_ok sharedBackend.toRsaBackend _ _).mpr ⟨short, _, parsed, valid, rfl⟩

theorem sharedRsaKey_copied {n d : Nat} (exponents : BlindSignature.RsaExponents n 65537 d)
    (bits : bnNumBits n = rsaBits) :
    @Origin.copyRsaKey sharedBackend.toCryptoBackend (sharedRsaKey n) = .ok (sharedRsaKey n) := by
  have written : @BlindRsaPublicKey.toSpki sharedBackend.toRsaBackend (sharedRsaKey n) =
      .ok (pssSpki n) := rfl
  rw [@Origin.copyRsaKey.eq_1 sharedBackend.toCryptoBackend, Result.bind_ok written]
  exact sharedRsaKey_parsed exponents bits

/-- The holder of the key makes this token for a digest without blinding. -/
def sharedTokenOf (digest : ChallengeDigest) (n d : Nat) : Token where
  tokenType := .blindRsa
  nonce := ⟨List.replicate 32 0x11, sharedNonce_length⟩
  challengeDigest := digest
  tokenKeyId := sharedKeyId n
  authenticator :=
    let input := AuthenticatorInput.wire
      ⟨.blindRsa, ⟨List.replicate 32 0x11, sharedNonce_length⟩, digest, sharedKeyId n⟩
    let encoded := Pss.encode pssScheme (totalHash 48 exchangeSha384 input).val (List.replicate 48 0x22)
    BigEndian.toBytes 256 (BigEndian.ofBytes encoded ^ d % n)

abbrev sharedToken (n d : Nat) : Token := sharedTokenOf sharedDigest n d

/-- The signature of the token is accepted under its key. -/
theorem sharedTokenOf_signed (digest : ChallengeDigest) {n d : Nat}
    (exponents : BlindSignature.RsaExponents n 65537 d) (bits : bnNumBits n = rsaBits) :
    @BlindRsaPublicKey.verify sharedBackend.toRsaBackend (sharedRsaKey n)
      (sharedTokenOf digest n d).authenticatorInput.wire (sharedTokenOf digest n d).authenticator =
        .ok true := by
  let input := AuthenticatorInput.wire
    ⟨.blindRsa, ⟨List.replicate 32 0x11, sharedNonce_length⟩, digest, sharedKeyId n⟩
  have keyed := pssKey_isPssKey exponents.odd bits none
  have power : BlindSignature.RsaExponents (pssKey n none).n (pssKey n none).e d := exponents
  have cancels : ((1 : Nat) : ZMod (pssKey n none).n) * (1 : Nat) = 1 := by simp
  have sized : bnNumBits (pssKey n none).n = rsaBits ∧
      (List.replicate 48 (0x22 : UInt8)).length = saltLength := ⟨bits, List.length_replicate⟩
  have padded : sharedBackend.paddingAddPkcs1Pss (pssKey n none) (totalHash 48 exchangeSha384 input)
      (List.replicate 48 0x22) = some (Pss.encode pssScheme (totalHash 48 exchangeSha384 input).val
        (List.replicate 48 0x22)) := if_pos sized
  obtain ⟨hash, encoded, hashed, again, -, -, below⟩ :=
    @emsaPssEncode_ok sharedBackend.toRsaBackend sharedBackend_hashes sharedBackend_conforms _ keyed
      input (List.replicate 48 0x22) List.length_replicate
  obtain rfl := Option.some.inj hashed
  obtain rfl := Option.some.inj (padded.symm.trans again)
  have accepted := @unblinded_accepted sharedBackend.toRsaBackend sharedBackend_conforms _ d keyed power
    _ _ _ _ hashed List.length_replicate again below (lt_of_bits bits) 1 1 cancels
  rw [power.unblind_mod cancels] at accepted
  rw [@BlindRsaPublicKey.verify.eq_1 sharedBackend.toRsaBackend, sharedRsaKey]
  dsimp only
  rw [Token.authenticatorInput, sharedTokenOf]
  rw [pssKey] at accepted ⊢
  simp only [accepted, input]

/-- An origin that holds the key accepts the token for every challenge with its digest. -/
theorem sharedTokenOf_held {challenge : TokenChallenge} {digest : ChallengeDigest}
    (digested : (@TokenChallenge.digest sharedBackend.toHashBackend challenge).1 = .ok digest)
    {n d : Nat} (exponents : BlindSignature.RsaExponents n 65537 d) (bits : bnNumBits n = rsaBits)
    {origin : PublicOrigin} (holds : origin.HoldsKey (sharedKeyId n) (sharedRsaKey n)) :
    @PublicOrigin.verify sharedBackend.toRsaBackend origin (sharedTokenOf digest n d) challenge =
      .ok true := by
  have named : (sharedTokenOf digest n d).tokenKeyId = sharedKeyId n := by rw [sharedTokenOf]
  rw [← named] at holds
  exact @PublicOrigin.verify_signed sharedBackend.toRsaBackend _ _ _ _ (.inl rfl)
    (BigEndian.toBytes_length _ _) digested holds (sharedTokenOf_signed digest exponents bits)

theorem sharedTokenOf_verified {challenge : TokenChallenge} {digest : ChallengeDigest}
    (digested : (@TokenChallenge.digest sharedBackend.toHashBackend challenge).1 = .ok digest)
    {n d : Nat} (exponents : BlindSignature.RsaExponents n 65537 d) (bits : bnNumBits n = rsaBits)
    (config : OriginConfig) :
    @PublicOrigin.verify sharedBackend.toRsaBackend
      (@PublicOrigin.create sharedBackend.toRsaBackend config [sharedRsaKey n])
      (sharedTokenOf digest n d) challenge = .ok true :=
  sharedTokenOf_held digested exponents bits
    ((@PublicOrigin.holdsKey_addIssuerKey sharedBackend.toRsaBackend _ _ _ _ _
      (sharedRsaKey_keyId exponents bits)).mpr (by rw [if_pos rfl]))

theorem sharedToken_verified {n d : Nat} (exponents : BlindSignature.RsaExponents n 65537 d)
    (bits : bnNumBits n = rsaBits) (config : OriginConfig) :
    @PublicOrigin.verify sharedBackend.toRsaBackend
      (@PublicOrigin.create sharedBackend.toRsaBackend config [sharedRsaKey n]) (sharedToken n d)
      pssChallenge = .ok true :=
  sharedTokenOf_verified sharedDigest_eq exponents bits config

/-- A key with a larger modulus signs the blinded message of another key. -/
theorem sharedRequest_rival {n m k : Nat} (exponents : BlindSignature.RsaExponents m 65537 k)
    (bits : bnNumBits m = rsaBits) (shared : truncatedKeyId (sharedKeyId m) = truncatedKeyId (sharedKeyId n))
    (nonzero : sharedBlinded n ≠ 0) (below : sharedBlinded n < m) (draws : List Nat) :
    @IssuerKey.issue sharedBackend.toCryptoBackend draws (sharedRequest n) (sharedKey m k) =
      .ok (.createBlindRsa (BigEndian.toBytes 256 (sharedBlinded n ^ k % m))) := by
  have size : bnNumBytes (pssKey m (some k)).n = rsaModulusSize := bnNumBytes_of_bits bits
  have signed := @blindSign_ok (pssKey m (some k)) size (Nat.odd_iff.mp exponents.odd)
    ⟨some (pssKey m (some k))⟩ rfl k (sharedBlinded n) rfl nonzero below
  have created := @IssuerKeyPair.create sharedBackend.toRsaBackend _ _ _ _ _ (sharedKey_pair exponents bits)
  change (@PublicIssuer.create sharedBackend.toRsaBackend _).issue _ = _
  rw [created]
  refine PublicIssuer.issue_signed (.inl rfl) ?_ signed
  dsimp only [sharedRequest]
  rw [shared]

/-- A response beyond the modulus of the key does not finalize. -/
theorem sharedData_rejects {n d inverse z : Nat} (exponents : BlindSignature.RsaExponents n 65537 d)
    (bits : bnNumBits n = rsaBits) (fits : z < 256 ^ rsaModulusSize) (large : n ≤ z) :
    @IssuerKey.finalize sharedBackend (.createBlindRsa (BigEndian.toBytes 256 z)) (sharedData n inverse)
      (sharedKey n d) = .error ⟨.unblindingFailed, "Blind signature out of range"⟩ := by
  have size : bnNumBytes (pssKey n none).n = rsaModulusSize := bnNumBytes_of_bits bits
  have rejected (msg : Bytes) := @finalize_of_large sharedBackend.toRsaBackend (pssKey n none) size
    ⟨some (pssKey n none), pssSpki n⟩ rfl z inverse [] msg fits large
  change (@BlindRsaPrivateKey.publicKey sharedBackend.toRsaBackend _).bind _ = _
  rw [@IssuerKeyPair.publicKey_eq sharedBackend.toRsaBackend _ _ _ _ _ (sharedKey_pair exponents bits)]
  exact @PublicClient.finalize_error sharedBackend.toRsaBackend _ ⟨some (pssKey n none), pssSpki n⟩
    .blindRsa .blindRsa _ _ _ _ _ (rejected _)

/-- The ids of the two keys differ but end alike, and both keys sign the blinded message. -/
theorem recordedModulus_rival :
    sharedKeyId recordedModulus ≠ sharedKeyId rivalModulus ∧
    truncatedKeyId (sharedKeyId recordedModulus) = truncatedKeyId (sharedKeyId rivalModulus) ∧
    sharedBlinded recordedModulus ≠ 0 ∧ sharedBlinded recordedModulus < rivalModulus := by
  decide +kernel

/-- The signature of the other key exceeds the modulus. -/
theorem rival_large :
    recordedModulus ≤ sharedBlinded recordedModulus ^ rivalExponent % rivalModulus := by
  rw [← @Primality.powMod_eq rivalModulus 2048 (sharedBlinded recordedModulus) rivalExponent
    (by decide +kernel)]
  decide +kernel

/-- The key that was added first answers the request for its token, and the answer finalizes, though
another key has the same truncated id. -/
theorem issue_finalizes_iff_recorded :
    ∃ multi inverse response token,
      (@machine sharedBackend.toCryptoBackend).Runs (fun _ _ => True) {}
        [(.addKey (sharedKey recordedModulus recordedExponent), .ok ()),
          (.addKey (sharedKey rivalModulus rivalExponent), .ok ())] multi ∧
      @PublicClient.createTokenRequest sharedBackend.toRsaBackend sharedDraws pssChallenge
        ⟨some (pssKey recordedModulus none), pssSpki recordedModulus⟩ =
          .ok ⟨sharedRequest recordedModulus, sharedData recordedModulus inverse⟩ ∧
      @issue sharedBackend.toCryptoBackend multi (fun _ => []) (sharedRequest recordedModulus) =
        .ok response ∧
      @IssuerKey.finalize sharedBackend response (sharedData recordedModulus inverse)
        (sharedKey recordedModulus recordedExponent) = .ok token := by
  have named := sharedKey_keyId recorded_exponents recordedModulus_bits
  have rivalNamed := sharedKey_keyId rival_exponents rivalModulus_bits
  obtain ⟨different, shared, nonzero, below⟩ := recordedModulus_rival
  obtain ⟨inverse, signature, token, created, issued, finalized⟩ :=
    sharedRequest_created recorded_exponents recordedModulus_bits
  have empty : (@machine sharedBackend.toCryptoBackend).Runs (fun _ _ => True) {} [] {} := .start
  obtain ⟨one, first⟩ := @runs_addBlindRsaKey sharedBackend _ _ _ _ empty named
  obtain ⟨multi, runs⟩ : ∃ multi, (@machine sharedBackend.toCryptoBackend).Runs (fun _ _ => True) {}
      [(.addKey (sharedKey recordedModulus recordedExponent), .ok ()),
        (.addKey (sharedKey rivalModulus rivalExponent), .ok ())] multi :=
    @runs_addBlindRsaKey sharedBackend _ _ _ _ first rivalNamed
  have kinds := (sharedKey_kind rivalModulus rivalExponent).trans
    (sharedKey_kind recordedModulus recordedExponent).symm
  have both := @currentKeys_pair sharedBackend.toCryptoBackend _ _ _ _ named rivalNamed kinds shared.symm
  have settled := @issue_finalizes_iff sharedBackend _ multi runs _ _ named []
    [(.addKey (sharedKey rivalModulus rivalExponent), .ok ())] (.ok ()) rfl (by simp) (fun _ => [])
    (sharedRequest recordedModulus) (sharedData recordedModulus inverse)
    (by
      intro same member index
      rw [both] at member
      simp only [List.mem_cons, List.not_mem_nil, or_false, Prod.mk.injEq] at member
      obtain ⟨-, rfl⟩ | ⟨equal, -⟩ := member
      · exact ⟨signature, issued _, token, finalized⟩
      · exact absurd equal different)
    (by
      intro rivalId rival member other index response answered
      rw [both] at member
      simp only [List.mem_cons, List.not_mem_nil, or_false, Prod.mk.injEq] at member
      obtain ⟨equal, -⟩ | ⟨-, rfl⟩ := member
      · exact absurd equal other
      · have foreign := sharedRequest_rival rival_exponents rivalModulus_bits shared.symm nonzero below []
        obtain rfl := Except.ok.inj (foreign.symm.trans answered)
        have fits : sharedBlinded recordedModulus ^ rivalExponent % rivalModulus < 256 ^ rsaModulusSize :=
          (Nat.mod_lt _ rival_exponents.odd.pos).trans (by decide +kernel)
        rintro ⟨accepted, finalizes⟩
        have rejected := @sharedData_rejects _ _ inverse _ recorded_exponents recordedModulus_bits fits
          rival_large
        cases rejected.symm.trans finalizes)
  obtain ⟨response, answered, token, finalized⟩ := settled.mpr (by
    rw [both]
    exact @unrivalled_first sharedBackend.toCryptoBackend _ _ _ _ _)
  exact ⟨multi, inverse, response, token, runs, created, answered, finalized⟩

/-- A key that was added before and has the same truncated id answers the request, and its response
does not finalize. -/
theorem issue_finalizes_rival :
    ∃ multi inverse own token foreign,
      (@machine sharedBackend.toCryptoBackend).Runs (fun _ _ => True) {}
        [(.addKey (sharedKey rivalModulus rivalExponent), .ok ()),
          (.addKey (sharedKey recordedModulus recordedExponent), .ok ())] multi ∧
      @PublicClient.createTokenRequest sharedBackend.toRsaBackend sharedDraws pssChallenge
        ⟨some (pssKey recordedModulus none), pssSpki recordedModulus⟩ =
          .ok ⟨sharedRequest recordedModulus, sharedData recordedModulus inverse⟩ ∧
      @IssuerKey.issue sharedBackend.toCryptoBackend [] (sharedRequest recordedModulus)
        (sharedKey recordedModulus recordedExponent) = .ok own ∧
      @IssuerKey.finalize sharedBackend own (sharedData recordedModulus inverse)
        (sharedKey recordedModulus recordedExponent) = .ok token ∧
      @issue sharedBackend.toCryptoBackend multi (fun _ => []) (sharedRequest recordedModulus) =
        .ok foreign ∧
      @IssuerKey.finalize sharedBackend foreign (sharedData recordedModulus inverse)
        (sharedKey recordedModulus recordedExponent) =
          .error ⟨.unblindingFailed, "Blind signature out of range"⟩ := by
  have rivalNamed := sharedKey_keyId rival_exponents rivalModulus_bits
  have named := sharedKey_keyId recorded_exponents recordedModulus_bits
  obtain ⟨inverse, own, token, created, issued, finalized⟩ :=
    sharedRequest_created recorded_exponents recordedModulus_bits
  have empty : (@machine sharedBackend.toCryptoBackend).Runs (fun _ _ => True) {} [] {} := .start
  obtain ⟨one, first⟩ := @runs_addBlindRsaKey sharedBackend _ _ _ _ empty rivalNamed
  obtain ⟨multi, runs⟩ := @runs_addBlindRsaKey sharedBackend _ _ _ _ first named
  obtain ⟨different, shared, nonzero, below⟩ := recordedModulus_rival
  have foreign := sharedRequest_rival rival_exponents rivalModulus_bits shared.symm nonzero below []
  have fits : sharedBlinded recordedModulus ^ rivalExponent % rivalModulus < 256 ^ rsaModulusSize :=
    (Nat.mod_lt _ rival_exponents.odd.pos).trans (by decide +kernel)
  exact ⟨multi, inverse, own, token, _, runs, created, issued [], finalized,
    @issue_first sharedBackend multi _ _ _ _ rivalNamed named different shared runs _ _ _ foreign,
    sharedData_rejects recorded_exponents recordedModulus_bits fits rival_large⟩

end Instances

end MultiKeyIssuer
end PrivacyPass
