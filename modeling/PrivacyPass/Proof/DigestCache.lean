import PrivacyPass.Construction.ChallengeObjects
import PrivacyPass.Proof.ChallengeAgreement

/-
This file proves when the cached digest of a challenge is the digest of the challenge.
-/

namespace PrivacyPass.TokenChallenge

open Library

/-- The fields of an object stand beside its cache. -/
def cell (challenge : TokenChallenge) : Memo.Cell TokenChallenge ChallengeDigest :=
  ⟨{ challenge with cachedDigest := none }, challenge.cachedDigest⟩

theorem cell_assign (challenge : TokenChallenge) (field : Field) :
    (challenge.assign field).cell =
      { challenge.cell with value := challenge.cell.value.assign field } := by
  cases field <;> rfl

theorem update_cell (memory : Nat → TokenChallenge) (target : Nat) (challenge : TokenChallenge) :
    (fun object => (Function.update memory target challenge object).cell) =
      Function.update (fun object => (memory object).cell) target challenge.cell := by
  funext object
  by_cases same : object = target
  · subst same
    rw [Function.update_self, Function.update_self]
  · rw [Function.update_of_ne same, Function.update_of_ne same]

section Coherence

variable [Crypto.HashBackend]

/-- The digest of the fields as they are. -/
def digestOf (challenge : TokenChallenge) : Result ChallengeDigest := do
  let serialized ← challenge.serialize
  Crypto.sha256 serialized

theorem digestOf_ok {challenge : TokenChallenge} {serialized : Bytes}
    (written : challenge.serialize = .ok serialized) :
    digestOf challenge = Crypto.sha256 serialized := by
  rw [digestOf, written]
  rfl

theorem digestOf_error {challenge : TokenChallenge} {error : Error}
    (written : challenge.serialize = .error error) : digestOf challenge = .error error := by
  rw [digestOf, written]
  rfl

/-- The cache does not enter the encoding. -/
theorem digestOf_cell (challenge : TokenChallenge) : digestOf challenge.cell.value = digestOf challenge :=
  rfl

/-- The digest is a read of the cell. -/
theorem digest_cell (challenge : TokenChallenge) :
    (challenge.cell.read digestOf).1 = challenge.digest.1 ∧
      (challenge.cell.read digestOf).2 = challenge.digest.2.cell := by
  obtain ⟨type, issuer, context, origins, cached⟩ := challenge
  unfold digest cell Memo.Cell.read
  cases cached with
  | some digest => exact ⟨rfl, rfl⟩
  | none =>
      cases written : serialize ⟨type, issuer, context, origins, none⟩ with
      | error error => simp [digestOf_error written]
      | ok serialized => cases hashed : Crypto.sha256 serialized <;> simp [digestOf_ok written, hashed]

/-- An answer is current when it reports what the encoding of the fields at this moment hashes to. -/
def Current (challenge : TokenChallenge) (answer : Result ChallengeDigest) : Prop :=
  (∀ digest, answer = .ok digest →
    ∃ serialized, challenge.serialize = .ok serialized ∧ Crypto.sha256 serialized = .ok digest) ∧
  ∀ error, challenge.serialize = .error error → ∃ reason, answer = .error reason

/-- A digest is current exactly when the fields have it. -/
theorem current_ok {challenge : TokenChallenge} {digest : ChallengeDigest} :
    Current challenge (.ok digest) ↔ digestOf challenge = .ok digest := by
  unfold Current
  cases written : challenge.serialize with
  | error error => simp [digestOf_error written]
  | ok serialized => simp [digestOf_ok written]

/-- The digest of the fields as they are is current, and so is its failure. -/
theorem current_digestOf (challenge : TokenChallenge) : Current challenge (digestOf challenge) := by
  cases computed : digestOf challenge with
  | ok digest => exact current_ok.mpr computed
  | error error => simp [Current]

/-- A digest is current exactly when it is the digest of the fields as they are. -/
theorem current_digest_eq (challenge : TokenChallenge) :
    Current challenge challenge.digest.1 ↔ challenge.digest.1 = digestOf challenge := by
  cases cached : challenge.cachedDigest with
  | none =>
      have answer : challenge.digest.1 = digestOf challenge := by
        rw [← (digest_cell challenge).1, Memo.Cell.read, cell, cached]
        cases computed : digestOf { challenge with cachedDigest := none } <;> exact computed.symm
      rw [answer]
      exact iff_of_true (current_digestOf challenge) rfl
  | some digest =>
      have answer : challenge.digest.1 = .ok digest := by
        rw [TokenChallenge.digest, cached]
      rw [answer, current_ok, eq_comm]

/-- A digest is current exactly when the fields that filled the cache have the same digest. -/
theorem current_digest_iff {challenge : TokenChallenge} {image : Memo.Cell TokenChallenge TokenChallenge}
    (follows : Memo.Follows digestOf challenge.cell image) : Current challenge challenge.digest.1 ↔
      ∀ source, image.kept = some source → digestOf image.value = digestOf source := by
  have answer : challenge.digest.1 = (image.readSource digestOf).1 :=
    (digest_cell challenge).1.symm.trans follows.read.1
  rw [current_digest_eq, answer, ← digestOf_cell, follows.1]
  exact Memo.readSource_eq_iff

/-- Each variable is its cell, whatever has happened before. -/
def Cells (_history : List (Memo.Call Nat Field × Option (Result ChallengeDigest)))
    (memory : Nat → TokenChallenge) (cells : Nat → Memo.Cell TokenChallenge ChallengeDigest) : Prop :=
  (fun object => (memory object).cell) = cells

/-- The fields and the cache of each object change as a cell does. -/
theorem objects_cells (memory : Nat → TokenChallenge) (call : Memo.Call Nat Field) :
    (objects.step memory call).1 = ((Memo.machine assign (Memo.Cell.read digestOf)).step
        (fun object => (memory object).cell) call).1 ∧
      (fun object => ((objects.step memory call).2 object).cell) =
        ((Memo.machine assign (Memo.Cell.read digestOf)).step
          (fun object => (memory object).cell) call).2 := by
  cases call with
  | change target field =>
      refine ⟨rfl, (update_cell memory target _).trans ?_⟩
      rw [cell_assign]
      rfl
  | copy target source => exact ⟨rfl, update_cell memory target _⟩
  | read object =>
      obtain ⟨answer, after⟩ := digest_cell (memory object)
      refine ⟨congrArg some answer.symm, (update_cell memory object _).trans ?_⟩
      rw [← after]
      rfl

variable {initial : Nat → TokenChallenge}
  {history : List (Memo.Call Nat Field × Option (Result ChallengeDigest))}
  {memory : Nat → TokenChallenge}

/-- This run records the fields that an object had when its cache was filled. -/
def Sources (initial : Nat → TokenChallenge)
    (history : List (Memo.Call Nat Field × Option (Result ChallengeDigest)))
    (image : Nat → Memo.Cell TokenChallenge TokenChallenge) : Prop :=
  (Memo.machine assign (Memo.Cell.readSource digestOf)).Runs (fun _ _ => True)
    (fun object => .fresh (initial object)) history image

/-- The caches of a run hold the digests of the recorded fields. -/
theorem runs_sources (fresh : ∀ object, (initial object).cachedDigest = none)
    (runs : objects.Runs (fun _ _ => True) initial history memory) :
    ∃ image, Sources initial history image ∧
      ∀ object, Memo.Follows digestOf (memory object).cell (image object) := by
  have start : Cells [] initial fun object => .fresh (initial object) := by
    funext object
    rw [cell, fresh object]
    congr
    rw [← fresh object]
  have simulated : ∃ cells, (Memo.machine assign (Memo.Cell.read digestOf)).Runs (fun _ _ => True)
      (fun object => .fresh (initial object)) history cells ∧ Cells history memory cells := by
    apply runs.simulate start
    intro _ memory _ call same _
    subst same
    exact objects_cells memory call
  obtain ⟨cells, shadow, rfl⟩ := simulated
  exact Memo.run_follows shadow

/-- A digest call fits when the object is read for the first time, or when its fields still encode to
bytes with the digest of the fields that filled the cache. -/
def Fits (initial : Nat → TokenChallenge)
    (past : List (Memo.Call Nat Field × Option (Result ChallengeDigest)))
    (call : Memo.Call Nat Field) : Prop :=
  ∀ object image source, call = .read object → Sources initial past image →
    (image object).kept = some source → digestOf (image object).value = digestOf source

/-- A digest call of a run answers for the fields at this moment exactly when it fits. -/
theorem current_iff_fits {object : Nat} (fresh : ∀ object, (initial object).cachedDigest = none)
    (runs : objects.Runs (fun _ _ => True) initial history memory) :
    Current (memory object) (memory object).digest.1 ↔ Fits initial history (.read object) := by
  obtain ⟨image, sources, follows⟩ := runs_sources fresh runs
  rw [current_digest_iff (follows object)]
  constructor
  · rintro same _ other source ⟨⟩ recorded kept
    rw [recorded.unique sources] at kept ⊢
    exact same source kept
  · intro fits source kept
    exact fits object image source rfl sources kept

/-- All digests of a run are current exactly when all its digest calls fit. -/
theorem digests_current_iff (fresh : ∀ object, (initial object).cachedDigest = none)
    (runs : objects.Runs (fun _ _ => True) initial history memory) :
    (∀ before object answer after middle, history = before ++ (.read object, answer) :: after →
      objects.Runs (fun _ _ => True) initial before middle →
        ∃ digest, answer = some digest ∧ Current (middle object) digest) ↔
      Machine.Each (Fits initial) history := by
  constructor
  · rintro current before ⟨call, answer⟩ after rfl
    obtain ⟨middle, reached, -, answered, -⟩ := runs.split
    cases call with
    | change target field => exact fun object image source impossible => nomatch impossible
    | copy target source => exact fun object image source impossible => nomatch impossible
    | read object =>
        obtain ⟨digest, same, fine⟩ := current before object answer after middle rfl reached
        obtain rfl : digest = (middle object).digest.1 :=
          Option.some.inj (same.symm.trans answered)
        exact (current_iff_fits fresh reached).mp fine
  · rintro fit before object answer after middle rfl reached
    obtain ⟨state, earlier, -, answered, -⟩ := runs.split
    obtain rfl := earlier.unique reached
    exact ⟨_, answered, (current_iff_fits fresh reached).mpr (fit before _ after rfl)⟩

/-- Where no call assigns to an object with a filled cache, each object has its current digest. -/
theorem digest_current_of_untouched (fresh : ∀ object, (initial object).cachedDigest = none)
    (runs : objects.Runs (fun _ _ => True) initial history memory)
    (untouched : Machine.Each (Memo.Untouched assign digestOf (fun _ _ => True) initial) history)
    (object : Nat) : Current (memory object) (memory object).digest.1 := by
  apply (current_iff_fits fresh runs).mpr
  intro other image source _ recorded kept
  rw [Memo.source_eq_value recorded untouched other kept]

end Coherence

section Instances

/-- Each object of this memory is the challenge with the origin entries `a` and `b`. -/
def singleCommaObjects : Nat → TokenChallenge := fun _ =>
  create .blindRsa [0x69] none [[0x61], [0x62]]

theorem singleCommaDigest_length : (BigEndian.toBytes 32
    0xf3391f53028b31fce5dbd0c1625762812118a23319fe2602ab9ecedeefe79b4f).length = 32 :=
  BigEndian.toBytes_length _ _

def singleCommaDigest : ChallengeDigest :=
  ⟨BigEndian.toBytes 32 0xf3391f53028b31fce5dbd0c1625762812118a23319fe2602ab9ecedeefe79b4f,
    singleCommaDigest_length⟩

/-- A digested object takes the single entry `a,b`, which has the same encoding. -/
def joinedHistory : List (Memo.Call Nat Field × Option (Result ChallengeDigest)) :=
  [(.read 0, some (.ok singleCommaDigest)), (.change 0 (.originInfo [[0x61, comma, 0x62]]), none),
    (.read 0, some (.ok singleCommaDigest))]

theorem joinedHistory_runs : ∃ memory,
    (@objects singleCommaHash).Runs (fun _ _ => True) singleCommaObjects joinedHistory memory := by
  have first : ((@objects singleCommaHash).step singleCommaObjects (.read 0)).1 =
      some (.ok singleCommaDigest) := by decide +kernel
  have empty : (@objects singleCommaHash).Runs (fun _ _ => True) singleCommaObjects []
      singleCommaObjects := .start
  have read := empty.next trivial (Prod.ext first rfl)
  have joined := read.step (.change 0 (.originInfo [[0x61, comma, 0x62]])) trivial
  refine ⟨_, joined.next trivial (Prod.ext ?_ rfl)⟩
  decide +kernel

/-- The comparison applies to a run that joins the origin entries of a digested object. -/
theorem digests_current_iff_joined :
    (∀ before object answer after middle, joinedHistory = before ++ (.read object, answer) :: after →
      (@objects singleCommaHash).Runs (fun _ _ => True) singleCommaObjects before middle →
        ∃ digest, answer = some digest ∧ @Current singleCommaHash (middle object) digest) ↔
      Machine.Each (@Fits singleCommaHash singleCommaObjects) joinedHistory := by
  obtain ⟨memory, runs⟩ := joinedHistory_runs
  exact @digests_current_iff singleCommaHash _ _ _ (fun _ => rfl) runs

/-- The first object is read, and its issuer name becomes empty. -/
def emptiedObjects : Nat → TokenChallenge :=
  ((@objects singleCommaHash).step ((@objects singleCommaHash).step singleCommaObjects (.read 0)).2
    (.change 0 (.issuerName []))).2

theorem emptiedObjects_digest : (@digest singleCommaHash (emptiedObjects 0)).1.isOk = true := by
  decide +kernel

/-- A digested object without an issuer name still has a digest, but no encoding. -/
theorem digest_outlives_encoding :
    ¬ ∀ initial history memory object, (∀ object, (initial object).cachedDigest = none) →
      (@objects singleCommaHash).Runs (fun _ _ => True) initial history memory →
        @Current singleCommaHash (memory object) (@digest singleCommaHash (memory object)).1 := by
  intro always
  have empty : (@objects singleCommaHash).Runs (fun _ _ => True) singleCommaObjects []
      singleCommaObjects := .start
  have emptied := (empty.step (.read 0) trivial).step (.change 0 (.issuerName [])) trivial
  obtain ⟨reason, failed⟩ := (always _ _ emptiedObjects 0 (fun _ => rfl) emptied).2 _ rfl
  have answered := emptiedObjects_digest
  rw [failed] at answered
  cases answered

end Instances

end PrivacyPass.TokenChallenge
