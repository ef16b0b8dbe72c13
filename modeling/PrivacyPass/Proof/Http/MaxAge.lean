import PrivacyPass.Proof.Http.AuthParams

/-
This file proves when the age of a challenge is read as the decimal number that it is.
-/

namespace PrivacyPass.Http

section Loop

variable {α : Type} (update : α → Bytes → Bytes → α)

/-- These are the parameters that the loop reads. -/
def readAll (input : Bytes) : List (Bytes × Bytes) :=
  readParams (fun params key value => params ++ [(key, value)]) [] input

/-- The loop changes the header with one parameter after another. -/
theorem readParams_eq_foldl (header : α) (input : Bytes) : readParams update header input =
    (readAll input).foldl (fun header param => update header param.1 param.2) header := by
  have longer (start : List (Bytes × Bytes)) :
      readParams update (start.foldl (fun header param => update header param.1 param.2) header) input =
        (readParams (fun params key value => params ++ [(key, value)]) start input).foldl
          (fun header param => update header param.1 param.2) header := by
    induction start, input using readParams.induct (fun params key value => params ++ [(key, value)]) with
    | case1 start input stops =>
        rw [readParams_stop stops, readParams_stop stops]
    | case2 start input key value rest found ih =>
        rw [readParams_step found, readParams_step found, ← ih, List.foldl_append]
        rfl
  exact longer []

end Loop

section Numbers

/-- White space, a sign, some digits and a rest make up the text. -/
structure Reads (text spaces sign digits rest : Bytes) : Prop where
  whole : text = spaces ++ (sign ++ (digits ++ rest))
  blank : ∀ char ∈ spaces, isSpace char = true
  signed : sign = [] ∨ sign = [0x2B] ∨ sign = [0x2D]
  nonempty : digits ≠ []
  numeric : ∀ char ∈ digits, isDigit char = true
  ends : ∀ char ∈ rest.head?, isDigit char = false

/-- A minus sign negates the number modulo the 64-bit range. -/
def signedValue (sign digits : Bytes) : Nat :=
  if sign = [0x2D] then (18446744073709551616 - digitsValue digits) % 18446744073709551616
  else digitsValue digits

/-- The conversion takes one sign off. -/
def splitSign : Bytes → Bool × Bytes
  | [] => (false, [])
  | sign :: rest =>
      if sign = 0x2D then (true, rest) else if sign = 0x2B then (false, rest) else (false, sign :: rest)

theorem stoul_eq (text : Bytes) : stoul text =
    if (splitSign (text.dropWhile isSpace)).2.takeWhile isDigit = [] then none
    else if digitsValue ((splitSign (text.dropWhile isSpace)).2.takeWhile isDigit) >
      18446744073709551615 then none
    else if (splitSign (text.dropWhile isSpace)).1 then some ((18446744073709551616 -
      digitsValue ((splitSign (text.dropWhile isSpace)).2.takeWhile isDigit)) % 18446744073709551616)
    else some (digitsValue ((splitSign (text.dropWhile isSpace)).2.takeWhile isDigit)) := by
  unfold stoul
  cases text.dropWhile isSpace <;> rfl

variable {text spaces sign digits rest : Bytes}

/-- The digits of a reading follow its sign. -/
theorem Reads.splitSign (reads : Reads text spaces sign digits rest) :
    splitSign (text.dropWhile isSpace) = (decide (sign = [0x2D]), digits ++ rest) := by
  obtain ⟨rfl, blank, signed, nonempty, numeric, -⟩ := reads
  obtain ⟨char, tail, rfl⟩ := List.exists_cons_of_ne_nil nonempty
  obtain ⟨solid, minus, plus, -⟩ := isDigit_other (numeric char List.mem_cons_self)
  rw [List.dropWhile_append_of_pos blank]
  rcases signed with rfl | rfl | rfl
  · rw [List.nil_append, List.cons_append, List.dropWhile_cons, solid]
    exact (if_neg minus).trans (if_neg plus)
  · rfl
  · rfl

/-- The conversion returns the number of the reading unless it overflows. -/
theorem Reads.stoul (reads : Reads text spaces sign digits rest) : stoul text =
    if digitsValue digits > 18446744073709551615 then none else some (signedValue sign digits) := by
  have taken : (digits ++ rest).takeWhile isDigit = digits := by
    rw [List.takeWhile_append_of_pos reads.numeric, List.append_right_eq_self]
    have ends := reads.ends
    cases rest with
    | nil => rfl
    | cons other rest => rw [List.takeWhile_cons, ends other rfl]; rfl
  rw [stoul_eq, reads.splitSign, taken, if_neg reads.nonempty, signedValue]
  simp only [decide_eq_true_eq, ← apply_ite some]

/-- The conversion finds a reading of the text or throws. -/
theorem exists_reads {number : Nat} (converted : Http.stoul text = some number) :
    ∃ spaces sign digits rest, Reads text spaces sign digits rest := by
  have whole : text = text.takeWhile isSpace ++ text.dropWhile isSpace :=
    List.takeWhile_append_dropWhile.symm
  have reading {sign unsigned : Bytes} (trimmed : text.dropWhile isSpace = sign ++ unsigned)
      (signed : sign = [] ∨ sign = [0x2B] ∨ sign = [0x2D]) (some : unsigned.takeWhile isDigit ≠ []) :
      ∃ spaces sign digits rest, Reads text spaces sign digits rest := by
    refine ⟨text.takeWhile isSpace, sign, _, unsigned.dropWhile isDigit, ?_,
      fun char => List.mem_takeWhile_imp, signed, some, fun char => List.mem_takeWhile_imp, ?_⟩
    · rw [List.takeWhile_append_dropWhile, ← trimmed]
      exact whole
    · intro char member
      have first := List.head?_dropWhile_not isDigit unsigned
      rw [Option.mem_def.mp member] at first
      exact first
  rw [stoul_eq] at converted
  split at converted
  · cases converted
  · next some =>
      cases trimmed : text.dropWhile isSpace with
      | nil =>
          rw [trimmed] at some
          exact absurd rfl some
      | cons sign unsigned =>
          rw [trimmed, Http.splitSign] at some
          split at some
          · next minus => exact reading (by rw [trimmed, minus]; rfl) (.inr (.inr rfl)) some
          split at some
          · next plus => exact reading (by rw [trimmed, plus]; rfl) (.inr (.inl rfl)) some
          · exact reading trimmed (.inl rfl) some

/-- The text is a decimal number, and it fits into the age. -/
def Denotes (text : Bytes) (age : UInt32) : Prop :=
  text ≠ [] ∧ (∀ char ∈ text, isDigit char = true) ∧ digitsValue text = age.toNat

/-- The number of the reading fits into the age. -/
def InRange (sign digits : Bytes) : Prop :=
  digitsValue digits ≤ 18446744073709551615 ∧ signedValue sign digits ≤ 4294967295

theorem Reads.readMaxAge (reads : Reads text spaces sign digits rest) (inRange : InRange sign digits) :
    ChallengeHeader.readMaxAge text = some (signedValue sign digits).toUInt32 := by
  rw [ChallengeHeader.readMaxAge, reads.stoul, if_neg (Nat.not_lt.mpr inRange.1)]
  exact if_pos inRange.2

/-- An age is the number of a reading in range. -/
theorem readMaxAge_eq_some {age : UInt32} (read : ChallengeHeader.readMaxAge text = some age) :
    ∃ spaces sign digits rest, Reads text spaces sign digits rest ∧ InRange sign digits ∧
      signedValue sign digits = age.toNat := by
  unfold ChallengeHeader.readMaxAge at read
  split at read
  · next number converted =>
      split at read
      · next small =>
          obtain ⟨spaces, sign, digits, rest, reads⟩ := exists_reads converted
          rw [reads.stoul] at converted
          split at converted
          · cases converted
          · next fits =>
              cases converted
              refine ⟨spaces, sign, digits, rest, reads, ⟨Nat.le_of_not_lt fits, small⟩, ?_⟩
              rw [← Option.some.inj read]
              exact (UInt32.toNat_ofNat_of_lt' (Nat.lt_succ_of_le small)).symm
      · cases read
  · cases read

theorem reads_of_digits (nonempty : text ≠ []) (numeric : ∀ char ∈ text, isDigit char = true) :
    Reads text [] [] text [] :=
  ⟨by simp, by simp, .inl rfl, nonempty, numeric, by simp⟩

/-- A decimal number has no reading with anything but digits. -/
theorem Reads.eq_nil (reads : Reads text spaces sign digits rest)
    (numeric : ∀ char ∈ text, isDigit char = true) : spaces = [] ∧ sign = [] ∧ rest = [] := by
  obtain ⟨rfl, blank, signed, -, -, ends⟩ := reads
  refine ⟨?_, ?_, ?_⟩
  · apply List.eq_nil_iff_forall_not_mem.mpr
    intro char member
    have solid := (isDigit_other (numeric char (List.mem_append_left _ member))).1
    rw [blank char member] at solid
    cases solid
  · rcases signed with rfl | rfl | rfl
    · rfl
    · exact absurd (numeric 0x2B (by simp)) (by decide)
    · exact absurd (numeric 0x2D (by simp)) (by decide)
  · cases rest with
    | nil => rfl
    | cons char rest =>
        have digit := numeric char (by simp)
        rw [ends char rfl] at digit
        cases digit

/-- The age is the decimal number of the text exactly when each reading in range has only digits. -/
theorem readMaxAge_exact (text : Bytes) :
    (∀ age, ChallengeHeader.readMaxAge text = some age ↔ Denotes text age) ↔
      ∀ spaces sign digits rest, Reads text spaces sign digits rest → InRange sign digits →
        spaces = [] ∧ sign = [] ∧ rest = [] := by
  constructor
  · intro exact spaces sign digits rest reads inRange
    exact reads.eq_nil ((exact _).mp (reads.readMaxAge inRange)).2.1
  · intro plain age
    constructor
    · intro read
      obtain ⟨spaces, sign, digits, rest, reads, inRange, number⟩ := readMaxAge_eq_some read
      obtain ⟨rfl, rfl, rfl⟩ := plain _ _ _ _ reads inRange
      obtain ⟨rfl, -, -, nonempty, numeric, -⟩ := reads
      simp only [List.nil_append, List.append_nil]
      exact ⟨nonempty, numeric, number⟩
    · intro ⟨nonempty, numeric, number⟩
      have small := age.toNat_lt
      have inRange : InRange [] text := by
        constructor
        · omega
        · change digitsValue text ≤ _
          omega
      rw [(reads_of_digits nonempty numeric).readMaxAge inRange]
      change some (digitsValue text).toUInt32 = some age
      rw [number]
      exact congrArg some UInt32.ofNat_toNat

end Numbers

section Headers

namespace ChallengeHeader

/-- These are the parameters that the loop reads from the first challenge of the header. -/
def paramsOf (header : Bytes) : List (Bytes × Bytes) :=
  match splitPrivateTokenChallenges header with
  | [] => []
  | challenge :: _ => readAll (challenge.drop 13)

/-- The result of the parser comes from the parameters of the first challenge. -/
theorem parse_eq_ok {header : Bytes} {result : ChallengeHeader} (read : parse header = .ok result) :
    result = (paramsOf header).foldl (fun header param => setParam header param.1 param.2) {} := by
  rw [parse, Result.bind_eq_ok] at read
  obtain ⟨headers, all, first⟩ := read
  unfold parseAll at all
  unfold paramsOf
  cases pieces : splitPrivateTokenChallenges header with
  | nil =>
      rw [pieces] at all
      cases all
      cases first
  | cons challenge challenges =>
      rw [pieces, List.mapM_cons, Result.bind_eq_ok] at all
      obtain ⟨parsed, here, rest⟩ := all
      obtain ⟨others, -, whole⟩ := Result.bind_eq_ok.mp rest
      cases whole
      cases first
      unfold parseChallenge at here
      split at here
      · cases here
      · dsimp only at here
        split at here
        · cases here
        · rw [← readParams_eq_foldl]
          exact (Except.ok.inj here).symm

/-- Only the ages among the parameters change the age. -/
theorem maxAge_foldl (params : List (Bytes × Bytes)) (header : ChallengeHeader) :
    (params.foldl (fun header param => setParam header param.1 param.2) header).maxAge =
      (params.filter fun param => decide (param.1 = ascii "max-age")).foldl
        (fun age param => readMaxAge param.2 <|> age) header.maxAge := by
  induction params generalizing header with
  | nil => rfl
  | cons param params ih =>
      rw [List.foldl_cons, ih, setParam_maxAge]
      by_cases same : param.1 = ascii "max-age"
      · rw [if_pos same, List.filter_cons_of_pos (by simpa using same), List.foldl_cons]
      · rw [if_neg same, List.filter_cons_of_neg (by simpa using same)]

/-- The age of an accepted header is the decimal number of its one age parameter exactly when the
parameter has no reading in range with white space, a sign or a rest around its digits. -/
theorem parse_maxAge_iff {header : Bytes} {result : ChallengeHeader} {value : Bytes}
    (read : parse header = .ok result)
    (single : (paramsOf header).filter (fun param => decide (param.1 = ascii "max-age")) =
      [(ascii "max-age", value)]) :
    (∀ age, result.maxAge = some age ↔ Denotes value age) ↔
      ∀ spaces sign digits rest, Reads value spaces sign digits rest → InRange sign digits →
        spaces = [] ∧ sign = [] ∧ rest = [] := by
  have age : result.maxAge = readMaxAge value := by
    rw [parse_eq_ok read, maxAge_foldl, single, List.foldl_cons, List.foldl_nil]
    change (readMaxAge value <|> none) = readMaxAge value
    cases readMaxAge value <;> rfl
  rw [age]
  exact readMaxAge_exact value

end ChallengeHeader

/-- The loop reads the rendered parameters. -/
theorem paramsOf_renderParams {params : List Param} (nonempty : params ≠ [])
    (plain : ∀ param ∈ params.tail, ¬ param.Marked) :
    ChallengeHeader.paramsOf (schemeName ++ renderParams params) =
      params.map fun param => (param.name.text, param.value.text) := by
  have appended (start : List (Bytes × Bytes)) :
      updateAll (fun params key value => params ++ [(key, value)]) start params =
        start ++ params.map fun param => (param.name.text, param.value.text) := by
    clear nonempty plain
    induction params generalizing start with
    | nil => rw [List.map_nil, List.append_nil]; rfl
    | cons param params ih =>
        have rest := ih (start ++ [(param.name.text, param.value.text)])
        rw [List.append_assoc] at rest
        exact rest
  have whole := @readParams_render _ (fun params key value => params ++ [(key, value)])
    ([] : List (Bytes × Bytes)) _ nonempty _ ends_nil
  rw [List.append_nil, appended, List.nil_append] at whole
  rw [ChallengeHeader.paramsOf, split_renderParams plain]
  change readAll ((schemeName ++ renderParams params).drop 13) = _
  rw [(schemeName_append _).2, readAll, whole]
  exact readParams_nil

def maxAgeName : TokenText := ⟨ascii "max-age", by decide, by decide +kernel⟩

/-- These parameters carry a challenge and an age. -/
def agedParams (age : Bytes) : List Param := [
  ⟨challengeName, quotedValue (ascii "abc"), noBlanks, noBlanks, noBlanks, noBlanks⟩,
  ⟨maxAgeName, quotedValue age, noBlanks, noBlanks, noBlanks, noBlanks⟩]

/-- The age of the header is what the loop makes of its parameter. -/
theorem parse_agedParams {age : Bytes} {result : ChallengeHeader}
    (distinct : ((agedParams age).map fun param => param.name.text).Nodup)
    (fields : ChallengeHeader.ofParams (agedParams age) = result) (named : result.challenge ≠ []) :
    ChallengeHeader.parse (schemeName ++ renderParams (agedParams age)) = .ok result ∧
      ChallengeHeader.paramsOf (schemeName ++ renderParams (agedParams age)) =
        (agedParams age).map fun param => (param.name.text, param.value.text) := by
  have plain : ∀ param ∈ (agedParams age).tail, ¬ param.Marked := by
    intro param member marked
    rw [List.mem_singleton.mp member] at marked
    have other : ascii "max-age" ≠ privateToken.text := by decide
    exact other marked.1
  subst fields
  exact ⟨ChallengeHeader.parse_renderParams distinct plain named,
    paramsOf_renderParams (List.cons_ne_nil _ _) plain⟩

/-- An age of six hundred seconds is read exactly. -/
theorem parse_maxAge_iff_digits :
    ∃ header result, ChallengeHeader.parse header = .ok result ∧
      ((∀ age, result.maxAge = some age ↔ Denotes (ascii "600") age) ↔
        ∀ spaces sign digits rest, Reads (ascii "600") spaces sign digits rest → InRange sign digits →
          spaces = [] ∧ sign = [] ∧ rest = []) := by
  obtain ⟨read, params⟩ := @parse_agedParams (ascii "600") ⟨ascii "abc", none, some 600⟩ (by decide)
    (by decide) (by decide)
  exact ⟨_, _, read, ChallengeHeader.parse_maxAge_iff read (by rw [params]; decide)⟩

/-- An age with letters behind its digits is read as the number of its digits. -/
theorem parse_maxAge_letters :
    ¬ ∀ header result value, ChallengeHeader.parse header = .ok result →
      (ChallengeHeader.paramsOf header).filter (fun param => decide (param.1 = ascii "max-age")) =
        [(ascii "max-age", value)] →
      ∀ age, result.maxAge = some age ↔ Denotes value age := by
  intro always
  obtain ⟨read, params⟩ := @parse_agedParams (ascii "5abc") ⟨ascii "abc", none, some 5⟩ (by decide)
    (by decide) (by decide)
  obtain ⟨-, digits, -⟩ := (always _ _ (ascii "5abc") read (by rw [params]; decide) 5).mp rfl
  exact absurd (digits 0x61 (by decide)) (by decide)

end Headers

end PrivacyPass.Http
