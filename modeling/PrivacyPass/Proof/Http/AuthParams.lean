import PrivacyPass.Proof.Http.Grammar

/-
This file proves that the headers read every rendered list of authentication parameters.
-/

namespace PrivacyPass.Http

section Splitting

/-- The splitter takes the text into its challenge without a cut. -/
def Passes (text : Bytes) : Prop := ∀ challenge rest,
  splitLoop false false challenge (text ++ rest) = splitLoop false false (challenge ++ text) rest

theorem Passes.append {front back : Bytes} (first : Passes front) (second : Passes back) :
    Passes (front ++ back) := by
  intro challenge rest
  rw [List.append_assoc, first, second, List.append_assoc]

theorem passes_nil : Passes [] := fun challenge rest => by rw [List.nil_append, List.append_nil]

theorem passes_unquoted {text : Bytes} (plain : ∀ char ∈ text, char ≠ quote ∧ char ≠ comma) :
    Passes text := splitLoop_unquoted plain

theorem passes_token (token : TokenText) : Passes token.text :=
  passes_unquoted fun char member =>
    ⟨(isTchar_other (token.tchars char member)).1, (isTchar_other (token.tchars char member)).2.1⟩

theorem passes_blanks (blanks : Blanks) : Passes blanks.text :=
  passes_unquoted fun char member => by
    have blank := blanks.blank char member
    constructor
    · rintro rfl
      exact absurd blank (by decide)
    · rintro rfl
      exact absurd blank (by decide)

/-- Inside quotes the splitter follows the escapes as the parser does. -/
theorem splitLoop_render (chars : List QuotedChar) (challenge rest : Bytes) :
    splitLoop true false challenge (chars.flatMap QuotedChar.render ++ rest) =
      splitLoop true false (challenge ++ chars.flatMap QuotedChar.render) rest := by
  induction chars generalizing challenge with
  | nil => simp
  | cons quoted chars ih =>
      rw [List.flatMap_cons, List.append_assoc, QuotedChar.render]
      split
      · rw [List.cons_append, List.singleton_append, splitLoop, if_neg Bool.false_ne_true,
          if_pos (by simp), splitLoop, if_pos rfl, ih, List.append_assoc, List.append_assoc]
        rfl
      · next plain =>
          have other : quoted.char ≠ quote ∧ quoted.char ≠ backslash :=
            ⟨fun same => plain (quoted.marked (.inl same)), fun same => plain (quoted.marked (.inr same))⟩
          rw [List.singleton_append, splitLoop, if_neg Bool.false_ne_true, if_neg (by simp [other.2]),
            if_neg other.1, if_pos (by simp), ih, List.append_assoc]

theorem passes_value (value : ParamValue) : Passes value.render := by
  cases value with
  | token token => exact passes_token token
  | quoted chars =>
      intro challenge rest
      rw [ParamValue.render, List.cons_append, List.append_assoc, splitLoop_quote, Bool.not_false,
        splitLoop_render, List.singleton_append, splitLoop_quote, Bool.not_true]
      simp

theorem passes_body (param : Param) : Passes param.body := by
  have sign : Passes [equalsSign] := passes_unquoted (by decide +kernel)
  have whole : param.body = param.name.text ++ (param.before.text ++
      ([equalsSign] ++ (param.after.text ++ param.value.render))) := rfl
  rw [whole]
  exact (passes_token param.name).append ((passes_blanks param.before).append
    (sign.append ((passes_blanks param.after).append (passes_value param.value))))

theorem passes_render (param : Param) : Passes param.render :=
  (passes_blanks param.lead).append ((passes_body param).append (passes_blanks param.trail))

/-- The name of the scheme without the space behind it. -/
def privateToken : TokenText := ⟨ascii "PrivateToken", by decide, by decide +kernel⟩

/-- A text starts with the scheme when its token is the name of the scheme and a space follows. -/
theorem isPrefixOf_token (token : TokenText) {rest : Bytes}
    (ends : ∀ char ∈ rest.head?, isTchar char = false) :
    schemeName.isPrefixOf (token.text ++ rest) = true ↔
      token.text = privateToken.text ∧ rest.head? = some 0x20 := by
  have scheme : schemeName = privateToken.text ++ [0x20] := by decide
  rw [List.isPrefixOf_iff_prefix, scheme]
  constructor
  · intro ⟨tail, whole⟩
    rw [List.append_assoc] at whole
    have same := congrArg (List.takeWhile isTchar) whole
    rw [takeWhile_token token ends, takeWhile_token privateToken (by simp [isTchar])] at same
    rw [← same] at whole ⊢
    exact ⟨rfl, by rw [← List.append_cancel_left whole]; rfl⟩
  · intro ⟨same, space⟩
    obtain ⟨tail, rfl⟩ : ∃ tail, rest = 0x20 :: tail := by
      cases rest with
      | nil => cases space
      | cons char tail => exact ⟨tail, by rw [Option.some.inj space]⟩
    exact ⟨tail, by rw [same, List.append_assoc]; rfl⟩

/-- The name of the parameter and the space behind it look like a scheme. -/
def Param.Marked (param : Param) : Prop :=
  param.name.text = privateToken.text ∧ param.before.text.head? = some 0x20

instance (param : Param) : Decidable param.Marked := inferInstanceAs (Decidable (_ ∧ _))

theorem Param.isPrefixOf_body (param : Param) (rest : Bytes) :
    schemeName.isPrefixOf (param.body ++ rest) = true ↔ param.Marked := by
  have head : (param.before.text ++ equalsSign :: (param.after.text ++ param.value.render) ++ rest).head? =
      some (param.before.text.head?.getD equalsSign) := by
    cases param.before.text <;> rfl
  have space : some (param.before.text.head?.getD equalsSign) = some 0x20 ↔
      param.before.text.head? = some 0x20 := by
    cases param.before.text with
    | nil => decide
    | cons char text => rfl
  rw [Param.body, List.append_assoc, isPrefixOf_token, head, space, Param.Marked]
  intro char member
  rw [head, Option.mem_some_iff] at member
  subst member
  cases shape : param.before.text with
  | nil => decide
  | cons char text =>
      have blank := param.before.blank char (by rw [shape]; exact List.mem_cons_self)
      by_contra tchar
      exact absurd blank (by rw [List.head?_cons, Option.getD_some, Bool.not_eq_false] at tchar
                             simp [(isTchar_other tchar).2.2.2])

/-- The splitter cuts at a comma in front of a scheme name, and it takes every other comma along. -/
theorem splitLoop_cut {text : Bytes} (passes : Passes text) (lead : Blanks) (challenge rest : Bytes)
    (visible : skipBlanks (text ++ rest) = text ++ rest) :
    splitLoop false false challenge (comma :: (lead.text ++ (text ++ rest))) =
      if schemeName.isPrefixOf (text ++ rest) = true then challenge :: splitLoop false false text rest
      else splitLoop false false (challenge ++ comma :: (lead.text ++ text)) rest := by
  have start : skipBlanks (lead.text ++ (text ++ rest)) = text ++ rest := by
    rw [skipBlanks_append, visible]
  split
  · next found =>
      rw [splitLoop, if_neg Bool.false_ne_true, if_neg (by simp), if_neg (by decide),
        if_neg (by simp), start, if_pos found, passes, List.nil_append]
  · next other =>
      rw [Bool.not_eq_true] at other
      rw [splitLoop_comma (by rw [start]; exact other), passes_blanks, passes]
      simp

/-- The splitter cuts in front of a parameter that looks like a scheme. -/
theorem splitLoop_param (param : Param) (challenge rest : Bytes) :
    splitLoop false false challenge (comma :: (param.render ++ rest)) =
      if param.Marked then
        challenge :: splitLoop false false (param.body ++ param.trail.text) rest
      else splitLoop false false (challenge ++ comma :: param.render) rest := by
  have passes := (passes_body param).append (passes_blanks param.trail)
  have visible : skipBlanks (param.body ++ param.trail.text ++ rest) =
      param.body ++ param.trail.text ++ rest := by
    rw [List.append_assoc, skipBlanks_body]
  have found : schemeName.isPrefixOf (param.body ++ param.trail.text ++ rest) = true ↔ param.Marked := by
    rw [List.append_assoc, param.isPrefixOf_body]
  have cut := splitLoop_cut passes param.lead challenge rest visible
  rw [if_congr found rfl rfl] at cut
  rw [Param.render, List.append_assoc]
  exact cut

/-- Parameters that do not look like a scheme stay in their challenge. -/
theorem passes_others {params : List Param} (plain : ∀ param ∈ params, ¬ param.Marked) :
    Passes (params.flatMap fun other => comma :: other.render) := by
  induction params with
  | nil => exact passes_nil
  | cons param params ih =>
      obtain ⟨unmarked, others⟩ := List.forall_mem_cons.mp plain
      have first : Passes (comma :: param.render) := fun challenge rest => by
        rw [List.cons_append, splitLoop_param, if_neg unmarked]
      exact first.append (ih others)

theorem passes_renderParams {params : List Param} (plain : ∀ param ∈ params.tail, ¬ param.Marked) :
    Passes (renderParams params) := by
  cases params with
  | nil => exact passes_nil
  | cons param params => exact (passes_render param).append (passes_others plain)

theorem passes_schemeName : Passes schemeName := passes_unquoted (by decide +kernel)

end Splitting

section Fields

namespace ChallengeHeader

/-- An age that is no number of 32 bits is ignored. -/
def readMaxAge (value : Bytes) : Option UInt32 :=
  match stoul value with
  | some number => if number ≤ 4294967295 then some number.toUInt32 else none
  | none => none

/-- The three names differ, so that each parameter sets its own field. -/
theorem setParam_eq (header : ChallengeHeader) (key value : Bytes) :
    setParam header key value =
      ⟨if key = ascii "challenge" then value else header.challenge,
        if key = ascii "token-key" then some value else header.tokenKey,
        if key = ascii "max-age" then readMaxAge value <|> header.maxAge else header.maxAge⟩ := by
  by_cases first : key = ascii "challenge"
  · rw [setParam, if_pos first, if_pos first, if_neg (by rw [first]; decide),
      if_neg (by rw [first]; decide)]
  by_cases second : key = ascii "token-key"
  · rw [setParam, if_neg first, if_neg first, if_pos second, if_pos second,
      if_neg (by rw [second]; decide)]
  rw [setParam, if_neg first, if_neg first, if_neg second, if_neg second]
  split
  · rw [readMaxAge]
    cases stoul value with
    | none => rfl
    | some number => by_cases fits : number ≤ 4294967295 <;> simp [fits]
  · rfl

theorem setParam_challenge (header : ChallengeHeader) (key value : Bytes) :
    (setParam header key value).challenge =
      if key = ascii "challenge" then value else header.challenge := by
  rw [setParam_eq]

theorem setParam_tokenKey (header : ChallengeHeader) (key value : Bytes) :
    (setParam header key value).tokenKey =
      if key = ascii "token-key" then some value else header.tokenKey := by
  rw [setParam_eq]

theorem setParam_maxAge (header : ChallengeHeader) (key value : Bytes) :
    (setParam header key value).maxAge =
      if key = ascii "max-age" then readMaxAge value <|> header.maxAge else header.maxAge := by
  rw [setParam_eq]

/-- The header has the values of the three parameters that it knows. -/
def ofParams (params : List Param) : ChallengeHeader where
  challenge := (valueOf (ascii "challenge") params).getD []
  tokenKey := valueOf (ascii "token-key") params
  maxAge := (valueOf (ascii "max-age") params).bind readMaxAge

theorem updateAll_setParam {params : List Param}
    (distinct : (params.map fun param => param.name.text).Nodup) :
    updateAll setParam {} params = ofParams params := by
  have challenge := updateAll_field (ascii "challenge") ChallengeHeader.challenge (fun value _ => value)
    (fun header value => by rw [setParam_challenge, if_pos rfl])
    (fun header key value other => by rw [setParam_challenge, if_neg other]) {} distinct
  have tokenKey := updateAll_field (ascii "token-key") ChallengeHeader.tokenKey (fun value _ => some value)
    (fun header value => by rw [setParam_tokenKey, if_pos rfl])
    (fun header key value other => by rw [setParam_tokenKey, if_neg other]) {} distinct
  have maxAge := updateAll_field (ascii "max-age") ChallengeHeader.maxAge
    (fun value age => readMaxAge value <|> age)
    (fun header value => by rw [setParam_maxAge, if_pos rfl])
    (fun header key value other => by rw [setParam_maxAge, if_neg other]) {} distinct
  generalize updateAll setParam {} params = header at challenge tokenKey maxAge
  rcases header with ⟨text, key, age⟩
  dsimp only at challenge tokenKey maxAge
  rw [challenge, tokenKey, maxAge, ofParams]
  congr 1
  · cases valueOf (ascii "challenge") params <;> rfl
  · cases valueOf (ascii "token-key") params <;> rfl
  · cases valueOf (ascii "max-age") params with
    | none => rfl
    | some value =>
        change (readMaxAge value <|> none) = readMaxAge value
        cases readMaxAge value <;> rfl

/-- A challenge is read from its parameters when the loop ends behind them. -/
theorem parseChallenge_render {params : List Param}
    (distinct : (params.map fun param => param.name.text).Nodup)
    (named : (ofParams params).challenge ≠ []) {tail : Bytes} (ends : Ends tail)
    (stops : parseAuthParam (skipComma tail) = none) :
    parseChallenge (schemeName ++ (renderParams params ++ tail)) = .ok (ofParams params) := by
  have some : params ≠ [] := by
    rintro rfl
    exact named rfl
  obtain ⟨started, dropped⟩ := schemeName_append (renderParams params ++ tail)
  rw [parseChallenge, started, if_neg (by decide), dropped, readParams_render _ some ends,
    readParams_stop stops, updateAll_setParam distinct]
  simp [named]

end ChallengeHeader

/-- A token is read from its parameters. -/
theorem AuthorizationHeader.parse_renderParams {params : List Param}
    (distinct : (params.map fun param => param.name.text).Nodup) {token : Bytes}
    (present : valueOf (ascii "token") params = some token) (nonempty : token ≠ []) :
    parse (schemeName ++ renderParams params) = .ok ⟨token⟩ := by
  have some : params ≠ [] := by
    rintro rfl
    cases present
  have field := @updateAll_field _ _ setParam (ascii "token") AuthorizationHeader.token (fun value _ => value)
    (fun header value => by rw [setParam, if_pos rfl])
    (fun header key value other => by rw [setParam, if_neg other]) {} _ distinct
  rw [present] at field
  have read : readParams setParam {} (renderParams params) = updateAll setParam {} params := by
    have whole := @readParams_render _ setParam {} _ some _ ends_nil
    rw [List.append_nil] at whole
    exact whole.trans readParams_nil
  obtain ⟨started, dropped⟩ := schemeName_append (renderParams params)
  rw [parse, started, if_neg (by decide), dropped, read]
  generalize updateAll setParam {} params = header at field
  rcases header with ⟨text⟩
  cases field
  simp [nonempty]

/-- The splitter leaves a list of parameters that do not look like a scheme in one piece. -/
theorem split_renderParams {params : List Param} (plain : ∀ param ∈ params.tail, ¬ param.Marked) :
    splitPrivateTokenChallenges (schemeName ++ renderParams params) =
      [schemeName ++ renderParams params] := by
  have whole := (passes_schemeName.append (passes_renderParams plain)) [] []
  rw [List.append_nil, List.nil_append, splitLoop] at whole
  exact whole

/-- One challenge is read from a header that the splitter does not cut. -/
theorem ChallengeHeader.parse_renderParams {params : List Param}
    (distinct : (params.map fun param => param.name.text).Nodup)
    (plain : ∀ param ∈ params.tail, ¬ param.Marked) (named : (ofParams params).challenge ≠ []) :
    parse (schemeName ++ renderParams params) = .ok (ofParams params) := by
  have read := parseChallenge_render distinct named ends_nil (by decide)
  rw [List.append_nil] at read
  rw [parse, parseAll, split_renderParams plain]
  simp only [List.mapM_cons, List.mapM_nil, read]
  rfl

end Fields

section Completeness

/-- Both headers read the unescaped values of their parameters from every list of parameters with
different names, however the list is ordered and whatever else stands in it. -/
theorem parse_params {params : List Param}
    (distinct : (params.map fun param => param.name.text).Nodup)
    (other : ∀ param ∈ params, param.name.text ≠ ascii "PrivateToken") :
    (∀ token ∈ params, token.name.text = ascii "token" → token.value.text ≠ [] →
      AuthorizationHeader.parse (ascii "PrivateToken " ++ renderParams params) =
        .ok ⟨token.value.text⟩) ∧
    (∀ challenge ∈ params, challenge.name.text = ascii "challenge" → challenge.value.text ≠ [] →
      ∃ header, ChallengeHeader.parse (ascii "PrivateToken " ++ renderParams params) = .ok header ∧
        header.challenge = challenge.value.text ∧
        (∀ tokenKey ∈ params, tokenKey.name.text = ascii "token-key" →
          header.tokenKey = some tokenKey.value.text) ∧
        ((∀ param ∈ params, param.name.text ≠ ascii "token-key") → header.tokenKey = none)) := by
  constructor
  · intro token member named some
    exact AuthorizationHeader.parse_renderParams distinct
      ((valueOf_eq_some distinct).mpr ⟨token, member, named, rfl⟩) some
  · intro challenge member named some
    have present := (valueOf_eq_some distinct).mpr ⟨challenge, member, named, rfl⟩
    have text : (ChallengeHeader.ofParams params).challenge = challenge.value.text := by
      rw [ChallengeHeader.ofParams, present, Option.getD_some]
    refine ⟨_, ChallengeHeader.parse_renderParams distinct ?_ (by rwa [text]), text, ?_, ?_⟩
    · intro param inside marked
      exact other param (List.mem_of_mem_tail inside) marked.1
    · intro tokenKey inside keyed
      exact (valueOf_eq_some distinct).mpr ⟨tokenKey, inside, keyed, rfl⟩
    · exact valueOf_eq_none.mpr

def noBlanks : Blanks := ⟨[], by simp⟩

def oneBlank : Blanks := ⟨[0x20], by decide +kernel⟩

/-- A quoted string with escapes where they must be. -/
def quotedValue (text : Bytes) : ParamValue :=
  .quoted (text.map fun char => ⟨char, char = quote ∨ char = backslash, by simp⟩)

def realmName : TokenText := ⟨ascii "realm", by decide, by decide +kernel⟩

def challengeName : TokenText := ⟨ascii "challenge", by decide, by decide +kernel⟩

def tokenKeyName : TokenText := ⟨ascii "token-key", by decide, by decide +kernel⟩

/-- The realm holds a quote, a comma and the name of the scheme, and it stands before the challenge. -/
def sampleParams : List Param := [
  ⟨realmName, quotedValue (ascii "\", PrivateToken token=x"), noBlanks, noBlanks, noBlanks, noBlanks⟩,
  ⟨tokenKeyName, .token ⟨ascii "key", by decide, by decide +kernel⟩, oneBlank, oneBlank, oneBlank,
    oneBlank⟩,
  ⟨challengeName, quotedValue (ascii "abc"), oneBlank, noBlanks, oneBlank, noBlanks⟩]

/-- The challenge and the token key are read behind the realm. -/
theorem parse_params_sample :
    ∃ header, ChallengeHeader.parse (ascii "PrivateToken " ++ renderParams sampleParams) = .ok header ∧
      header.challenge = ascii "abc" ∧ header.tokenKey = some (ascii "key") := by
  have complete := @parse_params sampleParams (by decide +kernel) (by decide +kernel)
  have present : sampleParams[2] ∈ sampleParams := List.getElem_mem _
  obtain ⟨header, read, challenge, tokenKey, -⟩ := complete.2 _ present rfl (by decide)
  exact ⟨header, read, challenge, tokenKey sampleParams[1] (List.getElem_mem _) rfl⟩

end Completeness

end PrivacyPass.Http
