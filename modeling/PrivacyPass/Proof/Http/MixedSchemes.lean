import PrivacyPass.Proof.Http.AuthParams

/-
This file proves when the challenges of the scheme are read from a header that also offers others.
-/

namespace PrivacyPass.Http

section Grammar

/-- A challenge names its scheme and gives its parameters, and no two of them have one name. -/
structure SchemeChallenge where
  scheme : TokenText
  params : List Param
  distinct : (params.map fun param => param.name.text).Nodup
  lead : Blanks
  trail : Blanks

namespace SchemeChallenge

def render (challenge : SchemeChallenge) : Bytes :=
  challenge.scheme.text ++ 0x20 :: (renderParams challenge.params ++ challenge.trail.text)

def IsPrivate (challenge : SchemeChallenge) : Prop := challenge.scheme.text = ascii "PrivateToken"

instance (challenge : SchemeChallenge) : Decidable challenge.IsPrivate :=
  inferInstanceAs (Decidable (_ = _))

/-- The challenge offers a token challenge. -/
def Named (challenge : SchemeChallenge) : Prop :=
  ∃ param ∈ challenge.params, param.name.text = ascii "challenge" ∧ param.value.text ≠ []

/-- No parameter behind the first one looks like a scheme. -/
def Plain (challenge : SchemeChallenge) : Prop := ∀ param ∈ challenge.params.tail, ¬ param.Marked

end SchemeChallenge

/-- The later challenges stand behind a comma each. -/
def renderTail (challenges : List SchemeChallenge) : Bytes :=
  challenges.flatMap fun challenge => comma :: (challenge.lead.text ++ challenge.render)

theorem renderTail_nil : renderTail [] = [] := rfl

theorem renderTail_cons (challenge : SchemeChallenge) (challenges : List SchemeChallenge) :
    renderTail (challenge :: challenges) =
      comma :: (challenge.lead.text ++ (challenge.render ++ renderTail challenges)) := by
  rw [renderTail, List.flatMap_cons, List.cons_append, List.append_assoc]
  rfl

/-- A header starts with its first challenge, without blanks in front of it. -/
def renderChallenges : List SchemeChallenge → Bytes
  | [] => []
  | challenge :: challenges => challenge.render ++ renderTail challenges

end Grammar

section Challenges

variable (challenge : SchemeChallenge)

namespace SchemeChallenge

theorem named_challenge {challenge : SchemeChallenge} (named : challenge.Named) :
    (ChallengeHeader.ofParams challenge.params).challenge ≠ [] := by
  obtain ⟨param, member, same, some⟩ := named
  have present := (valueOf_eq_some challenge.distinct).mpr ⟨param, member, same, rfl⟩
  rwa [ChallengeHeader.ofParams, present, Option.getD_some]

theorem skipBlanks_render (rest : Bytes) :
    skipBlanks (challenge.render ++ rest) = challenge.render ++ rest := by
  rw [render, List.append_assoc]
  exact skipBlanks_token challenge.scheme _

theorem isPrefixOf_render (rest : Bytes) :
    schemeName.isPrefixOf (challenge.render ++ rest) = true ↔ challenge.IsPrivate := by
  rw [render, List.append_assoc, isPrefixOf_token, List.cons_append, List.head?_cons]
  · exact and_iff_left rfl
  · intro char member
    cases member
    decide

/-- The parameters of a private challenge follow the name of the scheme. -/
theorem render_private {challenge : SchemeChallenge} (isPrivate : challenge.IsPrivate) (rest : Bytes) :
    challenge.render ++ rest =
      schemeName ++ (renderParams challenge.params ++ (challenge.trail.text ++ rest)) := by
  have scheme : schemeName = ascii "PrivateToken" ++ [0x20] := by decide
  rw [render, isPrivate, scheme]
  simp only [List.append_assoc, List.cons_append, List.nil_append]

theorem passes {challenge : SchemeChallenge} (plain : challenge.Plain) : Passes challenge.render := by
  have space : Passes [0x20] := passes_unquoted (by decide +kernel)
  exact (passes_token challenge.scheme).append (space.append
    ((passes_renderParams plain).append (passes_blanks challenge.trail)))

end SchemeChallenge

/-- The splitter cuts exactly in front of the private challenges. -/
theorem splitLoop_challenge {challenge : SchemeChallenge} (plain : challenge.Plain)
    (before rest : Bytes) :
    splitLoop false false before (comma :: (challenge.lead.text ++ (challenge.render ++ rest))) =
      if challenge.IsPrivate then before :: splitLoop false false challenge.render rest
      else splitLoop false false
        (before ++ comma :: (challenge.lead.text ++ challenge.render)) rest := by
  have cut := splitLoop_cut (SchemeChallenge.passes plain) challenge.lead before rest
    (challenge.skipBlanks_render rest)
  rwa [if_congr (challenge.isPrefixOf_render rest) rfl rfl] at cut

end Challenges

section Stopping

theorem rdropWhile_append_cons {char : UInt8} (visible : isBlank char = false) (front back : Bytes) :
    (front ++ char :: back).rdropWhile isBlank = front ++ char :: back.rdropWhile isBlank := by
  simp only [List.rdropWhile, List.reverse_append, List.reverse_cons, List.append_assoc,
    List.dropWhile_append]
  split
  · next empty =>
      rw [List.isEmpty_iff] at empty
      simp [visible, empty]
  · simp

/-- The loop takes no parameter from two words with a blank between them. -/
theorem parseAuthParam_words (token : TokenText) (lead : Blanks) {char : UInt8}
    (visible : isBlank char = false) (other : char ≠ equalsSign) (rest : Bytes) :
    parseAuthParam (token.text ++ 0x20 :: (lead.text ++ char :: rest)) = none := by
  have keptToken : ∀ next ∈ token.text, (next != equalsSign) = true := fun next member =>
    bne_iff_ne.mpr (isTchar_other (token.tchars next member)).2.2.1
  have keptBlank : ∀ next ∈ lead.text, (next != equalsSign) = true := fun next member => by
    have blank := lead.blank next member
    rw [bne_iff_ne]
    rintro rfl
    exact absurd blank (by decide)
  have visibleFirst : (char :: rest).takeWhile (· != equalsSign) =
      char :: rest.takeWhile (· != equalsSign) := by
    rw [List.takeWhile_cons, if_pos (bne_iff_ne.mpr other)]
  have front : (token.text ++ 0x20 :: (lead.text ++ char :: rest)).takeWhile (· != equalsSign) =
      (token.text ++ 0x20 :: lead.text) ++ char :: rest.takeWhile (· != equalsSign) := by
    rw [List.takeWhile_append_of_pos keptToken, List.takeWhile_cons_of_pos (by decide),
      List.takeWhile_append_of_pos keptBlank, visibleFirst, List.append_assoc, List.cons_append]
  have separated : ((token.text ++ 0x20 :: lead.text) ++
      char :: (rest.takeWhile (· != equalsSign)).rdropWhile isBlank).any isSeparator = true :=
    List.any_eq_true.mpr ⟨0x20, by simp, by decide⟩
  unfold parseAuthParam
  simp only [skipBlanks_token, front, rdropWhile_append_cons visible, separated]
  split
  · rfl
  · split <;> rfl

/-- The loop takes no parameter from a word without an equals sign behind it. -/
theorem parseAuthParam_word (token : TokenText) (lead : Blanks) :
    parseAuthParam (token.text ++ 0x20 :: lead.text) = none := by
  have kept : ∀ char ∈ token.text ++ 0x20 :: lead.text, (char != equalsSign) = true := by
    intro char member
    rw [bne_iff_ne]
    rintro rfl
    rcases List.mem_append.mp member with inside | inside
    · exact absurd (token.tchars _ inside) (by decide)
    · rcases List.mem_cons.mp inside with same | blank
      · exact absurd same (by decide)
      · exact absurd (lead.blank _ blank) (by decide)
  unfold parseAuthParam
  simp only [skipBlanks_token, List.dropWhile_eq_nil_iff.mpr kept]

/-- The loop takes no parameter from the challenge of another scheme. -/
theorem parseAuthParam_render (challenge : SchemeChallenge) (others : List SchemeChallenge) :
    parseAuthParam (challenge.render ++ renderTail others) = none := by
  rw [SchemeChallenge.render, List.append_assoc]
  cases shape : challenge.params with
  | cons param params =>
      obtain ⟨char, tail, name⟩ := List.exists_cons_of_ne_nil param.name.nonempty
      have tchar := isTchar_other (param.name.tchars char (by rw [name]; exact List.mem_cons_self))
      have stops := parseAuthParam_words challenge.scheme param.lead tchar.2.2.2 tchar.2.2.1
      rw [renderParams, Param.render, Param.body, name]
      simp only [List.append_assoc, List.cons_append]
      exact stops _
  | nil =>
      cases others with
      | nil =>
          rw [renderParams, renderTail_nil, List.append_nil, List.nil_append]
          exact parseAuthParam_word challenge.scheme challenge.trail
      | cons other others =>
          have stops := @parseAuthParam_words challenge.scheme challenge.trail comma (by decide) (by decide)
          rw [renderParams, renderTail_cons, List.nil_append, List.cons_append]
          exact stops _

/-- The challenges of other schemes end the parameters of the challenge in front of them. -/
theorem parseAuthParam_renderTail (others : List SchemeChallenge) :
    parseAuthParam (skipComma (renderTail others)) = none := by
  cases others with
  | nil => decide
  | cons other others =>
      rw [renderTail_cons, skipComma_cons, skipBlanks_append, SchemeChallenge.skipBlanks_render]
      exact parseAuthParam_render other others

theorem ends_renderTail (others : List SchemeChallenge) : Ends (renderTail others) := by
  cases others with
  | nil => exact ends_nil
  | cons other others => exact ends_comma _

/-- A private challenge is read with the challenges of other schemes behind it. -/
theorem parseChallenge_renderTail {challenge : SchemeChallenge} (isPrivate : challenge.IsPrivate)
    (named : challenge.Named) (others : List SchemeChallenge) :
    ChallengeHeader.parseChallenge (challenge.render ++ renderTail others) =
      .ok (ChallengeHeader.ofParams challenge.params) := by
  rw [SchemeChallenge.render_private isPrivate]
  apply ChallengeHeader.parseChallenge_render challenge.distinct
    (SchemeChallenge.named_challenge named) (ends_blanks (ends_renderTail others))
  rw [skipComma_append]
  exact parseAuthParam_renderTail others

end Stopping

section Success

/-- These headers stand for the private challenges of the list. -/
def privateHeaders (challenges : List SchemeChallenge) : List ChallengeHeader :=
  (challenges.filter fun challenge => decide challenge.IsPrivate).map fun challenge =>
    ChallengeHeader.ofParams challenge.params

theorem privateHeaders_cons (challenge : SchemeChallenge) (challenges : List SchemeChallenge) :
    privateHeaders (challenge :: challenges) =
      if challenge.IsPrivate then
        ChallengeHeader.ofParams challenge.params :: privateHeaders challenges
      else privateHeaders challenges := by
  rw [privateHeaders, List.filter_cons]
  simp only [decide_eq_true_eq]
  split <;> rfl

/-- The pieces of a header are read as its private challenges. -/
theorem mapM_splitLoop {challenge : SchemeChallenge} {others challenges : List SchemeChallenge}
    (isPrivate : challenge.IsPrivate) (named : challenge.Named)
    (plain : ∀ next ∈ challenges, next.Plain)
    (allNamed : ∀ next ∈ challenges, next.IsPrivate → next.Named) :
    (splitLoop false false (challenge.render ++ renderTail others) (renderTail challenges)).mapM
      ChallengeHeader.parseChallenge =
        .ok (ChallengeHeader.ofParams challenge.params :: privateHeaders challenges) := by
  induction challenges generalizing challenge others with
  | nil =>
      have parsed := parseChallenge_renderTail isPrivate named others
      rw [renderTail_nil, splitLoop, List.mapM_cons, List.mapM_nil, Result.bind_ok parsed]
      rfl
  | cons next challenges ih =>
      obtain ⟨plainHere, plainThere⟩ := List.forall_mem_cons.mp plain
      obtain ⟨namedHere, namedThere⟩ := List.forall_mem_cons.mp allNamed
      rw [renderTail_cons, splitLoop_challenge plainHere]
      split
      · next cut =>
          have rest := @ih next [] cut (namedHere cut) plainThere namedThere
          rw [renderTail_nil, List.append_nil] at rest
          rw [List.mapM_cons, Result.bind_ok (parseChallenge_renderTail isPrivate named others),
            Result.bind_ok rest, privateHeaders_cons, if_pos cut]
          rfl
      · next other =>
          have rest := @ih challenge (others ++ [next]) isPrivate named plainThere namedThere
          have longer : renderTail (others ++ [next]) =
              renderTail others ++ comma :: (next.lead.text ++ next.render) := by
            rw [renderTail, List.flatMap_append, List.flatMap_singleton]
            rfl
          rw [List.append_assoc, ← longer, rest, privateHeaders_cons, if_neg other]

/-- A header whose first challenge is private is read as its private challenges. -/
theorem parseAll_renderChallenges {challenge : SchemeChallenge} {challenges : List SchemeChallenge}
    (isPrivate : challenge.IsPrivate) (plain : ∀ next ∈ challenge :: challenges, next.Plain)
    (named : ∀ next ∈ challenge :: challenges, next.IsPrivate → next.Named) :
    ChallengeHeader.parseAll (renderChallenges (challenge :: challenges)) =
      .ok (privateHeaders (challenge :: challenges)) := by
  obtain ⟨plainHere, plainThere⟩ := List.forall_mem_cons.mp plain
  obtain ⟨namedHere, namedThere⟩ := List.forall_mem_cons.mp named
  have read := @mapM_splitLoop challenge [] challenges isPrivate (namedHere isPrivate) plainThere namedThere
  rw [renderTail_nil, List.append_nil] at read
  rw [ChallengeHeader.parseAll, splitPrivateTokenChallenges, renderChallenges,
    SchemeChallenge.passes plainHere, List.nil_append, read, privateHeaders_cons, if_pos isPrivate]

end Success

section Failure

/-- The first piece goes on with what the loop had read. -/
theorem splitLoop_head (inQuote escaped : Bool) (challenge input : Bytes) :
    ∃ more pieces, splitLoop inQuote escaped challenge input = (challenge ++ more) :: pieces := by
  induction inQuote, escaped, challenge, input using splitLoop.induct with
  | case1 inQuote escaped challenge => exact ⟨[], [], by rw [splitLoop, List.append_nil]⟩
  | case2 inQuote challenge char rest ih =>
      obtain ⟨more, pieces, equal⟩ := ih
      exact ⟨char :: more, pieces, by rw [splitLoop, if_pos rfl, equal]; simp⟩
  | case3 inQuote escaped challenge char rest plain slash ih =>
      obtain ⟨more, pieces, equal⟩ := ih
      exact ⟨char :: more, pieces, by rw [splitLoop, if_neg plain, if_pos slash, equal]; simp⟩
  | case4 inQuote escaped challenge rest plain slash ih =>
      obtain ⟨more, pieces, equal⟩ := ih
      exact ⟨quote :: more, pieces, by rw [splitLoop, if_neg plain, if_neg slash, if_pos rfl, equal]; simp⟩
  | case5 inQuote escaped challenge char rest plain slash other inside ih =>
      obtain ⟨more, pieces, equal⟩ := ih
      exact ⟨char :: more, pieces, by
        rw [splitLoop, if_neg plain, if_neg slash, if_neg other, if_pos inside, equal]; simp⟩
  | case6 inQuote escaped challenge char rest plain slash other outside found ih =>
      exact ⟨[], _, by
        rw [splitLoop, if_neg plain, if_neg slash, if_neg other, if_neg outside, if_pos found,
          List.append_nil]⟩
  | case7 inQuote escaped challenge char rest plain slash other outside absent ih =>
      obtain ⟨more, pieces, equal⟩ := ih
      exact ⟨char :: more, pieces, by
        rw [splitLoop, if_neg plain, if_neg slash, if_neg other, if_neg outside, if_neg absent,
          equal]; simp⟩

/-- The splitter comes out of the text outside of quotes, whatever it has cut. -/
def Leads (text : Bytes) : Prop := ∀ challenge rest, ∃ pieces left,
  splitLoop false false challenge (text ++ rest) = pieces ++ splitLoop false false left rest

/-- The splitter makes a piece of the text that is no challenge. -/
def Spoils (text : Bytes) : Prop := ∀ challenge rest,
  ∃ piece ∈ splitLoop false false challenge (text ++ rest), ∀ header,
    ChallengeHeader.parseChallenge piece ≠ .ok header

theorem Passes.leads {text : Bytes} (passes : Passes text) : Leads text :=
  fun challenge rest => ⟨[], challenge ++ text, by rw [passes, List.nil_append]⟩

theorem Leads.append {front back : Bytes} (first : Leads front) (second : Leads back) :
    Leads (front ++ back) := by
  intro challenge rest
  obtain ⟨pieces, left, equal⟩ := first challenge (back ++ rest)
  obtain ⟨more, last, again⟩ := second left rest
  exact ⟨pieces ++ more, last, by rw [List.append_assoc, equal, again, List.append_assoc]⟩

theorem Leads.spoils {front back : Bytes} (leads : Leads front) (spoils : Spoils back) :
    Spoils (front ++ back) := by
  intro challenge rest
  obtain ⟨pieces, left, equal⟩ := leads challenge (back ++ rest)
  obtain ⟨piece, member, fails⟩ := spoils left rest
  exact ⟨piece, by rw [List.append_assoc, equal]; exact List.mem_append_right _ member, fails⟩

theorem Spoils.append {front : Bytes} (spoils : Spoils front) (back : Bytes) : Spoils (front ++ back) := by
  intro challenge rest
  rw [List.append_assoc]
  exact spoils challenge (back ++ rest)

theorem leads_param (param : Param) : Leads (comma :: param.render) := by
  intro challenge rest
  rw [List.cons_append, splitLoop_param]
  split
  · exact ⟨[challenge], _, rfl⟩
  · exact ⟨[], _, rfl⟩

theorem leads_flatMap {α : Type} {render : α → Bytes} (leads : ∀ value, Leads (render value))
    (values : List α) : Leads (values.flatMap render) := by
  induction values with
  | nil => exact passes_nil.leads
  | cons value values ih => exact (leads value).append ih

theorem leads_renderParams (params : List Param) : Leads (renderParams params) := by
  cases params with
  | nil => exact passes_nil.leads
  | cons param params => exact (passes_render param).leads.append (leads_flatMap leads_param params)

/-- A piece that starts with such a parameter has no challenge. -/
theorem parseChallenge_marked {param : Param} (marked : param.Marked) (rest : Bytes)
    (header : ChallengeHeader) : ChallengeHeader.parseChallenge (param.body ++ rest) ≠ .ok header := by
  obtain ⟨named, spaced⟩ := marked
  obtain ⟨blanks, shape⟩ : ∃ blanks, param.before.text = 0x20 :: blanks := by
    cases shape : param.before.text with
    | nil => rw [shape] at spaced; cases spaced
    | cons char blanks =>
        rw [shape, List.head?_cons, Option.some.injEq] at spaced
        exact ⟨blanks, by rw [spaced]⟩
  have blank : ∀ char ∈ blanks, isBlank char = true := fun char member =>
    param.before.blank char (by rw [shape]; exact List.mem_cons_of_mem _ member)
  have scheme : schemeName = privateToken.text ++ [0x20] := by decide
  have whole : param.body ++ rest = schemeName ++
      (blanks ++ equalsSign :: (param.after.text ++ (param.value.render ++ rest))) := by
    rw [Param.body, named, shape, scheme]
    simp only [List.append_assoc, List.cons_append, List.nil_append]
  have stops (tail : Bytes) : parseAuthParam (blanks ++ equalsSign :: tail) = none := by
    have start : skipBlanks (blanks ++ equalsSign :: tail) = equalsSign :: tail := by
      rw [skipBlanks, List.dropWhile_append_of_pos blank]
      exact skipBlanks_of_head (by decide) tail
    unfold parseAuthParam
    simp [start]
  obtain ⟨started, dropped⟩ := schemeName_append
    (blanks ++ equalsSign :: (param.after.text ++ (param.value.render ++ rest)))
  rw [ChallengeHeader.parseChallenge, whole, started, if_neg (by decide), dropped,
    readParams_stop (stops _)]
  simp

theorem spoils_param {param : Param} (marked : param.Marked) : Spoils (comma :: param.render) := by
  intro challenge rest
  rw [List.cons_append, splitLoop_param, if_pos marked]
  obtain ⟨more, pieces, equal⟩ := splitLoop_head false false (param.body ++ param.trail.text) rest
  refine ⟨param.body ++ (param.trail.text ++ more), ?_, parseChallenge_marked marked _⟩
  rw [equal, List.append_assoc]
  exact List.mem_cons_of_mem _ List.mem_cons_self

namespace SchemeChallenge

theorem render_eq (challenge : SchemeChallenge) : challenge.render = (challenge.scheme.text ++ [0x20]) ++
    (renderParams challenge.params ++ challenge.trail.text) := by
  rw [render]
  simp only [List.append_assoc, List.cons_append, List.nil_append]

theorem passes_scheme (challenge : SchemeChallenge) : Passes (challenge.scheme.text ++ [0x20]) :=
  (passes_token challenge.scheme).append (passes_unquoted (by decide +kernel))

theorem leads (challenge : SchemeChallenge) : Leads challenge.render := by
  rw [render_eq]
  exact challenge.passes_scheme.leads.append
    ((leads_renderParams challenge.params).append (passes_blanks challenge.trail).leads)

/-- The comma in front of a challenge leads into it. -/
theorem leads_scheme (challenge : SchemeChallenge) :
    Leads (comma :: (challenge.lead.text ++ (challenge.scheme.text ++ [0x20]))) := by
  intro before rest
  have visible : skipBlanks (challenge.scheme.text ++ [0x20] ++ rest) =
      challenge.scheme.text ++ [0x20] ++ rest := by
    rw [List.append_assoc, skipBlanks_token]
  have cut := splitLoop_cut challenge.passes_scheme challenge.lead before rest visible
  rw [List.cons_append, List.append_assoc, cut]
  split
  · exact ⟨[before], _, rfl⟩
  · exact ⟨[], _, rfl⟩

theorem render_tail (challenge : SchemeChallenge) :
    comma :: (challenge.lead.text ++ challenge.render) =
      (comma :: (challenge.lead.text ++ (challenge.scheme.text ++ [0x20]))) ++
        (renderParams challenge.params ++ challenge.trail.text) := by
  rw [render_eq]
  simp only [List.append_assoc, List.cons_append]

theorem leads_tail (challenge : SchemeChallenge) :
    Leads (comma :: (challenge.lead.text ++ challenge.render)) := by
  rw [render_tail]
  exact challenge.leads_scheme.append
    ((leads_renderParams challenge.params).append (passes_blanks challenge.trail).leads)

/-- A parameter that looks like a scheme spoils its challenge. -/
theorem spoils_params {challenge : SchemeChallenge} (spoilt : ¬ challenge.Plain) :
    Spoils (renderParams challenge.params) := by
  unfold Plain at spoilt
  push Not at spoilt
  obtain ⟨param, member, marked⟩ := spoilt
  cases shape : challenge.params with
  | nil => rw [shape] at member; cases member
  | cons first params =>
      rw [shape, List.tail_cons] at member
      obtain ⟨front, back, rfl⟩ := List.append_of_mem member
      rw [renderParams, List.flatMap_append, List.flatMap_cons]
      exact (passes_render first).leads.spoils ((leads_flatMap leads_param front).spoils
        ((spoils_param marked).append _))

theorem spoils {challenge : SchemeChallenge} (spoilt : ¬ challenge.Plain) : Spoils challenge.render := by
  rw [render_eq]
  exact challenge.passes_scheme.leads.spoils ((spoils_params spoilt).append _)

theorem spoils_tail {challenge : SchemeChallenge} (spoilt : ¬ challenge.Plain) :
    Spoils (comma :: (challenge.lead.text ++ challenge.render)) := by
  rw [render_tail]
  exact challenge.leads_scheme.spoils ((spoils_params spoilt).append _)

end SchemeChallenge

/-- A challenge with such a parameter spoils the header. -/
theorem spoils_renderChallenges {challenges : List SchemeChallenge} {challenge : SchemeChallenge}
    (member : challenge ∈ challenges) (spoilt : ¬ challenge.Plain) :
    Spoils (renderChallenges challenges) := by
  cases challenges with
  | nil => cases member
  | cons first challenges =>
      rcases List.mem_cons.mp member with rfl | later
      · exact (SchemeChallenge.spoils spoilt).append _
      · obtain ⟨front, back, rfl⟩ := List.append_of_mem later
        rw [renderChallenges, renderTail, List.flatMap_append, List.flatMap_cons]
        exact first.leads.spoils ((leads_flatMap SchemeChallenge.leads_tail front).spoils
          ((SchemeChallenge.spoils_tail spoilt).append _))

/-- Every piece of a header that is read is a challenge. -/
theorem parseAll_pieces {header : Bytes} {headers : List ChallengeHeader}
    (read : ChallengeHeader.parseAll header = .ok headers) :
    ∀ piece ∈ splitPrivateTokenChallenges header, ∃ result,
      ChallengeHeader.parseChallenge piece = .ok result := by
  unfold ChallengeHeader.parseAll at read
  generalize splitPrivateTokenChallenges header = pieces at read
  induction pieces generalizing headers with
  | nil => simp
  | cons piece pieces ih =>
      rw [List.mapM_cons, Result.bind_eq_ok] at read
      obtain ⟨result, here, rest⟩ := read
      obtain ⟨results, there, -⟩ := Result.bind_eq_ok.mp rest
      exact List.forall_mem_cons.mpr ⟨⟨result, here⟩, ih there⟩

theorem parseAll_spoilt {header : Bytes} (spoils : Spoils header) (headers : List ChallengeHeader) :
    ChallengeHeader.parseAll header ≠ .ok headers := by
  intro read
  obtain ⟨piece, member, fails⟩ := spoils [] []
  rw [List.append_nil] at member
  obtain ⟨result, parsed⟩ := parseAll_pieces read piece member
  exact fails result parsed

/-- A header that starts with the challenge of another scheme is refused. -/
theorem parseAll_other {challenge : SchemeChallenge} (other : ¬ challenge.IsPrivate)
    (challenges : List SchemeChallenge) (headers : List ChallengeHeader) :
    ChallengeHeader.parseAll (renderChallenges (challenge :: challenges)) ≠ .ok headers := by
  intro read
  -- the first piece starts with the other scheme
  have whole : renderChallenges (challenge :: challenges) = (challenge.scheme.text ++ [0x20]) ++
      (renderParams challenge.params ++ (challenge.trail.text ++ renderTail challenges)) := by
    rw [renderChallenges, SchemeChallenge.render_eq]
    simp only [List.append_assoc]
  obtain ⟨more, pieces, split⟩ := splitLoop_head false false (challenge.scheme.text ++ [0x20])
    (renderParams challenge.params ++ (challenge.trail.text ++ renderTail challenges))
  have first : challenge.scheme.text ++ [0x20] ++ more ∈
      splitPrivateTokenChallenges (renderChallenges (challenge :: challenges)) := by
    rw [splitPrivateTokenChallenges, whole, challenge.passes_scheme, List.nil_append, split]
    exact List.mem_cons_self
  obtain ⟨result, parsed⟩ := parseAll_pieces read _ first
  have unstarted : schemeName.isPrefixOf (challenge.scheme.text ++ [0x20] ++ more) = false := by
    rw [List.append_assoc, ← Bool.not_eq_true, isPrefixOf_token]
    · rintro ⟨same, -⟩
      exact other same
    · intro char member
      cases member
      decide
  rw [ChallengeHeader.parseChallenge, if_pos unstarted] at parsed
  cases parsed

end Failure

section Mixture

/-- A header of several schemes is read as its private challenges in their order exactly when it
starts with one and no later parameter of a challenge looks like a scheme. -/
theorem parseAll_eq_privateHeaders {challenges : List SchemeChallenge}
    (present : ∃ challenge ∈ challenges, challenge.IsPrivate)
    (named : ∀ challenge ∈ challenges, challenge.IsPrivate → challenge.Named) :
    ChallengeHeader.parseAll (renderChallenges challenges) = .ok (privateHeaders challenges) ↔
      (∀ first ∈ challenges.head?, first.IsPrivate) ∧
        ∀ challenge ∈ challenges, ∀ param ∈ challenge.params.tail, ¬ param.Marked := by
  constructor
  · intro read
    constructor
    · intro first start
      obtain ⟨rest, rfl⟩ := List.head?_eq_some_iff.mp start
      by_contra other
      exact parseAll_other other rest _ read
    · intro challenge member
      by_contra spoilt
      exact parseAll_spoilt (spoils_renderChallenges member spoilt) _ read
  · intro ⟨start, plain⟩
    cases challenges with
    | nil =>
        obtain ⟨challenge, member, -⟩ := present
        cases member
    | cons first challenges => exact parseAll_renderChallenges (start first rfl) plain named

/-- A challenge of this scheme has one quoted parameter. -/
def simpleChallenge (scheme name : TokenText) (value : Bytes) : SchemeChallenge :=
  ⟨scheme, [⟨name, quotedValue value, noBlanks, noBlanks, noBlanks, noBlanks⟩], by simp,
    oneBlank, noBlanks⟩

def basicChallenge : SchemeChallenge :=
  simpleChallenge ⟨ascii "Basic", by decide, by decide +kernel⟩ realmName (ascii "x")

def tokenChallenge (value : Bytes) : SchemeChallenge :=
  simpleChallenge privateToken challengeName value

theorem tokenChallenge_named {value : Bytes} (nonempty : value ≠ []) : (tokenChallenge value).Named := by
  refine ⟨_, List.mem_singleton.mpr rfl, rfl, ?_⟩
  simpa [quotedValue, ParamValue.text] using nonempty

/-- The challenges around another one are read. -/
theorem parseAll_eq_privateHeaders_between :
    ChallengeHeader.parseAll
        (ascii "PrivateToken challenge=\"abc\", Basic realm=\"x\", PrivateToken challenge=\"d\"") =
      .ok [⟨ascii "abc", none, none⟩, ⟨ascii "d", none, none⟩] := by
  have read := @parseAll_eq_privateHeaders
    [tokenChallenge (ascii "abc"), basicChallenge, tokenChallenge (ascii "d")]
    ⟨_, List.mem_cons_self, rfl⟩ (by
      simp only [List.forall_mem_cons, List.not_mem_nil, false_implies, implies_true, and_true]
      exact ⟨fun _ => tokenChallenge_named (by decide), fun other => absurd other (by decide),
        fun _ => tokenChallenge_named (by decide)⟩)
  exact read.mpr ⟨fun first start => by cases start; rfl, by decide⟩

/-- A challenge behind the challenge of another scheme is refused. -/
theorem parseAll_eq_privateHeaders_behind :
    ¬ ∀ challenges : List SchemeChallenge, (∃ challenge ∈ challenges, challenge.IsPrivate) →
      (∀ challenge ∈ challenges, challenge.IsPrivate → challenge.Named) →
      ChallengeHeader.parseAll (renderChallenges challenges) = .ok (privateHeaders challenges) := by
  intro always
  have read := always [basicChallenge, tokenChallenge (ascii "abc")]
    ⟨_, List.mem_cons_of_mem _ List.mem_cons_self, rfl⟩ (by
      simp only [List.forall_mem_cons, List.not_mem_nil, false_implies, implies_true, and_true]
      exact ⟨fun other => absurd other (by decide), fun _ => tokenChallenge_named (by decide)⟩)
  exact parseAll_other (by decide : ¬ basicChallenge.IsPrivate) _ _ read

end Mixture

end PrivacyPass.Http
