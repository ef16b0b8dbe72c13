import PrivacyPass.Proof.Http.AuthScheme

/-
This file defines the grammar of authentication parameters and proves that the loop reads them all.
-/

namespace PrivacyPass.Http

section Grammar

/-- The characters of a token are the letters, the digits and fifteen other visible characters. -/
def isTchar (char : UInt8) : Bool :=
  (0x41 ≤ char && char ≤ 0x5A) || (0x61 ≤ char && char ≤ 0x7A) || (0x30 ≤ char && char ≤ 0x39) ||
    [0x21, 0x23, 0x24, 0x25, 0x26, 0x27, 0x2A, 0x2B, 0x2D, 0x2E, 0x5E, 0x5F, 0x60, 0x7C, 0x7E].contains
      char

structure TokenText where
  text : Bytes
  nonempty : text ≠ []
  tchars : ∀ char ∈ text, isTchar char = true

/-- Spaces and tabs may stand around the equals sign and around the commas. -/
structure Blanks where
  text : Bytes
  blank : ∀ char ∈ text, isBlank char = true

/-- Any character of a quoted string may be escaped, and a quote or a backslash must be. -/
structure QuotedChar where
  char : UInt8
  escaped : Bool
  marked : char = quote ∨ char = backslash → escaped = true

def QuotedChar.render (quoted : QuotedChar) : Bytes :=
  if quoted.escaped then [backslash, quoted.char] else [quoted.char]

inductive ParamValue where
  | token (text : TokenText)
  | quoted (chars : List QuotedChar)

/-- The unescaped value. -/
def ParamValue.text : ParamValue → Bytes
  | .token text => text.text
  | .quoted chars => chars.map QuotedChar.char

def ParamValue.render : ParamValue → Bytes
  | .token text => text.text
  | .quoted chars => quote :: (chars.flatMap QuotedChar.render ++ [quote])

structure Param where
  name : TokenText
  value : ParamValue
  lead : Blanks
  before : Blanks
  after : Blanks
  trail : Blanks

/-- The parameter without the blanks around it. -/
def Param.body (param : Param) : Bytes :=
  param.name.text ++ (param.before.text ++ equalsSign :: (param.after.text ++ param.value.render))

def Param.render (param : Param) : Bytes := param.lead.text ++ (param.body ++ param.trail.text)

def renderParams : List Param → Bytes
  | [] => []
  | param :: params => param.render ++ params.flatMap fun other => comma :: other.render

/-- The unescaped value of the parameter with this name. -/
def valueOf (name : Bytes) (params : List Param) : Option Bytes :=
  (params.find? fun param => decide (param.name.text = name)).map fun param => param.value.text

end Grammar

section Characters

/-- The check of a key refuses exactly the characters that are not token characters. -/
theorem isSeparator_eq (char : UInt8) : isSeparator char = !isTchar char := by
  have table : ∀ number < 256, isSeparator number.toUInt8 = !isTchar number.toUInt8 := by decide +kernel
  have row := table char.toNat char.toNat_lt
  rwa [show char.toNat.toUInt8 = char from UInt8.ofNat_toNat] at row

theorem TokenText.isName (token : TokenText) : IsName token.text := by
  refine ⟨token.nonempty, List.any_eq_false.mpr fun char member => ?_⟩
  rw [isSeparator_eq, token.tchars char member]
  decide

/-- A token character is not a quote, a comma, an equals sign or a blank. -/
theorem isTchar_other {char : UInt8} (tchar : isTchar char = true) :
    char ≠ quote ∧ char ≠ comma ∧ char ≠ equalsSign ∧ isBlank char = false := by
  have plain : isSeparator char = false := by rw [isSeparator_eq, tchar, Bool.not_true]
  refine ⟨?_, ?_, ne_equalsSign_of_not_isSeparator plain, not_isBlank_of_not_isSeparator plain⟩
  · rintro rfl
    exact absurd tchar (by decide)
  · rintro rfl
    exact absurd tchar (by decide)

theorem isTokenChar_of_isTchar {char : UInt8} (tchar : isTchar char = true) : isTokenChar char = true := by
  obtain ⟨-, separate, -, visible⟩ := isTchar_other tchar
  rw [isTokenChar, visible, Bool.and_eq_true, bne_iff_ne]
  exact ⟨separate, rfl⟩

/-- A token stands at the front of a text that goes on with another character. -/
theorem takeWhile_token (token : TokenText) {rest : Bytes}
    (ends : ∀ char ∈ rest.head?, isTchar char = false) :
    (token.text ++ rest).takeWhile isTchar = token.text := by
  rw [List.takeWhile_append_of_pos token.tchars, List.append_right_eq_self]
  cases rest with
  | nil => rfl
  | cons char rest => rw [List.takeWhile_cons_of_neg (by simp [ends char rfl])]

theorem skipBlanks_append {blanks : Blanks} (rest : Bytes) :
    skipBlanks (blanks.text ++ rest) = skipBlanks rest := by
  rw [skipBlanks, List.dropWhile_append_of_pos blanks.blank, ← skipBlanks]

theorem skipBlanks_token (token : TokenText) (rest : Bytes) :
    skipBlanks (token.text ++ rest) = token.text ++ rest := by
  obtain ⟨char, tail, shape⟩ := List.exists_cons_of_ne_nil token.nonempty
  have visible := (isTchar_other (token.tchars char (by rw [shape]; exact List.mem_cons_self))).2.2.2
  rw [shape, List.cons_append]
  exact skipBlanks_of_head visible _

theorem skipBlanks_body (param : Param) (rest : Bytes) :
    skipBlanks (param.body ++ rest) = param.body ++ rest := by
  rw [Param.body, List.append_assoc]
  exact skipBlanks_token param.name _

theorem skipBlanks_idem (input : Bytes) : skipBlanks (skipBlanks input) = skipBlanks input :=
  List.dropWhile_idempotent isBlank input

theorem skipComma_append {blanks : Blanks} (rest : Bytes) :
    skipComma (blanks.text ++ rest) = skipComma rest := by
  rw [skipComma, skipBlanks_append, ← skipComma]

theorem skipComma_cons (rest : Bytes) : skipComma (comma :: rest) = skipBlanks rest := by
  rw [skipComma, skipBlanks_of_head (by decide)]
  exact if_pos rfl

end Characters

section Values

/-- The loop takes the characters of a quoted string with their escapes off. -/
theorem quotedString_render (chars : List QuotedChar) (start rest : Bytes) :
    quotedString false start (chars.flatMap QuotedChar.render ++ quote :: rest) =
      some (start ++ chars.map QuotedChar.char, rest) := by
  induction chars generalizing start with
  | nil => simp [quotedString, show quote ≠ backslash by decide]
  | cons quoted chars ih =>
      rw [List.flatMap_cons, QuotedChar.render, List.map_cons, List.append_assoc]
      split
      · rw [List.cons_append, List.singleton_append, quotedString, if_neg Bool.false_ne_true, if_pos rfl,
          quotedString, if_pos rfl, ih, List.append_assoc, List.singleton_append]
      · next plain =>
          have other : quoted.char ≠ quote ∧ quoted.char ≠ backslash :=
            ⟨fun same => plain (quoted.marked (.inl same)), fun same => plain (quoted.marked (.inr same))⟩
          rw [List.singleton_append, quotedString, if_neg Bool.false_ne_true, if_neg other.2,
            if_neg other.1, ih, List.append_assoc, List.singleton_append]

/-- The text does not go on with a character of an unquoted value. -/
def Ends (rest : Bytes) : Prop := ∀ char ∈ rest.head?, isTokenChar char = false

theorem ends_nil : Ends [] := by simp [Ends]

theorem ends_comma (rest : Bytes) : Ends (comma :: rest) := by simp [Ends, isTokenChar]

theorem ends_blanks {blanks : Blanks} {rest : Bytes} (ends : Ends rest) : Ends (blanks.text ++ rest) := by
  rcases blanks with ⟨text, blank⟩
  cases text with
  | nil => exact ends
  | cons char text => simp [Ends, isTokenChar, blank char List.mem_cons_self]

theorem parseValue_render (value : ParamValue) {rest : Bytes} (ends : Ends rest) :
    parseValue (value.render ++ rest) = some (value.text, rest) := by
  cases value with
  | quoted chars =>
      rw [ParamValue.render, List.cons_append, parseValue, if_pos rfl, List.append_assoc,
        List.singleton_append, quotedString_render, List.nil_append]
      rfl
  | token token =>
      have kept : ∀ char ∈ token.text, isTokenChar char = true := fun char member =>
        isTokenChar_of_isTchar (token.tchars char member)
      have taken : (token.text ++ rest).takeWhile isTokenChar = token.text := by
        rw [List.takeWhile_append_of_pos kept, List.append_right_eq_self]
        cases rest with
        | nil => rfl
        | cons char rest => rw [List.takeWhile_cons_of_neg (by simp [ends char rfl])]
      have dropped : (token.text ++ rest).dropWhile isTokenChar = rest := by
        rw [List.dropWhile_append_of_pos kept]
        cases rest with
        | nil => rfl
        | cons char rest => rw [List.dropWhile_cons_of_neg (by simp [ends char rfl])]
      obtain ⟨char, tail, shape⟩ := List.exists_cons_of_ne_nil token.nonempty
      have unquoted : char ≠ quote :=
        (isTchar_other (token.tchars char (by rw [shape]; exact List.mem_cons_self))).1
      rw [ParamValue.render, ParamValue.text]
      rw [shape, List.cons_append] at taken dropped ⊢
      rw [parseValue, if_neg unquoted, taken, dropped]

theorem skipBlanks_render (value : ParamValue) (rest : Bytes) :
    skipBlanks (value.render ++ rest) = value.render ++ rest := by
  cases value with
  | quoted chars => exact skipBlanks_of_head (by decide) _
  | token token => exact skipBlanks_token token rest

/-- A rendered parameter is read with its name and its unescaped value. -/
theorem parseAuthParam_body (param : Param) (lead : Blanks) {rest : Bytes} (ends : Ends rest) :
    parseAuthParam (lead.text ++ (param.body ++ rest)) =
      some ((param.name.text, param.value.text), skipComma rest) := by
  have read := parseAuthParam_spaced param.name.isName lead.blank param.before.blank param.after.blank
    (skipBlanks_render param.value rest) (parseValue_render param.value ends)
  rw [Param.body]
  simpa only [List.append_assoc, List.cons_append] using read

end Values

section Loop

variable {α : Type} {update : α → Bytes → Bytes → α}

/-- The loop starts behind the blanks. -/
theorem readParams_skipBlanks (header : α) (input : Bytes) :
    readParams update header (skipBlanks input) = readParams update header input := by
  have same : parseAuthParam (skipBlanks input) = parseAuthParam input := by
    rw [parseAuthParam, parseAuthParam, skipBlanks_idem]
  cases found : parseAuthParam input with
  | none => rw [readParams_stop found, readParams_stop (same.trans found)]
  | some read =>
      obtain ⟨⟨key, value⟩, rest⟩ := read
      rw [readParams_step (same.trans found), readParams_step found]

def updateAll (update : α → Bytes → Bytes → α) (header : α) (params : List Param) : α :=
  params.foldl (fun header param => update header param.name.text param.value.text) header

theorem flatMap_ends (params : List Param) {tail : Bytes} (ends : Ends tail) :
    Ends ((params.flatMap fun other => comma :: other.render) ++ tail) := by
  cases params with
  | nil => exact ends
  | cons other params => exact ends_comma _

/-- The loop hands every rendered parameter to the header and goes on behind them. -/
theorem readParams_render (header : α) {params : List Param} (nonempty : params ≠ []) {tail : Bytes}
    (ends : Ends tail) : readParams update header (renderParams params ++ tail) =
      readParams update (updateAll update header params) (skipComma tail) := by
  induction params generalizing header with
  | nil => exact absurd rfl nonempty
  | cons param params ih =>
      have read := parseAuthParam_body param param.lead
        (@ends_blanks param.trail _ (flatMap_ends params ends))
      rw [renderParams, Param.render, List.append_assoc, List.append_assoc, List.append_assoc,
        readParams_step read, skipComma_append]
      cases params with
      | nil => rfl
      | cons other params =>
          rw [List.flatMap_cons, List.cons_append, List.cons_append, skipComma_cons,
            readParams_skipBlanks, updateAll, List.foldl_cons]
          exact ih _ (List.cons_ne_nil _ _)

end Loop

section Fields

variable {α β : Type} {update : α → Bytes → Bytes → α}

theorem valueOf_cons (name : Bytes) (param : Param) (params : List Param) :
    valueOf name (param :: params) =
      if param.name.text = name then some param.value.text else valueOf name params := by
  rw [valueOf, List.find?_cons]
  split <;> simp_all [valueOf]

theorem valueOf_eq_some {name text : Bytes} {params : List Param}
    (distinct : (params.map fun param => param.name.text).Nodup) :
    valueOf name params = some text ↔
      ∃ param ∈ params, param.name.text = name ∧ param.value.text = text := by
  induction params with
  | nil => simp [valueOf]
  | cons param params ih =>
      rw [List.map_cons, List.nodup_cons] at distinct
      rw [valueOf_cons, List.exists_mem_cons_iff]
      split
      · next same =>
          have others : ¬ ∃ other ∈ params, other.name.text = name ∧ other.value.text = text := by
            intro ⟨other, member, named, _⟩
            exact distinct.1 (List.mem_map.mpr ⟨other, member, named.trans same.symm⟩)
          simp [same, others]
      · next different => simp [different, ih distinct.2]

theorem valueOf_eq_none {name : Bytes} {params : List Param} :
    valueOf name params = none ↔ ∀ param ∈ params, param.name.text ≠ name := by
  simp [valueOf]

/-- A field that only one name changes has the value of the one parameter with that name. -/
theorem updateAll_field (name : Bytes) (field : α → β) (read : Bytes → β → β)
    (own : ∀ header value, field (update header name value) = read value (field header))
    (other : ∀ header key value, key ≠ name → field (update header key value) = field header)
    (header : α) {params : List Param} (distinct : (params.map fun param => param.name.text).Nodup) :
    field (updateAll update header params) =
      match valueOf name params with
      | some value => read value (field header)
      | none => field header := by
  induction params generalizing header with
  | nil => rfl
  | cons param params ih =>
      rw [List.map_cons, List.nodup_cons] at distinct
      rw [updateAll, List.foldl_cons, ← updateAll, ih _ distinct.2, valueOf_cons]
      by_cases same : param.name.text = name
      · have absent : valueOf name params = none := by
          rw [valueOf_eq_none]
          rintro another member rfl
          exact distinct.1 (List.mem_map.mpr ⟨another, member, same.symm⟩)
        rw [absent, if_pos same, same, own]
      · rw [if_neg same, other _ _ _ same]

end Fields

end PrivacyPass.Http
