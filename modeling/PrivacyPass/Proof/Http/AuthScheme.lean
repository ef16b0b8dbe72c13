import PrivacyPass.Construction.Http.AuthScheme
import PrivacyPass.Proof.Wire.Base64Url

/-
This file proves that the headers of the scheme are read back as they were written.
-/

namespace PrivacyPass.Http

section Characters

/-- A plain text goes into a quoted string without an escape. -/
def Plain (text : Bytes) : Prop := ∀ char ∈ text, char ≠ quote ∧ char ≠ backslash

/-- A parameter name has no separator and is not empty. -/
def IsName (name : Bytes) : Prop := name ≠ [] ∧ name.any isSeparator = false

/-- The padded encoding is a plain text. -/
theorem plain_encodePadded (data : Bytes) : Plain (Base64Url.encodePadded data) := by
  have table : ∀ char ∈ Base64Url.encodeTable, char ≠ quote ∧ char ≠ backslash := by
    decide +kernel
  intro char member
  rcases List.mem_append.mp member with symbol | pad
  · exact table char (Base64Url.encode_alphabet data char symbol)
  · rw [List.eq_of_mem_replicate pad]
    decide

/-- The encoding of some data has a character. -/
theorem encodePadded_ne_nil {data : Bytes} (nonempty : data ≠ []) :
    Base64Url.encodePadded data ≠ [] := by
  intro empty
  apply nonempty
  exact Base64Url.encode_eq_nil.mp (List.append_eq_nil_iff.mp empty).1

theorem not_isSeparator_mem {name : Bytes} (named : IsName name) {char : UInt8} (member : char ∈ name) :
    isSeparator char = false := by
  have every := List.any_eq_false.mp named.2 char member
  simpa using every

theorem ne_equalsSign_of_not_isSeparator {char : UInt8} (plain : isSeparator char = false) :
    char ≠ equalsSign := by
  rintro rfl
  exact absurd plain (by decide)

theorem not_isBlank_of_not_isSeparator {char : UInt8} (plain : isSeparator char = false) :
    isBlank char = false := by
  by_contra blank
  rw [Bool.not_eq_false, isBlank, Bool.or_eq_true, decide_eq_true_eq, decide_eq_true_eq] at blank
  rcases blank with rfl | rfl <;> exact absurd plain (by decide)

theorem skipBlanks_of_head {char : UInt8} (visible : isBlank char = false) (rest : Bytes) :
    skipBlanks (char :: rest) = char :: rest := by
  simp [skipBlanks, visible]

end Characters

section Parameters

/-- The loop returns a plain text up to its closing quote. -/
theorem quotedString_plain {text : Bytes} (plain : Plain text) (start rest : Bytes) :
    quotedString false start (text ++ quote :: rest) = some (start ++ text, rest) := by
  induction text generalizing start with
  | nil => simp [quotedString, show quote ≠ backslash by decide]
  | cons char text ih =>
      have here := plain char List.mem_cons_self
      have there : Plain text := fun other member => plain other (List.mem_cons_of_mem _ member)
      rw [List.cons_append, quotedString, if_neg Bool.false_ne_true, if_neg here.2, if_neg here.1,
        ih there, List.append_assoc, List.singleton_append]

theorem parseValue_quoted {text : Bytes} (plain : Plain text) (rest : Bytes) :
    parseValue (quote :: (text ++ quote :: rest)) = some (text, rest) := by
  rw [parseValue, if_pos rfl, quotedString_plain plain, List.nil_append]

theorem parseValue_token {text : Bytes} (nonempty : text ≠ [])
    (token : ∀ char ∈ text, char ≠ quote ∧ isTokenChar char = true) :
    parseValue text = some (text, []) := by
  cases text with
  | nil => exact absurd rfl nonempty
  | cons char text =>
      have kept : ∀ other ∈ char :: text, isTokenChar other = true := fun other member =>
        (token other member).2
      rw [parseValue, if_neg (token char List.mem_cons_self).1, List.takeWhile_eq_self_iff.mpr kept,
        List.dropWhile_eq_nil_iff.mpr kept]

/-- The key ends before the blanks in front of the equals sign, and the value follows them behind it. -/
theorem parseAuthParam_spaced {lead name before after behind value rest : Bytes} (named : IsName name)
    (leading : ∀ char ∈ lead, isBlank char = true) (trailing : ∀ char ∈ before, isBlank char = true)
    (following : ∀ char ∈ after, isBlank char = true) (visible : skipBlanks behind = behind)
    (valued : parseValue behind = some (value, rest)) :
    parseAuthParam (lead ++ (name ++ (before ++ equalsSign :: (after ++ behind)))) =
      some ((name, value), skipComma rest) := by
  have separators : ∀ char ∈ name, isSeparator char = false := fun _ => not_isSeparator_mem named
  have keptBlank : ∀ char ∈ before, (char != equalsSign) = true := fun char member => by
    have blank := trailing char member
    rw [bne_iff_ne]
    rintro rfl
    exact absurd blank (by decide)
  have keptName : ∀ char ∈ name, (char != equalsSign) = true := fun char member =>
    bne_iff_ne.mpr (ne_equalsSign_of_not_isSeparator (separators char member))
  have start : skipBlanks (lead ++ (name ++ (before ++ equalsSign :: (after ++ behind)))) =
      name ++ (before ++ equalsSign :: (after ++ behind)) := by
    obtain ⟨char, tail, rfl⟩ := List.exists_cons_of_ne_nil named.1
    rw [skipBlanks, List.dropWhile_append_of_pos leading]
    exact skipBlanks_of_head (not_isBlank_of_not_isSeparator (separators char List.mem_cons_self)) _
  have front : (name ++ (before ++ equalsSign :: (after ++ behind))).takeWhile (· != equalsSign) =
      name ++ before := by
    rw [List.takeWhile_append_of_pos keptName, List.takeWhile_append_of_pos keptBlank]
    simp
  have back : (name ++ (before ++ equalsSign :: (after ++ behind))).dropWhile (· != equalsSign) =
      equalsSign :: (after ++ behind) := by
    rw [List.dropWhile_append_of_pos keptName, List.dropWhile_append_of_pos keptBlank]
    simp
  have trimmed : (name ++ before).rdropWhile isBlank = name := by
    rw [List.rdropWhile, List.reverse_append, List.dropWhile_append_of_pos
      (fun char member => trailing char (List.mem_reverse.mp member)), ← List.rdropWhile,
      List.rdropWhile_eq_self_iff]
    intro nonempty last
    have visible := not_isBlank_of_not_isSeparator (separators _ (List.getLast_mem nonempty))
    exact absurd last (by simp [visible])
  have skipped : skipBlanks (after ++ behind) = behind := by
    rw [skipBlanks, List.dropWhile_append_of_pos following]
    exact visible
  unfold parseAuthParam
  simp only [start, front, back, trimmed, named.1, named.2, skipped, valued, if_false,
    List.append_eq_nil_iff, false_and, List.isEmpty_iff, Bool.false_or]

/-- The key ends at the equals sign, and the value follows it. -/
theorem parseAuthParam_name {name behind value rest : Bytes} (named : IsName name)
    (visible : skipBlanks behind = behind) (valued : parseValue behind = some (value, rest)) :
    parseAuthParam (name ++ equalsSign :: behind) = some ((name, value), skipComma rest) := by
  have none : ∀ char ∈ ([] : Bytes), isBlank char = true := by simp
  exact parseAuthParam_spaced named none none none visible valued

/-- A parameter with a quoted value is written as its name, the equals sign and the quotes. -/
def quotedParam (name value : Bytes) : Bytes := name ++ equalsSign :: quote :: (value ++ [quote])

theorem parseAuthParam_quotedParam {name value : Bytes} (named : IsName name) (plain : Plain value)
    (rest : Bytes) :
    parseAuthParam (quotedParam name value ++ rest) = some ((name, value), skipComma rest) := by
  have whole : quotedParam name value ++ rest =
      name ++ equalsSign :: (quote :: (value ++ quote :: rest)) := by simp [quotedParam]
  rw [whole]
  exact parseAuthParam_name named (skipBlanks_of_head (by decide) _) (parseValue_quoted plain rest)

theorem skipComma_comma {char : UInt8} (visible : isBlank char = false) (rest : Bytes) :
    skipComma (comma :: 0x20 :: char :: rest) = char :: rest := by
  have blanks : skipBlanks (0x20 :: char :: rest) = char :: rest := by
    simp [skipBlanks, visible, show isBlank 0x20 = true by decide]
  rw [skipComma, skipBlanks_of_head (by decide)]
  simp [blanks]

/-- The comma and the blank in front of a parameter end the one before it. -/
theorem skipComma_name {name : Bytes} (named : IsName name) (rest : Bytes) :
    skipComma (comma :: 0x20 :: (name ++ rest)) = name ++ rest := by
  obtain ⟨char, tail, rfl⟩ := List.exists_cons_of_ne_nil named.1
  exact skipComma_comma (not_isBlank_of_not_isSeparator
    (not_isSeparator_mem named List.mem_cons_self)) _

section Loop

variable {α : Type} {update : α → Bytes → Bytes → α} {header : α}

theorem readParams_stop {input : Bytes} (stops : parseAuthParam input = none) :
    readParams update header input = header := by
  rw [readParams]
  split
  · rfl
  · next here =>
      rw [stops] at here
      cases here

theorem readParams_nil : readParams update header [] = header := readParams_stop rfl

theorem readParams_step {input rest key value : Bytes}
    (found : parseAuthParam input = some ((key, value), rest)) :
    readParams update header input = readParams update (update header key value) rest := by
  rw [readParams]
  split
  · next missing =>
      rw [found] at missing
      cases missing
  · next other again last here =>
      rw [found] at here
      cases here
      rfl

end Loop

end Parameters

section Numbers

theorem digit_toNat {char : Char} (digit : char.isDigit = true) :
    char.toNat.toUInt8.toNat = char.toNat ∧ 0x30 ≤ char.toNat ∧ char.toNat ≤ 0x39 := by
  simp only [Char.isDigit, Bool.and_eq_true, decide_eq_true_eq, ge_iff_le] at digit
  have low : 0x30 ≤ char.toNat := UInt32.le_iff_toNat_le.mp digit.1
  have high : char.toNat ≤ 0x39 := UInt32.le_iff_toNat_le.mp digit.2
  refine ⟨?_, low, high⟩
  exact UInt8.toNat_ofNat_of_lt' (by change _ < 256; omega)

theorem toDecimal_eq (number : Nat) :
    toDecimal number = (Nat.toDigits 10 number).map fun char => char.toNat.toUInt8 := by
  rw [toDecimal, ascii]
  exact congrArg (List.map _) Nat.toList_repr

/-- A written number has only digits. -/
theorem isDigit_toDecimal {number : Nat} : ∀ char ∈ toDecimal number, isDigit char = true := by
  intro char member
  rw [toDecimal_eq] at member
  obtain ⟨digit, inside, rfl⟩ := List.mem_map.mp member
  obtain ⟨value, low, high⟩ :=
    digit_toNat (Nat.isDigit_of_mem_toDigits (by decide) (by decide) inside)
  rw [isDigit, Bool.and_eq_true, decide_eq_true_eq, decide_eq_true_eq, UInt8.le_iff_toNat_le,
    UInt8.le_iff_toNat_le, value]
  exact ⟨low, high⟩

theorem toDecimal_ne_nil (number : Nat) : toDecimal number ≠ [] := by
  rw [toDecimal_eq]
  simp [Nat.toDigits_ne_nil]

theorem digitsValue_toDecimal (number : Nat) : digitsValue (toDecimal number) = number := by
  have digits : ∀ char ∈ Nat.toDigits 10 number, char.toNat.toUInt8.toNat = char.toNat :=
    fun char member => (digit_toNat (Nat.isDigit_of_mem_toDigits (by decide) (by decide) member)).1
  rw [toDecimal_eq, digitsValue, List.foldl_map]
  calc (Nat.toDigits 10 number).foldl (fun value char => 10 * value + (char.toNat.toUInt8.toNat - 0x30)) 0
      = (Nat.toDigits 10 number).foldl (fun value char => 10 * value + (char.toNat - 0x30)) 0 := by
        apply List.foldl_ext
        intro value char member
        rw [digits char member]
    _ = Nat.ofDigitChars 10 (Nat.toDigits 10 number) 0 := Nat.ofDigitChars_eq_foldl.symm
    _ = number := Nat.ofDigitChars_ten_toDigits

theorem isDigit_other {char : UInt8} (digit : isDigit char = true) :
    isSpace char = false ∧ char ≠ 0x2D ∧ char ≠ 0x2B ∧ char ≠ quote ∧ char ≠ comma ∧
      isTokenChar char = true := by
  have table : ∀ value < 10, isSpace (0x30 + value).toUInt8 = false ∧
      (0x30 + value).toUInt8 ≠ 0x2D ∧ (0x30 + value).toUInt8 ≠ 0x2B ∧
      (0x30 + value).toUInt8 ≠ quote ∧ (0x30 + value).toUInt8 ≠ comma ∧
      isTokenChar (0x30 + value).toUInt8 = true := by decide
  rw [isDigit, Bool.and_eq_true, decide_eq_true_eq, decide_eq_true_eq, UInt8.le_iff_toNat_le,
    UInt8.le_iff_toNat_le] at digit
  obtain ⟨low, high⟩ := digit
  change 0x30 ≤ char.toNat at low
  change char.toNat ≤ 0x39 at high
  have same : (0x30 + (char.toNat - 0x30)).toUInt8 = char := by
    rw [Nat.add_sub_cancel' low]
    exact UInt8.ofNat_toNat
  have row := table (char.toNat - 0x30) (by omega)
  rwa [same] at row

/-- A written number is read back when it fits into 64 bits. -/
theorem stoul_toDecimal {number : Nat} (fits : number ≤ 18446744073709551615) :
    stoul (toDecimal number) = some number := by
  have digits := @isDigit_toDecimal number
  have value := digitsValue_toDecimal number
  have nonempty := toDecimal_ne_nil number
  generalize toDecimal number = text at digits value nonempty
  obtain ⟨char, rest, rfl⟩ := List.exists_cons_of_ne_nil nonempty
  obtain ⟨visible, minus, plus, -⟩ := isDigit_other (digits char List.mem_cons_self)
  have trimmed : (char :: rest).dropWhile isSpace = char :: rest := by simp [visible]
  have whole : (char :: rest).takeWhile isDigit = char :: rest := List.takeWhile_eq_self_iff.mpr digits
  unfold stoul
  simp only [trimmed, if_neg minus, if_neg plus, whole, value]
  rw [if_neg (List.cons_ne_nil char rest), if_neg (Nat.not_lt.mpr fits)]
  rfl

end Numbers

section Splitting

/-- An unquoted text without commas and quotes stays in its challenge. -/
theorem splitLoop_unquoted {text : Bytes} (plain : ∀ char ∈ text, char ≠ quote ∧ char ≠ comma)
    (challenge rest : Bytes) :
    splitLoop false false challenge (text ++ rest) = splitLoop false false (challenge ++ text) rest := by
  induction text generalizing challenge with
  | nil => simp
  | cons char text ih =>
      obtain ⟨other, more⟩ := plain char List.mem_cons_self
      rw [List.cons_append, splitLoop]
      simp only [other, more, Bool.false_eq_true, Bool.false_and, Bool.false_or, ne_eq,
        not_false_eq_true, decide_true, if_true, if_false]
      rw [ih fun next member => plain next (List.mem_cons_of_mem _ member), List.append_assoc,
        List.singleton_append]

/-- A plain text inside quotes stays in its challenge. -/
theorem splitLoop_inQuote {text : Bytes} (plain : Plain text) (challenge rest : Bytes) :
    splitLoop true false challenge (text ++ rest) = splitLoop true false (challenge ++ text) rest := by
  induction text generalizing challenge with
  | nil => simp
  | cons char text ih =>
      obtain ⟨other, straight⟩ := plain char List.mem_cons_self
      rw [List.cons_append, splitLoop]
      simp only [other, straight, Bool.false_eq_true, Bool.true_and, Bool.true_or, decide_false,
        if_true, if_false]
      rw [ih fun next member => plain next (List.mem_cons_of_mem _ member), List.append_assoc,
        List.singleton_append]

theorem splitLoop_quote {inQuote : Bool} (challenge rest : Bytes) :
    splitLoop inQuote false challenge (quote :: rest) =
      splitLoop (!inQuote) false (challenge ++ [quote]) rest := by
  rw [splitLoop, if_neg Bool.false_ne_true, if_neg (by simp [quote, backslash]), if_pos rfl]

/-- A comma in front of anything but a scheme name stays in its challenge. -/
theorem splitLoop_comma {rest : Bytes} (other : schemeName.isPrefixOf (skipBlanks rest) = false)
    (challenge : Bytes) :
    splitLoop false false challenge (comma :: rest) =
      splitLoop false false (challenge ++ [comma]) rest := by
  rw [splitLoop, if_neg Bool.false_ne_true, if_neg (by simp), if_neg (by decide),
    if_neg (by simp), if_neg (by simp [other])]

/-- A quoted parameter stays in its challenge. -/
theorem splitLoop_quotedParam {name value : Bytes} (named : IsName name) (plain : Plain value)
    (challenge rest : Bytes) :
    splitLoop false false challenge (quotedParam name value ++ rest) =
      splitLoop false false (challenge ++ quotedParam name value) rest := by
  have outside : ∀ char ∈ name ++ [equalsSign], char ≠ quote ∧ char ≠ comma := by
    intro char member
    rcases List.mem_append.mp member with inside | sign
    · have visible := not_isSeparator_mem named inside
      refine ⟨?_, ?_⟩ <;> rintro rfl <;> exact absurd visible (by decide)
    · rw [List.mem_singleton.mp sign]
      decide
  have whole : quotedParam name value ++ rest =
      (name ++ [equalsSign]) ++ (quote :: (value ++ (quote :: rest))) := by simp [quotedParam]
  rw [whole, splitLoop_unquoted outside, splitLoop_quote, Bool.not_false, splitLoop_inQuote plain,
    splitLoop_quote, Bool.not_true]
  congr 1
  simp [quotedParam]

/-- The comma in front of a parameter name stays in its challenge. -/
theorem splitLoop_separator {name : Bytes} (named : IsName name)
    (other : name.head? ≠ schemeName.head?) (challenge rest : Bytes) :
    splitLoop false false challenge (comma :: 0x20 :: (name ++ rest)) =
      splitLoop false false (challenge ++ [comma, 0x20]) (name ++ rest) := by
  obtain ⟨char, tail, rfl⟩ := List.exists_cons_of_ne_nil named.1
  have visible := not_isBlank_of_not_isSeparator (not_isSeparator_mem named List.mem_cons_self)
  have start : skipBlanks (0x20 :: (char :: tail ++ rest)) = char :: (tail ++ rest) := by
    simp [skipBlanks, visible, show isBlank 0x20 = true by decide]
  have scheme : schemeName = 0x50 :: ascii "rivateToken " := by decide
  have different : schemeName.isPrefixOf (char :: (tail ++ rest)) = false := by
    have head : ((0x50 : UInt8) == char) = false := by
      apply beq_eq_false_iff_ne.mpr
      rintro rfl
      rw [scheme] at other
      exact other rfl
    rw [scheme, List.isPrefixOf_cons_cons, head, Bool.false_and]
  rw [splitLoop_comma (by rw [start]; exact different)]
  have blank := @splitLoop_unquoted [0x20] (by decide +kernel) (challenge ++ [comma]) (char :: tail ++ rest)
  rw [List.append_assoc] at blank
  exact blank

end Splitting

section Headers

theorem isName_challenge : IsName (ascii "challenge") := by
  constructor <;> decide

theorem isName_tokenKey : IsName (ascii "token-key") := by
  constructor <;> decide

theorem isName_maxAge : IsName (ascii "max-age") := by
  constructor <;> decide

theorem isName_token : IsName (ascii "token") := by
  constructor <;> decide

/-- A header starts with the name of the scheme. -/
theorem schemeName_append (params : Bytes) :
    schemeName.isPrefixOf (schemeName ++ params) = true ∧ (schemeName ++ params).drop 13 = params := by
  refine ⟨?_, rfl⟩
  rw [List.isPrefixOf_iff_prefix]
  exact List.prefix_append schemeName params

namespace ChallengeHeader

/-- The parameters of a header follow the name of the scheme. -/
def params (header : ChallengeHeader) : Bytes :=
  quotedParam (ascii "challenge") header.challenge ++
    (formatTokenKey header.tokenKey ++ formatMaxAge header.maxAge)

theorem format_eq (header : ChallengeHeader) : header.format = schemeName ++ header.params := by
  have start : ascii "PrivateToken challenge=\"" =
      schemeName ++ (ascii "challenge" ++ [equalsSign, quote]) := by decide
  rw [format, start]
  simp [params, quotedParam, show ascii "\"" = [quote] by decide]

theorem formatTokenKey_some (tokenKey : Bytes) : formatTokenKey (some tokenKey) =
    comma :: 0x20 :: quotedParam (ascii "token-key") tokenKey := by
  have start : ascii ", token-key=\"" =
      comma :: 0x20 :: (ascii "token-key" ++ [equalsSign, quote]) := by decide
  rw [formatTokenKey, start]
  simp [quotedParam, show ascii "\"" = [quote] by decide]

theorem formatMaxAge_some (maxAge : UInt32) : formatMaxAge (some maxAge) =
    comma :: 0x20 :: (ascii "max-age" ++ equalsSign :: toDecimal maxAge.toNat) := by
  have start : ascii ", max-age=" = comma :: 0x20 :: (ascii "max-age" ++ [equalsSign]) := by decide
  rw [formatMaxAge, start]
  simp

/-- The texts of the header go into quoted strings without an escape. -/
def IsPlain (header : ChallengeHeader) : Prop :=
  Plain header.challenge ∧ ∀ tokenKey ∈ header.tokenKey, Plain tokenKey

/-- The age is read back from its digits. -/
theorem readParams_maxAge (header : ChallengeHeader) (maxAge : Option UInt32) :
    readParams setParam header (skipComma (formatMaxAge maxAge)) =
      { header with maxAge := maxAge <|> header.maxAge } := by
  cases maxAge with
  | none => exact readParams_nil
  | some maxAge =>
      have small := maxAge.toNat_lt
      have token : ∀ char ∈ toDecimal maxAge.toNat, char ≠ quote ∧ isTokenChar char = true := by
        intro char member
        obtain ⟨-, -, -, other, -, token⟩ := isDigit_other (isDigit_toDecimal char member)
        exact ⟨other, token⟩
      have visible : skipBlanks (toDecimal maxAge.toNat) = toDecimal maxAge.toNat := by
        obtain ⟨char, rest, shape⟩ := List.exists_cons_of_ne_nil (toDecimal_ne_nil maxAge.toNat)
        have digit := isDigit_other (isDigit_toDecimal char (by rw [shape]; exact List.mem_cons_self))
        rw [shape]
        apply skipBlanks_of_head
        have last := digit.2.2.2.2.2
        rw [isTokenChar, Bool.and_eq_true, Bool.not_eq_true'] at last
        exact last.2
      have found := parseAuthParam_name isName_maxAge visible
        (parseValue_token (toDecimal_ne_nil maxAge.toNat) token)
      rw [formatMaxAge_some, skipComma_name isName_maxAge, readParams_step found]
      have number : stoul (toDecimal maxAge.toNat) = some maxAge.toNat := stoul_toDecimal (by omega)
      have set : setParam header (ascii "max-age") (toDecimal maxAge.toNat) =
          { header with maxAge := some maxAge } := by
        rw [setParam, if_neg (by decide), if_neg (by decide), if_pos rfl]
        simp only [number]
        rw [if_pos (by omega)]
        simp
      rw [set]
      exact readParams_nil

/-- The parameters of a plain header are read back as its fields. -/
theorem readParams_params {header : ChallengeHeader} (plain : header.IsPlain) :
    readParams setParam {} header.params = header := by
  rcases header with ⟨challenge, tokenKey, maxAge⟩
  have first : setParam {} (ascii "challenge") challenge = { challenge := challenge } := by
    rw [setParam, if_pos rfl]
  rw [params, readParams_step (parseAuthParam_quotedParam isName_challenge plain.1 _), first]
  cases tokenKey with
  | none =>
      rw [formatTokenKey, List.nil_append, readParams_maxAge]
      cases maxAge <;> rfl
  | some tokenKey =>
      have second : setParam { challenge := challenge } (ascii "token-key") tokenKey =
          { challenge := challenge, tokenKey := some tokenKey } := by
        rw [setParam, if_neg (by decide), if_pos rfl]
      have tail : skipComma (formatTokenKey (some tokenKey) ++ formatMaxAge maxAge) =
          quotedParam (ascii "token-key") tokenKey ++ formatMaxAge maxAge := by
        rw [formatTokenKey_some, quotedParam]
        simpa using skipComma_name isName_tokenKey _
      rw [tail, readParams_step (parseAuthParam_quotedParam isName_tokenKey
        (plain.2 tokenKey rfl) _), second, readParams_maxAge]
      cases maxAge <;> rfl

theorem splitLoop_tokenKey {tokenKey : Option Bytes} (plain : ∀ text ∈ tokenKey, Plain text)
    (challenge rest : Bytes) :
    splitLoop false false challenge (formatTokenKey tokenKey ++ rest) =
      splitLoop false false (challenge ++ formatTokenKey tokenKey) rest := by
  cases tokenKey with
  | none => simp [formatTokenKey]
  | some tokenKey =>
      have separator := splitLoop_separator isName_tokenKey (by decide) challenge
        (equalsSign :: quote :: (tokenKey ++ [quote]) ++ rest)
      have value := splitLoop_quotedParam isName_tokenKey (plain tokenKey rfl)
        (challenge ++ [comma, 0x20]) rest
      rw [formatTokenKey_some]
      simp only [quotedParam, List.cons_append, List.append_assoc, List.nil_append] at separator value ⊢
      rw [separator, value]

theorem splitLoop_maxAge (maxAge : Option UInt32) (challenge rest : Bytes) :
    splitLoop false false challenge (formatMaxAge maxAge ++ rest) =
      splitLoop false false (challenge ++ formatMaxAge maxAge) rest := by
  cases maxAge with
  | none => simp [formatMaxAge]
  | some maxAge =>
      have digits : ∀ char ∈ toDecimal maxAge.toNat, char ≠ quote ∧ char ≠ comma := by
        intro char member
        obtain ⟨-, -, -, other, separate, -⟩ := isDigit_other (isDigit_toDecimal char member)
        exact ⟨other, separate⟩
      have outside : ∀ char ∈ ascii "max-age" ++ equalsSign :: toDecimal maxAge.toNat,
          char ≠ quote ∧ char ≠ comma := by
        have fixed : ∀ char ∈ ascii "max-age" ++ [equalsSign], char ≠ quote ∧ char ≠ comma := by
          decide +kernel
        intro char member
        rw [← List.singleton_append, ← List.append_assoc] at member
        exact (List.mem_append.mp member).elim (fixed char) (digits char)
      have separator := splitLoop_separator isName_maxAge (by decide) challenge
        (equalsSign :: toDecimal maxAge.toNat ++ rest)
      have value := splitLoop_unquoted outside (challenge ++ [comma, 0x20]) rest
      rw [formatMaxAge_some]
      simp only [List.cons_append, List.append_assoc, List.nil_append] at separator value ⊢
      rw [separator, value]

/-- A formatted header is one challenge up to where it ends. -/
theorem splitLoop_format {header : ChallengeHeader} (plain : header.IsPlain) (rest : Bytes) :
    splitLoop false false [] (header.format ++ rest) = splitLoop false false header.format rest := by
  have scheme := @splitLoop_unquoted schemeName (by decide +kernel) []
  have challenge := splitLoop_quotedParam isName_challenge plain.1
  rw [format_eq, params]
  simp only [List.append_assoc]
  rw [scheme, challenge, splitLoop_tokenKey plain.2, splitLoop_maxAge]
  simp only [List.nil_append, List.append_assoc]

/-- One plain challenge is read back as it was written. -/
theorem parseChallenge_format {header : ChallengeHeader} (plain : header.IsPlain)
    (nonempty : header.challenge ≠ []) : parseChallenge header.format = .ok header := by
  obtain ⟨started, dropped⟩ := schemeName_append header.params
  rw [parseChallenge, format_eq, started, if_neg (by decide), dropped, readParams_params plain]
  simp [nonempty]

/-- A plain header with a challenge is read back as it was written. -/
theorem parse_format {header : ChallengeHeader} (plain : header.IsPlain)
    (nonempty : header.challenge ≠ []) : parse header.format = .ok header := by
  have split : splitPrivateTokenChallenges header.format = [header.format] := by
    have whole := splitLoop_format plain []
    rw [List.append_nil] at whole
    rw [splitPrivateTokenChallenges, whole, splitLoop]
  rw [parse, parseAll, split]
  simp only [List.mapM_cons, List.mapM_nil, parseChallenge_format plain nonempty]
  rfl

end ChallengeHeader

/-- A plain token is read back as it was written. -/
theorem AuthorizationHeader.parse_format {header : AuthorizationHeader} (plain : Plain header.token)
    (nonempty : header.token ≠ []) : parse header.format = .ok header := by
  have written : header.format = schemeName ++ quotedParam (ascii "token") header.token := by
    have start : ascii "PrivateToken token=\"" =
        schemeName ++ (ascii "token" ++ [equalsSign, quote]) := by decide
    rw [format, start]
    simp [quotedParam, show ascii "\"" = [quote] by decide]
  have found := parseAuthParam_quotedParam isName_token plain []
  rw [List.append_nil] at found
  have set : setParam {} (ascii "token") header.token = header := by rw [setParam, if_pos rfl]
  obtain ⟨started, dropped⟩ := schemeName_append (quotedParam (ascii "token") header.token)
  rw [parse, written, started, if_neg (by decide), dropped, readParams_step found, set]
  have rest : readParams setParam header (skipComma []) = header := readParams_nil
  simp [rest, nonempty]

/-- The challenge and the token key come back from the header that carries them. -/
theorem buildWwwAuthenticate_parse {challenge : TokenChallenge} {bytes : Bytes} (tokenKey : Bytes)
    (maxAge : Option UInt32) (serialized : challenge.serialize = .ok bytes) (nonempty : bytes ≠ []) :
    ∃ text header, buildWwwAuthenticate challenge tokenKey maxAge = .ok text ∧
      ChallengeHeader.parse text = .ok header ∧
      header.decodeChallenge = TokenChallenge.deserialize bytes ∧
      header.decodeTokenKey = .ok tokenKey ∧ header.maxAge = maxAge := by
  let header : ChallengeHeader :=
    { challenge := Base64Url.encodePadded bytes
      tokenKey := some (Base64Url.encodePadded tokenKey)
      maxAge := maxAge }
  have plain : header.IsPlain := by
    refine ⟨plain_encodePadded bytes, ?_⟩
    intro text member
    cases member
    exact plain_encodePadded tokenKey
  refine ⟨header.format, header, ?_, ChallengeHeader.parse_format plain (encodePadded_ne_nil nonempty),
    ?_, Base64Url.decode_encodePadded tokenKey, rfl⟩
  · rw [buildWwwAuthenticate, serialized]
    rfl
  · rw [ChallengeHeader.decodeChallenge, Base64Url.decode_encodePadded]
    rfl

/-- The token comes back from the header that carries it. -/
theorem buildAuthorization_parse {token : Token} {bytes : Bytes}
    (serialized : token.serialize = .ok bytes) (nonempty : bytes ≠ []) :
    ∃ text, buildAuthorization token = .ok text ∧
      parseAuthorization text = Token.deserialize bytes := by
  let header : AuthorizationHeader := { token := Base64Url.encodePadded bytes }
  have parsed := @AuthorizationHeader.parse_format header (plain_encodePadded bytes)
    (encodePadded_ne_nil nonempty)
  refine ⟨header.format, ?_, ?_⟩
  · rw [buildAuthorization, serialized]
    rfl
  · rw [parseAuthorization, parsed]
    change header.decodeToken = _
    rw [AuthorizationHeader.decodeToken, Base64Url.decode_encodePadded]
    rfl

end Headers
end PrivacyPass.Http
