import PrivacyPass.Construction.Base64Url
import PrivacyPass.Construction.Token
import PrivacyPass.Construction.TokenChallenge

/-
This file models the PrivateToken authentication scheme: its headers, their parameters and parsers.
-/

namespace PrivacyPass.Http

def isBlank (char : UInt8) : Bool := char = 0x20 || char = 0x09

def skipBlanks (input : Bytes) : Bytes := input.dropWhile isBlank

def comma : UInt8 := 0x2C
def equalsSign : UInt8 := 0x3D
def quote : UInt8 := 0x22
def backslash : UInt8 := 0x5C

/-- The characters have a sign, so the bytes from 128 on are below the blank. -/
def isSeparator (char : UInt8) : Bool :=
  char ≤ 0x20 || char ≥ 0x80 || char = 0x7F ||
    (ascii "\"(),/:;<=>?@[\\]\x7b\x7d").contains char

/-- The loop reads up to the closing quote, and a backslash takes the next character as it is. -/
def quotedString (escaped : Bool) (value : Bytes) : Bytes → Option (Bytes × Bytes)
  | [] => none
  | char :: input =>
      if escaped then quotedString false (value ++ [char]) input
      else if char = backslash then quotedString true value input
      else if char = quote then some (value, input)
      else quotedString false (value ++ [char]) input

def isTokenChar (char : UInt8) : Bool := char != comma && !isBlank char

def parseValue (input : Bytes) : Option (Bytes × Bytes) :=
  match input with
  | [] => none
  | char :: rest =>
      if char = quote then quotedString false [] rest
      else some (input.takeWhile isTokenChar, input.dropWhile isTokenChar)

/-- At most one comma ends the parameter. -/
def skipComma (input : Bytes) : Bytes :=
  match skipBlanks input with
  | [] => []
  | char :: rest => if char = comma then skipBlanks rest else char :: rest

/-- A parameter is returned with the input behind it, and a failed call leaves no input to go on. -/
def parseAuthParam (input : Bytes) : Option ((Bytes × Bytes) × Bytes) :=
  let input := skipBlanks input
  let front := input.takeWhile (· != equalsSign)
  match input.dropWhile (· != equalsSign) with
  | [] => none
  | _ :: behind =>
      if front = [] then none
      else
        let key := front.rdropWhile isBlank
        if key.any isSeparator || key.isEmpty then none
        else
          match parseValue (skipBlanks behind) with
          | none => none
          | some (value, rest) => some ((key, value), skipComma rest)

theorem skipBlanks_length (input : Bytes) : (skipBlanks input).length ≤ input.length :=
  (List.dropWhile_sublist isBlank).length_le

theorem skipComma_length (input : Bytes) : (skipComma input).length ≤ input.length := by
  have first := skipBlanks_length input
  unfold skipComma
  split
  · exact Nat.zero_le _
  · next char rest shape =>
      rw [shape] at first
      split
      · have second := skipBlanks_length rest
        rw [List.length_cons] at first
        omega
      · exact first

theorem quotedString_length {escaped : Bool} {start value input rest : Bytes}
    (found : quotedString escaped start input = some (value, rest)) : rest.length ≤ input.length := by
  induction input generalizing escaped start with
  | nil => cases found
  | cons char input ih =>
      rw [quotedString] at found
      rw [List.length_cons]
      split at found
      · exact (ih found).trans (Nat.le_succ _)
      split at found
      · exact (ih found).trans (Nat.le_succ _)
      split at found
      · cases found
        exact Nat.le_succ _
      · exact (ih found).trans (Nat.le_succ _)

theorem parseValue_length {value input rest : Bytes} (found : parseValue input = some (value, rest)) :
    rest.length ≤ input.length := by
  unfold parseValue at found
  split at found
  · cases found
  · next char behind =>
      split at found
      · exact (quotedString_length found).trans (Nat.le_succ _)
      · cases found
        exact (List.dropWhile_sublist isTokenChar).length_le

/-- Every parameter takes at least its equals sign from the input. -/
theorem parseAuthParam_length {param : Bytes × Bytes} {input rest : Bytes}
    (found : parseAuthParam input = some (param, rest)) : rest.length < input.length := by
  unfold parseAuthParam at found
  dsimp only at found
  split at found
  · cases found
  · next sign behind cut =>
      have shorter := (List.dropWhile_sublist (l := skipBlanks input) (· != equalsSign)).length_le
      rw [cut, List.length_cons] at shorter
      have first := skipBlanks_length input
      split at found
      · cases found
      split at found
      · cases found
      split at found
      · cases found
      · next value left valued =>
          cases found
          have second := skipBlanks_length behind
          have third := parseValue_length valued
          have last := skipComma_length left
          omega

/-- The loop hands each parameter to the header and ends at the first failure. -/
def readParams {α : Type} (update : α → Bytes → Bytes → α) (header : α) (input : Bytes) : α :=
  match _found : parseAuthParam input with
  | none => header
  | some ((key, value), rest) => readParams update (update header key value) rest
termination_by input.length
decreasing_by exact parseAuthParam_length _found

def schemeName : Bytes := ascii "PrivateToken "

/-- The loop cuts the header at each comma in front of a scheme name unless the comma is quoted. -/
def splitLoop (inQuote escaped : Bool) (challenge : Bytes) (input : Bytes) : List Bytes :=
  match input with
  | [] => [challenge]
  | char :: rest =>
      if escaped then splitLoop inQuote false (challenge ++ [char]) rest
      else if inQuote && char = backslash then splitLoop inQuote true (challenge ++ [char]) rest
      else if char = quote then splitLoop (!inQuote) false (challenge ++ [char]) rest
      else if inQuote || char ≠ comma then splitLoop inQuote false (challenge ++ [char]) rest
      else if schemeName.isPrefixOf (skipBlanks rest) then
        -- the loop passes the blanks before the next challenge without an effect
        challenge :: splitLoop inQuote false [] (skipBlanks rest)
      else splitLoop inQuote false (challenge ++ [char]) rest
termination_by input.length
decreasing_by
  all_goals
    have shorter := skipBlanks_length rest
    simp only [List.length_cons]
    omega

def splitPrivateTokenChallenges (header : Bytes) : List Bytes := splitLoop false false [] header

/-- This is `std::isspace` in the standard locale. -/
def isSpace (char : UInt8) : Bool := char = 0x20 || (0x09 ≤ char && char ≤ 0x0D)

def isDigit (char : UInt8) : Bool := 0x30 ≤ char && char ≤ 0x39

def digitsValue (digits : Bytes) : Nat :=
  digits.foldl (fun value char => 10 * value + (char.toNat - 0x30)) 0

/-- This is `std::stoul` over a 64-bit `unsigned long`, without a result when it throws. -/
def stoul (text : Bytes) : Option Nat :=
  let trimmed := text.dropWhile isSpace
  let (negative, unsigned) : Bool × Bytes :=
    match trimmed with
    | [] => (false, [])
    | sign :: rest =>
        if sign = 0x2D then (true, rest) else if sign = 0x2B then (false, rest) else (false, trimmed)
  let digits := unsigned.takeWhile isDigit
  if digits = [] then none
  else
    let value := digitsValue digits
    if value > 18446744073709551615 then none
    else if negative then some ((18446744073709551616 - value) % 18446744073709551616)
    else some value

def toDecimal (value : Nat) : Bytes := ascii (toString value)

structure ChallengeHeader where
  challenge : Bytes := []
  tokenKey : Option Bytes := none
  maxAge : Option UInt32 := none
  deriving DecidableEq

namespace ChallengeHeader

def formatTokenKey : Option Bytes → Bytes
  | some tokenKey => ascii ", token-key=\"" ++ tokenKey ++ ascii "\""
  | none => []

def formatMaxAge : Option UInt32 → Bytes
  | some maxAge => ascii ", max-age=" ++ toDecimal maxAge.toNat
  | none => []

def format (header : ChallengeHeader) : Bytes :=
  ascii "PrivateToken challenge=\"" ++ header.challenge ++ ascii "\"" ++
    formatTokenKey header.tokenKey ++ formatMaxAge header.maxAge

/-- A number that does not fit leaves the header as it is, and so does every other parameter. -/
def setParam (header : ChallengeHeader) (key value : Bytes) : ChallengeHeader :=
  if key = ascii "challenge" then { header with challenge := value }
  else if key = ascii "token-key" then { header with tokenKey := some value }
  else if key = ascii "max-age" then
    match stoul value with
    | some number =>
        if number ≤ 4294967295 then { header with maxAge := some number.toUInt32 } else header
    | none => header
  else header

/-- This is the body of the loop over the challenges. -/
def parseChallenge (challenge : Bytes) : Result ChallengeHeader :=
  if schemeName.isPrefixOf challenge = false then .error ⟨.invalidHeader, "Not a PrivateToken header"⟩
  else
    let result := readParams setParam {} (challenge.drop 13)
    if result.challenge.isEmpty then .error ⟨.missingParameter, "Missing challenge parameter"⟩
    else .ok result

def parseAll (header : Bytes) : Result (List ChallengeHeader) :=
  (splitPrivateTokenChallenges header).mapM parseChallenge

def parse (header : Bytes) : Result ChallengeHeader := do
  let all ← parseAll header
  match all with
  | [] => .error ⟨.invalidHeader, "No PrivateToken challenge"⟩
  | first :: _ => .ok first

def decodeChallenge (header : ChallengeHeader) : Result TokenChallenge := do
  let decoded ← Base64Url.decode header.challenge
  TokenChallenge.deserialize decoded

def decodeTokenKey (header : ChallengeHeader) : Result Bytes :=
  match header.tokenKey with
  | none => .error ⟨.missingParameter, "Missing token-key parameter"⟩
  | some tokenKey => Base64Url.decode tokenKey

end ChallengeHeader

structure AuthorizationHeader where
  token : Bytes := []
  deriving DecidableEq

namespace AuthorizationHeader

def format (header : AuthorizationHeader) : Bytes :=
  ascii "PrivateToken token=\"" ++ header.token ++ ascii "\""

def setParam (header : AuthorizationHeader) (key value : Bytes) : AuthorizationHeader :=
  if key = ascii "token" then { header with token := value } else header

def parse (header : Bytes) : Result AuthorizationHeader :=
  if schemeName.isPrefixOf header = false then .error ⟨.invalidHeader, "Not a PrivateToken header"⟩
  else
    let result := readParams setParam {} (header.drop 13)
    if result.token.isEmpty then .error ⟨.missingParameter, "Missing token parameter"⟩
    else .ok result

def decodeToken (header : AuthorizationHeader) : Result Token := do
  let decoded ← Base64Url.decode header.token
  Token.deserialize decoded

end AuthorizationHeader

def buildWwwAuthenticate (challenge : TokenChallenge) (tokenKey : Bytes) (maxAge : Option UInt32) :
    Result Bytes := do
  let serialized ← challenge.serialize
  let header : ChallengeHeader :=
    { challenge := Base64Url.encodePadded serialized
      tokenKey := some (Base64Url.encodePadded tokenKey)
      maxAge := maxAge }
  .ok header.format

def buildAuthorization (token : Token) : Result Bytes := do
  let serialized ← token.serialize
  let header : AuthorizationHeader := { token := Base64Url.encodePadded serialized }
  .ok header.format

def parseAuthorization (header : Bytes) : Result Token := do
  let parsed ← AuthorizationHeader.parse header
  parsed.decodeToken

end PrivacyPass.Http
