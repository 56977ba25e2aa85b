import Mathlib.Algebra.GroupWithZero.Nat
import Mathlib.Data.List.Infix
import RaibitServer.Lib.Regex
import RaibitServer.Lib.Scanner
import RaibitServer.Lib.Text

/-!
# Observability.Redaction — masking of observed lines in the control plane

`observability-redaction.ts`.  A line passes a loop over private keys, a scanner for credentials in
URLs, a scanner for assignments to secret keys, three patterns and a scanner for JWTs; what stays open
at its end (a private key, a quoted value) and whether it was cut is carried to the next line.

Lines are well-formed Unicode texts.  The scanners of the source move indices over one text and copy
the parts between replacements; here they are instances of `Lib.Scanner`, whose moves look back at the
passed text and ahead at the rest.
-/

namespace RaibitServer.Observability

open Lib Regex Scanner

abbrev Text := List Char

/-- `OBSERVABILITY_LINE_BYTES`. -/
def lineBytes : Nat := 16384

inductive SecretQuote
  | double
  | single
  | escapedDouble
  | escapedSingle
  deriving DecidableEq, Repr

def SecretQuote.text : SecretQuote → Text
  | double => ['"']
  | single => ['\'']
  | escapedDouble => ['\\', '"']
  | escapedSingle => ['\\', '\'']

/-- `RedactionState`, without its constant version. -/
structure RedactionState where
  pem : Bool := false
  quote : Option SecretQuote := none
  uncertain : Bool := false
  deriving DecidableEq, Repr

def marker : Text := ['*', '*', '*', '*']

def truncationSuffix : Text := " [truncated]".toList

def secretKeyFragments : List String :=
  ["password", "passwd", "secret", "token", "credential", "apikey", "api_key", "api-key", "accesskey",
    "access_key", "access-key", "privatekey", "private_key", "private-key", "databaseurl",
    "database_url", "database-url", "mongodburi", "mongodb_uri", "mongodb-uri", "redisurl",
    "redis_url", "redis-url"]

/-! ### Cutting at a number of bytes -/

def byteLength (value : Text) : Nat := (value.map Char.utf8Size).sum

theorem byteLength_append (x y : Text) : byteLength (x ++ y) = byteLength x + byteLength y := by
  unfold byteLength
  rw [List.map_append, List.sum_append]

theorem byteLength_cons (c : Char) (value : Text) : byteLength (c :: value) = c.utf8Size + byteLength value := by
  unfold byteLength
  rw [List.map_cons, List.sum_cons]

def replacementCharacter : Char := Char.ofNat 0xFFFD

/-- The first `limit` bytes of a text, decoded: a character that the cut leaves incomplete is read as
U+FFFD. -/
def decodePrefix : Nat → Text → Text
  | _, [] => []
  | limit, c :: value =>
    if c.utf8Size ≤ limit then c :: decodePrefix (limit - c.utf8Size) value
    else if limit = 0 then [] else [replacementCharacter]

/-- A trailing U+FFFD is removed. -/
def dropReplacement (value : Text) : Text :=
  if value.getLast? = some replacementCharacter then value.dropLast else value

structure BoundedInput where
  text : Text
  truncated : Bool

/-- The probe of the source, 16385 code units, is left out: its bytes are more than the limit exactly
if those of the text are, and a pair of surrogates that it cuts lies behind the limit. -/
def boundedObservationInput (value : Text) : BoundedInput :=
  if byteLength value ≤ lineBytes then ⟨value, false⟩
  else ⟨dropReplacement (decodePrefix lineBytes value), true⟩

def truncateObservationText (value : Text) (limit : Nat) : Text :=
  if byteLength value ≤ limit then value
  else dropReplacement (decodePrefix (limit - byteLength truncationSuffix) value) ++ truncationSuffix

/-! ### Private keys -/

def pemLabel : Regex := star (cls fun c => c.isUpper || c.isDigit || c = ' ')

def pemBegin : Regex := seqs [lit "-----BEGIN ", pemLabel, lit "PRIVATE KEY-----"]

def pemEnd : Regex := seqs [lit "-----END ", pemLabel, lit "PRIVATE KEY-----"]

def pemBoundary : Regex :=
  seqs [lit "-----", group 1 (alt (lit "BEGIN") (lit "END")), lit " ", pemLabel,
    lit "PRIVATE KEY-----"]

/-- The loop over `remaining`: the fragments, joined, and whether a key stays open. -/
def maskPrivateKeys (pem : Bool) (remaining : Text) : Text × Bool :=
  if remaining = [] then ([], pem)
  else if pem then
    match _hend : pemEnd.find none remaining with
    | none => (marker, true)
    | some (_, m) => emit marker (maskPrivateKeys false m.rest)
  else
    match _hbegin : pemBegin.find none remaining with
    | none => (remaining, false)
    | some (pre, m) =>
      emit (pre ++ if m.rest = [] then marker else []) (maskPrivateKeys true m.rest)
  termination_by remaining.length
  decreasing_by
    · exact find_rest_lt (by decide) _hend
    · exact find_rest_lt (by decide) _hbegin

/-- The loop over `value.matchAll(pemBoundary)`. -/
def lastBoundary (pem : Bool) (value : Text) : Bool :=
  match _hboundary : pemBoundary.find none value with
  | none => pem
  | some (_, m) => lastBoundary (m.group 1 = "BEGIN".toList) m.rest
  termination_by value.length
  decreasing_by exact find_rest_lt (by decide) _hboundary

/-! ### Characters -/

def isKeyCharacter (c : Char) : Bool := c = '-' || c = '_' || c.isDigit || c.isUpper || c.isLower

def isWordCharacter (c : Char) : Bool := c = '_' || c.isDigit || c.isUpper || c.isLower

def isSchemeCharacter (c : Char) : Bool :=
  c = '+' || c = '-' || c = '.' || c.isDigit || c.isUpper || c.isLower

/-! ### Assignments to secret keys -/

/-- Called for texts of key characters only, where lower case is that of ASCII. -/
def isSecretKey (value : Text) : Bool :=
  let key := value.map Char.toLower
  ["key", "-key", "--key"].any (fun k => key = k.toList) ||
    secretKeyFragments.any fun fragment => fragment.toList <:+: key

def closingQuoteLength : Text → Nat
  | '\\' :: '"' :: _ => 2
  | '\\' :: '\'' :: _ => 2
  | '"' :: _ => 1
  | '\'' :: _ => 1
  | _ => 0

def secretQuoteAt : Text → Option SecretQuote
  | '\\' :: '"' :: _ => some .escapedDouble
  | '\\' :: '\'' :: _ => some .escapedSingle
  | '"' :: _ => some .double
  | '\'' :: _ => some .single
  | _ => none

/-- A quote with `slashes` backslashes right before it does not close. -/
def SecretQuote.escaped (quote : SecretQuote) (slashes : Nat) : Bool :=
  if quote.text.length = 1 then slashes % 2 = 1 else slashes % 4 = 2

/-- Where the first closing quote stands; `skip` characters belong to an escaped one. -/
def findClosingQuote (quote : SecretQuote) : Nat → Nat → Text → Option Nat
  | _, _, [] => none
  | skip + 1, _, _ :: value => (findClosingQuote quote skip 0 value).map (· + 1)
  | 0, slashes, c :: value =>
    if quote.text.isPrefixOf (c :: value) then
      if quote.escaped slashes then
        (findClosingQuote quote (quote.text.length - 1) 0 value).map (· + 1)
      else some 0
    else (findClosingQuote quote 0 (if c = '\\' then slashes + 1 else 0) value).map (· + 1)

/-- An assignment to a secret key: what stands before the value, and the value. -/
inductive Assignment
  | quoted (lead : Text) (quote : SecretQuote) (body : Text)
  | plain (lead value : Text)

/-- Whether a value without quotes ends at `c`. -/
def terminator (queryKey : Bool) (c : Char) : Bool :=
  Text.isJsSpace c || ['"', '\'', '&'].contains c || (!queryKey && [',', ';'].contains c)

/-- The assignment whose key is `key`, with `after` behind it and `prev` before it. -/
def assignmentAt (prev : Option Char) (key after : Text) : Option Assignment :=
  if !isSecretKey key then none
  else
    let skipped := closingQuoteLength after
    let gap := (after.drop skipped).takeWhile Text.isJsSpace
    match (after.drop skipped).dropWhile Text.isJsSpace with
    | [] => none
    | delimiter :: rest =>
      if delimiter ≠ '=' ∧ delimiter ≠ ':' then none
      else
        let lead := key ++ after.take skipped ++ gap ++ delimiter :: rest.takeWhile Text.isJsSpace
        let rest := rest.dropWhile Text.isJsSpace
        match secretQuoteAt rest with
        | some quote => some (.quoted lead quote (rest.drop quote.text.length))
        | none =>
          if delimiter = ':' then none
          else
            let queryKey := prev = some '?' || prev = some '&'
            let value := rest.takeWhile fun c => !terminator queryKey c
            if value = [] ∧ !queryKey then none else some (.plain lead value)

/-- What is written for a key and its assignment; a quote that stays open ends the line. -/
def writeAssignment (key : Text) : Option Assignment → Move Char (Option SecretQuote)
  | none => .replace key key.length
  | some (.plain lead value) => .replace (lead ++ marker) (lead.length + value.length)
  | some (.quoted lead quote body) =>
    let out := lead ++ quote.text ++ marker ++ quote.text
    match findClosingQuote quote 0 0 body with
    | none => .stop out (some quote)
    | some last => .replace out (lead.length + quote.text.length + last + quote.text.length)

/-- One turn of the loop of `redactAssignments`. -/
def assignmentMove (before value : Text) : Move Char (Option SecretQuote) :=
  if !value.head?.any isKeyCharacter then .keep
  else
    let key := value.takeWhile isKeyCharacter
    writeAssignment key (assignmentAt before.head? key (value.dropWhile isKeyCharacter))

def redactAssignments (value : Text) : Option SecretQuote → Text × Option SecretQuote
  | none => scan assignmentMove none 0 [] value
  | some pending =>
    match findClosingQuote pending 0 0 value with
    | none => (marker, some pending)
    | some last =>
      let consumed := last + pending.text.length
      emit (marker ++ pending.text)
        (scan assignmentMove none 0 (value.take consumed).reverse (value.drop consumed))

/-! ### JWTs -/

/-- One turn of the loop of `redactJwt`: `one`, `two` and `three` are where the parts end. -/
def jwtMove (sourceTruncated : Bool) (before value : Text) : Move Char Unit :=
  if !"eyJ".toList.isPrefixOf value then .keep
  else if before.head?.any isWordCharacter then .replace (value.take 3) 3
  else
    let one := 3 + ((value.drop 3).takeWhile isKeyCharacter).length
    if one = 3 ∨ (value.drop one).head? ≠ some '.' then
      if sourceTruncated ∧ one = value.length then .stop marker () else .replace (value.take one) one
    else
      let two := one + 1 + ((value.drop (one + 1)).takeWhile isKeyCharacter).length
      if two = one + 1 ∨ (value.drop two).head? ≠ some '.' then
        if sourceTruncated ∧ two = value.length then .stop marker () else .replace (value.take two) two
      else
        let three := two + 1 + ((value.drop (two + 1)).takeWhile isKeyCharacter).length
        if three = two + 1 then .replace (value.take 3) 3 else .replace marker three

def redactJwt (value : Text) (sourceTruncated : Bool) : Text :=
  (scan (jwtMove sourceTruncated) () 0 [] value).1

/-! ### Credentials in URLs -/

/-- Whether a scheme ends the passed text: from its first letter on, with no word character before. -/
def schemeBefore (before : Text) : Bool :=
  let scheme := (before.takeWhile isSchemeCharacter).reverse.dropWhile fun c => !c.isAlpha
  scheme ≠ [] && !((before.drop scheme.length).head?.any isWordCharacter)

def authorityEnd (c : Char) : Bool := Text.isJsSpace c || ['/', '"', '\'', '<', '>'].contains c

/-- One turn of the loop of `redactUrlCredentials`. -/
def urlMove (sourceTruncated : Bool) (before value : Text) : Move Char Unit :=
  if !"://".toList.isPrefixOf value then .keep
  else if !schemeBefore before then .replace (value.take 3) 3
  else
    let authority := (value.drop 3).takeWhile fun c => !authorityEnd c
    let search := 3 + authority.length
    if '@' ∈ authority then
      .replace (value.take 3 ++
        (if authority.head? = some ':' then ":****@".toList else "****:****@".toList) ++
        (authority.reverse.takeWhile (· ≠ '@')).reverse) search
    else if sourceTruncated ∧ search = value.length then .stop (value.take 3 ++ marker) ()
    else .replace (value.take search) search

def redactUrlCredentials (value : Text) (sourceTruncated : Bool) : Text :=
  (scan (urlMove sourceTruncated) () 0 [] value).1

/-! ### Patterns -/

/-- A literal under the flag `i`, without the flag `u`: only ASCII letters have two cases. -/
def litIgnoreCase (s : String) : Regex := seqs (s.toList.map fun c => cls fun d => d.toLower = c.toLower)

def cookie : Regex :=
  seqs [group 1 (alt start (lit "\n")),
    group 2 (seqs [upTo 1 (litIgnoreCase "Set-"), litIgnoreCase "Cookie", star (cls Text.isJsSpace),
      lit ":", star (cls Text.isJsSpace)]),
    star (noneOf (fun _ => false) ['\r', '\n'])]

def authorization : Regex :=
  seqs [boundary, group 1 (alts [litIgnoreCase "Bearer", litIgnoreCase "Basic", litIgnoreCase "Token"]),
    plus (cls Text.isJsSpace),
    plus (cls fun c => c.isAlphanum || ['.', '_', '~', '+', '/', '-'].contains c), star (lit "=")]

def knownToken : Regex :=
  seqs [boundary,
    alts [seqs [lit "gh", oneOf ['p', 'o', 'u', 's', 'r'], lit "_"], lit "github_pat_",
      seqs [lit "sk-", upTo 1 (lit "proj-")], seqs [lit "xox", oneOf ['b', 'a', 'p', 'r', 's'], lit "-"]],
    seqs (List.replicate 12 (cls isKeyCharacter)), star (cls isKeyCharacter)]

def maskPatterns (line : Text) : Text :=
  let line := cookie.replaceAll (fun m => m.group 1 ++ m.group 2 ++ marker) line
  let line := authorization.replaceAll (fun m => m.group 1 ++ ' ' :: marker) line
  knownToken.replaceAll (fun _ => marker) line

/-! ### Lines -/

def sanitizeObservationLine (value : Text) (state : RedactionState) : Text × RedactionState :=
  if state.uncertain then (marker, state)
  else
    let input := boundedObservationInput value
    let keys := maskPrivateKeys state.pem input.text
    let assignment :=
      redactAssignments (redactUrlCredentials keys.1 input.truncated) state.quote
    let masked := redactJwt (maskPatterns assignment.1) input.truncated
    (truncateObservationText (masked ++ if input.truncated then truncationSuffix else []) lineBytes,
      ⟨lastBoundary keys.2 value, assignment.2, input.truncated⟩)

end RaibitServer.Observability
