import KeyedLedger.Text.Ascii

/-! # Media types

A media type is a type and a subtype with a slash between them, each made up of token characters,
and parameters after semicolons. What follows the last `+` of the subtype is its suffix. A body is
taken as JSON if its type is `application` and its subtype or suffix is `json`, in either case.
-/

namespace KeyedLedger.Http

open KeyedLedger.Text

/-- A type and a subtype, the latter with its suffix apart. -/
structure MediaType where
  type : String
  subtype : String
  suffix : Option String
deriving DecidableEq

namespace MediaType

/-- A character of a token. -/
def isToken (c : Char) : Bool :=
  c.isAlphanum || "!#$%&'*+-.^_`|~".toList.contains c

/-- A character inside of quotes. -/
def isQuotable (c : Char) : Bool :=
  32 ≤ c.toNat && c.toNat ≠ 127

/-- What follows a quoted value: spaces, then a semicolon or the end. -/
def afterQuoted? : List Char → Option (List Char)
  | [] => some []
  | ' ' :: rest => afterQuoted? rest
  | ';' :: rest => some rest
  | _ => none

/-- What follows a quoted value that has begun. -/
def skipQuoted? (empty : Bool) : List Char → Option (List Char)
  | [] => none
  | c :: rest =>
    if c = '"' ∧ !empty then afterQuoted? rest
    else if isQuotable c then skipQuoted? false rest
    else none

/-- What follows a value that is a token. -/
def skipToken? (empty : Bool) : List Char → Option (List Char)
  | [] => some []
  | c :: rest =>
    if isToken c then skipToken? false rest
    else if c = ';' ∧ !empty then some rest
    else none

/-- What follows a value. -/
def skipValue? : List Char → Option (List Char)
  | '"' :: rest => skipQuoted? true rest
  | cs => skipToken? true cs

/-- What follows the name of a parameter and the sign after it. -/
def skipName? (empty : Bool) : List Char → Option (List Char)
  | [] => none
  | c :: rest =>
    if c = '=' ∧ !empty then some rest
    else if isToken c then skipName? false rest
    else none

/-- The text is a list of parameters, at most `fuel` of them and their leading spaces. -/
def areParameters : (fuel : Nat) → List Char → Bool
  | _, [] => true
  | 0, _ => false
  | fuel + 1, ' ' :: rest => areParameters fuel rest
  | fuel + 1, cs =>
    match (skipName? true cs).bind skipValue? with
    | some rest => areParameters fuel rest
    | none => false

/-- A subtype as it is written, with its suffix apart. A plus sign at its start is no mark. -/
def splitSuffix (written : List Char) : String × Option String :=
  let suffix := (written.reverse.takeWhile fun c => c ≠ '+').reverse
  if suffix.length + 1 < written.length then
    (String.ofList (written.take (written.length - suffix.length - 1)), some (String.ofList suffix))
  else (String.ofList written, none)

/-- The media type in a text. -/
def read? (s : String) : Option MediaType :=
  let (type, rest) := s.toList.span isToken
  match type, rest with
  | _ :: _, '/' :: rest =>
    let (written, rest) := rest.span isToken
    let (subtype, suffix) := splitSuffix written
    let mediaType : MediaType := ⟨String.ofList type, subtype, suffix⟩
    match rest with
    | [] => some mediaType
    | ';' :: parameters =>
      if written ≠ [] ∧ areParameters parameters.length parameters then some mediaType else none
    | _ => none
  | _, _ => none

/-- A body of this type is JSON. -/
def isJson (m : MediaType) : Bool :=
  sameIgnoringCase m.type "application" &&
    (sameIgnoringCase m.subtype "json" || m.suffix.any fun s => sameIgnoringCase s "json")

end MediaType

end KeyedLedger.Http
