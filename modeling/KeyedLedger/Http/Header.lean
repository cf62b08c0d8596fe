import KeyedLedger.Http.Problem
import KeyedLedger.Text.Ascii

/-! # Headers

The name of a header is the same in either case, and of several headers with one name the first
counts. A value can be read if it consists of visible ASCII characters, spaces and tabs.

Two headers belong to this interface. One carries the trace identifier of a request, which the
response repeats. The other one carries the idempotency key of a command.
-/

namespace KeyedLedger.Http

open KeyedLedger.Text

/-- Headers with their values, in order. -/
abbrev Headers := List (String × String)

namespace Headers

/-- The first value under a name. -/
def first? (h : Headers) (name : String) : Option String :=
  (h.find? fun header => sameIgnoringCase header.1 name).map Prod.snd

/-- A character that a value can be read with. -/
def isReadable (c : Char) : Bool :=
  isVisible c || c == ' ' || c == '\t'

/-- The first value under a name, if it can be read. -/
def readable? (h : Headers) (name : String) : Option String :=
  (h.first? name).filter fun value => value.toList.all isReadable

/-- The trace identifier that the request carries. -/
def trace? (h : Headers) : Option Identifier :=
  (h.readable? "X-Correlation-ID").bind Identifier.read?

end Headers

/-- The key of a command, and whether it had to be made up. -/
structure RequestKey where
  value : String
  generated : Bool
deriving DecidableEq

namespace RequestKey

/-- The name of the header. -/
def header : String := "Idempotency-Key"

/-- The most bytes of a key. -/
def maxLength : Nat := 128

/-- The problem with a key that is not accepted. -/
def problem (rule : String) : Problem :=
  (Problem.badRequest s!"{header} must {rule}").withCode "INVALID_IDEMPOTENCY_KEY"

/-- The problem with a key that is empty or too long. -/
def badLength : Problem :=
  problem s!"be 1 to {maxLength} characters"

/-- The problem with a key that has a blank or another character that is not accepted. -/
def badCharacter : Problem :=
  problem "contain only visible ASCII characters"

/-- The key that a caller has chosen. -/
def read (raw : String) : Except Problem RequestKey :=
  if raw.isEmpty ∨ maxLength < raw.utf8ByteSize then .error badLength
  else if raw.toList.all isVisible then .ok ⟨raw, false⟩
  else .error badCharacter

/-- The key in the headers of a request, or one that is made up if there is none. What is wrong with
a key is told with the trace identifier that the request has been given, if it has. -/
def ofHeaders (h : Headers) (given : Option Identifier) (fresh : Identifier) :
    Except Problem RequestKey :=
  let attach (p : Problem) : Problem :=
    match given with
    | some trace => p.withTrace trace
    | none => p
  match h.first? header with
  | none => .ok ⟨toString fresh, true⟩
  | some raw =>
    if raw.toList.all Headers.isReadable then (read raw).mapError attach
    else .error (attach badCharacter)

end RequestKey

end KeyedLedger.Http
