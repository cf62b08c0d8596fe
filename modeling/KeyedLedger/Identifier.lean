import KeyedLedger.Text.Hex

/-! # Identifiers

Accounts, balances, transactions and requests are named by 128-bit identifiers, held as 32
hexadecimal digits. An identifier is written in groups of 8, 4, 4, 4 and 12 digits with
hyphens between them. Reading also takes the digits without hyphens, and the hyphenated form
in braces or after `urn:uuid:`, in either case.
-/

namespace KeyedLedger

open KeyedLedger.Text

/-- A 128-bit name. -/
structure Identifier where
  digits : List (Fin 16)
  length_digits : digits.length = 32
deriving DecidableEq

namespace Identifier

/-- The identifier whose digits are all zero. -/
def nil : Identifier where
  digits := List.replicate 32 ⟨0, by decide⟩
  length_digits := by decide

instance : Inhabited Identifier := ⟨nil⟩

/-- The digits in groups of 8, 4, 4, 4 and 12. -/
def toChars (id : Identifier) : List Char :=
  let cs := id.digits.map hexDigit
  cs.take 8 ++ '-' :: (cs.drop 8).take 4 ++ '-' :: (cs.drop 12).take 4 ++
    '-' :: (cs.drop 16).take 4 ++ '-' :: cs.drop 20

/-- The written identifier. -/
protected def toString (id : Identifier) : String :=
  String.ofList id.toChars

instance : ToString Identifier := ⟨Identifier.toString⟩

/-- The identifier with the given digits, if they are 32. -/
def ofDigits? (cs : List Char) : Option Identifier :=
  match cs.mapM hexValue? with
  | none => none
  | some ds => if h : ds.length = 32 then some ⟨ds, h⟩ else none

/-- The identifier in the hyphenated form. -/
def readHyphenated? (cs : List Char) : Option Identifier :=
  if cs.length = 36 ∧ cs[8]? = some '-' ∧ cs[13]? = some '-' ∧ cs[18]? = some '-' ∧
      cs[23]? = some '-' then
    ofDigits? (cs.take 8 ++ (cs.drop 9).take 4 ++ (cs.drop 14).take 4 ++
      (cs.drop 19).take 4 ++ cs.drop 24)
  else none

/-- The characters inside a pair of braces. -/
def unbraced? (cs : List Char) : Option (List Char) :=
  match cs with
  | '\x7b' :: rest => if rest.getLast? = some '\x7d' then some rest.dropLast else none
  | _ => none

/-- The characters after `urn:uuid:`. -/
def afterUrn? (cs : List Char) : Option (List Char) :=
  if (cs.take 9).map Char.toLower = "urn:uuid:".toList then some (cs.drop 9) else none

/-- The identifier that a text denotes. -/
def read? (s : String) : Option Identifier :=
  let cs := s.toList
  match cs.length with
  | 32 => ofDigits? cs
  | 36 => readHyphenated? cs
  | 38 => (unbraced? cs).bind readHyphenated?
  | 45 => (afterUrn? cs).bind readHyphenated?
  | _ => none

end Identifier

end KeyedLedger
