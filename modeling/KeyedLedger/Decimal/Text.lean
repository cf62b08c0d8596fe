import KeyedLedger.Decimal.Basic
import KeyedLedger.Text.Digits

/-! # Decimals in text

A decimal is written with all its places: a sign if it is negative, at least one digit before
the point, and no point when the scale is zero.

Reading accepts an optional sign, digits with at most one point, and underscores after the
first digit. Digits are taken while they have room. The first digit behind the point that has
none rounds the number half up, and what follows that digit is not looked at; a digit before
the point that has no room is refused. A zero read from text has no sign.

A number may also be followed by `e` or `E` and a whole exponent of at most 28 in size, which
moves the point. A point moved to the left rounds at 28 places; a point moved past the last
digit leaves a whole number.
-/

namespace KeyedLedger.Decimal

open KeyedLedger.Text

/-- The decimal with the given parts, if they are in range. -/
def ofParts? (negative : Bool) (mantissa scale : Nat) : Option Decimal :=
  if h : mantissa < capacity ∧ scale ≤ maxScale then
    some ⟨negative, mantissa, scale, h.1, h.2⟩
  else none

/-- The mantissa and scale once the next character has decided the rounding. -/
def roundOn (mantissa scale : Nat) (next : Char) : Option (Nat × Nat) :=
  if ¬next.isDigit ∧ next ≠ '_' ∧ next ≠ '.' then none
  else if next.isDigit ∧ '5' ≤ next then
    if mantissa + 1 < capacity then some (mantissa + 1, scale)
    else if scale = 0 then none
    else some ((mantissa + 5) / 10, scale - 1)
  else some (mantissa, scale)

/-- The mantissa and scale of a run of digits: `point` says that the point has been read,
`digit` that a digit has. -/
def readDigits (point digit : Bool) (mantissa scale : Nat) : List Char → Option (Nat × Nat)
  | [] => if digit then some (mantissa, scale) else none
  | c :: rest =>
    if point ∧ maxScale ≤ scale then roundOn mantissa scale c
    else if c.isDigit then
      let longer := mantissa * 10 + (c.toNat - '0'.toNat)
      if longer < capacity then
        readDigits point true longer (if point then scale + 1 else scale) rest
      else if point then roundOn mantissa scale c
      else none
    else if c = '.' ∧ ¬point then readDigits true digit mantissa scale rest
    else if c = '_' ∧ digit then readDigits point true mantissa scale rest
    else none

/-- The number in positional notation. -/
def readPlain (cs : List Char) : Option Decimal :=
  let (negative, rest) := match cs with
    | '-' :: rest => (true, rest)
    | '+' :: rest => (false, rest)
    | rest => (false, rest)
  (readDigits false false 0 0 rest).bind fun (mantissa, scale) =>
    ofParts? (negative && mantissa != 0) mantissa scale

/-- The number with its point moved `exponent` places to the left. -/
def moveLeft? (d : Decimal) (exponent : Nat) : Option Decimal :=
  if d.scale + exponent ≤ maxScale then
    ofParts? d.negative d.mantissa (d.scale + exponent)
  else if exponent ≤ maxScale then
    let short := d.rescale ⟨28 - exponent, by omega⟩
    ofParts? short.negative short.mantissa maxScale
  else none

/-- The number with its point moved `exponent` places to the right. -/
def moveRight? (d : Decimal) (exponent : Nat) : Option Decimal :=
  if exponent ≤ d.scale then ofParts? d.negative d.mantissa (d.scale - exponent)
  else if exponent ≤ maxScale then
    ofParts? d.negative (d.mantissa * tenTo (exponent - d.scale)) 0
  else none

/-- The number in scientific notation. -/
def readScientific (cs : List Char) : Option Decimal :=
  let isMark := fun c => c == 'e' || c == 'E'
  (readPlain (cs.takeWhile fun c => !isMark c)).bind fun base =>
    match cs.dropWhile fun c => !isMark c with
    | _ :: '-' :: exponent => (unsigned? exponent).bind base.moveLeft?
    | _ :: exponent => (unsigned? exponent).bind base.moveRight?
    | [] => none

/-- The decimal that a text denotes. -/
def read? (s : String) : Option Decimal :=
  (readPlain s.toList).or (readScientific s.toList)

/-- The characters of the written number. -/
def toChars (d : Decimal) : List Char :=
  let digits := padded (d.scale + 1) d.mantissa
  let whole := digits.take (digits.length - d.scale)
  let fraction := digits.drop (digits.length - d.scale)
  (if d.negative then ['-'] else []) ++ whole ++ (if d.scale = 0 then [] else '.' :: fraction)

/-- The written number. -/
protected def toString (d : Decimal) : String :=
  String.ofList d.toChars

instance : ToString Decimal := ⟨Decimal.toString⟩

end KeyedLedger.Decimal
