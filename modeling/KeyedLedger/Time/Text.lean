import KeyedLedger.Text.Blank
import KeyedLedger.Text.Digits
import KeyedLedger.Time.Timestamp

/-! # Timestamps in text

A timestamp is written as in RFC 3339, in UTC, with no, three, six or nine digits of a
second, the fewest that are exact. Years outside 0 to 9999 carry a sign.

There are two readers. The strict one (`Timestamp.readStrict?`) is the format of RFC 3339:
fixed widths, a `T`, `t` or space between date and time, seconds present, and a zone that is
`Z`, `z` or hours and minutes with a colon. The lenient one (`Timestamp.readLenient?`) also takes
shorter numbers, years with a sign, blanks between the parts, the word `UTC`, and zones without
a colon or without minutes. Both drop digits of a second past the ninth.
-/

namespace KeyedLedger.Timestamp

open KeyedLedger.Text

/-- The year with at least four digits, signed unless it lies in 0 to 9999. -/
def yearChars (year : Int) : List Char :=
  if 0 ≤ year ∧ year ≤ 9999 then padded 4 year.toNat
  else (if year < 0 then '-' else '+') :: padded 4 year.natAbs

/-- The digits of a second, with the point; nothing for a whole second. -/
def fractionChars (nano : Nat) : List Char :=
  if nano = 0 then []
  else if nano % 1000000 = 0 then '.' :: padded 3 (nano / 1000000)
  else if nano % 1000 = 0 then '.' :: padded 6 (nano / 1000)
  else '.' :: padded 9 nano

/-- The written date and time, without a zone. -/
def toChars (t : Timestamp) : List Char :=
  yearChars t.date.year ++ '-' :: padded 2 t.date.month ++ '-' :: padded 2 t.date.day ++
    'T' :: padded 2 t.hour ++ ':' :: padded 2 t.minute ++ ':' :: padded 2 t.second ++
    fractionChars t.nano

/-- The timestamp with the zone `Z`. -/
protected def toString (t : Timestamp) : String :=
  String.ofList (t.toChars ++ ['Z'])

/-- The timestamp with the zone `+00:00`. -/
def toOffsetString (t : Timestamp) : String :=
  String.ofList (t.toChars ++ ['+', '0', '0', ':', '0', '0'])

instance : ToString Timestamp := ⟨Timestamp.toString⟩

/-- A number of at least `least` and at most `most` digits, and the rest of the text. -/
def readNumber (least most : Nat) (cs : List Char) : Option (Nat × List Char) :=
  let digits := (cs.take most).takeWhile Char.isDigit
  if least ≤ digits.length then some (Nat.ofDigitChars 10 digits 0, cs.drop digits.length) else none

/-- The text after a given character. -/
def expect (c : Char) : List Char → Option (List Char)
  | [] => none
  | d :: rest => if d = c then some rest else none

/-- The nanoseconds after a point; none without one. -/
def readFraction : List Char → Option (Nat × List Char)
  | '.' :: rest => do
    let (value, after) ← readNumber 1 9 rest
    some (value * tenTo (9 - (rest.length - after.length)), after.dropWhile Char.isDigit)
  | cs => some (0, cs)

/-- The sign of a zone: whether it lies behind UTC. -/
def readSign : List Char → Option (Bool × List Char)
  | '+' :: rest => some (false, rest)
  | '-' :: rest => some (true, rest)
  | '\u2212' :: rest => some (true, rest)
  | _ => none

/-- The minutes that a zone lies ahead of UTC, and the rest of the text. -/
def readZone (lenient : Bool) : List Char → Option (Int × List Char)
  | 'Z' :: rest => some (0, rest)
  | 'z' :: rest => some (0, rest)
  | cs => do
    let (behind, cs) ← readSign cs
    let (hours, cs) ← readNumber 2 2 cs
    let cs ← if lenient then some (cs.dropWhile fun c => c == ':' || isBlank c) else expect ':' cs
    let (minutes, cs) ← if lenient && cs.isEmpty then some (0, cs) else readNumber 2 2 cs
    if 23 < hours ∨ 59 < minutes then none
    else
      let ahead : Int := hours * 60 + minutes
      some (if behind then -ahead else ahead, cs)

/-- The years that a timestamp can have. -/
def yearInRange (year : Int) : Bool :=
  -262143 ≤ year ∧ year ≤ 262142

/-- The timestamp with these numbers, read in a zone `ahead` minutes ahead of UTC. -/
def ofFields? (year : Int) (month day hour minute second nano : Nat) (ahead : Int) :
    Option Timestamp := do
  let date ← Date.make? year month day
  let local' ← make? date hour minute second nano
  let utc := local'.ofZone ahead
  if yearInRange year ∧ yearInRange utc.date.year then some utc else none

/-- The timestamp that a text denotes, by the format of RFC 3339. -/
def readStrict? (s : String) : Option Timestamp := do
  let (year, cs) ← readNumber 4 4 s.toList
  let cs ← expect '-' cs
  let (month, cs) ← readNumber 2 2 cs
  let cs ← expect '-' cs
  let (day, cs) ← readNumber 2 2 cs
  let cs ← (expect 'T' cs).or ((expect 't' cs).or (expect ' ' cs))
  let (hour, cs) ← readNumber 2 2 cs
  let cs ← expect ':' cs
  let (minute, cs) ← readNumber 2 2 cs
  let cs ← expect ':' cs
  let (second, cs) ← readNumber 2 2 cs
  let (nano, cs) ← readFraction cs
  let (ahead, cs) ← readZone false cs
  if cs.isEmpty then ofFields? year month day hour minute second nano ahead else none

/-- A year of up to four digits, or of any length after a sign. -/
def readYear (cs : List Char) : Option (Int × List Char) :=
  match cs with
  | '-' :: rest => (readNumber 1 rest.length rest).map fun (n, after) => (-(n : Int), after)
  | '+' :: rest => (readNumber 1 rest.length rest).map fun (n, after) => ((n : Int), after)
  | _ => (readNumber 1 4 cs).map fun (n, after) => ((n : Int), after)

/-- The text after the word `UTC` in any case. -/
def expectUtc : List Char → Option (List Char)
  | u :: t :: c :: rest =>
    if u.toUpper = 'U' ∧ t.toUpper = 'T' ∧ c.toUpper = 'C' then some rest else none
  | _ => none

/-- The timestamp that a text denotes, with the freedoms of the lenient format. -/
def readLenient? (s : String) : Option Timestamp := do
  let (year, cs) ← readYear (dropBlanks s.toList)
  let cs ← expect '-' (dropBlanks cs)
  let (month, cs) ← readNumber 1 2 (dropBlanks cs)
  let cs ← expect '-' (dropBlanks cs)
  let (day, cs) ← readNumber 1 2 (dropBlanks cs)
  let cs ← (expect 'T' cs).or ((expect 't' cs).or (expect ' ' cs))
  let (hour, cs) ← readNumber 1 2 (dropBlanks cs)
  let cs ← expect ':' (dropBlanks cs)
  let (minute, cs) ← readNumber 1 2 (dropBlanks cs)
  let cs ← expect ':' (dropBlanks cs)
  let (second, cs) ← readNumber 1 2 (dropBlanks cs)
  let (nano, cs) ← readFraction cs
  let cs := dropBlanks cs
  let (ahead, cs) ← match expectUtc cs with
    | some rest => some (0, rest)
    | none => readZone true cs
  if (dropBlanks cs).isEmpty then ofFields? year month day hour minute second nano ahead else none

end KeyedLedger.Timestamp
