/-! # Byte strings as text

A byte string is read as the characters it encodes in UTF-8. A byte that belongs to no
character is kept as a stray byte, so nothing of the byte string is lost.
-/

namespace KeyedLedger.Text

/-- A character, or a byte that belongs to none. -/
inductive Symbol where
  | char (c : Char)
  | stray (byte : UInt8)
deriving DecidableEq

/-- The symbols from a position on, at most `fuel` of them. -/
def symbolsFrom (bytes : ByteArray) : (fuel start : Nat) → List Symbol
  | 0, _ => []
  | fuel + 1, start =>
    match bytes.utf8DecodeChar? start with
    | some c => .char c :: symbolsFrom bytes fuel (start + c.utf8Size)
    | none =>
      if h : start < bytes.size then .stray bytes[start] :: symbolsFrom bytes fuel (start + 1)
      else []

/-- The symbols of a byte string: those of its text, if it is the encoding of one. -/
def symbols (bytes : ByteArray) : List Symbol :=
  match bytes.utf8Decode? with
  | some cs => cs.toList.map .char
  | none => symbolsFrom bytes bytes.size 0

end KeyedLedger.Text
