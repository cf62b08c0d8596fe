import KeyedLedger.Text.Hex

/-! # Paths

The target of a request is a path, which ends where a query or a fragment begins. A path is taken
apart at its slashes before any of its segments is decoded, so an encoded slash belongs to its
segment. A segment is decoded to bytes, which must be the encoding of a text.
-/

namespace KeyedLedger.Http.Path

open KeyedLedger.Text

/-- The segments of a path: what stands between its slashes. -/
def segments : List Char → List String
  | [] => [""]
  | '/' :: rest => "" :: segments rest
  | c :: rest =>
    match segments rest with
    | [] => [String.singleton c]
    | s :: more => (String.singleton c ++ s) :: more

/-- The segments of the path of a target. -/
def ofTarget (target : String) : List String :=
  segments (target.toList.takeWhile fun c => c ≠ '?' && c ≠ '#')

/-- The bytes that an encoded segment stands for. A percent sign without two digits behind it stands
for itself. -/
def decodedBytes : List Char → List UInt8
  | [] => []
  | '%' :: a :: b :: rest =>
    match hexValue? a, hexValue? b with
    | some x, some y => UInt8.ofNat (16 * x + y) :: decodedBytes rest
    | _, _ => 37 :: decodedBytes (a :: b :: rest)
  | c :: rest => String.utf8EncodeChar c ++ decodedBytes rest

/-- The text that an encoded segment stands for, if it is one. -/
def decode? (segment : String) : Option String :=
  String.fromUTF8? ⟨(decodedBytes segment.toList).toArray⟩

end KeyedLedger.Http.Path
