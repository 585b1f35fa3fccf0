import Mathlib.Tactic.Linarith
import ShadNet.Lib.Utf8

/-!
# Qt's strings

`QString` is a Lean string and `QByteArray` a list of bytes. What Qt takes from the Unicode
tables, and its JSON parser, are the fields of `Qt`.
-/

namespace ShadNet

/-- The parts of Qt that the server relies on and that are not spelled out here. -/
structure Qt where
  foldCase : Char → Char
  isLetterOrNumber : Char → Bool
  toLower : String → String
  trimmed : String → String

/-- `compare` without regard to case: equal after simple case folding. -/
def Qt.eqNoCase (qt : Qt) (a b : String) : Bool :=
  decide (a.toList.map qt.foldCase = b.toList.map qt.foldCase)

/-- `compare` without regard to case: below zero. -/
def Qt.ltNoCase (qt : Qt) (a b : String) : Bool :=
  decide (a.toList.map qt.foldCase < b.toList.map qt.foldCase)

/-- What Qt does with ASCII text. -/
def Qt.ascii : Qt where
  foldCase := Char.toLower
  isLetterOrNumber := Char.isAlphanum
  toLower s := String.ofList (s.toList.map Char.toLower)
  trimmed s := String.ofList ((s.toList.dropWhile Char.isWhitespace).reverse.dropWhile
    Char.isWhitespace).reverse

/-- `QString::toUtf8`, and the bytes of a string literal. -/
def toUtf8 (s : String) : List UInt8 := Lib.utf8 s.toList

/-- The digit of a number below 64. -/
def base64Digit (n : ℕ) : Char :=
  "ABCDEFGHIJKLMNOPQRSTUVWXYZabcdefghijklmnopqrstuvwxyz0123456789+/".toList.getD (n % 64) '='

/-- `toBase64`: three bytes are four digits; what is missing at the end is padded. -/
def toBase64 : List UInt8 → List Char
  | [] => []
  | [a] =>
    let n := a.toNat * 2 ^ 4
    [base64Digit (n / 64), base64Digit n, '=', '=']
  | [a, b] =>
    let n := (a.toNat * 2 ^ 8 + b.toNat) * 2 ^ 2
    [base64Digit (n / 64 ^ 2), base64Digit (n / 64), base64Digit n, '=']
  | a :: b :: c :: rest =>
    let n := (a.toNat * 2 ^ 8 + b.toNat) * 2 ^ 8 + c.toNat
    base64Digit (n / 64 ^ 3) :: base64Digit (n / 64 ^ 2) :: base64Digit (n / 64) :: base64Digit n ::
      toBase64 rest

/-- The number that a digit stands for. -/
def base64Value? (b : UInt8) : Option ℕ :=
  if 0x41 ≤ b ∧ b ≤ 0x5A then some (b.toNat - 0x41)
  else if 0x61 ≤ b ∧ b ≤ 0x7A then some (b.toNat - 0x61 + 26)
  else if 0x30 ≤ b ∧ b ≤ 0x39 then some (b.toNat - 0x30 + 52)
  else if b = 0x2B then some 62
  else if b = 0x2F then some 63
  else none

/-- The loop of `fromBase64` with `AbortOnBase64DecodingErrors`, after `buf` with its `nbits` bits;
nothing on an error. -/
def fromBase64From (inputSize buf nbits : ℕ) : List UInt8 → Option (List UInt8)
  | [] => some []
  | b :: rest =>
    match base64Value? b with
    | some d =>
      let buf := buf * 64 + d
      if 2 ≤ nbits then
        (fromBase64From inputSize (buf % 2 ^ (nbits - 2)) (nbits - 2) rest).map
          (UInt8.ofNat (buf / 2 ^ (nbits - 2)) :: ·)
      else fromBase64From inputSize buf (nbits + 6) rest
    | none =>
      -- one or two `=` may stand at the end, and fill it up to four digits
      if b = 0x3D ∧ inputSize % 4 = 0 ∧ (rest = [] ∨ rest = [0x3D]) then some [] else none

/-- `QByteArray::fromBase64` with `AbortOnBase64DecodingErrors`: empty on an error. -/
def fromBase64 (base64 : List UInt8) : List UInt8 :=
  (fromBase64From base64.length 0 0 base64).getD []

/-- A character outside Latin-1 is a question mark, or two if it is two code units. -/
def toLatin1 (s : String) : List UInt8 := s.toList.flatMap fun c =>
  if c.toNat < 0x100 then [UInt8.ofNat c.toNat] else if c.toNat < 0x10000 then [0x3F] else [0x3F, 0x3F]

/-- One character for each byte, as `QString::fromLatin1` and `getString` make of bytes. -/
def fromLatin1 (bytes : List UInt8) : String := String.ofList (bytes.map fun b => Char.ofNat b.toNat)

/-- The number that decimal digits spell; at least one digit. -/
def digits? : List Char → Option ℕ
  | [] => none
  | cs => if cs.all Char.isDigit then some (cs.foldl (fun n c => 10 * n + (c.toNat - 48)) 0) else none

/-- `QString::toLongLong(&ok)` for an integer type that holds `-bound` to `bound - 1`: blanks
around the number and one sign are allowed. -/
def parseInt? (bound : ℤ) (s : String) : Option ℤ :=
  let cs := ((s.toList.dropWhile Char.isWhitespace).reverse.dropWhile Char.isWhitespace).reverse
  let n := match cs with
    | '-' :: ds => (digits? ds).map fun n => -(n : ℤ)
    | '+' :: ds => (digits? ds).map Int.ofNat
    | ds => (digits? ds).map Int.ofNat
  n.bind fun n => if -bound ≤ n ∧ n < bound then some n else none

/-- `QString::toLongLong` in base 10; nothing where `ok` is false. -/
def toLongLong? (s : String) : Option ℤ := parseInt? (2 ^ 63) s

/-- `QString::toInt` in base 10; nothing where `ok` is false. -/
def toInt? (s : String) : Option ℤ := parseInt? (2 ^ 31) s

end ShadNet
