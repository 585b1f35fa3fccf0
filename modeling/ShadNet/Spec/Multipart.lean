import ShadNet.Lib.Loop
import ShadNet.Lib.Search
import ShadNet.Spec.RawJson
import ShadNet.Spec.WebSession

/-!
# Multipart bodies

`ParseMultipartMixed` cuts the body of a request into its parts. Positions are `int`s in the source, so
that this is what it does with bodies of fewer than `2^31` bytes.
-/

namespace ShadNet

open Lib SummonBroker

/-- `QByteArray::mid`: with a negative length, or one past the end, everything from `pos` on. -/
def mid (l : List UInt8) (pos : ℕ) (len : ℤ) : List UInt8 :=
  if len < 0 ∨ (l.length : ℤ) < pos + len then l.drop pos else (l.drop pos).take len.toNat

/-- `QByteArray::toLower`. -/
def lowerByte (b : UInt8) : UInt8 := if 0x41 ≤ b ∧ b ≤ 0x5A then b + 0x20 else b

/-- CR. -/
def carriageReturn : UInt8 := 0x0D

/-- LF. -/
def lineFeed : UInt8 := 0x0A

/-- The two bytes that end a line. -/
def crlf : List UInt8 := [carriageReturn, lineFeed]

/-- What stands before a boundary, and behind the last one. -/
def twoDashes : List UInt8 := [0x2D, 0x2D]

/-- What stands before each part, and before the closing dashes. -/
def delimiter (boundary : List UInt8) : List UInt8 := twoDashes ++ boundary

/-! ## One part -/

/-- Where a part lies in the body: its header block, its data, and the delimiter behind it. -/
structure PartSpan where
  headerStart : ℕ
  hdrEnd : ℕ
  bodyStart : ℕ
  next : ℕ
deriving DecidableEq, Repr

variable (body : List UInt8)

/-- Behind the end of the line that a delimiter stands in, if it ends there. -/
def headerStartAt (pos : ℕ) : ℕ :=
  if mid body pos 2 = crlf then pos + 2
  else if body[pos]? = some lineFeed then pos + 1
  else pos

/-- `hdrEnd` and `sep`. -/
def headerEndAt (pos : ℕ) : Option (ℕ × ℕ) :=
  match indexOfFrom (crlf ++ crlf) body pos with
  | some hdrEnd => some (hdrEnd, 4)
  | none => (indexOfFrom [lineFeed, lineFeed] body pos).map fun hdrEnd => (hdrEnd, 2)

/-- The part behind a delimiter that ends at `pos`; nothing if the loop is left there. -/
def partAt (delim : List UInt8) (pos : ℕ) : Option PartSpan :=
  if body.length ≤ pos then none
  else if mid body pos 2 = twoDashes then none
  else
    match headerEndAt body (headerStartAt body pos) with
    | none => none
    | some (hdrEnd, sep) =>
      (indexOfFrom delim body (hdrEnd + sep)).map fun next =>
        ⟨headerStartAt body pos, hdrEnd, hdrEnd + sep, next⟩

/-- Where the data before the delimiter at `next` end. -/
def bodyEndAt (next : ℕ) : ℕ :=
  if 2 ≤ next ∧ mid body (next - 2) 2 = crlf then next - 2
  else if 1 ≤ next ∧ body[next - 1]? = some lineFeed then next - 1
  else next

/-- A line of the headers; only the content type and the content description are kept. -/
def parseHeader (part : MultipartPart) (raw : List UInt8) : MultipartPart :=
  let line := trimmed raw
  match indexOf [0x3A] line with
  | none => part
  | some c =>
    let name := (trimmed (line.take c)).map lowerByte
    let val := trimmed (line.drop (c + 1))
    if name = toUtf8 "content-type" then { part with contentType := val }
    else if name = toUtf8 "content-description" then { part with contentDescription := val }
    else part

/-- The headers of a part are read line by line, and its data is taken as it is. -/
def readPart (p : PartSpan) : MultipartPart :=
  let headers := mid body p.headerStart ((p.hdrEnd : ℤ) - p.headerStart)
  let data := mid body p.bodyStart ((bodyEndAt body p.next : ℤ) - p.bodyStart)
  (headers.splitOn lineFeed).foldl parseHeader ⟨[], [], data⟩

/-! ## The loop -/

/-- Where the parser is, and the parts that it has found. -/
structure MultipartScan where
  pos : ℕ
  parts : List MultipartPart := []

/-- One part; nothing if there is no delimiter to end it. -/
def multipartStep (delim : List UInt8) (s : MultipartScan) : Option MultipartScan :=
  (partAt body delim s.pos).map fun p => ⟨p.next + delim.length, s.parts ++ [readPart body p]⟩

/-- The parts between the delimiters, from the first delimiter on. -/
def parseMultipartMixed (boundary : List UInt8) : List MultipartPart :=
  let delim := delimiter boundary
  match indexOfFrom delim body 0 with
  | none => []
  | some pos => (loop (multipartStep body delim) body.length { pos := pos + delim.length }).parts

end ShadNet
