import ShadNet.Lib.Wrap
import ShadNet.Lib.Run

/-!
# The request reader

`StreamExtractor` walks the payload of one request. Positions are C++ `int`s, so every
sum goes through `wrap32`. A successful read is a copy of a region of the memory that
the payload's first byte stands in; the region need not lie inside the payload, and
`Region.Inside` says when it does.
-/

namespace ShadNet

open Lib

/-- A region of memory, by its distance from the first payload byte. -/
structure Region where
  start : ℤ
  len : ℕ
deriving DecidableEq, Repr

/-- The region lies inside the payload. -/
def Region.Inside (r : Region) (data : List UInt8) : Prop :=
  0 ≤ r.start ∧ r.start + r.len ≤ data.length

instance (r : Region) (data : List UInt8) : Decidable (r.Inside data) :=
  inferInstanceAs (Decidable (_ ∧ _))

/-- The bytes of a region inside the payload. -/
def Region.bytes (r : Region) (data : List UInt8) : List UInt8 :=
  (data.drop r.start.toNat).take r.len

/-- The number that bytes spell, least significant first (`fromLe`). -/
def fromLe : List UInt8 → ℕ
  | [] => 0
  | b :: bs => b.toNat + 256 * fromLe bs

/-- The reader of a payload: its position is an `int`, and an error is kept. -/
structure StreamExtractor where
  data : List UInt8
  pos : ℤ
  error : Bool
deriving DecidableEq, Repr

namespace StreamExtractor

/-- A reader at the start of `data`. -/
def ofData (data : List UInt8) : StreamExtractor := ⟨data, 0, false⟩

/-- `get<T>` for an integral `T` of `width` bytes. -/
def get (x : StreamExtractor) (width : ℕ) : StreamExtractor × Option Region :=
  if (x.data.length : ℤ) < wrap32 (x.pos + width) then ({ x with error := true }, none)
  else ({ x with pos := wrap32 (x.pos + width) }, some ⟨x.pos, width⟩)

/-- The value `get<T>` returns: `T{}` on error. -/
def getValue (x : StreamExtractor) (width : ℕ) : ℕ :=
  match (x.get width).2 with
  | none => 0
  | some r => fromLe (r.bytes x.data)

/-- The loop of `getString`: where it stops, over the bytes from the position on. A
position that has wrapped stands outside the payload and is followed no further. -/
def scanString : List UInt8 → ℤ → ℤ
  | [], pos => pos
  | b :: rest, pos => if pos < 0 ∨ b = 0 then pos else scanString rest (wrap32 (pos + 1))

/-- A text up to its zero byte, and whether it may be empty. -/
def getString (x : StreamExtractor) (empty : Bool) : StreamExtractor × Option Region :=
  let stop := scanString (x.data.drop x.pos.toNat) x.pos
  if (x.data.length : ℤ) ≤ stop then ({ x with pos := stop, error := true }, none)
  else
    ({ x with pos := wrap32 (stop + 1), error := x.error || (!empty && stop = x.pos) },
      some ⟨x.pos, (stop - x.pos).toNat⟩)

/-- A number of bytes; the comparison is one of `int`s. -/
def getBytes (x : StreamExtractor) (n : ℕ) : StreamExtractor × Option Region :=
  if (x.data.length : ℤ) < wrap32 (x.pos + n) then ({ x with error := true }, none)
  else ({ x with pos := wrap32 (x.pos + n) }, some ⟨x.pos, n⟩)

/-- The next `n` bytes, without moving on. -/
def peekBytes (x : StreamExtractor) (n : ℕ) : Option Region :=
  if (x.data.length : ℤ) < wrap32 (x.pos + n) then none else some ⟨x.pos, n⟩

/-- The length prefix is unsigned: it is cast to `int` for the test, and taken as it is
for the copy and for the new position. -/
def getRawData (x : StreamExtractor) : StreamExtractor × Option Region :=
  let size := x.getValue 4
  let x := (x.get 4).1
  -- the flag may have been set by an earlier call
  if x.error then (x, none)
  else if (x.data.length : ℤ) < wrap32 (x.pos + wrap32 size) then ({ x with error := true }, none)
  else ({ x with pos := wrap32 (x.pos + size) }, some ⟨x.pos, size⟩)

/-- `decodeProto`, for the parser `parse` of the message type, which works on a region of
memory. -/
def decodeProto {M : Type} (parse : Region → Option M) (x : StreamExtractor) :
    StreamExtractor × Option M :=
  let (x', blob) := x.getRawData
  if x'.error then (x', none) else (x', blob.bind parse)

/-- A call on the reader: `get` of an integral type of at most eight bytes, and `int`
lengths that are not negative. -/
inductive Call where
  | get (width : Fin 9)
  | getString (empty : Bool)
  | getBytes (n : Fin (2 ^ 31))
  | peekBytes (n : Fin (2 ^ 31))
  | getRawData
deriving DecidableEq, Repr

/-- What a call leaves behind and the region it copies, if any. -/
def call (x : StreamExtractor) : Call → StreamExtractor × Option Region
  | .get width => x.get width
  | .getString empty => x.getString empty
  | .getBytes n => x.getBytes n
  | .peekBytes n => (x, x.peekBytes n)
  | .getRawData => x.getRawData

/-- The reader after the first `n` of the calls on `data`. -/
def after (data : List UInt8) (calls : List Call) (n : ℕ) : StreamExtractor :=
  runAt (fun x c => (x.call c).1) (ofData data) calls n

end StreamExtractor

end ShadNet
