import ShadNet.Spec.Dispatch
import ShadNet.Spec.PacketReader

/-!
# Packet builder helpers

What the server and its clients put into payloads, and the payload of a push event.
-/

namespace ShadNet

/-- The four lowest bytes of a number. -/
def appendU32LE (buf : List UInt8) (v : ℕ) : List UInt8 := buf ++ toLe 4 v

/-- A text with the zero byte that ends it. -/
def appendCStr (buf : List UInt8) (s : String) : List UInt8 := buf ++ toUtf8 s ++ [0]

/-- A blob behind its length. -/
def appendBlob (buf : List UInt8) (blob : List UInt8) : List UInt8 :=
  appendU32LE buf blob.length ++ blob

/-! ## Push events -/

/-- What a push of the web API has in it. -/
structure PushEvent where
  npServiceName : String
  npServiceLabel : UInt32
  dataType : String
  data : List UInt8
  fromNpid : String
  toNpid : String
  extdData : List (String × String)

/-- The texts of a push as blobs, and its further members by pairs behind their number. -/
def buildWebApiPushPayload (e : PushEvent) : List UInt8 :=
  let payload := appendBlob [] (toUtf8 e.npServiceName)
  let payload := appendU32LE payload e.npServiceLabel.toNat
  let payload := appendBlob payload (toUtf8 e.dataType)
  let payload := appendBlob payload e.data
  let payload := appendBlob payload (toUtf8 e.fromNpid)
  let payload := appendBlob payload (toUtf8 e.toNpid)
  let payload := appendU32LE payload e.extdData.length
  e.extdData.foldl (fun payload kv => appendBlob (appendBlob payload (toUtf8 kv.1)) (toUtf8 kv.2)) payload

/-! ## Reading -/

section Read

variable (outside : ℤ → UInt8)

/-- `get<uint32_t>`, with the value that it returns. -/
def readU32 : StateM StreamExtractor ℕ := fun x => (x.getValue 4, (x.get 4).1)

/-- `getRawData`, with the bytes that it returns. -/
def readRawData : StateM StreamExtractor (List UInt8) := fun x =>
  (readBytes outside x.data x.getRawData.2, x.getRawData.1)

/-- `getString`, with the string that it returns. -/
def readString (empty : Bool) : StateM StreamExtractor String := fun x =>
  (fromLatin1 (readBytes outside x.data (x.getString empty).2), (x.getString empty).1)

end Read

end ShadNet
