import ShadNet.Lib.Codec
import ShadNet.Lib.JsonText
import ShadNet.Proof.Dispatch
import ShadNet.Proof.PacketReader
import ShadNet.Proof.StreamExtractor
import ShadNet.Spec.PacketBuilder

/-!
# The payload of a push event

* `reads_u32`, `reads_blob`: the reader takes numbers and blobs as they were appended.
* `push_payload_read`: the payload of an event is read back field by field, without an error and up
  to its end, and two events with the same payload are the same.
-/

namespace ShadNet

open Lib

/-- The reader of `data` at a position, without an error so far. -/
def readerAt (data : List UInt8) (pos : ℕ) : StreamExtractor := ⟨data, pos, false⟩

variable {outside : ℤ → UInt8} {before bytes after : List UInt8}

theorem posOk_readerAt (before bytes after : List UInt8) :
    (readerAt (before ++ bytes ++ after) before.length).PosOk := by
  have hpos : (0 : ℤ) ≤ before.length := Int.natCast_nonneg _
  refine ⟨hpos, ?_⟩
  simp only [readerAt, List.length_append]
  omega

theorem rest_readerAt : (readerAt (before ++ bytes ++ after) before.length).rest = bytes ++ after := by
  unfold StreamExtractor.rest readerAt
  rw [Int.toNat_natCast, List.append_assoc, List.drop_left]

/-- Bytes that are there are read as they are. -/
theorem readBytes_readerAt (n : ℕ) (hn : n + bytes.length = (before ++ bytes).length) :
    readBytes outside (before ++ bytes ++ after) (some ⟨n, bytes.length⟩) = bytes := by
  have hlen : n = before.length := by
    rw [List.length_append] at hn
    omega
  subst hlen
  have hinside : Region.Inside ⟨before.length, bytes.length⟩ (before ++ bytes ++ after) := by
    constructor
    · exact Int.natCast_nonneg _
    · simp only [List.length_append]
      omega
  unfold readBytes
  rw [Option.map_some, Option.getD_some, Region.read_of_inside outside hinside]
  unfold Region.bytes
  rw [Int.toNat_natCast, List.append_assoc, List.drop_left, List.take_left]

/-! ## Numbers and blobs -/

theorem fromLe_u32 {v : ℕ} (hv : v < 2 ^ 32) : fromLe (toLe 4 v) = v := by
  rw [fromLe_toLe]
  exact Nat.mod_eq_of_lt (by omega)

/-- The value of a number that could be read. -/
theorem getValue_of_get {x x' : StreamExtractor} {width : ℕ} {r : Region}
    (h : x.get width = (x', some r)) : x.getValue width = fromLe (r.bytes x.data) := by
  unfold StreamExtractor.getValue
  rw [h]

/-- A number of 32 bits. -/
theorem reads_u32 {v : ℕ} (hv : v < 2 ^ 32) : Reads readerAt (2 ^ 31) readU32 (toLe 4 v) v := by
  intro before after hlen
  have hpos := posOk_readerAt before (toLe 4 v) after
  simp only [List.length_append, length_toLe] at hlen
  have hget := StreamExtractor.get_of_fits hpos (w := 4) (by simp only [readerAt]; omega)
  have hin : ¬ (((readerAt (before ++ toLe 4 v ++ after) before.length).data.length : ℤ) <
      (readerAt (before ++ toLe 4 v ++ after) before.length).pos + (4 : ℕ)) := by
    simp only [readerAt, List.length_append, length_toLe]
    omega
  rw [if_neg hin] at hget
  have hbytes : Region.bytes ⟨before.length, 4⟩ (before ++ toLe 4 v ++ after) = toLe 4 v := by
    unfold Region.bytes
    rw [Int.toNat_natCast, List.append_assoc, List.drop_left]
    exact List.take_left' (length_toLe 4 v)
  have hvalue : (readerAt (before ++ toLe 4 v ++ after) before.length).getValue 4 = v := by
    have hread := congrArg fromLe hbytes
    rw [fromLe_u32 hv] at hread
    exact (getValue_of_get hget).trans hread
  change ((readerAt _ _).getValue 4, ((readerAt _ _).get 4).1) = _
  rw [hvalue, hget]
  simp [readerAt]

/-- **A blob**, behind its length. -/
theorem reads_blob (blob : List UInt8) :
    Reads readerAt (2 ^ 31) (readRawData outside) (toLe 4 blob.length ++ blob) blob := by
  intro before after hlen
  simp only [List.length_append, length_toLe] at hlen
  have hpos := posOk_readerAt before (toLe 4 blob.length ++ blob) after
  have hlead : (readerAt (before ++ (toLe 4 blob.length ++ blob) ++ after) before.length).lenPrefix =
      blob.length := by
    unfold StreamExtractor.lenPrefix
    rw [rest_readerAt, List.append_assoc, List.take_left' (length_toLe 4 _), fromLe_u32 (by omega)]
  have hfits : (readerAt (before ++ (toLe 4 blob.length ++ blob) ++ after) before.length).Fits
      .getRawData := by
    refine ⟨by simp only [readerAt]; omega, fun _ _ => Or.inl ?_⟩
    rw [hlead]
    simp only [readerAt]
    omega
  have hcomplete : (readerAt (before ++ (toLe 4 blob.length ++ blob) ++ after)
      before.length).RawComplete := by
    refine ⟨rfl, ?_⟩
    rw [hlead]
    simp only [readerAt, List.length_append, length_toLe]
    omega
  have hraw := StreamExtractor.getRawData_of_fits hpos hfits
  rw [if_pos hcomplete, hlead] at hraw
  have hsplit : before ++ (toLe 4 blob.length ++ blob) ++ after =
      (before ++ toLe 4 blob.length) ++ blob ++ after := by simp
  have hread : readBytes outside (before ++ (toLe 4 blob.length ++ blob) ++ after)
      (some ⟨(before.length + 4 : ℕ), blob.length⟩) = blob := by
    rw [hsplit]
    refine readBytes_readerAt _ ?_
    simp only [List.length_append, length_toLe]
  change (readBytes outside _ (StreamExtractor.getRawData _).2, (StreamExtractor.getRawData _).1) = _
  rw [hraw]
  simp only [readerAt, Nat.cast_add, Nat.cast_ofNat] at hread ⊢
  rw [hread]
  have hwrap : wrap32 (before.length + 4 + blob.length) = before.length + 4 + blob.length :=
    wrap32_of_lt (by omega) (by omega)
  rw [hwrap]
  simp [add_assoc]

/-! ## Events -/

/-- What the reader gets of an event. -/
structure PushFields where
  npServiceName : List UInt8
  npServiceLabel : ℕ
  dataType : List UInt8
  data : List UInt8
  fromNpid : List UInt8
  toNpid : List UInt8
  extdData : List (List UInt8 × List UInt8)
deriving DecidableEq

/-- The calls that read an event. -/
def readPush (outside : ℤ → UInt8) : StateM StreamExtractor PushFields := do
  let npServiceName ← readRawData outside
  let npServiceLabel ← readU32
  let dataType ← readRawData outside
  let data ← readRawData outside
  let fromNpid ← readRawData outside
  let toNpid ← readRawData outside
  let n ← readU32
  let extdData ← readTimes (do
    let key ← readRawData outside
    let value ← readRawData outside
    pure (key, value)) n
  pure ⟨npServiceName, npServiceLabel, dataType, data, fromNpid, toNpid, extdData⟩

/-- What a client should read of the push. -/
def PushEvent.fields (e : PushEvent) : PushFields where
  npServiceName := toUtf8 e.npServiceName
  npServiceLabel := e.npServiceLabel.toNat
  dataType := toUtf8 e.dataType
  data := e.data
  fromNpid := toUtf8 e.fromNpid
  toNpid := toUtf8 e.toNpid
  extdData := e.extdData.map fun kv => (toUtf8 kv.1, toUtf8 kv.2)

/-- Bytes behind their length. -/
def blob (b : List UInt8) : List UInt8 := toLe 4 b.length ++ b

/-- A pair of a further member. -/
def pairBytes (kv : String × String) : List UInt8 := blob (toUtf8 kv.1) ++ (blob (toUtf8 kv.2) ++ [])

theorem foldl_appendBlob (l : List (String × String)) (payload : List UInt8) :
    l.foldl (fun payload kv => appendBlob (appendBlob payload (toUtf8 kv.1)) (toUtf8 kv.2)) payload =
      payload ++ l.flatMap pairBytes := by
  induction l generalizing payload with
  | nil => simp
  | cons kv l ih =>
    rw [List.foldl_cons, ih, List.flatMap_cons]
    simp [appendBlob, appendU32LE, pairBytes, blob]

/-- The payload, field by field. -/
theorem buildWebApiPushPayload_eq (e : PushEvent) : buildWebApiPushPayload e =
    blob (toUtf8 e.npServiceName) ++ (toLe 4 e.npServiceLabel.toNat ++ (blob (toUtf8 e.dataType) ++
      (blob e.data ++ (blob (toUtf8 e.fromNpid) ++ (blob (toUtf8 e.toNpid) ++
        (toLe 4 e.extdData.length ++ (e.extdData.flatMap pairBytes ++ []))))))) := by
  unfold buildWebApiPushPayload
  simp only
  rw [foldl_appendBlob]
  simp [appendBlob, appendU32LE, blob]

theorem length_le_flatMap_pairBytes (l : List (String × String)) :
    l.length ≤ (l.flatMap pairBytes).length := by
  induction l with
  | nil => exact Nat.zero_le _
  | cons kv l ih =>
    have hpos : 1 ≤ (pairBytes kv).length := by
      simp only [pairBytes, blob, List.length_append, length_toLe]
      omega
    rw [List.flatMap_cons, List.length_append, List.length_cons]
    omega

theorem reads_pair (kv : String × String) :
    Reads readerAt (2 ^ 31) (do
      let key ← readRawData outside
      let value ← readRawData outside
      pure (key, value)) (pairBytes kv) (toUtf8 kv.1, toUtf8 kv.2) :=
  (reads_blob _).bind ((reads_blob _).bind (.pure _))

/-- **An event is read back**, wherever its payload stands. -/
theorem reads_push (outside : ℤ → UInt8) (e : PushEvent)
    (hlen : (buildWebApiPushPayload e).length < 2 ^ 31) :
    Reads readerAt (2 ^ 31) (readPush outside) (buildWebApiPushPayload e) e.fields := by
  have hcount : e.extdData.length < 2 ^ 32 := by
    have hle := length_le_flatMap_pairBytes e.extdData
    rw [buildWebApiPushPayload_eq] at hlen
    simp only [List.length_append] at hlen
    omega
  have hlabel : e.npServiceLabel.toNat < 2 ^ 32 := e.npServiceLabel.toNat_lt
  rw [buildWebApiPushPayload_eq]
  refine (reads_blob _).bind ((reads_u32 hlabel).bind ((reads_blob _).bind ((reads_blob _).bind
    ((reads_blob _).bind ((reads_blob _).bind ((reads_u32 hcount).bind ?_))))))
  exact (Reads.times e.extdData fun kv _ => reads_pair kv).bind (.pure _)

theorem toUtf8_injective {s t : String} (h : toUtf8 s = toUtf8 t) : s = t :=
  String.toList_inj.mp (utf8_injective h)

theorem fields_injective {e e' : PushEvent} (h : e.fields = e'.fields) : e = e' := by
  obtain ⟨name, label, type, data, sender, target, extd⟩ := e
  obtain ⟨name', label', type', data', sender', target', extd'⟩ := e'
  simp only [PushEvent.fields, PushFields.mk.injEq] at h
  obtain ⟨hname, hlabel, htype, hdata, hsender, htarget, hextd⟩ := h
  have hpair : Function.Injective fun kv : String × String => (toUtf8 kv.1, toUtf8 kv.2) := by
    intro kv kv' hkv
    obtain ⟨hkey, hvalue⟩ := Prod.mk.inj hkv
    exact Prod.ext (toUtf8_injective hkey) (toUtf8_injective hvalue)
  rw [toUtf8_injective hname, UInt32.toNat_inj.mp hlabel, toUtf8_injective htype, hdata,
    toUtf8_injective hsender, toUtf8_injective htarget, List.map_injective_iff.mpr hpair hextd]

/-- **The payload of an event** below `2^31` bytes is read back field by field, as the UTF-8 bytes of
the arguments, without an error and up to its end; no other event has this payload. -/
theorem push_payload_read (outside : ℤ → UInt8) (e : PushEvent)
    (hlen : (buildWebApiPushPayload e).length < 2 ^ 31) :
    (readPush outside).run (.ofData (buildWebApiPushPayload e)) =
        (e.fields, ⟨buildWebApiPushPayload e, (buildWebApiPushPayload e).length, false⟩) ∧
      ∀ e', buildWebApiPushPayload e' = buildWebApiPushPayload e → e' = e := by
  refine ⟨(reads_push outside e hlen).whole hlen, fun e' heq => ?_⟩
  have hother := reads_push outside e' (by rw [heq]; exact hlen)
  rw [heq] at hother
  exact fields_injective (hother.injective (reads_push outside e hlen) hlen)

/-- An event with data of the user. -/
def invitationEvent : PushEvent :=
  ⟨"sessionInvitation", 1, "np:service:invitation", [0, 0xFF], "Alice", "Bob", [("n", "1"), ("", "")]⟩

theorem push_payload_read_invitation :
    (readPush fun _ => 0).run (.ofData (buildWebApiPushPayload invitationEvent)) =
        (invitationEvent.fields, ⟨buildWebApiPushPayload invitationEvent,
          (buildWebApiPushPayload invitationEvent).length, false⟩) ∧
      ∀ e', buildWebApiPushPayload e' = buildWebApiPushPayload invitationEvent → e' = invitationEvent :=
  push_payload_read _ invitationEvent (by decide)

end ShadNet
