import ShadNet.Proof.RawJson

/-!
# The answer that delivers a claim

The answer to an advertisement whose summon was claimed is the claim, with the two members of its
envelope replaced. The scan compares keys as they are spelled, while everybody else compares them
after their escapes are undone. So the answer is right exactly when the claim spells the keys of its
envelope without escapes.

* `keys_unique`: a text is an object with one list of keys at most.
* `buildClaimDeliveryResponse_object`: the answer is an object.
* `delivers_iff`: when it is the object that it should be.
-/

namespace ShadNet.SummonBroker

open Lib Lib.JsonText

/-! ## What is to be delivered -/

/-- The values of the members with a name. -/
def valuesOf (name : String) (ms : List Member) : List (List UInt8) :=
  (ms.filter fun m => m.name = some (unitsOf name)).map (·.value)

/-- A member that belongs to the envelope of a request. -/
def IsEnvelope (m : Member) : Prop :=
  m.name = some (unitsOf "MessageId") ∨ m.name = some (unitsOf "ResKind")

instance : DecidablePred IsEnvelope := fun m => by unfold IsEnvelope; infer_instance

/-- The members that the game owns. -/
def others (ms : List Member) : List Member := ms.filter fun m => ¬IsEnvelope m

/-- The bytes of a member's key and of its value. -/
def entry (m : Member) : List UInt8 × List UInt8 := (utf8 m.key, m.value)

/-- **A response delivers a claim** with the given members: the envelope is that of an answer to the
advertisement, and all else is as it was. -/
def Delivers (claim : List Member) (response : List UInt8) : Prop :=
  ∃ ms, IsObject response ms ∧ valuesOf "ResKind" ms = [toUtf8 "0"] ∧
    valuesOf "MessageId" ms = [toUtf8 "\"SummonDataCreateResponse\""] ∧
    (others ms).map entry = (others claim).map entry

/-! ## Keys -/

/-- A key that the scan takes for one of the envelope. -/
def SpelledOut (m : Member) : Prop :=
  utf8 m.key = toUtf8 "MessageId" ∨ utf8 m.key = toUtf8 "ResKind"

instance : DecidablePred SpelledOut := fun m => by unfold SpelledOut; infer_instance

theorem name_of_utf8 {m : Member} {s : String} (h : utf8 m.key = toUtf8 s)
    (hs : unescape s.toList = some (unitsOf s)) : m.name = some (unitsOf s) := by
  have hkey : m.key = s.toList := utf8_injective h
  unfold Member.name
  rw [hkey, hs]

/-- A member that is spelled like the envelope is part of it. -/
theorem SpelledOut.isEnvelope {m : Member} (h : SpelledOut m) : IsEnvelope m := by
  rcases h with h | h
  · exact Or.inl (name_of_utf8 h (by decide))
  · exact Or.inr (name_of_utf8 h (by decide))

/-- **A text has one list of keys.** -/
theorem keys_unique {text : List UInt8} {ms ms' : List Member} (h : IsObject text ms)
    (h' : IsObject text ms') : ms.map (·.key) = ms'.map (·.key) := by
  have hscan : ms.map topLevel = ms'.map topLevel :=
    (topLevelMembers_object h).symm.trans (topLevelMembers_object h')
  have hspelled := congrArg (List.map TopLevelMember.key) hscan
  simp only [List.map_map] at hspelled
  have hinj : Function.Injective utf8 := fun _ _ => utf8_injective
  refine List.map_injective_iff.mpr hinj ?_
  simpa [Function.comp_def, topLevel] using hspelled

theorem valuesOf_length {ms ms' : List Member} (h : ms.map (·.key) = ms'.map (·.key))
    (name : String) : (valuesOf name ms).length = (valuesOf name ms').length := by
  have hcount : ∀ l : List Member, (valuesOf name l).length =
      (l.map (·.key)).countP fun cs => unescape cs = some (unitsOf name) := by
    intro l
    unfold valuesOf
    rw [List.length_map, List.countP_map, List.countP_eq_length_filter]
    rfl
  rw [hcount, hcount, h]

/-! ## The members of the answer -/

/-- The members that are passed on. -/
def kept (ms : List Member) : List Member := ms.filter fun m => ¬SpelledOut m

/-- The members that the delivery puts before them. -/
def envelope : List Member :=
  [{ key := "ResKind".toList, value := toUtf8 "0" },
    { key := "MessageId".toList, value := toUtf8 "\"SummonDataCreateResponse\"" }]

/-- The members of the answer. -/
def delivered (ms : List Member) : List Member := envelope ++ (kept ms).map Member.bare

/-- The envelope has the shape of members. -/
theorem envelope_shaped : ∀ m ∈ envelope, m.Shaped := by
  intro m hm
  simp only [envelope, List.mem_cons, List.not_mem_nil, or_false] at hm
  rcases hm with rfl | rfl
  · exact ⟨ws_nil, rfl, ws_nil, ws_nil, ws_nil⟩
  · exact ⟨ws_nil, rfl, ws_nil, ws_nil, ws_nil⟩

theorem isValue_quoted {text : List UInt8} {cs : List Char} (htext : text = quoted cs)
    (h : Spelled cs) : IsValue text := by
  rw [htext]
  exact .string h

theorem envelope_value : ∀ m ∈ envelope, IsValue m.value := by
  intro m hm
  simp only [envelope, List.mem_cons, List.not_mem_nil, or_false] at hm
  rcases hm with rfl | rfl
  · exact .number ⟨[], toUtf8 "0", [], [], .inl rfl, .inl rfl, .inl rfl, .inl rfl, rfl⟩
  · have hmessage : Spelled "SummonDataCreateResponse".toList := by
      unfold Spelled
      decide +kernel
    exact isValue_quoted (by decide +kernel) hmessage

/-- The members of a delivery are shaped if those of the stored object are. -/
theorem delivered_shaped {text : List UInt8} {ms : List Member} (h : IsObject text ms) :
    ∀ m ∈ delivered ms, m.Shaped := by
  intro m hm
  rcases List.mem_append.mp hm with hm | hm
  · exact envelope_shaped m hm
  · obtain ⟨n, hn, rfl⟩ := List.mem_map.mp hm
    exact (h.shaped n (List.mem_of_mem_filter hn)).bare

theorem delivered_value {text : List UInt8} {ms : List Member} (h : IsObject text ms) :
    ∀ m ∈ delivered ms, IsValue m.value := by
  intro m hm
  rcases List.mem_append.mp hm with hm | hm
  · exact envelope_value m hm
  · obtain ⟨n, hn, rfl⟩ := List.mem_map.mp hm
    exact h.value n (List.mem_of_mem_filter hn)

/-! ## The answer -/

/-- The scan finds the members that are passed on, as they were sent. -/
theorem topLevelMembersExceptEnvelope_object {text : List UInt8} {ms : List Member}
    (h : IsObject text ms) :
    topLevelMembersExceptEnvelope text = (kept ms).map Member.raw := by
  unfold topLevelMembersExceptEnvelope kept
  rw [topLevelMembers_object h, List.filter_map, List.map_map]
  have hfilter : ms.filter ((fun n : TopLevelMember => decide
      (n.key ≠ toUtf8 "MessageId" ∧ n.key ≠ toUtf8 "ResKind")) ∘ topLevel) =
        ms.filter fun m => ¬SpelledOut m :=
    List.filter_congr fun m _ => decide_eq_decide.mpr not_or.symm
  rw [hfilter]
  rfl

/-- **The answer is an object**, whatever the claim holds besides its envelope. -/
theorem buildClaimDeliveryResponse_object {text : List UInt8} {ms : List Member}
    (h : IsObject text ms) (hkept : kept ms ≠ []) :
    IsObject (buildClaimDeliveryResponse text) (delivered ms) := by
  have hne : (kept ms).map Member.raw ≠ [] := by simpa using hkept
  have htexts : ((kept ms).map Member.bare).map Member.text = (kept ms).map Member.raw := by
    rw [List.map_map]
    exact List.map_congr_left fun m _ => m.bare_text
  have hopen : toUtf8 "\x7b\"ResKind\":0,\"MessageId\":\"SummonDataCreateResponse\"" =
      beginObject :: commaJoin (envelope.map Member.text) := by decide +kernel
  have hjoin : commaJoin ((delivered ms).map Member.text) =
      commaJoin (envelope.map Member.text) ++
        ((kept ms).map Member.raw).flatMap (valueSeparator :: ·) := by
    unfold delivered
    rw [List.map_append, htexts, commaJoin_append (by decide)]
  have hresponse : buildClaimDeliveryResponse text =
      beginObject :: commaJoin ((delivered ms).map Member.text) ++ [endObject] := by
    unfold buildClaimDeliveryResponse
    simp only [topLevelMembersExceptEnvelope_object h, if_neg hne]
    rw [hjoin, hopen]
    rfl
  rw [hresponse]
  exact @IsObject.members [] [] _ ws_nil ws_nil (by simp [delivered, envelope])
    (delivered_shaped h) (delivered_value h)

/-- Under a name the delivery has what its envelope has, and what is passed on. -/
theorem valuesOf_delivered (name : String) (ms : List Member) :
    valuesOf name (delivered ms) = valuesOf name envelope ++ valuesOf name (kept ms) := by
  unfold valuesOf delivered
  rw [List.filter_append, List.map_append, List.filter_map, List.map_map]
  rfl

theorem others_delivered (ms : List Member) :
    (others (delivered ms)).map entry = (others (kept ms)).map entry := by
  have henvelope : envelope.filter (fun m => ¬IsEnvelope m) = [] := by decide
  unfold others delivered
  rw [List.filter_append, henvelope, List.nil_append, List.filter_map, List.map_map]
  rfl

/-- Only members of the envelope are left out. -/
theorem others_kept (ms : List Member) : others (kept ms) = others ms := by
  unfold others kept
  rw [List.filter_filter]
  refine List.filter_congr fun m _ => ?_
  by_cases hspelled : SpelledOut m
  · simp [hspelled, hspelled.isEnvelope]
  · simp [hspelled]

theorem kept_ne_nil {ms : List Member} (hother : others ms ≠ []) : kept ms ≠ [] := by
  intro hnil
  rw [← others_kept, hnil] at hother
  exact hother rfl

/-! ## When the answer is right -/

theorem valuesOf_others (ms : List Member) :
    valuesOf "ResKind" (others ms) = [] ∧ valuesOf "MessageId" (others ms) = [] := by
  have hnone : ∀ m ∈ others ms, ¬IsEnvelope m := by
    intro m hm
    simpa using List.of_mem_filter hm
  unfold valuesOf
  constructor
  · rw [List.filter_eq_nil_iff.mpr fun m hm hname => hnone m hm (.inr (by simpa using hname))]
    rfl
  · rw [List.filter_eq_nil_iff.mpr fun m hm hname => hnone m hm (.inl (by simpa using hname))]
    rfl

/-- Where the envelope is spelled out, it is replaced and all else is passed on. -/
theorem delivers_of_spelledOut {text : List UInt8} {ms : List Member} (h : IsObject text ms)
    (hother : others ms ≠ []) (hspelled : ∀ m ∈ ms, IsEnvelope m → SpelledOut m) :
    Delivers ms (buildClaimDeliveryResponse text) := by
  have hkept : kept ms = others ms := by
    refine List.filter_congr fun m hm => decide_eq_decide.mpr (not_congr ?_)
    exact ⟨SpelledOut.isEnvelope, hspelled m hm⟩
  obtain ⟨hres, hmessage⟩ := valuesOf_others ms
  refine ⟨delivered ms, buildClaimDeliveryResponse_object h (kept_ne_nil hother), ?_, ?_, ?_⟩
  · rw [valuesOf_delivered, hkept, hres]
    decide
  · rw [valuesOf_delivered, hkept, hmessage]
    decide
  · rw [others_delivered, others_kept]

/-- A key of the envelope that survives is there twice. -/
theorem survivor_twice {name : String} (henv : (valuesOf name envelope).length = 1)
    {ms : List Member} {m : Member} (hm : m ∈ kept ms) (hname : m.name = some (unitsOf name)) :
    2 ≤ (valuesOf name (delivered ms)).length := by
  have hfound : m ∈ (kept ms).filter fun n => n.name = some (unitsOf name) :=
    List.mem_filter.mpr ⟨hm, by simpa using hname⟩
  have hkept : 0 < (valuesOf name (kept ms)).length := by
    unfold valuesOf
    rw [List.length_map]
    exact List.length_pos_of_mem hfound
  rw [valuesOf_delivered, List.length_append, henv]
  omega

/-- A member of the envelope that is escaped is passed on as well, and comes twice. -/
theorem not_delivers {text : List UInt8} {ms : List Member} (h : IsObject text ms) {m : Member}
    (hm : m ∈ ms) (henvelope : IsEnvelope m) (hspelled : ¬SpelledOut m) :
    ¬Delivers ms (buildClaimDeliveryResponse text) := by
  have hmem : m ∈ kept ms := List.mem_filter.mpr ⟨hm, by simpa using hspelled⟩
  have hobject := buildClaimDeliveryResponse_object h (List.ne_nil_of_mem hmem)
  rintro ⟨ms', hobject', hres, hmessage, -⟩
  have hkeys := keys_unique hobject' hobject
  rcases henvelope with hname | hname
  · have hcount := valuesOf_length hkeys "MessageId"
    have htwice := survivor_twice (by decide) hmem hname
    rw [hmessage, List.length_singleton] at hcount
    omega
  · have hcount := valuesOf_length hkeys "ResKind"
    have htwice := survivor_twice (by decide) hmem hname
    rw [hres, List.length_singleton] at hcount
    omega

/-- A claim as a client sends it, one of its members with a key of choice. -/
def claimText (key : String) : List UInt8 :=
  toUtf8 "\x7b\"MessageId\":\"SummonDataSummonRequest\",\"SessionId\":\"guest-session\",\"" ++
    toUtf8 key ++ toUtf8 "\":99\x7d"

/-- A claim with one member of the key, beside those that every claim has. -/
def claimMembers (key : String) : List Member :=
  [{ key := "MessageId".toList, value := toUtf8 "\"SummonDataSummonRequest\"" },
    { key := "SessionId".toList, value := toUtf8 "\"guest-session\"" },
    { key := key.toList, value := toUtf8 "99" }]

theorem claimMembers_object (key : String) (hkey : Spelled key.toList) :
    IsObject (claimText key) (claimMembers key) := by
  have htext : claimText key =
      beginObject :: commaJoin ((claimMembers key).map Member.text) ++ [endObject] := by
    have hmembers : claimMembers key =
        [{ key := "MessageId".toList, value := toUtf8 "\"SummonDataSummonRequest\"" },
          { key := "SessionId".toList, value := toUtf8 "\"guest-session\"" }] ++
        [{ key := key.toList, value := toUtf8 "99" }] := rfl
    rw [hmembers, List.map_append, commaJoin_append (by simp)]
    have hopen : toUtf8
        "\x7b\"MessageId\":\"SummonDataSummonRequest\",\"SessionId\":\"guest-session\",\"" =
        beginObject :: commaJoin (([
          { key := "MessageId".toList, value := toUtf8 "\"SummonDataSummonRequest\"" },
          { key := "SessionId".toList, value := toUtf8 "\"guest-session\"" }] : List Member).map
            Member.text) ++ [valueSeparator, quotationMark] := by decide +kernel
    have hclose : toUtf8 "\":99\x7d" =
        [quotationMark, nameSeparator] ++ toUtf8 "99" ++ [endObject] := by decide +kernel
    unfold claimText
    rw [hopen, hclose]
    simp [Member.text, Member.raw, quoted]
    rfl
  have hbare : ∀ {cs value}, Spelled cs → Member.Shaped { key := cs, value := value } :=
    fun h => ⟨ws_nil, h, ws_nil, ws_nil, ws_nil⟩
  have hshape : ∀ m ∈ claimMembers key, m.Shaped := by
    simp only [claimMembers, List.forall_mem_cons]
    exact ⟨hbare rfl, hbare rfl, hbare hkey, by simp⟩
  have hint : IsInt (toUtf8 "99") := .inr ⟨⟨by decide, List.all_eq_true.mp rfl⟩, by decide⟩
  have hnumber : IsNumber (toUtf8 "99") :=
    ⟨[], toUtf8 "99", [], [], .inl rfl, hint, .inl rfl, .inl rfl, rfl⟩
  have hvalue : ∀ m ∈ claimMembers key, IsValue m.value := by
    simp only [claimMembers, List.forall_mem_cons]
    have hmessage : Spelled "SummonDataSummonRequest".toList := by
      unfold Spelled
      decide +kernel
    have hsession : Spelled "guest-session".toList := by
      unfold Spelled
      decide +kernel
    exact ⟨isValue_quoted (by decide +kernel) hmessage, isValue_quoted (by decide +kernel) hsession,
      .number hnumber, by simp⟩
  rw [htext]
  exact @IsObject.members [] [] _ ws_nil ws_nil (by simp [claimMembers]) hshape hvalue

/-- `\u004b` is a `K` to everybody but the scan. -/
theorem escaped_resKind_survives :
    IsObject (claimText "Res\\u004bind") (claimMembers "Res\\u004bind") ∧
      others (claimMembers "Res\\u004bind") ≠ [] ∧
      ¬Delivers (claimMembers "Res\\u004bind")
        (buildClaimDeliveryResponse (claimText "Res\\u004bind")) := by
  have hobject : IsObject (claimText "Res\\u004bind") (claimMembers "Res\\u004bind") :=
    claimMembers_object "Res\\u004bind" rfl
  refine ⟨hobject, by decide, ?_⟩
  exact not_delivers hobject (m := { key := "Res\\u004bind".toList, value := toUtf8 "99" })
    (by simp [claimMembers]) (by decide) (by decide)

/-- **The answer delivers the claim** exactly when the claim spells the keys of its envelope without
escapes. A claim has fewer than `2^31` bytes. -/
theorem delivers_iff {text : List UInt8} {ms : List Member} (h : IsObject text ms)
    (hother : others ms ≠ []) :
    Delivers ms (buildClaimDeliveryResponse text) ↔ ∀ m ∈ ms, IsEnvelope m → SpelledOut m := by
  constructor
  · intro hdelivers m hm henvelope
    by_contra hspelled
    exact not_delivers h hm henvelope hspelled hdelivers
  · exact delivers_of_spelledOut h hother

theorem delivers_iff_resKind :
    Delivers (claimMembers "ResKind") (buildClaimDeliveryResponse (claimText "ResKind")) :=
  (delivers_iff (claimMembers_object "ResKind" rfl) (by decide)).mpr (by decide)

end ShadNet.SummonBroker
