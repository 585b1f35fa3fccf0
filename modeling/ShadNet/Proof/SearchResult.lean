import ShadNet.Proof.Base64
import ShadNet.Proof.ClaimDelivery
import ShadNet.Spec.SearchResult

/-!
# What a search returns is the advertisement

* `TextOf`: a text of the grammar for a value of Qt.
* `prepareAdvertisementForSearch_ok`: the members of an advertisement come back in their order and
  byte for byte, but for the payload of the summon and the location.
-/

namespace ShadNet.SummonBroker

open Lib Lib.JsonText

/-! ## Texts of values -/

/-- A text of the grammar for a value. `number` says what a number is read as. -/
inductive TextOf (number : List UInt8 → ℚ) : List UInt8 → Json → Prop where
  | null : TextOf number (utf8 "null".toList) .null
  | true : TextOf number (utf8 "true".toList) (.bool true)
  | false : TextOf number (utf8 "false".toList) (.bool false)
  | number {l : List UInt8} (h : IsNumber l) : TextOf number l (.num (number l))
  | string {cs : List Char} {s : String} (h : unescape cs = some (unitsOf s)) :
      TextOf number (quoted cs) (.str s)
  | emptyArray {ws : List UInt8} (hws : Ws ws) :
      TextOf number (beginArray :: ws ++ [endArray]) (.arr [])
  | array {es : List Element} {vs : List Json} (hne : es ≠ [])
      (hws : ∀ e ∈ es, Ws e.before ∧ Ws e.after) (hlen : es.length = vs.length)
      (h : ∀ p ∈ es.zip vs, TextOf number p.1.value p.2) :
      TextOf number (beginArray :: commaJoin (es.map Element.text) ++ [endArray]) (.arr vs)
  | emptyObject {ws : List UInt8} (hws : Ws ws) :
      TextOf number (beginObject :: ws ++ [endObject]) (.obj [])
  | object {ms : List Member} {o : JsonObject} (hne : ms ≠ []) (hshape : ∀ m ∈ ms, m.Shaped)
      (hlen : ms.length = o.length) (hkeys : ∀ p ∈ ms.zip o, p.1.name = some (unitsOf p.2.1))
      (h : ∀ p ∈ ms.zip o, TextOf number p.1.value p.2.2) :
      TextOf number (beginObject :: commaJoin (ms.map Member.text) ++ [endObject]) (.obj o)

variable {number : List UInt8 → ℚ} {toJson : JsonObject → List UInt8} {v : Json}

theorem exists_mem_zip {α β : Type} {l : List α} {l' : List β} (hlen : l.length = l'.length) {a : α}
    (ha : a ∈ l) : ∃ b, (a, b) ∈ l.zip l' := by
  have hfst : (l.zip l').map Prod.fst = l := List.map_fst_zip hlen.le
  rw [← hfst] at ha
  obtain ⟨p, hp, rfl⟩ := List.mem_map.mp ha
  exact ⟨p.2, hp⟩

theorem TextOf.isValue {l : List UInt8} (h : TextOf number l v) : IsValue l := by
  induction h with
  | null => exact .word (by decide)
  | true => exact .word (by decide)
  | false => exact .word (by decide)
  | number h => exact .number h
  | string h => exact .string (Option.isSome_of_eq_some h)
  | emptyArray hws => exact .emptyArray hws
  | array hne hws hlen _ ih =>
    refine .array hne hws fun e he => ?_
    obtain ⟨v, hp⟩ := exists_mem_zip hlen he
    exact ih _ hp
  | emptyObject hws => exact .emptyObject hws
  | object hne hshape hlen _ _ ih =>
    refine .object hne hshape fun m hm => ?_
    obtain ⟨v, hp⟩ := exists_mem_zip hlen hm
    exact ih _ hp

theorem TextOf.ne_nil {l : List UInt8} (h : TextOf number l v) : l ≠ [] := by
  obtain ⟨init, last, rfl, -⟩ := h.isValue.ends
  simp

/-- **What is taken from Qt**: the compact output of an object with one member is that member's text
between braces, without white space. -/
def WritesCompact (toJson : JsonObject → List UInt8) (number : List UInt8 → ℚ) (v : Json) : Prop :=
  ∃ text, TextOf number text v ∧ toJson [("_", v)] = toUtf8 "\x7b\"_\":" ++ text ++ [endObject]

/-- The text of a value is cut out of its wrapper. -/
theorem compactJsonValue_wrapped {text : List UInt8}
    (hraw : toJson [("_", v)] = toUtf8 "\x7b\"_\":" ++ text ++ [endObject]) :
    compactJsonValue toJson v = text := by
  have hopen : toUtf8 "\x7b\"_\":" = [0x7B, 0x22, 0x5F, 0x22, 0x3A] := by decide
  rw [hopen] at hraw
  have hcolon : (toJson [("_", v)]).findIdx? (· = 0x3A) = some 4 := by
    rw [hraw]
    simp [List.findIdx?_cons]
  have hlength : (toJson [("_", v)]).length = text.length + 6 := by
    rw [hraw]
    simp
  have hlast : (toJson [("_", v)]).getLast? = some 0x7D := by
    rw [hraw]
    exact List.getLast?_concat
  have hcut : ((toJson [("_", v)]).drop (4 + 1)).take ((text.length + 6) - 4 - 2) = text := by
    rw [hraw]
    exact List.take_left
  unfold compactJsonValue
  simp only [hcolon, hlength, hlast]
  rw [if_neg (by simp), hcut]

/-- What Qt writes of a value alone is a text of it. -/
theorem compactJsonValue_ok (h : WritesCompact toJson number v) :
    TextOf number (compactJsonValue toJson v) v := by
  obtain ⟨text, htext, hraw⟩ := h
  rw [compactJsonValue_wrapped hraw]
  exact htext

/-! ## What is to be returned -/

/-- The keys that tell where a sign is, and of which level. -/
def locationKeys : List String :=
  ["AreaId", "AreaRegionId", "ChannelId", "MatchingLevel", "PosX", "PosY", "PosZ"]

/-- The payload of the advertisement is one that a search marks. -/
structure Marks (advertisement : JsonObject) (payload : List UInt8) : Prop where
  version : integer advertisement "SummonDataVersion" (-1) = 3
  decoded : fromBase64 (toLatin1 (advertisement.value "SummonData").toString) = payload
  size : payload.length = 0xE0
  unmarked : payload[0x79]? = some 0

/-- Under a location key the request's value is to be told. -/
def Spoofs (request : JsonObject) (spoofLocation : Bool) (key : String) (v : Json) : Prop :=
  spoofLocation = true ∧ key ∈ locationKeys ∧ request.value key = some v ∧ v ≠ .null

/-- **What a member of the advertisement becomes**: the payload that is marked differs from the old
one in one byte, a location is the request's, and all else is as it was. -/
inductive Becomes (number : List UInt8 → ℚ) (advertisement request : JsonObject)
    (spoofLocation : Bool) : Member → Member → Prop where
  | marked {m : Member} {value payload : List UInt8} {s : String}
      (hname : m.name = some (unitsOf "SummonData")) (hmarks : Marks advertisement payload)
      (hvalue : TextOf number value (.str s))
      (hnew : fromBase64 (toLatin1 s) = payload.set 0x79 1) :
      Becomes number advertisement request spoofLocation m { key := m.key, value }
  | spoofed {m : Member} {value : List UInt8} {key : String} {v : Json}
      (hname : m.name = some (unitsOf key)) (hspoofs : Spoofs request spoofLocation key v)
      (hvalue : TextOf number value v) :
      Becomes number advertisement request spoofLocation m { key := m.key, value }
  | kept {m : Member}
      (hdata : m.name = some (unitsOf "SummonData") → ∀ payload, ¬Marks advertisement payload)
      (hlocation : ∀ key v, m.name = some (unitsOf key) → ¬Spoofs request spoofLocation key v) :
      Becomes number advertisement request spoofLocation m m.bare

/-- A location key that the advertisement lacks. -/
def Lacks (ms : List Member) (key : String) : Prop := ∀ m ∈ ms, m.name ≠ some (unitsOf key)

instance (ms : List Member) (key : String) : Decidable (Lacks ms key) := by
  unfold Lacks
  infer_instance

/-- The request's value under a location key, if it is to be told. -/
def spoofedValue (request : JsonObject) (spoofLocation : Bool) (key : String) : Option Json :=
  if spoofLocation then replacement request (toUtf8 key) else none

/-- The members that are appended: one for each key that the advertisement lacks and the request
has. -/
def Appended (number : List UInt8 → ℚ) (request : JsonObject) (spoofLocation : Bool)
    (ms added : List Member) : Prop :=
  List.Forall₂ (fun key m => m.name = some (unitsOf key) ∧
      ∃ v, Spoofs request spoofLocation key v ∧ TextOf number m.value v)
    (locationKeys.filter fun key => Lacks ms key ∧ (spoofedValue request spoofLocation key).isSome)
    added

/-- The values that the answer is to be written with. -/
def Written (advertisement request : JsonObject) (spoofLocation : Bool) (v : Json) : Prop :=
  (∃ data, summonDataWithAvailableResult advertisement = some data ∧ v = .str data) ∨
    ∃ key, Spoofs request spoofLocation key v

/-! ## Fields -/

variable {advertisement request : JsonObject} {spoofLocation : Bool} {key : String}

theorem summonDataWithAvailableResult_eq_some {data : String} :
    summonDataWithAvailableResult advertisement = some data ↔
      ∃ payload, Marks advertisement payload ∧
        data = String.ofList (toBase64 (payload.set 0x79 1)) := by
  unfold summonDataWithAvailableResult payloadSize availableResultCountOffset
  by_cases hversion : integer advertisement "SummonDataVersion" (-1) ≠ 3
  · rw [if_pos hversion]
    exact iff_of_false nofun fun ⟨_, hmarks, _⟩ => hversion hmarks.version
  rw [if_neg hversion]
  simp only
  split
  · rename_i hpayload
    refine iff_of_false nofun ?_
    rintro ⟨payload, hmarks, -⟩
    rw [hmarks.decoded] at hpayload
    rcases hpayload with hsize | hbyte
    · exact hsize hmarks.size
    · exact hbyte hmarks.unmarked
  · rename_i hpayload
    rw [not_or, not_not, not_not] at hpayload
    constructor
    · intro hdata
      exact ⟨_, ⟨not_not.mp hversion, rfl, hpayload.1, hpayload.2⟩, (Option.some.inj hdata).symm⟩
    · rintro ⟨payload, hmarks, rfl⟩
      rw [hmarks.decoded]

theorem fromLatin1_toUtf8_location (hkey : key ∈ locationKeys) : fromLatin1 (toUtf8 key) = key := by
  have hall : ∀ key ∈ locationKeys, fromLatin1 (toUtf8 key) = key := by decide +kernel
  exact hall key hkey

/-- A location is told exactly if it is replaced. -/
theorem spoofedValue_eq_some (hkey : key ∈ locationKeys) :
    spoofedValue request spoofLocation key = some v ↔ Spoofs request spoofLocation key v := by
  unfold spoofedValue Spoofs replacement
  rw [fromLatin1_toUtf8_location hkey]
  cases spoofLocation with
  | false => simp
  | true =>
    simp only [if_true, hkey, true_and]
    split
    · rename_i hnone
      simp [hnone]
    · rename_i hnull
      rw [hnull]
      refine iff_of_false nofun ?_
      rintro ⟨hv, hne⟩
      exact hne (Option.some.inj hv).symm
    · rename_i value hne hvalue
      rw [hvalue, Option.some.injEq]
      refine ⟨fun h => ⟨h, ?_⟩, fun h => h.1⟩
      rintro rfl
      exact hne h

theorem spoofedFields_eq : spoofedFields = locationKeys.map toUtf8 := rfl

/-- For a key without escapes the scan and the grammar agree on its name. -/
theorem name_eq_iff {m : Member} (hshape : m.Shaped) (hplain : '\\' ∉ m.key) :
    m.name = some (unitsOf key) ↔ utf8 m.key = toUtf8 key := by
  rw [Member.name_eq hshape.key hplain]
  exact ⟨fun h => congrArg utf8 h, fun h => utf8_injective h⟩

/-! ## Members -/

/-- A member with a new value. -/
def built (toJson : JsonObject → List UInt8) (cs : List Char) (v : Json) : Member :=
  { key := cs, value := compactJsonValue toJson v }

theorem buildRawMember_eq (h : WritesCompact toJson number v) (cs : List Char) :
    buildRawMember toJson (utf8 cs) v = (built toJson cs v).raw := by
  have hne := (compactJsonValue_ok h).ne_nil
  have hcolon : toUtf8 "\":" = [quotationMark, nameSeparator] := by decide
  unfold buildRawMember
  simp only [if_neg hne, hcolon, built, Member.raw, quoted]
  simp [quotationMark]

/-- The value that a member is given, if it does not keep its own. -/
def newValue (advertisement request : JsonObject) (spoofLocation : Bool) (key : List UInt8) :
    Option Json :=
  match if key = toUtf8 "SummonData" then summonDataWithAvailableResult advertisement else none with
  | some data => some (.str data)
  | none =>
    if spoofLocation && shouldSpoofAdvertisementField key then replacement request key else none

theorem rewriteMember_topLevel (m : Member) :
    rewriteMember toJson (summonDataWithAvailableResult advertisement) request spoofLocation
      (topLevel m) = match newValue advertisement request spoofLocation (utf8 m.key) with
        | some v => buildRawMember toJson (utf8 m.key) v
        | none => m.raw := by
  unfold rewriteMember newValue topLevel
  simp only
  cases (if utf8 m.key = toUtf8 "SummonData" then summonDataWithAvailableResult advertisement
    else none) <;> rfl

/-- What `rewriteMember` makes of a member. -/
def rewritten (toJson : JsonObject → List UInt8) (advertisement request : JsonObject)
    (spoofLocation : Bool) (m : Member) : Member :=
  match newValue advertisement request spoofLocation (utf8 m.key) with
  | some v => built toJson m.key v
  | none => m.bare

/-- **Where a new value comes from**: it is the payload that is marked, or the request's location. -/
theorem newValue_eq_some {key : List UInt8}
    (h : newValue advertisement request spoofLocation key = some v) :
    (∃ data, key = toUtf8 "SummonData" ∧
      summonDataWithAvailableResult advertisement = some data ∧ v = .str data) ∨
    ∃ name, key = toUtf8 name ∧ Spoofs request spoofLocation name v := by
  unfold newValue at h
  split at h
  · rename_i data hdata
    split at hdata
    · rename_i hkey
      exact Or.inl ⟨data, hkey, hdata, (Option.some.inj h).symm⟩
    · cases hdata
  · split at h
    · rename_i hfield
      simp only [Bool.and_eq_true, shouldSpoofAdvertisementField, spoofedFields_eq,
        List.contains_iff_mem] at hfield
      obtain ⟨hspoof, hfield⟩ := hfield
      obtain ⟨name, hname, rfl⟩ := List.mem_map.mp hfield
      refine Or.inr ⟨name, rfl, (spoofedValue_eq_some hname).mp ?_⟩
      unfold spoofedValue
      rw [if_pos hspoof, h]
    · cases h

theorem newValue_eq_none {key : List UInt8}
    (h : newValue advertisement request spoofLocation key = none) :
    (key = toUtf8 "SummonData" → summonDataWithAvailableResult advertisement = none) ∧
    ∀ name v, key = toUtf8 name → ¬Spoofs request spoofLocation name v := by
  unfold newValue at h
  split at h
  · cases h
  rename_i hdata
  constructor
  · intro hkey
    rwa [if_pos hkey] at hdata
  · rintro name v rfl hspoofs
    have hfield : shouldSpoofAdvertisementField (toUtf8 name) = true := by
      unfold shouldSpoofAdvertisementField
      rw [List.contains_iff_mem, spoofedFields_eq]
      exact List.mem_map_of_mem hspoofs.2.1
    have hvalue := (spoofedValue_eq_some hspoofs.2.1).mpr hspoofs
    unfold spoofedValue at hvalue
    rw [if_pos hspoofs.1] at hvalue
    rw [hspoofs.1, hfield, Bool.and_self, if_pos rfl, hvalue] at h
    cases h

/-- **What the answer has for a member** is what the member is to become. -/
theorem becomes_rewritten
    (hqt : ∀ v, Written advertisement request spoofLocation v → WritesCompact toJson number v)
    {m : Member} (hshape : m.Shaped) (hplain : '\\' ∉ m.key) :
    Becomes number advertisement request spoofLocation m
      (rewritten toJson advertisement request spoofLocation m) := by
  unfold rewritten
  cases hnew : newValue advertisement request spoofLocation (utf8 m.key) with
  | some v =>
    rcases newValue_eq_some hnew with ⟨data, hkey, hdata, rfl⟩ | ⟨name, hkey, hspoofs⟩
    · obtain ⟨payload, hmarks, hpayload⟩ := summonDataWithAvailableResult_eq_some.mp hdata
      refine .marked ((name_eq_iff hshape hplain).mpr hkey) hmarks
        (compactJsonValue_ok (hqt _ (Or.inl ⟨data, hdata, rfl⟩))) ?_
      rw [hpayload, fromBase64_toBase64]
    · exact .spoofed ((name_eq_iff hshape hplain).mpr hkey) hspoofs
        (compactJsonValue_ok (hqt v (Or.inr ⟨name, hspoofs⟩)))
  | none =>
    obtain ⟨hdata, hlocation⟩ := newValue_eq_none hnew
    refine .kept ?_ ?_
    · intro hname payload hmarks
      have hnone := hdata ((name_eq_iff hshape hplain).mp hname)
      rw [summonDataWithAvailableResult_eq_some.mpr ⟨payload, hmarks, rfl⟩] at hnone
      cases hnone
    · intro key v hname
      exact hlocation key v ((name_eq_iff hshape hplain).mp hname)

theorem rewriteMember_eq
    (hqt : ∀ v, Written advertisement request spoofLocation v → WritesCompact toJson number v)
    (m : Member) :
    rewriteMember toJson (summonDataWithAvailableResult advertisement) request spoofLocation
        (topLevel m) = (rewritten toJson advertisement request spoofLocation m).raw := by
  rw [rewriteMember_topLevel]
  unfold rewritten
  cases hnew : newValue advertisement request spoofLocation (utf8 m.key) with
  | some v =>
    refine buildRawMember_eq (hqt v ?_) m.key
    rcases newValue_eq_some hnew with ⟨data, -, hdata, rfl⟩ | ⟨name, -, hspoofs⟩
    · exact Or.inl ⟨data, hdata, rfl⟩
    · exact Or.inr ⟨name, hspoofs⟩
  | none => rfl

/-- The members that are appended. -/
def addedMembers (toJson : JsonObject → List UInt8) (request : JsonObject) (spoofLocation : Bool)
    (ms : List Member) : List Member :=
  (locationKeys.filter fun key => Lacks ms key).filterMap fun key =>
    (spoofedValue request spoofLocation key).map (built toJson key.toList)

theorem forall₂_filterMap {α β γ : Type} {R : α → γ → Prop} {f : α → Option β} {g : α → β → γ}
    {q : α → Prop} [DecidablePred q] {l : List α}
    (h : ∀ a ∈ l, ∀ b, f a = some b → R a (g a b)) :
    List.Forall₂ R (l.filter fun a => q a ∧ (f a).isSome)
      ((l.filter fun a => q a).filterMap fun a => (f a).map (g a)) := by
  induction l with
  | nil => exact .nil
  | cons a l ih =>
    have hrest := ih fun b hb => h b (List.mem_cons_of_mem a hb)
    by_cases hq : q a
    · rw [List.filter_cons_of_pos (p := fun a => decide (q a)) (by simpa using hq)]
      cases hf : f a with
      | none =>
        rw [List.filter_cons_of_neg (by simp [hf]), List.filterMap_cons_none (by rw [hf]; rfl)]
        exact hrest
      | some b =>
        rw [List.filter_cons_of_pos (by simp [hf, hq]), List.filterMap_cons_some (by rw [hf]; rfl)]
        exact .cons (h a List.mem_cons_self b hf) hrest
    · simpa [hq] using hrest

theorem name_locationKey (hkey : key ∈ locationKeys) :
    unescape key.toList = some (unitsOf key) := by
  have hall : ∀ key ∈ locationKeys, unescape key.toList = some (unitsOf key) := by decide +kernel
  exact hall key hkey

theorem of_mem_addedMembers {ms : List Member} {m : Member}
    (hm : m ∈ addedMembers toJson request spoofLocation ms) :
    ∃ key v, key ∈ locationKeys ∧ Spoofs request spoofLocation key v ∧
      m = built toJson key.toList v := by
  obtain ⟨key, hkey, hbuilt⟩ := List.mem_filterMap.mp hm
  obtain ⟨v, hv, rfl⟩ := Option.map_eq_some_iff.mp hbuilt
  have hlocation := List.mem_of_mem_filter hkey
  exact ⟨key, v, hlocation, (spoofedValue_eq_some hlocation).mp hv, rfl⟩

theorem addedMembers_appended
    (hqt : ∀ v, Written advertisement request spoofLocation v → WritesCompact toJson number v)
    (ms : List Member) :
    Appended number request spoofLocation ms (addedMembers toJson request spoofLocation ms) := by
  refine forall₂_filterMap (q := Lacks ms) fun key hkey v hv => ⟨name_locationKey hkey, v, ?_⟩
  have hspoofs := (spoofedValue_eq_some hkey).mp hv
  exact ⟨hspoofs, compactJsonValue_ok (hqt v (Or.inr ⟨key, hspoofs⟩))⟩

/-- The members added are those that the loop over the missing fields appends. -/
theorem addedMembers_raw
    (hqt : ∀ v, Written advertisement request spoofLocation v → WritesCompact toJson number v)
    {ms : List Member} (hshape : ∀ m ∈ ms, m.Shaped) (hplain : ∀ m ∈ ms, '\\' ∉ m.key) :
    ((if spoofLocation then
        spoofedFields.filter fun key => !((ms.map topLevel).map (·.key)).contains key
      else []).filterMap fun key => (replacement request key).map (buildRawMember toJson key)) =
      (addedMembers toJson request spoofLocation ms).map Member.raw := by
  cases hspoof : spoofLocation with
  | false =>
    unfold addedMembers spoofedValue
    simp
  | true =>
    rw [hspoof] at hqt
    have hlacks : ∀ key, (!((ms.map topLevel).map (·.key)).contains (toUtf8 key)) =
        decide (Lacks ms key) := by
      intro key
      rw [Bool.eq_iff_iff, Bool.not_eq_true', ← Bool.not_eq_true, List.contains_iff_mem,
        decide_eq_true_iff]
      simp only [List.map_map, List.mem_map, not_exists, not_and, Function.comp_apply]
      unfold Lacks
      refine forall₂_congr fun m hm => not_congr ?_
      exact (name_eq_iff (hshape m hm) (hplain m hm)).symm
    rw [if_pos rfl, spoofedFields_eq, List.filter_map, List.filterMap_map]
    unfold addedMembers
    rw [List.map_filterMap]
    have hfilter : locationKeys.filter
        ((fun key => !((ms.map topLevel).map (·.key)).contains key) ∘ toUtf8) =
        locationKeys.filter fun key => Lacks ms key := List.filter_congr fun key _ => hlacks key
    rw [hfilter]
    refine List.filterMap_congr fun key hkey => ?_
    have hlocation := List.mem_of_mem_filter hkey
    simp only [Function.comp_apply, spoofedValue, if_true, Option.map_map]
    cases hv : replacement request (toUtf8 key) with
    | none => rfl
    | some v =>
      have hspoofs : Spoofs request true key v := (spoofedValue_eq_some hlocation).mp hv
      exact congrArg some (buildRawMember_eq (hqt v (Or.inr ⟨key, hspoofs⟩)) key.toList)

/-! ## The answer -/

theorem appendMember_foldl {pieces : List (List UInt8)} (hne : ∀ piece ∈ pieces, piece ≠ [])
    (out : List UInt8) : pieces.foldl appendMember (out, false) =
      (out ++ pieces.flatMap (valueSeparator :: ·), false) := by
  induction pieces generalizing out with
  | nil => simp
  | cons piece pieces ih =>
    have hpiece := hne piece List.mem_cons_self
    have hrest := fun out => ih (fun p hp => hne p (List.mem_cons_of_mem piece hp)) out
    rw [List.foldl_cons, appendMember, if_neg hpiece]
    simp only [Bool.false_eq_true, if_false]
    rw [hrest]
    simp [valueSeparator]

/-- The first member has no comma in front. -/
theorem appendMember_foldl_first {pieces : List (List UInt8)} (hnil : pieces ≠ [])
    (hne : ∀ piece ∈ pieces, piece ≠ []) (out : List UInt8) :
    pieces.foldl appendMember (out, true) = (out ++ commaJoin pieces, false) := by
  cases pieces with
  | nil => exact absurd rfl hnil
  | cons piece pieces =>
    have hpiece := hne piece List.mem_cons_self
    rw [List.foldl_cons, appendMember, if_neg hpiece]
    simp only [if_true]
    rw [appendMember_foldl fun p hp => hne p (List.mem_cons_of_mem piece hp), commaJoin_cons]
    simp

theorem raw_ne_nil (m : Member) : m.raw ≠ [] := by simp [Member.raw, quoted]

/-- A member as the answer spells it. -/
structure Tight (m : Member) : Prop where
  before : m.before = []
  after : m.after = []

theorem Tight.text {m : Member} (h : Tight m) : m.text = m.raw := by
  unfold Member.text
  rw [h.before, h.after, List.nil_append, List.append_nil]

theorem rewritten_tight (m : Member) :
    Tight (rewritten toJson advertisement request spoofLocation m) := by
  unfold rewritten
  split <;> exact ⟨rfl, rfl⟩

theorem addedMembers_tight {ms : List Member} :
    ∀ m ∈ addedMembers toJson request spoofLocation ms, Tight m := by
  intro m hm
  obtain ⟨key, v, -, -, rfl⟩ := of_mem_addedMembers hm
  exact ⟨rfl, rfl⟩

theorem rewritten_shaped {m : Member} (hshape : m.Shaped) :
    (rewritten toJson advertisement request spoofLocation m).Shaped := by
  unfold rewritten
  split
  · exact ⟨nofun, hshape.key, nofun, nofun, nofun⟩
  · exact ⟨nofun, hshape.key, hshape.afterKey, hshape.beforeValue, nofun⟩

theorem addedMembers_shaped {ms : List Member} :
    ∀ m ∈ addedMembers toJson request spoofLocation ms, m.Shaped := by
  intro m hm
  obtain ⟨key, v, hkey, -, rfl⟩ := of_mem_addedMembers hm
  exact ⟨nofun, Option.isSome_of_eq_some (name_locationKey hkey), nofun, nofun, nofun⟩

theorem Becomes.isValue {m m' : Member}
    (h : Becomes number advertisement request spoofLocation m m') (hvalue : IsValue m.value) :
    IsValue m'.value := by
  cases h with
  | marked _ _ hnew _ => exact hnew.isValue
  | spoofed _ _ hnew => exact hnew.isValue
  | kept => exact hvalue

theorem prepareAdvertisementForSearch_eq
    (hqt : ∀ v, Written advertisement request spoofLocation v → WritesCompact toJson number v)
    {text : List UInt8} {ms : List Member} (h : IsObject text ms) (hne : ms ≠ [])
    (hplain : ∀ m ∈ ms, '\\' ∉ m.key) :
    prepareAdvertisementForSearch toJson text advertisement request spoofLocation =
      beginObject :: commaJoin ((ms.map (rewritten toJson advertisement request spoofLocation) ++
        addedMembers toJson request spoofLocation ms).map Member.text) ++ [endObject] := by
  have hkept : (ms.map topLevel).map (rewriteMember toJson
      (summonDataWithAvailableResult advertisement) request spoofLocation) =
      (ms.map (rewritten toJson advertisement request spoofLocation)).map Member.raw := by
    rw [List.map_map, List.map_map]
    exact List.map_congr_left fun m _ => rewriteMember_eq hqt m
  have htext : ∀ l : List Member, (∀ m ∈ l, Tight m) → l.map Member.text = l.map Member.raw :=
    fun l hl => List.map_congr_left fun m hm => (hl m hm).text
  have hraw : ∀ l : List Member, ∀ piece ∈ l.map Member.raw, piece ≠ [] := by
    intro l piece hpiece
    obtain ⟨m, -, rfl⟩ := List.mem_map.mp hpiece
    exact raw_ne_nil m
  have htight : ∀ m ∈ ms.map (rewritten toJson advertisement request spoofLocation) ++
      addedMembers toJson request spoofLocation ms, Tight m := by
    intro m hm
    rcases List.mem_append.mp hm with hm | hm
    · obtain ⟨n, -, rfl⟩ := List.mem_map.mp hm
      exact rewritten_tight n
    · exact addedMembers_tight m hm
  have hmembers : ms.map topLevel ≠ [] := by simpa using hne
  have hpieces : (ms.map (rewritten toJson advertisement request spoofLocation)).map Member.raw ≠
      [] := by simpa using hne
  unfold prepareAdvertisementForSearch
  simp only [topLevelMembers_object h, if_neg hmembers]
  rw [hkept, addedMembers_raw hqt h.shaped hplain,
    appendMember_foldl_first hpieces (hraw _), appendMember_foldl (hraw _), htext _ htight,
    List.map_append, commaJoin_append hpieces]
  simp [beginObject, endObject]

/-- **A search returns the advertisement.** Its members come back in their order, each with its bytes,
but for a payload to be marked and for locations that the request has; locations that the
advertisement lacks follow behind. An advertisement has fewer than `2^31` bytes. -/
theorem prepareAdvertisementForSearch_ok
    (hqt : ∀ v, Written advertisement request spoofLocation v → WritesCompact toJson number v)
    {text : List UInt8} {ms : List Member} (h : IsObject text ms) (hne : ms ≠ [])
    (hplain : ∀ m ∈ ms, '\\' ∉ m.key) :
    ∃ kept added,
      IsObject (prepareAdvertisementForSearch toJson text advertisement request spoofLocation)
        (kept ++ added) ∧
      List.Forall₂ (Becomes number advertisement request spoofLocation) ms kept ∧
      Appended number request spoofLocation ms added := by
  have hbecomes : ∀ m ∈ ms, Becomes number advertisement request spoofLocation m
      (rewritten toJson advertisement request spoofLocation m) :=
    fun m hm => becomes_rewritten hqt (h.shaped m hm) (hplain m hm)
  refine ⟨ms.map (rewritten toJson advertisement request spoofLocation),
    addedMembers toJson request spoofLocation ms, ?_, ?_, addedMembers_appended hqt ms⟩
  · rw [prepareAdvertisementForSearch_eq hqt h hne hplain]
    refine @IsObject.members [] [] _ nofun nofun (by simpa using fun hnil => absurd hnil hne) ?_ ?_
    · intro m hm
      rcases List.mem_append.mp hm with hm | hm
      · obtain ⟨n, hn, rfl⟩ := List.mem_map.mp hm
        exact rewritten_shaped (h.shaped n hn)
      · exact addedMembers_shaped m hm
    · intro m hm
      rcases List.mem_append.mp hm with hm | hm
      · obtain ⟨n, hn, rfl⟩ := List.mem_map.mp hm
        exact (hbecomes n hn).isValue (h.value n hn)
      · obtain ⟨key, v, -, hspoofs, rfl⟩ := of_mem_addedMembers hm
        exact (compactJsonValue_ok (hqt v (Or.inr ⟨key, hspoofs⟩))).isValue
  · exact List.forall₂_map_right_iff.mpr (List.forall₂_same.mpr hbecomes)

/-- The compact output for short texts and small numbers. -/
def plainJson : JsonObject → List UInt8
  | [("_", .str s)] => toUtf8 "\x7b\"_\":" ++ quoted s.toList ++ [endObject]
  | [("_", .num n)] => toUtf8 "\x7b\"_\":" ++ toUtf8 (toString n.num) ++ [endObject]
  | _ => []

/-- A number of digits only. -/
def plainNumber (l : List UInt8) : ℚ := (l.foldl (fun n b => 10 * n + (b.toNat - 48)) 0 : ℕ)

/-- A sign whose payload is to be marked. -/
def sign : JsonObject :=
  [("SummonData", .str (String.ofList (toBase64 (List.replicate 0xE0 0)))),
    ("SummonDataVersion", .num 3)]

/-- The members of a sign whose data is all zeros. -/
def signMembers : List Member :=
  [{ key := "SummonDataVersion".toList, value := toUtf8 "3" },
    { key := "SummonData".toList, value := quoted (toBase64 (List.replicate 0xE0 0)) }]

/-- The text in which that sign was sent. -/
def signText : List UInt8 := beginObject :: commaJoin (signMembers.map Member.text) ++ [endObject]

theorem isNumber_digit {b : UInt8} (h : isDigit b = true) : IsNumber [b] := by
  have hint : IsInt [b] := by
    by_cases hzero : b = 0x30
    · exact .inl (congrArg (fun c => [c]) hzero)
    · refine .inr ⟨⟨nofun, ?_⟩, fun hhead => hzero (Option.some.inj hhead)⟩
      intro c hc
      rwa [List.mem_singleton.mp hc]
  exact ⟨[], [b], [], [], .inl rfl, hint, .inl rfl, .inl rfl, rfl⟩

theorem signMembers_object : IsObject signText signMembers := by
  have hbare : ∀ {cs value}, Spelled cs → Member.Shaped { key := cs, value := value } :=
    fun h => ⟨nofun, h, nofun, nofun, nofun⟩
  have hpayload : Spelled (toBase64 (List.replicate 0xE0 0)) := by
    unfold Spelled
    decide +kernel
  refine @IsObject.members [] [] _ nofun nofun nofun ?_ ?_
  · simp only [signMembers, List.forall_mem_cons]
    exact ⟨hbare rfl, hbare rfl, nofun⟩
  · simp only [signMembers, List.forall_mem_cons]
    exact ⟨.number (isNumber_digit rfl), .string hpayload, nofun⟩

theorem sign_written {v : Json} (h : Written sign [("AreaId", .num 5)] true v) :
    WritesCompact plainJson plainNumber v := by
  rcases h with ⟨data, hdata, rfl⟩ | ⟨key, -, hkey, hvalue, -⟩
  · obtain ⟨payload, hmarks, rfl⟩ := summonDataWithAvailableResult_eq_some.mp hdata
    have hpayload : payload = List.replicate 0xE0 0 :=
      hmarks.decoded.symm.trans (fromBase64_toBase64 _)
    have hunits : unescape (toBase64 ((List.replicate 0xE0 0).set 0x79 1)) =
        some ((toBase64 ((List.replicate 0xE0 0).set 0x79 1)).flatMap codeUnits) := by
      decide +kernel
    rw [hpayload]
    refine ⟨_, .string ?_, rfl⟩
    unfold unitsOf
    rw [String.toList_ofList]
    exact hunits
  · have hentry : key = "AreaId" ∧ v = .num 5 := by
      unfold JsonObject.value at hvalue
      rw [List.lookup_cons] at hvalue
      split at hvalue
      · rename_i heq
        exact ⟨of_decide_eq_true heq, (Option.some.inj hvalue).symm⟩
      · cases hvalue
    obtain ⟨-, rfl⟩ := hentry
    exact ⟨toUtf8 "5", .number (isNumber_digit rfl), rfl⟩

/-- A search from another area gets the sign with its payload marked and with the area. -/
theorem sign_returned : ∃ kept added,
    IsObject (prepareAdvertisementForSearch plainJson signText sign [("AreaId", .num 5)] true)
      (kept ++ added) ∧
    List.Forall₂ (Becomes plainNumber sign [("AreaId", .num 5)] true) signMembers kept ∧
    Appended plainNumber [("AreaId", .num 5)] true signMembers added :=
  prepareAdvertisementForSearch_ok (fun _ => sign_written) signMembers_object nofun (by decide)

end ShadNet.SummonBroker
