import ShadNet.Proof.SearchResult
import ShadNet.Proof.SummonSearch
import ShadNet.Spec.BloodborneRoutes

/-!
# What the summon messenger answers

Hosts and guests hand each other documents that the broker never parses in full. Whatever they do, an
answer is a JSON object with the envelope of its route, and what it carries is what another client sent.

* `compactValue_isValue`: compact output is JSON.
* `prepareAdvertisement_object`: so is what a search returns of an advertisement.
* `respond_from`: where the broker's records come from.
* `messenger_answers`: what is answered along a run.
-/

namespace ShadNet.SummonBroker

open Lib Lib.JsonText

variable {writeNumber : ℚ → List UInt8} {c : Config} {qt : HttpQt}

/-! ## Compact output -/

/-- A number is written as one. -/
def WritesNumbers (writeNumber : ℚ → List UInt8) : Prop := ∀ n, IsNumber (writeNumber n)

mutual

/-- A value in its compact form is a value of the grammar. -/
theorem compactValue_isValue (h : WritesNumbers writeNumber) :
    ∀ v, IsValue (compactValue writeNumber v)
  | .null => .word (by simp [words, compactValue])
  | .bool true => .word (by simp [words, compactValue])
  | .bool false => .word (by simp [words, compactValue])
  | .num n => .number (h n)
  | .str s => .string (spelled_escape s.toList)
  | .arr l => isValue_arrayText fun text ht => (compactElements_isValue h l text ht).element
  | .obj o => isValue_objectText (fun m hm => (compactMembers_shaped h o m hm).1)
      fun m hm => (compactMembers_shaped h o m hm).2

/-- The elements of a compact array are values. -/
theorem compactElements_isValue (h : WritesNumbers writeNumber) :
    ∀ l, ∀ text ∈ compactElements writeNumber l, IsValue text
  | [], _, ht => absurd ht List.not_mem_nil
  | v :: l, text, ht => by
    rcases List.mem_cons.mp ht with rfl | ht
    · exact compactValue_isValue h v
    · exact compactElements_isValue h l text ht

/-- The members of a compact object are shaped, with values. -/
theorem compactMembers_shaped (h : WritesNumbers writeNumber) :
    ∀ o, ∀ m ∈ compactMembers writeNumber o, m.Shaped ∧ IsValue m.value
  | [], _, hm => absurd hm List.not_mem_nil
  | (key, v) :: o, m, hm => by
    rcases List.mem_cons.mp hm with rfl | hm
    · exact ⟨field_shaped (spelled_escape key.toList) _, compactValue_isValue h v⟩
    · exact compactMembers_shaped h o m hm

end

/-- The compact form of an object is an object with its members. -/
theorem toJsonCompact_object (h : WritesNumbers writeNumber) (o : JsonObject) :
    IsObject (toJsonCompact writeNumber o) (compactMembers writeNumber o) :=
  isObject_objectText (fun m hm => (compactMembers_shaped h o m hm).1)
    fun m hm => (compactMembers_shaped h o m hm).2

/-! ## Rewritten advertisements -/

/-- The text of a value is cut out of its wrapper. -/
theorem compactJsonValue_compact (v : Json) :
    compactJsonValue (toJsonCompact writeNumber) v = compactValue writeNumber v := by
  have hraw : toJsonCompact writeNumber [("_", v)] =
      toUtf8 "\x7b\"_\":" ++ compactValue writeNumber v ++ [endObject] := by
    have hopen : toUtf8 "\x7b\"_\":" =
        beginObject :: (quoted (escape "_".toList) ++ [nameSeparator]) := by decide
    rw [hopen]
    simp [toJsonCompact, objectText, compactMembers, field, JsonText.Member.text, JsonText.Member.raw,
      commaJoin]
  exact compactJsonValue_wrapped hraw

/-- A member that is built is the compact one. -/
theorem buildRawMember_compact (h : WritesNumbers writeNumber) (cs : List Char) (v : Json) :
    buildRawMember (toJsonCompact writeNumber) (utf8 cs) v =
      (field cs (compactValue writeNumber v)).raw := by
  have hne : compactValue writeNumber v ≠ [] := by
    obtain ⟨init, last, hends, -⟩ := (compactValue_isValue h v).ends
    rw [hends]
    simp
  have hcolon : toUtf8 "\":" = [quotationMark, nameSeparator] := by decide
  unfold buildRawMember
  simp only [compactJsonValue_compact, if_neg hne, hcolon, field, JsonText.Member.raw, quoted]
  simp [quotationMark]

/-- A member in the form in which answers have it. -/
def Shows (m : JsonText.Member) : Prop := m.Shaped ∧ m.text = m.raw ∧ IsValue m.value

/-- A field that was written is one of those. -/
theorem shows_field (h : WritesNumbers writeNumber) {cs : List Char} (hcs : Spelled cs) (v : Json) :
    Shows (field cs (compactValue writeNumber v)) :=
  ⟨field_shaped hcs _, by simp [JsonText.Member.text, field], compactValue_isValue h v⟩

theorem shows_bare {m : JsonText.Member} (hshape : m.Shaped) (hvalue : IsValue m.value) : Shows m.bare :=
  ⟨hshape.bare, m.bare_text, hvalue⟩

/-- What a member becomes is a member again. -/
theorem rewriteMember_shows (h : WritesNumbers writeNumber) (summonData : Option String)
    (request : JsonObject) (spoofLocation : Bool) {m : JsonText.Member} (hshape : m.Shaped)
    (hvalue : IsValue m.value) :
    ∃ m', Shows m' ∧ rewriteMember (toJsonCompact writeNumber) summonData request spoofLocation
      (topLevel m) = m'.raw := by
  unfold rewriteMember topLevel
  simp only
  split
  · exact ⟨_, shows_field h hshape.key _, buildRawMember_compact h m.key _⟩
  · split
    · exact ⟨_, shows_field h hshape.key _, buildRawMember_compact h m.key _⟩
    · exact ⟨m.bare, shows_bare hshape hvalue, rfl⟩

/-- Texts that are members one by one. -/
theorem exists_shown {texts : List (List UInt8)} (h : ∀ text ∈ texts, ∃ m, Shows m ∧ text = m.raw) :
    ∃ ms : List JsonText.Member, (∀ m ∈ ms, Shows m) ∧ texts = ms.map JsonText.Member.raw := by
  induction texts with
  | nil => exact ⟨[], by simp, rfl⟩
  | cons text texts ih =>
    obtain ⟨m, hm, rfl⟩ := h text List.mem_cons_self
    obtain ⟨ms, hms, rfl⟩ := ih fun t ht => h t (List.mem_cons_of_mem _ ht)
    exact ⟨m :: ms, List.forall_mem_cons.mpr ⟨hm, hms⟩, rfl⟩

/-- An object of such members is their texts between braces. -/
theorem objectText_shown {ms : List JsonText.Member} (h : ∀ m ∈ ms, Shows m) :
    objectText ms = beginObject :: commaJoin (ms.map JsonText.Member.raw) ++ [endObject] := by
  unfold objectText
  rw [List.map_congr_left fun m hm => (h m hm).2.1]

/-- The members that are missing are shown, if they are put in at all. -/
theorem missing_shows (h : WritesNumbers writeNumber) (request : JsonObject) {keys : List (List UInt8)}
    (hkeys : ∀ key ∈ keys, key ∈ spoofedFields) : ∀ text ∈ keys.filterMap fun key =>
      (replacement request key).map (buildRawMember (toJsonCompact writeNumber) key),
      ∃ m, Shows m ∧ text = m.raw := by
  intro text htext
  obtain ⟨key, hkey, hbuilt⟩ := List.mem_filterMap.mp htext
  obtain ⟨v, -, rfl⟩ := Option.map_eq_some_iff.mp hbuilt
  have hfield := hkeys key hkey
  rw [spoofedFields_eq] at hfield
  obtain ⟨name, hname, rfl⟩ := List.mem_map.mp hfield
  exact ⟨_, shows_field h (Option.isSome_of_eq_some (name_locationKey hname)) v,
    buildRawMember_compact h name.toList v⟩

/-- **What a search returns of an object is an object**, however its keys are spelled. -/
theorem prepareAdvertisement_object (h : WritesNumbers writeNumber) {text : List UInt8}
    {ms : List JsonText.Member} (hobject : IsObject text ms) (advertisement request : JsonObject)
    (spoofLocation : Bool) :
    ∃ ms', IsObject (prepareAdvertisementForSearch (toJsonCompact writeNumber) text advertisement
      request spoofLocation) ms' := by
  by_cases hnil : ms = []
  · subst hnil
    refine ⟨[], ?_⟩
    unfold prepareAdvertisementForSearch
    simp only [topLevelMembers_object hobject, List.map_nil, if_true]
    exact hobject
  · have hmembers : ms.map topLevel ≠ [] := by simpa using hnil
    unfold prepareAdvertisementForSearch
    simp only [topLevelMembers_object hobject, if_neg hmembers]
    -- the members as they become, and those that are missing
    have hrewritten : ∀ text ∈ (ms.map topLevel).map (rewriteMember (toJsonCompact writeNumber)
        (summonDataWithAvailableResult advertisement) request spoofLocation),
        ∃ m, Shows m ∧ text = m.raw := by
      intro text htext
      obtain ⟨member, hmember, rfl⟩ := List.mem_map.mp htext
      obtain ⟨m, hm, rfl⟩ := List.mem_map.mp hmember
      exact rewriteMember_shows h _ request spoofLocation (hobject.shaped m hm) (hobject.value m hm)
    obtain ⟨kept, hkept, hkeptTexts⟩ := exists_shown hrewritten
    generalize hmissing : (if spoofLocation = true then _ else []) = missing
    have hspoofed : ∀ key ∈ missing, key ∈ spoofedFields := by
      intro key hkey
      rw [← hmissing] at hkey
      split at hkey
      · exact List.mem_of_mem_filter hkey
      · cases hkey
    obtain ⟨added, hadded, haddedTexts⟩ := exists_shown (missing_shows h request hspoofed)
    have hraw : ∀ l : List JsonText.Member, ∀ piece ∈ l.map JsonText.Member.raw, piece ≠ [] := by
      intro l piece hpiece
      obtain ⟨m, -, rfl⟩ := List.mem_map.mp hpiece
      exact raw_ne_nil m
    have hne : kept.map JsonText.Member.raw ≠ [] := by
      rw [← hkeptTexts]
      simpa using hnil
    have hall : ∀ m ∈ kept ++ added, Shows m := by
      intro m hm
      rcases List.mem_append.mp hm with hm | hm
      · exact hkept m hm
      · exact hadded m hm
    refine ⟨kept ++ added, ?_⟩
    rw [hkeptTexts, haddedTexts, appendMember_foldl_first hne (hraw _), appendMember_foldl (hraw _)]
    have htext := objectText_shown hall
    rw [List.map_append, commaJoin_append hne] at htext
    have hobject' := isObject_objectText (fun m hm => (hall m hm).1) fun m hm => (hall m hm).2.2
    rw [htext] at hobject'
    simpa [beginObject, endObject] using hobject'

/-! ## Where the records come from -/

/-- What clients have sent: signs, claims that were accepted for a record, and placements. -/
structure Sources where
  sign : JsonObject → List UInt8 → Prop
  claim : String → List UInt8 → Prop
  placement : List UInt8 → Prop

/-- What a record holds was sent, and for it. -/
structure Record.From (src : Sources) (key : String) (r : Record) : Prop where
  named : recordKeyOf r.advertisement = key
  sign : src.sign r.advertisement r.rawAdvertisement
  claim : r.rawClaim = [] ∨ src.claim key r.rawClaim
  placement : r.hostPlacement = [] ∨ src.placement r.hostPlacement

/-- Every sign is as it was sent. -/
def AllFrom (src : Sources) (t : Records) : Prop := ∀ key r, t.get? key = some r → r.From src key

/-- More has been sent. -/
structure Sources.Le (src src' : Sources) : Prop where
  sign : ∀ o raw, src.sign o raw → src'.sign o raw
  claim : ∀ key raw, src.claim key raw → src'.claim key raw
  placement : ∀ p, src.placement p → src'.placement p

variable {src src' : Sources} {t : Records} {key : String} {r : Record}

/-- What could be sent before can still be sent. -/
theorem Record.From.mono (h : r.From src key) (hle : src.Le src') : r.From src' key :=
  ⟨h.named, hle.sign _ _ h.sign, h.claim.imp_right (hle.claim _ _),
    h.placement.imp_right (hle.placement _)⟩

theorem AllFrom.mono (h : AllFrom src t) (hle : src.Le src') : AllFrom src' t :=
  fun key r hr => (h key r hr).mono hle

/-- Expiry adds no sign. -/
theorem AllFrom.purge (h : AllFrom src t) (c : Config) (nowMs : ℤ) :
    AllFrom src (purgeExpired c nowMs t) :=
  fun key r hr => h key r (purgeExpired_get?.mp hr).1

/-- A sign from the sources may be put in. -/
theorem AllFrom.set (h : AllFrom src t) (hr : r.From src key) : AllFrom src (t.set key r) := by
  intro key' r' hr'
  rcases Table.of_get?_set hr' with ⟨rfl, rfl⟩ | ⟨-, hold⟩
  · exact hr
  · exact h key' r' hold

/-- Records that are rewritten one by one. -/
theorem AllFrom.map {t' : Records} {f : Record → Record} (h : AllFrom src t)
    (hf : ∀ key r, r.From src key → (f r).From src key)
    (hget : ∀ key, t'.get? key = (t.get? key).map f) : AllFrom src t' := by
  intro key r hr
  rw [hget key] at hr
  obtain ⟨r0, hr0, rfl⟩ := Option.map_eq_some_iff.mp hr
  exact hf key r0 (h key r0 hr0)

/-- A sign that is put up again is from the sources. -/
theorem readvertise_from (h : r.From src key) {body : JsonObject} {rawBody : List UInt8}
    (hkey : recordKeyOf body = key) (hsign : src.sign body rawBody) (nowMs : ℤ) :
    (readvertise c r body rawBody nowMs).1.From src key := by
  unfold readvertise
  simp only
  split
  · split
    · exact ⟨hkey, hsign, h.claim, h.placement⟩
    · exact ⟨hkey, hsign, h.claim, h.placement⟩
  · split
    · exact ⟨hkey, hsign, h.claim, h.placement⟩
    · exact ⟨hkey, hsign, h.claim, h.placement⟩
  · exact ⟨hkey, hsign, h.claim, h.placement⟩
  · exact ⟨hkey, hsign, h.claim, h.placement⟩

/-- What `Advertise` tells of a record is in it. -/
theorem readvertise_told (c : Config) (r : Record) (body : JsonObject) (rawBody : List UInt8)
    (nowMs : ℤ) :
    ((readvertise c r body rawBody nowMs).2.pendingClaim = [] ∨
      (readvertise c r body rawBody nowMs).2.pendingClaim = r.rawClaim) ∧
    ((readvertise c r body rawBody nowMs).2.pendingHostPlacement = [] ∨
      (readvertise c r body rawBody nowMs).2.pendingHostPlacement = r.hostPlacement) := by
  unfold readvertise
  simp only
  split
  · split
    · exact ⟨Or.inl rfl, Or.inr rfl⟩
    · exact ⟨Or.inl rfl, Or.inl rfl⟩
  · split
    · exact ⟨Or.inl rfl, Or.inr rfl⟩
    · exact ⟨Or.inr rfl, Or.inr rfl⟩
  · exact ⟨Or.inr rfl, Or.inr rfl⟩
  · exact ⟨Or.inl rfl, Or.inl rfl⟩

/-- **`Advertise`** puts in what was sent, and tells what was sent before. -/
theorem advertise_from (h : AllFrom src t) (hle : src.Le src') {body : JsonObject}
    {rawBody : List UInt8} (hsign : src'.sign body rawBody) (nowMs : ℤ) :
    AllFrom src' (advertise c t body rawBody nowMs).1 ∧
    ((advertise c t body rawBody nowMs).2.pendingClaim = [] ∨
      src.claim (recordKeyOf body) (advertise c t body rawBody nowMs).2.pendingClaim) ∧
    ((advertise c t body rawBody nowMs).2.pendingHostPlacement = [] ∨
      src.placement (advertise c t body rawBody nowMs).2.pendingHostPlacement) := by
  have hp := h.purge c nowMs
  rcases advertise_cases (c := c) (t := t) body rawBody nowMs with ⟨-, he⟩ | ⟨r, hr, -, he⟩
  · rw [he]
    exact ⟨(hp.mono hle).set ⟨rfl, hsign, Or.inl rfl, Or.inl rfl⟩, Or.inl rfl, Or.inl rfl⟩
  · rw [he]
    have hfrom := hp _ r hr
    obtain ⟨hclaim, hplacement⟩ := readvertise_told c r body rawBody nowMs
    refine ⟨(hp.mono hle).set (readvertise_from (hfrom.mono hle) rfl hsign nowMs), ?_, ?_⟩
    · rcases hclaim with hnil | heq
      · exact Or.inl hnil
      · simp only [heq]
        exact hfrom.claim
    · rcases hplacement with hnil | heq
      · exact Or.inl hnil
      · simp only [heq]
        exact hfrom.placement

/-- **`Search`** shows signs that were sent, and keeps the placement of the one that asks. -/
theorem search_from (prepare : List UInt8 → JsonObject → JsonObject → Bool → List UInt8)
    (order : Order String) (h : AllFrom src t) (hle : src.Le src') (request : JsonObject) (nowMs : ℤ)
    {hostPlacement : List UInt8} (hplacement : src'.placement hostPlacement) :
    AllFrom src' (search c prepare order t request nowMs hostPlacement).1 ∧
    ∀ sign ∈ (search c prepare order t request nowMs hostPlacement).2, ∃ advertisement raw,
      src.sign advertisement raw ∧
      sign = prepare raw advertisement request (c.seamlessCoop && c.seamlessAnywhereSummons) := by
  have hp := h.purge c nowMs
  constructor
  · refine (hp.mono hle).map
      (f := fun r => (searchRecord c prepare request nowMs hostPlacement r).1) ?_
      fun key => search_get? order request nowMs hostPlacement
    intro key r hr
    rcases searchRecord_record (c := c) prepare request nowMs hostPlacement r with
      ⟨-, he⟩ | ⟨-, he⟩
    · rw [he]
      exact hr
    · rw [he]
      exact ⟨hr.named, hr.sign, hr.claim, Or.inr hplacement⟩
  · intro sign hsign
    simp only [search] at hsign
    obtain ⟨candidate, hcandidate, rfl⟩ := List.mem_map.mp (List.mem_of_mem_take hsign)
    obtain ⟨⟨key, r⟩, hentry, hvisit⟩ := List.mem_filterMap.mp (List.mem_mergeSort.mp hcandidate)
    have hfrom := hp key r (Table.mem_inOrder.mp hentry)
    refine ⟨r.advertisement, r.rawAdvertisement, hfrom.sign, ?_⟩
    rcases searchRecord_cases (c := c) prepare request nowMs hostPlacement r with
      ⟨-, -, he⟩ | ⟨-, -, -, he⟩ | ⟨-, he⟩
    · simp only [he, Option.some.injEq] at hvisit
      rw [← hvisit]
      rfl
    · simp only [he] at hvisit
      cases hvisit
    · simp only [he] at hvisit
      cases hvisit

/-- **`Consume`** tells of a placement that was sent. -/
theorem consume_from (order : Order String) (h : AllFrom src t) (request : JsonObject) (nowMs : ℤ) :
    AllFrom src (consume c order t request nowMs).1 ∧
    ((consume c order t request nowMs).2.pendingHostPlacement = [] ∨
      src.placement (consume c order t request nowMs).2.pendingHostPlacement) := by
  have hp := h.purge c nowMs
  constructor
  · rcases consume_cases (c := c) (t := t) order request nowMs with he | hget
    · rw [he]
      exact hp
    · refine hp.map (fun key r hr => ?_) hget
      unfold consumeRecord
      split
      · split <;> exact ⟨hr.named, hr.sign, hr.claim, hr.placement⟩
      · exact hr
  · simp only [consume]
    split
    · exact Or.inl rfl
    · simp only
      cases hlast : (((((((purgeExpired c nowMs t).inOrder order).map (·.2)).filter
          (consumeMatches request)).filter (retains c request)).map (·.hostPlacement)).filter
          (· ≠ [])).getLast? with
      | none => exact Or.inl rfl
      | some placement =>
        have hmem := List.mem_of_mem_filter (List.mem_of_getLast? hlast)
        obtain ⟨r, hr, rfl⟩ := List.mem_map.mp hmem
        obtain ⟨⟨key, r⟩, hentry, rfl⟩ :=
          List.mem_map.mp (List.mem_of_mem_filter (List.mem_of_mem_filter hr))
        exact (hp key r (Table.mem_inOrder.mp hentry)).placement

/-- The client is the claimant that the broker has accepted for a record. -/
def Accepts (c : Config) (t : Records) (order : Order String) (request : JsonObject)
    (rawRequest : List UInt8) (nowMs : ℤ) (hostPlacement : List UInt8) (key : String) : Prop :=
  let result := (claim c order t request rawRequest nowMs hostPlacement).2
  result.status = .claimed ∧ recordKey result.targetSessionId result.targetUserId = key

/-- **`Claim`** keeps the request for the record that it is accepted for. -/
theorem claim_from (order : Order String) (h : AllFrom src' t) (request : JsonObject)
    (rawRequest : List UInt8) (nowMs : ℤ) (hostPlacement : List UInt8)
    (hclaim : ∀ key, Accepts c t order request rawRequest nowMs hostPlacement key →
      src'.claim key rawRequest)
    (hplacement : src'.placement hostPlacement) :
    AllFrom src' (claim c order t request rawRequest nowMs hostPlacement).1 := by
  have hp := h.purge c nowMs
  unfold Accepts at hclaim
  simp only [claim] at hclaim ⊢
  cases ht : claimTarget order (purgeExpired c nowMs t) request with
  | none => exact hp
  | some e =>
    obtain ⟨key, r⟩ := e
    simp only [ht] at hclaim ⊢
    by_cases hs : r.state = .consumed
    · rw [if_pos hs]
      exact hp
    · rw [if_neg hs] at hclaim ⊢
      have hfrom := hp key r (claimTarget_get? ht)
      by_cases hst : claimStatus c r request = .claimed
      · rw [if_pos hst] at hclaim ⊢
        refine hp.set ⟨hfrom.named, hfrom.sign, Or.inr (hclaim key ⟨hst, hfrom.named⟩), ?_⟩
        simp only
        split
        · exact Or.inr hplacement
        · exact Or.inl rfl
      · rw [if_neg hst]
        exact hp

/-! ## Answers -/

/-- The name of the answer of each route. -/
def Route.messageId : Route → String
  | .create => "SummonDataCreateResponse"
  | .get => "SummonDataGetListResponse"
  | .delete => "SummonDataRemoveResponse"
  | .request => "SummonDataSummonResponse"

/-- The object of a request that is not refused for what it is. -/
def Post.taken (qt : HttpQt) (post : Post) : Option JsonObject :=
  (parseRequest qt post.request).filter fun body =>
    decide (post.route ≠ .create) || hasRequiredAdvertisementFields body

theorem Post.taken_eq {post : Post} (h : post.route ≠ .create) :
    post.taken qt = parseRequest qt post.request := by
  unfold Post.taken
  cases parseRequest qt post.request with
  | none => rfl
  | some body => simp [Option.filter, h]

/-- **What a request is answered with**: what the answer carries has been sent before. -/
inductive Answer (c : Config) (qt : HttpQt) (src : Sources) (post : Post) : HttpResponse → Prop where
  | refused {reason : String} (hpost : post.taken qt = none) :
      Answer c qt src post (invalidRequest qt reason)
  | plain {body : JsonObject} {placement : List UInt8} (hpost : post.taken qt = some body)
      (hroute : post.route ≠ .get) (hplacement : placement = [] ∨ src.placement placement) :
      Answer c qt src post (summonResponse qt post.route.messageId placement)
  | signs {body : JsonObject} {signs : List (List UInt8)} (hpost : post.taken qt = some body)
      (hroute : post.route = .get)
      (hsigns : ∀ sign ∈ signs, ∃ advertisement raw, src.sign advertisement raw ∧
        sign = prepareAdvertisementForSearch (toJsonCompact qt.writeNumber) raw advertisement body
          (c.seamlessCoop && c.seamlessAnywhereSummons)) :
      Answer c qt src post (summonListResponse signs)
  | delivered {body : JsonObject} {raw placement : List UInt8} (hpost : post.taken qt = some body)
      (hroute : post.route = .create) (hclaim : src.claim (recordKeyOf body) raw)
      (hother : buildClaimDeliveryResponse raw ≠ [])
      (hplacement : placement = [] ∨ src.placement placement) :
      Answer c qt src post (rawJsonResponse qt (buildClaimDeliveryResponse raw) placement)
  | undeliverable {body : JsonObject} {raw : List UInt8} (hpost : post.taken qt = some body)
      (hroute : post.route = .create) (hclaim : src.claim (recordKeyOf body) raw)
      (hother : buildClaimDeliveryResponse raw = []) :
      Answer c qt src post (invalidRequest qt "Invalid pending summon claim")

/-- What a request adds to the sources. -/
structure Post.Adds (c : Config) (qt : HttpQt) (t : Records) (post : Post) (src : Sources) : Prop where
  sign : ∀ body, post.taken qt = some body → post.route = .create → src.sign body post.request.body
  claim : ∀ body key, post.taken qt = some body → post.route = .request →
    Accepts c t post.order body post.request.body post.nowMs post.request.hostPlacement key →
    src.claim key post.request.body
  placement : (post.taken qt).isSome → (post.route = .get ∨ post.route = .request) →
    src.placement post.request.hostPlacement

/-- A create is answered with what was sent: its own body is stored, or a claim of it is delivered. -/
theorem createRoute_from (h : AllFrom src t) (hle : src.Le src') {post : Post}
    (hadds : post.Adds c qt t src') (hroute : post.route = .create) :
    AllFrom src' (createRoute c qt t post.request post.nowMs).1 ∧
      Answer c qt src post (createRoute c qt t post.request post.nowMs).2 := by
  have htaken : post.taken qt =
      (parseRequest qt post.request).filter hasRequiredAdvertisementFields := by
    simp [Post.taken, hroute]
  unfold createRoute
  simp only
  rw [← htaken]
  cases hpost : post.taken qt with
  | none => exact ⟨h.mono hle, .refused hpost⟩
  | some body =>
    have hsign := hadds.sign body hpost hroute
    obtain ⟨hkeep, hclaim, hplacement⟩ := advertise_from (c := c) h hle hsign post.nowMs
    simp only
    generalize advertise c t body post.request.body post.nowMs = answer at hkeep hclaim hplacement ⊢
    obtain ⟨records, result⟩ := answer
    simp only at hkeep hclaim hplacement ⊢
    by_cases hpending : result.pendingClaim ≠ []
    · rw [if_pos hpending]
      have hsent := hclaim.resolve_left hpending
      by_cases hnil : buildClaimDeliveryResponse result.pendingClaim = []
      · rw [if_pos hnil]
        exact ⟨hkeep, .undeliverable hpost hroute hsent hnil⟩
      · rw [if_neg hnil]
        exact ⟨hkeep, .delivered hpost hroute hsent hnil hplacement⟩
    · rw [if_neg hpending]
      refine ⟨hkeep, ?_⟩
      have hplain := Answer.plain (c := c) hpost (by simp [hroute]) hplacement
      rw [hroute] at hplain
      exact hplain

/-- **A request** is answered with what was sent, and what it sends is kept. -/
theorem respond_from (h : AllFrom src t) (hle : src.Le src') {post : Post}
    (hadds : post.Adds c qt t src') :
    AllFrom src' (respond c qt t post).1 ∧ Answer c qt src post (respond c qt t post).2 := by
  have hall : AllFrom src' t := h.mono hle
  unfold respond
  cases hroute : post.route with
  | create => exact createRoute_from h hle hadds hroute
  | get =>
    have htaken : post.taken qt = parseRequest qt post.request := Post.taken_eq (by simp [hroute])
    unfold getRoute
    simp only
    rw [← htaken]
    cases hpost : post.taken qt with
    | none => exact ⟨hall, .refused hpost⟩
    | some body =>
      have hplacement := hadds.placement (by rw [hpost]; rfl) (Or.inl hroute)
      obtain ⟨hkeep, hsigns⟩ := search_from (c := c)
        (prepareAdvertisementForSearch (toJsonCompact qt.writeNumber)) post.order h hle body post.nowMs
        hplacement
      exact ⟨hkeep, .signs hpost hroute hsigns⟩
  | delete =>
    have htaken : post.taken qt = parseRequest qt post.request := Post.taken_eq (by simp [hroute])
    unfold deleteRoute
    simp only
    rw [← htaken]
    cases hpost : post.taken qt with
    | none => exact ⟨hall, .refused hpost⟩
    | some body =>
      obtain ⟨hkeep, hplacement⟩ := consume_from (c := c) post.order h body post.nowMs
      have hplain := Answer.plain (c := c) hpost (by simp [hroute]) hplacement
      rw [hroute] at hplain
      exact ⟨hkeep.mono hle, hplain⟩
  | request =>
    have htaken : post.taken qt = parseRequest qt post.request := Post.taken_eq (by simp [hroute])
    unfold requestRoute
    simp only
    rw [← htaken]
    cases hpost : post.taken qt with
    | none => exact ⟨hall, .refused hpost⟩
    | some body =>
      have hplacement := hadds.placement (by rw [hpost]; rfl) (Or.inr hroute)
      have hkeep := claim_from (c := c) post.order hall body post.request.body post.nowMs
        post.request.hostPlacement (fun key => hadds.claim body key hpost hroute) hplacement
      have hplain : Answer c qt src post _ :=
        .plain hpost (by simp [hroute]) (Or.inl (rfl : ([] : List UInt8) = []))
      rw [hroute] at hplain
      exact ⟨hkeep, hplain⟩

/-! ## Envelopes -/

/-- What is taken from Qt: a number is written as one, and small ones as digits. -/
structure HttpQt.Lawful (qt : HttpQt) : Prop where
  numbers : WritesNumbers qt.writeNumber
  zero : qt.writeNumber 0 = toUtf8 "0"
  one : qt.writeNumber 1 = toUtf8 "1"

/-- **An answer is an object**, with a code that tells whether the request was taken and with the name
of the message. -/
def Enveloped (response : HttpResponse) (messageId : String) : Prop :=
  ∃ ms, IsObject response.body ms ∧
    field "ResKind".toList (toUtf8 (if response.status = .ok then "0" else "1")) ∈ ms ∧
    field "MessageId".toList (quoted messageId.toList) ∈ ms

/-- The header changes neither status nor body. -/
theorem withHostPlacement_same (response : HttpResponse) (placement : List UInt8) :
    (withHostPlacement qt response placement).body = response.body ∧
      (withHostPlacement qt response placement).status = response.status := by
  unfold withHostPlacement
  split <;> exact ⟨rfl, rfl⟩

theorem Enveloped.placed {response : HttpResponse} {messageId : String}
    (h : Enveloped response messageId) (placement : List UInt8) :
    Enveloped (withHostPlacement qt response placement) messageId := by
  obtain ⟨hbody, hstatus⟩ := @withHostPlacement_same qt response placement
  unfold Enveloped
  rw [hbody, hstatus]
  exact h

theorem escape_messageId (route : Route) : escape route.messageId.toList = route.messageId.toList := by
  cases route <;> decide

theorem escape_envelope : escape "ResKind".toList = "ResKind".toList ∧
    escape "MessageId".toList = "MessageId".toList := by decide

theorem summonBody_eq (messageId : String) :
    summonBody messageId = [("MessageId", .str messageId), ("ResKind", .num 0)] := by
  have hlt : "MessageId" < "ResKind" := by decide
  simp [summonBody, JsonObject.ofFields, JsonObject.insert, hlt]

theorem invalidBody_eq (reason : String) :
    invalidBody reason = [("Error", .str reason), ("MessageId", .str ""), ("ResKind", .num 1)] := by
  have hlt : "MessageId" < "ResKind" := by decide
  have hlt' : "Error" < "MessageId" := by decide
  simp [invalidBody, JsonObject.ofFields, JsonObject.insert, hlt, hlt']

theorem summonBody_members (messageId : String) : compactMembers writeNumber (summonBody messageId) =
    [field "MessageId".toList (quoted (escape messageId.toList)),
      field "ResKind".toList (writeNumber 0)] := by
  obtain ⟨hkind, hid⟩ := escape_envelope
  rw [summonBody_eq, compactMembers, compactMembers, compactMembers, hkind, hid, compactValue,
    compactValue]

theorem invalidBody_members (reason : String) : compactMembers writeNumber (invalidBody reason) =
    [field (escape "Error".toList) (quoted (escape reason.toList)),
      field "MessageId".toList (quoted "".toList), field "ResKind".toList (writeNumber 1)] := by
  obtain ⟨hkind, hid⟩ := escape_envelope
  rw [invalidBody_eq, compactMembers, compactMembers, compactMembers, compactMembers, hkind, hid,
    compactValue, compactValue, compactValue]
  rfl

/-- An answer without data has its envelope. -/
theorem summonResponse_enveloped (hqt : qt.Lawful) (route : Route) (placement : List UInt8) :
    Enveloped (summonResponse qt route.messageId placement) route.messageId := by
  have hobject := toJsonCompact_object hqt.numbers (summonBody route.messageId)
  rw [summonBody_members, escape_messageId, hqt.zero] at hobject
  refine Enveloped.placed ⟨_, hobject, ?_, List.mem_cons_self⟩ placement
  exact List.mem_cons_of_mem _ List.mem_cons_self

/-- A refusal has its envelope. -/
theorem invalidRequest_enveloped (hqt : qt.Lawful) (reason : String) :
    Enveloped (invalidRequest qt reason) "" := by
  have hobject := toJsonCompact_object hqt.numbers (invalidBody reason)
  rw [invalidBody_members, hqt.one] at hobject
  refine ⟨_, hobject, ?_, List.mem_cons_of_mem _ List.mem_cons_self⟩
  exact List.mem_cons_of_mem _ (List.mem_cons_of_mem _ List.mem_cons_self)

/-- The signs stand behind each other with commas between them. -/
theorem appendSigns_eq (body : List UInt8) (signs : List (List UInt8)) :
    appendSigns body signs = body ++ commaJoin signs := by
  have hrest : ∀ (signs : List (List UInt8)) (out : List UInt8),
      signs.foldl (fun out sign => (out.1 ++ (if out.2 then [] else [0x2C]) ++ sign, false))
        (out, false) = (out ++ signs.flatMap (valueSeparator :: ·), false) := by
    intro signs
    induction signs with
    | nil => simp
    | cons sign signs ih =>
      intro out
      rw [List.foldl_cons]
      simp only [Bool.false_eq_true, if_false]
      rw [ih]
      simp [valueSeparator]
  unfold appendSigns
  cases signs with
  | nil => simp [commaJoin]
  | cons sign signs =>
    rw [List.foldl_cons]
    simp only [if_true]
    rw [hrest, commaJoin_cons]
    simp

/-- The list of signs, with the envelope behind it. -/
def listMembers (signs : List (List UInt8)) : List JsonText.Member :=
  [field "SummonDataList".toList (arrayText signs), field "ResKind".toList (toUtf8 "0"),
    field "MessageId".toList (quoted Route.get.messageId.toList)]

/-- The answer to a search has its envelope, whatever the signs are. -/
theorem summonListResponse_enveloped {signs : List (List UInt8)}
    (h : ∀ sign ∈ signs, ∃ ms, IsObject sign ms) :
    Enveloped (summonListResponse signs) Route.get.messageId := by
  have hopen : toUtf8 "\x7b\"SummonDataList\":[" =
      beginObject :: (quoted "SummonDataList".toList ++ [nameSeparator, beginArray]) := by decide +kernel
  have hclose : toUtf8 "],\"ResKind\":0,\"MessageId\":\"SummonDataGetListResponse\"\x7d" =
      endArray :: ([valueSeparator] ++ (field "ResKind".toList (toUtf8 "0")).text ++ [valueSeparator] ++
        (field "MessageId".toList (quoted Route.get.messageId.toList)).text ++ [endObject]) := by
    decide +kernel
  have hbody : (summonListResponse signs).body = objectText (listMembers signs) := by
    unfold summonListResponse
    simp only
    rw [appendSigns_eq, hopen, hclose]
    simp [objectText, listMembers, commaJoin_cons, arrayText, field, JsonText.Member.text,
      JsonText.Member.raw]
  have hmessage : Spelled Route.get.messageId.toList := by
    unfold Spelled
    decide +kernel
  have hlist : Spelled "SummonDataList".toList := rfl
  have hkind : Spelled "ResKind".toList := rfl
  have hid : Spelled "MessageId".toList := rfl
  refine ⟨listMembers signs, ?_, by simp [listMembers, summonListResponse], by simp [listMembers]⟩
  rw [hbody]
  refine isObject_objectText ?_ ?_
  · simp only [listMembers, List.forall_mem_cons]
    exact ⟨field_shaped hlist _, field_shaped hkind _, field_shaped hid _, by simp⟩
  · simp only [listMembers, List.forall_mem_cons]
    refine ⟨isValue_arrayText fun sign hsign => ?_, ?_, .string hmessage, by simp⟩
    · obtain ⟨ms, hms⟩ := h sign hsign
      exact hms.element
    · exact .number ⟨[], toUtf8 "0", [], [], .inl rfl, .inl rfl, .inl rfl, .inl rfl, rfl⟩

/-- A claim with something to deliver. -/
theorem delivered_enveloped {raw placement : List UInt8} {ms : List JsonText.Member} (h : IsObject raw ms)
    (hother : buildClaimDeliveryResponse raw ≠ []) :
    Enveloped (rawJsonResponse qt (buildClaimDeliveryResponse raw) placement)
      Route.create.messageId := by
  have hkept : kept ms ≠ [] := by
    intro hnil
    apply hother
    unfold buildClaimDeliveryResponse
    simp only [topLevelMembersExceptEnvelope_object h, hnil, List.map_nil, if_true]
  have hmessage : toUtf8 "\"SummonDataCreateResponse\"" = quoted Route.create.messageId.toList := by
    decide +kernel
  refine Enveloped.placed ⟨delivered ms, buildClaimDeliveryResponse_object h hkept, ?_, ?_⟩ placement
  · exact List.mem_append_left _ List.mem_cons_self
  · refine List.mem_append_left _ (List.mem_cons_of_mem _ ?_)
    rw [← hmessage]
    exact List.mem_singleton.mpr rfl

/-- What was sent is JSON. -/
structure Sources.Json (src : Sources) : Prop where
  sign : ∀ o raw, src.sign o raw → ∃ ms, IsObject raw ms
  claim : ∀ key raw, src.claim key raw → ∃ ms, IsObject raw ms

/-- Every answer has its envelope. -/
theorem Answer.enveloped (hqt : qt.Lawful) (hjson : src.Json) {post : Post}
    {response : HttpResponse} (h : Answer c qt src post response) :
    Enveloped response (if response.status = .ok then post.route.messageId else "") := by
  cases h with
  | refused hpost => exact invalidRequest_enveloped hqt _
  | plain hpost hroute hplacement =>
    rename_i body placement
    have hstatus : (summonResponse qt post.route.messageId placement).status = .ok :=
      (withHostPlacement_same _ placement).2
    rw [if_pos hstatus]
    exact summonResponse_enveloped hqt post.route placement
  | signs hpost hroute hsigns =>
    rename_i body signs
    have hstatus : (summonListResponse signs).status = .ok := rfl
    rw [if_pos hstatus, hroute]
    refine summonListResponse_enveloped fun sign hsign => ?_
    obtain ⟨advertisement, raw, hsent, rfl⟩ := hsigns sign hsign
    obtain ⟨ms, hms⟩ := hjson.sign _ _ hsent
    exact prepareAdvertisement_object hqt.numbers hms _ _ _
  | delivered hpost hroute hclaim hother hplacement =>
    rename_i body raw placement
    have hstatus : (rawJsonResponse qt (buildClaimDeliveryResponse raw) placement).status = .ok :=
      (withHostPlacement_same _ placement).2
    rw [if_pos hstatus, hroute]
    obtain ⟨ms, hms⟩ := hjson.claim _ _ hclaim
    exact delivered_enveloped hms hother
  | undeliverable hpost hroute hclaim hother => exact invalidRequest_enveloped hqt _

/-! ## Runs -/

/-- What the first `n` requests of a run have sent. -/
def sources (c : Config) (qt : HttpQt) (posts : List Post) (n : ℕ) : Sources where
  sign body raw := ∃ m < n, ∃ post, posts[m]? = some post ∧ post.route = .create ∧
    post.taken qt = some body ∧ raw = post.request.body
  claim key raw := ∃ m < n, ∃ post body, posts[m]? = some post ∧ post.route = .request ∧
    post.taken qt = some body ∧ raw = post.request.body ∧
    Accepts c (messengerAfter c qt posts m) post.order body raw post.nowMs post.request.hostPlacement
      key
  placement p := ∃ m < n, ∃ post, posts[m]? = some post ∧ (post.route = .get ∨ post.route = .request) ∧
    (post.taken qt).isSome ∧ p = post.request.hostPlacement

/-- A post leaves the sources that there were. -/
theorem sources_le (c : Config) (qt : HttpQt) (posts : List Post) (n : ℕ) :
    (sources c qt posts n).Le (sources c qt posts (n + 1)) := by
  refine ⟨?_, ?_, ?_⟩
  · rintro o raw ⟨m, hm, hsent⟩
    exact ⟨m, by omega, hsent⟩
  · rintro key raw ⟨m, hm, hsent⟩
    exact ⟨m, by omega, hsent⟩
  · rintro p ⟨m, hm, hsent⟩
    exact ⟨m, by omega, hsent⟩

/-- Each post adds what it has taken and said. -/
theorem sources_adds {posts : List Post} {n : ℕ} {post : Post} (h : posts[n]? = some post) :
    post.Adds c qt (messengerAfter c qt posts n) (sources c qt posts (n + 1)) := by
  refine ⟨?_, ?_, ?_⟩
  · intro body hpost hroute
    exact ⟨n, by omega, post, h, hroute, hpost, rfl⟩
  · intro body key hpost hroute haccepts
    exact ⟨n, by omega, post, body, h, hroute, hpost, rfl, haccepts⟩
  · intro hpost hroute
    exact ⟨n, by omega, post, h, hroute, hpost, rfl⟩

/-- **The records hold what was sent.** -/
theorem messengerAfter_from (c : Config) (qt : HttpQt) (posts : List Post) :
    ∀ n ≤ posts.length, AllFrom (sources c qt posts n) (messengerAfter c qt posts n) := by
  intro n
  induction n with
  | zero =>
    intro _ key r hr
    simp [messengerAfter] at hr
  | succ n ih =>
    intro hn
    have hpost : posts[n]? = some posts[n] := List.getElem?_eq_getElem hn
    have hstep := respond_from (ih (by omega)) (sources_le c qt posts n) (sources_adds hpost)
    unfold messengerAfter at hstep ⊢
    rw [runAt_succ _ hn]
    exact hstep.1

/-- **Answers along a run.** Every request of a run, in whatever order hosts and guests come, gets one of
the answers above, and what is in it was sent before: signs by hosts, a claim by the guest that the broker
has accepted for this very host, a placement by a guest. If what was taken before were JSON objects, the
answer is one too, with a code that tells whether the request was taken and the name of the message, which
is empty if it was not. -/
theorem messenger_answers (c : Config) (qt : HttpQt) (posts : List Post) (n : ℕ) (hn : n < posts.length) :
    let response := (respond c qt (messengerAfter c qt posts n) posts[n]).2
    Answer c qt (sources c qt posts n) posts[n] response ∧
      (qt.Lawful →
        (∀ post ∈ posts.take n, (post.taken qt).isSome → ∃ ms, IsObject post.request.body ms) →
        Enveloped response (if response.status = .ok then posts[n].route.messageId else "")) := by
  intro response
  have hpost : posts[n]? = some posts[n] := List.getElem?_eq_getElem hn
  have hanswer := (respond_from (messengerAfter_from c qt posts n hn.le) (sources_le c qt posts n)
    (sources_adds hpost)).2
  refine ⟨hanswer, fun hqt hjson => hanswer.enveloped hqt ?_⟩
  -- the sources are the requests before this one
  have hbefore : ∀ {m post}, m < n → posts[m]? = some post → post ∈ posts.take n := by
    intro m post hm hget
    refine List.mem_of_getElem? (i := m) ?_
    rw [List.getElem?_take_of_lt hm, hget]
  constructor
  · rintro body raw ⟨m, hlt, post, hm, -, htaken, rfl⟩
    exact hjson post (hbefore hlt hm) (by rw [htaken]; rfl)
  · rintro key raw ⟨m, hlt, post, body, hm, -, htaken, rfl, -⟩
    exact hjson post (hbefore hlt hm) (by rw [htaken]; rfl)

/-! ### A host and a guest -/

/-- How numbers of one digit are written. -/
def writeDigit (n : ℚ) : List UInt8 := [UInt8.ofNat (0x30 + n.num.natAbs % 10)]

/-- A sign with all that is required. -/
def hostSign : JsonObject :=
  [("AreaId", .num 2), ("AreaRegionId", .num 3), ("MatchingLevel", .num 5),
    ("SessionId", .str "host-session"), ("SummonData", .str "AAAA"), ("SummonDataVersion", .num 3),
    ("SummonType", .num 1), ("UserId", .num 7)]

/-- A claim of that sign. -/
def guestClaim : JsonObject := [("SessionId", .str "host-session"), ("UserId", .num 8)]

/-- Qt, for these two objects. -/
def HttpQt.plain : HttpQt where
  fromJson raw :=
    if raw = toJsonCompact writeDigit hostSign then some (.obj hostSign)
    else if raw = toJsonCompact writeDigit guestClaim then some (.obj guestClaim)
    else none
  writeNumber := writeDigit
  headerTakes _ := true

theorem HttpQt.plain_lawful : HttpQt.plain.Lawful where
  numbers n := by
    have hall : ∀ k : Fin 10, isDigit (UInt8.ofNat (0x30 + k)) = true := by decide
    exact isNumber_digit (hall ⟨n.num.natAbs % 10, Nat.mod_lt _ (by omega)⟩)
  zero := by decide
  one := by decide

/-- The host is told of the guest when he shows his sign again. -/
def hostAndGuest : List Post :=
  [⟨.create, { body := toJsonCompact writeDigit hostSign }, .listed, 1⟩,
    ⟨.request, { body := toJsonCompact writeDigit guestClaim }, .listed, 2⟩,
    ⟨.create, { body := toJsonCompact writeDigit hostSign }, .listed, 3⟩]

theorem messenger_answers_host :
    let c := Config.ofOptions {}
    let response := (respond c .plain (messengerAfter c .plain hostAndGuest 2) hostAndGuest[2]).2
    Answer c .plain (sources c .plain hostAndGuest 2) hostAndGuest[2] response ∧
      Enveloped response (if response.status = .ok then hostAndGuest[2].route.messageId else "") := by
  intro c response
  obtain ⟨hanswer, henveloped⟩ := messenger_answers c .plain hostAndGuest 2 (by decide)
  refine ⟨hanswer, henveloped HttpQt.plain_lawful ?_⟩
  intro post hpost _
  simp only [hostAndGuest, List.take_succ_cons, List.take_zero, List.mem_cons, List.not_mem_nil,
    or_false] at hpost
  rcases hpost with rfl | rfl
  · exact ⟨_, toJsonCompact_object HttpQt.plain_lawful.numbers hostSign⟩
  · exact ⟨_, toJsonCompact_object HttpQt.plain_lawful.numbers guestClaim⟩

end ShadNet.SummonBroker
