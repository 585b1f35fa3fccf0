import ShadNet.Lib.Wrap
import ShadNet.Proof.SummonLifecycle

/-!
# What a search shows

* `Eligible`: the records that a search may show its requester.
* `searchRecord_cases`: a record is shown as it is, sent to be prepared, or left alone.
* `search_ok`: in every state of a run a search shows the newest of the eligible records, and
  in classic mode it changes none.
-/

namespace ShadNet.SummonBroker

open Lib

variable {c : Config} {prepare : List UInt8 → JsonObject → JsonObject → Bool → List UInt8}
  {t t' : Records} {key : String} {r : Record} {request : JsonObject} {nowMs : ℤ}
  {hostPlacement : List UInt8}

/-- The user who asks; a request without one is not from anybody. -/
def requesterOf (request : JsonObject) : ℤ := integer request "UserId" (-1)

/-- **The records that a search may show**: `t` is the table before it and `t'` the one after. -/
structure Eligible (c : Config) (t t' : Records) (request : JsonObject) (nowMs : ℤ) (key : String)
    (r : Record) : Prop where
  there : t.get? key = some r
  unexpired : expired c nowMs r = false
  -- a sign that the search sends to be prepared is no longer advertised
  left : t'.get? key = some r
  notUser : integer r.advertisement "UserId" (-1) ≠ requesterOf request
  notSession : sessionIdOf r.advertisement ≠ sessionIdOf request
  matching :
    matchesSearch request r.advertisement (c.seamlessCoop && c.seamlessAnywhereSummons) = true
  free : r.state = .advertised ∨ (c.seamlessCoop = true ∧
    (r.state = .claimed ∨ r.state = .delivered) ∧ 0 ≤ requesterOf request ∧
    integer r.claim "UserId" (-2) = requesterOf request)

theorem matchesSearch_foreign {sign : JsonObject} {anywhere : Bool}
    (h : matchesSearch request sign anywhere = true) :
    integer sign "UserId" (-1) ≠ requesterOf request ∧ sessionIdOf sign ≠ sessionIdOf request := by
  simp only [matchesSearch, Bool.and_eq_true, Bool.not_eq_true', Bool.or_eq_false_iff,
    decide_eq_false_iff_not] at h
  exact h.1.1.1.1.1.1

/-- What a candidate is made of. -/
def candidateOf (c : Config) (prepare : List UInt8 → JsonObject → JsonObject → Bool → List UInt8)
    (request : JsonObject) (r : Record) : ℤ × List UInt8 :=
  (r.updatedAtMs, prepare r.rawAdvertisement r.advertisement request
    (c.seamlessCoop && c.seamlessAnywhereSummons))

/-- **What a search does to a record.** -/
theorem searchRecord_cases (prepare : List UInt8 → JsonObject → JsonObject → Bool → List UInt8)
    (request : JsonObject) (nowMs : ℤ) (hostPlacement : List UInt8) (r : Record) :
    -- shown
    (matchesSearch request r.advertisement (c.seamlessCoop && c.seamlessAnywhereSummons) = true ∧
      (r.state = .advertised ∨ (c.seamlessCoop = true ∧ isSeamlessActiveState r.state = true ∧
        0 ≤ requesterOf request ∧ integer r.claim "UserId" (-2) = requesterOf request)) ∧
      searchRecord c prepare request nowMs hostPlacement r =
        (r, some (candidateOf c prepare request r))) ∨
    -- sent to be prepared
    (r.state = .advertised ∧ c.seamlessCoop = true ∧
      (searchRecord c prepare request nowMs hostPlacement r).1.state = .preparing ∧
      (searchRecord c prepare request nowMs hostPlacement r).2 = none) ∨
    -- left alone
    (¬ (matchesSearch request r.advertisement (c.seamlessCoop && c.seamlessAnywhereSummons) = true ∧
      (r.state = .advertised ∨ (c.seamlessCoop = true ∧ isSeamlessActiveState r.state = true ∧
        0 ≤ requesterOf request ∧ integer r.claim "UserId" (-2) = requesterOf request))) ∧
      searchRecord c prepare request nowMs hostPlacement r = (r, none)) := by
  simp only [searchRecord]
  split
  · rename_i hs
    split
    · rename_i hprep
      simp only [Bool.and_eq_true] at hprep
      exact Or.inr (Or.inl ⟨hs.1, hprep.1.1.1, rfl, rfl⟩)
    · exact Or.inl ⟨hs.2, Or.inl hs.1, rfl⟩
  · rename_i hno
    split
    · rename_i hs
      exact Or.inl ⟨hs.2.2.2.2, Or.inr ⟨hs.1, hs.2.1, hs.2.2.1, hs.2.2.2.1⟩, rfl⟩
    · rename_i hno'
      refine Or.inr (Or.inr ⟨?_, rfl⟩)
      rintro ⟨hmatch, hadv | ⟨hcoop, hactive, hreq, hclaim⟩⟩
      · exact hno ⟨hadv, hmatch⟩
      · exact hno' ⟨hcoop, hactive, hreq, hclaim, hmatch⟩

/-- A record gives a candidate exactly if it is eligible. -/
theorem eligible_iff (hok : RecordsOk t) (order : Order String) :
    Eligible c t (search c prepare order t request nowMs hostPlacement).1 request nowMs key r ↔
      (purgeExpired c nowMs t).get? key = some r ∧
        (searchRecord c prepare request nowMs hostPlacement r).2 =
          some (candidateOf c prepare request r) := by
  constructor
  · intro h
    have hpurged : (purgeExpired c nowMs t).get? key = some r :=
      purgeExpired_get?.mpr ⟨h.there, h.unexpired⟩
    have hleft := h.left
    rw [search_get?, hpurged] at hleft
    have hsame : (searchRecord c prepare request nowMs hostPlacement r).1 = r :=
      Option.some.inj hleft
    refine ⟨hpurged, ?_⟩
    rcases searchRecord_cases (c := c) prepare request nowMs hostPlacement r with
      ⟨-, -, he⟩ | ⟨hadv, -, hprep, -⟩ | ⟨hno, -⟩
    · rw [he]
    · -- prepared, it would not be as it was
      rw [hsame, hadv] at hprep
      cases hprep
    · refine absurd ⟨h.matching, h.free.imp_right fun ⟨hcoop, hheld, hclaim⟩ => ?_⟩ hno
      refine ⟨hcoop, ?_, hclaim⟩
      rcases hheld with hs | hs <;> rw [hs] <;> rfl
  · rintro ⟨hpurged, hcand⟩
    obtain ⟨hr, hex⟩ := purgeExpired_get?.mp hpurged
    rcases searchRecord_cases (c := c) prepare request nowMs hostPlacement r with
      ⟨hmatch, hfree, he⟩ | ⟨-, -, -, hnone⟩ | ⟨-, he⟩
    · obtain ⟨huser, hsession⟩ := matchesSearch_foreign hmatch
      have hleft : (search c prepare order t request nowMs hostPlacement).1.get? key = some r := by
        rw [search_get?, hpurged, Option.map_some, he]
      refine ⟨hr, hex, hleft, huser, hsession, hmatch, hfree.imp_right ?_⟩
      rintro ⟨hcoop, hactive, hreq, hclaim⟩
      refine ⟨hcoop, ?_, hreq, hclaim⟩
      cases hs : r.state <;> rw [hs] at hactive
      case claimed => exact Or.inl rfl
      case delivered => exact Or.inr rfl
      case preparing =>
        -- nobody has claimed a record in preparation
        have hnone : r.claim = [] := ((hok key r hr).unclaimed (Or.inr hs)).1
        rw [hnone] at hclaim
        have hminus : (-2 : ℤ) = requesterOf request := hclaim
        omega
      all_goals cases hactive
    · rw [hnone] at hcand
      cases hcand
    · rw [he] at hcand
      cases hcand

/-- **What a search answers and changes.** -/
structure SearchOk (c : Config)
    (prepare : List UInt8 → JsonObject → JsonObject → Bool → List UInt8) (order : Order String)
    (t : Records) (request : JsonObject) (nowMs : ℤ) (hostPlacement : List UInt8) : Prop where
  /-- The answer is a first part of the eligible records, newest first. -/
  shown : ∃ (newest : List (String × Record)) (count : ℕ), (newest.map (·.1)).Nodup ∧
    (∀ key r, (key, r) ∈ newest ↔
      Eligible c t (search c prepare order t request nowMs hostPlacement).1 request nowMs key r) ∧
    newest.Pairwise (fun a b => b.2.updatedAtMs ≤ a.2.updatedAtMs) ∧
    (0 ≤ integer request "GetMaxCount" 20 → integer request "GetMaxCount" 20 < 2 ^ 31 →
      (count : ℤ) = integer request "GetMaxCount" 20) ∧
    (search c prepare order t request nowMs hostPlacement).2 = (newest.take count).map fun e =>
      prepare e.2.rawAdvertisement e.2.advertisement request
        (c.seamlessCoop && c.seamlessAnywhereSummons)
  classic : c.seamlessCoop = false → ∀ key r, t.get? key = some r → expired c nowMs r = false →
    (search c prepare order t request nowMs hostPlacement).1.get? key = some r

/-- The candidates come from the entries that give one, in their order. -/
theorem filterMap_candidates (l : List (String × Record)) :
    (l.filterMap fun e => (searchRecord c prepare request nowMs hostPlacement e.2).2) =
      (l.filter fun e => (searchRecord c prepare request nowMs hostPlacement e.2).2.isSome).map
        fun e => candidateOf c prepare request e.2 := by
  induction l with
  | nil => rfl
  | cons e l ih =>
    rw [List.filterMap_cons, List.filter_cons, ih]
    rcases searchRecord_cases (c := c) prepare request nowMs hostPlacement e.2 with
      ⟨-, -, he⟩ | ⟨-, -, -, hnone⟩ | ⟨-, he⟩
    · rw [he]
      rfl
    · rw [hnone]
      rfl
    · rw [he]
      rfl

/-- The order of the candidates. -/
abbrev newer (a b : String × Record) : Bool := decide (b.2.updatedAtMs ≤ a.2.updatedAtMs)

theorem search_shown (hok : RecordsOk t) (order : Order String) :
    SearchOk c prepare order t request nowMs hostPlacement := by
  set found : List (String × Record) := ((purgeExpired c nowMs t).inOrder order).filter
    fun e => (searchRecord c prepare request nowMs hostPlacement e.2).2.isSome with hfound
  have hmem : ∀ key r, (key, r) ∈ found.mergeSort newer ↔
      Eligible c t (search c prepare order t request nowMs hostPlacement).1 request nowMs key
        r := by
    intro key r
    rw [eligible_iff hok order, (List.mergeSort_perm found newer).mem_iff, hfound, List.mem_filter,
      Table.mem_inOrder]
    refine and_congr_right fun _ => ?_
    rcases searchRecord_cases (c := c) prepare request nowMs hostPlacement r with
      ⟨-, -, he⟩ | ⟨-, -, -, hnone⟩ | ⟨-, he⟩
    · simp [he]
    · simp [hnone]
    · simp [he]
  have hnd : (found.mergeSort newer).Nodup := by
    rw [(List.mergeSort_perm found newer).nodup_iff]
    exact (Table.nodup_inOrder order _).filter _
  refine ⟨⟨found.mergeSort newer, (max 0 (wrap32 (integer request "GetMaxCount" 20))).toNat, ?_,
    hmem, ?_, ?_, ?_⟩, ?_⟩
  · -- one key has one record
    refine List.Nodup.map_on ?_ hnd
    rintro ⟨k, r⟩ he ⟨k', r'⟩ he' rfl
    have hr := ((hmem k r).mp he).there
    have hr' := ((hmem k r').mp he').there
    rw [hr] at hr'
    rw [Option.some.inj hr']
  · have hsorted : (found.mergeSort newer).Pairwise fun a b => newer a b = true :=
      List.pairwise_mergeSort (by simp only [newer]; grind) (by simp only [newer]; grind) found
    exact hsorted.imp fun h => of_decide_eq_true h
  · intro h0 h1
    rw [wrap32_of_lt (by omega) h1]
    omega
  · -- sorting and taking commute with making candidates of the records
    simp only [search]
    have hsort := List.map_mergeSort (r := newer) (s := fun l r => decide (r.1 ≤ l.1))
      (f := fun e => candidateOf c prepare request e.2) (l := found) fun _ _ _ _ => rfl
    rw [filterMap_candidates, ← hfound, ← hsort, List.map_map, ← List.map_take]
    rfl
  · intro hclassic key r hr hex
    rw [search_get?, purgeExpired_get?.mpr ⟨hr, hex⟩, Option.map_some]
    rcases searchRecord_cases (c := c) prepare request nowMs hostPlacement r with
      ⟨-, -, he⟩ | ⟨-, hcoop, -⟩ | ⟨-, he⟩
    · rw [he]
    · rw [hclassic] at hcoop
      cases hcoop
    · rw [he]

/-- **Searches along a run.** In every state that a run reaches, whoever searches and when. -/
theorem search_ok (c : Config)
    (prepare : List UInt8 → JsonObject → JsonObject → Bool → List UInt8) (ops : List Op) (n : ℕ)
    (order : Order String) (request : JsonObject) (nowMs : ℤ) (hostPlacement : List UInt8) :
    SearchOk c prepare order (watchedAfter c prepare ops n).records request nowMs hostPlacement :=
  search_shown (watchedAfter_ok c prepare ops n) order

end ShadNet.SummonBroker
