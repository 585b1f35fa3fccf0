import ShadNet.Proof.SummonLifecycle

/-!
# Host placements

A claim may carry the placement of the host, and the guest is told of it until he has come there.

* `followedAfter`: a run, watched by the areas that each record was advertised with since its
  claim was accepted.
* `delivery_ok`: in seamless mode a claim is handed out only after its record was advertised on
  the map that its placement names.
* `placements_ok_iff`: the stored placements fit into a header along a run exactly when no search
  prepares a record with one that does not.
-/

namespace ShadNet.SummonBroker

open Lib

variable {c : Config} {prepare : List UInt8 → JsonObject → JsonObject → Bool → List UInt8}
  {t : Records} {key : String} {r : Record}

/-! ## Where the guest has been -/

/-- For every key the areas that its record was advertised with since its claim was accepted. -/
abbrev Visits := String → List ℤ

/-- What an operation adds to the visits: an advertisement its area; an accepted claim starts
anew. -/
def Visits.next (v : Visits) (c : Config) (records : Records) : Op → Visits
  | .advertise body _ _ =>
    Function.update v (recordKeyOf body) (v (recordKeyOf body) ++ [integer body "AreaId" (-1)])
  | .claim order request rawRequest nowMs hostPlacement =>
    let result := (claim c order records request rawRequest nowMs hostPlacement).2
    if result.status = .claimed then
      Function.update v (recordKey result.targetSessionId result.targetUserId) [] else v
  | _ => v

/-- A broker and where the guests have been. -/
structure Followed where
  watched : Watched
  visits : Visits

/-- The broker, its history, and where its signs have been, after a call. -/
def follow (c : Config)
    (prepare : List UInt8 → JsonObject → JsonObject → Bool → List UInt8) (f : Followed) (op : Op) :
    Followed :=
  ⟨watch c prepare f.watched op, f.visits.next c f.watched.records op⟩

/-- The broker after the first `n` operations, followed from the start. -/
def followedAfter (c : Config)
    (prepare : List UInt8 → JsonObject → JsonObject → Bool → List UInt8) (ops : List Op) (n : ℕ) :
    Followed :=
  runAt (follow c prepare) ⟨⟨∅, fun _ => []⟩, fun _ => []⟩ ops n

/-- A claim that was handed out has been on the map of its placement. -/
def Visited (t : Records) (v : Visits) : Prop :=
  ∀ key r m, t.get? key = some r → r.state = .delivered →
    hostPlacementMap r.hostPlacement = some m → m ∈ v key

theorem Visited.purge {v : Visits} (h : Visited t v) (nowMs : ℤ) :
    Visited (purgeExpired c nowMs t) v :=
  fun key r m hr => h key r m (purgeExpired_get?.mp hr).1

/-- What `Advertise` does to a record in seamless mode. -/
theorem readvertise_delivered {body : JsonObject} {rawBody : List UInt8} {nowMs : ℤ}
    (hcoop : c.seamlessCoop = true)
    (h : (readvertise c r body rawBody nowMs).1.state = .delivered) :
    (readvertise c r body rawBody nowMs).1.hostPlacement = r.hostPlacement ∧
      (r.state = .delivered ∨
        ∀ m, hostPlacementMap r.hostPlacement = some m → integer body "AreaId" (-1) = m) := by
  unfold readvertise at h ⊢
  cases hs : r.state <;> simp only [hs] at h ⊢
  case preparing => split at h <;> cases h
  case claimed =>
    by_cases hel : (c.seamlessCoop && elsewhere r.hostPlacement body) = true
    · rw [if_pos hel] at h
      cases h
    · -- handed out, since the guest is where he was placed
      rw [if_neg hel]
      refine ⟨rfl, Or.inr fun m hm => ?_⟩
      simpa [hcoop, elsewhere, hm] using hel
  case delivered => exact ⟨trivial, Or.inl trivial⟩
  all_goals cases h

theorem advertise_visited {v : Visits} (hcoop : c.seamlessCoop = true) (h : Visited t v)
    (body : JsonObject) (rawBody : List UInt8) (nowMs : ℤ) :
    Visited (advertise c t body rawBody nowMs).1
      (v.next c t (.advertise body rawBody nowMs)) := by
  have hp := h.purge (c := c) nowMs
  intro key r m hr hs hm
  simp only [Visits.next, Function.update_apply]
  rcases advertise_cases (c := c) (t := t) body rawBody nowMs with ⟨-, he⟩ | ⟨r0, hr0, -, he⟩
  · rw [he] at hr
    rcases Table.of_get?_set hr with ⟨rfl, rfl⟩ | ⟨hne, hold⟩
    · cases hs
    · rw [if_neg hne]
      exact hp key r m hold hs hm
  · rw [he] at hr
    rcases Table.of_get?_set hr with ⟨rfl, rfl⟩ | ⟨hne, hold⟩
    · rw [if_pos rfl]
      obtain ⟨hplace, hcase⟩ := readvertise_delivered hcoop hs
      rw [hplace] at hm
      rcases hcase with hs0 | harea
      · exact List.mem_append_left _ (hp _ r0 m hr0 hs0 hm)
      · exact List.mem_append_right _ (by simp [harea m hm])
    · rw [if_neg hne]
      exact hp key r m hold hs hm

/-- Records that are rewritten alike, none of them handed out anew. -/
theorem Visited.map {t' : Records} {v : Visits} {f : Record → Record} (h : Visited t v)
    (hf : ∀ r, (f r).state = .delivered →
      r.state = .delivered ∧ (f r).hostPlacement = r.hostPlacement)
    (hget : ∀ key, t'.get? key = (t.get? key).map f) : Visited t' v := by
  intro key r m hr hs hm
  rw [hget key] at hr
  obtain ⟨r0, hr0, rfl⟩ := Option.map_eq_some_iff.mp hr
  obtain ⟨hs0, hplace⟩ := hf r0 hs
  rw [hplace] at hm
  exact h key r0 m hr0 hs0 hm

theorem searchRecord_delivered {request : JsonObject} {nowMs : ℤ} {hostPlacement : List UInt8}
    (h : (searchRecord c prepare request nowMs hostPlacement r).1.state = .delivered) :
    r.state = .delivered ∧
      (searchRecord c prepare request nowMs hostPlacement r).1.hostPlacement = r.hostPlacement := by
  rcases searchRecord_record prepare request nowMs hostPlacement r with ⟨-, he⟩ | ⟨-, he⟩
  · rw [he] at h ⊢
    exact ⟨h, rfl⟩
  · -- what is sent to be prepared is not handed out
    rw [he] at h
    cases h

theorem consumeRecord_delivered {request : JsonObject} {nowMs : ℤ}
    (h : (consumeRecord c request nowMs r).state = .delivered) :
    r.state = .delivered ∧ (consumeRecord c request nowMs r).hostPlacement = r.hostPlacement := by
  unfold consumeRecord at h ⊢
  by_cases hmatch : consumeMatches request r = true
  · rw [if_pos hmatch] at h ⊢
    by_cases hret : retains c request r = true
    · rw [if_pos hret] at h ⊢
      exact ⟨h, rfl⟩
    · rw [if_neg hret] at h
      cases h
  · rw [if_neg hmatch] at h ⊢
    exact ⟨h, rfl⟩

theorem claim_visited {f : Followed} (hinv : Inv c f.watched)
    (h : Visited f.watched.records f.visits) (order : Order String) (request : JsonObject)
    (rawRequest : List UInt8) (nowMs : ℤ) (hostPlacement : List UInt8) :
    Visited (claim c order f.watched.records request rawRequest nowMs hostPlacement).1
      (f.visits.next c f.watched.records
        (.claim order request rawRequest nowMs hostPlacement)) := by
  have hp := h.purge (c := c) nowMs
  simp only [Visits.next]
  rcases claim_cases (c := c) order f.watched.records request rawRequest nowMs hostPlacement with
    ⟨hst, he⟩ | ⟨hst, key, r, r', hr, -, -, he, hkey, -, hs', -⟩
  · rw [if_neg hst, he]
    exact hp
  · have hrecord : recordKeyOf r.advertisement = key := hinv.key key r (purgeExpired_get?.mp hr).1
    rw [if_pos hst, he, hkey, hrecord]
    intro k r0 m hr0 hs0 hm
    rcases Table.of_get?_set hr0 with ⟨rfl, rfl⟩ | ⟨hne, hold⟩
    · -- the claimed record is not handed out yet
      rw [hs'] at hs0
      cases hs0
    · rw [Function.update_of_ne hne]
      exact hp k r0 m hold hs0 hm

/-- Every operation keeps `Visited`. -/
theorem follow_visited {f : Followed} (hcoop : c.seamlessCoop = true) (hinv : Inv c f.watched)
    (h : Visited f.watched.records f.visits) (op : Op) :
    Visited (follow c prepare f op).watched.records (follow c prepare f op).visits := by
  cases op with
  | advertise body rawBody nowMs => exact advertise_visited hcoop h body rawBody nowMs
  | search order request nowMs hostPlacement =>
    exact (h.purge nowMs).map (fun r => searchRecord_delivered) fun key =>
      search_get? order request nowMs hostPlacement
  | claim order request rawRequest nowMs hostPlacement =>
    exact claim_visited hinv h order request rawRequest nowMs hostPlacement
  | consume order request nowMs =>
    simp only [follow, watch, applyOp, Visits.next]
    rcases consume_cases (c := c) (t := f.watched.records) order request nowMs with he | he
    · rw [he]
      exact h.purge nowMs
    · exact (h.purge nowMs).map (fun r => consumeRecord_delivered) he
  | stateFor sessionId userId nowMs => exact h.purge nowMs
  | size nowMs => exact h.purge nowMs

theorem followedAfter_visited (hcoop : c.seamlessCoop = true)
    (prepare : List UInt8 → JsonObject → JsonObject → Bool → List UInt8) (ops : List Op) (n : ℕ) :
    Inv c (followedAfter c prepare ops n).watched ∧
      Visited (followedAfter c prepare ops n).watched.records
        (followedAfter c prepare ops n).visits :=
  runAt_inv (P := fun f : Followed => Inv c f.watched ∧ Visited f.watched.records f.visits)
    ⟨inv_empty, fun _ _ _ h => by simp at h⟩
    (fun _ op h => ⟨watch_inv h.1 op, follow_visited hcoop h.1 h.2 op⟩) ops n

/-- **When a guest is told of his claim.** `area` is where the advertisement is from. -/
structure DeliveryOk (c : Config) (f : Followed) : Prop where
  /-- A claim is handed out when the guest has been on the map of its placement. -/
  gate : ∀ body rawBody nowMs,
    (advertise c f.watched.records body rawBody nowMs).2.pendingClaim ≠ [] →
    ∃ r, (purgeExpired c nowMs f.watched.records).get? (recordKeyOf body) = some r ∧
      (advertise c f.watched.records body rawBody nowMs).2 =
        ⟨.delivered, r.rawClaim, r.hostPlacement⟩ ∧
      ∀ m, hostPlacementMap r.hostPlacement = some m →
        m ∈ f.visits (recordKeyOf body) ++ [integer body "AreaId" (-1)]
  /-- Until then he is told the placement only. -/
  waiting : ∀ body rawBody nowMs r m,
    (purgeExpired c nowMs f.watched.records).get? (recordKeyOf body) = some r →
    r.state = .claimed ∨ r.state = .delivered → hostPlacementMap r.hostPlacement = some m →
    m ∉ f.visits (recordKeyOf body) ++ [integer body "AreaId" (-1)] →
    (advertise c f.watched.records body rawBody nowMs).2 = ⟨.claimed, [], r.hostPlacement⟩
  /-- A claim that is accepted stores its own placement, and the guest has been nowhere since. -/
  anew : ∀ order request rawRequest nowMs hostPlacement,
    (claim c order f.watched.records request rawRequest nowMs hostPlacement).2.status = .claimed →
    ∃ key r, (claim c order f.watched.records request rawRequest nowMs hostPlacement).1.get? key =
        some r ∧ r.state = .claimed ∧ r.claim = request ∧
      r.hostPlacement = (if acceptsPlacement hostPlacement then hostPlacement else []) ∧
      f.visits.next c f.watched.records
        (.claim order request rawRequest nowMs hostPlacement) key = []

/-- What a guest is answered in seamless mode. -/
theorem readvertise_answer {body : JsonObject} {rawBody : List UInt8} {nowMs : ℤ}
    (hcoop : c.seamlessCoop = true) (hheld : r.state.Held) :
    (readvertise c r body rawBody nowMs).2 =
      if r.state = .claimed ∧ elsewhere r.hostPlacement body = true
      then ⟨.claimed, [], r.hostPlacement⟩ else ⟨.delivered, r.rawClaim, r.hostPlacement⟩ := by
  unfold readvertise
  rcases hheld with hs | hs <;> rw [hs] <;> simp only
  · by_cases hel : elsewhere r.hostPlacement body = true
    · rw [if_pos (by rw [hcoop, hel]; rfl), if_pos ⟨trivial, hel⟩]
    · rw [if_neg (by rw [hcoop]; simpa using hel), if_neg (by simp [hel])]
  · rw [if_neg (by simp)]

theorem Visited.delivery {f : Followed} (hcoop : c.seamlessCoop = true) (hinv : Inv c f.watched)
    (h : Visited f.watched.records f.visits) : DeliveryOk c f := by
  refine ⟨?_, ?_, ?_⟩
  · intro body rawBody nowMs hpending
    rcases advertise_cases (c := c) (t := f.watched.records) body rawBody nowMs with
      ⟨-, he⟩ | ⟨r, hr, -, he⟩
    · rw [he] at hpending
      exact absurd rfl hpending
    · rw [he] at hpending ⊢
      obtain ⟨hheld, -⟩ := readvertise_pending hpending
      rw [readvertise_answer hcoop hheld] at hpending ⊢
      by_cases hwait : r.state = .claimed ∧ elsewhere r.hostPlacement body = true
      · rw [if_pos hwait] at hpending
        exact absurd rfl hpending
      · rw [if_neg hwait]
        refine ⟨r, hr, rfl, fun m hm => ?_⟩
        rcases hheld with hs | hs
        · -- he is there now
          have harea : integer body "AreaId" (-1) = m := by
            simpa [hs, elsewhere, hm] using hwait
          exact List.mem_append_right _ (by simp [harea])
        · have hbefore := h.purge (c := c) nowMs _ r m hr hs hm
          exact List.mem_append_left _ hbefore
  · intro body rawBody nowMs r m hr hheld hm hnot
    rw [List.mem_append, not_or, List.mem_singleton] at hnot
    have hconsumed : r.state ≠ .consumed := by
      rcases hheld with hs | hs <;> rw [hs] <;> decide
    have hstate : r.state = .claimed := by
      rcases hheld with hs | hs
      · exact hs
      · exact absurd (h.purge (c := c) nowMs _ r m hr hs hm) hnot.1
    rcases advertise_cases (c := c) (t := f.watched.records) body rawBody nowMs with
      ⟨hold, -⟩ | ⟨r0, hr0, -, he⟩
    · exact absurd (hold r hr) hconsumed
    · rw [hr] at hr0
      obtain rfl := Option.some.inj hr0
      have hel : elsewhere r.hostPlacement body = true := by
        simpa [elsewhere, hm] using Ne.symm hnot.2
      rw [he, readvertise_answer hcoop hheld, if_pos ⟨hstate, hel⟩]
  · intro order request rawRequest nowMs hostPlacement hstatus
    rcases claim_cases (c := c) order f.watched.records request rawRequest nowMs hostPlacement with
      ⟨hst, -⟩ | ⟨-, key, r, r', hr, -, -, he, hkey, -, hs', hclaim, -, hplace⟩
    · exact absurd hstatus hst
    · have hrecord : recordKeyOf r.advertisement = key :=
        hinv.key key r (purgeExpired_get?.mp hr).1
      rw [hcoop, Bool.true_and] at hplace
      refine ⟨key, r', by rw [he, Table.get?_set_self], hs', hclaim, hplace, ?_⟩
      simp only [Visits.next]
      rw [if_pos hstatus, hkey, hrecord, Function.update_self]

/-- **Deliveries along a run.** In seamless mode the gate holds in every state that is reached. -/
theorem delivery_ok (hcoop : c.seamlessCoop = true)
    (prepare : List UInt8 → JsonObject → JsonObject → Bool → List UInt8) (ops : List Op) (n : ℕ) :
    DeliveryOk c (followedAfter c prepare ops n) := by
  obtain ⟨hinv, hvisited⟩ := followedAfter_visited hcoop prepare ops n
  exact hvisited.delivery hcoop hinv

/-- A broker for seamless summons. -/
def seamless : Config := .ofOptions { seamlessCoop := true }

/-- A sign of the first user. -/
def signOn (area : ℤ) : JsonObject :=
  [("AreaId", .num area), ("SessionId", .str "guest"), ("UserId", .num 1)]

/-- The second user asks, or claims. -/
def hostAsks : JsonObject :=
  [("SessionId", .str "host"), ("TargetUserId", .num 1), ("UserId", .num 2)]

/-- `1,<map>,` and then `rest` zeros. -/
def placedOn (map : UInt8) (rest : ℕ) : List UInt8 :=
  49 :: 44 :: map :: 44 :: List.replicate rest 48

/-- A guest on the first map who was claimed from the second is told of it when he is there. -/
theorem told_on_arrival :
    DeliveryOk seamless (followedAfter seamless (fun raw _ _ _ => raw)
      [.advertise (signOn 1) [] 0, .claim .listed hostAsks [123, 125] 1 (placedOn 50 2)] 2) ∧
    (advertise seamless (followedAfter seamless (fun raw _ _ _ => raw)
      [.advertise (signOn 1) [] 0, .claim .listed hostAsks [123, 125] 1 (placedOn 50 2)]
      2).watched.records (signOn 1) [] 2).2.pendingClaim = [] ∧
    (advertise seamless (followedAfter seamless (fun raw _ _ _ => raw)
      [.advertise (signOn 1) [] 0, .claim .listed hostAsks [123, 125] 1 (placedOn 50 2)]
      2).watched.records (signOn 2) [] 2).2.pendingClaim = [123, 125] :=
  ⟨delivery_ok rfl _ _ _, by decide +kernel, by decide +kernel⟩

/-! ## What is stored -/

/-- A placement that fits into a header line. -/
def Tidy (placement : List UInt8) : Prop :=
  placement.length ≤ maxHostPlacementSize ∧ 13 ∉ placement ∧ 10 ∉ placement

instance (placement : List UInt8) : Decidable (Tidy placement) :=
  inferInstanceAs (Decidable (_ ∧ _ ∧ _))

theorem tidy_nil : Tidy [] := ⟨Nat.zero_le _, List.not_mem_nil, List.not_mem_nil⟩

/-- What a claim stores is tidy. -/
theorem acceptsPlacement_tidy {placement : List UInt8} (h : acceptsPlacement placement = true) :
    Tidy placement := by
  simp only [acceptsPlacement, Bool.and_eq_true, decide_eq_true_eq, Bool.not_eq_true',
    List.contains_eq_mem, decide_eq_false_iff_not] at h
  exact ⟨h.1.1.2, h.1.2, h.2⟩

/-- The stored placements are tidy, and so is what the broker gives away. -/
structure PlacementsOk (c : Config) (t : Records) : Prop where
  stored : ∀ key r, t.get? key = some r → Tidy r.hostPlacement
  advertised : ∀ body rawBody nowMs,
    Tidy (advertise c t body rawBody nowMs).2.pendingHostPlacement
  consumed : ∀ order request nowMs, Tidy (consume c order t request nowMs).2.pendingHostPlacement

/-- A search brings a tidy placement, or sends no record to be prepared. -/
def Sound (c : Config) (t : Records) : Op → Prop
  | .search _ request nowMs hostPlacement => Tidy hostPlacement ∨
    ∀ key r, t.get? key = some r → expired c nowMs r = false →
      ¬ Prepares c request hostPlacement r
  | _ => True

/-- The search stores its own placement in what it prepares. -/
theorem searchRecord_placement (prepare : List UInt8 → JsonObject → JsonObject → Bool → List UInt8)
    (request : JsonObject) (nowMs : ℤ) (hostPlacement : List UInt8) (r : Record) :
    (Prepares c request hostPlacement r →
      (searchRecord c prepare request nowMs hostPlacement r).1.hostPlacement = hostPlacement) ∧
    (¬ Prepares c request hostPlacement r →
      (searchRecord c prepare request nowMs hostPlacement r).1.hostPlacement = r.hostPlacement) := by
  rcases searchRecord_record prepare request nowMs hostPlacement r with ⟨hno, he⟩ | ⟨hsent, he⟩
  · exact ⟨fun h => absurd h hno, fun _ => by rw [he]⟩
  · exact ⟨fun _ => by rw [he], fun h => absurd hsent h⟩

theorem readvertise_placement (c : Config) (r : Record) (body : JsonObject) (rawBody : List UInt8)
    (nowMs : ℤ) :
    (readvertise c r body rawBody nowMs).1.hostPlacement = r.hostPlacement ∧
      ((readvertise c r body rawBody nowMs).2.pendingHostPlacement = [] ∨
        (readvertise c r body rawBody nowMs).2.pendingHostPlacement = r.hostPlacement) := by
  unfold readvertise
  cases hs : r.state <;> simp only
  case preparing =>
    split
    · exact ⟨rfl, Or.inr rfl⟩
    · exact ⟨rfl, Or.inl rfl⟩
  case claimed =>
    split
    · exact ⟨rfl, Or.inr rfl⟩
    · exact ⟨rfl, Or.inr rfl⟩
  all_goals simp

theorem consumeRecord_placement (request : JsonObject) (nowMs : ℤ) :
    (consumeRecord c request nowMs r).hostPlacement = r.hostPlacement := by
  unfold consumeRecord
  split
  · split <;> rfl
  · rfl

/-- What is stored is all that is given away. -/
theorem PlacementsOk.of_stored (h : ∀ key r, t.get? key = some r → Tidy r.hostPlacement) :
    PlacementsOk c t := by
  have hp : ∀ nowMs key r, (purgeExpired c nowMs t).get? key = some r → Tidy r.hostPlacement :=
    fun nowMs key r hr => h key r (purgeExpired_get?.mp hr).1
  refine ⟨h, ?_, ?_⟩
  · intro body rawBody nowMs
    rcases advertise_cases (c := c) (t := t) body rawBody nowMs with ⟨-, he⟩ | ⟨r, hr, -, he⟩
    · rw [he]
      exact tidy_nil
    · rw [he]
      rcases (readvertise_placement c r body rawBody nowMs).2 with hnone | hsome
      · rw [hnone]
        exact tidy_nil
      · rw [hsome]
        exact hp nowMs _ r hr
  · intro order request nowMs
    simp only [consume]
    split
    · exact tidy_nil
    · -- the last placement among the retained records
      cases hlast : ((((((purgeExpired c nowMs t).inOrder order).map (·.2)).filter
          (consumeMatches request)).filter (retains c request)).map (·.hostPlacement)).filter
          (· ≠ []) |>.getLast? with
      | none => exact tidy_nil
      | some placement =>
        have hmem := List.mem_of_getLast? hlast
        obtain ⟨r, hr, rfl⟩ := List.mem_map.mp (List.mem_of_mem_filter hmem)
        obtain ⟨e, he, rfl⟩ := List.mem_map.mp (List.mem_of_mem_filter (List.mem_of_mem_filter hr))
        exact hp nowMs e.1 e.2 (Table.mem_inOrder.mp he)

/-- A step that brings a tidy placement keeps the stored ones so. -/
theorem applyOp_tidy (h : ∀ key r, t.get? key = some r → Tidy r.hostPlacement) {op : Op}
    (hop : Sound c t op) :
    ∀ key r, (applyOp c prepare t op).get? key = some r → Tidy r.hostPlacement := by
  have hp : ∀ nowMs key r, (purgeExpired c nowMs t).get? key = some r → Tidy r.hostPlacement :=
    fun nowMs key r hr => h key r (purgeExpired_get?.mp hr).1
  intro key r hr
  cases op with
  | advertise body rawBody nowMs =>
    simp only [applyOp] at hr
    rcases advertise_cases (c := c) (t := t) body rawBody nowMs with ⟨-, he⟩ | ⟨r0, hr0, -, he⟩
    · rw [he] at hr
      rcases Table.of_get?_set hr with ⟨-, rfl⟩ | ⟨-, hold⟩
      · exact tidy_nil
      · exact hp nowMs key r hold
    · rw [he] at hr
      rcases Table.of_get?_set hr with ⟨-, rfl⟩ | ⟨-, hold⟩
      · rw [(readvertise_placement c _ _ _ _).1]
        exact hp nowMs _ r0 hr0
      · exact hp nowMs key r hold
  | search order request nowMs hostPlacement =>
    simp only [applyOp] at hr
    rw [search_get?] at hr
    obtain ⟨r0, hr0, rfl⟩ := Option.map_eq_some_iff.mp hr
    obtain ⟨hold, hex⟩ := purgeExpired_get?.mp hr0
    obtain ⟨hprep, hkeep⟩ :=
      searchRecord_placement (c := c) prepare request nowMs hostPlacement r0
    by_cases hsent : Prepares c request hostPlacement r0
    · rw [hprep hsent]
      exact hop.resolve_right fun hnone => hnone key r0 hold hex hsent
    · rw [hkeep hsent]
      exact h key r0 hold
  | claim order request rawRequest nowMs hostPlacement =>
    simp only [applyOp] at hr
    rcases claim_cases (c := c) order t request rawRequest nowMs hostPlacement with
      ⟨-, he⟩ | ⟨-, key', r0, r', -, -, -, he, -, -, -, -, -, hplace⟩
    · rw [he] at hr
      exact hp nowMs key r hr
    · rw [he] at hr
      rcases Table.of_get?_set hr with ⟨-, rfl⟩ | ⟨-, hold⟩
      · rw [hplace]
        split
        · rename_i hacc
          exact acceptsPlacement_tidy (Bool.and_eq_true_iff.mp hacc).2
        · exact tidy_nil
      · exact hp nowMs key r hold
  | consume order request nowMs =>
    simp only [applyOp] at hr
    rcases consume_cases (c := c) (t := t) order request nowMs with he | he
    · rw [he] at hr
      exact hp nowMs key r hr
    · rw [he key] at hr
      obtain ⟨r0, hr0, rfl⟩ := Option.map_eq_some_iff.mp hr
      rw [consumeRecord_placement]
      exact hp nowMs key r0 hr0
  | stateFor sessionId userId nowMs => exact hp nowMs key r hr
  | size nowMs => exact hp nowMs key r hr

/-- An operation that is not sound stores a placement that is not tidy. -/
theorem applyOp_untidy {op : Op} (hop : ¬ Sound c t op) :
    ∃ key r, (applyOp c prepare t op).get? key = some r ∧ ¬ Tidy r.hostPlacement := by
  cases op with
  | search order request nowMs hostPlacement =>
    simp only [Sound, not_or, not_forall, not_not] at hop
    obtain ⟨huntidy, key, r, hr, hex, hprep⟩ := hop
    refine ⟨key, (searchRecord c prepare request nowMs hostPlacement r).1, ?_, ?_⟩
    · simp only [applyOp]
      rw [search_get?, purgeExpired_get?.mpr ⟨hr, hex⟩, Option.map_some]
    · rw [(searchRecord_placement prepare request nowMs hostPlacement r).1 hprep]
      exact huntidy
  | _ => exact absurd trivial hop

/-- The records after the first `n` operations. -/
def recordsAfter (c : Config)
    (prepare : List UInt8 → JsonObject → JsonObject → Bool → List UInt8) (ops : List Op) (n : ℕ) :
    Records :=
  runAt (applyOp c prepare) ∅ ops n

/-- **Placements along a run** fit into a header exactly when every search that prepares a record
brings one that does. -/
theorem placements_ok_iff (c : Config)
    (prepare : List UInt8 → JsonObject → JsonObject → Bool → List UInt8) (ops : List Op) :
    (∀ n, PlacementsOk c (recordsAfter c prepare ops n)) ↔
      ∀ n (hn : n < ops.length), Sound c (recordsAfter c prepare ops n) ops[n] := by
  refine runAt_iff_guard (I := fun _ => True) trivial (fun _ _ _ => trivial)
    (.of_stored fun _ _ h => by simp at h) ?_ ?_
  · intro t op _ hok hop
    exact .of_stored (applyOp_tidy hok.stored hop)
  · intro t op _ _ hop hok
    obtain ⟨key, r, hr, huntidy⟩ : ∃ key r, (applyOp c prepare t op).get? key = some r ∧
        ¬ Tidy r.hostPlacement := applyOp_untidy hop
    exact huntidy (hok.stored key r hr)

/-- The host's placement is longer than a claim could store, and the guest is told of it. -/
theorem long_placement_stored : ¬ PlacementsOk seamless
    (recordsAfter seamless (fun raw _ _ _ => raw)
      [.advertise (signOn 1) [] 0, .search .listed hostAsks 1 (placedOn 50 200)] 2) := by
  intro h
  have htold := h.advertised (signOn 1) [] 2
  exact absurd htold (by decide +kernel)

end ShadNet.SummonBroker
