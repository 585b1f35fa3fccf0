import ShadNet.Proof.SummonBroker

/-!
# The life of a summon record

* `Moves`: what an operation may do to the record under a key.
* `RecordOk`: what the fields of a record say in its state.
* `advertise_cases`, `search_get?`, `consume_cases`: what each operation leaves under a key;
  `moves_of_purged` adds what had expired before.
* `lifecycle_ok`: along every run each operation makes permitted moves only, and every record
  that is reached is right.
-/

namespace ShadNet.SummonBroker

open Lib

/-- The time of an operation. -/
def Op.nowMs : Op → ℤ
  | .advertise _ _ nowMs => nowMs
  | .search _ _ nowMs _ => nowMs
  | .claim _ _ _ nowMs _ => nowMs
  | .consume _ _ nowMs => nowMs
  | .stateFor _ _ nowMs => nowMs
  | .size nowMs => nowMs

/-- The time to live of a state. -/
def Config.ttl (c : Config) (s : State) : ℤ :=
  if c.seamlessCoop && isSeamlessActiveState s then c.seamlessTtlMs else c.ttlMs

/-- More than the time to live has passed since the last update, as 64 bits tell it. -/
def Overdue (c : Config) (nowMs : ℤ) (r : Record) : Prop :=
  c.ttl r.state < wrap64 (nowMs - r.updatedAtMs)

theorem expired_iff {c : Config} {nowMs : ℤ} {r : Record} :
    expired c nowMs r = true ↔ Overdue c nowMs r :=
  decide_eq_true_iff

/-- **The moves of a record.** What an operation may make of what is under a key. -/
inductive Moves (c : Config) (op : Op) (key : String) : Option Record → Option Record → Prop
  | absent : Moves c op key none none
  | stays {r r' : Record} (hstate : r'.state = r.state) : Moves c op key (some r) (some r')
  -- there was no record, or it counts as none
  | created {before : Option Record} {r' : Record} {body : JsonObject} {rawBody : List UInt8}
      {nowMs : ℤ} (hop : op = .advertise body rawBody nowMs) (hkey : recordKeyOf body = key)
      (hold : ∀ r, before = some r → r.state = .consumed ∨ Overdue c nowMs r)
      (hstate : r'.state = .advertised) : Moves c op key before (some r')
  | prepared {r r' : Record} {order : Order String} {request : JsonObject} {nowMs : ℤ}
      {hostPlacement : List UInt8} (hop : op = .search order request nowMs hostPlacement)
      (hcoop : c.seamlessCoop = true) (hold : r.state = .advertised)
      (hstate : r'.state = .preparing) : Moves c op key (some r) (some r')
  -- the host has come to the map he was placed on
  | arrived {r r' : Record} {body : JsonObject} {rawBody : List UInt8} {nowMs : ℤ}
      (hop : op = .advertise body rawBody nowMs) (hkey : recordKeyOf body = key)
      (hmap : hostPlacementMap r.hostPlacement = some (integer body "AreaId" (-1)))
      (hold : r.state = .preparing) (hstate : r'.state = .advertised) :
      Moves c op key (some r) (some r')
  | claimed {r r' : Record} {order : Order String} {request : JsonObject} {raw : List UInt8}
      {nowMs : ℤ} {hostPlacement : List UInt8}
      (hop : op = .claim order request raw nowMs hostPlacement)
      (hold : r.state = .advertised ∨ r.state = .preparing) (hstate : r'.state = .claimed) :
      Moves c op key (some r) (some r')
  | delivered {r r' : Record} {body : JsonObject} {rawBody : List UInt8} {nowMs : ℤ}
      (hop : op = .advertise body rawBody nowMs) (hkey : recordKeyOf body = key)
      (hold : r.state = .claimed) (hstate : r'.state = .delivered) :
      Moves c op key (some r) (some r')
  -- the requester claims again
  | reclaimed {r r' : Record} {order : Order String} {request : JsonObject} {raw : List UInt8}
      {nowMs : ℤ} {hostPlacement : List UInt8}
      (hop : op = .claim order request raw nowMs hostPlacement)
      (hcoop : c.seamlessCoop = true)
      (hsame : integer r.claim "UserId" (-1) = integer request "UserId" (-1))
      (hold : r.state = .delivered) (hstate : r'.state = .claimed) :
      Moves c op key (some r) (some r')
  | consumed {r r' : Record} {order : Order String} {request : JsonObject} {nowMs : ℤ}
      (hop : op = .consume order request nowMs)
      (hforced : c.seamlessCoop = true →
        r.state = .preparing ∨ r.state = .claimed ∨ r.state = .delivered →
        forceConsumeRequested request = true)
      (hstate : r'.state = .consumed) : Moves c op key (some r) (some r')
  | removed {r : Record} (hold : Overdue c op.nowMs r) : Moves c op key (some r) none

/-- What the fields of a record say in its state. -/
structure RecordOk (r : Record) : Prop where
  unclaimed : r.state.Free → r.claim = [] ∧ r.rawClaim = []
  placed : r.state = .preparing → 0 ≤ r.preparationRequester ∧
    ∃ m, hostPlacementMap r.hostPlacement = some m ∧ integer r.advertisement "AreaId" (-1) ≠ m

/-- Every sign is in order. -/
def RecordsOk (t : Records) : Prop := ∀ key r, t.get? key = some r → RecordOk r

/-! ## What had expired -/

variable {c : Config} {prepare : List UInt8 → JsonObject → JsonObject → Bool → List UInt8}
  {t t' : Records} {key : String} {r r' : Record} {op : Op} {before after : Option Record}

theorem get?_purgeExpired {nowMs : ℤ} : (purgeExpired c nowMs t).get? key =
    (t.get? key).bind fun r => if expired c nowMs r then none else some r :=
  Table.get?_filterMap _

theorem purgeExpired_ok (h : RecordsOk t) (nowMs : ℤ) : RecordsOk (purgeExpired c nowMs t) :=
  fun key r hr => h key r (purgeExpired_get?.mp hr).1

/-- An operation purges first, so its moves are those from what has not expired. -/
theorem moves_of_purged
    (h : Moves c op key ((purgeExpired c op.nowMs t).get? key) after) :
    Moves c op key (t.get? key) after := by
  rw [get?_purgeExpired] at h
  cases hr : t.get? key with
  | none => rwa [hr] at h
  | some r =>
    rw [hr, Option.bind_some] at h
    by_cases hex : expired c op.nowMs r = true
    · rw [if_pos hex] at h
      have hover := expired_iff.mp hex
      cases h with
      | absent => exact .removed hover
      | created hop hkey _ hstate =>
        refine .created hop hkey (fun r' hr' => Or.inr ?_) hstate
        obtain rfl := Option.some.inj hr'
        rw [hop] at hover
        exact hover
    · rwa [if_neg hex] at h

/-- The record under a key that an operation leaves alone. -/
theorem Moves.same (before : Option Record) : Moves c op key before before := by
  cases before with
  | none => exact .absent
  | some r => exact .stays rfl

/-! ## What the operations leave -/

/-- `Advertise` puts a new record in, or changes the one that is there. -/
theorem advertise_cases (body : JsonObject) (rawBody : List UInt8) (nowMs : ℤ) :
    ((∀ r, (purgeExpired c nowMs t).get? (recordKeyOf body) = some r → r.state = .consumed) ∧
      advertise c t body rawBody nowMs = ((purgeExpired c nowMs t).set (recordKeyOf body)
        ⟨.advertised, body, rawBody, [], [], [], -1, nowMs⟩, ⟨.advertised, [], []⟩)) ∨
    ∃ r, (purgeExpired c nowMs t).get? (recordKeyOf body) = some r ∧ r.state ≠ .consumed ∧
      advertise c t body rawBody nowMs =
        ((purgeExpired c nowMs t).set (recordKeyOf body) (readvertise c r body rawBody nowMs).1,
          (readvertise c r body rawBody nowMs).2) := by
  simp only [advertise]
  cases hr : (purgeExpired c nowMs t).get? (recordKeyOf body) with
  | none => exact Or.inl ⟨by simp, rfl⟩
  | some r =>
    by_cases hs : r.state = .consumed
    · refine Or.inl ⟨fun r' h => ?_, if_pos hs⟩
      obtain rfl := Option.some.inj h
      exact hs
    · exact Or.inr ⟨r, rfl, hs, if_neg hs⟩

theorem search_get? (order : Order String) (request : JsonObject) (nowMs : ℤ)
    (hostPlacement : List UInt8) :
    (search c prepare order t request nowMs hostPlacement).1.get? key =
      ((purgeExpired c nowMs t).get? key).map fun r =>
        (searchRecord c prepare request nowMs hostPlacement r).1 := by
  have hget := Table.get?_filterMap (t := purgeExpired c nowMs t) (k := key)
    fun _ r => some (searchRecord c prepare request nowMs hostPlacement r).1
  rw [Option.map_eq_bind]
  exact hget

/-- What `Consume` does to a record. -/
def consumeRecord (c : Config) (request : JsonObject) (nowMs : ℤ) (r : Record) : Record :=
  if consumeMatches request r then
    if retains c request r then { r with updatedAtMs := nowMs }
    else { r with state := .consumed, updatedAtMs := nowMs }
  else r

/-- `Consume` changes nothing, or changes every record alike. -/
theorem consume_cases (order : Order String) (request : JsonObject) (nowMs : ℤ) :
    (consume c order t request nowMs).1 = purgeExpired c nowMs t ∨
    ∀ key, (consume c order t request nowMs).1.get? key =
      ((purgeExpired c nowMs t).get? key).map (consumeRecord c request nowMs) := by
  simp only [consume]
  split
  · exact Or.inl rfl
  · refine Or.inr fun key => ?_
    have hget := Table.get?_filterMap (t := purgeExpired c nowMs t) (k := key)
      fun _ r => some (consumeRecord c request nowMs r)
    rw [Option.map_eq_bind]
    exact hget

/-! ## The moves of the operations -/

theorem readvertise_moves {body : JsonObject} {rawBody : List UInt8} {nowMs : ℤ}
    (hok : RecordOk r) (hop : op = .advertise body rawBody nowMs) (hkey : recordKeyOf body = key) :
    Moves c op key (some r) (some (readvertise c r body rawBody nowMs).1) := by
  unfold readvertise
  cases hs : r.state <;> simp only
  case preparing =>
    obtain ⟨-, m, hm, -⟩ := hok.placed hs
    by_cases hel : elsewhere r.hostPlacement body = true
    · rw [if_pos hel]
      exact .stays hs.symm
    · -- the host is where he was placed
      rw [if_neg hel]
      have harrived : integer body "AreaId" (-1) = m := by
        simpa [elsewhere, hm] using hel
      exact .arrived hop hkey (by rw [hm, harrived]) hs rfl
  case claimed =>
    split
    · exact .stays hs.symm
    · exact .delivered hop hkey hs rfl
  all_goals exact .stays hs.symm

/-- Only the fields of a free record say something here. -/
theorem RecordOk.of_not_free (h : ¬ r.state.Free) : RecordOk r :=
  ⟨fun hf => absurd hf h, fun hp => absurd (Or.inr hp) h⟩

theorem readvertise_ok {body : JsonObject} {rawBody : List UInt8} {nowMs : ℤ} (hok : RecordOk r) :
    RecordOk (readvertise c r body rawBody nowMs).1 := by
  have hfree : r.state.Free → r.claim = [] ∧ r.rawClaim = [] := hok.unclaimed
  unfold readvertise
  cases hs : r.state <;> simp only
  case advertised => exact ⟨fun _ => hfree (Or.inl hs), fun h => nomatch h⟩
  case preparing =>
    obtain ⟨hreq, m, hm, -⟩ := hok.placed hs
    split
    · -- it stays in preparation, off the map of its placement
      rename_i hel
      refine ⟨fun _ => hfree (Or.inr hs), fun _ => ⟨hreq, m, hm, ?_⟩⟩
      simpa [elsewhere, hm] using hel
    · exact ⟨fun _ => hfree (Or.inr hs), fun h => nomatch h⟩
  case claimed =>
    split
    · exact .of_not_free (by simp [State.Free])
    · exact .of_not_free (by simp [State.Free])
  all_goals exact .of_not_free (by simp [State.Free])

theorem searchRecord_moves {order : Order String} {request : JsonObject} {nowMs : ℤ}
    {hostPlacement : List UInt8} (hop : op = .search order request nowMs hostPlacement) :
    Moves c op key (some r) (some (searchRecord c prepare request nowMs hostPlacement r).1) := by
  rcases searchRecord_record prepare request nowMs hostPlacement r with ⟨-, he⟩ | ⟨hsent, he⟩
  · rw [he]
    exact .stays rfl
  · obtain ⟨hs, -, hany, -, -⟩ := hsent
    have hcoop : c.seamlessCoop = true := ((Bool.and_eq_true _ _).mp hany).1
    rw [he]
    exact .prepared hop hcoop hs rfl

theorem searchRecord_ok {request : JsonObject} {nowMs : ℤ} {hostPlacement : List UInt8}
    (hok : RecordOk r) : RecordOk (searchRecord c prepare request nowMs hostPlacement r).1 := by
  rcases searchRecord_record prepare request nowMs hostPlacement r with ⟨-, he⟩ | ⟨hsent, he⟩
  · rw [he]
    exact hok
  · -- a sign is prepared for a requester who is named, and is not on his map
    obtain ⟨hs, -, -, hreq, hel⟩ := hsent
    rw [he]
    refine ⟨fun _ => hok.unclaimed (Or.inl hs), fun _ => ⟨hreq, ?_⟩⟩
    unfold elsewhere at hel
    cases hm : hostPlacementMap hostPlacement with
    | none =>
      rw [hm] at hel
      cases hel
    | some m =>
      rw [hm] at hel
      exact ⟨m, rfl, of_decide_eq_true hel⟩

theorem consumeRecord_moves {order : Order String} {request : JsonObject} {nowMs : ℤ}
    (hop : op = .consume order request nowMs) :
    Moves c op key (some r) (some (consumeRecord c request nowMs r)) := by
  unfold consumeRecord
  split
  · by_cases hret : retains c request r = true
    · rw [if_pos hret]
      exact .stays rfl
    · rw [if_neg hret]
      refine .consumed hop (fun hcoop hactive => ?_) rfl
      -- an active record is given up on demand only
      by_contra hforce
      have hseamless : isSeamlessActiveState r.state = true := by
        rcases hactive with h | h | h <;> rw [h] <;> rfl
      exact hret (by simp [retains, hcoop, hforce, hseamless])
  · exact .stays rfl

theorem consumeRecord_ok {request : JsonObject} {nowMs : ℤ} (hok : RecordOk r) :
    RecordOk (consumeRecord c request nowMs r) := by
  unfold consumeRecord
  split
  · split
    · exact ⟨hok.unclaimed, hok.placed⟩
    · exact .of_not_free (by simp [State.Free])
  · exact hok

theorem advertise_moves (hok : RecordsOk t) (body : JsonObject) (rawBody : List UInt8) (nowMs : ℤ)
    (key : String) : Moves c (.advertise body rawBody nowMs) key
      ((purgeExpired c nowMs t).get? key) ((advertise c t body rawBody nowMs).1.get? key) := by
  have hpurged := purgeExpired_ok (c := c) hok nowMs
  rcases advertise_cases (c := c) (t := t) body rawBody nowMs with ⟨hold, he⟩ | ⟨r, hr, -, he⟩
  · -- only the record under the key of the advertisement is touched
    rw [he]
    by_cases hkey : key = recordKeyOf body
    · subst hkey
      rw [Table.get?_set_self]
      exact .created rfl rfl (fun r hr => Or.inl (hold r hr)) rfl
    · rw [Table.get?_set_ne hkey]
      exact .same _
  · rw [he]
    by_cases hkey : key = recordKeyOf body
    · subst hkey
      rw [Table.get?_set_self, hr]
      exact readvertise_moves (hpurged _ r hr) rfl rfl
    · rw [Table.get?_set_ne hkey]
      exact .same _

theorem search_moves (order : Order String) (request : JsonObject) (nowMs : ℤ)
    (hostPlacement : List UInt8) (key : String) :
    Moves c (.search order request nowMs hostPlacement) key ((purgeExpired c nowMs t).get? key)
      ((search c prepare order t request nowMs hostPlacement).1.get? key) := by
  rw [search_get?]
  cases (purgeExpired c nowMs t).get? key with
  | none => exact .absent
  | some r => exact searchRecord_moves rfl

theorem claim_moves (order : Order String) (request : JsonObject) (rawRequest : List UInt8)
    (nowMs : ℤ) (hostPlacement : List UInt8) (key : String) :
    Moves c (.claim order request rawRequest nowMs hostPlacement) key
      ((purgeExpired c nowMs t).get? key)
      ((claim c order t request rawRequest nowMs hostPlacement).1.get? key) := by
  rcases claim_cases (c := c) order t request rawRequest nowMs hostPlacement with
    ⟨-, he⟩ | ⟨-, key', r, r', hr, hs, hst, he, -, -, hs', -⟩
  · rw [he]
    exact .same _
  · rw [he]
    by_cases hkey : key = key'
    · subst hkey
      rw [Table.get?_set_self, hr]
      -- a free record is claimed, a claimed one stays so, a delivered one is claimed again
      rcases claimStatus_claimed hst hs with hfree | ⟨hheld, hcoop, -, hsame⟩
      · exact .claimed rfl hfree hs'
      · rcases hheld with hc | hd
        · exact .stays (by rw [hs', hc])
        · exact .reclaimed rfl hcoop hsame hd hs'
    · rw [Table.get?_set_ne hkey]
      exact .same _

theorem consume_moves (order : Order String) (request : JsonObject) (nowMs : ℤ) (key : String) :
    Moves c (.consume order request nowMs) key ((purgeExpired c nowMs t).get? key)
      ((consume c order t request nowMs).1.get? key) := by
  rcases consume_cases (c := c) (t := t) order request nowMs with he | he
  · rw [he]
    exact .same _
  · rw [he key]
    cases (purgeExpired c nowMs t).get? key with
    | none => exact .absent
    | some r => exact consumeRecord_moves rfl

/-- **Every operation makes permitted moves only.** -/
theorem applyOp_moves (hok : RecordsOk t) (op : Op) (key : String) :
    Moves c op key (t.get? key) ((applyOp c prepare t op).get? key) := by
  apply moves_of_purged
  cases op with
  | advertise body rawBody nowMs => exact advertise_moves hok body rawBody nowMs key
  | search order request nowMs hostPlacement => exact search_moves order request nowMs _ key
  | claim order request rawRequest nowMs hostPlacement =>
    exact claim_moves order request rawRequest nowMs hostPlacement key
  | consume order request nowMs => exact consume_moves order request nowMs key
  | stateFor sessionId userId nowMs => exact .same _
  | size nowMs => exact .same _

/-! ## Runs -/

theorem RecordsOk.set (h : RecordsOk t) (hr : RecordOk r) : RecordsOk (t.set key r) := by
  intro k r' hr'
  rcases Table.of_get?_set hr' with ⟨-, rfl⟩ | ⟨-, hold⟩
  · exact hr
  · exact h k r' hold

theorem RecordsOk.map {f : Record → Record} (h : RecordsOk t)
    (hf : ∀ r, RecordOk r → RecordOk (f r))
    (hget : ∀ key, t'.get? key = (t.get? key).map f) : RecordsOk t' := by
  intro k r' hr'
  rw [hget k] at hr'
  obtain ⟨r, hr, rfl⟩ := Option.map_eq_some_iff.mp hr'
  exact hf r (h k r hr)

theorem applyOp_ok (hok : RecordsOk t) (op : Op) : RecordsOk (applyOp c prepare t op) := by
  have hpurged := fun nowMs => purgeExpired_ok (c := c) hok nowMs
  cases op with
  | advertise body rawBody nowMs =>
    simp only [applyOp]
    rcases advertise_cases (c := c) (t := t) body rawBody nowMs with ⟨-, he⟩ | ⟨r, hr, -, he⟩
    · rw [he]
      exact (hpurged nowMs).set ⟨fun _ => ⟨rfl, rfl⟩, by simp⟩
    · rw [he]
      exact (hpurged nowMs).set (readvertise_ok (hpurged nowMs _ r hr))
  | search order request nowMs hostPlacement =>
    exact (hpurged nowMs).map (fun r h => searchRecord_ok h) fun key => search_get? ..
  | claim order request rawRequest nowMs hostPlacement =>
    simp only [applyOp]
    rcases claim_cases (c := c) order t request rawRequest nowMs hostPlacement with
      ⟨-, he⟩ | ⟨-, key, r, r', -, -, -, he, -, -, hs', -⟩
    · rw [he]
      exact hpurged nowMs
    · rw [he]
      exact (hpurged nowMs).set (.of_not_free (by simp [State.Free, hs']))
  | consume order request nowMs =>
    simp only [applyOp]
    rcases consume_cases (c := c) (t := t) order request nowMs with he | he
    · rw [he]
      exact hpurged nowMs
    · exact (hpurged nowMs).map (fun r h => consumeRecord_ok h) he
  | stateFor sessionId userId nowMs => exact hpurged nowMs
  | size nowMs => exact hpurged nowMs

theorem watchedAfter_ok (c : Config)
    (prepare : List UInt8 → JsonObject → JsonObject → Bool → List UInt8) (ops : List Op) (n : ℕ) :
    RecordsOk (watchedAfter c prepare ops n).records :=
  runAt_inv (P := fun w : Watched => RecordsOk w.records) (fun _ _ h => by simp at h)
    (fun _ op h => applyOp_ok h op) ops n

/-- **A table that a run reaches**: records lie under their keys, and hold what their states say. A
claim that is held is the last one accepted. -/
structure StateOk (c : Config) (w : Watched) : Prop where
  key : ∀ key r, w.records.get? key = some r → recordKeyOf r.advertisement = key
  unclaimed : ∀ key r, w.records.get? key = some r →
    r.state = .advertised ∨ r.state = .preparing → r.claim = [] ∧ r.rawClaim = []
  claimed : ∀ key r, w.records.get? key = some r → r.state = .claimed ∨ r.state = .delivered →
    ∃ a, (w.history key).getLast? = some a ∧ r.claim = a.request ∧ r.rawClaim = a.raw
  placed : ∀ key r, w.records.get? key = some r → r.state = .preparing →
    0 ≤ r.preparationRequester ∧ ∃ m, hostPlacementMap r.hostPlacement = some m ∧
      integer r.advertisement "AreaId" (-1) ≠ m

/-- **The life of a record.** Along a run every operation makes permitted moves only, and the tables
that are reached are right. -/
theorem lifecycle_ok (c : Config)
    (prepare : List UInt8 → JsonObject → JsonObject → Bool → List UInt8) (ops : List Op) :
    (∀ n (hn : n < ops.length) key, Moves c ops[n] key
      ((watchedAfter c prepare ops n).records.get? key)
      ((watchedAfter c prepare ops (n + 1)).records.get? key)) ∧
    ∀ n, StateOk c (watchedAfter c prepare ops n) := by
  constructor
  · intro n hn key
    have hstep : watchedAfter c prepare ops (n + 1) =
        watch c prepare (watchedAfter c prepare ops n) ops[n] := runAt_succ _ hn
    rw [hstep]
    exact applyOp_moves (watchedAfter_ok c prepare ops n) ops[n] key
  · intro n
    have hinv := watchedAfter_inv c prepare ops n
    have hok := watchedAfter_ok c prepare ops n
    exact ⟨hinv.key, fun key r hr => (hok key r hr).unclaimed,
      fun key r hr hs => ⟨_, hinv.held key r hr hs, rfl, rfl⟩,
      fun key r hr => (hok key r hr).placed⟩

end ShadNet.SummonBroker
