import ShadNet.Spec.SummonBroker

/-!
# Claims of the summon broker

A run is watched by a history: for every record key the claims that were accepted since the
record was last created, told from the results of the calls.

* `Inv`: the claim stored in a claimed or delivered record is the last of its history, and
  an unclaimed record has none.
* `watch_inv`: every operation keeps it.
* `claims_ok`: what an advertisement delivers, who may claim, and what a refused claim
  changes, in every state that a run reaches.
-/

namespace ShadNet.SummonBroker

open Lib

variable {c : Config} {prepare : List UInt8 → JsonObject → JsonObject → Bool → List UInt8}
  {t t' : Records} {key : String} {r r' : Record}

/-- A claim that was accepted. -/
structure Accepted where
  request : JsonObject
  raw : List UInt8

/-- Whom a claim is made for. -/
def Accepted.userId (a : Accepted) : ℤ := integer a.request "UserId" (-1)

/-- The claims accepted for a key since its record was created. -/
abbrev History := String → List Accepted

/-- An advertisement makes a new record: there is none under its key, or it is consumed. -/
def creates (records : Records) (key : String) : Bool :=
  match records.get? key with
  | none => true
  | some r => decide (r.state = .consumed)

/-- What an operation adds to the history. -/
def History.next (h : History) (c : Config) (records : Records) : Op → History
  | .advertise body _ nowMs =>
    if creates (purgeExpired c nowMs records) (recordKeyOf body)
    then Function.update h (recordKeyOf body) [] else h
  | .claim order request rawRequest nowMs hostPlacement =>
    let result := (claim c order records request rawRequest nowMs hostPlacement).2
    let key := recordKey result.targetSessionId result.targetUserId
    if result.status = .claimed then Function.update h key (h key ++ [⟨request, rawRequest⟩]) else h
  | _ => h

/-- A broker and what was claimed from it. -/
structure Watched where
  records : Records
  history : History

/-- The broker, and what it has accepted, after a call. -/
def watch (c : Config)
    (prepare : List UInt8 → JsonObject → JsonObject → Bool → List UInt8) (w : Watched) (op : Op) :
    Watched :=
  ⟨applyOp c prepare w.records op, w.history.next c w.records op⟩

/-- The broker after the first `n` operations, watched from the start. -/
def watchedAfter (c : Config)
    (prepare : List UInt8 → JsonObject → JsonObject → Bool → List UInt8) (ops : List Op) (n : ℕ) :
    Watched :=
  runAt (watch c prepare) ⟨∅, fun _ => []⟩ ops n

/-- The sign has a claim. -/
def State.Held (s : State) : Prop := s = .claimed ∨ s = .delivered

/-- The sign can still be claimed. -/
def State.Free (s : State) : Prop := s = .advertised ∨ s = .preparing

/-- Who has claimed under a key: one claim in classic mode, and always one requester, who is
named if he claimed more than once. -/
structure OneClaimant (c : Config) (l : List Accepted) : Prop where
  once : c.seamlessCoop = false → l.length ≤ 1
  same : ∀ a ∈ l, ∀ b ∈ l, a.userId = b.userId
  named : 1 < l.length → ∀ a ∈ l, 0 ≤ a.userId

/-- Keys and claims of signs are those of the history. -/
structure Inv (c : Config) (w : Watched) : Prop where
  key : ∀ key r, w.records.get? key = some r → recordKeyOf r.advertisement = key
  held : ∀ key r, w.records.get? key = some r → r.state.Held →
    (w.history key).getLast? = some ⟨r.claim, r.rawClaim⟩
  free : ∀ key r, w.records.get? key = some r → r.state.Free → w.history key = []
  claimant : ∀ key, OneClaimant c (w.history key)

/-- `r'` is `r` with its key and its claim, and is claimed or free only if `r` is. -/
structure Follows (r r' : Record) : Prop where
  key : recordKeyOf r'.advertisement = recordKeyOf r.advertisement
  claim : r'.claim = r.claim ∧ r'.rawClaim = r.rawClaim
  held : r'.state.Held → r.state.Held
  free : r'.state.Free → r.state.Free

theorem Follows.refl (r : Record) : Follows r r := ⟨rfl, ⟨rfl, rfl⟩, id, id⟩

/-- Records that follow those of their keys keep the invariant. -/
theorem Inv.follow {h : History} (hinv : Inv c ⟨t, h⟩)
    (hfrom : ∀ k r', t'.get? k = some r' → ∃ r, t.get? k = some r ∧ Follows r r') :
    Inv c ⟨t', h⟩ := by
  refine ⟨?_, ?_, ?_, hinv.claimant⟩
  · intro k r' hr'
    obtain ⟨r, hr, hf⟩ := hfrom k r' hr'
    exact hf.key.trans (hinv.key k r hr)
  · intro k r' hr' hs
    obtain ⟨r, hr, hf⟩ := hfrom k r' hr'
    rw [hf.claim.1, hf.claim.2]
    exact hinv.held k r hr (hf.held hs)
  · intro k r' hr' hs
    obtain ⟨r, hr, hf⟩ := hfrom k r' hr'
    exact hinv.free k r hr (hf.free hs)

theorem purgeExpired_get? {nowMs : ℤ} : (purgeExpired c nowMs t).get? key = some r ↔
    t.get? key = some r ∧ expired c nowMs r = false := by
  unfold purgeExpired
  rw [Table.get?_filterMap, Option.bind_eq_some_iff]
  constructor
  · rintro ⟨r0, h0, h⟩
    split at h
    · cases h
    · rename_i he
      obtain rfl := Option.some.inj h
      exact ⟨h0, by simpa using he⟩
  · rintro ⟨h0, h⟩
    exact ⟨r, h0, by simp [h]⟩

theorem purgeExpired_inv {h : History} (hinv : Inv c ⟨t, h⟩) (nowMs : ℤ) :
    Inv c ⟨purgeExpired c nowMs t, h⟩ :=
  hinv.follow fun _ r' hr' => ⟨r', (purgeExpired_get?.mp hr').1, .refl r'⟩

/-- A table rewritten record by record. -/
theorem Inv.rewrite {h : History} (hinv : Inv c ⟨t, h⟩) {f : Record → Record}
    (hf : ∀ r, Follows r (f r)) : Inv c ⟨t.filterMap fun _ r => some (f r), h⟩ := by
  refine hinv.follow fun k r' hr' => ?_
  rw [Table.get?_filterMap] at hr'
  obtain ⟨r, hr, he⟩ := Option.bind_eq_some_iff.mp hr'
  exact ⟨r, hr, Option.some.inj he ▸ hf r⟩

/-! ## The operations -/

theorem readvertise_follows {body : JsonObject} (hkey : recordKeyOf body = recordKeyOf r.advertisement)
    (rawBody : List UInt8) (nowMs : ℤ) : Follows r (readvertise c r body rawBody nowMs).1 := by
  unfold readvertise
  -- a preparing record becomes free at most, a claimed one delivered at most
  cases hs : r.state <;> simp only
  case preparing =>
    split
    · exact ⟨hkey, ⟨rfl, rfl⟩, by simp [State.Held, hs], by simp [State.Free, hs]⟩
    · exact ⟨hkey, ⟨rfl, rfl⟩, by simp [State.Held, hs], by simp [State.Free, hs]⟩
  case claimed =>
    split
    · exact ⟨hkey, ⟨rfl, rfl⟩, by simp [State.Held, hs], by simp [State.Free, hs]⟩
    · exact ⟨hkey, ⟨rfl, rfl⟩, by simp [State.Held, hs], by simp [State.Free, hs]⟩
  all_goals exact ⟨hkey, ⟨rfl, rfl⟩, by simp [State.Held, hs], by simp [State.Free, hs]⟩

/-- Only a delivered record gives its claim away. -/
theorem readvertise_pending {body : JsonObject} {rawBody : List UInt8} {nowMs : ℤ}
    (h : (readvertise c r body rawBody nowMs).2.pendingClaim ≠ []) :
    r.state.Held ∧ (readvertise c r body rawBody nowMs).2.pendingClaim = r.rawClaim := by
  unfold readvertise at h ⊢
  cases hs : r.state <;> simp only [hs] at h ⊢
  case advertised => exact absurd rfl h
  case consumed => exact absurd rfl h
  case preparing => split at h <;> exact absurd rfl h
  case claimed =>
    split at h
    · exact absurd rfl h
    · rename_i hno
      rw [if_neg hno]
      exact ⟨Or.inl rfl, rfl⟩
  case delivered => exact ⟨Or.inr rfl, trivial⟩

/-- A search sends the record to be prepared. -/
def Prepares (c : Config) (request : JsonObject) (hostPlacement : List UInt8) (r : Record) :
    Prop :=
  r.state = .advertised ∧
    matchesSearch request r.advertisement (c.seamlessCoop && c.seamlessAnywhereSummons) = true ∧
    (c.seamlessCoop && c.seamlessAnywhereSummons) = true ∧ 0 ≤ integer request "UserId" (-1) ∧
    elsewhere hostPlacement r.advertisement = true

/-- **What a search does to a record**: it sends it to be prepared, or leaves it alone. -/
theorem searchRecord_record (prepare : List UInt8 → JsonObject → JsonObject → Bool → List UInt8)
    (request : JsonObject) (nowMs : ℤ) (hostPlacement : List UInt8) (r : Record) :
    (¬ Prepares c request hostPlacement r ∧
      (searchRecord c prepare request nowMs hostPlacement r).1 = r) ∨
    (Prepares c request hostPlacement r ∧
      (searchRecord c prepare request nowMs hostPlacement r).1 =
        { r with
          state := .preparing, hostPlacement := hostPlacement,
          preparationRequester := integer request "UserId" (-1), updatedAtMs := nowMs }) := by
  simp only [searchRecord]
  split
  · rename_i hs
    split
    · rename_i hprep
      simp only [Bool.and_eq_true, decide_eq_true_eq] at hprep
      exact Or.inr ⟨⟨hs.1, hs.2, by simp [hprep.1.1], hprep.1.2, hprep.2⟩, rfl⟩
    · rename_i hprep
      refine Or.inl ⟨fun hsent => hprep ?_, rfl⟩
      obtain ⟨-, -, hany, hreq, hel⟩ := hsent
      rw [hany, hel, decide_eq_true hreq]
      rfl
  · rename_i hs
    refine Or.inl ⟨fun hsent => hs ⟨hsent.1, hsent.2.1⟩, ?_⟩
    split <;> rfl

theorem searchRecord_follows (request : JsonObject) (nowMs : ℤ) (hostPlacement : List UInt8) :
    Follows r (searchRecord c prepare request nowMs hostPlacement r).1 := by
  rcases searchRecord_record prepare request nowMs hostPlacement r with ⟨-, he⟩ | ⟨hsent, he⟩
  · rw [he]
    exact .refl r
  · -- a sign on another map is prepared: it was advertised, so it stays free
    rw [he]
    exact ⟨rfl, ⟨rfl, rfl⟩, by simp [State.Held], by simp [State.Free, hsent.1]⟩

theorem consumeRecord_follows (request : JsonObject) (nowMs : ℤ) :
    Follows r (if consumeMatches request r then
        if retains c request r then { r with updatedAtMs := nowMs }
        else { r with state := .consumed, updatedAtMs := nowMs }
      else r) := by
  split
  · split
    · exact ⟨rfl, ⟨rfl, rfl⟩, id, id⟩
    · exact ⟨rfl, ⟨rfl, rfl⟩, by simp [State.Held], by simp [State.Free]⟩
  · exact .refl r

/-- A claim finds its record in the table. -/
theorem claimTarget_get? {order : Order String} {request : JsonObject}
    (h : claimTarget order t request = some (key, r)) : t.get? key = some r := by
  -- the loop over the user's records keeps its target or takes the record at hand
  have hfold : ∀ (l : List (String × Record)) (f : Option (String × Record) → String × Record →
      Option (String × Record)) (a : Option (String × Record)),
      (∀ x e, f x e = x ∨ f x e = some e) → ∀ e, l.foldl f a = some e → a = some e ∨ e ∈ l := by
    intro l f
    induction l with
    | nil => intro a _ e he; exact Or.inl he
    | cons b l ih =>
      intro a hf e he
      rcases ih (f a b) hf e he with h | h
      · rcases hf a b with h' | h'
        · exact Or.inl (h' ▸ h)
        · rw [h'] at h
          exact Or.inr (by rw [Option.some.inj h]; simp)
      · exact Or.inr (List.mem_cons_of_mem _ h)
  simp only [claimTarget] at h
  split at h
  · rename_i e he
    obtain rfl := Option.some.inj h
    split at he
    · cases he
    · exact Table.mem_inOrder.mp (List.mem_of_find?_eq_some he)
  · split at h
    · cases h
    · rcases hfold _ _ _ (fun x e => by grind) _ h with h | h
      · cases h
      · exact Table.mem_inOrder.mp h

/-- A record is put in, with a history that fits it. -/
theorem Inv.put {h : History} (hinv : Inv c ⟨t, h⟩) {l : List Accepted}
    (hkey : recordKeyOf r.advertisement = key)
    (hheld : r.state.Held → l.getLast? = some ⟨r.claim, r.rawClaim⟩)
    (hfree : r.state.Free → l = []) (hone : OneClaimant c l) :
    Inv c ⟨t.set key r, Function.update h key l⟩ := by
  -- under `key` stand the new record and history, under any other key the old ones
  have hget : ∀ k r0, (t.set key r).get? k = some r0 →
      (k = key ∧ r0 = r ∧ Function.update h key l k = l) ∨
        (t.get? k = some r0 ∧ Function.update h key l k = h k) := by
    intro k r0 hr0
    rcases Table.of_get?_set hr0 with ⟨rfl, rfl⟩ | ⟨hne, hold⟩
    · exact Or.inl ⟨rfl, rfl, Function.update_self ..⟩
    · exact Or.inr ⟨hold, Function.update_of_ne hne ..⟩
  refine ⟨?_, ?_, ?_, ?_⟩
  · intro k r0 hr0
    rcases hget k r0 hr0 with ⟨rfl, rfl, -⟩ | ⟨hr0, -⟩
    · exact hkey
    · exact hinv.key k r0 hr0
  · intro k r0 hr0 hs
    simp only
    rcases hget k r0 hr0 with ⟨-, rfl, hl⟩ | ⟨hr0, hl⟩
    · rw [hl]
      exact hheld hs
    · rw [hl]
      exact hinv.held k r0 hr0 hs
  · intro k r0 hr0 hs
    simp only
    rcases hget k r0 hr0 with ⟨-, rfl, hl⟩ | ⟨hr0, hl⟩
    · rw [hl]
      exact hfree hs
    · rw [hl]
      exact hinv.free k r0 hr0 hs
  · intro k
    simp only [Function.update_apply]
    split
    · exact hone
    · exact hinv.claimant k

/-- A new record starts a new history. -/
theorem Inv.create {h : History} (hinv : Inv c ⟨t, h⟩) (hkey : recordKeyOf r.advertisement = key)
    (hs : r.state = .advertised) : Inv c ⟨t.set key r, Function.update h key []⟩ := by
  have hheld : ¬ r.state.Held := by
    rintro (h' | h') <;> rw [hs] at h' <;> cases h'
  have hone : OneClaimant c [] := ⟨by simp, by simp, by simp⟩
  exact hinv.put hkey (fun h' => absurd h' hheld) (fun _ => rfl) hone

/-- **Who may claim again.** A claim is accepted on a free record, and in seamless mode from
the requester whose claim is stored. -/
theorem claimStatus_claimed {request : JsonObject} (h : claimStatus c r request = .claimed)
    (hc : r.state ≠ .consumed) : r.state.Free ∨ (r.state.Held ∧ c.seamlessCoop = true ∧
      0 ≤ integer request "UserId" (-1) ∧
      integer r.claim "UserId" (-1) = integer request "UserId" (-1)) := by
  unfold claimStatus at h
  split at h
  · rename_i hs
    refine Or.inr ⟨hs, ?_⟩
    -- the same request again is no new claim
    split at h
    · cases h
    · simp only at h
      split at h
      · cases h
      · rename_i hno
        simpa [not_or, and_assoc] using hno
  · rename_i hs
    left
    cases hst : r.state <;> simp_all [State.Free]

/-- An accepted claim is the last of its history. -/
theorem Inv.accept {h : History} (hinv : Inv c ⟨t, h⟩) (hr : t.get? key = some r)
    {request : JsonObject} {raw : List UInt8} (hst : claimStatus c r request = .claimed)
    (hc : r.state ≠ .consumed) (hadv : r'.advertisement = r.advertisement)
    (hs : r'.state = .claimed) (hclaim : r'.claim = request) (hraw : r'.rawClaim = raw) :
    Inv c ⟨t.set key r', Function.update h key (h key ++ [⟨request, raw⟩])⟩ := by
  have hkey : recordKeyOf r'.advertisement = key := by
    rw [hadv]
    exact hinv.key key r hr
  have hfree : ¬ r'.state.Free := by
    rintro (h' | h') <;> rw [hs] at h' <;> cases h'
  refine hinv.put hkey (fun _ => ?_) (fun h' => absurd h' hfree) ?_
  · -- the claim that is stored is the one that is appended
    rw [List.getLast?_concat, hclaim, hraw]
  · rcases claimStatus_claimed hst hc with hwas | ⟨hheld, hcoop, hpos, hprev⟩
    · -- the first claim of the record
      rw [show h key = [] from hinv.free key r hr hwas]
      exact ⟨by simp, by simp, by simp⟩
    · -- the requester is the one of the last claim, and so of all of them
      have hlast : (⟨r.claim, r.rawClaim⟩ : Accepted) ∈ h key :=
        List.mem_of_getLast? (hinv.held key r hr hheld)
      have hall : ∀ a ∈ h key ++ [⟨request, raw⟩], a.userId = integer request "UserId" (-1) := by
        intro a ha
        rcases List.mem_append.mp ha with ha | ha
        · exact ((hinv.claimant key).same a ha _ hlast).trans hprev
        · rw [List.mem_singleton.mp ha]; rfl
      exact ⟨by simp [hcoop], fun a ha b hb => (hall a ha).trans (hall b hb).symm,
        fun _ a ha => (hall a ha).symm ▸ hpos⟩

theorem advertise_inv {h : History} (hinv : Inv c ⟨t, h⟩) (body : JsonObject)
    (rawBody : List UInt8) (nowMs : ℤ) : Inv c
      ⟨(advertise c t body rawBody nowMs).1, h.next c t (.advertise body rawBody nowMs)⟩ := by
  have hp := purgeExpired_inv hinv nowMs
  simp only [History.next, advertise]
  cases hr : (purgeExpired c nowMs t).get? (recordKeyOf body) with
  | none =>
    rw [if_pos (by simp only [creates, hr])]
    exact hp.create rfl rfl
  | some r =>
    simp only
    -- a consumed record is replaced by a new one, any other takes the new advertisement
    by_cases hs : r.state = .consumed
    · rw [if_pos hs, if_pos (by simp only [creates, hr, hs, decide_true])]
      exact hp.create rfl rfl
    · rw [if_neg hs, if_neg (by simp only [creates, hr, hs, decide_false]; simp)]
      refine hp.follow fun k r' hr' => ?_
      rcases Table.of_get?_set hr' with ⟨rfl, rfl⟩ | ⟨-, hold⟩
      · exact ⟨r, hr, readvertise_follows (hp.key _ r hr).symm rawBody nowMs⟩
      · exact ⟨r', hold, .refl r'⟩

/-- What a claim leaves behind: it is accepted, or changes nothing. -/
theorem claim_cases (order : Order String) (t : Records) (request : JsonObject)
    (rawRequest : List UInt8) (nowMs : ℤ) (hostPlacement : List UInt8) :
    ((claim c order t request rawRequest nowMs hostPlacement).2.status ≠ .claimed ∧
      (claim c order t request rawRequest nowMs hostPlacement).1 = purgeExpired c nowMs t) ∨
    ((claim c order t request rawRequest nowMs hostPlacement).2.status = .claimed ∧
      ∃ key r r', (purgeExpired c nowMs t).get? key = some r ∧ r.state ≠ .consumed ∧
        claimStatus c r request = .claimed ∧
        (claim c order t request rawRequest nowMs hostPlacement).1 =
          (purgeExpired c nowMs t).set key r' ∧
        recordKey (claim c order t request rawRequest nowMs hostPlacement).2.targetSessionId
          (claim c order t request rawRequest nowMs hostPlacement).2.targetUserId =
          recordKeyOf r.advertisement ∧
        r'.advertisement = r.advertisement ∧ r'.state = .claimed ∧ r'.claim = request ∧
        r'.rawClaim = rawRequest ∧ r'.hostPlacement =
          if c.seamlessCoop && acceptsPlacement hostPlacement then hostPlacement else []) := by
  simp only [claim]
  cases ht : claimTarget order (purgeExpired c nowMs t) request with
  | none => exact Or.inl ⟨by simp, rfl⟩
  | some e =>
    obtain ⟨key, r⟩ := e
    simp only
    -- a consumed record counts as none
    by_cases hs : r.state = .consumed
    · rw [if_pos hs]; exact Or.inl ⟨by simp, rfl⟩
    · rw [if_neg hs]
      by_cases hst : claimStatus c r request = .claimed
      · rw [if_pos hst]
        exact Or.inr ⟨hst, key, r, _, claimTarget_get? ht, hs, hst, rfl, rfl, rfl, rfl, rfl, rfl, rfl⟩
      · rw [if_neg hst]; exact Or.inl ⟨hst, rfl⟩

theorem claim_inv {h : History} (hinv : Inv c ⟨t, h⟩) (order : Order String)
    (request : JsonObject) (rawRequest : List UInt8) (nowMs : ℤ) (hostPlacement : List UInt8) :
    Inv c ⟨(claim c order t request rawRequest nowMs hostPlacement).1,
      h.next c t (.claim order request rawRequest nowMs hostPlacement)⟩ := by
  have hp := purgeExpired_inv hinv nowMs
  simp only [History.next]
  rcases claim_cases (c := c) order t request rawRequest nowMs hostPlacement with
    ⟨hst, he⟩ | ⟨hst, key, r, r', hr, hs, hcs, he, hkey, hadv, hs', hclaim, hraw, -⟩
  · rw [if_neg hst, he]; exact hp
  · -- the history names the record by what the result tells of it, which is its key
    rw [if_pos hst, he, hkey, hp.key key r hr]
    exact hp.accept hr hcs hs hadv hs' hclaim hraw

/-- **Every operation keeps the invariant.** -/
theorem watch_inv {w : Watched} (hinv : Inv c w) (op : Op) : Inv c (watch c prepare w op) := by
  cases op with
  | advertise body rawBody nowMs => exact advertise_inv hinv body rawBody nowMs
  | search order request nowMs hostPlacement =>
    exact (purgeExpired_inv hinv nowMs).rewrite fun r => searchRecord_follows request nowMs _
  | claim order request rawRequest nowMs hostPlacement =>
    exact claim_inv hinv order request rawRequest nowMs hostPlacement
  | consume order request nowMs =>
    have hp := purgeExpired_inv hinv nowMs
    simp only [watch, applyOp, History.next, consume]
    split
    · exact hp
    · exact hp.rewrite fun r => consumeRecord_follows request nowMs
  | stateFor sessionId userId nowMs => exact purgeExpired_inv hinv nowMs
  | size nowMs => exact purgeExpired_inv hinv nowMs

theorem inv_empty : Inv c ⟨∅, fun _ => []⟩ :=
  ⟨fun _ _ h => by simp at h, fun _ _ h => by simp at h, fun _ _ h => by simp at h,
    fun _ => ⟨by simp, by simp, by simp⟩⟩

theorem watchedAfter_inv (c : Config)
    (prepare : List UInt8 → JsonObject → JsonObject → Bool → List UInt8) (ops : List Op) (n : ℕ) :
    Inv c (watchedAfter c prepare ops n) :=
  runAt_inv (P := Inv c) inv_empty (fun _ op h => watch_inv h op) ops n

/-! ## What it means for the players -/

/-- **The broker keeps hosts and guests apart.** -/
structure ClaimsOk (c : Config) (w : Watched) : Prop where
  delivered : ∀ body rawBody nowMs, (advertise c w.records body rawBody nowMs).2.pendingClaim ≠ [] →
    ∃ a, (w.history (recordKeyOf body)).getLast? = some a ∧
      (advertise c w.records body rawBody nowMs).2.pendingClaim = a.raw
  claimant : ∀ key, OneClaimant c (w.history key)
  refused : ∀ order request rawRequest nowMs hostPlacement,
    (claim c order w.records request rawRequest nowMs hostPlacement).2.status ≠ .claimed →
    ∀ key r, w.records.get? key = some r → expired c nowMs r = false →
      (claim c order w.records request rawRequest nowMs hostPlacement).1.get? key = some r

theorem advertise_pending {body : JsonObject} {rawBody : List UInt8} {nowMs : ℤ}
    (h : (advertise c t body rawBody nowMs).2.pendingClaim ≠ []) :
    ∃ r, (purgeExpired c nowMs t).get? (recordKeyOf body) = some r ∧ r.state.Held ∧
      (advertise c t body rawBody nowMs).2.pendingClaim = r.rawClaim := by
  simp only [advertise] at h ⊢
  cases hr : (purgeExpired c nowMs t).get? (recordKeyOf body) with
  | none => simp [hr] at h
  | some r =>
    simp only [hr] at h ⊢
    split at h
    · exact absurd rfl h
    · rename_i hs
      rw [if_neg hs]
      exact ⟨r, rfl, readvertise_pending h⟩

/-- **Claims along a run.** -/
theorem claims_ok (c : Config)
    (prepare : List UInt8 → JsonObject → JsonObject → Bool → List UInt8) (ops : List Op) (n : ℕ) :
    ClaimsOk c (watchedAfter c prepare ops n) := by
  have hinv := watchedAfter_inv c prepare ops n
  refine ⟨?_, hinv.claimant, ?_⟩
  · intro body rawBody nowMs h
    obtain ⟨r, hr, hheld, he⟩ := advertise_pending h
    exact ⟨_, hinv.held _ r (purgeExpired_get?.mp hr).1 hheld, he⟩
  · intro order request rawRequest nowMs hostPlacement hst key r hr hex
    rcases claim_cases (c := c) order (watchedAfter c prepare ops n).records request rawRequest nowMs
      hostPlacement with ⟨-, he⟩ | ⟨hst', -⟩
    · rw [he]; exact purgeExpired_get?.mpr ⟨hr, hex⟩
    · exact absurd hst' hst

end ShadNet.SummonBroker
