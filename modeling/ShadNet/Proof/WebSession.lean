import ShadNet.Spec.WebSession

/-!
# The session table

* `StoreOk`: every session is stored under its own id, has members, holds no user twice and
  is owned by a member under that member's npid; a user holds an index in one session only.
* `apply_storeOk`: every operation keeps it.
* `apply_moved`: a create or a join changes no session other than the one entered and the
  one in which the user held the same index.
* `sessions_ok`: both along every run.
-/

namespace ShadNet

open Lib

variable {t : Sessions} {id : String} {s s' : Session} {u i : ℤ}

/-- `u` holds index `i` in the session `id`. -/
def Holds (t : Sessions) (id : String) (u i : ℤ) : Prop :=
  ∃ s, t.get? id = some s ∧ ∃ m ∈ s.members, m.userId = u ∧ m.index = i

/-- What every session keeps: its id, its members, and one of them as its owner. -/
structure SessionOk (id : String) (s : Session) : Prop where
  key : s.sessionId = id
  inhabited : s.members ≠ []
  users : (s.members.map (·.userId)).Nodup
  owner : ∃ m ∈ s.members, m.userId = s.ownerUserId ∧ m.npid = s.ownerNpid

/-- Every session is in order, and no user holds one index in two sessions. -/
structure StoreOk (t : Sessions) : Prop where
  session : ∀ id s, t.get? id = some s → SessionOk id s ∧ id ≠ ""
  place : ∀ id id' u i, Holds t id u i → Holds t id' u i → id = id'

/-- The user's move from `t` to `t'` touched the session he entered and at most one other,
which he left: there he held the index that he now holds in the one he entered. -/
def Moved (t t' : Sessions) (u : ℤ) (entered : String) : Prop :=
  ∃ left : Option String,
    (∀ id, id ≠ entered → some id ≠ left → t'.get? id = t.get? id) ∧
    ∀ id, left = some id → ∃ i, Holds t id u i ∧ Holds t' entered u i

theorem storeOk_empty : StoreOk ∅ :=
  ⟨fun _ _ h => (nomatch h), fun _ _ _ _ ⟨_, h, _⟩ => (nomatch h)⟩

/-! ## Changing one session -/

/-- A session may be stored whose places no other session has. -/
theorem StoreOk.set (h : StoreOk t) (hs : SessionOk id s) (hid : id ≠ "")
    (hplace : ∀ m ∈ s.members, ∀ id', Holds t id' m.userId m.index → id' = id) :
    StoreOk (t.set id s) := by
  -- the places of the new table are those of `s`, under `id`, and the other old ones
  have hsplit : ∀ id' u i, Holds (t.set id s) id' u i →
      (id' = id ∧ ∃ m ∈ s.members, m.userId = u ∧ m.index = i) ∨ (id' ≠ id ∧ Holds t id' u i) := by
    rintro id' u i ⟨s', hs', hm⟩
    rcases Table.of_get?_set hs' with ⟨rfl, rfl⟩ | ⟨hne, hold⟩
    · exact Or.inl ⟨rfl, hm⟩
    · exact Or.inr ⟨hne, s', hold, hm⟩
  constructor
  · intro id' s' hs'
    rcases Table.of_get?_set hs' with ⟨rfl, rfl⟩ | ⟨-, hold⟩
    · exact ⟨hs, hid⟩
    · exact h.session id' s' hold
  · -- two sessions with one place: `s` is one of them, or both are old
    intro a b u i ha hb
    rcases hsplit a u i ha with ⟨rfl, m, hm, rfl, rfl⟩ | ⟨hna, ha'⟩
    · rcases hsplit b _ _ hb with ⟨rfl, -⟩ | ⟨hnb, hb'⟩
      · rfl
      · exact absurd (hplace m hm b hb') hnb
    · rcases hsplit b u i hb with ⟨rfl, m, hm, rfl, rfl⟩ | ⟨-, hb'⟩
      · exact absurd (hplace m hm a ha') hna
      · exact h.place a b u i ha' hb'

/-- In particular one that keeps places of the session it replaces. -/
theorem StoreOk.replace (h : StoreOk t) (hget : t.get? id = some s) (hs' : SessionOk id s')
    (hsub : ∀ m ∈ s'.members, ∃ m0 ∈ s.members, m0.userId = m.userId ∧ m0.index = m.index) :
    StoreOk (t.set id s') := by
  refine h.set hs' (h.session id s hget).2 ?_
  intro m hm id' hheld
  obtain ⟨m0, hm0, hu, hi⟩ := hsub m hm
  exact h.place id' id _ _ hheld ⟨s, hget, m0, hm0, hu, hi⟩

theorem StoreOk.del (h : StoreOk t) (id : String) : StoreOk (t.del id) := by
  have hheld : ∀ id' u i, Holds (t.del id) id' u i → Holds t id' u i := by
    rintro id' u i ⟨s', hs', hm⟩
    exact ⟨s', (Table.of_get?_del hs').2, hm⟩
  constructor
  · intro id' s' hs'
    exact h.session id' s' (Table.of_get?_del hs').2
  · intro a b u i ha hb
    exact h.place a b u i (hheld a u i ha) (hheld b u i hb)

/-- The members that remain when one of `u`'s memberships goes, with the next owner if `u`
was the owner. -/
theorem SessionOk.erase (h : SessionOk id s) {p : SessionMember → Bool}
    (hp : ∀ m, p m → m.userId = u) {first : SessionMember} {rest : List SessionMember}
    (he : s.members.eraseP p = first :: rest) :
    (s.ownerUserId ≠ u → SessionOk id { s with members := first :: rest }) ∧
      SessionOk id { s with members := first :: rest, ownerUserId := first.userId,
                            ownerNpid := first.npid } := by
  have hsub : (first :: rest).Sublist s.members := he ▸ List.eraseP_sublist
  have hnd : ((first :: rest).map (·.userId)).Nodup := h.users.sublist (hsub.map _)
  constructor
  · -- an owner other than `u` is still there
    intro hne
    obtain ⟨m, hm, hmu, hmn⟩ := h.owner
    have hpm : ¬ p m = true := fun hpm => hne (hmu.symm.trans (hp m hpm))
    have hstay : m ∈ first :: rest := by
      rw [← he]
      exact (List.mem_eraseP_of_neg hpm).mpr hm
    exact ⟨h.key, by simp, hnd, m, hstay, hmu, hmn⟩
  · exact ⟨h.key, by simp, hnd, first, by simp, rfl, rfl⟩

/-- A user who occurs once does not occur in what is left. -/
theorem userId_ne_of_mem_eraseP {l : List SessionMember} (h : (l.map (·.userId)).Nodup)
    {p : SessionMember → Bool} (hp : ∀ m, p m → m.userId = u) {m0 : SessionMember} (hm0 : m0 ∈ l)
    (hpm : p m0) : ∀ m ∈ l.eraseP p, m.userId ≠ u := by
  obtain ⟨a, l1, l2, -, hpa, rfl, he⟩ := List.exists_of_eraseP hm0 hpm
  intro m hm hu
  rw [he] at hm
  rw [List.map_append, List.map_cons, List.nodup_middle, List.nodup_cons] at h
  refine h.1 ?_
  rw [hp a hpa, ← hu, ← List.map_append]
  exact List.mem_map_of_mem hm

/-! ## Leaving -/

/-- What leaving at an index does: nothing if no session has the place, and else it
changes the session that has it. -/
theorem leaveSessionAtIndex_cases (o : Order String) (h : StoreOk t) (u i : ℤ) :
    ((∀ id, ¬ Holds t id u i) ∧ leaveSessionAtIndex o t u i = t) ∨
    ∃ id s, t.get? id = some s ∧ Holds t id u i ∧
      (leaveSessionAtIndex o t u i = t.del id ∨
        ∃ s', leaveSessionAtIndex o t u i = t.set id s' ∧ SessionOk id s' ∧
          s'.members = s.members.eraseP fun m => decide (m.userId = u ∧ m.index = i)) := by
  simp only [leaveSessionAtIndex]
  cases hf : (t.inOrder o).find? fun e => decide (e.1 ≠ "") &&
      e.2.members.any fun m => decide (m.userId = u ∧ m.index = i) with
  | none =>
    refine Or.inl ⟨?_, rfl⟩
    rintro id ⟨s, hs, m, hm, hmu⟩
    have := List.find?_eq_none.mp hf (id, s) (Table.mem_inOrder.mpr hs)
    simp only [Bool.and_eq_true, decide_eq_true_eq, List.any_eq_true, not_and, not_exists] at this
    exact this (h.session id s hs).2 m hm hmu.1 hmu.2
  | some e =>
    obtain ⟨id, s⟩ := e
    have hget : t.get? id = some s := Table.mem_inOrder.mp (List.mem_of_find?_eq_some hf)
    have hany := List.find?_some hf
    simp only [Bool.and_eq_true, List.any_eq_true, decide_eq_true_eq] at hany
    obtain ⟨-, m, hm, hmu⟩ := hany
    refine Or.inr ⟨id, s, hget, ⟨s, hget, m, hm, hmu⟩, ?_⟩
    simp only
    split
    · -- he was the last member
      exact Or.inl rfl
    · rename_i first rest he
      have hok := (h.session id s hget).1.erase (u := u)
        (fun m hm => (of_decide_eq_true hm).1) he
      split
      · -- an owner's leave ends an `owner-bind` session
        exact Or.inl rfl
      · split
        · exact Or.inr ⟨_, rfl, hok.2, he.symm⟩
        · rename_i hno
          exact Or.inr ⟨_, rfl, hok.1 hno, he.symm⟩

theorem leaveSessionAtIndex_storeOk (o : Order String) (h : StoreOk t) (u i : ℤ) :
    StoreOk (leaveSessionAtIndex o t u i) := by
  rcases leaveSessionAtIndex_cases o h u i with ⟨-, he⟩ | ⟨id, s, hget, -, he | ⟨s', he, hs', hm⟩⟩
  · rw [he]; exact h
  · rw [he]; exact h.del id
  · rw [he]
    refine h.replace hget hs' ?_
    intro m hm'
    rw [hm] at hm'
    exact ⟨m, List.mem_of_mem_eraseP hm', rfl, rfl⟩

/-- Afterwards nobody has the place. -/
theorem leaveSessionAtIndex_free (o : Order String) (h : StoreOk t) (u i : ℤ) (id : String) :
    ¬ Holds (leaveSessionAtIndex o t u i) id u i := by
  rintro ⟨s1, hs1, m, hm, hmu⟩
  rcases leaveSessionAtIndex_cases o h u i with
    ⟨hno, he⟩ | ⟨id0, s, hget, hheld, he | ⟨s', he, hs', hm'⟩⟩
  · rw [he] at hs1
    exact hno id ⟨s1, hs1, m, hm, hmu⟩
  · -- the session that had the place is gone, and no other had it
    rw [he] at hs1
    obtain ⟨hne, hold⟩ := Table.of_get?_del hs1
    exact hne (h.place id id0 u i ⟨s1, hold, m, hm, hmu⟩ hheld)
  · rw [he] at hs1
    rcases Table.of_get?_set hs1 with ⟨-, rfl⟩ | ⟨hne, hold⟩
    · -- the user occurs once in the session, and that entry is gone
      rw [hm'] at hm
      obtain ⟨s2, hs2, m0, hm0, hmu0⟩ := hheld
      rw [hget] at hs2
      obtain rfl := Option.some.inj hs2
      exact userId_ne_of_mem_eraseP (h.session id0 s hget).1.users
        (fun m hm => (of_decide_eq_true hm).1) hm0 (decide_eq_true hmu0) m hm hmu.1
    · exact hne (h.place id id0 u i ⟨s1, hold, m, hm, hmu⟩ hheld)

/-- Only the session that had the place may change. -/
theorem leaveSessionAtIndex_frame (o : Order String) (h : StoreOk t) (u i : ℤ) :
    ∃ left : Option String,
      (∀ id, some id ≠ left → (leaveSessionAtIndex o t u i).get? id = t.get? id) ∧
      ∀ id, left = some id → Holds t id u i := by
  rcases leaveSessionAtIndex_cases o h u i with
    ⟨-, he⟩ | ⟨id0, s, -, hheld, he | ⟨s', he, -⟩⟩
  · exact ⟨none, fun id _ => by rw [he], fun id hid => nomatch hid⟩
  all_goals
    refine ⟨some id0, fun id hid => ?_, fun id hid => ?_⟩
    swap
    · obtain rfl := Option.some.inj hid
      exact hheld
    have hne : id ≠ id0 := fun h => hid (by rw [h])
    rw [he]
  · exact Table.get?_del_ne hne
  · exact Table.get?_set_ne hne

/-- A session without the user stays. -/
theorem leaveSessionAtIndex_get? (o : Order String) (h : StoreOk t) (hs : t.get? id = some s)
    (hno : ∀ m ∈ s.members, m.userId ≠ u) (i : ℤ) :
    (leaveSessionAtIndex o t u i).get? id = some s := by
  obtain ⟨left, hframe, hheld⟩ := leaveSessionAtIndex_frame o h u i
  rw [hframe id, hs]
  intro hl
  obtain ⟨s0, hs0, m, hm, hmu, -⟩ := hheld id hl.symm
  rw [hs] at hs0
  obtain rfl := Option.some.inj hs0
  exact hno m hm hmu

/-- A session that stays is well formed, has old members only, and not the user. -/
theorem removeMemberApplyOwner_ok (h : SessionOk id s) {del : Bool}
    (hr : removeMemberApplyOwner s u = some (s', del)) (hdel : del = false) :
    SessionOk id s' ∧ (∀ m ∈ s'.members, m ∈ s.members) ∧ ∀ m ∈ s'.members, m.userId ≠ u := by
  simp only [removeMemberApplyOwner] at hr
  split at hr
  · rename_i hany
    obtain ⟨m0, hm0, hmu⟩ := List.any_eq_true.mp hany
    split at hr
    · obtain ⟨-, rfl⟩ := Prod.mk.inj (Option.some.inj hr)
      cases hdel
    · rename_i first rest he
      have hok := h.erase (u := u) (fun m hm => of_decide_eq_true hm) he
      have hsub : ∀ m ∈ first :: rest, m ∈ s.members := fun m hm =>
        List.mem_of_mem_eraseP (he ▸ hm)
      have hne : ∀ m ∈ first :: rest, m.userId ≠ u := fun m hm =>
        userId_ne_of_mem_eraseP h.users (fun m hm => of_decide_eq_true hm) hm0 hmu m (he ▸ hm)
      split at hr
      · obtain ⟨-, rfl⟩ := Prod.mk.inj (Option.some.inj hr)
        cases hdel
      · split at hr
        · obtain ⟨rfl, -⟩ := Prod.mk.inj (Option.some.inj hr)
          exact ⟨hok.2, hsub, hne⟩
        · rename_i hno
          obtain ⟨rfl, -⟩ := Prod.mk.inj (Option.some.inj hr)
          exact ⟨hok.1 hno, hsub, hne⟩
  · cases hr

theorem removeMemberApplyOwner_eq_none (hr : removeMemberApplyOwner s u = none) :
    ∀ m ∈ s.members, m.userId ≠ u := by
  simp only [removeMemberApplyOwner] at hr
  split at hr
  · split at hr
    · cases hr
    · split at hr
      · cases hr
      · split at hr <;> cases hr
  · rename_i hany
    intro m hm hu
    exact hany (List.any_eq_true.mpr ⟨m, hm, decide_eq_true hu⟩)

/-- A session that a purge leaves comes from one under the same id, and does not have the user. -/
theorem of_get?_purge (h : StoreOk t) {o : Order String}
    (hs' : (purgeUserFromSessions o u t).1.get? id = some s') :
    ∃ s, t.get? id = some s ∧ SessionOk id s' ∧ (∀ m ∈ s'.members, m ∈ s.members) ∧
      ∀ m ∈ s'.members, m.userId ≠ u := by
  simp only [purgeUserFromSessions] at hs'
  rw [Table.get?_filterMap] at hs'
  obtain ⟨s, hs, hr⟩ := Option.bind_eq_some_iff.mp hs'
  refine ⟨s, hs, ?_⟩
  have hok := (h.session _ s hs).1
  split at hr
  · rename_i hnone
    obtain rfl := Option.some.inj hr
    exact ⟨hok, fun m hm => hm, removeMemberApplyOwner_eq_none hnone⟩
  · rename_i sn' shouldDelete hr'
    cases shouldDelete with
    | true => cases hr
    | false =>
      obtain rfl := Option.some.inj hr
      exact removeMemberApplyOwner_ok hok hr' rfl

/-! ## The handlers -/

/-- A create is refused, or frees the index and stores a session of one member. -/
theorem handleSessionCreate_cases (r : Request) (parts : Option (List MultipartPart))
    (t : Sessions) : (handleSessionCreate r parts t).sessions = t ∨
      ∃ auth i s platform priority, r.auth = .ok auth ∧
        (handleSessionCreate r parts t).sessions =
          (leaveSessionAtIndex r.order t auth.userId i).set ("001-" ++ r.uuid) s ∧
        s.sessionId = "001-" ++ r.uuid ∧ s.ownerUserId = auth.userId ∧ s.ownerNpid = auth.npid ∧
        s.members = [⟨auth.userId, auth.npid, platform, i, priority, r.now⟩] := by
  simp only [handleSessionCreate]
  -- the exits in the order of the source: the caller, the body, its parts, their sizes
  split
  · exact Or.inl rfl
  rename_i auth hauth
  split
  · exact Or.inl rfl
  split
  · exact Or.inl rfl
  split
  · exact Or.inl rfl
  split
  · -- and of the decoded object: its fields, the caller's platform
    split
    · exact Or.inl rfl
    split
    · exact Or.inl rfl
    split
    · exact Or.inl rfl
    exact Or.inr ⟨auth, _, _, _, _, hauth, rfl, rfl, rfl, rfl, rfl⟩
  · exact Or.inl rfl

/-- A join is refused, renews the caller's entry, or frees the index and appends an entry. -/
theorem handleSessionJoin_cases (r : Request) (sessionId : String)
    (indexItem priorityItem : Option String) (t : Sessions) :
    (handleSessionJoin r sessionId indexItem priorityItem t).sessions = t ∨
    ∃ auth s, r.auth = .ok auth ∧ t.get? sessionId = some s ∧
      ((∃ priority, (handleSessionJoin r sessionId indexItem priorityItem t).sessions =
        t.set sessionId { s with members := s.members.replaceF fun m =>
          if m.userId = auth.userId then some { m with priority, joinedAt := r.now } else none }) ∨
      ((∀ m ∈ s.members, m.userId ≠ auth.userId) ∧ s.sessionLockFlag = false ∧
        s.members.length < maxUsers s ∧ ∃ i platform priority, (0 ≤ i ∧ i ≤ 63) ∧
        (handleSessionJoin r sessionId indexItem priorityItem t).sessions =
          let left := leaveSessionAtIndex r.order t auth.userId i
          let s := (left.get? sessionId).getD default
          left.set sessionId { s with members :=
            s.members ++ [⟨auth.userId, auth.npid, platform, i, priority, r.now⟩] })) := by
  simp only [handleSessionJoin]
  -- the exits before the session is known: the caller, the index, the platform
  split
  · exact Or.inl rfl
  rename_i auth hauth
  split
  · exact Or.inl rfl
  rename_i hindex
  split
  · exact Or.inl rfl
  rename_i platform _
  split
  · exact Or.inl rfl
  rename_i s hs
  split
  · -- the caller is a member already
    split
    · exact Or.inl rfl
    · exact Or.inr ⟨auth, s, hauth, hs, Or.inl ⟨_, rfl⟩⟩
  · -- he is not: the session must be open and have room
    rename_i hnone
    split
    · exact Or.inl rfl
    rename_i hlock
    split
    · exact Or.inl rfl
    rename_i hroom
    have hno : ∀ m ∈ s.members, m.userId ≠ auth.userId := fun m hm he =>
      List.find?_eq_none.mp hnone m hm (decide_eq_true he)
    exact Or.inr ⟨auth, s, hauth, hs, Or.inr
      ⟨hno, Bool.eq_false_of_not_eq_true hlock, not_le.mp hroom, _, platform, _,
        (not_or.mp hindex).imp not_lt.mp not_lt.mp, rfl⟩⟩

theorem createdId_ne (uuid : String) : "001-" ++ uuid ≠ "" := by
  intro h
  have := congrArg String.length h
  simp at this

theorem handleSessionCreate_storeOk (h : StoreOk t) (r : Request)
    (parts : Option (List MultipartPart)) : StoreOk (handleSessionCreate r parts t).sessions := by
  rcases handleSessionCreate_cases r parts t with
    he | ⟨auth, i, s, platform, priority, -, he, hkey, hu, hn, hm⟩
  · rw [he]; exact h
  · rw [he]
    refine (leaveSessionAtIndex_storeOk r.order h _ _).set
      ⟨hkey, by simp [hm], by simp [hm], by simp [hm, hu, hn]⟩ (createdId_ne _) ?_
    -- the only member's place was freed just before
    intro m hm' id' hheld
    rw [hm, List.mem_singleton] at hm'
    rw [hm'] at hheld
    exact absurd hheld (leaveSessionAtIndex_free r.order h _ _ id')

theorem handleSessionCreate_moved (h : StoreOk t) (r : Request)
    (parts : Option (List MultipartPart)) :
    (handleSessionCreate r parts t).sessions = t ∨ ∃ auth, r.auth = .ok auth ∧
      Moved t (handleSessionCreate r parts t).sessions auth.userId ("001-" ++ r.uuid) := by
  rcases handleSessionCreate_cases r parts t with
    he | ⟨auth, i, s, platform, priority, hauth, he, -, -, -, hm⟩
  · exact Or.inl he
  · refine Or.inr ⟨auth, hauth, ?_⟩
    obtain ⟨left, hframe, hheld⟩ := leaveSessionAtIndex_frame r.order h auth.userId i
    refine ⟨left, fun id hid hl => ?_, fun id hl => ⟨i, hheld id hl, s, ?_, ?_⟩⟩
    · rw [he, Table.get?_set_ne hid, hframe id hl]
    · rw [he, Table.get?_set_self]
    · rw [hm]; exact ⟨_, List.mem_singleton_self _, rfl, rfl⟩

/-- A member of the entered session who renews his entry keeps its place. -/
theorem renew_places {l : List SessionMember} {f : SessionMember → Option SessionMember}
    (hf : ∀ m m', f m = some m' → m'.userId = m.userId ∧ m'.index = m.index ∧ m'.npid = m.npid) :
    (l.replaceF f).map (fun m => (m.userId, m.index, m.npid)) =
      l.map fun m => (m.userId, m.index, m.npid) := by
  induction l with
  | nil => rfl
  | cons a l ih =>
    rw [List.replaceF_cons]
    cases hfa : f a with
    | none => simp only [List.map_cons, ih]
    | some b =>
      obtain ⟨h1, h2, h3⟩ := hf a b hfa
      simp only [List.map_cons, h1, h2, h3]

/-- A session whose members keep users, indices and npids stays as good as it was. -/
theorem SessionOk.renew (h : SessionOk id s) {l : List SessionMember}
    (hl : l.map (fun m => (m.userId, m.index, m.npid)) =
      s.members.map fun m => (m.userId, m.index, m.npid)) :
    SessionOk id { s with members := l } ∧
      ∀ m ∈ l, ∃ m0 ∈ s.members, m0.userId = m.userId ∧ m0.index = m.index := by
  have hback : ∀ m ∈ l, ∃ m0 ∈ s.members, (m0.userId, m0.index, m0.npid) =
      (m.userId, m.index, m.npid) := fun m hm => by
    have := List.mem_map_of_mem (f := fun m => (m.userId, m.index, m.npid)) hm
    rw [hl] at this
    exact List.mem_map.mp this
  have husers : l.map (·.userId) = s.members.map (·.userId) := by
    have := congrArg (List.map Prod.fst) hl
    rwa [List.map_map, List.map_map] at this
  refine ⟨⟨h.key, ?_, by rw [husers]; exact h.users, ?_⟩, ?_⟩
  · intro he
    apply h.inhabited
    have := congrArg List.length hl
    rw [List.length_map, List.length_map, show l = [] from he] at this
    exact List.length_eq_zero_iff.mp this.symm
  · obtain ⟨m, hm, hmu, hmn⟩ := h.owner
    have := List.mem_map_of_mem (f := fun m => (m.userId, m.index, m.npid)) hm
    rw [← hl] at this
    obtain ⟨m', hm', he⟩ := List.mem_map.mp this
    simp only [Prod.mk.injEq] at he
    exact ⟨m', hm', he.1.trans hmu, he.2.2.trans hmn⟩
  · intro m hm
    obtain ⟨m0, hm0, he⟩ := hback m hm
    simp only [Prod.mk.injEq] at he
    exact ⟨m0, hm0, he.1, he.2.1⟩

theorem handleSessionJoin_storeOk (h : StoreOk t) (r : Request) (sessionId : String)
    (indexItem priorityItem : Option String) :
    StoreOk (handleSessionJoin r sessionId indexItem priorityItem t).sessions := by
  rcases handleSessionJoin_cases r sessionId indexItem priorityItem t with
    he | ⟨auth, s, -, hs, ⟨priority, he⟩ | ⟨hno, -, -, i, platform, priority, -, he⟩⟩
  · rw [he]; exact h
  · have hrenew := (h.session _ s hs).1.renew (renew_places (l := s.members)
      (f := fun m => if m.userId = auth.userId then some { m with priority, joinedAt := r.now }
        else none) ?_)
    · rw [he]
      exact h.replace hs hrenew.1 hrenew.2
    · intro m m' hm
      split at hm
      · exact Option.some.inj hm ▸ ⟨rfl, rfl, rfl⟩
      · cases hm
  · -- the caller is no member, so leaving at the index does not touch the session
    have hkeep := leaveSessionAtIndex_get? r.order h hs hno i
    have hok := (h.session _ s hs).1
    rw [he]
    simp only [hkeep, Option.getD_some]
    refine (leaveSessionAtIndex_storeOk r.order h _ _).set ?_ (h.session _ s hs).2 ?_
    · refine ⟨hok.key, by simp, ?_, ?_⟩
      · rw [List.map_append, List.nodup_append]
        refine ⟨hok.users, by simp, ?_⟩
        intro a ha b hb
        obtain ⟨m, hm, rfl⟩ := List.mem_map.mp ha
        simp only [List.map_cons, List.map_nil, List.mem_singleton] at hb
        exact hb ▸ hno m hm
      · obtain ⟨m, hm, hmu⟩ := hok.owner
        exact ⟨m, List.mem_append_left _ hm, hmu⟩
    · -- an old member's place is his in this session only, and the caller's has been freed
      intro m hm id' hheld
      rcases List.mem_append.mp hm with hm | hm
      · exact (leaveSessionAtIndex_storeOk r.order h _ _).place id' sessionId _ _ hheld
          ⟨s, hkeep, m, hm, rfl, rfl⟩
      · rw [List.mem_singleton] at hm
        rw [hm] at hheld
        exact absurd hheld (leaveSessionAtIndex_free r.order h _ _ id')

theorem handleSessionJoin_moved (h : StoreOk t) (r : Request) (sessionId : String)
    (indexItem priorityItem : Option String) :
    (handleSessionJoin r sessionId indexItem priorityItem t).sessions = t ∨
      ∃ auth, r.auth = .ok auth ∧ Moved t
        (handleSessionJoin r sessionId indexItem priorityItem t).sessions auth.userId sessionId := by
  rcases handleSessionJoin_cases r sessionId indexItem priorityItem t with
    he | ⟨auth, s, hauth, hs, ⟨priority, he⟩ | ⟨hno, -, -, i, platform, priority, -, he⟩⟩
  · exact Or.inl he
  · refine Or.inr ⟨auth, hauth, none, fun id hid _ => ?_, fun id hid => nomatch hid⟩
    rw [he, Table.get?_set_ne hid]
  · refine Or.inr ⟨auth, hauth, ?_⟩
    obtain ⟨left, hframe, hheld⟩ := leaveSessionAtIndex_frame r.order h auth.userId i
    refine ⟨left, fun id hid hl => ?_, fun id hl => ⟨i, hheld id hl, ?_⟩⟩
    · rw [he]
      simp only
      rw [Table.get?_set_ne hid, hframe id hl]
    · rw [he]
      refine ⟨_, Table.get?_set_self, _, List.mem_append_right _ (List.mem_singleton_self _), rfl, rfl⟩

theorem handleSessionLeave_storeOk (h : StoreOk t) (r : Request) (sessionId memberKey : String) :
    StoreOk (handleSessionLeave r sessionId memberKey t).sessions := by
  simp only [handleSessionLeave]
  split
  · exact h
  split
  · exact h
  split
  · exact h
  rename_i sn hsn
  split
  · exact h
  split
  · exact h
  rename_i sn' shouldDelete hr
  cases shouldDelete with
  | true => exact h.del sessionId
  | false =>
    obtain ⟨hok, hsub, -⟩ := removeMemberApplyOwner_ok (h.session _ sn hsn).1 hr rfl
    exact h.replace hsn hok fun m hm => ⟨m, hsub m hm, rfl, rfl⟩

theorem changeIf_frame {α : Type} (g : Session → α) {f : Session → Session}
    (hf : ∀ s, g (f s) = g s) (c : Bool) (s : Session) : g (s.changeIf c f) = g s := by
  unfold Session.changeIf
  split
  · exact hf s
  · rfl

/-- What of a session an update leaves alone. -/
def Session.place (s : Session) : String × List SessionMember × ℤ × String :=
  (s.sessionId, s.members, s.ownerUserId, s.ownerNpid)

theorem updatedSession_place (s : Session) (obj : JsonObject) :
    (updatedSession s obj).place = s.place := by
  unfold updatedSession
  rw [changeIf_frame Session.place, changeIf_frame Session.place, changeIf_frame Session.place,
    changeIf_frame Session.place, changeIf_frame Session.place, changeIf_frame Session.place]
  all_goals intro _; rfl

theorem handleSessionUpdate_storeOk (h : StoreOk t) (r : Request) (sessionId : String)
    (body : List UInt8) : StoreOk (handleSessionUpdate r sessionId body t).sessions := by
  simp only [handleSessionUpdate]
  split
  · exact h
  split
  · rename_i obj _
    split
    · exact h
    rename_i s hs
    split
    · exact h
    have hplace := updatedSession_place s obj
    simp only [Session.place, Prod.mk.injEq] at hplace
    obtain ⟨hkey, hm, hu, hn⟩ := hplace
    have hok := (h.session _ s hs).1
    refine h.replace hs ⟨hkey.trans hok.key, by rw [hm]; exact hok.inhabited,
      by rw [hm]; exact hok.users, by rw [hm, hu, hn]; exact hok.owner⟩ ?_
    intro m hm'
    exact ⟨m, hm ▸ hm', rfl, rfl⟩
  · exact h

theorem handleSessionDelete_storeOk (h : StoreOk t) (r : Request) (sessionId : String) :
    StoreOk (handleSessionDelete r sessionId t).sessions := by
  simp only [handleSessionDelete]
  split
  · exact h
  split
  · exact h
  split
  · exact h
  · exact h.del sessionId

theorem purgeUserFromSessions_storeOk (h : StoreOk t) (o : Order String) (u : ℤ) :
    StoreOk (purgeUserFromSessions o u t).1 := by
  refine ⟨?_, ?_⟩
  · intro id s' hs'
    obtain ⟨s, hs, hok, -⟩ := of_get?_purge h hs'
    exact ⟨hok, (h.session id s hs).2⟩
  · rintro a b u' i ⟨sa, ha, ma, hma, hau⟩ ⟨sb, hb, mb, hmb, hbu⟩
    obtain ⟨s1, h1, -, hsub1, -⟩ := of_get?_purge h ha
    obtain ⟨s2, h2, -, hsub2, -⟩ := of_get?_purge h hb
    exact h.place a b u' i ⟨s1, h1, ma, hsub1 ma hma, hau⟩ ⟨s2, h2, mb, hsub2 mb hmb, hbu⟩

/-! ## Runs -/

/-- **Every operation keeps the table well formed.** -/
theorem apply_storeOk (h : StoreOk t) (op : SessionOp) : StoreOk (op.apply t) := by
  cases op with
  | create r parts => exact handleSessionCreate_storeOk h r parts
  | join r sessionId indexItem priorityItem =>
    exact handleSessionJoin_storeOk h r sessionId indexItem priorityItem
  | leave r sessionId memberKey => exact handleSessionLeave_storeOk h r sessionId memberKey
  | update r sessionId body => exact handleSessionUpdate_storeOk h r sessionId body
  | delete r sessionId => exact handleSessionDelete_storeOk h r sessionId
  | purge o u => exact purgeUserFromSessions_storeOk h o u

/-- The caller and the session that he enters. -/
def SessionOp.entering : SessionOp → Option (Request × String)
  | .create r _ => some (r, "001-" ++ r.uuid)
  | .join r sessionId _ _ => some (r, sessionId)
  | _ => none

/-- **A create or a join touches at most the session entered and the one left.** -/
theorem apply_moved (h : StoreOk t) {op : SessionOp} {r : Request} {entered : String}
    (hop : op.entering = some (r, entered)) :
    op.apply t = t ∨ ∃ auth, r.auth = .ok auth ∧ Moved t (op.apply t) auth.userId entered := by
  cases op with
  | create r' parts =>
    obtain ⟨rfl, rfl⟩ := Prod.mk.inj (Option.some.inj hop)
    exact handleSessionCreate_moved h r' parts
  | join r' sessionId indexItem priorityItem =>
    obtain ⟨rfl, rfl⟩ := Prod.mk.inj (Option.some.inj hop)
    exact handleSessionJoin_moved h r' sessionId indexItem priorityItem
  | leave => cases hop
  | update => cases hop
  | delete => cases hop
  | purge => cases hop

/-- **The session table along a run.** -/
theorem sessions_ok (ops : List SessionOp) (n : ℕ) :
    StoreOk (sessionsAfter ops n) ∧ ∀ (hn : n < ops.length) r entered,
      ops[n].entering = some (r, entered) →
      sessionsAfter ops (n + 1) = sessionsAfter ops n ∨ ∃ auth, r.auth = .ok auth ∧
        Moved (sessionsAfter ops n) (sessionsAfter ops (n + 1)) auth.userId entered := by
  have hok : StoreOk (sessionsAfter ops n) :=
    runAt_inv storeOk_empty (fun _ op h => apply_storeOk h op) ops n
  refine ⟨hok, fun hn r entered hop => ?_⟩
  have hstep : sessionsAfter ops (n + 1) = ops[n].apply (sessionsAfter ops n) := runAt_succ _ hn
  rw [hstep]
  exact apply_moved hok hop

end ShadNet
