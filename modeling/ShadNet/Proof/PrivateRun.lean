import ShadNet.Proof.GoingOffline
import ShadNet.Proof.PrivateSession

/-!
# Private sessions along runs

Two runs differ only in what the private session `sid` contains. `x` is a stranger to it: he did
not create it and nobody has invited him.

* `SameStep`: a request of `x` gets the same response in both, changes them alike and leaves `sid`
  alone.
* `strangers_see_alike`: so he gets the same responses along the runs, as long as he does not
  enter by himself.
-/

namespace ShadNet

open Lib

variable {x : ℤ} {sid id : String} {t t' v v' : Sessions} {o o' : Outcome} {r : Request}
  {caller : AuthResult}

/-! ## Tables changed alike -/

/-- `t` and `t'` have become `v` and `v'`: alike outside `sid`, and not at `sid`. -/
structure Kept (sid : String) (t t' v v' : Sessions) : Prop where
  others : ∀ id, id ≠ sid → v'.get? id = v.get? id
  kept : v.get? sid = t.get? sid
  kept' : v'.get? sid = t'.get? sid

theorem Kept.refl (h : DifferIn sid t t') : Kept sid t t' t t' := ⟨h.others, rfl, rfl⟩

/-- Putting the same session into both stores keeps them apart in `sid` only. -/
theorem Kept.set (h : Kept sid t t' v v') (hid : id ≠ sid) (s : Session) :
    Kept sid t t' (v.set id s) (v'.set id s) where
  others id' hid' := by rw [Table.get?_set, Table.get?_set, h.others id' hid']
  kept := by rw [Table.get?_set_ne hid.symm, h.kept]
  kept' := by rw [Table.get?_set_ne hid.symm, h.kept']

/-- Deleting another session from both stores keeps them apart in `sid` only. -/
theorem Kept.del (h : Kept sid t t' v v') (hid : id ≠ sid) :
    Kept sid t t' (v.del id) (v'.del id) where
  others id' hid' := by rw [Table.get?_del, Table.get?_del, h.others id' hid']
  kept := by rw [Table.get?_del_ne hid.symm, h.kept]
  kept' := by rw [Table.get?_del_ne hid.symm, h.kept']

theorem Kept.ite {c : Prop} [Decidable c] {u u' : Sessions} (h : Kept sid t t' v v')
    (h' : Kept sid t t' u u') : Kept sid t t' (if c then v else u) (if c then v' else u') := by
  split_ifs
  · exact h
  · exact h'

theorem Kept.differIn (h : Kept sid t t' v v') (hd : DifferIn sid t t') : DifferIn sid v v' := by
  refine ⟨h.others, ?_⟩
  rw [h.kept, h.kept']
  exact hd.session

/-- The handlers have answered alike, and changed the tables alike. -/
structure SameStep (sid : String) (t t' : Sessions) (o o' : Outcome) : Prop where
  response : o'.response = o.response
  tables : Kept sid t t' o.sessions o'.sessions

theorem SameStep.refused (h : DifferIn sid t t') (e : Response) :
    SameStep sid t t' (.refused t e) (.refused t' e) := ⟨rfl, .refl h⟩

theorem SameStep.ite {c : Prop} [Decidable c] {u u' : Outcome} (h : SameStep sid t t' o o')
    (h' : SameStep sid t t' u u') : SameStep sid t t' (if c then o else u) (if c then o' else u') := by
  split_ifs
  · exact h
  · exact h'

/-! ## Leaving at an index -/

/-- The session that is left is the one that has the place. -/
theorem leave_find (h : StoreOk t) (ord : Order String) (u i : ℤ) (id : String) (s : Session) :
    (t.inOrder ord).find? (fun e => decide (e.1 ≠ "") &&
      e.2.members.any fun m => decide (m.userId = u ∧ m.index = i)) = some (id, s) ↔
    t.get? id = some s ∧ ∃ m ∈ s.members, m.userId = u ∧ m.index = i := by
  have hplace : ∀ {e : String × Session}, (t.inOrder ord).find? (fun e => decide (e.1 ≠ "") &&
      e.2.members.any fun m => decide (m.userId = u ∧ m.index = i)) = some e →
      t.get? e.1 = some e.2 ∧ ∃ m ∈ e.2.members, m.userId = u ∧ m.index = i := by
    intro e he
    have hany := List.find?_some he
    simp only [Bool.and_eq_true, List.any_eq_true, decide_eq_true_eq] at hany
    exact ⟨Table.mem_inOrder.mp (List.mem_of_find?_eq_some he), hany.2⟩
  constructor
  · exact fun he => hplace he
  · rintro ⟨hs, m, hm, hmu⟩
    cases hf : (t.inOrder ord).find? (fun e => decide (e.1 ≠ "") &&
        e.2.members.any fun m => decide (m.userId = u ∧ m.index = i)) with
    | none =>
      have hno := List.find?_eq_none.mp hf (id, s) (Table.mem_inOrder.mpr hs)
      simp only [Bool.and_eq_true, decide_eq_true_eq, List.any_eq_true, not_and, not_exists] at hno
      exact absurd hmu.2 (fun hi => hno (h.session id s hs).2 m hm hmu.1 hi)
    | some e =>
      -- a place is in one session only
      obtain ⟨hs', m', hm', hmu'⟩ := hplace hf
      have hid : e.1 = id := h.place e.1 id u i ⟨e.2, hs', m', hm', hmu'⟩ ⟨s, hs, m, hm, hmu⟩
      rw [hid, hs] at hs'
      exact congrArg some (Prod.ext hid (Option.some.inj hs').symm)

/-- What `x` is to `sid` in both tables. -/
structure Strangers (x : ℤ) (sid : String) (t t' : Sessions) : Prop extends DifferIn sid t t' where
  ok : StoreOk t
  ok' : StoreOk t'
  out : ¬ Within t sid x
  out' : ¬ Within t' sid x

/-- A user who leaves by index does the same in both stores, if he is a stranger to `sid`. -/
theorem leave_kept (h : Strangers x sid t t') (ord : Order String) (i : ℤ) :
    Kept sid t t' (leaveSessionAtIndex ord t x i) (leaveSessionAtIndex ord t' x i) := by
  have hne : ∀ {id s}, t.get? id = some s → (∃ m ∈ s.members, m.userId = x ∧ m.index = i) →
      id ≠ sid := by
    rintro id s hs ⟨m, hm, hmu, -⟩ rfl
    exact h.out ⟨s, hs, m, hm, hmu⟩
  have hfind : (t'.inOrder ord).find? (fun e => decide (e.1 ≠ "") &&
      e.2.members.any fun m => decide (m.userId = x ∧ m.index = i)) =
      (t.inOrder ord).find? (fun e => decide (e.1 ≠ "") &&
      e.2.members.any fun m => decide (m.userId = x ∧ m.index = i)) := by
    refine Option.ext fun ⟨id, s⟩ => ?_
    rw [leave_find h.ok', leave_find h.ok]
    by_cases hid : id = sid
    · -- neither of them has him
      subst hid
      constructor
      · rintro ⟨hs, m, hm, hmu⟩
        exact absurd ⟨s, hs, m, hm, hmu.1⟩ h.out'
      · rintro ⟨hs, m, hm, hmu⟩
        exact absurd ⟨s, hs, m, hm, hmu.1⟩ h.out
    · rw [h.others id hid]
  simp only [leaveSessionAtIndex, hfind]
  cases hf : (t.inOrder ord).find? (fun e => decide (e.1 ≠ "") &&
      e.2.members.any fun m => decide (m.userId = x ∧ m.index = i)) with
  | none => exact .refl h.toDifferIn
  | some e =>
    obtain ⟨id, s⟩ := e
    obtain ⟨hs, hm⟩ := (leave_find h.ok ord x i id s).mp hf
    have hid := hne hs hm
    have hrefl := Kept.refl h.toDifferIn
    simp only
    cases s.members.eraseP (fun m => decide (m.userId = x ∧ m.index = i)) with
    | nil => exact hrefl.del hid
    | cons first rest => exact .ite (hrefl.del hid) (.ite (hrefl.set hid _) (hrefl.set hid _))

/-! ## Requests of a stranger -/

/-- A stranger is no member of the session in the first store. -/
theorem Strangers.left (h : Strangers x sid t t') {s : Session} (hs : t.get? sid = some s) :
    ∀ m ∈ s.members, m.userId ≠ x := fun m hm hmu => h.out ⟨s, hs, m, hm, hmu⟩

/-- A stranger is no member of the session in the second store. -/
theorem Strangers.right (h : Strangers x sid t t') {s : Session} (hs : t'.get? sid = some s) :
    ∀ m ∈ s.members, m.userId ≠ x := fun m hm hmu => h.out' ⟨s, hs, m, hm, hmu⟩

/-- Who is no member does not own the session. -/
theorem SessionOk.owner_ne {s : Session} (h : SessionOk sid s) (hno : ∀ m ∈ s.members, m.userId ≠ x) :
    s.ownerUserId ≠ x := by
  obtain ⟨m, hm, hmu, -⟩ := h.owner
  rw [← hmu]
  exact hno m hm

theorem any_eq_false {l : List SessionMember} (hno : ∀ m ∈ l, m.userId ≠ x) :
    l.any (fun m => decide (m.userId = x)) = false := by
  rw [List.any_eq_false]
  exact fun m hm hmu => hno m hm (of_decide_eq_true hmu)

/-- What a stranger is told who wants to change the session. -/
theorem stranger_error {s : Session} (h : SessionOk sid s) (hno : ∀ m ∈ s.members, m.userId ≠ x) :
    sessionPermissionError s x =
      if s.sessionType = "owner-bind" then sessionOnlyCreator else sessionOnlyMember := by
  unfold sessionPermissionError
  rw [if_neg (h.owner_ne hno), any_eq_false hno]
  rfl

/-- The error that a stranger is given is one. -/
theorem stranger_error_ne_zero (s : Session) :
    (if s.sessionType = "owner-bind" then sessionOnlyCreator else sessionOnlyMember) ≠ 0 := by
  split <;> decide

/-- A stranger is refused in the same words in both stores. -/
theorem Strangers.refusal (h : Strangers x sid t t') {s s' : Session} (hs : t.get? sid = some s)
    (hs' : t'.get? sid = some s') (hframe : s'.frame = s.frame) :
    sessionPermissionError s' x = sessionPermissionError s x ∧ sessionPermissionError s x ≠ 0 := by
  simp only [Session.frame, Frame.mk.injEq] at hframe
  simp only [stranger_error (h.ok.session _ s hs).1 (h.left hs),
    stranger_error (h.ok'.session _ s' hs').1 (h.right hs'), hframe]
  exact ⟨trivial, stranger_error_ne_zero s⟩

section

variable (h : Strangers x sid t t') (hauth : r.auth = .ok caller) (hx : caller.userId = x)
include h hauth hx

/-- A creation goes the same way in both stores. -/
theorem create_same (parts : Option (List MultipartPart)) (hid : "001-" ++ r.uuid ≠ sid) :
    SameStep sid t t' (handleSessionCreate r parts t) (handleSessionCreate r parts t') := by
  rcases handleSessionCreate_creates hauth parts with
    ⟨e, -, hall⟩ | ⟨i, s, response, events, -, -, hall⟩
  · rw [hall, hall]
    exact .refused h.toDifferIn e
  · rw [hall, hall, hx]
    exact ⟨rfl, (leave_kept h r.order i).set hid s⟩

/-- An update by a stranger goes the same way in both stores. -/
theorem update_same (id : String) (body : List UInt8) :
    SameStep sid t t' (handleSessionUpdate r id body t) (handleSessionUpdate r id body t') := by
  have hrefused := fun e => SameStep.refused h.toDifferIn e
  simp only [handleSessionUpdate, hauth, hx]
  cases r.fromJson body with
  | none => exact hrefused _
  | some json =>
  cases json with
  | obj obj =>
    simp only
    by_cases hid : id = sid
    · subst hid
      rcases h.session with ⟨hs, hs'⟩ | ⟨s, s', hs, hs', -, hframe⟩
      · rw [hs, hs']
        exact hrefused _
      · -- he is neither the creator nor a member
        obtain ⟨hsame, hne⟩ := h.refusal hs hs' hframe
        rw [hs, hs']
        simp only [hsame, if_pos hne]
        exact hrefused _
    · rw [h.others id hid]
      cases t.get? id with
      | none => exact hrefused _
      | some s => exact .ite (hrefused _) ⟨rfl, (Kept.refl h.toDifferIn).set hid _⟩
  | null | bool | num | str | arr => exact hrefused _

/-- A deletion by a stranger goes the same way in both stores. -/
theorem delete_same (id : String) :
    SameStep sid t t' (handleSessionDelete r id t) (handleSessionDelete r id t') := by
  have hrefused := fun e => SameStep.refused h.toDifferIn e
  simp only [handleSessionDelete, hauth, hx]
  by_cases hid : id = sid
  · subst hid
    rcases h.session with ⟨hs, hs'⟩ | ⟨s, s', hs, hs', -, hframe⟩
    · rw [hs, hs']
      exact hrefused _
    · obtain ⟨hsame, hne⟩ := h.refusal hs hs' hframe
      rw [hs, hs']
      simp only [hsame, if_pos hne]
      exact hrefused _
  · rw [h.others id hid]
    cases t.get? id with
    | none => exact hrefused _
    | some s => exact .ite (hrefused _) ⟨rfl, (Kept.refl h.toDifferIn).del hid⟩

/-- A leave by a stranger goes the same way in both stores. -/
theorem leave_same (id memberKey : String) :
    SameStep sid t t' (handleSessionLeave r id memberKey t) (handleSessionLeave r id memberKey t') := by
  have hrefused := fun e => SameStep.refused h.toDifferIn e
  simp only [handleSessionLeave, hauth, hx]
  cases resolveTarget r caller memberKey with
  | none => exact hrefused _
  | some targetId =>
  simp only
  by_cases hid : id = sid
  · subst hid
    rcases h.session with ⟨hs, hs'⟩ | ⟨s, s', hs, hs', -⟩
    · rw [hs, hs']
      exact hrefused _
    · rw [hs, hs']
      simp only [ne_eq, (h.ok.session _ s hs).1.owner_ne (h.left hs),
        (h.ok'.session _ s' hs').1.owner_ne (h.right hs'), not_false_eq_true, and_true]
      by_cases htarget : targetId = x
      · -- he is no member that could leave
        simp only [removeMemberApplyOwner, htarget, any_eq_false (h.left hs),
          any_eq_false (h.right hs')]
        exact hrefused _
      · rw [if_pos htarget, if_pos htarget]
        exact hrefused _
  · rw [h.others id hid]
    cases t.get? id with
    | none => exact hrefused _
    | some s =>
    refine .ite (hrefused _) ?_
    cases removeMemberApplyOwner s targetId with
    | none => exact hrefused _
    | some p =>
      have hrefl := Kept.refl h.toDifferIn
      exact ⟨rfl, .ite (hrefl.del hid) (hrefl.set hid _)⟩

/-- A join by a stranger goes the same way in both stores, if `sid` is locked where he would get in.
-/
theorem join_same (id : String) (indexItem priorityItem : Option String)
    (hclosed : id = sid → passesJoin caller r indexItem = true →
      (∀ s, t.get? sid = some s → s.sessionLockFlag = true) ∧
      ∀ s, t'.get? sid = some s → s.sessionLockFlag = true) :
    SameStep sid t t' (handleSessionJoin r id indexItem priorityItem t)
      (handleSessionJoin r id indexItem priorityItem t') := by
  have hrefused := fun e => SameStep.refused h.toDifferIn e
  simp only [handleSessionJoin, hauth, hx]
  by_cases hindex : (indexItem.bind toInt?).getD 0 < 0 ∨ 63 < (indexItem.bind toInt?).getD 0
  · rw [if_pos hindex, if_pos hindex]
    exact hrefused _
  rw [if_neg hindex, if_neg hindex]
  cases hplatform : r.clients x with
  | none => exact hrefused _
  | some platform =>
  simp only
  by_cases hid : id = sid
  · subst hid
    have hpass : passesJoin caller r indexItem = true := by
      unfold passesJoin
      rw [hx, hplatform]
      simp only [Option.isSome_some, Bool.and_true, decide_eq_true_eq]
      omega
    obtain ⟨hlock, hlock'⟩ := hclosed rfl hpass
    rcases h.session with ⟨hs, hs'⟩ | ⟨s, s', hs, hs', -⟩
    · rw [hs, hs']
      exact hrefused _
    · have hfind : ∀ {l : List SessionMember}, (∀ m ∈ l, m.userId ≠ x) →
          l.find? (fun m => decide (m.userId = x)) = none := fun hno =>
        List.find?_eq_none.mpr fun m hm hmu => hno m hm (of_decide_eq_true hmu)
      rw [hs, hs']
      simp only [hfind (h.left hs), hfind (h.right hs'), hlock s hs, hlock' s' hs']
      exact hrefused _
  · rw [h.others id hid]
    cases t.get? id with
    | none => exact hrefused _
    | some s =>
    simp only
    have hrefl := Kept.refl h.toDifferIn
    cases s.members.find? (fun m => decide (m.userId = x)) with
    | some m => exact .ite (hrefused _) ⟨rfl, hrefl.set hid _⟩
    | none =>
      refine .ite (hrefused _) (.ite (hrefused _) ?_)
      have hleft := leave_kept h r.order ((indexItem.bind toInt?).getD 0)
      refine ⟨rfl, ?_⟩
      simp only [hleft.others id hid]
      exact hleft.set hid _

end

/-! ## Invitations -/

variable {w w' : Web} {e : WebEvent}

/-- The users whom an invitation goes to. -/
def inviteTargets (r : WebRequest) (parts : Option (List MultipartPart)) : List ℤ :=
  match (parts.bind fun ps => partData ps "invitation-request").bind r.fromJson with
  | some (.obj obj) => (inviteRecipients r obj).map (·.1)
  | _ => []

/-- `x` has been sent no invitation to `sid`. -/
def Uninvited (x : ℤ) (sid : String) (w : Web) : Prop :=
  ∀ id inv, w.invitations.get? id = some inv → inv.toUserId = x → inv.sessionId ≠ sid

theorem mem_invitationsFor {r : WebRequest} {s : Session} {message : String}
    {dataPart : Option (List UInt8)} {recipients : List (ℤ × String)} {inv : Invitation}
    (h : inv ∈ invitationsFor r caller id s message dataPart recipients) :
    inv.sessionId = id ∧ inv.toUserId ∈ recipients.map (·.1) := by
  unfold invitationsFor at h
  obtain ⟨⟨recipient, i⟩, hmem, rfl⟩ := List.mem_map.mp h
  exact ⟨rfl, List.mem_map_of_mem (List.fst_mem_of_mem_zipIdx hmem)⟩

/-- An invitation that is there after an invite was there, or is to the session and to a target. -/
theorem of_get?_invite {r : WebRequest} {parts : Option (List MultipartPart)} {k : String}
    {inv : Invitation} (h : (handleSessionInvite r id parts w).web.invitations.get? k = some inv) :
    w.invitations.get? k = some inv ∨ (inv.sessionId = id ∧ inv.toUserId ∈ inviteTargets r parts) := by
  simp only [handleSessionInvite] at h
  split at h
  · exact Or.inl h
  split at h
  · exact Or.inl h
  rename_i parts
  split at h
  · exact Or.inl h
  rename_i jsonPart hjson
  split at h
  · exact Or.inl h
  split at h
  · rename_i obj hobj
    split at h
    · exact Or.inl h
    split at h
    · exact Or.inl h
    rcases Table.of_get?_foldl_set h with hmem | hold
    · obtain ⟨hsession, hto⟩ := mem_invitationsFor hmem
      refine Or.inr ⟨hsession, ?_⟩
      unfold inviteTargets
      rw [Option.bind_some, hjson, Option.bind_some, hobj]
      exact hto
    · exact Or.inl hold
  · exact Or.inl h

/-- A use changes neither whom an invitation is for nor what it is to. -/
theorem of_get?_use {r : WebRequest} {body : List UInt8} {k : String} {inv : Invitation}
    (h : (handleInvitationUse r id body w).1.invitations.get? k = some inv) :
    ∃ inv0, w.invitations.get? k = some inv0 ∧ inv.toUserId = inv0.toUserId ∧
      inv.sessionId = inv0.sessionId := by
  have hsame : w.invitations.get? k = some inv → ∃ inv0, w.invitations.get? k = some inv0 ∧
      inv.toUserId = inv0.toUserId ∧ inv.sessionId = inv0.sessionId := fun h => ⟨inv, h, rfl, rfl⟩
  simp only [handleInvitationUse] at h
  split at h
  · exact hsame h
  split at h
  · split at h
    · exact hsame h
    split at h
    · exact hsame h
    rename_i inv0 hinv0
    split at h
    · exact hsame h
    split at h
    · exact hsame h
    rcases Table.of_get?_set h with ⟨rfl, rfl⟩ | ⟨-, hold⟩
    · exact ⟨inv0, hinv0, rfl, rfl⟩
    · exact hsame hold
  · exact hsame h

/-- `e` invites `x` to `sid`. -/
def WebEvent.Invites (x : ℤ) (sid : String) (e : WebEvent) : Prop :=
  ∃ r parts, e = .request r (.invite sid parts) ∧ x ∈ inviteTargets r parts

/-- An event that does not invite the user leaves him uninvited. -/
theorem step_uninvited (h : Uninvited x sid w) (he : ¬ e.Invites x sid) :
    Uninvited x sid (w.step e) := by
  cases e with
  | purge o u => exact h
  | request r call =>
    cases call with
    | invite id parts =>
      intro k inv hget hto hsession
      rcases of_get?_invite hget with hold | ⟨hid, htarget⟩
      · exact h k inv hold hto hsession
      · rw [hid] at hsession
        rw [hto] at htarget
        exact he ⟨r, parts, by rw [hsession], htarget⟩
    | use id body =>
      intro k inv hget hto hsession
      obtain ⟨inv0, hold, hto0, hsession0⟩ := of_get?_use hget
      exact h k inv0 hold (hto0 ▸ hto) (hsession0 ▸ hsession)
    | get | create | update | delete | join | leave => exact h

theorem invitationsFor_frame {r : WebRequest} {s s' : Session} (hframe : s'.frame = s.frame)
    (message : String) (dataPart : Option (List UInt8)) (recipients : List (ℤ × String)) :
    invitationsFor r caller id s' message dataPart recipients =
      invitationsFor r caller id s message dataPart recipients := by
  simp only [Session.frame, Frame.mk.injEq] at hframe
  unfold invitationsFor
  simp only [hframe]

/-- An invite sees of `sid` only that it is there, and its platforms. -/
theorem invite_same (hd : DifferIn sid w.sessions w'.sessions)
    (hinv : w'.invitations = w.invitations) (r : WebRequest) (id : String)
    (parts : Option (List MultipartPart)) :
    (handleSessionInvite r id parts w').response = (handleSessionInvite r id parts w).response ∧
      (handleSessionInvite r id parts w').web.invitations =
        (handleSessionInvite r id parts w).web.invitations := by
  simp only [handleSessionInvite]
  cases r.auth with
  | error e => exact ⟨rfl, hinv⟩
  | ok caller =>
  cases parts with
  | none => exact ⟨rfl, hinv⟩
  | some parts =>
  simp only
  cases partData parts "invitation-request" with
  | none => exact ⟨rfl, hinv⟩
  | some jsonPart =>
  simp only
  by_cases hsize : kInvitationDataMax < ((partData parts "invitation-data").getD []).length
  · rw [if_pos hsize, if_pos hsize]
    exact ⟨rfl, hinv⟩
  rw [if_neg hsize, if_neg hsize]
  cases r.fromJson jsonPart with
  | none => exact ⟨rfl, hinv⟩
  | some json =>
  cases json with
  | obj obj =>
    simp only
    by_cases hempty : (inviteRecipients r obj).isEmpty = true
    · rw [if_pos hempty, if_pos hempty]
      exact ⟨rfl, hinv⟩
    rw [if_neg hempty, if_neg hempty]
    by_cases hid : id = sid
    · subst hid
      rcases hd.session with ⟨hs, hs'⟩ | ⟨s, s', hs, hs', -, hframe⟩
      · rw [hs, hs']
        exact ⟨rfl, hinv⟩
      · rw [hs, hs']
        simp only [invitationsFor_frame hframe, hinv, and_self]
    · rw [hd.others id hid]
      cases w.sessions.get? id with
      | none => exact ⟨rfl, hinv⟩
      | some s => simp only [hinv, and_self]
  | null | bool | num | str | arr => exact ⟨rfl, hinv⟩

/-- Using an invitation goes the same way with the same invitations. -/
theorem use_same (hinv : w'.invitations = w.invitations) (r : WebRequest) (id : String)
    (body : List UInt8) :
    (handleInvitationUse r id body w').2 = (handleInvitationUse r id body w).2 ∧
      (handleInvitationUse r id body w').1.invitations =
        (handleInvitationUse r id body w).1.invitations := by
  simp only [handleInvitationUse, hinv]
  cases r.auth with
  | error e => exact ⟨rfl, hinv⟩
  | ok caller =>
  cases r.fromJson body with
  | none => exact ⟨rfl, hinv⟩
  | some json =>
  cases json with
  | obj obj =>
    simp only
    split_ifs
    · exact ⟨rfl, hinv⟩
    cases w.invitations.get? id with
    | none => exact ⟨rfl, hinv⟩
    | some inv =>
      simp only
      split_ifs
      · exact ⟨rfl, hinv⟩
      · exact ⟨rfl, hinv⟩
      · exact ⟨rfl, rfl⟩
  | null | bool | num | str | arr => exact ⟨rfl, hinv⟩

/-! ## Steps -/

/-- A request of `x`. -/
def WebEvent.By (x : ℤ) (e : WebEvent) : Prop :=
  ∃ r call caller, e = .request r call ∧ r.auth = .ok caller ∧ caller.userId = x

/-- The response to a request. -/
def WebEvent.response (w : Web) : WebEvent → Option WebResponse
  | .request r call => some (call.serve r w).2
  | .purge _ _ => none

/-- Nobody but `u` makes `u` a member. -/
theorem step_within {u : ℤ} (h : StoreOk w.sessions) (hm : Within (w.step e).sessions id u) :
    Within w.sessions id u ∨ e.By u := by
  cases e with
  | purge o v =>
    have hpurged : Within ((SessionOp.purge o v).apply w.sessions) id u := hm
    exact (apply_within h hpurged).imp_right nofun
  | request r call =>
    have hby : (∃ auth, r.auth = .ok auth ∧ auth.userId = u) →
        (WebEvent.request r call).By u := fun ⟨auth, hauth, hu⟩ => ⟨r, call, auth, rfl, hauth, hu⟩
    cases call with
    | create parts => exact (handleSessionCreate_within h hm).imp_right hby
    | join id index priority => exact (handleSessionJoin_within h hm).imp_right hby
    | leave id member => exact Or.inl (handleSessionLeave_within h hm)
    | update id body => exact Or.inl (handleSessionUpdate_within hm)
    | delete id => exact Or.inl (handleSessionDelete_within hm)
    | invite id' parts =>
      have hsame := invite_sessions r id' parts w
      exact Or.inl (hsame ▸ hm)
    | use id' body =>
      have hsame := use_sessions r id' body w
      exact Or.inl (hsame ▸ hm)
    | get => exact Or.inl hm

/-- The stores of two runs, and what `x` is to `sid` in them. -/
structure Twins (x : ℤ) (sid : String) (w w' : Web) : Prop
    extends Strangers x sid w.sessions w'.sessions where
  invitations : w'.invitations = w.invitations
  uninvited : Uninvited x sid w

theorem hasMember_eq_false {s : Session} (hno : ∀ m ∈ s.members, m.userId ≠ x) :
    s.hasMember x = false := any_eq_false hno

theorem Twins.alike (h : Twins x sid w w') : Alike x sid w w' where
  toDifferIn := h.toDifferIn
  invitations := h.invitations
  closed s hs := by
    rcases h.session with ⟨hnone, -⟩ | ⟨s0, s', hs0, -, hprivate, -⟩
    · rw [hnone] at hs
      cases hs
    · obtain rfl := Option.some.inj (hs.symm.trans hs0)
      exact ⟨(h.ok.session _ s hs).1.key, hprivate, hasMember_eq_false (h.left hs)⟩
  closed' s hs := by
    rcases h.session with ⟨-, hnone⟩ | ⟨s0, s', -, hs', hprivate, hframe⟩
    · rw [hnone] at hs
      cases hs
    · obtain rfl := Option.some.inj (hs.symm.trans hs')
      simp only [Session.frame, Frame.mk.injEq] at hframe
      exact ⟨(h.ok'.session _ s hs).1.key, hframe.2.2.1.trans hprivate,
        hasMember_eq_false (h.right hs)⟩

/-- Who is uninvited has no active invitation. -/
theorem Uninvited.inactive (h : Uninvited x sid w) (now : ℤ) :
    hasActiveInvitation w now sid x = false := by
  unfold hasActiveInvitation
  rw [List.any_eq_false]
  intro e he hactive
  simp only [Bool.and_eq_true, decide_eq_true_eq] at hactive
  exact h e.1 e.2 (Table.get?_eq_some_iff.mpr he) hactive.1.1 hactive.1.2

theorem Uninvited.not_reveals (h : Uninvited x sid w) {r : WebRequest} {g : WebGet} :
    ¬ Reveals r w sid x g := fun ⟨id, inv, _, hget, hto, hsession, _⟩ => h id inv hget hto hsession

/-- `x` enters `sid` by himself: he joins it while it takes new members, or invites himself. -/
def OwnAccess (x : ℤ) (sid : String) (w : Web) : WebEvent → Prop
  | .request r (.join id indexItem _) => id = sid ∧
      (∃ caller, r.auth = .ok caller ∧ passesJoin caller r.toRequest indexItem = true) ∧
      ∃ s, w.sessions.get? sid = some s ∧ s.sessionLockFlag = false
  | e => e.Invites x sid

/-- `e` creates `sid`. -/
def WebEvent.Creates (sid : String) (e : WebEvent) : Prop :=
  ∃ r parts, e = .request r (.create parts) ∧ "001-" ++ r.uuid = sid

/-- **A step of the stranger.** Both stores answer him alike, and he is still a stranger. -/
theorem own_step (h : Twins x sid w w') (hby : e.By x) (hcreate : ¬ e.Creates sid)
    (haccess : ¬ OwnAccess x sid w e) (haccess' : ¬ OwnAccess x sid w' e) :
    e.response w' = e.response w ∧ Twins x sid (w.step e) (w'.step e) := by
  obtain ⟨r, call, caller, rfl, hauth, hx⟩ := hby
  -- what changes the session table only
  have hstep : ∀ {f : Sessions → Outcome} {v v' : Web × WebResponse},
      SameStep sid w.sessions w'.sessions (f w.sessions) (f w'.sessions) →
      v = w.withOutcome (f w.sessions) → v' = w'.withOutcome (f w'.sessions) →
      StoreOk v.1.sessions → StoreOk v'.1.sessions →
      some v'.2 = some v.2 ∧ Twins x sid v.1 v'.1 := by
    rintro f v v' hsame rfl rfl hok hok'
    refine ⟨congrArg (some ∘ WebResponse.json) hsame.response, ?_⟩
    refine ⟨⟨hsame.tables.differIn h.toDifferIn, hok, hok', ?_, ?_⟩, h.invitations, h.uninvited⟩
    · rintro ⟨s, hs, hm⟩
      exact h.out ⟨s, hsame.tables.kept ▸ hs, hm⟩
    · rintro ⟨s, hs, hm⟩
      exact h.out' ⟨s, hsame.tables.kept' ▸ hs, hm⟩
  have hok := serve_storeOk h.ok r call
  have hok' := serve_storeOk h.ok' r call
  cases call with
  | get g =>
    refine ⟨congrArg some ?_, h⟩
    exact respond_alike h.alike (h.uninvited.inactive r.now) hauth hx (StoreOk.keyed h.ok)
      h.uninvited.not_reveals
  | create parts =>
    have hid : "001-" ++ r.uuid ≠ sid := fun hid => hcreate ⟨r, parts, rfl, hid⟩
    exact hstep (create_same h.toStrangers hauth hx parts hid) rfl rfl hok hok'
  | update id body =>
    exact hstep (update_same h.toStrangers hauth hx id body) rfl rfl hok hok'
  | delete id => exact hstep (delete_same h.toStrangers hauth hx id) rfl rfl hok hok'
  | join id indexItem priorityItem =>
    refine hstep (join_same h.toStrangers hauth hx id indexItem priorityItem ?_) rfl rfl hok hok'
    intro hid hpass
    refine ⟨fun s hs => ?_, fun s hs => ?_⟩
    · by_contra hlock
      exact haccess ⟨hid, ⟨caller, hauth, hpass⟩, s, hs, Bool.eq_false_of_not_eq_true hlock⟩
    · by_contra hlock
      exact haccess' ⟨hid, ⟨caller, hauth, hpass⟩, s, hs, Bool.eq_false_of_not_eq_true hlock⟩
  | leave id member =>
    exact hstep (leave_same h.toStrangers hauth hx id member) rfl rfl hok hok'
  | invite id parts =>
    obtain ⟨hresponse, hinvitations⟩ := invite_same h.toDifferIn h.invitations r id parts
    have hsessions := invite_sessions r id parts w
    have hsessions' := invite_sessions r id parts w'
    refine ⟨congrArg (some ∘ WebResponse.json) hresponse, ?_, hinvitations, ?_⟩
    · have := h.toStrangers
      rw [← hsessions, ← hsessions'] at this
      exact this
    · exact step_uninvited h.uninvited haccess
  | use id body =>
    obtain ⟨hresponse, hinvitations⟩ := use_same h.invitations r id body
    have hsessions := use_sessions r id body w
    have hsessions' := use_sessions r id body w'
    refine ⟨congrArg (some ∘ WebResponse.json) hresponse, ?_, hinvitations, ?_⟩
    · have := h.toStrangers
      rw [← hsessions, ← hsessions'] at this
      exact this
    · exact step_uninvited h.uninvited haccess

/-- A step of others that leaves the stores different in `sid` only. -/
theorem others_step {e' : WebEvent} (h : Twins x sid w w') (hby : ¬ e.By x) (hby' : ¬ e'.By x)
    (hinvite : ¬ e.Invites x sid) (hdiffer : DifferIn sid (w.step e).sessions (w'.step e').sessions)
    (hinvitations : (w'.step e').invitations = (w.step e).invitations) :
    Twins x sid (w.step e) (w'.step e') := by
  refine ⟨⟨hdiffer, step_storeOk h.ok e, step_storeOk h.ok' e', fun hm => ?_, fun hm => ?_⟩,
    hinvitations, step_uninvited h.uninvited hinvite⟩
  · rcases step_within h.ok hm with hold | hown
    · exact h.out hold
    · exact hby hown
  · rcases step_within h.ok' hm with hold | hown
    · exact h.out' hold
    · exact hby' hown

/-! ## Runs -/

/-- Two runs that differ only in what the private session `sid` contains, which `x` does not create
and to which nobody else invites him: his requests are the same in both, and whatever others do, in
one or the other, makes a difference in `sid` only. -/
structure TwoRuns (x : ℤ) (sid : String) (es es' : List WebEvent) : Prop where
  length : es'.length = es.length
  same : ∀ n (hn : n < es.length) (hn' : n < es'.length), es[n].By x ∨ es'[n].By x → es'[n] = es[n]
  creator : ∀ e ∈ es, e.By x → ¬ e.Creates sid
  uninvited : ∀ e ∈ es, ¬ e.By x → ¬ e.Invites x sid
  differ : ∀ n (hn : n < es.length), ¬ es[n].By x →
    DifferIn sid (webAfter es (n + 1)).sessions (webAfter es' (n + 1)).sessions ∧
      (webAfter es' (n + 1)).invitations = (webAfter es (n + 1)).invitations

/-- **Strangers.** As long as `x` does not enter by himself, he gets the same responses in both
runs. -/
theorem strangers_see_alike (x : ℤ) (sid : String) (es es' : List WebEvent)
    (h : TwoRuns x sid es es') (haccess : ∀ n (hn : n < es.length), es[n].By x →
      ¬ OwnAccess x sid (webAfter es n) es[n] ∧ ¬ OwnAccess x sid (webAfter es' n) es[n]) :
    ∀ n (hn : n < es.length) (hn' : n < es'.length), es[n].By x →
      es'[n].response (webAfter es' n) = es[n].response (webAfter es n) := by
  have htwins : ∀ n, n ≤ es.length → Twins x sid (webAfter es n) (webAfter es' n) := by
    intro n
    induction n with
    | zero =>
      intro _
      refine ⟨⟨⟨fun _ _ => rfl, Or.inl ⟨rfl, rfl⟩⟩, storeOk_empty, storeOk_empty, ?_, ?_⟩, rfl, ?_⟩
      · exact fun ⟨_, hs, _⟩ => nomatch hs
      · exact fun ⟨_, hs, _⟩ => nomatch hs
      · exact fun _ _ hget => nomatch hget
    | succ n ih =>
      intro hn
      have hn' : n < es'.length := by rw [h.length]; omega
      have hstep : webAfter es (n + 1) = (webAfter es n).step es[n] := runAt_succ _ (by omega)
      have hstep' : webAfter es' (n + 1) = (webAfter es' n).step es'[n] := runAt_succ _ hn'
      have hprev := ih (by omega)
      by_cases hby : es[n].By x ∨ es'[n].By x
      · have heq := h.same n (by omega) hn' hby
        have hown : es[n].By x := by
          rcases hby with hby | hby
          · exact hby
          · exact heq ▸ hby
        obtain ⟨haccess, haccess'⟩ := haccess n (by omega) hown
        rw [hstep, hstep', heq]
        exact (own_step hprev hown (h.creator _ (List.getElem_mem _) hown) haccess haccess').2
      · rw [not_or] at hby
        obtain ⟨hdiffer, hinvitations⟩ := h.differ n (by omega) hby.1
        rw [hstep, hstep'] at hdiffer hinvitations ⊢
        exact others_step hprev hby.1 hby.2 (h.uninvited _ (List.getElem_mem _) hby.1) hdiffer
          hinvitations
  intro n hn hn' hby
  obtain ⟨haccess, haccess'⟩ := haccess n hn hby
  rw [h.same n hn hn' (Or.inl hby)]
  exact (own_step (htwins n hn.le) hby (h.creator _ (List.getElem_mem _) hby) haccess haccess').1

/-- Alice creates a private session of that name. -/
def createNamed (name : String) : WebEvent :=
  .request (plainWebRequest ⟨1, "alice"⟩ [("availablePlatforms", .arr [.str "PS4"]),
    ("sessionMaxUser", .num 4), ("sessionName", .str name), ("sessionPrivacy", .str "private"),
    ("sessionType", .str "owner-bind")] none)
    (.create (some [⟨[], toUtf8 "session-request", []⟩]))

/-- A call of Bob's, without a query. -/
def bobsCall (call : WebCall) : WebEvent := .request (plainWebRequest ⟨2, "bob"⟩ [] none) call

theorem createNamed_differ : DifferIn "001-1" (Web.step ⟨∅, ∅⟩ (createNamed "a")).sessions
    (Web.step ⟨∅, ∅⟩ (createNamed "b")).sessions := by
  have hkeys : (Web.step ⟨∅, ∅⟩ (createNamed "a")).sessions.keys = ["001-1"] ∧
      (Web.step ⟨∅, ∅⟩ (createNamed "b")).sessions.keys = ["001-1"] := by decide +kernel
  have hframe : ((Web.step ⟨∅, ∅⟩ (createNamed "a")).sessions.get? "001-1").map Session.frame =
      some ⟨"001-1", "owner-bind", "private", 4, ["PS4"], "", false, 0⟩ := by decide +kernel
  have hframe' : ((Web.step ⟨∅, ∅⟩ (createNamed "b")).sessions.get? "001-1").map Session.frame =
      some ⟨"001-1", "owner-bind", "private", 4, ["PS4"], "", false, 0⟩ := by decide +kernel
  constructor
  · intro id hid
    rw [Table.get?_eq_none.mpr (by rw [hkeys.2]; simpa using hid),
      Table.get?_eq_none.mpr (by rw [hkeys.1]; simpa using hid)]
  · obtain ⟨s, hs, hf⟩ := Option.map_eq_some_iff.mp hframe
    obtain ⟨s', hs', hf'⟩ := Option.map_eq_some_iff.mp hframe'
    refine Or.inr ⟨s, s', hs, hs', ?_, hf'.trans hf.symm⟩
    simp only [Session.frame, Frame.mk.injEq] at hf
    exact hf.2.2.1

theorem bobsCall_by (call : WebCall) : (bobsCall call).By 2 := ⟨_, call, ⟨2, "bob"⟩, rfl, rfl, rfl⟩

theorem createNamed_not_by (name : String) : ¬ (createNamed name).By 2 := by
  rintro ⟨r, call, caller, he, hauth, hx⟩
  obtain ⟨rfl, -⟩ := WebEvent.request.inj he
  obtain rfl := Except.ok.inj hauth
  exact absurd hx (by decide)

/-- Bob's requests after a private session has been created under one name or the other. -/
theorem bobs_twoRuns (calls : List WebCall) (hcalls : ∀ parts, .create parts ∉ calls) :
    TwoRuns 2 "001-1" (createNamed "a" :: calls.map bobsCall)
      (createNamed "b" :: calls.map bobsCall) where
  length := rfl
  same n hn hn' hby := by
    cases n with
    | zero =>
      rcases hby with hby | hby
      · exact absurd hby (createNamed_not_by "a")
      · exact absurd hby (createNamed_not_by "b")
    | succ n => rfl
  creator e he hby := by
    rintro ⟨r, parts, rfl, -⟩
    rcases List.mem_cons.mp he with heq | hmem
    · rw [heq] at hby
      exact createNamed_not_by "a" hby
    · obtain ⟨call, hcall, heq⟩ := List.mem_map.mp hmem
      obtain ⟨-, rfl⟩ := WebEvent.request.inj heq
      exact hcalls parts hcall
  uninvited e he hby := by
    rcases List.mem_cons.mp he with rfl | hmem
    · rintro ⟨r, parts, heq, -⟩
      cases (WebEvent.request.inj heq).2
    · obtain ⟨call, -, rfl⟩ := List.mem_map.mp hmem
      exact absurd (bobsCall_by call) hby
  differ n hn hby := by
    cases n with
    | zero => exact ⟨createNamed_differ, rfl⟩
    | succ n =>
      rw [List.getElem_cons_succ, List.getElem_map] at hby
      exact absurd (bobsCall_by _) hby

/-- Bob asks for the session without having entered it. -/
theorem bob_sees_alike :
    (bobsCall (.get (.session "001-1"))).response
      (webAfter [createNamed "b", bobsCall (.get (.session "001-1"))] 1) =
    (bobsCall (.get (.session "001-1"))).response
      (webAfter [createNamed "a", bobsCall (.get (.session "001-1"))] 1) := by
  refine strangers_see_alike 2 "001-1" [createNamed "a", bobsCall (.get (.session "001-1"))]
    [createNamed "b", bobsCall (.get (.session "001-1"))]
    (bobs_twoRuns [.get (.session "001-1")] (by simp)) (fun n hn hby => ?_) 1 (by decide) (by decide)
    (bobsCall_by _)
  have hnot : ∀ w, ¬ OwnAccess 2 "001-1" w (bobsCall (.get (.session "001-1"))) := by
    rintro w ⟨r, parts, heq, -⟩
    cases (WebEvent.request.inj heq).2
  rcases n with _ | _ | n
  · exact absurd hby (createNamed_not_by "a")
  · exact ⟨hnot _, hnot _⟩
  · rw [List.length_cons, List.length_singleton] at hn
    omega

/-- The name of a session in a reply. -/
def repliedName : Option WebResponse → Option Json
  | some (.json ⟨_, some (.obj o)⟩) => JsonObject.value o "sessionName"
  | _ => none

/-- He joins it first, and is told its name. -/
theorem bob_joins_and_sees : ¬ ∀ (x : ℤ) (sid : String) (es es' : List WebEvent),
    TwoRuns x sid es es' → ∀ n (hn : n < es.length) (hn' : n < es'.length), es[n].By x →
      es'[n].response (webAfter es' n) = es[n].response (webAfter es n) := by
  intro h
  let calls : List WebCall := [.join "001-1" none none, .get (.session "001-1")]
  have heq := h 2 "001-1" _ _ (bobs_twoRuns calls (by simp [calls])) 2 (by decide) (by decide)
    (bobsCall_by _)
  have hname := congrArg repliedName heq
  have hne : repliedName ((bobsCall (.get (.session "001-1"))).response
      (webAfter (createNamed "b" :: calls.map bobsCall) 2)) ≠
      repliedName ((bobsCall (.get (.session "001-1"))).response
      (webAfter (createNamed "a" :: calls.map bobsCall) 2)) := by decide +kernel
  exact hne hname

end ShadNet
