import ShadNet.Proof.JsonObject
import ShadNet.Proof.WebSession
import ShadNet.Spec.Invitation

/-!
# Who is shown a private session

* `Alike`: two stores that differ in what a private session of strangers contains.
* `respond_alike`: a `GET` request of the stranger gets the same response from both, except one for
  an old invitation that asks for the session.
* `private_hidden_iff`: this exception is exact.
-/

namespace ShadNet

open Lib

variable {r : WebRequest} {w w' : Web} {x : ℤ} {sid : String} {s : Session}

/-! ## Stores that are alike -/

/-- What a session contains, for those who may see it. -/
structure Contents where
  ownerUserId : ℤ
  ownerNpid : String
  sessionName : String
  sessionStatus : String
  localizedSessionNames : Table String String
  localizedSessionStatus : Table String String
  sessionLockFlag : Bool
  sessionImage : List UInt8
  sessionData : List UInt8
  changeableSessionData : List UInt8
  members : List SessionMember

/-- The session with other contents. -/
def Session.withContents (s : Session) (c : Contents) : Session :=
  { s with
    ownerUserId := c.ownerUserId
    ownerNpid := c.ownerNpid
    sessionName := c.sessionName
    sessionStatus := c.sessionStatus
    localizedSessionNames := c.localizedSessionNames
    localizedSessionStatus := c.localizedSessionStatus
    sessionLockFlag := c.sessionLockFlag
    sessionImage := c.sessionImage
    sessionData := c.sessionData
    changeableSessionData := c.changeableSessionData
    members := c.members }

/-- What a session has besides: who may see it and how it was set up. -/
structure Frame where
  sessionId : String
  sessionType : String
  sessionPrivacy : String
  sessionMaxUser : ℤ
  availablePlatforms : List String
  npTitleId : String
  sendNotificationFlag : Bool
  createdAt : ℤ
deriving DecidableEq

/-- What a session has besides its contents. -/
def Session.frame (s : Session) : Frame :=
  ⟨s.sessionId, s.sessionType, s.sessionPrivacy, s.sessionMaxUser, s.availablePlatforms, s.npTitleId,
    s.sendNotificationFlag, s.createdAt⟩

/-- The tables differ only in what the private session `sid` contains. -/
structure DifferIn (sid : String) (t t' : Sessions) : Prop where
  others : ∀ id, id ≠ sid → t'.get? id = t.get? id
  session : (t.get? sid = none ∧ t'.get? sid = none) ∨ ∃ s s', t.get? sid = some s ∧
    t'.get? sid = some s' ∧ s.sessionPrivacy = "private" ∧ s'.frame = s.frame

/-- A private session in which `x` does not take part. -/
structure Closed (x : ℤ) (sid : String) (s : Session) : Prop where
  key : s.sessionId = sid
  closed : s.sessionPrivacy = "private"
  stranger : s.hasMember x = false

/-- The stores differ only in what `sid`, closed to `x`, contains. -/
structure Alike (x : ℤ) (sid : String) (w w' : Web) : Prop
    extends DifferIn sid w.sessions w'.sessions where
  invitations : w'.invitations = w.invitations
  closed : ∀ s, w.sessions.get? sid = some s → Closed x sid s
  closed' : ∀ s, w'.sessions.get? sid = some s → Closed x sid s

/-- Every session is stored under its own id. -/
def Web.Keyed (w : Web) : Prop := ∀ id s, w.sessions.get? id = some s → s.sessionId = id

/-- `g` asks, by an invitation that `x` has received, for the session `sid`. -/
def Reveals (r : WebRequest) (w : Web) (sid : String) (x : ℤ) (g : WebGet) : Prop :=
  ∃ id inv, g = .invitation id ∧ w.invitations.get? id = some inv ∧ inv.toUserId = x ∧
    inv.sessionId = sid ∧ wantsSession r = true

/-- Active invitations depend on the invitations only. -/
theorem hasActiveInvitation_congr (h : w'.invitations = w.invitations) (now : ℤ) (id : String)
    (u : ℤ) : hasActiveInvitation w' now id u = hasActiveInvitation w now id u := by
  unfold hasActiveInvitation
  rw [h]

/-- Who may see a session depends on it and the invitations. -/
theorem permitted_congr (h : w'.invitations = w.invitations) (now : ℤ) (s : Session) (u : ℤ) :
    permitted w' now s u = permitted w now s u := by
  unfold permitted
  rw [hasActiveInvitation_congr h]

theorem sessionRow_congr (h : w'.invitations = w.invitations) (now target caller : ℤ) (s : Session) :
    sessionRow w' now target caller s = sessionRow w now target caller s := by
  unfold sessionRow
  rw [hasActiveInvitation_congr h]

/-- An invitation of `x` to the session that counts is one he is known to hold. -/
theorem not_active {now : ℤ} (hinv : hasActiveInvitation w now sid x = false) {id : String}
    {inv : Invitation} (hget : w.invitations.get? id = some inv) (hto : inv.toUserId = x)
    (hsession : inv.sessionId = sid) : inv.active now = false := by
  unfold hasActiveInvitation at hinv
  rw [List.any_eq_false] at hinv
  have := hinv _ (Table.get?_eq_some_iff.mp hget)
  simpa [hto, hsession] using this

/-- A session that is closed to the user, who has no active invitation, is not shown to him. -/
theorem Closed.not_permitted (h : Closed x sid s) {now : ℤ}
    (hinv : hasActiveInvitation w now sid x = false) : permitted w now s x = false := by
  unfold permitted
  rw [h.stranger, h.key, hinv, h.closed]
  rfl

/-- A session that is closed to the user is in no row for him. -/
theorem Closed.no_row (h : Closed x sid s) {now : ℤ}
    (hinv : hasActiveInvitation w now sid x = false) (target : ℤ) :
    sessionRow w now target x s = none := by
  unfold sessionRow
  split
  · rfl
  · rw [h.stranger, h.key, hinv, h.closed]
    rfl

/-! ## Rows -/

theorem sessionRow_sessionId {now target caller : ℤ} {row : SessionRow}
    (h : sessionRow w now target caller s = some row) : row.sessionId = s.sessionId := by
  unfold sessionRow at h
  split at h
  · cases h
  · split at h
    · cases h
    · exact (Option.some.inj h) ▸ rfl

/-- The best row is one of them. -/
theorem bestRow_mem {rows : List SessionRow} {row : SessionRow} (h : bestRow rows = some row) :
    row ∈ rows := by
  revert h
  unfold bestRow
  -- the fold keeps what it has or takes the next row
  refine List.foldlRecOn (motive := fun best => best = some row → row ∈ rows) rows _
    (fun hnone => by cases hnone) fun best ih r hr hbest => ?_
  cases best with
  | none => exact Option.some.inj hbest ▸ hr
  | some b =>
    simp only at hbest
    split at hbest
    · exact Option.some.inj hbest ▸ hr
    · exact ih hbest

/-- The rows that a stranger is shown are of other sessions. -/
theorem collectUserSessions_ne (hkeys : w.Keyed)
    (hclosed : ∀ s, w.sessions.get? sid = some s → Closed x sid s)
    (hinv : hasActiveInvitation w r.now sid x = false) {target : ℤ} {filter : Option (List ℤ)}
    {row : SessionRow} (hrow : row ∈ collectUserSessions r w target x filter) :
    row.sessionId ≠ sid := by
  have hrows : ∀ row, row ∈ ((Table.iterate r.order w.sessions).filterMap fun e =>
      sessionRow w r.now target x e.2) → row.sessionId ≠ sid := by
    intro row hrow
    obtain ⟨⟨id, s⟩, he, hsome⟩ := List.mem_filterMap.mp hrow
    have hget := Table.mem_iterate.mp he
    rw [sessionRow_sessionId hsome, hkeys id s hget]
    intro hid
    rw [hid] at hget
    rw [(hclosed s hget).no_row hinv] at hsome
    cases hsome
  unfold collectUserSessions at hrow
  cases filter with
  | none => exact hrows row (bestRow_mem (Option.mem_toList.mp hrow))
  | some indices => exact hrows row (List.mem_of_mem_filter hrow)

theorem friendsRows_mem {row : SessionRow} (h : row ∈ friendsRows r w x) :
    ∃ f : ℤ × String, row ∈ collectUserSessions r w f.1 x none := by
  revert h
  unfold friendsRows
  refine List.foldlRecOn (motive := fun rows => row ∈ rows →
    ∃ f : ℤ × String, row ∈ collectUserSessions r w f.1 x none) _ _
    (fun hmem => by cases hmem) fun rows ih f _ hmem => ?_
  cases hrow : collectUserSessions r w f.1 x none with
  | nil =>
    simp only [hrow] at hmem
    exact ih hmem
  | cons row' more =>
    simp only [hrow] at hmem
    split at hmem
    · exact ih hmem
    · rcases List.mem_append.mp hmem with hmem | hmem
      · exact ih hmem
      · refine ⟨f, ?_⟩
        rw [hrow, List.mem_singleton.mp hmem]
        exact List.mem_cons_self

section

variable (hw : Alike x sid w w') (hinv : hasActiveInvitation w r.now sid x = false)
include hw

/-- What is stored under an id is the same in both, or is closed to the stranger in both. -/
theorem Alike.lookup (id : String) : w'.sessions.get? id = w.sessions.get? id ∨
    id = sid ∧ ∃ s s', w.sessions.get? id = some s ∧ w'.sessions.get? id = some s' ∧
      Closed x sid s ∧ Closed x sid s' ∧ s'.frame = s.frame := by
  by_cases hid : id = sid
  · rw [hid]
    rcases hw.session with ⟨hs, hs'⟩ | ⟨s, s', hs, hs', -, hframe⟩
    · exact Or.inl (hs'.trans hs.symm)
    · exact Or.inr ⟨rfl, s, s', hs, hs', hw.closed s hs, hw.closed' s' hs', hframe⟩
  · exact Or.inl (hw.others id hid)

include hinv

/-! ## Handlers -/

/-- The sessions collected for the user are the same with other contents. -/
theorem collectUserSessions_alike (target : ℤ) (filter : Option (List ℤ)) :
    collectUserSessions r w' target x filter = collectUserSessions r w target x filter := by
  have hrows : ((Table.iterate r.order w'.sessions).filterMap fun e =>
      sessionRow w' r.now target x e.2) = (Table.iterate r.order w.sessions).filterMap fun e =>
      sessionRow w r.now target x e.2 := by
    refine Table.filterMap_iterate_congr r.order (fun id => ?_) fun id => ?_
    · -- the keys are the same
      rw [← Table.get?_isSome, ← Table.get?_isSome]
      rcases hw.lookup id with hsame | ⟨-, s, s', hs, hs', -⟩
      · rw [hsame]
      · rw [hs, hs']
        rfl
    · simp only [sessionRow_congr hw.invitations]
      rcases hw.lookup id with hsame | ⟨-, s, s', hs, hs', hc, hc', -⟩
      · rw [hsame]
      · rw [hs, hs', Option.bind_some, Option.bind_some, hc.no_row hinv, hc'.no_row hinv]
  unfold collectUserSessions
  rw [hrows]

/-- Whoever is shown only what he is permitted to see is shown the same. -/
theorem permitted_alike (id : String) (shown : Session → WebResponse) :
    (match w'.sessions.get? id with
      | none => WebResponse.notFound
      | some s => if !permitted w' r.now s x then .notPermitted else shown s) =
    match w.sessions.get? id with
      | none => WebResponse.notFound
      | some s => if !permitted w r.now s x then .notPermitted else shown s := by
  simp only [permitted_congr hw.invitations]
  rcases hw.lookup id with hsame | ⟨-, s, s', hs, hs', hc, hc', -⟩
  · rw [hsame]
  · rw [hs, hs']
    simp only [hc.not_permitted hinv, hc'.not_permitted hinv, Bool.not_false, if_true]

variable {caller : AuthResult} (hauth : r.auth = .ok caller) (hx : caller.userId = x)
include hauth hx

/-- The session's own route answers the same with other contents. -/
theorem handleSessionGet_alike (id : String) : handleSessionGet r id w' = handleSessionGet r id w := by
  unfold handleSessionGet
  simp only [hauth, hx]
  exact permitted_alike hw hinv id _

/-- The route of members answers the same with other contents. -/
theorem handleSessionMembers_alike (id : String) :
    handleSessionMembers r id w' = handleSessionMembers r id w := by
  unfold handleSessionMembers
  simp only [hauth, hx]
  exact permitted_alike hw hinv id _

/-- The route of data answers the same with other contents. -/
theorem handleSessionGetData_alike (id : String) :
    handleSessionGetData r id w' = handleSessionGetData r id w := by
  unfold handleSessionGetData
  simp only [hauth, hx, hasActiveInvitation_congr hw.invitations]
  rcases hw.lookup id with hsame | ⟨hid, s, s', hs, hs', hc, hc', hframe⟩
  · rw [hsame]
  · -- the platforms are the same, and he is not permitted
    simp only [Session.frame, Frame.mk.injEq] at hframe
    rw [hs, hs']
    simp only [hframe, hc.closed, hc.stranger, hc'.stranger, hid, hinv]
    rfl

/-- A user's list answers the same with other contents. -/
theorem handleSessionList_alike (userKey : String) :
    handleSessionList r userKey w' = handleSessionList r userKey w := by
  unfold handleSessionList
  simp only [hauth, hx, collectUserSessions_alike hw hinv]

/-- The list of several users answers the same with other contents. -/
theorem handleMultiUserSessions_alike :
    handleMultiUserSessions r w' = handleMultiUserSessions r w := by
  unfold handleMultiUserSessions
  simp only [hauth, hx, collectUserSessions_alike hw hinv]

/-- The list of friends' sessions answers the same with other contents. -/
theorem handleFriendsSessions_alike (hkeys : w.Keyed) :
    handleFriendsSessions r w' = handleFriendsSessions r w := by
  have hrows : friendsRows r w' x = friendsRows r w x := by
    unfold friendsRows
    simp only [collectUserSessions_alike hw hinv]
  have hne : ∀ row ∈ friendsRows r w x, row.sessionId ≠ sid := by
    intro row hrow
    obtain ⟨f, hf⟩ := friendsRows_mem hrow
    exact collectUserSessions_ne hkeys hw.closed hinv hf
  have hrefs : ∀ row ∈ friendsRows r w x,
      friendRefs r w' x row.sessionId = friendRefs r w x row.sessionId := by
    intro row hrow
    unfold friendRefs
    rw [hw.others _ (hne row hrow)]
  unfold handleFriendsSessions
  simp only [hauth, hx, hrows]
  set rows := if r.queryItemValue "sessionApplicationType" = "party" then []
    else friendsRows r w x with hdef
  have hsub : ∀ row ∈ rows, row ∈ friendsRows r w x := by
    intro row hrow
    rw [hdef] at hrow
    split at hrow
    · cases hrow
    · exact hrow
  have harr : ((rows.drop (parseOffset r)).take (parseLimit r)).map (fun row =>
      Json.obj (JsonObject.ofFields
        (rowFields r (r.fields.isEmpty || r.fields.contains "@default") row ++
          [(r.fields.contains "friends", "friends", .arr (friendRefs r w' x row.sessionId))]))) =
      ((rows.drop (parseOffset r)).take (parseLimit r)).map (fun row =>
      Json.obj (JsonObject.ofFields
        (rowFields r (r.fields.isEmpty || r.fields.contains "@default") row ++
          [(r.fields.contains "friends", "friends", .arr (friendRefs r w x row.sessionId))]))) := by
    refine List.map_congr_left fun row hrow => ?_
    rw [hrefs row (hsub row (List.mem_of_mem_drop (List.mem_of_mem_take hrow)))]
  rw [harr]

omit hinv in
/-- An invitation that does not reveal the session answers the same with other contents. -/
theorem handleInvitationGet_alike {id : String} (hno : ¬ Reveals r w sid x (.invitation id)) :
    handleInvitationGet r id w' = handleInvitationGet r id w := by
  unfold handleInvitationGet
  simp only [hauth, hx, hw.invitations]
  cases hget : w.invitations.get? id with
  | none => rfl
  | some inv =>
    simp only
    by_cases hto : inv.toUserId ≠ x
    · rw [if_pos hto, if_pos hto]
    rw [if_neg hto, if_neg hto]
    have hsession : (if wantsSession r then w'.sessions.get? inv.sessionId else none) =
        if wantsSession r then w.sessions.get? inv.sessionId else none := by
      by_cases hwants : wantsSession r = true
      · rw [if_pos hwants, if_pos hwants]
        exact hw.others _ fun hid => hno ⟨id, inv, rfl, hget, not_not.mp hto, hid, hwants⟩
      · rw [if_neg hwants, if_neg hwants]
    rw [hsession]

/-- The data of an invitation is the same with other contents. -/
theorem handleInvitationData_alike (id : String) :
    handleInvitationData r id w' = handleInvitationData r id w := by
  unfold handleInvitationData
  simp only [hauth, hx, hw.invitations]
  cases hget : w.invitations.get? id with
  | none => rfl
  | some inv =>
    simp only
    by_cases hto : inv.toUserId ≠ x
    · rw [if_pos hto, if_pos hto]
    rw [if_neg hto, if_neg hto]
    by_cases hused : (inv.expired r.now || inv.used) = true
    · rw [if_pos hused, if_pos hused]
    rw [if_neg hused, if_neg hused]
    -- the invitation counts, so it is to another session
    have hne : inv.sessionId ≠ sid := by
      intro hsession
      have hactive := not_active hinv hget (not_not.mp hto) hsession
      simp only [Invitation.expired, Bool.or_eq_true, decide_eq_true_eq, not_or, not_and,
        not_lt] at hused
      simp only [Invitation.active, Bool.and_eq_false_imp, Bool.not_eq_true',
        decide_eq_false_iff_not, not_or] at hactive
      obtain ⟨hvalid, hnow⟩ := hactive (Bool.eq_false_of_not_eq_true hused.2)
      exact hnow (hused.1 hvalid)
    rw [hw.others _ hne]

omit hinv hauth hx in
/-- The list of invitations is the same with other contents. -/
theorem handleInvitationList_alike : handleInvitationList r w' = handleInvitationList r w := by
  unfold handleInvitationList
  rw [hw.invitations]

/-- **A stranger is told nothing**, except by an invitation that he asks for the session. -/
theorem respond_alike (hkeys : w.Keyed) {g : WebGet} (hno : ¬ Reveals r w sid x g) :
    g.respond r w' = g.respond r w := by
  cases g with
  | session id => exact handleSessionGet_alike hw hinv hauth hx id
  | members id => exact handleSessionMembers_alike hw hinv hauth hx id
  | sessionData id => exact handleSessionGetData_alike hw hinv hauth hx id
  | userSessions key => exact handleSessionList_alike hw hinv hauth hx key
  | usersSessions => exact handleMultiUserSessions_alike hw hinv hauth hx
  | friendsSessions => exact handleFriendsSessions_alike hw hinv hauth hx hkeys
  | invitation id => exact handleInvitationGet_alike hw hauth hx hno
  | invitationData id => exact handleInvitationData_alike hw hinv hauth hx id
  | invitations => exact handleInvitationList_alike hw

end

/-! ## Other contents -/

/-- The store with other contents of one session. -/
def Web.replace (w : Web) (sid : String) (c : Contents) : Web :=
  { w with sessions := w.sessions.modify sid fun s => s.withContents c }

/-- The user is a member. -/
def Contents.hasMember (c : Contents) (u : ℤ) : Bool := c.members.any fun m => m.userId = u

theorem get?_replace (hs : w.sessions.get? sid = some s) (c : Contents) :
    (w.replace sid c).sessions.get? sid = some (s.withContents c) := by
  unfold Web.replace
  rw [Table.get?_modify, if_pos rfl, hs, Option.map_some]

/-- Stores that differ in the contents of a closed session look alike to the user. -/
theorem replace_alike {c : Contents} (hs : w.sessions.get? sid = some s) (h : Closed x sid s)
    (hc : c.hasMember x = false) : Alike x sid w (w.replace sid c) where
  invitations := rfl
  others id hid := by
    unfold Web.replace
    rw [Table.get?_modify, if_neg hid]
  session := Or.inr ⟨s, _, hs, get?_replace hs c, h.closed, rfl⟩
  closed s' hs' := by
    rw [hs] at hs'
    exact Option.some.inj hs' ▸ h
  closed' s' hs' := by
    rw [get?_replace hs] at hs'
    exact Option.some.inj hs' ▸ ⟨h.key, h.closed, hc⟩

theorem localText_empty (r : WebRequest) (text : String) : localText r text ∅ = text := by
  unfold localText
  split
  · rfl
  · rw [Table.get?_empty, Option.getD_none]

/-- The session's part of what an invitation shows. -/
theorem invitedSession_name (r : WebRequest) (s : Session) :
    (invitedSession r s).value "sessionName" =
      some (.str (localText r s.sessionName s.localizedSessionNames)) := by
  unfold invitedSession
  simp only [JsonObject.value_ofFields, List.reverse_cons, List.reverse_nil, List.nil_append,
    List.cons_append, List.find?_cons]
  simp

/-- An invitation that asks for the session tells its name. -/
theorem invitation_reveals {caller : AuthResult} (hauth : r.auth = .ok caller) {g : WebGet}
    (hs : w.sessions.get? sid = some s) (hout : s.hasMember caller.userId = false)
    (hreveals : Reveals r w sid caller.userId g) :
    ∃ c : Contents, c.hasMember caller.userId = false ∧
      g.respond r (w.replace sid c) ≠ g.respond r w := by
  obtain ⟨id, inv, rfl, hget, hto, rfl, hwants⟩ := hreveals
  -- the name is replaced by a longer one
  let c : Contents :=
    { ownerUserId := s.ownerUserId, ownerNpid := s.ownerNpid
      sessionName := localText r s.sessionName s.localizedSessionNames ++ "!"
      sessionStatus := s.sessionStatus, localizedSessionNames := ∅
      localizedSessionStatus := s.localizedSessionStatus, sessionLockFlag := s.sessionLockFlag
      sessionImage := s.sessionImage, sessionData := s.sessionData
      changeableSessionData := s.changeableSessionData, members := s.members }
  refine ⟨c, hout, fun heq => ?_⟩
  have hs' := get?_replace hs c
  have hinvs : (w.replace inv.sessionId c).invitations = w.invitations := rfl
  simp only [WebGet.respond, handleInvitationGet, hauth, hinvs, hget, hto, hs, hs', hwants,
    WebResponse.ok, jsonOk] at heq
  simp only [ne_eq, not_true_eq_false, if_false, if_true, WebResponse.json.injEq, Response.mk.injEq,
    Option.some.injEq, Json.obj.injEq, true_and] at heq
  have hsession := congrArg (fun o => JsonObject.value o "session") heq
  simp only [JsonObject.value_ofFields, List.reverse_cons, List.reverse_nil, List.nil_append,
    List.cons_append, List.find?_cons, Option.isSome_some, decide_true, Bool.and_self,
    Option.map_some, Option.getD_some, Option.some.injEq, Json.obj.injEq] at hsession
  have hname := congrArg (fun o => JsonObject.value o "sessionName") hsession
  simp only [invitedSession_name, Option.some.injEq, Json.str.injEq] at hname
  have hlength := congrArg String.length hname
  simp [c, Session.withContents, localText_empty] at hlength

/-- **Private sessions.** Let `w` hold every session under its own id, and let the caller neither
take part in the private session `sid` nor hold an invitation to it that counts. Then the response
to his `GET` request is the same for all other contents without him, exactly if the request is not
one for an invitation of his to `sid`, used or expired, with the session among its fields. -/
theorem private_hidden_iff (w : Web) (hkeys : w.Keyed) (sid : String) (s : Session)
    (hs : w.sessions.get? sid = some s) (hprivate : s.sessionPrivacy = "private") (r : WebRequest)
    (caller : AuthResult) (hauth : r.auth = .ok caller) (hout : s.hasMember caller.userId = false)
    (hinv : hasActiveInvitation w r.now sid caller.userId = false) (g : WebGet) :
    (∀ c : Contents, c.hasMember caller.userId = false →
      g.respond r (w.replace sid c) = g.respond r w) ↔ ¬ Reveals r w sid caller.userId g := by
  constructor
  · intro hsame hreveals
    obtain ⟨c, hc, hne⟩ := invitation_reveals hauth hs hout hreveals
    exact hne (hsame c hc)
  · intro hno c hc
    exact respond_alike (replace_alike hs ⟨hkeys sid s hs, hprivate, hout⟩ hc) hinv hauth rfl hkeys hno

/-! ## An old invitation -/

theorem StoreOk.keyed (h : StoreOk w.sessions) : w.Keyed := fun id s hs => (h.session id s hs).1.key

@[simp] theorem invite_sessions (r : WebRequest) (id : String) (parts : Option (List MultipartPart))
    (w : Web) : (handleSessionInvite r id parts w).web.sessions = w.sessions := by
  simp only [handleSessionInvite]
  split
  · rfl
  split
  · rfl
  split
  · rfl
  split
  · rfl
  split
  · split
    · rfl
    split
    · rfl
    · rfl
  · rfl

@[simp] theorem use_sessions (r : WebRequest) (id : String) (body : List UInt8) (w : Web) :
    (handleInvitationUse r id body w).1.sessions = w.sessions := by
  simp only [handleInvitationUse]
  split
  · rfl
  split
  · split
    · rfl
    split
    · rfl
    split
    · rfl
    split
    · rfl
    · rfl
  · rfl

/-- Every call keeps the store in order. -/
theorem serve_storeOk (h : StoreOk w.sessions) (r : WebRequest) (call : WebCall) :
    StoreOk (call.serve r w).1.sessions := by
  cases call with
  | get g => exact h
  | create parts => exact handleSessionCreate_storeOk h r.toRequest parts
  | update id body => exact handleSessionUpdate_storeOk h r.toRequest id body
  | delete id => exact handleSessionDelete_storeOk h r.toRequest id
  | join id index priority => exact handleSessionJoin_storeOk h r.toRequest id index priority
  | leave id member => exact handleSessionLeave_storeOk h r.toRequest id member
  | invite id parts => exact (invite_sessions r id parts w).symm ▸ h
  | use id body => exact (use_sessions r id body w).symm ▸ h

theorem step_storeOk (h : StoreOk w.sessions) (e : WebEvent) : StoreOk (w.step e).sessions := by
  cases e with
  | request r call => exact serve_storeOk h r call
  | purge o u => exact purgeUserFromSessions_storeOk h o u

/-- The store is in order along every run. -/
theorem webAfter_storeOk (es : List WebEvent) (n : ℕ) : StoreOk (webAfter es n).sessions :=
  runAt_inv (P := fun w : Web => StoreOk w.sessions) storeOk_empty (fun _ e h => step_storeOk h e) es n

/-- A request of a user, with a decoded body and a `fields` item; everybody is on a PS4. -/
def plainWebRequest (user : AuthResult) (body : JsonObject) (fields : Option String) : WebRequest where
  qt := .ascii
  auth := .ok user
  clients _ := some "PS4"
  getUserId name := if name = "bob" then some 2 else none
  fromJson _ := some (.obj body)
  uuid := "1"
  now := 0
  order := .listed
  query item := if item = "fields" then fields else none
  getUsername _ := none
  friends _ := []
  isoUtc _ := ""
  uuids _ := "1"

/-- Alice creates a private session and invites Bob, who marks the invitation used. -/
def usedInvitation : List WebEvent :=
  [.request (plainWebRequest ⟨1, "alice"⟩ [("availablePlatforms", .arr [.str "PS4"]),
      ("sessionMaxUser", .num 4), ("sessionPrivacy", .str "private"),
      ("sessionType", .str "owner-bind")] none)
      (.create (some [⟨[], toUtf8 "session-request", []⟩])),
    .request (plainWebRequest ⟨1, "alice"⟩ [("to", .arr [.str "bob"])] none)
      (.invite "001-1" (some [⟨[], toUtf8 "invitation-request", []⟩])),
    .request (plainWebRequest ⟨2, "bob"⟩ [("usedFlag", .bool true)] none) (.use "002-1" [])]

theorem usedInvitation_session : ∃ s, (webAfter usedInvitation 3).sessions.get? "001-1" = some s ∧
    s.sessionPrivacy = "private" ∧ s.hasMember 2 = false := by
  have h : ((webAfter usedInvitation 3).sessions.get? "001-1").map
      (fun s => (s.sessionPrivacy, s.hasMember 2)) = some ("private", false) := by decide +kernel
  obtain ⟨s, hs, heq⟩ := Option.map_eq_some_iff.mp h
  exact ⟨s, hs, (Prod.mk.inj heq).1, (Prod.mk.inj heq).2⟩

theorem usedInvitation_inactive : hasActiveInvitation (webAfter usedInvitation 3)
    (plainWebRequest ⟨2, "bob"⟩ [] none).now "001-1" 2 = false := by decide +kernel

/-- Bob asks for the session itself, and is told nothing of it. -/
theorem session_hidden_from_bob :
    ∃ s, (webAfter usedInvitation 3).sessions.get? "001-1" = some s ∧
      ((∀ c : Contents, c.hasMember 2 = false →
        (WebGet.session "001-1").respond (plainWebRequest ⟨2, "bob"⟩ [] none)
          ((webAfter usedInvitation 3).replace "001-1" c) =
        (WebGet.session "001-1").respond (plainWebRequest ⟨2, "bob"⟩ [] none)
          (webAfter usedInvitation 3)) ↔
      ¬ Reveals (plainWebRequest ⟨2, "bob"⟩ [] none) (webAfter usedInvitation 3) "001-1" 2
        (.session "001-1")) := by
  obtain ⟨s, hs, hprivate, hout⟩ := usedInvitation_session
  exact ⟨s, hs, private_hidden_iff _ (webAfter_storeOk _ _).keyed _ s hs hprivate _ ⟨2, "bob"⟩ rfl
    hout usedInvitation_inactive _⟩

/-- By his used invitation he is told its name. -/
theorem used_invitation_reveals : ¬ ∀ (w : Web) (sid : String) (s : Session) (r : WebRequest)
    (caller : AuthResult) (g : WebGet) (c : Contents), w.Keyed → w.sessions.get? sid = some s →
      s.sessionPrivacy = "private" → r.auth = .ok caller → s.hasMember caller.userId = false →
      hasActiveInvitation w r.now sid caller.userId = false → c.hasMember caller.userId = false →
      g.respond r (w.replace sid c) = g.respond r w := by
  intro h
  obtain ⟨s, hs, hprivate, hout⟩ := usedInvitation_session
  have hinv : ((webAfter usedInvitation 3).invitations.get? "002-1").map
      (fun inv => (inv.toUserId, inv.sessionId)) = some (2, "001-1") := by decide +kernel
  obtain ⟨inv, hget, heq⟩ := Option.map_eq_some_iff.mp hinv
  have hreveals : Reveals (plainWebRequest ⟨2, "bob"⟩ [] (some "session"))
      (webAfter usedInvitation 3) "001-1" (⟨2, "bob"⟩ : AuthResult).userId (.invitation "002-1") :=
    ⟨"002-1", inv, rfl, hget, (Prod.mk.inj heq).1, (Prod.mk.inj heq).2, by decide +kernel⟩
  obtain ⟨c, hc, hne⟩ := invitation_reveals rfl hs hout hreveals
  exact hne (h _ _ s _ _ _ c (webAfter_storeOk _ _).keyed hs hprivate rfl hout
    usedInvitation_inactive hc)

end ShadNet
