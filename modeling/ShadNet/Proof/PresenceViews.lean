import ShadNet.Proof.JsonObject
import ShadNet.Spec.Presence

/-!
# The presence that different routes show

`GET` presence, the friend list and the profiles each work out by themselves what a caller may see
of a user.

* `entryShown`: the entry that all of them show, if they agree on who is visible and on who is in
  the same game.
* `presence_agrees_iff`: they agree on every friend, and on the caller himself exactly when the game
  that he plays is known, or when there is nothing about him to hide.
-/

namespace ShadNet

open Lib

variable {sh : SharedState} {c t : ℤ} {e : ClientEntry}

/-! ## Shown entries -/

/-- The presence that an entry of a friend list, a profile or an answer holds. -/
def presenceOf (o : JsonObject) : JsonObject := JsonValue.toObject (o.value "presence")

/-- The part of a presence that is about its first platform. -/
def primaryInfo (presence : JsonObject) : JsonObject :=
  JsonValue.toObject (presence.value "primaryInfo")

/-! ## One entry for all -/

/-- The entry of a user who is visible, or not, and in the same game, or not. -/
def entryShown (sh : SharedState) (t : ℤ) (visible inGame : Bool) : JsonObject :=
  match sh.clients.get? t with
  | none => makePresenceEntry false "" "" "" "" "" true false
  | some e => makePresenceEntry visible e.platform (if inGame then e.gameStatus else "") ""
      e.npTitleId e.titleName true false

/-- A presence of the type primary. -/
def primaryPresence (status : Json) (entry : JsonObject) : JsonObject :=
  [("onlineStatus", status), ("primaryInfo", .obj entry)]

/-- A primary presence is built from the title's own entry. -/
theorem makePresence_primary (online : Bool) (platform gameStatus gameData npTitleId titleName : String)
    (detail inSameGame : Bool) (platReq : String) :
    makePresence "primary" online platform gameStatus gameData npTitleId titleName detail inSameGame
        platReq =
      primaryPresence (onlineStatus online)
        (makePresenceEntry online platform gameStatus "" npTitleId titleName detail false) := by
  unfold makePresence
  simp only
  rw [if_neg (by decide), if_neg (by decide)]
  rfl

@[simp] theorem primaryInfo_primaryPresence (status : Json) (entry : JsonObject) :
    primaryInfo (primaryPresence status entry) = entry := by
  have hvalue : (primaryPresence status entry).value "primaryInfo" = some (.obj entry) := rfl
  unfold primaryInfo
  rw [hvalue]
  rfl

@[simp] theorem onlineStatus_primaryPresence (status : Json) (entry : JsonObject) :
    (primaryPresence status entry).value "onlineStatus" = some status := rfl

/-- Without a language the game status is the one set without. -/
theorem statusIn_empty (e : ClientEntry) : e.statusIn "" = e.gameStatus := rfl

/-- Those who hide are seen by those in their game. -/
def visibleTo (sh : SharedState) (c t : ℤ) : Bool :=
  sh.sameGame c t || !((sh.clients.get? t).elim false (·.appearOffline))

/-- The presence request shows the target's entry as far as it is visible to the caller. -/
theorem presenceShown_primary {r : UserRequest} (hlang : r.queryItemValue "npLanguages" = "")
    (platReq : String) : primaryInfo (presenceShown r sh c t "primary" true platReq) =
      entryShown sh t (visibleTo sh c t) (sh.sameGame c t) := by
  unfold presenceShown entryShown visibleTo
  cases sh.clients.get? t with
  | none => simp only [makePresence_primary, primaryInfo_primaryPresence]
  | some e =>
    simp only [hlang, statusIn_empty, makePresence_primary, primaryInfo_primaryPresence]
    rfl

/-- Another user's profile shows his entry as far as it is visible to the caller. -/
theorem profilePresence_other (hne : t ≠ c) :
    profilePresence sh c t = entryShown sh t (visibleTo sh c t) (sh.sameGame c t) := by
  unfold profilePresence entryShown visibleTo
  cases sh.clients.get? t with
  | none => rfl
  | some e => simp [hne.symm]

/-- One's own profile shows one's entry whole. -/
theorem profilePresence_self : profilePresence sh c c = entryShown sh c true true := by
  unfold profilePresence entryShown
  cases sh.clients.get? c with
  | none => rfl
  | some e => simp

/-- A friend list with primary presence and details, in no language. -/
structure PrimaryQuery (c : ℤ) (q : FriendListQuery) : Prop where
  caller : q.callerUserId = c
  type : q.presenceType = "primary"
  detail : q.presenceDetail = true
  language : q.npLanguages = ""

/-- In a list that wants presence, a friend is online if he is and is visible to the caller. -/
theorem effectiveOnline_eq {q : FriendListQuery} (hq : q.callerUserId = c)
    (hwant : q.wantPresence = true) :
    effectiveOnline sh q t = ((sh.clients.get? t).isSome && visibleTo sh c t) := by
  have honline : onlineFriend sh q t = sh.clients.get? t := if_pos hwant
  unfold effectiveOnline visibleTo
  rw [honline, hq]
  cases sh.clients.get? t <;> rfl

theorem PrimaryQuery.want {q : FriendListQuery} (h : PrimaryQuery c q) : q.wantPresence = true := by
  unfold FriendListQuery.wantPresence
  rw [h.type]
  rfl

/-- A friend list shows the friend's entry as far as it is visible to the caller. -/
theorem friendPresence_primary (sh : SharedState) (t : ℤ) {q : FriendListQuery}
    (h : PrimaryQuery c q) :
    primaryInfo (friendPresence sh q t) =
      entryShown sh t (visibleTo sh c t) (sh.sameGame c t) ∧
    (friendPresence sh q t).value "onlineStatus" =
      some (onlineStatus ((sh.clients.get? t).isSome && visibleTo sh c t)) := by
  have honline : onlineFriend sh q t = sh.clients.get? t := if_pos h.want
  have hgame : sameGameOf sh q t = ((sh.clients.get? t).isSome && sh.sameGame c t) := by
    unfold sameGameOf
    rw [honline, h.caller]
  have heff : effectiveOnline sh q t = ((sh.clients.get? t).isSome && visibleTo sh c t) :=
    effectiveOnline_eq h.caller h.want
  unfold friendPresence entryShown
  rw [honline, h.type, h.detail, h.language]
  cases he : sh.clients.get? t with
  | none =>
    simp only [makePresence_primary, primaryInfo_primaryPresence, onlineStatus_primaryPresence]
    exact ⟨trivial, rfl⟩
  | some e =>
    rw [he] at heff hgame
    rw [Option.isSome_some, Bool.true_and] at heff hgame
    cases hvis : visibleTo sh c t with
    | false =>
      -- an entry that is not visible has nothing else in it
      rw [hvis] at heff
      simp only [heff, makePresence_primary, primaryInfo_primaryPresence,
        onlineStatus_primaryPresence]
      exact ⟨rfl, rfl⟩
    | true =>
      rw [hvis] at heff
      simp only [heff, hgame, statusIn_empty, makePresence_primary, primaryInfo_primaryPresence,
        onlineStatus_primaryPresence]
      exact ⟨trivial, rfl⟩

/-! ## Answers -/

/-- An answer to `GET` presence of the type primary with details, in no language. -/
def PresenceAnswer (sh : SharedState) (c t : ℤ) (body : JsonObject) : Prop :=
  ∃ (r : UserRequest) (auth : AuthResult) (userKey : String), r.auth = .ok auth ∧ auth.userId = c ∧
    presenceTarget r auth userKey = t ∧ r.queryItemValue "type" = "primary" ∧
    r.queryItemValue "presenceDetail" = "true" ∧ r.queryItemValue "npLanguages" = "" ∧
    handlePresenceGet r userKey sh = .ok body

/-- What a presence entry says of a user. -/
def presenceKeys : List String := ["onlineStatus", "platform", "gameStatus", "gameTitleInfo"]

/-- **`c` is told the same about `t` everywhere.** Only friends are listed. -/
structure PresenceAgrees (sh : SharedState) (c t : ℤ) : Prop where
  profile : ∀ body, PresenceAnswer sh c t body → ∀ (r : UserRequest) onlineId fields,
    fields.contains "presence" = true → ∀ key ∈ presenceKeys,
      (primaryInfo (presenceOf body)).value key =
        (primaryInfo (presenceOf (buildProfile r sh t onlineId fields c))).value key
  friendList : t ≠ c → ∀ body, PresenceAnswer sh c t body → ∀ (r : UserRequest) q onlineId,
    PrimaryQuery c q →
      (∀ key ∈ presenceKeys, (primaryInfo (presenceOf body)).value key =
        (primaryInfo (presenceOf (friendEntry r sh q (t, onlineId)))).value key) ∧
      (presenceOf body).value "onlineStatus" =
        (presenceOf (friendEntry r sh q (t, onlineId))).value "onlineStatus"

theorem jsonError_ne_ok {status : StatusCode} (h : status ≠ .ok) {code : ℕ} {message : String}
    {body : JsonObject} : WebResponse.json (jsonError status code message) ≠ .ok body := by
  intro heq
  simp only [WebResponse.ok, jsonError, jsonOk, WebResponse.json.injEq, Response.mk.injEq] at heq
  exact h heq.1

/-- An answer shows the target's entry and online status, as far as they are visible to the caller.
-/
theorem presenceAnswer_shows {body : JsonObject} (h : PresenceAnswer sh c t body) :
    primaryInfo (presenceOf body) = entryShown sh t (visibleTo sh c t) (sh.sameGame c t) ∧
      (presenceOf body).value "onlineStatus" =
        some (onlineStatus ((sh.clients.get? t).isSome && visibleTo sh c t)) := by
  obtain ⟨r, auth, userKey, hauth, rfl, rfl, htype, hdetail, hlang, hok⟩ := h
  have hbody : presenceOf body = presenceShown r sh auth.userId (presenceTarget r auth userKey)
      "primary" true (r.queryItemValue "platform") := by
    simp only [handlePresenceGet, hauth, htype, hdetail] at hok
    -- of the five answers only the last is a presence
    split at hok
    · exact absurd hok (jsonError_ne_ok (by decide))
    · split at hok
      · exact absurd hok (jsonError_ne_ok (by decide))
      · split at hok
        · exact absurd hok (jsonError_ne_ok (by decide))
        · split at hok
          · exact absurd hok (jsonError_ne_ok (by decide))
          · simp only [WebResponse.ok, jsonOk, WebResponse.json.injEq, Response.mk.injEq,
              Option.some.injEq, Json.obj.injEq, true_and] at hok
            rw [← hok]
            rfl
  rw [hbody]
  refine ⟨presenceShown_primary hlang _, ?_⟩
  unfold presenceShown visibleTo
  cases sh.clients.get? (presenceTarget r auth userKey) with
  | none => rfl
  | some e => rfl

/-- A profile that is asked for presence holds the profile's presence. -/
theorem presenceOf_buildProfile (r : UserRequest) (onlineId : String) {fields : List String}
    (h : fields.contains "presence" = true) :
    primaryInfo (presenceOf (buildProfile r sh t onlineId fields c)) = profilePresence sh c t := by
  have hvalue : (buildProfile r sh t onlineId fields c).value "presence" =
      some (.obj [("primaryInfo", .obj (profilePresence sh c t))]) := by
    unfold buildProfile
    simp only [JsonObject.value_ofFields, List.reverse_append, List.reverse_cons, List.reverse_nil,
      List.nil_append, List.cons_append]
    rw [List.find?_cons_of_pos (by simp only [h]; rfl)]
    rfl
  unfold presenceOf
  rw [hvalue]
  rfl

/-- An entry of a friend list holds the friend's presence. -/
theorem presenceOf_friendEntry (r : UserRequest) {q : FriendListQuery} (onlineId : String)
    (h : PrimaryQuery c q) :
    presenceOf (friendEntry r sh q (t, onlineId)) = friendPresence sh q t := by
  have hvalue : (friendEntry r sh q (t, onlineId)).value "presence" =
      some (.obj (friendPresence sh q t)) := by
    unfold friendEntry
    rw [JsonObject.value_ofFields, List.reverse_append]
    simp [h.want]
  unfold presenceOf
  rw [hvalue]
  rfl

/-- The caller knows all about himself: his game is known, or he has nothing to hide. -/
def SelfShown (sh : SharedState) (c : ℤ) : Prop :=
  ∀ e, sh.clients.get? c = some e →
    sh.comId c ≠ "" ∨ (e.appearOffline = false ∧ e.gameStatus = "")

theorem sameGame_self (h : sh.comId c ≠ "") : sh.sameGame c c = true := by
  simp [SharedState.sameGame, h]

/-- Where the caller knows all about himself the entries are the same. -/
theorem entryShown_self (h : SelfShown sh c) :
    entryShown sh c (visibleTo sh c c) (sh.sameGame c c) = entryShown sh c true true := by
  unfold entryShown visibleTo
  cases he : sh.clients.get? c with
  | none => rfl
  | some e =>
    rcases h e he with hgame | ⟨hvisible, hstatus⟩
    · simp [sameGame_self hgame]
    · simp [hvisible, hstatus]

/-- A user who asks for his own presence. -/
def asksForSelf (c : ℤ) : UserRequest where
  qt := .ascii
  auth := .ok ⟨c, "me"⟩
  clients _ := none
  getUserId _ := none
  fromJson _ := none
  uuid := ""
  now := 0
  order := .listed
  query item := if item = "type" then some "primary"
    else if item = "presenceDetail" then some "true" else none
  getUsername _ := none
  friends _ := []
  isoUtc _ := ""
  uuids _ := ""
  getAvatarUrl _ := none

theorem asksForSelf_answer (sh : SharedState) (c : ℤ) : ∃ body, PresenceAnswer sh c c body := by
  have hself : isSelf Qt.ascii ⟨c, "me"⟩ "me" = true := by
    unfold isSelf
    rw [show Qt.ascii.eqNoCase "me" "me" = true by decide]
    rfl
  have htarget : presenceTarget (asksForSelf c) ⟨c, "me"⟩ "me" = c := by
    unfold presenceTarget
    exact if_pos hself
  have hok : handlePresenceGet (asksForSelf c) "me" sh = .ok
      [("npId", .str (encodeNpId "me")),
        ("presence", .obj (presenceShown (asksForSelf c) sh c c "primary" true ""))] := by
    unfold handlePresenceGet
    simp only [show (asksForSelf c).auth = .ok ⟨c, "me"⟩ from rfl,
      show (asksForSelf c).qt = Qt.ascii from rfl, hself, htarget]
    rfl
  exact ⟨_, asksForSelf c, ⟨c, "me"⟩, "me", rfl, rfl, htarget, rfl, rfl, rfl, hok⟩

/-- The online status that an entry shows. -/
theorem makePresenceEntry_onlineStatus (online : Bool) (platform gs gd ti tn : String) :
    (makePresenceEntry online platform gs gd ti tn true false).value "onlineStatus" =
      some (onlineStatus online) := by
  unfold makePresenceEntry
  simp only [JsonObject.value_ofFields, List.reverse_cons, List.reverse_nil, List.nil_append,
    List.cons_append]
  rw [List.find?_cons_of_neg (by simp), List.find?_cons_of_neg (by simp),
    List.find?_cons_of_neg (by simp), List.find?_cons_of_neg (by simp),
    List.find?_cons_of_pos (by simp)]
  rfl

/-- The game status that an entry shows, unless it is empty. -/
theorem makePresenceEntry_gameStatus (platform gs gd ti tn : String) :
    (makePresenceEntry true platform gs gd ti tn true false).value "gameStatus" =
      if gs = "" then none else some (.str gs) := by
  unfold makePresenceEntry
  simp only [JsonObject.value_ofFields, List.reverse_cons, List.reverse_nil, List.nil_append,
    List.cons_append]
  rw [List.find?_cons_of_neg (by simp), List.find?_cons_of_neg (by simp)]
  by_cases hgs : gs = ""
  · rw [if_pos hgs, List.find?_cons_of_neg (by simp [hgs]), List.find?_cons_of_neg (by simp),
      List.find?_cons_of_neg (by simp)]
    rfl
  · rw [if_neg hgs, List.find?_cons_of_pos (by simp [hgs])]
    rfl

/-- If the routes agree on the caller, he is shown all about himself. -/
theorem PresenceAgrees.selfShown (h : PresenceAgrees sh c c) : SelfShown sh c := by
  intro e he
  by_contra hno
  rw [not_or, not_not, not_and] at hno
  obtain ⟨hgame, hhide⟩ := hno
  obtain ⟨body, hanswer⟩ := asksForSelf_answer sh c
  have hagree := h.profile body hanswer (asksForSelf c) "me" ["presence"] (by decide)
  rw [(presenceAnswer_shows hanswer).1, presenceOf_buildProfile _ _ (by decide),
    profilePresence_self] at hagree
  -- his profile shows everything, the answer what others see of one in no game
  have hsame : sh.sameGame c c = false := by simp [SharedState.sameGame, hgame]
  have hvisible : visibleTo sh c c = !e.appearOffline := by
    unfold visibleTo
    rw [hsame, he]
    rfl
  rw [hvisible, hsame] at hagree
  simp only [entryShown, he] at hagree
  cases hoff : e.appearOffline with
  | true =>
    have hstatus := hagree "onlineStatus" (by decide)
    rw [makePresenceEntry_onlineStatus, makePresenceEntry_onlineStatus, hoff] at hstatus
    simp [onlineStatus] at hstatus
  | false =>
    have hstatus := hagree "gameStatus" (by decide)
    rw [hoff, Bool.not_false, makePresenceEntry_gameStatus, makePresenceEntry_gameStatus] at hstatus
    simp [hhide hoff] at hstatus

/-- **Where the routes agree.** On every friend, and on the caller exactly when he is shown all
about himself. -/
theorem presence_agrees_iff (sh : SharedState) (c t : ℤ) :
    PresenceAgrees sh c t ↔ t ≠ c ∨ SelfShown sh c := by
  constructor
  · intro h
    by_cases ht : t = c
    · exact Or.inr (PresenceAgrees.selfShown (ht ▸ h))
    · exact Or.inl ht
  · intro hcond
    refine ⟨?_, ?_⟩
    · intro body hanswer r onlineId fields hfields key _
      rw [(presenceAnswer_shows hanswer).1, presenceOf_buildProfile r onlineId hfields]
      by_cases ht : t = c
      · subst ht
        rw [profilePresence_self, entryShown_self (hcond.resolve_left (not_not.mpr rfl))]
      · rw [profilePresence_other ht]
    · intro _ body hanswer r q onlineId hq
      obtain ⟨hprimary, honline⟩ := presenceAnswer_shows hanswer
      obtain ⟨hfriend, hstatus⟩ := friendPresence_primary sh t hq
      rw [presenceOf_friendEntry r onlineId hq]
      refine ⟨fun key _ => by rw [hprimary, hfriend], ?_⟩
      rw [honline, hstatus]

/-- A user who appears offline, before he has named his game. -/
def hiddenUser : SharedState :=
  { clients := (∅ : Table ℤ ClientEntry).set 1 { npid := "me", send := 1, appearOffline := true } }

/-- To himself he is offline by one route and online by another. -/
theorem hidden_from_himself : ¬ PresenceAgrees hiddenUser 1 1 := by
  intro h
  rcases h.selfShown _ (show hiddenUser.clients.get? 1 = some _ from rfl) with hgame | ⟨hoff, -⟩
  · exact hgame rfl
  · cases hoff

end ShadNet
