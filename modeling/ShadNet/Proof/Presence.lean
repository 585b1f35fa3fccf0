import ShadNet.Proof.JsonObject
import ShadNet.Proof.Relationship
import ShadNet.Spec.Presence

/-!
# Who appears offline

* `views_offline`: whoever appears offline is shown as offline to users outside his game, with
  nothing of what he plays, and no request tells him from one who is offline.
* `Json.Offline`: a body that shows nobody online.
-/

namespace ShadNet

open Lib

variable {sv : Services} {sh : SharedState} {t v : ℤ}

/-! ## Showing nobody online -/

/-- A member that says that a user is online, or what he plays. -/
def Telling (key : String) (value : Json) : Prop :=
  (key = "onlineStatus" ∧ value ≠ .str "offline") ∨
    key ∈ ["gameStatus", "gameData", "gameTitleInfo", "npTitleId", "titleName"]

/-- There is no such member in it, at any depth. -/
inductive Json.Offline : Json → Prop
  | null : Json.Offline .null
  | bool (b : Bool) : Json.Offline (.bool b)
  | num (n : ℚ) : Json.Offline (.num n)
  | str (s : String) : Json.Offline (.str s)
  | arr (l : List Json) (h : ∀ j ∈ l, j.Offline) : Json.Offline (.arr l)
  | obj (o : JsonObject) (h : ∀ m ∈ o, m.2.Offline) (hm : ∀ m ∈ o, ¬ Telling m.1 m.2) :
    Json.Offline (.obj o)

/-- The answer shows nobody as online. -/
def WebResponse.Offline : WebResponse → Prop
  | .json r => ∀ b ∈ r.body, b.Offline
  | .octets _ => True

/-- A field that may stand in an object that shows nobody online. -/
structure Discreet (f : Bool × String × Json) : Prop where
  value : f.1 = true → f.2.2.Offline
  member : f.1 = true → ¬ Telling f.2.1 f.2.2

theorem offline_obj {o : JsonObject} (h : ∀ m ∈ o, Discreet (true, m)) : Json.Offline (.obj o) :=
  .obj o (fun m hm => (h m hm).value rfl) fun m hm => (h m hm).member rfl

/-- An object of discreet fields shows nobody online. -/
theorem offline_ofFields {fields : List (Bool × String × Json)} (h : ∀ f ∈ fields, Discreet f) :
    Json.Offline (.obj (JsonObject.ofFields fields)) :=
  offline_obj fun _ hm => h _ (JsonObject.mem_ofFields hm)

theorem Discreet.unwanted (f : String × Json) : Discreet (false, f) := ⟨nofun, nofun⟩

/-- A field under another key is discreet if its value is. -/
theorem Discreet.of_key {b : Bool} {key : String} {value : Json} (hv : value.Offline)
    (hk : key ∉ ["onlineStatus", "gameStatus", "gameData", "gameTitleInfo", "npTitleId",
      "titleName"]) : Discreet (b, key, value) := by
  refine ⟨fun _ => hv, fun _ htell => hk ?_⟩
  rcases htell with ⟨rfl, -⟩ | hmem
  · exact List.mem_cons_self
  · exact List.mem_cons_of_mem _ hmem

theorem Discreet.onlineStatus : Discreet (true, "onlineStatus", onlineStatus false) :=
  ⟨fun _ => .str _, fun _ => by simp [Telling, ShadNet.onlineStatus]⟩

theorem Discreet.all_append {l l' : List (Bool × String × Json)} (h : ∀ f ∈ l, Discreet f)
    (h' : ∀ f ∈ l', Discreet f) : ∀ f ∈ l ++ l', Discreet f :=
  fun f hf => (List.mem_append.mp hf).elim (h f) (h' f)

theorem offline_arr_singleton {j : Json} (h : j.Offline) : Json.Offline (.arr [j]) :=
  .arr _ fun k hk => by rw [List.mem_singleton.mp hk]; exact h

/-- An entry that says offline shows nobody online. -/
theorem offline_presenceEntry (platform gs gd ti tn : String) (includeDetail forcePlatform : Bool) :
    Json.Offline (.obj (makePresenceEntry false platform gs gd ti tn includeDetail forcePlatform)) := by
  refine offline_ofFields fun f hf => ?_
  simp only [Bool.false_and, List.mem_cons, List.not_mem_nil, or_false] at hf
  rcases hf with rfl | rfl | rfl | rfl | rfl
  · exact .onlineStatus
  · exact .of_key (.str _) (by decide)
  · exact .unwanted _
  · exact .unwanted _
  · exact .unwanted _

/-- A presence built for someone offline says nowhere that he is online. -/
theorem offline_presence (type platform gs gd ti tn : String) (detail inSameGame : Bool)
    (platReq : String) :
    Json.Offline (.obj (makePresence type false platform gs gd ti tn detail inSameGame platReq)) := by
  have hlist : ∀ (p : Prop) [Decidable p] (e : JsonObject), Json.Offline (.obj e) →
      Json.Offline (.arr (if p then [.obj e] else [])) := by
    intro p _ e he
    split
    · exact offline_arr_singleton he
    · exact .arr _ nofun
  unfold makePresence
  split
  · refine offline_obj fun m hm => ?_
    simp only [List.mem_cons, List.not_mem_nil, or_false] at hm
    rcases hm with rfl | rfl
    · exact .onlineStatus
    · exact .of_key (hlist _ _ (offline_presenceEntry ..)) (by decide)
  · split
    · refine offline_obj fun m hm => ?_
      simp only [List.mem_cons, List.not_mem_nil, or_false] at hm
      rcases hm with rfl | rfl
      · exact .of_key (hlist _ _ (offline_presenceEntry ..)) (by decide)
      · exact .onlineStatus
    · refine offline_obj fun m hm => ?_
      simp only [List.mem_cons, List.not_mem_nil, or_false] at hm
      rcases hm with rfl | rfl
      · exact .onlineStatus
      · exact .of_key (offline_presenceEntry ..) (by decide)

/-! ## Views -/

/-- `t` is online, appears offline, and is not in the game of `v`. -/
structure HiddenFrom (sh : SharedState) (t v : ℤ) : Prop where
  ne : t ≠ v
  hidden : ∃ e, sh.clients.get? t = some e ∧ e.appearOffline = true
  apart : sh.comId v = "" ∨ sh.comId v ≠ sh.comId t

/-- Whoever is hidden is in another game. -/
theorem HiddenFrom.sameGame (h : HiddenFrom sh t v) : sh.sameGame v t = false := by
  unfold SharedState.sameGame
  rcases h.apart with hno | hother
  · simp [hno]
  · simp [hother]

/-- The state in which `t` really is offline. -/
def SharedState.without (sh : SharedState) (t : ℤ) : SharedState :=
  { sh with clients := sh.clients.del t }

/-- What `v` gets to see of `t`. -/
structure ViewsOffline (sh : SharedState) (t v : ℤ) : Prop where
  presence : ∀ (r : UserRequest) auth userKey, r.auth = .ok auth → auth.userId = v →
    presenceTarget r auth userKey = t → (handlePresenceGet r userKey sh).Offline
  friendList : ∀ (r : UserRequest) (q : FriendListQuery) onlineId, q.callerUserId = v →
    Json.Offline (.obj (friendEntry r sh q (t, onlineId)))
  profile : ∀ (r : UserRequest) onlineId fields,
    Json.Offline (.obj (buildProfile r sh t onlineId fields v))
  /-- No response depends on whether `t` is there. -/
  same : ∀ (r : UserRequest) auth (g : PresenceGet), r.auth = .ok auth → auth.userId = v →
    g.respond r sh = g.respond r (sh.without t)

/-- An offline presence is the same whatever is known of the user. -/
theorem makePresence_offline (type platform gs gd ti tn : String) (detail inSameGame : Bool)
    (platReq : String) : makePresence type false platform gs gd ti tn detail inSameGame platReq =
      makePresence type false "" "" "" "" "" detail false platReq := by
  unfold makePresence
  rfl

theorem makePresenceEntry_offline (platform gs gd ti tn : String) (detail : Bool) :
    makePresenceEntry false platform gs gd ti tn detail false =
      makePresenceEntry false "" "" "" "" "" detail false := rfl

section hidden

variable (h : HiddenFrom sh t v)

include h

/-- His presence is that of somebody who is offline. -/
theorem HiddenFrom.presenceShown (r : UserRequest) (type : String) (detail : Bool) (platReq : String) :
    presenceShown r sh v t type detail platReq =
      makePresence type false "" "" "" "" "" detail false platReq := by
  obtain ⟨e, he, hoff⟩ := h.hidden
  unfold ShadNet.presenceShown
  rw [he]
  simp only [h.sameGame, hoff, Bool.not_true, Bool.or_self, Bool.false_eq_true, if_false]
  exact makePresence_offline ..

/-- In friend lists, who hides from the caller is offline. -/
theorem HiddenFrom.effectiveOnline {q : FriendListQuery} (hq : q.callerUserId = v) :
    effectiveOnline sh q t = false := by
  obtain ⟨e, he, hoff⟩ := h.hidden
  unfold ShadNet.effectiveOnline onlineFriend
  rw [hq, h.sameGame, he]
  split
  · rfl
  · rename_i e' he'
    split at he'
    · obtain rfl := Option.some.inj he'
      rw [hoff]
      rfl
    · cases he'

/-- In a list of friends, who hides from the caller has an offline presence. -/
theorem HiddenFrom.friendPresence {q : FriendListQuery} (hq : q.callerUserId = v) :
    friendPresence sh q t =
      makePresence q.presenceType false "" "" "" "" "" q.presenceDetail false "" := by
  have honline := h.effectiveOnline hq
  unfold ShadNet.friendPresence
  rw [honline]
  cases onlineFriend sh q t <;> rfl

/-- In his profile, who hides from the caller has an offline presence. -/
theorem HiddenFrom.profilePresence :
    profilePresence sh v t = makePresenceEntry false "" "" "" "" "" true false := by
  obtain ⟨e, he, hoff⟩ := h.hidden
  unfold ShadNet.profilePresence
  rw [he]
  simp only [h.sameGame, hoff, h.ne.symm, decide_false, Bool.not_true, Bool.not_false, Bool.and_false,
    Bool.or_self, Bool.false_eq_true, if_false]
  exact makePresenceEntry_offline ..

/-! ### As if `t` were offline -/

omit h in
theorem without_clients (sh : SharedState) (t u : ℤ) :
    (sh.without t).clients.get? u = if u = t then none else sh.clients.get? u := Table.get?_del

/-- Presences are as they would be if he were not there. -/
theorem HiddenFrom.presenceShown_without (r : UserRequest) (u : ℤ) (type : String) (detail : Bool)
    (platReq : String) :
    ShadNet.presenceShown r sh v u type detail platReq =
      ShadNet.presenceShown r (sh.without t) v u type detail platReq := by
  by_cases hu : u = t
  · rw [hu, h.presenceShown]
    unfold ShadNet.presenceShown
    rw [without_clients, if_pos rfl]
  · unfold ShadNet.presenceShown
    rw [without_clients, if_neg hu]
    rfl

omit h in
theorem onlineFriend_without {q : FriendListQuery} {u : ℤ} (hu : u ≠ t) :
    onlineFriend (sh.without t) q u = onlineFriend sh q u := by
  unfold onlineFriend
  rw [without_clients, if_neg hu]

omit h in
theorem onlineFriend_without_self (q : FriendListQuery) : onlineFriend (sh.without t) q t = none := by
  unfold onlineFriend
  rw [without_clients, if_pos rfl, ite_self]

theorem HiddenFrom.effectiveOnline_without {q : FriendListQuery} (hq : q.callerUserId = v) :
    ShadNet.effectiveOnline sh q = ShadNet.effectiveOnline (sh.without t) q := by
  funext u
  by_cases hu : u = t
  · rw [hu, h.effectiveOnline hq]
    unfold ShadNet.effectiveOnline
    rw [onlineFriend_without_self]
  · unfold ShadNet.effectiveOnline
    rw [onlineFriend_without hu]
    rfl

theorem HiddenFrom.sameGameOf_without {q : FriendListQuery} (hq : q.callerUserId = v) :
    sameGameOf sh q = sameGameOf (sh.without t) q := by
  funext u
  unfold sameGameOf
  by_cases hu : u = t
  · rw [hu, onlineFriend_without_self, hq, h.sameGame]
    exact Bool.and_false _
  · rw [onlineFriend_without hu]
    rfl

/-- A filter leaves the same friends as if who hides were not online. -/
theorem HiddenFrom.listedFriends_without (qt : Qt) {q : FriendListQuery} (hq : q.callerUserId = v)
    (friends : List (ℤ × String)) :
    listedFriends qt sh q friends = listedFriends qt (sh.without t) q friends := by
  have hbefore : friendBefore qt sh q = friendBefore qt (sh.without t) q := by
    unfold friendBefore friendRank
    rw [h.effectiveOnline_without hq]
  unfold listedFriends sortFriends filterFriends
  rw [hbefore, h.effectiveOnline_without hq, h.sameGameOf_without hq]

theorem HiddenFrom.friendPresence_without {q : FriendListQuery} (hq : q.callerUserId = v) :
    ShadNet.friendPresence sh q = ShadNet.friendPresence (sh.without t) q := by
  funext u
  by_cases hu : u = t
  · rw [hu, h.friendPresence hq]
    unfold ShadNet.friendPresence
    rw [onlineFriend_without_self]
  · unfold ShadNet.friendPresence
    rw [h.sameGameOf_without hq, h.effectiveOnline_without hq, onlineFriend_without hu]

/-- The friend list is the same as if who hides were not online. -/
theorem HiddenFrom.buildFriendList_without (r : UserRequest) {q : FriendListQuery}
    (hq : q.callerUserId = v) (friends : List (ℤ × String)) :
    buildFriendList r sh q friends = buildFriendList r (sh.without t) q friends := by
  unfold buildFriendList friendEntry
  rw [h.listedFriends_without r.qt hq, h.friendPresence_without hq]

theorem HiddenFrom.profilePresence_without :
    ShadNet.profilePresence sh v = ShadNet.profilePresence (sh.without t) v := by
  funext u
  by_cases hu : u = t
  · rw [hu, h.profilePresence]
    unfold ShadNet.profilePresence
    rw [without_clients, if_pos rfl]
  · unfold ShadNet.profilePresence
    rw [without_clients, if_neg hu]
    rfl

/-- **Every answer** is as if he were not there. -/
theorem HiddenFrom.respond_without {r : UserRequest} {auth : AuthResult} (g : PresenceGet)
    (hauth : r.auth = .ok auth) (hcaller : auth.userId = v) :
    g.respond r sh = g.respond r (sh.without t) := by
  cases g with
  | presence userKey =>
    simp only [PresenceGet.respond, handlePresenceGet, hauth, hcaller, h.presenceShown_without]
  | friendList userKey =>
    simp only [PresenceGet.respond, handleFriendList, hauth]
    rw [h.buildFriendList_without r (q := friendListQuery r auth) hcaller]
  | profiles =>
    simp only [PresenceGet.respond, handleProfiles, buildProfiles, buildProfile, hauth, hcaller,
      h.profilePresence_without]
  | profile userKey =>
    simp only [PresenceGet.respond, handleProfile, buildProfile, hauth, hcaller,
      h.profilePresence_without]

/-! ### What is shown of `t` -/

omit h in
/-- Who somebody is says nothing of his being online. -/
theorem identityFields_discreet (r : UserRequest) (fields : List String) (userId : ℤ)
    (onlineId : String) (wantAvatar : Bool) :
    ∀ f ∈ identityFields r fields userId onlineId wantAvatar, Discreet f := by
  intro f hf
  simp only [identityFields, List.mem_cons, List.not_mem_nil, or_false] at hf
  rcases hf with rfl | rfl | rfl | rfl | rfl | rfl
  · refine .of_key (offline_obj fun m hm => ?_) (by decide)
    simp only [List.mem_cons, List.not_mem_nil, or_false] at hm
    rcases hm with rfl | rfl <;> exact .of_key (.str _) (by decide)
  · exact .of_key (.str _) (by decide)
  · exact .of_key (.str _) (by decide)
  · exact .of_key (.str _) (by decide)
  · refine .of_key (offline_obj fun m hm => ?_) (by decide)
    rw [List.mem_singleton.mp hm]
    exact .of_key (.str _) (by decide)
  · exact .of_key (.bool _) (by decide)

/-- His entry in a friend list shows him offline. -/
theorem HiddenFrom.friendEntry_offline (r : UserRequest) {q : FriendListQuery}
    (hq : q.callerUserId = v) (onlineId : String) :
    Json.Offline (.obj (friendEntry r sh q (t, onlineId))) := by
  unfold friendEntry
  refine offline_ofFields (Discreet.all_append (identityFields_discreet _ _ _ _ _) fun f hf => ?_)
  rw [List.mem_singleton.mp hf, h.friendPresence hq]
  exact .of_key (offline_presence ..) (by decide)

/-- His profile shows him offline. -/
theorem HiddenFrom.buildProfile_offline (r : UserRequest) (onlineId : String) (fields : List String) :
    Json.Offline (.obj (buildProfile r sh t onlineId fields v)) := by
  unfold buildProfile
  refine offline_ofFields (Discreet.all_append (identityFields_discreet _ _ _ _ _) fun f hf => ?_)
  simp only [List.mem_cons, List.not_mem_nil, or_false] at hf
  rcases hf with rfl | rfl | rfl
  · exact .of_key (.str _) (by decide)
  · exact .of_key (.arr _ nofun) (by decide)
  · refine .of_key (offline_obj fun m hm => ?_) (by decide)
    rw [List.mem_singleton.mp hm, h.profilePresence]
    exact .of_key (offline_presenceEntry ..) (by decide)

omit h in
theorem offline_jsonError (status : StatusCode) (code : ℕ) (message : String) :
    (WebResponse.json (jsonError status code message)).Offline := by
  intro b hb
  obtain rfl := Option.some.inj hb
  refine offline_obj fun m hm => ?_
  rw [List.mem_singleton.mp hm]
  refine .of_key (offline_obj fun m hm => ?_) (by decide)
  simp only [List.mem_cons, List.not_mem_nil, or_false] at hm
  rcases hm with rfl | rfl
  · exact .of_key (.num _) (by decide)
  · exact .of_key (.str _) (by decide)

/-- **The answer about him** shows him offline. -/
theorem HiddenFrom.presenceGet_offline {r : UserRequest} {auth : AuthResult} {userKey : String}
    (hauth : r.auth = .ok auth) (hcaller : auth.userId = v)
    (htarget : presenceTarget r auth userKey = t) : (handlePresenceGet r userKey sh).Offline := by
  simp only [handlePresenceGet, hauth, hcaller, htarget, h.presenceShown]
  split
  · exact offline_jsonError _ _ _
  · split
    · exact offline_jsonError _ _ _
    · split
      · exact offline_jsonError _ _ _
      · split
        · exact offline_jsonError _ _ _
        · intro b hb
          obtain rfl := Option.some.inj hb
          refine offline_obj fun m hm => ?_
          simp only [List.mem_cons, List.not_mem_nil, or_false] at hm
          rcases hm with rfl | rfl
          · exact .of_key (.str _) (by decide)
          · exact .of_key (offline_presence ..) (by decide)

/-- **The Web API hides those who appear offline.** -/
theorem views_offline : ViewsOffline sh t v where
  presence _ _ _ hauth hcaller htarget := h.presenceGet_offline hauth hcaller htarget
  friendList r _ onlineId hq := h.friendEntry_offline r hq onlineId
  profile r onlineId fields := h.buildProfile_offline r onlineId fields
  same _ _ g hauth hcaller := h.respond_without g hauth hcaller

end hidden

end ShadNet
