import ShadNet.Proof.FriendFailure
import ShadNet.Proof.FriendUpdates

/-!
# What the two of a friendship are told

* `friend_upToDate_iff`: a friend command leaves the lists right exactly when what it tells is so.
* `step_upToDate_iff`: one event, whatever it is.
* `friend_lists_iff`: **the lists of all clients are those of the table and of `clients`** along a run.
-/

namespace ShadNet

open Lib FriendStatus

variable {sv : Services} {s : Server} {w : FriendLists} {e : Event} {cs : CommandState} {env : Env}
  {c c' : ConnId} {session : ClientSession} {clients clients' : Table ℤ ClientEntry}
  {t : Friendship} {db : Database} {u v o x : ℤ} {npid name : String} {rel : RelStatus}

/-- A command that makes friends of two users, or ends that, tells them what is so. -/
structure FriendTold (s : Server) (c : ConnId) (info : ClientInfo) (name : String) (o : ℤ)
    (befriends : Bool) : Prop where
  /-- the caller is told on the connection that the command comes from, by the name in it -/
  own : ∀ c', s.Reached info.userId c' → c' = c ∧ getUsername s.db o = some name
  /-- and that a new friend is online, if he is -/
  caller : befriends = true → (∃ c', s.Reached info.userId c') → (s.shared.clients.get? o).isSome →
    shown s.shared.clients o = true
  /-- the other is told that the caller is online -/
  other : befriends = true → (∃ c', s.Reached o c') → shown s.shared.clients info.userId = true

/-- **What lists rest on.** No friend who is there sees a switch of Appear-Offline, and whoever a friend
command makes friends of, or ends that for, is told what is so. -/
def Announced (s : Server) : Event → Prop
  | .request c (.setAppearOffline (some enable)) _ => ∀ session, s.conns.get? c = some session →
      session.authenticated = true → SwitchUnseen s session enable
  | .request c (.friend command (some name)) _ => ∀ session o, s.conns.get? c = some session →
      session.authenticated = true → getUserId s.db name = some o → session.info.userId ≠ o →
      let rel := relStatus s.db.friendship session.info.userId o
      command.accepts rel = true → (command.written rel).areFriends ≠ rel.areFriends →
        FriendTold s c session.info name o (command.written rel).areFriends
  | _ => True

/-! ## The row of two users -/

/-- A row says of its two users whether they are friends, and nothing of others. -/
theorem areFriends_putRel (hne : u ≠ o) : (relStatus (putRel t u o rel) v x).areFriends =
    if rowIds v x = rowIds u o then rel.areFriends else (relStatus t v x).areFriends := by
  rw [Bool.eq_iff_iff, ← bothFriends_iff_areFriends, bothFriends_putRel hne]
  split
  · rfl
  · exact bothFriends_iff_areFriends

/-- Friends that are entered or taken out change nothing that is seen. -/
theorem appears_updateOnlineFriends (clients : Table ℤ ClientEntry) (info : ClientInfo)
    (command : FriendCommandType) (npid : String) (rel : RelResult) (d : RelDecision) :
    appears (updateOnlineFriends clients info command npid rel d) = appears clients := by
  have hadd : ∀ clients userId friendId npid,
      appears (addOnlineFriend clients userId friendId npid) = appears clients :=
    fun _ _ _ _ => appears_modify fun _ => rfl
  have hremove : ∀ clients userId friendId,
      appears (removeOnlineFriend clients userId friendId) = appears clients :=
    fun _ _ _ => appears_modify fun _ => rfl
  unfold updateOnlineFriends
  split
  · split
    · rw [hadd, hadd]
    · rfl
  · rw [hremove, hremove]
  · rw [hremove, hremove]
  · split
    · split
      · rw [hremove, hremove]
      · rfl
    · rfl
  · rfl

/-- A friend command of the user on a connection that writes the row of the two. -/
structure WritesPair (sv : Services) (s : Server) (e : Event) (c : ConnId) (session : ClientSession)
    (name : String) (o : ℤ) (rel : RelStatus) : Prop where
  conn : s.conns.get? c = some session
  auth : session.authenticated = true
  found : getUserId s.db name = some o
  ne : session.info.userId ≠ o
  accounts : (s.step sv e).db.accounts = s.db.accounts
  friendship : (s.step sv e).db.friendship = putRel s.db.friendship session.info.userId o rel
  appears : appears (s.step sv e).shared.clients = appears s.shared.clients
  reached : ∀ v c', (s.step sv e).Reached v c' ↔ s.Reached v c'
  given : ∀ c', s.listGiven sv e c' = none

section pair

variable (hp : WritesPair sv s e c session name o rel)

include hp

theorem WritesPair.named (npid : String) : (s.step sv e).db.named npid = s.db.named npid := by
  unfold Database.named
  rw [hp.accounts]

/-- The flags of the two change with the row. -/
theorem WritesPair.flag (hx : s.db.named npid = some x)
    (hpair : rowIds v x = rowIds session.info.userId o) : (s.step sv e).friendFlag v npid =
      if rel.areFriends then some (shown s.shared.clients x) else none := by
  rw [friendFlag_named ((hp.named npid).trans hx)]
  unfold friendState
  rw [hp.friendship, areFriends_putRel hp.ne, if_pos hpair, shown_congr (congrFun hp.appears x)]

/-- All others stay, and theirs too if they are friends as before. -/
theorem WritesPair.flag_same (hpair : ∀ x, s.db.named npid = some x →
      rowIds v x = rowIds session.info.userId o →
        rel.areFriends = (relStatus s.db.friendship session.info.userId o).areFriends) :
    (s.step sv e).friendFlag v npid = s.friendFlag v npid := by
  unfold Server.friendFlag
  rw [hp.named]
  refine Option.bind_congr fun x hx => friendState_congr ?_ (shown_congr (congrFun hp.appears x))
  rw [hp.friendship, areFriends_putRel hp.ne]
  split
  · rename_i hids
    rw [hpair x hx hids]
    rcases rowIds_eq_iff.mp hids with ⟨rfl, rfl⟩ | ⟨rfl, rfl⟩
    · rfl
    · exact areFriends_comm
  · rfl

/-- Where nothing is said, nothing has changed. -/
theorem WritesPair.silent
    (hkeep : rel.areFriends = (relStatus s.db.friendship session.info.userId o).areFriends)
    (hsent : ∀ m ∈ s.sent sv e, m.notification.message? = none) : Silent sv s e :=
  ⟨fun v c' hv => (hp.reached v c').mp hv, fun _ _ => hp.flag_same fun _ _ _ => hkeep, hsent, hp.given⟩

end pair

/-! ## What both are told -/

/-- The caller is told on his connection, and the other wherever he is. -/
structure TellsBoth (s : Server) (sent : List Sent) (c : ConnId) (o : ℤ)
    (first second : Message String Bool) : Prop where
  caller : ∃ m ∈ sent, m.conn = c ∧ m.notification.message? = some first
  other : ∀ c', s.Reached o c' → ∃ m ∈ sent, m.conn = c' ∧ m.notification.message? = some second
  only : ∀ m ∈ sent, (m.conn = c ∧ m.notification.message? = some first) ∨
    ((∃ entry, s.shared.clients.get? o = some entry ∧ m.conn = entry.send) ∧
      m.notification.message? = some second)

/-- A message on the caller's connection and one to the other are what both are told. -/
theorem tellsBoth (s : Server) (c : ConnId) (u o : ℤ) {n n' : Notification}
    {first second : Message String Bool} (hn : n.message? = some first) (hn' : n'.message? = some second) :
    TellsBoth s (⟨u, c, o, n⟩ :: sendNotification s.shared o u fun _ => n') c o first second := by
  refine ⟨⟨_, List.mem_cons_self, rfl, hn⟩, fun c' hv => ?_, fun m hm => ?_⟩
  · obtain ⟨-, entry, hentry, hsend⟩ := hv
    refine ⟨⟨o, entry.send, u, n'⟩, List.mem_cons_of_mem _ ?_, hsend, hn'⟩
    simp [sendNotification, hentry]
  · rcases List.mem_cons.mp hm with rfl | hmem
    · exact Or.inl ⟨rfl, hn⟩
    · obtain ⟨entry, hentry, rfl⟩ := Option.map_eq_some_iff.mp (Option.mem_toList.mp hmem)
      exact Or.inr ⟨⟨entry, hentry, rfl⟩, hn'⟩

section both

variable {first second : Update Bool} (h : ListsInv s) (hp : WritesPair sv s e c session name o rel)
  (ht : TellsBoth s (s.sent sv e) c o ⟨name, first⟩ ⟨session.info.npid, second⟩)

include h hp ht

/-- The caller hears of the name in his command. -/
theorem TellsBoth.hears_caller (hv : s.Reached session.info.userId c') (old : Option Bool) :
    hears sv s e c' npid old = if c' = c ∧ npid = name then first.apply old else old := by
  by_cases hkey : c' = c ∧ npid = name
  · obtain ⟨rfl, rfl⟩ := hkey
    rw [if_pos ⟨rfl, rfl⟩]
    refine hears_same (fun m hm message hsome hconn _ => ?_) ht.caller
    rcases ht.only m hm with ⟨-, hfirst⟩ | ⟨hother, -⟩
    · rw [← Option.some.inj (hfirst.symm.trans hsome)]
    · obtain ⟨entry, hentry, hsend⟩ := hother
      exact absurd (h.owned.of_send hv hentry (hsend.symm.trans hconn)) hp.ne
  · rw [if_neg hkey]
    refine hears_none fun m hm message hsome hconn hname => hkey ?_
    rcases ht.only m hm with ⟨hc, hfirst⟩ | ⟨hother, -⟩
    · rw [← Option.some.inj (hfirst.symm.trans hsome)] at hname
      exact ⟨hconn.symm.trans hc, hname.symm⟩
    · obtain ⟨entry, hentry, hsend⟩ := hother
      exact absurd (h.owned.of_send hv hentry (hsend.symm.trans hconn)) hp.ne

/-- The other hears of the caller, under his npid. -/
theorem TellsBoth.hears_other (hv : s.Reached o c') (old : Option Bool) :
    hears sv s e c' npid old = if npid = session.info.npid then second.apply old else old := by
  -- he is not on the connection of the caller
  have hne : c' ≠ c := by
    rintro rfl
    exact hp.ne (h.owned.caller hp.conn hp.auth hv).symm
  by_cases hkey : npid = session.info.npid
  · subst hkey
    rw [if_pos rfl]
    refine hears_same (fun m hm message hsome hconn _ => ?_) (ht.other c' hv)
    rcases ht.only m hm with ⟨hc, -⟩ | ⟨-, hsecond⟩
    · exact absurd (hconn.symm.trans hc) hne
    · rw [← Option.some.inj (hsecond.symm.trans hsome)]
  · rw [if_neg hkey]
    refine hears_none fun m hm message hsome hconn hname => ?_
    rcases ht.only m hm with ⟨hc, -⟩ | ⟨-, hsecond⟩
    · exact hne (hconn.symm.trans hc)
    · rw [← Option.some.inj (hsecond.symm.trans hsome)] at hname
      exact hkey hname.symm

/-- A command that tells its two users tells no other user anything. -/
theorem TellsBoth.hears_others (hv : s.Reached v c') (hvu : v ≠ session.info.userId) (hvo : v ≠ o)
    (old : Option Bool) : hears sv s e c' npid old = old := by
  refine hears_none fun m hm message hsome hconn _ => ?_
  rcases ht.only m hm with ⟨hc, -⟩ | ⟨hother, -⟩
  · obtain rfl := hconn.symm.trans hc
    exact hvu (h.owned.caller hp.conn hp.auth hv)
  · obtain ⟨entry, hentry, hsend⟩ := hother
    exact hvo (h.owned.of_send hv hentry (hsend.symm.trans hconn))

end both

/-! ## Whether it is so -/

section both

variable {first second : Update Bool} (h : ListsInv w.server)
  (hp : WritesPair sv w.server e c session name o rel)
  (ht : TellsBoth w.server (w.server.sent sv e) c o ⟨name, first⟩ ⟨session.info.npid, second⟩)
  (hw : w.UpToDate)

include h hp ht hw

/-- **The list of the caller**, if the two are no longer friends, or have become so. -/
theorem TellsBoth.caller_iff (hv : w.server.Reached session.info.userId c')
    (hchange : rel.areFriends ≠
      (relStatus w.server.db.friendship session.info.userId o).areFriends) :
    Mirrors ((w.step sv e).lists c') ((w.server.step sv e).friendFlag session.info.userId) ↔
      (c' = c ∧ getUsername w.server.db o = some name) ∧
        first.apply (friendState w.server.db.friendship w.server.shared.clients session.info.userId o) =
          if rel.areFriends then some (shown w.server.shared.clients o) else none := by
  have hids : ∀ {k}, w.server.db.named k = some o →
      (w.server.step sv e).friendFlag session.info.userId k =
        if rel.areFriends then some (shown w.server.shared.clients o) else none :=
    fun hk => hp.flag hk rfl
  rw [hear_iff (hw _ c' hv) (hp.given c')]
  simp only [ht.hears_caller h hp hv]
  constructor
  · intro hall
    obtain ⟨n, hn⟩ := Option.isSome_iff_exists.mp (getUserId_named hp.found)
    have hnamed := h.named.mpr hn
    have hone := hall n
    rw [hids hnamed, friendFlag_named hnamed] at hone
    split at hone
    · rename_i hkey
      obtain ⟨rfl, rfl⟩ := hkey
      exact ⟨⟨rfl, hn⟩, hone⟩
    · -- nothing was said of him, so that nothing has changed
      refine absurd ?_ hchange
      unfold friendState at hone
      cases hnow : rel.areFriends <;>
        cases hold : (relStatus w.server.db.friendship session.info.userId o).areFriends <;>
        simp [hnow, hold] at hone ⊢
  · rintro ⟨⟨rfl, hn⟩, hone⟩ k
    have hnamed := h.named.mpr hn
    by_cases hk : k = name
    · rw [if_pos ⟨rfl, hk⟩, hk, hids hnamed, friendFlag_named hnamed, hone]
    · rw [if_neg fun hkey => hk hkey.2]
      refine (hp.flag_same fun x hx hpair => ?_).symm
      rcases rowIds_eq_iff.mp hpair with ⟨-, rfl⟩ | ⟨hu, -⟩
      · exact absurd (Option.some.inj ((h.named.mp hx).symm.trans hn)) hk
      · exact absurd hu hp.ne

/-- **The list of the other user** is right afterwards if and only if the message to him says what
is so. -/
theorem TellsBoth.other_iff (hv : w.server.Reached o c') :
    Mirrors ((w.step sv e).lists c') ((w.server.step sv e).friendFlag o) ↔
      second.apply (friendState w.server.db.friendship w.server.shared.clients o session.info.userId) =
        if rel.areFriends then some (shown w.server.shared.clients session.info.userId) else none := by
  have hnamed := h.caller_named hp.conn hp.auth
  have hflag : (w.server.step sv e).friendFlag o session.info.npid =
      if rel.areFriends then some (shown w.server.shared.clients session.info.userId) else none :=
    hp.flag hnamed (rowIds_eq_iff.mpr (Or.inr ⟨rfl, rfl⟩))
  rw [hear_iff (hw _ c' hv) (hp.given c')]
  simp only [ht.hears_other h hp hv]
  constructor
  · intro hall
    have hone := hall session.info.npid
    rwa [if_pos rfl, hflag, friendFlag_named hnamed] at hone
  · intro hone k
    by_cases hk : k = session.info.npid
    · rw [if_pos hk, hk, hflag, friendFlag_named hnamed, hone]
    · rw [if_neg hk]
      refine (hp.flag_same fun x hx hpair => ?_).symm
      rcases rowIds_eq_iff.mp hpair with ⟨ho, -⟩ | ⟨-, rfl⟩
      · exact absurd ho.symm hp.ne
      · exact absurd (Option.some.inj ((h.named.mp hx).symm.trans (h.named.mp hnamed))) hk

/-- The list of anybody else. -/
theorem TellsBoth.others (hv : w.server.Reached v c') (hvu : v ≠ session.info.userId) (hvo : v ≠ o) :
    Mirrors ((w.step sv e).lists c') ((w.server.step sv e).friendFlag v) := by
  refine (hear_iff (hw _ c' hv) (hp.given c')).mpr fun k => ?_
  rw [ht.hears_others h hp hv hvu hvo]
  refine (hp.flag_same fun x _ hpair => ?_).symm
  rcases rowIds_eq_iff.mp hpair with ⟨rfl, -⟩ | ⟨rfl, -⟩
  · exact absurd rfl hvu
  · exact absurd rfl hvo

/-- **The lists of all**, if the two are no longer friends, or have become so. -/
theorem TellsBoth.upToDate_iff (hchange : rel.areFriends ≠
      (relStatus w.server.db.friendship session.info.userId o).areFriends) :
    (w.step sv e).UpToDate ↔
      (∀ c', w.server.Reached session.info.userId c' →
        (c' = c ∧ getUsername w.server.db o = some name) ∧ first.apply
          (friendState w.server.db.friendship w.server.shared.clients session.info.userId o) =
            if rel.areFriends then some (shown w.server.shared.clients o) else none) ∧
      ∀ c', w.server.Reached o c' → second.apply
        (friendState w.server.db.friendship w.server.shared.clients o session.info.userId) =
          if rel.areFriends then some (shown w.server.shared.clients session.info.userId) else none := by
  constructor
  · intro hnew
    refine ⟨fun c' hv => ?_, fun c' hv => ?_⟩
    · exact (ht.caller_iff h hp hw hv hchange).mp (hnew _ c' ((hp.reached _ c').mpr hv))
    · exact (ht.other_iff h hp hw hv).mp (hnew o c' ((hp.reached o c').mpr hv))
  · rintro ⟨hcaller, hother⟩ v c' hnew
    have hv := (hp.reached v c').mp hnew
    by_cases hvu : v = session.info.userId
    · subst hvu
      exact (ht.caller_iff h hp hw hv hchange).mpr (hcaller c' hv)
    · by_cases hvo : v = o
      · subst hvo
        exact (ht.other_iff h hp hw hv).mpr (hother c' hv)
      · exact ht.others h hp hw hv hvu hvo

end both

/-- **A new friendship** is told as it is. -/
theorem friendNew_iff (h : ListsInv w.server) (hp : WritesPair sv w.server e c session name o rel)
    (ht : TellsBoth w.server (w.server.sent sv e) c o
      ⟨name, .put (w.server.shared.clients.get? o).isSome⟩ ⟨session.info.npid, .put true⟩)
    (hw : w.UpToDate) (hnow : rel.areFriends = true)
    (hold : (relStatus w.server.db.friendship session.info.userId o).areFriends = false) :
    (w.step sv e).UpToDate ↔ FriendTold w.server c session.info name o true := by
  rw [ht.upToDate_iff h hp hw (by rw [hnow, hold]; decide), hnow]
  simp only [if_true, Update.apply, Option.some.injEq]
  constructor
  · rintro ⟨hcaller, hother⟩
    refine ⟨fun c' hv => (hcaller c' hv).1, fun _ hthere hon => ?_, fun _ hthere => ?_⟩
    · obtain ⟨c', hv⟩ := hthere
      exact (hcaller c' hv).2.symm.trans hon
    · obtain ⟨c', hv⟩ := hthere
      exact (hother c' hv).symm
  · intro htold
    refine ⟨fun c' hv => ⟨htold.own c' hv, ?_⟩, fun c' hv => (htold.other rfl ⟨c', hv⟩).symm⟩
    cases hon : (w.server.shared.clients.get? o).isSome with
    | true => exact (htold.caller rfl ⟨c', hv⟩ hon).symm
    | false => exact (shown_of_none (by simpa using hon)).symm

/-- **The end of a friendship** is told to the caller on his connection, or not at all. -/
theorem friendLost_iff (h : ListsInv w.server) (hp : WritesPair sv w.server e c session name o rel)
    (ht : TellsBoth w.server (w.server.sent sv e) c o ⟨name, .drop⟩ ⟨session.info.npid, .drop⟩)
    (hw : w.UpToDate) (hnow : rel.areFriends = false)
    (hold : (relStatus w.server.db.friendship session.info.userId o).areFriends = true) :
    (w.step sv e).UpToDate ↔ FriendTold w.server c session.info name o false := by
  rw [ht.upToDate_iff h hp hw (by rw [hnow, hold]; decide), hnow]
  simp only [Bool.false_eq_true, if_false, Update.apply, and_true, implies_true]
  exact ⟨fun hown => ⟨hown, fun hno => absurd hno (by decide), fun hno => absurd hno (by decide)⟩,
    fun htold => htold.own⟩

/-- Where there was none, its end changes no list. -/
theorem friendLost_idle (h : ListsInv w.server) (hp : WritesPair sv w.server e c session name o rel)
    (ht : TellsBoth w.server (w.server.sent sv e) c o ⟨name, .drop⟩ ⟨session.info.npid, .drop⟩)
    (hw : w.UpToDate) (hnow : rel.areFriends = false)
    (hold : (relStatus w.server.db.friendship session.info.userId o).areFriends = false) :
    (w.step sv e).UpToDate := by
  have hnone : friendState w.server.db.friendship w.server.shared.clients session.info.userId o = none := by
    unfold friendState
    rw [hold]
    rfl
  intro v c' hnew
  have hv := (hp.reached v c').mp hnew
  by_cases hvu : v = session.info.userId
  · subst hvu
    refine (hear_iff (hw _ c' hv) (hp.given c')).mpr fun k => ?_
    rw [ht.hears_caller h hp hv, hp.flag_same fun _ _ _ => hnow.trans hold.symm]
    split
    · -- however he is spelled, he was not in the list
      rename_i hkey
      rw [hkey.2]
      cases hnamed : w.server.db.named name with
      | none => exact (friendFlag_unnamed hnamed).symm
      | some x =>
        rw [friendFlag_named hnamed, named_of_found h.names hp.found hnamed]
        exact hnone.symm
    · rfl
  · by_cases hvo : v = o
    · subst hvo
      refine (ht.other_iff h hp hw hv).mpr ?_
      rw [hnow]
      rfl
    · exact ht.others h hp hw hv hvu hvo

/-! ## Friend commands -/

/-- **What a friend command that goes through tells.** -/
theorem friendSent_cases (s : Server) (c : ConnId) (info : ClientInfo) {k : FriendCommandType}
    (name : String) (hrel : relStatus s.db.friendship info.userId o = rel) (hacc : k.accepts rel = true) :
    let sent := friendSent s.shared c info k name (getRelStatus s.db.friendship info.userId o true)
      (k.decision o (.ok rel))
    ((∀ m ∈ sent, m.notification.message? = none) ∧ (k.written rel).areFriends = rel.areFriends) ∨
    (TellsBoth s sent c o ⟨name, .drop⟩ ⟨info.npid, .drop⟩ ∧ (k.written rel).areFriends = false) ∨
    (TellsBoth s sent c o ⟨name, .put (s.shared.clients.get? o).isSome⟩ ⟨info.npid, .put true⟩ ∧
      (k.written rel).areFriends = true ∧ rel.areFriends = false) := by
  intro sent
  simp only [sent]
  rw [decision_of_accepts hacc]
  cases k with
  | addFriend =>
    simp only [friendSent, FriendCommandType.written]
    by_cases hother : has rel.other friend = true
    · refine Or.inr (Or.inr ⟨?_, ?_, ?_⟩)
      · rw [if_pos hother]
        exact tellsBoth s c info.userId o rfl rfl
      · rw [RelStatus.areFriends, hother, has_or_self (by decide)]
        rfl
      · simp only [FriendCommandType.accepts, Bool.and_eq_true, Bool.not_eq_true'] at hacc
        rw [RelStatus.areFriends, hacc.2, Bool.false_and]
    · refine Or.inl ⟨fun m hm => ?_, ?_⟩
      · rw [if_neg hother] at hm
        obtain ⟨entry, -, rfl⟩ := Option.map_eq_some_iff.mp (Option.mem_toList.mp hm)
        rfl
      · simp [RelStatus.areFriends, hother]
  | removeFriend =>
    have hwritten : (FriendCommandType.written .removeFriend rel).areFriends = false := by
      simp [RelStatus.areFriends, FriendCommandType.written, has_clear_self]
    refine Or.inr (Or.inl ⟨?_, hwritten⟩)
    simp only [setOrDelete]
    split <;> exact tellsBoth s c info.userId o rfl rfl
  | addBlock =>
    have hwritten : (FriendCommandType.written .addBlock rel).areFriends = false := by
      simp [RelStatus.areFriends, FriendCommandType.written, has_clear_self]
    rcases getRelStatus_cases s.db.friendship info.userId o with hget | ⟨hget, hzero⟩
    · rw [hget, hrel]
      simp only [friendSent]
      by_cases hboth : (has rel.caller friend && has rel.other friend) = true
      · rw [if_pos hboth]
        exact Or.inr (Or.inl ⟨tellsBoth s c info.userId o rfl rfl, hwritten⟩)
      · rw [if_neg hboth]
        refine Or.inl ⟨fun m hm => absurd hm List.not_mem_nil, ?_⟩
        rw [hwritten, RelStatus.areFriends, Bool.eq_false_iff.mpr hboth]
    · rw [hget]
      refine Or.inl ⟨fun m hm => absurd hm List.not_mem_nil, ?_⟩
      rw [hwritten, ← hrel, hzero]
      rfl
  | removeBlock =>
    refine Or.inl ⟨fun m hm => ?_, ?_⟩
    · simp only [setOrDelete] at hm
      split at hm <;> cases hm
    · simp only [RelStatus.areFriends, FriendCommandType.written]
      rw [has_clear (by decide)]

/-- A command that passes its checks goes through, if the database does. -/
theorem apply_passes {getUserId : String → Option ℤ} {cmd : FriendCommand}
    (h : cmd.Passes getUserId t o) (hread : cmd.readOk = true) (hwrite : cmd.writeOk = true) :
    cmd.decide getUserId t = cmd.command.decision o (.ok (relStatus t cmd.userId o)) ∧
      cmd.apply (cmd.decide getUserId t) t =
        (putRel t cmd.userId o (cmd.command.written (relStatus t cmd.userId o)), .noError) := by
  obtain ⟨npid, hname, hid⟩ := Option.bind_eq_some_iff.mp h.found
  have hacc := h.accepts
  rw [FriendCommand.read, if_pos hread] at hacc
  have hd : cmd.decide getUserId t = cmd.command.decision o (.ok (relStatus t cmd.userId o)) := by
    rw [FriendCommand.decide_eq]
    unfold relDecision
    simp only [hname, hid]
    rw [if_neg (Ne.symm h.ne), hread, getRelStatus_ok]
  exact ⟨hd, by rw [hd, decision_written hacc, apply_setOrDelete, if_pos hwrite]⟩

/-- The checks of a command, once its row could be read. -/
theorem friendCommand_passes_iff {command : FriendCommandType} (hread : env.readOk = true) :
    (friendCommand env cs command (some name)).Passes (getUserId db) t o ↔
      getUserId db name = some o ∧ cs.session.info.userId ≠ o ∧
        command.accepts (relStatus t cs.session.info.userId o) = true := by
  have hreads : (friendCommand env cs command (some name)).read t o =
      relStatus t cs.session.info.userId o := if_pos hread
  constructor
  · intro h
    exact ⟨h.found, h.ne, hreads ▸ h.accepts⟩
  · rintro ⟨hfound, hne, hacc⟩
    exact ⟨hfound, hne, hreads.symm ▸ hacc⟩

/-- A command that is refused tells nobody. -/
theorem friend_refused_silent {command : FriendCommandType} {npid : Option String}
    (hc : s.conns.get? c = some session) (hauth : session.authenticated = true)
    (hno : ∀ o, ¬ (friendCommand env ⟨s.db, s.shared, session⟩ command npid).Passes (getUserId s.db)
      s.db.friendship o) :
    Silent sv s (.request c (.friend command npid) env) := by
  rcases apply_cases (getUserId s.db) (friendCommand env ⟨s.db, s.shared, session⟩ command npid)
    s.db.friendship with ⟨hsame, herr⟩ | ⟨o, hpass, -⟩
  · refine silent_of_same hc ?_ (fun m hm => ?_) fun c' => rfl
    · simp only [dispatchCommand, hauth, if_true]
      rw [cmdFriend_refused hsame herr]
    · simp only [Server.sent, hc, commandSent, hauth, if_true, cmdFriendSent] at hm
      unfold friendCommand at herr
      rw [if_neg herr] at hm
      cases hm
  · exact absurd hpass (hno o)

/-- A command that passes its checks writes the row of the two. -/
theorem friend_writes {command : FriendCommandType} (hc : s.conns.get? c = some session)
    (hauth : session.authenticated = true) (hread : env.readOk = true) (hwrite : env.writeOk = true)
    (hpass : (friendCommand env ⟨s.db, s.shared, session⟩ command (some name)).Passes (getUserId s.db)
      s.db.friendship o) :
    WritesPair sv s (.request c (.friend command (some name)) env) c session name o
      (command.written (relStatus s.db.friendship session.info.userId o)) := by
  obtain ⟨hd, happly⟩ := apply_passes hpass hread hwrite
  unfold friendCommand at happly
  have hid : getUserId s.db name = some o := hpass.found
  have hq : Quiet ⟨s.db, s.shared, session⟩ (dispatchCommand sv env c ⟨s.db, s.shared, session⟩
      (.friend command (some name))) := dispatch_quiet rfl
  refine ⟨hc, hauth, hid, hpass.ne, ?_, ?_, ?_, fun v c' => ?_, fun c' => rfl⟩
  · simp only [Server.step, hc, dispatchCommand, hauth, if_true, cmdFriend]
  · simp only [Server.step, hc, dispatchCommand, hauth, if_true, cmdFriend]
    rw [happly]
  · simp only [Server.step, hc, dispatchCommand, hauth, if_true, cmdFriend]
    split
    · exact appears_updateOnlineFriends ..
    · rfl
  · refine reached_congr ?_ ?_ <;> simp only [Server.step, hc]
    exact hq.online.entry

/-- A friend command whose decision passes sends what the row before and the decision say. -/
theorem friend_sent {command : FriendCommandType} (hc : s.conns.get? c = some session)
    (hauth : session.authenticated = true) (hread : env.readOk = true) (hwrite : env.writeOk = true)
    (hpass : (friendCommand env ⟨s.db, s.shared, session⟩ command (some name)).Passes (getUserId s.db)
      s.db.friendship o) :
    s.sent sv (.request c (.friend command (some name)) env) =
      friendSent s.shared c session.info command name
        (getRelStatus s.db.friendship session.info.userId o true)
        (command.decision o (.ok (relStatus s.db.friendship session.info.userId o))) := by
  obtain ⟨hd, happly⟩ := apply_passes hpass hread hwrite
  have hid : getUserId s.db name = some o := hpass.found
  unfold friendCommand at hd happly
  simp only [Server.sent, hc, commandSent, hauth, if_true, cmdFriendSent]
  rw [happly, if_pos rfl, hd]
  simp only [Option.getD_some, hid, hread]

/-- **A friend command** leaves all lists right if and only if it announces what it changes. -/
theorem friend_upToDate_iff {command : FriendCommandType} {npid : Option String}
    (h : ListsInv w.server) (hc : w.server.conns.get? c = some session)
    (hauth : session.authenticated = true)
    (he : Event.KeepsAccounts (.request c (.friend command npid) env)) (hw : w.UpToDate) :
    (w.step sv (.request c (.friend command npid) env)).UpToDate ↔
      Announced w.server (.request c (.friend command npid) env) := by
  obtain ⟨-, hread, hwrite⟩ := he
  cases npid with
  | none =>
    refine iff_of_true ((friend_refused_silent hc hauth fun o hpass => ?_).upToDate hw) trivial
    have hfound := hpass.found
    cases hfound
  | some name =>
    by_cases hpass : ∃ o, (friendCommand env ⟨w.server.db, w.server.shared, session⟩ command
        (some name)).Passes (getUserId w.server.db) w.server.db.friendship o
    · obtain ⟨o, hpass⟩ := hpass
      have hacc := ((friendCommand_passes_iff hread).mp hpass).2.2
      have hp : WritesPair sv w.server _ c session name o _ := friend_writes hc hauth hread hwrite hpass
      have hsent : w.server.sent sv _ = _ := friend_sent hc hauth hread hwrite hpass
      -- what is asked of the event, with the other account at hand
      have hasked : Announced w.server (.request c (.friend command (some name)) env) ↔
          ((command.written (relStatus w.server.db.friendship session.info.userId o)).areFriends ≠
              (relStatus w.server.db.friendship session.info.userId o).areFriends →
            FriendTold w.server c session.info name o
              (command.written (relStatus w.server.db.friendship session.info.userId o)).areFriends) := by
        constructor
        · exact fun hann => hann session o hc hauth hp.found hp.ne hacc
        · intro htold session' o' hc' _ hid' _ rel _
          obtain rfl := Option.some.inj (hc.symm.trans hc')
          obtain rfl := Option.some.inj (hp.found.symm.trans hid')
          exact htold
      rw [hasked]
      have hcases := friendSent_cases w.server c session.info name rfl hacc
      rw [← hsent] at hcases
      rcases hcases with ⟨hquiet, hkeep⟩ | ⟨htold, hnow⟩ | ⟨htold, hnow, hold⟩
      · exact iff_of_true ((hp.silent hkeep hquiet).upToDate hw) fun hne => absurd hkeep hne
      · cases hold : (relStatus w.server.db.friendship session.info.userId o).areFriends with
        | false =>
          exact iff_of_true (friendLost_idle h hp htold hw hnow hold) fun hne => absurd hnow hne
        | true => rw [friendLost_iff h hp htold hw hnow hold, hnow]; simp
      · rw [friendNew_iff h hp htold hw hnow hold, hnow, hold]
        simp
    · refine iff_of_true ((friend_refused_silent hc hauth (not_exists.mp hpass)).upToDate hw) ?_
      intro session' o hc' _ hid hne rel hacc
      obtain rfl := Option.some.inj (hc.symm.trans hc')
      exact absurd ⟨o, (friendCommand_passes_iff hread).mpr ⟨hid, hne, hacc⟩⟩ hpass

/-! ## Runs -/

/-- Before a login nothing has to be announced. -/
theorem announced_of_idle {cmd : Command} (h : ∀ session, s.conns.get? c = some session →
    ¬ session.authenticated = true) : Announced s (.request c cmd env) := by
  cases cmd with
  | setAppearOffline req =>
    cases req with
    | none => trivial
    | some enable => exact fun session hc hauth => absurd hauth (h session hc)
  | friend command npid =>
    cases npid with
    | none => trivial
    | some name => exact fun session o hc hauth => absurd hauth (h session hc)
  | _ => trivial

theorem login_all (h : ListsInv w.server) {req : Option LoginRequest}
    (hc : w.server.conns.get? c = some session) (hread : env.readOk = true)
    (honce : w.server.LoginsOnce (.request c (.login req) env)) (hw : w.UpToDate) :
    (w.step sv (.request c (.login req) env)).UpToDate := by
  cases req with
  | none => exact (login_silent hc rfl).upToDate hw
  | some req =>
    by_cases hacc : ∃ user, Accepted sv ⟨w.server.db, w.server.shared, session⟩ req user
    · obtain ⟨user, hacc⟩ := hacc
      exact login_upToDate h hc hread honce hw hacc
    · obtain ⟨err, hcheck⟩ := loginCheck_refused env (not_exists.mp hacc)
      exact (login_silent hc hcheck).upToDate hw

/-- **An event** leaves all lists right if and only if it announces what it changes. -/
theorem step_upToDate_iff (h : ListsInv w.server) (he : e.KeepsAccounts)
    (honce : w.server.LoginsOnce e) (hw : w.UpToDate) :
    (w.step sv e).UpToDate ↔ Announced w.server e := by
  cases e with
  | connect => exact iff_of_true (connect_silent.upToDate hw) trivial
  | disconnect c env => exact iff_of_true (disconnect_upToDate h hw) trivial
  | request c cmd env =>
    cases hc : w.server.conns.get? c with
    | none =>
      refine iff_of_true ((request_silent_none hc).upToDate hw) (announced_of_idle ?_)
      intro session hc'
      rw [hc] at hc'
      cases hc'
    | some session =>
      have hquiet : cmd.isNews = false → (∀ req, cmd ≠ .login req) →
          (w.step sv (.request c cmd env)).UpToDate :=
        fun hnews hlogin => (request_silent h hc hnews hlogin).upToDate hw
      by_cases hauth : session.authenticated = true
      · cases cmd with
        | login req => exact iff_of_true (login_all h hc he.2.1 honce hw) trivial
        | delete req => exact absurd rfl (he.1 req)
        | friend command npid => exact friend_upToDate_iff h hc hauth he hw
        | setAppearOffline req =>
          cases req with
          | none => exact iff_of_true (hquiet rfl (by simp)) trivial
          | some enable =>
            rw [setAppearOffline_upToDate_iff h hc hauth hw]
            refine ⟨fun hunseen session' hc' _ => ?_, fun hann => hann session hc hauth⟩
            obtain rfl := Option.some.inj (hc.symm.trans hc')
            exact hunseen
        | _ => exact iff_of_true (hquiet rfl (by simp)) trivial
      · have hidle : Announced w.server (.request c cmd env) := announced_of_idle fun session' hc' => by
          obtain rfl := Option.some.inj (hc.symm.trans hc')
          exact hauth
        refine iff_of_true ?_ hidle
        cases cmd with
        | login req => exact login_all h hc he.2.1 honce hw
        | create req => exact hquiet rfl (by simp)
        | _ => exact (refused_silent hc hauth (by simp) (by simp)).upToDate hw

/-- The lists do not touch the server. -/
theorem friendListsAfter_server (sv : Services) (db : Database) (events : List Event) (n : ℕ) :
    (friendListsAfter sv db events n).server = serverAfter sv db events n := by
  have hstep : ∀ (w : FriendLists) (e : Event), w.server.step sv e = (w.step sv e).server :=
    fun _ _ => rfl
  unfold friendListsAfter serverAfter runAt
  exact (List.foldl_hom FriendLists.server hstep).symm

end ShadNet
