import ShadNet.Lib.Delivery
import ShadNet.Proof.SessionLeave
import ShadNet.Spec.InvitationPush

/-!
# Invitations, one for each recipient

* `Denotes`: the account that an entry of `to` names, by its id or its online ID.
* `newFor_iff`: the invitations that a request stores are those of the entries it resolves, repeats and
  unknown ids among them.
* `Invited`: one invitation for each account named, none for anybody else, and a push for each.
* `invited_iff`: which is so exactly if the entries resolve to different accounts that exist.
-/

namespace ShadNet

open Lib

variable {db : Database} {clients : Table ℤ ClientEntry} {r : WebRequest} {w w' : Web} {id : String}
  {u : ℤ} {k : String} {parts : Option (List MultipartPart)} {auth : AuthResult} {obj : JsonObject}
  {s : Session} {dataPart : Option (List UInt8)}

/-! ## What is to be done -/

/-- An entry of `to` is the id of an account, in digits, or else an online ID. -/
def Denotes (db : Database) (entry : String) (u : ℤ) : Prop :=
  (∃ a ∈ db.accounts, a.userId = u) ∧
    ((u ≠ 0 ∧ toLongLong? entry = some u) ∨
      ((toLongLong? entry = none ∨ toLongLong? entry = some 0) ∧ getUserId db entry = some u))

/-- The invitation `k`, which was not there before, is for `u`. -/
def NewFor (w w' : Web) (u : ℤ) (k : String) : Prop :=
  w.invitations.get? k = none ∧ ∃ inv, w'.invitations.get? k = some inv ∧ inv.toUserId = u

/-- What goes to `u`: for each push the id of the invitation in it. -/
def pushedTo (pushes : List InvitationPush) (u : ℤ) : List (Option String) :=
  (pushes.filter fun p => p.toId = u).map (·.invitationId)

/-- **One invitation for each recipient**, and for each invitation one push. -/
structure Invited (db : Database) (clients : Table ℤ ClientEntry) (entries : List String) (w w' : Web)
    (pushes : List InvitationPush) : Prop where
  one : ∀ u, (∃ entry ∈ entries, Denotes db entry u) → ∃! k, NewFor w w' u k
  known : ∀ u k, NewFor w w' u k → ∃ entry ∈ entries, Denotes db entry u
  pushed : ∀ u k, (clients.get? u).isSome = true → NewFor w w' u k → (pushedTo pushes u).count (some k) = 1
  nothingElse : ∀ p ∈ pushes, p.dataType = "np:service:invitation" ∧
    ∃ k, p.invitationId = some k ∧ NewFor w w' p.toId k

/-! ## The request -/

/-- New UUIDs differ from each other and from those in use. -/
structure FreshUuids (r : WebRequest) (w : Web) : Prop where
  inj : ∀ i j, r.uuids i = r.uuids j → i = j
  unused : ∀ i, w.invitations.get? ("002-" ++ r.uuids i) = none

/-- The request passes its checks up to its recipients: `obj` invites to the session `s`. -/
structure AcceptsInvite (r : WebRequest) (id : String) (parts : Option (List MultipartPart)) (w : Web)
    (auth : AuthResult) (obj : JsonObject) (s : Session) (dataPart : Option (List UInt8)) : Prop where
  caller : r.auth = .ok auth
  body : ∃ ps json, parts = some ps ∧ partData ps "invitation-request" = some json ∧
    r.fromJson json = some (.obj obj) ∧ partData ps "invitation-data" = dataPart ∧
    ¬ kInvitationDataMax < (dataPart.getD []).length
  session : w.sessions.get? id = some s

/-- The accounts that the entries resolve to. -/
def inviteIds (r : WebRequest) (obj : JsonObject) : List ℤ := (inviteRecipients r obj).map (·.1)

/-- The invitations that the request makes. -/
def inviteNew (r : WebRequest) (auth : AuthResult) (id : String) (s : Session) (obj : JsonObject)
    (dataPart : Option (List UInt8)) : List Invitation :=
  invitationsFor r auth id s (JsonValue.toString (obj.value "message")) dataPart (inviteRecipients r obj)

/-- All invitations of a post are stored. -/
theorem AcceptsInvite.stores (h : AcceptsInvite r id parts w auth obj s dataPart) :
    (handleSessionInvite r id parts w).web.invitations =
      (inviteNew r auth id s obj dataPart).foldl (fun t inv => t.set inv.invitationId inv)
        w.invitations := by
  obtain ⟨ps, json, rfl, hjson, hobj, hdata, hsize⟩ := h.body
  unfold handleSessionInvite
  simp only [h.caller, hjson, hdata, if_neg hsize, hobj, h.session]
  by_cases hempty : (inviteRecipients r obj).isEmpty = true
  · have hnone : inviteNew r auth id s obj dataPart = [] := by
      unfold inviteNew invitationsFor
      rw [List.isEmpty_iff.mp hempty]
      rfl
    rw [if_pos hempty, hnone]
    rfl
  · rw [if_neg hempty]
    rfl

/-- What is accepted is pushed as one event, unless there is nobody to push to. -/
theorem AcceptsInvite.pushes (h : AcceptsInvite r id parts w auth obj s dataPart)
    (clients : Table ℤ ClientEntry) :
    invitePushes r clients id parts w = [] ∧ inviteIds r obj = [] ∨
      ∃ e : InvitationEvent, e.dataType = "np:service:invitation" ∧ e.toUserIds = inviteIds r obj ∧
        e.invitationIds = (inviteNew r auth id s obj dataPart).foldl
          (fun t inv => t.set inv.toUserId inv.invitationId) ∅ ∧
        invitePushes r clients id parts w = sendSessionInvitationEvent r clients e := by
  obtain ⟨ps, json, rfl, hjson, hobj, hdata, hsize⟩ := h.body
  unfold invitePushes handleSessionInvite
  simp only [h.caller, hjson, hdata, if_neg hsize, hobj, h.session]
  by_cases hempty : (inviteRecipients r obj).isEmpty = true
  · rw [if_pos hempty]
    refine Or.inl ⟨rfl, ?_⟩
    unfold inviteIds
    rw [List.isEmpty_iff.mp hempty]
    rfl
  · rw [if_neg hempty]
    exact Or.inr ⟨_, rfl, rfl, rfl, rfl⟩

/-! ## What is stored -/

/-- Each new invitation is for one of the recipients. -/
theorem mem_inviteNew {inv : Invitation} (h : inv ∈ inviteNew r auth id s obj dataPart) :
    ∃ i, (inviteIds r obj)[i]? = some inv.toUserId ∧ inv.invitationId = "002-" ++ r.uuids i := by
  unfold inviteNew invitationsFor at h
  obtain ⟨⟨recipient, i⟩, hmem, rfl⟩ := List.mem_map.mp h
  refine ⟨i, ?_, rfl⟩
  unfold inviteIds
  rw [List.getElem?_map, List.mem_zipIdx_iff_getElem?.mp hmem]
  rfl

/-- Each recipient has an invitation of his own. -/
theorem exists_inviteNew {i : ℕ} (h : (inviteIds r obj)[i]? = some u) :
    ∃ inv ∈ inviteNew r auth id s obj dataPart, inv.toUserId = u ∧
      inv.invitationId = "002-" ++ r.uuids i := by
  unfold inviteIds at h
  rw [List.getElem?_map] at h
  obtain ⟨recipient, hrec, hu⟩ := Option.map_eq_some_iff.mp h
  have hmem : (recipient, i) ∈ (inviteRecipients r obj).zipIdx :=
    List.mem_zipIdx_iff_getElem?.mpr hrec
  unfold inviteNew invitationsFor
  exact ⟨_, List.mem_map_of_mem hmem, hu, rfl⟩

theorem uuid_inj (hfresh : FreshUuids r w) {i j : ℕ} (h : "002-" ++ r.uuids i = "002-" ++ r.uuids j) :
    i = j := hfresh.inj i j (String.append_right_inj _ |>.mp h)

/-- Fresh ids are different ids. -/
theorem inviteNew_ids_nodup (hfresh : FreshUuids r w) :
    ((inviteNew r auth id s obj dataPart).map (·.invitationId)).Nodup := by
  have hmap : (inviteNew r auth id s obj dataPart).map (·.invitationId) =
      (List.range (inviteRecipients r obj).length).map fun i => "002-" ++ r.uuids i := by
    unfold inviteNew invitationsFor
    rw [List.map_map, List.range_eq_range', ← List.zipIdx_map_snd 0 (inviteRecipients r obj),
      List.map_map]
    rfl
  rw [hmap]
  exact List.nodup_range.map fun i j h => uuid_inj hfresh h

/-- **The invitations that are new**, by the place of their entry. -/
theorem newFor_iff (hfresh : FreshUuids r w) (hacc : AcceptsInvite r id parts w auth obj s dataPart) :
    NewFor w (handleSessionInvite r id parts w).web u k ↔
      ∃ i, (inviteIds r obj)[i]? = some u ∧ k = "002-" ++ r.uuids i := by
  unfold NewFor
  rw [hacc.stores]
  constructor
  · rintro ⟨hnone, inv, hget, rfl⟩
    rcases (Table.get?_foldl_set_iff (inviteNew_ids_nodup hfresh)).mp hget with
      ⟨inv', hmem, hk, rfl⟩ | ⟨-, hold⟩
    · obtain ⟨i, hi, hid⟩ := mem_inviteNew hmem
      exact ⟨i, hi, hk ▸ hid⟩
    · rw [hnone] at hold
      cases hold
  · rintro ⟨i, hi, rfl⟩
    obtain ⟨inv, hmem, hu, hid⟩ := exists_inviteNew hi
    refine ⟨hfresh.unused i, inv, ?_, hu⟩
    exact (Table.get?_foldl_set_iff (inviteNew_ids_nodup hfresh)).mpr (Or.inl ⟨inv, hmem, hid, rfl⟩)

/-! ## Who is meant -/

/-- One entry, resolved. -/
def resolveEntry (r : WebRequest) (entry : String) : Option ℤ :=
  match toLongLong? entry with
  | some 0 | none => r.getUserId entry
  | some uid => some uid

/-- An entry that is a number other than 0 is an id, whether there is such an account or not. -/
theorem resolveEntry_id {entry : String} (h : toLongLong? entry = some u) (hu : u ≠ 0) :
    resolveEntry r entry = some u := by
  unfold resolveEntry
  rw [h]
  split
  · rename_i heq
    exact absurd (Option.some.inj heq) hu
  · rename_i heq
    cases heq
  · rename_i heq
    exact heq.symm

/-- An entry that is no number, or 0, is looked up as a name. -/
theorem resolveEntry_name {entry : String}
    (h : toLongLong? entry = none ∨ toLongLong? entry = some 0) :
    resolveEntry r entry = r.getUserId entry := by
  unfold resolveEntry
  rcases h with h | h
  · rw [h]
  · rw [h]
    rfl

theorem inviteIds_eq (r : WebRequest) (obj : JsonObject) :
    inviteIds r obj = (stringArray (obj.value "to")).filterMap (resolveEntry r) := by
  unfold inviteIds inviteRecipients stringArray
  rw [List.map_filterMap, List.filterMap_map]
  refine List.filterMap_congr fun v _ => ?_
  simp only [Function.comp_apply]
  split
  · rename_i heq
    rw [resolveEntry_name (Or.inr heq), Option.map_map, Function.comp_def, Option.map_id']
  · rename_i heq
    rw [resolveEntry_name (Or.inl heq), Option.map_map, Function.comp_def, Option.map_id']
  · rename_i uid hne heq
    rw [resolveEntry_id heq hne]
    rfl

theorem mem_inviteIds : u ∈ inviteIds r obj ↔
    ∃ entry ∈ stringArray (obj.value "to"), resolveEntry r entry = some u := by
  rw [inviteIds_eq, List.mem_filterMap]

/-- What an entry means is what it is resolved to, if the account is there. -/
theorem denotes_iff (hon : r.On db) (entry : String) :
    Denotes db entry u ↔ (∃ a ∈ db.accounts, a.userId = u) ∧ resolveEntry r entry = some u := by
  unfold Denotes
  rw [← hon.byName]
  refine and_congr_right fun _ => ?_
  cases hnum : toLongLong? entry with
  | none => rw [resolveEntry_name (Or.inl hnum)]; simp
  | some v =>
    by_cases hv : v = 0
    · subst hv
      have hne : ¬ (u ≠ 0 ∧ (0 : ℤ) = u) := fun h => h.1 h.2.symm
      rw [resolveEntry_name (Or.inr hnum)]
      simp [hne]
    · rw [resolveEntry_id hnum hv]
      constructor
      · rintro (⟨-, hvu⟩ | ⟨hzero | hzero, -⟩)
        · exact hvu
        · cases hzero
        · exact absurd (Option.some.inj hzero) hv
      · intro hvu
        exact Or.inl ⟨Option.some.inj hvu ▸ hv, hvu⟩

/-! ## What is pushed -/

/-- The pairs of a push name the invitation that is meant for its addressee. -/
theorem lookup_invitationExtd {e : InvitationEvent} {fromPlatform invitationId : String} {toId : ℤ}
    (h : invitationId ≠ "") :
    (invitationExtd e fromPlatform invitationId toId).lookup "invitationId" = some invitationId := by
  unfold invitationExtd
  by_cases hplatform : fromPlatform ≠ "" <;> by_cases hsession : e.sessionId ≠ "" <;>
    simp [h, hplatform, hsession, List.lookup_cons]

/-- A push goes to a recipient, and says which invitation it is about. -/
theorem mem_sendSessionInvitationEvent {e : InvitationEvent} {p : InvitationPush}
    (h : p ∈ sendSessionInvitationEvent r clients e) :
    p.toId ∈ e.toUserIds ∧ p.dataType = e.dataType ∧
      (∀ k, e.invitationIds.get? p.toId = some k → k ≠ "" → p.invitationId = some k) := by
  unfold sendSessionInvitationEvent at h
  obtain ⟨toId, hmem, hp⟩ := List.mem_filterMap.mp h
  obtain ⟨it, -, rfl⟩ := Option.map_eq_some_iff.mp hp
  refine ⟨hmem, rfl, fun k hk hne => ?_⟩
  unfold InvitationPush.invitationId
  simp only [hk, Option.getD_some]
  exact lookup_invitationExtd hne

/-- An online user who is in the list once gets one push. -/
theorem filter_sendSessionInvitationEvent {e : InvitationEvent} (hnd : e.toUserIds.Nodup)
    (hu : u ∈ e.toUserIds) (hon : (clients.get? u).isSome = true) :
    ∃ p, (sendSessionInvitationEvent r clients e).filter (fun p => p.toId = u) = [p] := by
  obtain ⟨it, hit⟩ := Option.isSome_iff_exists.mp hon
  obtain ⟨p, hp⟩ : ∃ p, invitationPush r clients e u = some p := by
    unfold invitationPush
    rw [hit]
    exact ⟨_, rfl⟩
  have hto : ∀ v p, invitationPush r clients e v = some p → p.toId = v := by
    intro v p hp
    obtain ⟨it', -, rfl⟩ := Option.map_eq_some_iff.mp hp
    rfl
  unfold sendSessionInvitationEvent
  refine ⟨p, hto u p hp ▸ sent_once hnd hu hp fun v _ p' hp' heq => ?_⟩
  exact (hto v p' hp').symm.trans (heq.trans (hto u p hp))

/-- The id that the event has for a recipient who comes once. -/
theorem get?_invitationIds (hnd : (inviteIds r obj).Nodup) :
    ((inviteNew r auth id s obj dataPart).foldl
      (fun t inv => t.set inv.toUserId inv.invitationId) (∅ : Table ℤ String)).get? u = some k ↔
      ∃ i, (inviteIds r obj)[i]? = some u ∧ k = "002-" ++ r.uuids i := by
  have hmap : (inviteNew r auth id s obj dataPart).map (·.toUserId) = inviteIds r obj := by
    unfold inviteNew invitationsFor inviteIds
    rw [List.map_map]
    conv_rhs => rw [← List.zipIdx_map_fst 0 (inviteRecipients r obj), List.map_map]
    rfl
  rw [Table.get?_foldl_set_iff (hmap ▸ hnd)]
  constructor
  · rintro (⟨inv, hmem, rfl, rfl⟩ | ⟨-, hold⟩)
    · obtain ⟨i, hi, hid⟩ := mem_inviteNew hmem
      exact ⟨i, hi, hid⟩
    · cases hold
  · rintro ⟨i, hi, rfl⟩
    obtain ⟨inv, hmem, hu, hid⟩ := exists_inviteNew hi
    exact Or.inl ⟨inv, hmem, hu, hid⟩

theorem invitationId_ne (uuid : String) : "002-" ++ uuid ≠ "" := by
  intro h
  have hlen := congrArg String.length h
  simp at hlen

/-- A push brings its addressee an invitation of his. -/
theorem AcceptsInvite.mem_pushes (h : AcceptsInvite r id parts w auth obj s dataPart)
    (hnd : (inviteIds r obj).Nodup) {p : InvitationPush} (hp : p ∈ invitePushes r clients id parts w) :
    p.dataType = "np:service:invitation" ∧ ∃ i, (inviteIds r obj)[i]? = some p.toId ∧
      p.invitationId = some ("002-" ++ r.uuids i) := by
  rcases h.pushes clients with ⟨hnone, -⟩ | ⟨e, htype, hto, hids, hpush⟩
  · rw [hnone] at hp
    cases hp
  · rw [hpush] at hp
    obtain ⟨hmem, hdata, hcarries⟩ := mem_sendSessionInvitationEvent hp
    obtain ⟨i, hi⟩ := List.mem_iff_getElem?.mp (hto ▸ hmem)
    have hget : e.invitationIds.get? p.toId = some ("002-" ++ r.uuids i) := by
      rw [hids]
      exact (get?_invitationIds hnd).mpr ⟨i, hi, rfl⟩
    exact ⟨hdata.trans htype, i, hi, hcarries _ hget (invitationId_ne _)⟩

/-- An online recipient who comes once gets one push. -/
theorem AcceptsInvite.pushedTo_eq (h : AcceptsInvite r id parts w auth obj s dataPart)
    (hnd : (inviteIds r obj).Nodup) {i : ℕ} (hi : (inviteIds r obj)[i]? = some u)
    (hon : (clients.get? u).isSome = true) :
    pushedTo (invitePushes r clients id parts w) u = [some ("002-" ++ r.uuids i)] := by
  have hu := List.mem_of_getElem? hi
  obtain ⟨p, hp⟩ : ∃ p, (invitePushes r clients id parts w).filter (fun p => p.toId = u) = [p] := by
    rcases h.pushes clients with ⟨-, hnil⟩ | ⟨e, -, hto, -, hpush⟩
    · rw [hnil] at hu
      cases hu
    · rw [hpush]
      exact filter_sendSessionInvitationEvent (hto ▸ hnd) (hto ▸ hu) hon
  have hmem : p ∈ invitePushes r clients id parts w ∧ p.toId = u := by
    have hp' : p ∈ (invitePushes r clients id parts w).filter fun p => p.toId = u :=
      hp ▸ List.mem_singleton_self p
    simpa using hp'
  obtain ⟨-, j, hj, hid⟩ := h.mem_pushes hnd hmem.1
  obtain ⟨hlt, -⟩ := List.getElem?_eq_some_iff.mp hj
  obtain rfl : j = i := (List.getElem?_inj hlt hnd).mp (hj.trans (hmem.2 ▸ hi.symm))
  unfold pushedTo
  rw [hp, List.map_singleton, hid]

/-- Who is meant by an entry: an account that one resolves to. -/
theorem exists_denotes_iff (hon : r.On db) : (∃ entry ∈ stringArray (obj.value "to"), Denotes db entry u) ↔
    (∃ a ∈ db.accounts, a.userId = u) ∧ u ∈ inviteIds r obj := by
  rw [mem_inviteIds]
  simp only [denotes_iff hon]
  constructor
  · rintro ⟨entry, hmem, ha, hres⟩
    exact ⟨ha, entry, hmem, hres⟩
  · rintro ⟨ha, entry, hmem, hres⟩
    exact ⟨entry, hmem, ha, hres⟩

/-- **Invitations and pushes are in step** exactly if the entries resolve to different accounts, all of
which exist. -/
theorem invited_iff (hon : r.On db) (hfresh : FreshUuids r w)
    (hacc : AcceptsInvite r id parts w auth obj s dataPart) (clients : Table ℤ ClientEntry) :
    Invited db clients (stringArray (obj.value "to")) w (handleSessionInvite r id parts w).web
      (invitePushes r clients id parts w) ↔
    (inviteIds r obj).Nodup ∧ ∀ u ∈ inviteIds r obj, ∃ a ∈ db.accounts, a.userId = u := by
  constructor
  · intro hinv
    have hknown : ∀ i u, (inviteIds r obj)[i]? = some u →
        ∃ entry ∈ stringArray (obj.value "to"), Denotes db entry u := fun i u hi =>
      hinv.known u _ ((newFor_iff hfresh hacc).mpr ⟨i, hi, rfl⟩)
    constructor
    · -- a repeated recipient would have two invitations
      rw [List.nodup_iff_getElem?_ne_getElem?]
      intro i j hij hj heq
      obtain ⟨u, hu⟩ : ∃ u, (inviteIds r obj)[j]? = some u := ⟨_, List.getElem?_eq_getElem hj⟩
      have hone := hinv.one u (hknown j u hu)
      have hsame := hone.unique ((newFor_iff hfresh hacc).mpr ⟨i, heq.trans hu, rfl⟩)
        ((newFor_iff hfresh hacc).mpr ⟨j, hu, rfl⟩)
      have hij' := uuid_inj hfresh hsame
      omega
    · intro u hu
      obtain ⟨i, hi⟩ := List.mem_iff_getElem?.mp hu
      exact ((exists_denotes_iff hon).mp (hknown i u hi)).1
  · rintro ⟨hnd, hexist⟩
    refine ⟨fun u hmean => ?_, fun u k hnew => ?_, fun u k honline hnew => ?_, fun p hp => ?_⟩
    · obtain ⟨i, hi⟩ := List.mem_iff_getElem?.mp ((exists_denotes_iff hon).mp hmean).2
      refine ⟨"002-" ++ r.uuids i, (newFor_iff hfresh hacc).mpr ⟨i, hi, rfl⟩, fun k hk => ?_⟩
      obtain ⟨j, hj, rfl⟩ := (newFor_iff hfresh hacc).mp hk
      obtain ⟨hlt, -⟩ := List.getElem?_eq_some_iff.mp hi
      rw [(List.getElem?_inj hlt hnd).mp (hi.trans hj.symm)]
    · obtain ⟨i, hi, -⟩ := (newFor_iff hfresh hacc).mp hnew
      have hu := List.mem_of_getElem? hi
      exact (exists_denotes_iff hon).mpr ⟨hexist u hu, hu⟩
    · obtain ⟨i, hi, rfl⟩ := (newFor_iff hfresh hacc).mp hnew
      rw [hacc.pushedTo_eq hnd hi honline, List.count_singleton_self]
    · obtain ⟨hdata, i, hi, hid⟩ := hacc.mem_pushes hnd hp
      exact ⟨hdata, _, hid, (newFor_iff hfresh hacc).mpr ⟨i, hi, rfl⟩⟩

/-- The body of a request that invites the entries. -/
def inviteBody (entries : List String) : JsonObject := [("to", .arr (entries.map Json.str))]

/-- Alice's request to invite the entries to a session. -/
def inviteRequest (entries : List String) : WebRequest where
  toRequest := { bodyRequest (inviteBody entries) with
    auth := .ok ⟨1, "alice"⟩, getUserId := getUserId aliceAndBob }
  query _ := none
  getUsername := getUsername aliceAndBob
  friends _ := []
  isoUtc _ := ""
  uuids i := String.ofList (List.replicate i 'a')

/-- A post with one part, which is that body. -/
def inviteParts : Option (List MultipartPart) := some [⟨[], toUtf8 "invitation-request", []⟩]

/-- A session of two, and no invitations. -/
def duoWeb : Web := ⟨(∅ : Sessions).set "001-duo" duo, ∅⟩

/-- The table of users online, with Bob in it. -/
def bobOnline : Table ℤ ClientEntry := (∅ : Table ℤ ClientEntry).set 2 { npid := "bob", send := 0 }

theorem inviteRequest_on (entries : List String) : (inviteRequest entries).On aliceAndBob := ⟨rfl, rfl⟩

theorem inviteRequest_fresh (entries : List String) : FreshUuids (inviteRequest entries) duoWeb := by
  refine ⟨fun i j h => ?_, fun _ => rfl⟩
  have hlen := congrArg (fun s : String => s.toList.length) h
  simpa [inviteRequest] using hlen

theorem inviteRequest_accepts (entries : List String) : AcceptsInvite (inviteRequest entries) "001-duo"
    inviteParts duoWeb ⟨1, "alice"⟩ (inviteBody entries) duo none :=
  ⟨rfl, ⟨_, [], rfl, by decide +kernel, rfl, by decide +kernel, by decide⟩, Table.get?_set_self⟩

/-- Bob by his name, and Alice by her id. -/
theorem two_invited : Invited aliceAndBob bobOnline (stringArray ((inviteBody ["bob", "1"]).value "to"))
    duoWeb (handleSessionInvite (inviteRequest ["bob", "1"]) "001-duo" inviteParts duoWeb).web
    (invitePushes (inviteRequest ["bob", "1"]) bobOnline "001-duo" inviteParts duoWeb) := by
  have hids : inviteIds (inviteRequest ["bob", "1"]) (inviteBody ["bob", "1"]) = [2, 1] := by
    decide +kernel
  refine (invited_iff (inviteRequest_on _) (inviteRequest_fresh _) (inviteRequest_accepts _) _).mpr ?_
  rw [hids]
  decide

/-- Bob by two spellings gets two invitations. -/
theorem spelled_twice_invited_twice : ¬ Invited aliceAndBob bobOnline
    (stringArray ((inviteBody ["bob", "BOB"]).value "to")) duoWeb
    (handleSessionInvite (inviteRequest ["bob", "BOB"]) "001-duo" inviteParts duoWeb).web
    (invitePushes (inviteRequest ["bob", "BOB"]) bobOnline "001-duo" inviteParts duoWeb) := by
  intro hinv
  have hids : inviteIds (inviteRequest ["bob", "BOB"]) (inviteBody ["bob", "BOB"]) = [2, 2] := by
    decide +kernel
  have hnew : ∀ i, ([2, 2] : List ℤ)[i]? = some 2 → NewFor duoWeb
      (handleSessionInvite (inviteRequest ["bob", "BOB"]) "001-duo" inviteParts duoWeb).web 2
      ("002-" ++ (inviteRequest ["bob", "BOB"]).uuids i) := fun i hi =>
    (newFor_iff (inviteRequest_fresh _) (inviteRequest_accepts _)).mpr ⟨i, hids ▸ hi, rfl⟩
  have hmean := hinv.known 2 _ (hnew 0 rfl)
  have hsame := (hinv.one 2 hmean).unique (hnew 0 rfl) (hnew 1 rfl)
  exact absurd (uuid_inj (inviteRequest_fresh _) hsame) (by omega)

end ShadNet
