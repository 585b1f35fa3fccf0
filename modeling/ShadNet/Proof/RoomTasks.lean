import ShadNet.Proof.RoomChange

/-!
# What connections have still to tell

* `TaskOk`: what a task tells is still so, and a joiner to be announced is still there.
* `StepOf`, `stepOf`: what a step can be.
* `step_tasksInv`: tasks stay right when nobody comes or goes of whom something is still to be told
  (`RoomServer.Undisturbed`).
-/

namespace ShadNet

open Lib

/-! ## News -/

/-- The room that a task tells of, and what it tells. -/
def RoomTask.news : RoomTask → Option (ℕ × News ℕ)
  | .announce key memberId _ => some (key.2, ⟨memberId, true⟩)
  | .notifyRoomMembers _ e _ => e.news.map (Prod.mk e.roomId)
  | .send _ e => e.news.map (Prod.mk e.roomId)
  | _ => none

namespace RoomServer

variable (w : RoomServer)

/-- The tasks that are still to be done. -/
def pending : List RoomTask := (w.tasks.inOrder .listed).flatMap Prod.snd

/-- Nothing is to be told of a room. -/
def Settled (roomId : ℕ) : Prop := ∀ task ∈ w.pending, ∀ n ∈ task.news, n.1 ≠ roomId

/-- The id of somebody who comes or goes is one of which nothing is still to be told. -/
def Undisturbed (a : RoomAction) : Prop :=
  ∀ change ∈ w.change a, ∀ task ∈ w.pending, ∀ n ∈ task.news, n.1 = change.key.2 →
    n.2.elem ≠ change.memberId

instance (roomId : ℕ) : Decidable (w.Settled roomId) :=
  inferInstanceAs (Decidable (∀ task ∈ w.pending, ∀ n ∈ task.news, n.1 ≠ roomId))

instance (a : RoomAction) : Decidable (w.Undisturbed a) :=
  inferInstanceAs (Decidable (∀ change ∈ w.change a, ∀ task ∈ w.pending, ∀ n ∈ task.news,
    n.1 = change.key.2 → n.2.elem ≠ change.memberId))

end RoomServer

/-! ## Tasks that are right -/

variable {m m' : MatchingSharedState} {key : RoomKey} {room room' : Room} {mid : ℕ}
  {change : Option RoomChange} {joined : Option (ℕ × RoomMember)} {n : ℕ × News ℕ}

/-- Whom an event announces is the member whom its sender has put into the room, at most made owner
since. -/
def NotifyRoomEvent.Announces (e : NotifyRoomEvent) (joined : Option (ℕ × RoomMember)) : Prop :=
  e.event = .memberJoined → ∃ member kept, joined = some (e.roomId, member) ∧ member.Kept kept ∧
    e.member = some (buildRoomMemberData kept)

/-- What is told of a room is so in the room. -/
structure NewsOk (m : MatchingSharedState) (n : ℕ × News ℕ) : Prop where
  old : n.1 < m.nextRoomId
  holds : ∀ key room, m.rooms.get? key = some room → key.2 = n.1 →
    n.2.Holds {mid | mid ∈ m.memberIds key}

/-- The only room with the id, if there is one, is the one under the key. -/
structure SoleKey (m : MatchingSharedState) (key : RoomKey) : Prop where
  old : key.2 < m.nextRoomId
  sole : ∀ key' room, m.rooms.get? key' = some room → key'.2 = key.2 → key' = key

/-- What a task tells is so, and whom it announces was put there by its connection. Nothing is asked
of a task whose room is gone. -/
def TaskOk (m : MatchingSharedState) (joined : Option (ℕ × RoomMember)) : RoomTask → Prop
  | .announce key memberId _ => SoleKey m key ∧ ∀ room, m.rooms.get? key = some room →
      ∃ member kept, joined = some (key.2, member) ∧ room.members.get? memberId = some kept ∧
        member.Kept kept
  | .notifyRoomMembers matchingKey e _ => SoleKey m (matchingKey, e.roomId) ∧
      (∀ n ∈ e.news, NewsOk m (e.roomId, n)) ∧
      ∀ room, m.rooms.get? (matchingKey, e.roomId) = some room → e.Announces joined
  | .send _ e => (∀ n ∈ e.news, NewsOk m (e.roomId, n)) ∧ e.Announces joined
  | .sendMatchingNotification e _ => e.event = .kickedOut
  | .cleanup .. => True

theorem NewsOk.step (h : NewsOk m n) (hstep : ChangeStep m m' change)
    (hguard : ∀ ch ∈ change, n.1 = ch.key.2 → n.2.elem ≠ ch.memberId) : NewsOk m' n := by
  refine ⟨h.old.trans_le hstep.next, fun key room' hroom' hkey => ?_⟩
  have hold : key.2 < m.nextRoomId := hkey ▸ h.old
  obtain ⟨room, hroom, hkept⟩ := hstep.keptAt n.2.elem hroom' hold fun ch hch heq =>
    (hguard ch hch (by rw [heq, hkey])).symm
  have hmem := hkept.mem_memberIds hroom hroom'
  exact hmem.trans (h.holds key room hroom hkey)

theorem SoleKey.step (h : SoleKey m key) (hstep : ChangeStep m m' change) : SoleKey m' key := by
  refine ⟨h.old.trans_le hstep.next, fun key' room' hroom' hkey => ?_⟩
  obtain ⟨room, hroom⟩ := hstep.before hroom' (hkey ▸ h.old)
  exact h.sole key' room hroom hkey

/-- A task stays right while nobody comes or goes of whom it tells. -/
theorem TaskOk.step {task : RoomTask} (h : TaskOk m joined task) (hstep : ChangeStep m m' change)
    (hguard : ∀ ch ∈ change, ∀ n ∈ task.news, n.1 = ch.key.2 → n.2.elem ≠ ch.memberId) :
    TaskOk m' joined task := by
  cases task with
  | announce key memberId npid =>
    obtain ⟨hsole, hmember⟩ := h
    refine ⟨hsole.step hstep, fun room' hroom' => ?_⟩
    obtain ⟨room, hroom, hkept⟩ := hstep.keptAt memberId hroom' hsole.old fun ch hch heq =>
      (hguard ch hch (key.2, ⟨memberId, true⟩) rfl (by rw [heq])).symm
    obtain ⟨member, p, hjoined, hp, hmp⟩ := hmember room hroom
    obtain ⟨p', hp', hpp'⟩ := hkept.stays p hp
    exact ⟨member, p', hjoined, hp', hmp.trans hpp'⟩
  | notifyRoomMembers matchingKey e excludeNpid =>
    obtain ⟨hsole, hnews, hjoined⟩ := h
    refine ⟨hsole.step hstep, fun n hn => ?_, fun room' hroom' => ?_⟩
    · exact (hnews n hn).step hstep fun ch hch =>
        hguard ch hch (e.roomId, n) (Option.mem_map.mpr ⟨n, hn, rfl⟩)
    · obtain ⟨room, hroom⟩ := hstep.before hroom' hsole.old
      exact hjoined room hroom
  | send c e =>
    obtain ⟨hnews, hjoined⟩ := h
    refine ⟨fun n hn => ?_, hjoined⟩
    exact (hnews n hn).step hstep fun ch hch =>
      hguard ch hch (e.roomId, n) (Option.mem_map.mpr ⟨n, hn, rfl⟩)
  | sendMatchingNotification e npid => exact h
  | cleanup env session => trivial

/-- **A change leaves tasks that are right.** -/
theorem RoomChange.Makes.tasksOk {ch : RoomChange} (h : ch.Makes m m' room room') (hindex : IndexInv m')
    (hjoined : ∀ key member, ch = .joined key member → joined = some (key.2, member)) :
    ∀ task ∈ ch.tasks, TaskOk m' joined task := by
  have hroom' : m'.rooms.get? ch.key = some room' := by
    rw [h.after]
    exact Table.get?_set_self
  have hsole : SoleKey m' ch.key :=
    ⟨hindex.below _ _ hroom', fun key' room hget hkey => hindex.unique _ _ _ _ hget hroom' hkey⟩
  have hgone (hnew : ch.new = none) : NewsOk m' (ch.key.2, ⟨ch.memberId, false⟩) := by
    refine ⟨hsole.old, fun key room hget hkey => ?_⟩
    obtain rfl := hsole.sole key room hget hkey
    obtain rfl := Option.some.inj (hget.symm.trans hroom')
    refine iff_of_false (fun hmem => ?_) nofun
    obtain ⟨p, hp⟩ := (mem_memberIds hget).mp hmem
    rw [h.here, hnew] at hp
    cases hp
  cases ch with
  | joined key member =>
    intro task htask
    obtain rfl := List.mem_singleton.mp htask
    refine ⟨hsole, fun room hget => ?_⟩
    obtain rfl := Option.some.inj (hget.symm.trans hroom')
    exact ⟨member, member, hjoined key member rfl, h.here, .refl member⟩
  | left key memberId npid =>
    intro task htask
    obtain rfl := List.mem_singleton.mp htask
    refine ⟨hsole, ?_, fun _ _ => nofun⟩
    rintro n ⟨⟩
    exact hgone rfl
  | kicked key memberId npid =>
    intro task htask
    rcases List.mem_cons.mp htask with rfl | htask
    · rfl
    · obtain rfl := List.mem_singleton.mp htask
      refine ⟨hsole, ?_, fun _ _ => nofun⟩
      rintro n ⟨⟩
      exact hgone rfl

variable {sh : SharedState} {order : Order ℕ} {task : RoomTask}

theorem sendTask_eq_some {e : NotifyRoomEvent} {client : ConnId × ℕ} :
    sendTask e client = some task ↔ client.2 ≠ 0 ∧ task = .send client.1 { e with ctxId := client.2 } := by
  unfold sendTask
  split <;> simp_all [eq_comm]

/-- **A step of a task leaves tasks that are right.** -/
theorem TaskOk.rest (h : TaskOk sh.matching joined task) (hall : AllRooms MembersOk sh.matching) :
    ∀ task' ∈ task.rest sh order, TaskOk sh.matching joined task' := by
  intro task' htask'
  cases task with
  | announce key memberId npid =>
    obtain ⟨hsole, hmember⟩ := h
    obtain rfl := List.mem_singleton.mp htask'
    refine ⟨hsole, ?_, ?_⟩
    · rintro n ⟨⟩
      refine ⟨hsole.old, fun key' room hget hkey => ?_⟩
      obtain rfl := hsole.sole key' room hget hkey
      -- the joiner is still there
      obtain ⟨member, kept, -, hkept, -⟩ := hmember room hget
      refine iff_of_true ((mem_memberIds hget).mpr ?_) rfl
      rw [hget]
      refine ⟨kept, ?_⟩
      simp only [Option.bind_some, Room.findById, hkept, Option.getD_some, buildRoomMemberData]
      rw [(hall _ _ hget).stored _ _ hkept, hkept]
    · rintro room hget -
      obtain ⟨member, kept, hjoined, hkept, hmk⟩ := hmember room hget
      refine ⟨member, kept, hjoined, hmk, ?_⟩
      simp only [roomMemberEvent, show sh.matching.rooms.get? key = some room from hget,
        Option.bind_some, Room.findById, hkept, Option.getD_some]
  | notifyRoomMembers matchingKey e excludeNpid =>
    obtain ⟨-, hnews, hjoined⟩ := h
    simp only [RoomTask.rest] at htask'
    cases hroom : sh.matching.rooms.get? (matchingKey, e.roomId) with
    | none =>
      rw [hroom] at htask'
      cases htask'
    | some room =>
      simp only [hroom] at htask'
      obtain ⟨p, -, hp⟩ := List.mem_filterMap.mp htask'
      split at hp
      · cases hp
      · obtain ⟨client, -, hsend⟩ := Option.bind_eq_some_iff.mp hp
        obtain ⟨-, rfl⟩ := sendTask_eq_some.mp hsend
        exact ⟨hnews, hjoined room hroom⟩
  | sendMatchingNotification e npid =>
    obtain ⟨client, -, hsend⟩ := Option.bind_eq_some_iff.mp (Option.mem_toList.mp htask')
    obtain ⟨-, rfl⟩ := sendTask_eq_some.mp hsend
    have hevent : e.event = .kickedOut := h
    constructor
    · intro n hn
      simp only [NotifyRoomEvent.news, hevent] at hn
      cases hn
    · intro heq
      rw [hevent] at heq
      cases heq
  | send c e => cases htask'
  | cleanup env session => cases htask'

/-! ## Steps -/

variable {sv : Services} {w w' : RoomServer} {c d : ConnId} {a : RoomAction} {tasks : List RoomTask}

theorem cleanupAfterLeave_matching {s : Server} {env : Env} {session : ClientSession} :
    (s.cleanupAfterLeave env c session).shared.matching = s.shared.matching := by
  simp only [Server.cleanupAfterLeave, cleanupOnDisconnect_matching]
  split <;> rfl

theorem tasksOf_busy {server : Server} :
    (w.busy c server change tasks).tasksOf d =
      if d = c then (change.elim [] RoomChange.tasks) ++ tasks else w.tasksOf d := by
  unfold RoomServer.tasksOf RoomServer.busy
  rw [Table.get?_set]
  split <;> rfl

theorem idle_eq_some {session : ClientSession} (h : w.idle c = some session) :
    w.tasksOf c = [] ∧ w.server.conns.get? c = some session := by
  unfold RoomServer.idle at h
  split at h
  · rename_i hempty
    exact ⟨List.isEmpty_iff.mp hempty, h⟩
  · cases h

theorem leaving_eq_some {session : ClientSession} (h : w.leaving c = some session) :
    w.tasksOf c = [] ∧ w.server.live c = some session := by
  unfold RoomServer.leaving at h
  split at h
  · rename_i hempty
    exact ⟨List.isEmpty_iff.mp hempty, h⟩
  · cases h

/-- A connection goes on with its first task. -/
structure Resumes (w w' : RoomServer) (c : ConnId) (task : RoomTask) (tasks rest : List RoomTask) :
    Prop where
  matching : w'.server.shared.matching = w.server.shared.matching
  tasksOf : ∀ d, w'.tasksOf d = if d = c then rest ++ tasks else w.tasksOf d
  joined : w'.joined = w.joined
  sent : w'.sent = w.sent ++ match task with
    | .send conn event => [⟨conn, event, w.joined.get? c⟩]
    | _ => []

theorem resume_resumes (htask : w.tasksOf c = task :: tasks) (order : Order ℕ) :
    Resumes w (w.resume c order) c task tasks (task.rest w.server.shared order) := by
  unfold RoomServer.resume
  rw [htask]
  refine ⟨?_, fun d => ?_, rfl, rfl⟩
  · cases task <;> first | rfl | exact cleanupAfterLeave_matching
  · unfold RoomServer.tasksOf
    simp only
    rw [Table.get?_set]
    split <;> rfl

/-- What a step can be: nothing that is told of, the change of a command or of a disconnect, or the
next step of a task. -/
inductive StepOf (sv : Services) (w : RoomServer) (a : RoomAction) : Prop
  | quiet {server : Server} (hstep : w.step sv a = { w with server })
      (hmatching : server.shared.matching = w.server.shared.matching)
  | begins {c : ConnId} {server : Server} {tasks : List RoomTask} (hidle : w.tasksOf c = [])
      (hstep : w.step sv a = w.busy c server (w.change a) tasks)
      (htasks : ∀ task ∈ tasks, ∃ env session, task = .cleanup env session)
      (hchange : ChangeStep w.server.shared.matching server.shared.matching (w.change a))
      (hrooms : RoomsStep w.server.shared.matching server.shared.matching)
      (hall : AllRooms MembersOk server.shared.matching)
  | resumes {c : ConnId} {order : Order ℕ} {task : RoomTask} {tasks : List RoomTask}
      (htask : w.tasksOf c = task :: tasks)
      (hresumes : Resumes w (w.step sv a) c task tasks (task.rest w.server.shared order))

theorem stepOf (sv : Services) (hall : AllRooms MembersOk w.server.shared.matching) (a : RoomAction) :
    StepOf sv w a := by
  cases a with
  | begin e =>
    cases e with
    | connect => exact .quiet rfl rfl
    | request c cmd env =>
      cases hidle : w.idle c with
      | none =>
        refine .quiet (show w.step sv _ = { w with server := w.server } from ?_) rfl
        simp only [RoomServer.step, hidle]
      | some session =>
        obtain ⟨htasks, hc⟩ := idle_eq_some hidle
        have hserver : (w.server.step sv (.request c cmd env)).shared.matching =
            (dispatchCommand sv env c ⟨w.server.db, w.server.shared, session⟩ cmd).1.shared.matching := by
          simp only [Server.step, hc]
        refine .begins htasks (show w.step sv _ =
          w.busy c (w.server.step sv (.request c cmd env)) (w.change _) [] from ?_) ?_ ?_
          (step_rooms sv w.server _) ?_
        · simp only [RoomServer.step, hidle]
        · intro task htask
          cases htask
        · rw [hserver]
          simp only [RoomServer.change, hidle, Option.bind_some]
          exact dispatch_change ⟨w.server.db, w.server.shared, session⟩ hall cmd
        · exact membersOk_rules.steps.step hall (by unfold Event.Creates; split <;> trivial)
    | disconnect c env =>
      cases hleaving : w.leaving c with
      | none =>
        refine .quiet (show w.step sv _ = { w with server := w.server } from ?_) rfl
        simp only [RoomServer.step, hleaving]
      | some session =>
        obtain ⟨htasks, hc⟩ := leaving_eq_some hleaving
        refine .begins htasks (show w.step sv _ =
          w.busy c (w.server.leaveOnDisconnect env c session) (w.change _) [.cleanup env session]
          from ?_) ?_ ?_ ?_ ?_
        · simp only [RoomServer.step, hleaving]
        · intro task htask
          exact ⟨env, session, List.mem_singleton.mp htask⟩
        · simp only [RoomServer.change, hleaving, Option.bind_some]
          exact leaveOnDisconnect_change hall session
        · unfold Server.leaveOnDisconnect
          split
          · exact cleanupMatching_step (s := ⟨w.server.shared.matching, session.matching⟩) _
          · exact .same
        · unfold Server.leaveOnDisconnect
          split
          · exact membersOk_rules.steps.cleanup (s := ⟨w.server.shared.matching, session.matching⟩) hall _
          · exact hall
  | resume c order =>
    cases htask : w.tasksOf c with
    | nil =>
      refine .quiet (show w.step sv _ = { w with server := w.server } from ?_) rfl
      simp only [RoomServer.step, RoomServer.resume, htask]
    | cons task tasks => exact .resumes htask (resume_resumes htask order)

theorem mem_pending : task ∈ w.pending ↔ ∃ c, task ∈ w.tasksOf c := by
  unfold RoomServer.pending RoomServer.tasksOf
  rw [List.mem_flatMap]
  constructor
  · rintro ⟨⟨c, tasks⟩, hentry, htask⟩
    refine ⟨c, ?_⟩
    rw [Table.mem_inOrder.mp hentry]
    exact htask
  · rintro ⟨c, htask⟩
    cases hc : w.tasks.get? c with
    | none =>
      rw [hc] at htask
      cases htask
    | some tasks =>
      rw [hc] at htask
      exact ⟨(c, tasks), Table.mem_inOrder.mpr hc, htask⟩

/-- All tasks are right, and so is all that has been sent. -/
structure TasksInv (w : RoomServer) : Prop where
  rooms : AllRooms MembersOk w.server.shared.matching
  index : IndexInv w.server.shared.matching
  tasks : ∀ c, ∀ task ∈ w.tasksOf c, TaskOk w.server.shared.matching (w.joined.get? c) task
  sent : ∀ s ∈ w.sent, s.event.Announces s.joined

theorem busy_joined_self {server : Server} {member : RoomMember}
    (h : change = some (.joined key member)) :
    (w.busy c server change tasks).joined.get? c = some (key.2, member) := by
  subst h
  exact Table.get?_set_self

theorem busy_joined_ne {server : Server} (hne : d ≠ c) :
    (w.busy c server change tasks).joined.get? d = w.joined.get? d := by
  unfold RoomServer.busy
  simp only
  split
  · exact Table.get?_set_ne hne
  · rfl

/-- **Tasks stay right** when nobody comes or goes of whom something is still to be told. -/
theorem step_tasksInv (h : TasksInv w) (hquiet : w.Undisturbed a) : TasksInv (w.step sv a) := by
  cases stepOf sv h.rooms a with
  | quiet hstep hmatching =>
    rw [hstep]
    refine ⟨?_, ?_, ?_, h.sent⟩
    · exact hmatching ▸ h.rooms
    · exact hmatching ▸ h.index
    · intro c task htask
      simp only [hmatching]
      exact h.tasks c task htask
  | @begins c server tasks hidle hstep htasks hchange hrooms hall =>
    have hindex := hrooms.indexInv h.index
    rw [hstep]
    refine ⟨hall, hindex, fun d task htask => ?_, h.sent⟩
    rw [tasksOf_busy] at htask
    split at htask
    · rename_i heq
      subst heq
      rcases List.mem_append.mp htask with htask | htask
      · -- the tasks of the change itself
        generalize hch : w.change a = change at htask hchange ⊢
        cases change with
        | none => cases htask
        | some ch =>
          obtain ⟨room, room', hmakes⟩ := hchange
          refine hmakes.tasksOk hindex (fun key member hjoined => ?_) task htask
          exact busy_joined_self (congrArg some hjoined)
      · obtain ⟨env, session, rfl⟩ := htasks task htask
        trivial
    · -- those of the others, which the change does not touch
      rename_i hne
      rw [busy_joined_ne hne]
      exact (h.tasks d task htask).step hchange fun ch hch n hn =>
        hquiet ch hch task (mem_pending.mpr ⟨d, htask⟩) n hn
  | @resumes c order task tasks htask hr =>
    refine ⟨?_, ?_, fun d task' htask' => ?_, fun s hs => ?_⟩
    · exact hr.matching ▸ h.rooms
    · exact hr.matching ▸ h.index
    · rw [hr.matching, hr.joined]
      rw [hr.tasksOf] at htask'
      split at htask'
      · rename_i heq
        subst heq
        rcases List.mem_append.mp htask' with hrest | hold
        · exact (h.tasks d task (by rw [htask]; exact List.mem_cons_self)).rest h.rooms task' hrest
        · exact h.tasks d task' (by rw [htask]; exact List.mem_cons_of_mem _ hold)
      · exact h.tasks d task' htask'
    · rw [hr.sent] at hs
      rcases List.mem_append.mp hs with hold | hnew
      · exact h.sent s hold
      · cases task with
        | send conn e =>
          obtain rfl := List.mem_singleton.mp hnew
          exact (h.tasks c (.send conn e) (by rw [htask]; exact List.mem_cons_self)).2
        | _ => cases hnew

end ShadNet
