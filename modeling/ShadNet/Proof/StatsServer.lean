import ShadNet.Proof.ShadNetServer
import ShadNet.Spec.BloodborneRoutes
import ShadNet.Spec.PacketBuilder
import ShadNet.Spec.StatsServer

/-!
# What the stats server tells

* `StatsQuery.key_injective`: no two queries share a key.
* `stats_fresh`: so every body is that of its own query, made of reads of the server not long before.
-/

namespace ShadNet

open Lib

/-! ## Keys -/

/-- The last mark of a text is where it was put. -/
theorem append_mark_inj {α : Type*} {x : α} {l l' r r' : List α} (hr : x ∉ r) (hr' : x ∉ r')
    (h : l ++ x :: r = l' ++ x :: r') : l = l' ∧ r = r' := by
  classical
  have hlast : ∀ l r : List α, x ∉ r → (l ++ x :: r).reverse.takeWhile (· ≠ x) = r.reverse := by
    intro l r hr
    rw [List.reverse_append, List.reverse_cons, List.append_assoc, List.takeWhile_append_of_pos]
    · simp
    · intro a ha
      have hne : a ≠ x := by
        rintro rfl
        exact hr (List.mem_reverse.mp ha)
      simpa using hne
  have hreq : r = r' := by rw [← List.reverse_inj, ← hlast l r hr, h, hlast l' r' hr']
  subst hreq
  exact ⟨List.append_cancel_right h, rfl⟩

theorem mem_trim {p : Char → Bool} {l : List Char} {c : Char} (hc : c ∈ l) (hp : p c = false) :
    c ∈ ((l.dropWhile p).reverse.dropWhile p).reverse := by
  have hdrop : ∀ l : List Char, c ∈ l → c ∈ l.dropWhile p := by
    intro l hc
    rw [← List.takeWhile_append_dropWhile (p := p) (l := l)] at hc
    rcases List.mem_append.mp hc with hc | hc
    · have := List.all_eq_true.mp List.all_takeWhile c hc
      rw [hp] at this
      cases this
    · exact hc
  rw [List.mem_reverse]
  exact hdrop _ (List.mem_reverse.mpr (hdrop l hc))

theorem digits?_isDigit {ds : List Char} {n : ℕ} (h : digits? ds = some n) : ∀ c ∈ ds, c.isDigit = true := by
  unfold digits? at h
  split at h
  · cases h
  · split at h
    · rename_i hall
      exact fun c hc => List.all_eq_true.mp hall c hc
    · cases h

/-- A number has no colon. -/
theorem toUInt?_noColon {s : String} {n : ℕ} (h : toUInt? s = some n) : ':' ∉ s.toList := by
  intro hc
  have hmem := mem_trim (p := Char.isWhitespace) hc (by decide)
  unfold toUInt? parseUInt? at h
  obtain ⟨m, hm, -⟩ := Option.bind_eq_some_iff.mp h
  split at hm
  · rename_i ds heq
    rw [heq] at hmem
    have := digits?_isDigit hm ':' (List.mem_of_ne_of_mem (by decide) hmem)
    cases this
  · have := digits?_isDigit hm ':' hmem
    cases this

namespace StatsQuery

/-- The first six characters of a key. -/
def tag : StatsQuery → String
  | usage => "usage"
  | registered => "regist"
  | scorelist => "scorel"
  | score _ => "score:"
  | board _ _ _ _ => "board:"

theorem key_score (comId : String) :
    (key (score comId)).toList = "score:".toList ++ comId.toList := String.toList_append ..

theorem key_board (comId boardStr : String) {boardId : ℕ} (read : toUInt? boardStr = some boardId) :
    (key (board comId boardStr boardId read)).toList =
      "board:".toList ++ (comId.toList ++ ':' :: boardStr.toList) := by
  simp [key, String.toList_append]

theorem take_key (q : StatsQuery) : q.key.toList.take 6 = q.tag.toList := by
  cases q with
  | score comId => rw [key_score, List.take_left' (by decide), tag]
  | board comId boardStr boardId read => rw [key_board, List.take_left' (by decide), tag]
  | _ => decide

/-- **No two queries share a key.** A game's id may have a colon in it, but not the number behind it. -/
theorem key_injective {q q' : StatsQuery} (h : q.key = q'.key) : q = q' := by
  have hlist := congrArg String.toList h
  have htag : q.tag = q'.tag := by
    rw [← String.toList_inj, ← take_key, ← take_key, h]
  cases q <;> cases q' <;> first | rfl | (simp [tag] at htag; done) | skip
  case score.score comId comId' =>
    rw [key_score, key_score, List.append_cancel_left_eq, String.toList_inj] at hlist
    rw [hlist]
  case board.board comId boardStr boardId read comId' boardStr' boardId' read' =>
    rw [key_board, key_board, List.append_cancel_left_eq] at hlist
    obtain ⟨hcomId, hboardStr⟩ := append_mark_inj (toUInt?_noColon read) (toUInt?_noColon read') hlist
    obtain rfl := String.toList_inj.mp hcomId
    obtain rfl := String.toList_inj.mp hboardStr
    obtain rfl := Option.some.inj (read.symm.trans read')
    rfl

end StatsQuery

/-! ## Bodies -/

/-- **The body of a query**, of what is seen of the server. A game's is made of the boards that the first
view lists, each as the next view has it; the others are of one view. -/
def StatsQuery.body : StatsQuery → List (ShadNetServer × StatsEnv) → Option JsonObject
  | .usage, [v] => some (buildUsageJson v.1.shared v.2.order)
  | .registered, [v] => some (buildRegisteredJson v.1.db v.2)
  | .scorelist, [v] => some (buildScoreListJson v.1.scores.scores.db v.1.titleNames v.2)
  | .board comId _ boardId _, [v] =>
    some (buildBoardScoreJson v.1.scores.scores.cache v.2.now comId boardId)
  | .score comId, v :: views =>
    let boards := listBoards v.1.scores.scores.cache comId
    if views.length = boards.length then
      some (comIdScoreJson comId (List.zipWith
        (fun boardId v => boardToJson v.1.scores.scores.cache v.2.now comId boardId) boards views))
    else none
  | _, _ => none

/-- Reading a body view by view. -/
def StatsBuild.readViews (b : StatsBuild) (views : List (ShadNetServer × StatsEnv)) : Option StatsBuild :=
  views.foldlM (fun b v => b.read v.1 v.2) b

/-- A body that is complete reads no more. -/
theorem StatsBuild.readViews_built (root : JsonObject) (views : List (ShadNetServer × StatsEnv)) :
    ((built root).readViews views).bind body = if views = [] then some root else none := by
  cases views with
  | nil => rfl
  | cons v views => rfl

/-- The loop takes one view for each board. -/
theorem StatsBuild.readViews_looping (comId : String) (boards : List ℕ) (boardsArr : List Json)
    (views : List (ShadNetServer × StatsEnv)) :
    ((looping comId boards boardsArr).readViews views).bind body =
      if views.length = boards.length then
        some (comIdScoreJson comId (boardsArr ++ List.zipWith
          (fun boardId v => boardToJson v.1.scores.scores.cache v.2.now comId boardId) boards views))
      else none := by
  induction boards generalizing views boardsArr with
  | nil =>
    cases views with
    | nil => simp [readViews, body]
    | cons v views => rfl
  | cons boardId boards ih =>
    cases views with
    | nil => rfl
    | cons v views =>
      have hread : (looping comId (boardId :: boards) boardsArr).readViews (v :: views) =
          (looping comId boards
            (boardsArr ++ [boardToJson v.1.scores.scores.cache v.2.now comId boardId])).readViews views := rfl
      rw [hread, ih]
      simp

/-- **What is read is the body.** -/
theorem StatsBuild.readViews_body (query : StatsQuery) (views : List (ShadNetServer × StatsEnv)) :
    ((unread query).readViews views).bind body = query.body views := by
  cases views with
  | nil => cases query <;> rfl
  | cons v views =>
    have hread : (unread query).readViews (v :: views) =
        ((unread query).read v.1 v.2).bind fun b => b.readViews views := rfl
    rw [hread]
    cases query with
    | score comId =>
      exact (readViews_looping comId _ [] views).trans (by simp [StatsQuery.body])
    | usage | registered | scorelist | board =>
      simp only [read, Option.bind_some, readViews_built]
      cases views <;> rfl

/-- The server on the network after the part of the first `n` events that is its own. -/
theorem statsAfter_server (setup : StatsSetup) (start : ServerStart)
    (events : List (CacheEvent NetworkEvent StatsQuery StatsEnv)) (n : ℕ) :
    (statsAfter setup start events n).1 = networkAfter setup.toNetworkSetup start (worldEvents events n)
      (worldEvents events n).length := by
  unfold statsAfter networkAfter
  rw [cacheAfter_world, runAt_length]

/-- **Bodies are fresh.** What a request is told is the body of its own query, made of reads of the server
as it was after some request for the same was asked; and that was less than the life of an entry before
this one was asked, or is this one. -/
theorem stats_fresh (setup : StatsSetup) (start : ServerStart)
    (events : List (CacheEvent NetworkEvent StatsQuery StatsEnv)) (n : ℕ) :
    ∀ x ∈ (statsAfter setup start events n).2.answered, ∃ r asked reads root,
      ReadsFor events n r x.query asked reads ∧
      (x.start < asked + setup.cacheLife ∨ asked = x.start) ∧
      x.query.body (reads.map fun p => (networkAfter setup.toNetworkSetup start
        (worldEvents events p.1) (worldEvents events p.1).length, p.2)) = some root ∧
      x.value = setup.toJson root := by
  intro x hx
  obtain ⟨query, asked, hkey, hfresh, r, reads, hreads, hvalue⟩ := answered_fresh x hx
  obtain rfl := StatsQuery.key_injective hkey
  have hlife : x.start < asked + setup.cacheLife ∨ asked = x.start := hfresh.imp id And.right
  have hviews : readAll (fun w e => ShadNetServer.step w setup.toNetworkSetup e) setup.plan start.server
      events x.query reads = (StatsBuild.unread x.query).readViews (reads.map fun p =>
        (networkAfter setup.toNetworkSetup start (worldEvents events p.1)
          (worldEvents events p.1).length, p.2)) := by
    unfold StatsBuild.readViews readAll
    rw [List.foldlM_map]
    simp only [← statsAfter_server]
    rfl
  rw [hviews] at hvalue
  obtain ⟨b, hb, hvalue⟩ := Option.bind_eq_some_iff.mp hvalue
  obtain ⟨root, hroot, hjson⟩ := Option.map_eq_some_iff.mp hvalue
  refine ⟨r, asked, reads, root, hreads, hlife, ?_, hjson.symm⟩
  rw [← StatsBuild.readViews_body, hb]
  exact hroot

/-! ### An answer from the cache -/

/-- A server whose statistics are kept for 30 seconds. -/
def StatsSetup.plain : StatsSetup := { NetworkSetup.plain with
  toJson := SummonBroker.toJsonCompact fun n => toUtf8 (toString n.num)
  cacheLife := 30 }

/-- The database can be opened, and its queries succeed. -/
def StatsEnv.plain : StatsEnv := ⟨.listed, true, true, 0⟩

/-- A game with two boards that nobody is on. -/
def twoBoards : ServerStart := { ServerStart.plain with
  scores := ⟨⟨⟨∅, []⟩, (∅ : Table String _).set "NPWR00001_00"
    (((∅ : Table ℕ _).set 0 ⟨[], ∅, {}, 5⟩).set 1 ⟨[], ∅, {}, 6⟩)⟩, {}⟩ }

/-- Somebody connects while the boards are read, and then another one asks for the same. -/
def scoreTwice : List (CacheEvent NetworkEvent StatsQuery StatsEnv) :=
  [.ask 0 (.score "NPWR00001_00") 10, .build 0 .plain, .build 0 .plain, .world (.connect "10.0.0.2"),
    .build 0 .plain, .store 0, .ask 1 (.score "NPWR00001_00") 12]

theorem stats_fresh_twice :
    ∃ x ∈ (statsAfter .plain twoBoards scoreTwice 7).2.answered, x.start = 12 ∧
      ∃ r asked reads root, ReadsFor scoreTwice 7 r (.score "NPWR00001_00") asked reads ∧
        (x.start < asked + 30 ∨ asked = x.start) ∧
        (StatsQuery.score "NPWR00001_00").body (reads.map fun p => (networkAfter .plain twoBoards
          (worldEvents scoreTwice p.1) (worldEvents scoreTwice p.1).length, p.2)) = some root ∧
        x.value = StatsSetup.plain.toJson root := by
  have hlast : ((statsAfter .plain twoBoards scoreTwice 7).2.answered[1]?).map
      (fun x => (x.query.key, x.start)) = some ("score:NPWR00001_00", 12) := by
    decide +kernel
  obtain ⟨x, hx, heq⟩ := Option.map_eq_some_iff.mp hlast
  obtain ⟨hkey, hstart⟩ := Prod.mk.inj heq
  have hquery : x.query = .score "NPWR00001_00" := StatsQuery.key_injective hkey
  have hmem := List.mem_of_getElem? hx
  have hfresh := stats_fresh .plain twoBoards scoreTwice 7 x hmem
  rw [hquery] at hfresh
  exact ⟨x, hmem, hstart, hfresh⟩

end ShadNet
