import ShadNet.Lib.Run
import ShadNet.Lib.Table

/-!
# A cache in front of what changes

Requests are answered from a cache if the entry of their key has not expired. Otherwise the answer is
built from reads of the world, put into the cache, and given. Between any two of these steps the world
goes on, and so do other requests.

* `ReadsFor`: what was read for a request, each part after it was asked.
* `BuiltFor`: what the reads of a request have come to is its value.
* `Traced`: what is in the cache, waits or was answered was read so.
* `answered_fresh`: so an answer is made of reads of the world after it was asked for by a request of the
  same key, and that was less than the life of an entry before the answer was asked for.
-/

namespace Lib

variable {κ Q B ν E σ ε : Type*} [DecidableEq κ]

/-- What a request has come to: whose it is, when it was asked, and what has been read for it. -/
structure Waiting (Q B : Type*) where
  query : Q
  start : ℤ
  built : B

/-- An answer, with the time at which its request looked into the cache. -/
structure Answered (Q ν : Type*) where
  query : Q
  start : ℤ
  value : ν

/-- The entries with the times at which they expire, the requests that wait, by number, and all answers
so far. -/
structure ReadThrough (κ Q B ν : Type*) where
  entries : Table κ (ν × ℤ) := ∅
  waiting : Table ℕ (Waiting Q B) := ∅
  answered : List (Answered Q ν) := []

/-- How keys and answers are made, and how long an entry lives. -/
structure ReadThrough.Plan (κ Q B ν E σ : Type*) where
  key : Q → κ
  /-- before the first read -/
  unread : Q → B
  /-- one read, if there is another one -/
  read : B → E → σ → Option B
  /-- what was read, if that is all -/
  value : B → Option ν
  life : ℤ

/-- What happens around a cache, in the order of the locks. -/
inductive CacheEvent (ε Q E : Type*) where
  /-- the world goes on -/
  | world (e : ε)
  /-- a request looks into the cache -/
  | ask (r : ℕ) (query : Q) (now : ℤ)
  /-- and reads a part of its answer -/
  | build (r : ℕ) (env : E)
  /-- and leaves the answer there -/
  | store (r : ℕ)

namespace ReadThrough

variable (plan : Plan κ Q B ν E σ) (c : ReadThrough κ Q B ν)

/-- A request takes the stored answer if it is fresh enough, and waits for its own otherwise. -/
def ask (r : ℕ) (query : Q) (now : ℤ) : ReadThrough κ Q B ν :=
  match (c.entries.get? (plan.key query)).filter (now < ·.2) with
  | some entry => { c with answered := c.answered ++ [⟨query, now, entry.1⟩] }
  | none => { c with waiting := c.waiting.set r ⟨query, now, plan.unread query⟩ }

/-- A request that waits reads a part of the world as it is then. -/
def build (r : ℕ) (env : E) (world : σ) : ReadThrough κ Q B ν :=
  { c with waiting := c.waiting.modify r fun w =>
      { w with built := (plan.read w.built env world).getD w.built } }

/-- A request that has read all that it needs answers, and leaves the answer in the cache. -/
def store (r : ℕ) : ReadThrough κ Q B ν :=
  match c.waiting.get? r with
  | none => c
  | some w =>
    match plan.value w.built with
    | none => c
    | some value =>
      { entries := c.entries.set (plan.key w.query) (value, w.start + plan.life)
        waiting := c.waiting.del r
        answered := c.answered ++ [⟨w.query, w.start, value⟩] }

end ReadThrough

/-- The world and the cache in front of it. -/
def cacheStep (worldStep : σ → ε → σ) (plan : ReadThrough.Plan κ Q B ν E σ)
    (s : σ × ReadThrough κ Q B ν) : CacheEvent ε Q E → σ × ReadThrough κ Q B ν
  | .world e => (worldStep s.1 e, s.2)
  | .ask r query now => (s.1, s.2.ask plan r query now)
  | .build r env => (s.1, s.2.build plan r env s.1)
  | .store r => (s.1, s.2.store plan r)

/-! ## Where answers come from -/

section Traced

variable (worldStep : σ → ε → σ) (plan : ReadThrough.Plan κ Q B ν E σ) (world : σ)
  (es : List (CacheEvent ε Q E))

/-- The world and the cache after the first `n` events. -/
def cacheAfter (n : ℕ) : σ × ReadThrough κ Q B ν := runAt (cacheStep worldStep plan) (world, {}) es n

/-- What happened to the world. -/
def worldEvents (es : List (CacheEvent ε Q E)) (n : ℕ) : List ε :=
  (es.take n).filterMap fun e => match e with
    | .world e => some e
    | _ => none

/-- Among the first `n` events a request was asked at the time `start`, and after that the world was
read for it: at which events, one after the other, and with what surroundings. -/
structure ReadsFor (es : List (CacheEvent ε Q E)) (n r : ℕ) (query : Q) (start : ℤ)
    (reads : List (ℕ × E)) : Prop where
  asked : ∃ a < n, es[a]? = some (.ask r query start) ∧ ∀ p ∈ reads, a < p.1
  built : ∀ p ∈ reads, p.1 < n ∧ es[p.1]? = some (.build r p.2)
  order : reads.Pairwise (·.1 < ·.1)

/-- The value that the reads build up. -/
def readAll (query : Q) (reads : List (ℕ × E)) : Option B :=
  reads.foldlM (fun b p => plan.read b p.2 (cacheAfter worldStep plan world es p.1).1) (plan.unread query)

/-- The value was read for a request. -/
def BuiltFor (n : ℕ) (query : Q) (start : ℤ) (value : ν) : Prop :=
  ∃ r reads, ReadsFor es n r query start reads ∧
    (readAll worldStep plan world es query reads).bind plan.value = some value

/-- Everything that is there was read. -/
structure Traced (n : ℕ) (c : ReadThrough κ Q B ν) : Prop where
  entries : ∀ key entry, c.entries.get? key = some entry → ∃ query start, plan.key query = key ∧
    entry.2 = start + plan.life ∧ BuiltFor worldStep plan world es n query start entry.1
  waiting : ∀ r w, c.waiting.get? r = some w → ∃ reads, ReadsFor es n r w.query w.start reads ∧
    readAll worldStep plan world es w.query reads = some w.built
  answered : ∀ x ∈ c.answered, ∃ query start, plan.key query = plan.key x.query ∧
    (x.start < start + plan.life ∨ query = x.query ∧ start = x.start) ∧
    BuiltFor worldStep plan world es n query start x.value

variable {worldStep plan world es} {n m r : ℕ} {query : Q} {start : ℤ} {value : ν}
  {reads : List (ℕ × E)} {c : ReadThrough κ Q B ν}

/-- What was read up to an event was read up to any later one. -/
theorem ReadsFor.mono (h : ReadsFor es n r query start reads) (hnm : n ≤ m) :
    ReadsFor es m r query start reads where
  asked := by
    obtain ⟨a, ha, hask⟩ := h.asked
    exact ⟨a, by omega, hask⟩
  built p hp := ⟨(h.built p hp).1.trans_le hnm, (h.built p hp).2⟩
  order := h.order

/-- A request that was just asked has read nothing. -/
theorem ReadsFor.ask (he : es[n]? = some (.ask r query start)) : ReadsFor es (n + 1) r query start [] where
  asked := ⟨n, n.lt_succ_self, he, fun _ hp => absurd hp List.not_mem_nil⟩
  built _ hp := absurd hp List.not_mem_nil
  order := .nil

/-- The reads for a request, with one more behind them. -/
theorem ReadsFor.append (h : ReadsFor es n r query start reads) {env : E}
    (he : es[n]? = some (.build r env)) :
    ReadsFor es (n + 1) r query start (reads ++ [(n, env)]) where
  asked := by
    obtain ⟨a, ha, hask, hlt⟩ := h.asked
    refine ⟨a, by omega, hask, fun p hp => ?_⟩
    rcases List.mem_append.mp hp with hp | hp
    · exact hlt p hp
    · obtain rfl := List.mem_singleton.mp hp
      exact ha
  built p hp := by
    rcases List.mem_append.mp hp with hp | hp
    · exact ⟨(h.built p hp).1.trans n.lt_succ_self, (h.built p hp).2⟩
    · obtain rfl := List.mem_singleton.mp hp
      exact ⟨n.lt_succ_self, he⟩
  order := by
    refine List.pairwise_append.mpr ⟨h.order, List.pairwise_singleton _ _, fun p hp q hq => ?_⟩
    obtain rfl := List.mem_singleton.mp hq
    exact (h.built p hp).1

/-- What was built by the event `n` was built by any later one. -/
theorem BuiltFor.mono (h : BuiltFor worldStep plan world es n query start value) (hnm : n ≤ m) :
    BuiltFor worldStep plan world es m query start value := by
  obtain ⟨r, reads, hreads, hvalue⟩ := h
  exact ⟨r, reads, hreads.mono hnm, hvalue⟩

theorem Traced.mono (h : Traced worldStep plan world es n c) (hnm : n ≤ m) :
    Traced worldStep plan world es m c where
  entries key entry hentry := by
    obtain ⟨query, start, hkey, hexpiry, hbuilt⟩ := h.entries key entry hentry
    exact ⟨query, start, hkey, hexpiry, hbuilt.mono hnm⟩
  waiting r w hw := by
    obtain ⟨reads, hreads, hall⟩ := h.waiting r w hw
    exact ⟨reads, hreads.mono hnm, hall⟩
  answered x hx := by
    obtain ⟨query, start, hkey, hfresh, hbuilt⟩ := h.answered x hx
    exact ⟨query, start, hkey, hfresh, hbuilt.mono hnm⟩

/-- **The world does not know of the cache.** -/
theorem cacheAfter_world (n : ℕ) : (cacheAfter worldStep plan world es n).1 =
    (worldEvents es n).foldl worldStep world := by
  unfold cacheAfter worldEvents runAt
  generalize es.take n = l
  suffices h : ∀ c : ReadThrough κ Q B ν, (l.foldl (cacheStep worldStep plan) (world, c)).1 =
      (l.filterMap _).foldl worldStep world from h {}
  induction l generalizing world with
  | nil => exact fun c => rfl
  | cons e l ih =>
    intro c
    cases e with
    | world e => exact ih (c := c)
    | ask r query now => exact ih (c := c.ask plan r query now)
    | build r env => exact ih (c := c.build plan r env world)
    | store r => exact ih (c := c.store plan r)

/-- A request that finds an entry is answered with it, and waits otherwise. -/
theorem Traced.ask (h : Traced worldStep plan world es n c) {now : ℤ}
    (he : es[n]? = some (.ask r query now)) :
    Traced worldStep plan world es (n + 1) (c.ask plan r query now) := by
  have hold := h.mono n.le_succ
  unfold ReadThrough.ask
  split
  · rename_i entry hentry
    obtain ⟨hentry, hlive⟩ := Option.filter_eq_some_iff.mp hentry
    refine ⟨hold.entries, hold.waiting, fun x hx => ?_⟩
    rcases List.mem_append.mp hx with hx | hx
    · exact hold.answered x hx
    · obtain rfl := List.mem_singleton.mp hx
      obtain ⟨query', start, hkey, hexpiry, hbuilt⟩ := hold.entries _ entry hentry
      rw [hexpiry] at hlive
      exact ⟨query', start, hkey, Or.inl (by simpa using hlive), hbuilt⟩
  · refine ⟨hold.entries, fun r' w hw => ?_, hold.answered⟩
    rcases Table.of_get?_set hw with ⟨rfl, rfl⟩ | ⟨-, hw⟩
    · exact ⟨[], ReadsFor.ask he, rfl⟩
    · exact hold.waiting r' w hw

/-- What is read is of the world as it is. -/
theorem Traced.build (h : Traced worldStep plan world es n c) {env : E}
    (he : es[n]? = some (.build r env)) :
    Traced worldStep plan world es (n + 1)
      (c.build plan r env (cacheAfter worldStep plan world es n).1) := by
  have hold := h.mono n.le_succ
  refine ⟨hold.entries, fun r' w hw => ?_, hold.answered⟩
  unfold ReadThrough.build at hw
  simp only at hw
  rw [Table.get?_modify] at hw
  split at hw
  · rename_i heq
    subst heq
    obtain ⟨w', hw', rfl⟩ := Option.map_eq_some_iff.mp hw
    obtain ⟨reads, hreads, hall⟩ := h.waiting _ w' hw'
    cases hread : plan.read w'.built env (cacheAfter worldStep plan world es n).1 with
    | none => exact ⟨reads, hreads.mono n.le_succ, hall⟩
    | some b =>
      refine ⟨_, hreads.append he, ?_⟩
      unfold readAll at hall ⊢
      rw [List.foldlM_append, hall]
      simp [hread]
  · exact hold.waiting r' w hw

/-- What is stored was read for the request that stores it. -/
theorem Traced.store (h : Traced worldStep plan world es n c) (r : ℕ) :
    Traced worldStep plan world es (n + 1) (c.store plan r) := by
  have hold := h.mono n.le_succ
  unfold ReadThrough.store
  split
  · exact hold
  · rename_i w hw
    split
    · exact hold
    · rename_i value hvalue
      obtain ⟨reads, hreads, hall⟩ := hold.waiting r w hw
      have hbuilt : BuiltFor worldStep plan world es (n + 1) w.query w.start value :=
        ⟨r, reads, hreads, by rw [hall, Option.bind_some, hvalue]⟩
      refine ⟨fun key entry hentry => ?_, fun r' w hw' => ?_, fun x hx => ?_⟩
      · rcases Table.of_get?_set hentry with ⟨rfl, rfl⟩ | ⟨-, hentry⟩
        · exact ⟨w.query, w.start, rfl, rfl, hbuilt⟩
        · exact hold.entries key entry hentry
      · exact hold.waiting r' w (Table.of_get?_del hw').2
      · rcases List.mem_append.mp hx with hx | hx
        · exact hold.answered x hx
        · obtain rfl := List.mem_singleton.mp hx
          exact ⟨w.query, w.start, rfl, Or.inr ⟨rfl, rfl⟩, hbuilt⟩

/-- **Along every run** each answer, and each entry of the cache, can be traced to what was read for
it. -/
theorem traced (n : ℕ) :
    Traced worldStep plan world es n (cacheAfter worldStep plan world es n).2 := by
  induction n with
  | zero =>
    refine ⟨fun key entry h => ?_, fun r w h => ?_, fun x hx => ?_⟩
    · cases h
    · cases h
    · cases hx
  | succ n ih =>
    by_cases hn : n < es.length
    · have hsucc : cacheAfter worldStep plan world es (n + 1) =
          cacheStep worldStep plan (cacheAfter worldStep plan world es n) es[n] := runAt_succ _ hn
      have he := List.getElem?_eq_getElem hn
      rw [hsucc]
      cases hevent : es[n] with
      | world e => exact ih.mono n.le_succ
      | ask r query now => exact ih.ask (he.trans (congrArg some hevent))
      | build r env => exact ih.build (he.trans (congrArg some hevent))
      | store r => exact ih.store r
    · have hover : cacheAfter worldStep plan world es (n + 1) = cacheAfter worldStep plan world es n :=
        runAt_over _ (by omega)
      rw [hover]
      exact ih.mono n.le_succ

/-- **Answers are fresh**: made of reads of the world after a request of the same key was asked, and that
was less than the life of an entry before, or is the request that is answered. -/
theorem answered_fresh (x : Answered Q ν) (hx : x ∈ (cacheAfter worldStep plan world es n).2.answered) :
    ∃ query start, plan.key query = plan.key x.query ∧
      (x.start < start + plan.life ∨ query = x.query ∧ start = x.start) ∧
      BuiltFor worldStep plan world es n query start x.value :=
  (traced n).answered x hx

end Traced

end Lib
