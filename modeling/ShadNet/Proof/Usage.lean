import ShadNet.Lib.Tally
import ShadNet.Spec.Server

/-!
# The usage counters

* `usage_exact`: after any calls of the three usage functions, a game has an entry in
  `usageGameUsers` exactly when some user is mapped to it, the entry is the number of these users,
  and a touch reports exactly a change of the user's mapping.
-/

namespace ShadNet

open Lib

variable {sh : SharedState} {userId : ℤ} {comId : String}

/-- The calls that keep the usage maps. -/
inductive UsageCall where
  | login
  | touch (userId : ℤ) (comId : String)
  | logout (userId : ℤ)

/-- What a call makes of the counters. -/
def UsageCall.run (sh : SharedState) : UsageCall → SharedState
  | login => usageOnLogin sh
  | touch userId comId => (usageTouchGame sh userId comId).1
  | logout userId => usageOnLogout sh userId

/-- `usageGameUsers` counts the users that `usageClientGame` maps to each game. -/
def UsageTallied (sh : SharedState) : Prop :=
  Tallies sh.usageGameUsers fun c => (sh.usageClientGame.usersOf c).length

theorem leaveGame_tallies {games : Table String ℤ} {f : String → ℕ} (h : Tallies games f)
    (hpos : 0 < f comId) : Tallies (leaveGame games comId) fun c => if c = comId then f c - 1 else f c := by
  have hget : games.get? comId = some (f comId : ℤ) := h.get?_eq_some_iff.mpr ⟨hpos, rfl⟩
  have := h.leave hget
  unfold leaveGame
  rwa [hget]

/-- The game that a user is mapped to counts somebody. -/
theorem length_usersOf_pos {old : String} (hold : sh.usageClientGame.get? userId = some old) :
    0 < (sh.usageClientGame.usersOf old).length :=
  List.length_pos_of_mem (Table.mem_usersOf.mpr hold)

/-! ## The three calls -/

theorem usageOnLogin_tallied (h : UsageTallied sh) : UsageTallied (usageOnLogin sh) := h

theorem usageOnLogout_tallied (h : UsageTallied sh) : UsageTallied (usageOnLogout sh userId) := by
  unfold usageOnLogout
  cases hold : sh.usageClientGame.get? userId with
  | none =>
    simp only [hold]
    exact h
  | some old =>
    simp only [hold]
    refine (leaveGame_tallies h (length_usersOf_pos hold)).congr fun c => ?_
    rw [Table.usersOf_del, Table.length_usersOf _ userId, hold]
    by_cases hc : c = old
    · subst hc
      simp
    · have hne : old ≠ c := Ne.symm hc
      simp [hc, hne]

theorem usageTouchGame_tallied (h : UsageTallied sh) :
    UsageTallied (usageTouchGame sh userId comId).1 := by
  unfold usageTouchGame
  by_cases hempty : comId = ""
  · rw [if_pos hempty]
    exact h
  rw [if_neg hempty]
  cases hold : sh.usageClientGame.get? userId with
  | none =>
    refine (h.enter comId).congr fun c => ?_
    simp only
    rw [Table.usersOf_set, Table.length_usersOf _ userId, hold]
    by_cases hc : c = comId
    · subst hc
      simp
    · have hne : comId ≠ c := Ne.symm hc
      simp [hc, hne]
  | some old =>
    simp only
    by_cases hsame : old = comId
    · rw [if_pos hsame]
      exact h
    rw [if_neg hsame]
    -- the user leaves one game for the other
    refine ((leaveGame_tallies h (length_usersOf_pos hold)).enter comId).congr fun c => ?_
    simp only
    rw [Table.usersOf_set, Table.length_usersOf _ userId, hold]
    by_cases hc : c = comId
    · subst hc
      have hne : c ≠ old := Ne.symm hsame
      simp [hsame, hne]
    · have hne : comId ≠ c := Ne.symm hc
      by_cases ho : c = old
      · subst ho
        simp [hc, hne]
      · have hno : old ≠ c := Ne.symm ho
        simp [hc, hne, ho, hno]

/-- **A call** keeps the tallies. -/
theorem UsageCall.run_tallied (call : UsageCall) (h : UsageTallied sh) :
    UsageTallied (call.run sh) := by
  cases call with
  | login => exact usageOnLogin_tallied h
  | touch userId comId => exact usageTouchGame_tallied h
  | logout userId => exact usageOnLogout_tallied h

/-- **A touch reports a change** exactly when the user's game is another one. -/
theorem usageTouchGame_changed (sh : SharedState) (userId : ℤ) (comId : String) :
    (usageTouchGame sh userId comId).2 = true ↔
      (usageTouchGame sh userId comId).1.usageClientGame.get? userId ≠ sh.usageClientGame.get? userId := by
  unfold usageTouchGame
  by_cases hempty : comId = ""
  · simp [hempty]
  rw [if_neg hempty]
  cases hold : sh.usageClientGame.get? userId with
  | none => simp
  | some old =>
    by_cases hsame : old = comId
    · simp [hsame, hold]
    · have hne : comId ≠ old := Ne.symm hsame
      simp [hsame, hne]

/-! ## A run -/

/-- What the usage maps say of each game, and a touch of each user. -/
structure UsageExact (sh : SharedState) : Prop where
  entry : ∀ c, (∃ n, sh.usageGameUsers.get? c = some n) ↔
    ∃ userId, sh.usageClientGame.get? userId = some c
  /-- the number of the users mapped to the game, each counted once -/
  number : ∀ c n, sh.usageGameUsers.get? c = some n →
    ∃ users : List ℤ, users.Nodup ∧ (∀ userId, userId ∈ users ↔ sh.usageClientGame.get? userId = some c) ∧
      n = users.length ∧ 0 < n
  changed : ∀ userId comId, (usageTouchGame sh userId comId).2 = true ↔
    (usageTouchGame sh userId comId).1.usageClientGame.get? userId ≠ sh.usageClientGame.get? userId

theorem UsageTallied.exact (h : UsageTallied sh) : UsageExact sh where
  entry c := by
    constructor
    · rintro ⟨n, hn⟩
      obtain ⟨userId, hu⟩ := List.exists_mem_of_length_pos (h.get?_eq_some_iff.mp hn).1
      exact ⟨userId, Table.mem_usersOf.mp hu⟩
    · rintro ⟨userId, hu⟩
      exact ⟨_, h.get?_eq_some_iff.mpr ⟨length_usersOf_pos hu, rfl⟩⟩
  number c n hn := by
    obtain ⟨hpos, heq⟩ := h.get?_eq_some_iff.mp hn
    refine ⟨sh.usageClientGame.usersOf c, Table.nodup_usersOf _ c, fun u => Table.mem_usersOf, heq, ?_⟩
    omega
  changed := usageTouchGame_changed sh

/-- **The usage counters are exact** at every point of every sequence of calls. They are `int`s: fewer than
`2^31` users are online at once. -/
theorem usage_exact (calls : List UsageCall) (n : ℕ) : UsageExact (runAt UsageCall.run {} calls n) := by
  have h0 : UsageTallied {} := Tallies.empty
  exact (runAt_inv h0 (fun s call h => call.run_tallied h) calls n).exact

end ShadNet
