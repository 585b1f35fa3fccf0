import Mathlib.Logic.Function.Basic
import Mathlib.Tactic.Linarith

/-!
# Directories of who is online

A directory keeps an entry for each identity that is online: its name and the connection that
holds it. It can be looked up by name, and counts its entries twice, once by hand.

* `Ok`: entries and connections that are logged in belong to each other, names lead to their
  entries, and the count is right.
* `step_ok_iff`: a step from an `Ok` directory leads to an `Ok` one exactly when it is `Clean`: a
  login comes from a connection that can hold it, holds nothing and has a name that nobody has, and
  no identity is forgotten without its name.
-/

namespace Lib

variable {ι ν κ : Type*}

/-- Who is online, by id, by connection and by name. -/
@[ext] structure Directory (ι ν κ : Type*) where
  entry : ι → Option (ν × κ)
  /-- what a connection is logged in as -/
  holds : κ → Option (ι × ν)
  named : ν → Option ι
  /-- how many entries there are -/
  size : ℕ
  total : ℤ

namespace Directory

/-- What happens to a directory. -/
inductive Event (ι ν κ : Type*) where
  | quiet
  | login (c : κ) (id : ι) (name : ν)
  /-- a login on a connection that can hold nothing any more -/
  | enter (c : κ) (id : ι) (name : ν)
  /-- the entry of what the connection holds goes, and nothing else -/
  | forget (c : κ)
  /-- the entry goes, whoever holds it -/
  | erase (id : ι)
  | logout (c : κ)

section step

variable [DecidableEq ι] [DecidableEq κ]

/-- The entry of an id goes, whatever connection it belongs to. -/
def erase (d : Directory ι ν κ) (id : ι) : Directory ι ν κ :=
  { d with
    entry := Function.update d.entry id none
    size := if (d.entry id).isSome then d.size - 1 else d.size }

/-- An identity and its connection go. -/
def drop (d : Directory ι ν κ) (c : κ) (id : ι) : Directory ι ν κ :=
  { d.erase id with holds := Function.update d.holds c none }

variable [DecidableEq ν]

/-- An entry is put in, which its connection does not hold. -/
def enter (d : Directory ι ν κ) (c : κ) (id : ι) (name : ν) : Directory ι ν κ :=
  { d with
    entry := Function.update d.entry id (some (name, c))
    named := Function.update d.named name (some id)
    size := d.size + 1
    total := d.total + 1 }

/-- An entry is put in, and its connection holds it. -/
def login (d : Directory ι ν κ) (c : κ) (id : ι) (name : ν) : Directory ι ν κ :=
  { d.enter c id name with holds := Function.update d.holds c (some (id, name)) }

/-- The connection and its entry go, and the name with them. -/
def logout (d : Directory ι ν κ) (c : κ) (id : ι) (name : ν) : Directory ι ν κ :=
  { d.drop c id with
    named := if (d.entry id).isSome then Function.update d.named name none else d.named
    total := if 0 < d.total then d.total - 1 else d.total }

/-- The directory after one event. -/
def step (d : Directory ι ν κ) : Event ι ν κ → Directory ι ν κ
  | .quiet => d
  | .login c id name => d.login c id name
  | .enter c id name => d.enter c id name
  | .erase id => d.erase id
  | .forget c =>
    match d.holds c with
    | none => d
    | some (id, _) => d.drop c id
  | .logout c =>
    match d.holds c with
    | none => d
    | some (id, name) => d.logout c id name

end step

/-- The three tables and the counter agree. -/
structure Ok (d : Directory ι ν κ) : Prop where
  entries : ∀ id c, (∃ name, d.entry id = some (name, c)) ↔ ∃ name, d.holds c = some (id, name)
  names : ∀ name id, d.named name = some id ↔ ∃ c, d.entry id = some (name, c)
  total : d.total = d.size

/-- A connection and its entry agree on the name. -/
def Agree (d : Directory ι ν κ) : Prop :=
  ∀ c id name name', d.holds c = some (id, name) → d.entry id = some (name', c) → name' = name

/-- What has an entry is counted. -/
def Enumerated (d : Directory ι ν κ) : Prop := ∀ id, (d.entry id).isSome = true → 0 < d.size

/-- An event that can come in the directory. -/
def Enabled (d : Directory ι ν κ) : Event ι ν κ → Prop
  | .login _ id _ => d.entry id = none
  | .enter c _ _ => d.holds c = none
  | .forget c => (d.holds c).isSome = true
  | _ => True

/-- An event that leaves the tables in agreement. -/
def Clean (d : Directory ι ν κ) : Event ι ν κ → Prop
  | .login c _ name => d.holds c = none ∧ d.named name = none
  | .enter .. => False
  | .forget _ => False
  | .erase id => d.entry id = none
  | _ => True

variable {d : Directory ι ν κ} {c : κ} {id : ι} {name : ν}

/-- Two connections of one identity are the same. -/
theorem Ok.unique (h : d.Ok) {c' : κ} {name' : ν} (hc : d.holds c = some (id, name))
    (hc' : d.holds c' = some (id, name')) : c = c' := by
  obtain ⟨n, hn⟩ := (h.entries id c).mpr ⟨name, hc⟩
  obtain ⟨n', hn'⟩ := (h.entries id c').mpr ⟨name', hc'⟩
  exact (Prod.mk.inj (Option.some.inj (hn.symm.trans hn'))).2

variable [DecidableEq ι]

/-- An entry that goes may go without its holder only if there was none. -/
theorem erase_ok_iff (h : d.Ok) : (d.erase id).Ok ↔ d.entry id = none := by
  constructor
  · intro h'
    rw [Option.eq_none_iff_forall_not_mem]
    rintro ⟨n, c⟩ hn
    obtain ⟨n', hc⟩ := (h.entries id c).mp ⟨n, hn⟩
    obtain ⟨n'', hn''⟩ := (h'.entries id c).mpr ⟨n', hc⟩
    simp [erase] at hn''
  · intro hnone
    have hsame : d.erase id = d := by
      ext1
      · exact Function.update_eq_self_iff.mpr hnone.symm
      · rfl
      · rfl
      · simp [erase, hnone]
      · rfl
    rwa [hsame]

/-- What two tables agree on, they agree on without the entry. -/
theorem Agree.erase (h : d.Agree) (id : ι) : (d.erase id).Agree := by
  intro c' id' name name' hc' hid'
  simp only [Directory.erase, Function.update_apply] at hid'
  split at hid'
  · cases hid'
  · exact h c' id' name name' hc' hid'

section

variable [DecidableEq ν]

/-- A new entry on a connection that holds nothing has no holder. -/
theorem enter_not_ok (hc : d.holds c = none) : ¬ (d.enter c id name).Ok := by
  intro h'
  obtain ⟨n, hn⟩ := (h'.entries id c).mp ⟨name, Function.update_self ..⟩
  cases hc.symm.trans hn

end

variable [DecidableEq κ]

/-- The name of an entry that goes leads nowhere. -/
theorem forget_not_ok (h : d.Ok) (hc : d.holds c = some (id, name)) : ¬ (d.drop c id).Ok := by
  intro h'
  obtain ⟨n, hn⟩ := (h.entries id c).mpr ⟨name, hc⟩
  obtain ⟨c', hc'⟩ := (h'.names n id).mp ((h.names n id).mpr ⟨c, hn⟩)
  simp [drop, erase] at hc'

/-- What goes takes no name along. -/
theorem Agree.drop (h : d.Agree) (c : κ) (id : ι) : (d.drop c id).Agree := by
  intro c' id' name name' hc' hid'
  simp only [Directory.drop, Function.update_apply] at hc'
  split at hc'
  · cases hc'
  · exact h.erase id c' id' name name' hc' hid'

variable [DecidableEq ν]

/-- A login of somebody new on a connection of its own keeps the tables in agreement. -/
theorem login_ok (h : d.Ok) (hid : d.entry id = none) (hc : d.holds c = none)
    (hname : d.named name = none) : (d.login c id name).Ok := by
  refine ⟨fun id' c' => ?_, fun name' id' => ?_, ?_⟩
  · simp only [login, enter, Function.update_apply]
    by_cases hid' : id' = id <;> by_cases hc' : c' = c
    · simp [hid', hc']
    · -- no other connection holds the identity
      have hnone : ¬ ∃ n, d.holds c' = some (id, n) := fun hn => by
        obtain ⟨n, hn⟩ := (h.entries id c').mpr hn
        rw [hid] at hn
        cases hn
      simp only [if_neg hc', hid']
      refine iff_of_false ?_ hnone
      rintro ⟨n, hn⟩
      exact hc' (Prod.mk.inj (Option.some.inj hn)).2.symm
    · -- the connection holds no other identity
      have hnone : ¬ ∃ n, d.entry id' = some (n, c) := fun hn => by
        obtain ⟨n, hn⟩ := (h.entries id' c).mp hn
        rw [hc] at hn
        cases hn
      simp only [if_neg hid', hc']
      refine iff_of_false hnone ?_
      rintro ⟨n, hn⟩
      exact hid' (Prod.mk.inj (Option.some.inj hn)).1.symm
    · simpa [hid', hc'] using h.entries id' c'
  · simp only [login, enter, Function.update_apply]
    by_cases hid' : id' = id <;> by_cases hname' : name' = name
    · simp [hid', hname']
    · -- no other name leads to the identity
      have hnone : ¬ d.named name' = some id := fun hn => by
        obtain ⟨c', hc'⟩ := (h.names name' id).mp hn
        rw [hid] at hc'
        cases hc'
      simp only [if_neg hname', hid']
      refine iff_of_false hnone ?_
      rintro ⟨c', hn⟩
      exact hname' (Prod.mk.inj (Option.some.inj hn)).1.symm
    · -- no other identity has the name
      have hnone : ¬ ∃ c', d.entry id' = some (name, c') := fun hn => by
        have hnamed := (h.names name id').mpr hn
        rw [hname] at hnamed
        cases hnamed
      simp only [if_neg hid', hname']
      refine iff_of_false ?_ hnone
      intro hn
      exact hid' (Option.some.inj hn).symm
    · simpa [hid', hname'] using h.names name' id'
  · simp [login, enter, h.total]

/-- A login of a connection that is logged in leaves an entry that the connection holds no more,
and one under a name that is taken leaves an entry that its name does not lead to. -/
theorem login_not_ok (h : d.Ok) (hid : d.entry id = none)
    (hclash : ¬ (d.holds c = none ∧ d.named name = none)) : ¬ (d.login c id name).Ok := by
  intro h'
  apply hclash
  constructor
  · -- the old entry still says that `c` holds it, and `c` has the new one
    rw [Option.eq_none_iff_forall_not_mem]
    rintro ⟨old, n⟩ hold
    obtain ⟨n', hn'⟩ := (h.entries old c).mpr ⟨n, hold⟩
    have hne : old ≠ id := by
      rintro rfl
      rw [hid] at hn'
      cases hn'
    have hstay : (d.login c id name).entry old = some (n', c) := by
      simp [login, enter, hne, hn']
    obtain ⟨n'', hn''⟩ := (h'.entries old c).mp ⟨n', hstay⟩
    simp only [login, enter, Function.update_self, Option.some.injEq, Prod.mk.injEq] at hn''
    exact hne hn''.1.symm
  · -- the old entry still has the name, which leads to the new one
    rw [Option.eq_none_iff_forall_not_mem]
    intro old hold
    obtain ⟨c', hc'⟩ := (h.names name old).mp hold
    have hne : old ≠ id := by
      rintro rfl
      rw [hid] at hc'
      cases hc'
    have hstay : (d.login c id name).entry old = some (name, c') := by
      simp [login, enter, hne, hc']
    have hname := (h'.names name old).mpr ⟨c', hstay⟩
    simp only [login, enter, Function.update_self, Option.some.injEq] at hname
    exact hne hname.symm

/-- The logout of whoever the connection holds keeps the directory in order. -/
theorem logout_ok (h : d.Ok) (hagree : d.Agree) (hsize : d.Enumerated) (hc : d.holds c = some (id, name)) :
    (d.logout c id name).Ok := by
  obtain ⟨n, hentry⟩ := (h.entries id c).mpr ⟨name, hc⟩
  obtain rfl := hagree c id name n hc hentry
  have hsome : (d.entry id).isSome = true := by simp [hentry]
  have hpos := hsize id hsome
  refine ⟨fun id' c' => ?_, fun name' id' => ?_, ?_⟩
  · simp only [logout, drop, erase, Function.update_apply]
    by_cases hid' : id' = id <;> by_cases hc' : c' = c
    · simp [hid', hc']
    · have hnone : ¬ ∃ n, d.holds c' = some (id, n) := fun ⟨n', hn'⟩ => hc' (h.unique hn' hc)
      simpa [hid', hc'] using hnone
    · have hnone : ¬ ∃ n, d.entry id' = some (n, c) := fun hn => by
        obtain ⟨n', hn'⟩ := (h.entries id' c).mp hn
        rw [hc] at hn'
        exact hid' (Prod.mk.inj (Option.some.inj hn')).1.symm
      simpa [hid', hc'] using hnone
    · simpa [hid', hc'] using h.entries id' c'
  · simp only [logout, drop, erase, if_pos hsome, Function.update_apply]
    by_cases hid' : id' = id <;> by_cases hname' : name' = n
    · simp [hid', hname']
    · have hnone : ¬ d.named name' = some id := fun hn => by
        obtain ⟨c', hc'⟩ := (h.names name' id).mp hn
        rw [hentry] at hc'
        exact hname' (Prod.mk.inj (Option.some.inj hc')).1.symm
      simpa [hid', hname'] using hnone
    · have hnone : ¬ ∃ c', d.entry id' = some (n, c') := fun hn => by
        have hnamed := (h.names n id').mpr hn
        rw [(h.names n id).mpr ⟨c, hentry⟩] at hnamed
        exact hid' (Option.some.inj hnamed).symm
      simpa [hid', hname'] using hnone
    · simpa [hid', hname'] using h.names name' id'
  · have htotal := h.total
    simp only [logout, drop, erase, if_pos hsome]
    split <;> omega

/-- **Clean steps**, and no others, keep a directory in order. -/
theorem step_ok_iff (h : d.Ok) (hagree : d.Agree) (hsize : d.Enumerated) {e : Event ι ν κ}
    (hen : d.Enabled e) : (d.step e).Ok ↔ d.Clean e := by
  cases e with
  | quiet => exact iff_of_true h trivial
  | login c id name =>
    constructor
    · intro h'
      by_contra hclash
      exact login_not_ok h hen hclash h'
    · rintro ⟨hc, hname⟩
      exact login_ok h hen hc hname
  | enter c id name => exact iff_of_false (enter_not_ok hen) not_false
  | erase id => exact erase_ok_iff h
  | forget c =>
    obtain ⟨⟨id, name⟩, hc⟩ := Option.isSome_iff_exists.mp hen
    refine iff_of_false ?_ not_false
    simp only [step, hc]
    exact forget_not_ok h hc
  | logout c =>
    refine iff_of_true ?_ trivial
    unfold step
    cases hc : d.holds c with
    | none =>
      simp only [hc]
      exact h
    | some held =>
      simp only [hc]
      exact logout_ok h hagree hsize hc

/-- Every step keeps connections and entries in agreement. -/
theorem step_agree (h : d.Agree) {e : Event ι ν κ} (hen : d.Enabled e) : (d.step e).Agree := by
  cases e with
  | quiet => exact h
  | enter c id name =>
    -- the connection of the new entry holds nothing
    intro c' id' n n' hc' hid'
    simp only [step, enter, Function.update_apply] at hc' hid'
    split at hid'
    · cases hid'
      cases hen.symm.trans hc'
    · exact h c' id' n n' hc' hid'
  | erase id => exact h.erase id
  | login c id name =>
    intro c' id' n n' hc' hid'
    simp only [step, login, enter, Function.update_apply] at hc' hid'
    -- the connection and the entry are both the new ones, or both old
    split at hc' <;> split at hid'
    · cases hc'
      cases hid'
      rfl
    · rename_i hne
      cases hc'
      exact absurd rfl hne
    · rename_i hne _
      cases hid'
      exact absurd rfl hne
    · exact h c' id' n n' hc' hid'
  | forget c =>
    unfold step
    cases hc : d.holds c with
    | none =>
      simp only [hc]
      exact h
    | some held =>
      simp only [hc]
      exact h.drop c held.1
  | logout c =>
    unfold step
    cases hc : d.holds c with
    | none =>
      simp only [hc]
      exact h
    | some held =>
      simp only [hc]
      exact h.drop c held.1

end Directory

end Lib
