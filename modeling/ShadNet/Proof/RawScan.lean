import ShadNet.Lib.Loop
import ShadNet.Lib.Search
import ShadNet.Proof.RawJson
import ShadNet.Spec.RawScan

/-!
# The scan returns

* `reaches_member`: over one member, or where it is broken off.
* `leaves_topLevelMembers`: on every byte string the loops end, and `topLevelMembers` is what they
  return.
* `topLevelMembers_scan`: on an object they return its members, from which it can be put together
  again.
-/

namespace ShadNet.SummonBroker

open Lib Lib.JsonText

variable {passed left : List UInt8} {members : List TopLevelMember}

/-! ## The loops -/

theorem reaches_separators (left : List UInt8) :
    Reaches scanStep ⟨.separators, [], left, members⟩ ⟨.separators, [], skipSeparators left, members⟩ := by
  induction left with
  | nil => exact .refl _
  | cons b rest ih =>
    unfold skipSeparators
    by_cases hb : b = 0x2C ∨ isScanSpace b = true
    · rw [List.dropWhile_cons_of_pos (by simpa using hb)]
      refine ih.head ?_
      simp [scanStep, ScanState.separator, hb]
    · rw [List.dropWhile_cons_of_neg (by simpa using hb)]
      exact .refl _

theorem reaches_key {key rest : List UInt8} : ∀ {escaped : Bool} {left passed : List UInt8},
    scanKey escaped left = some (key, rest) →
    Reaches scanStep ⟨.key escaped, passed, left, members⟩
      ⟨.colon ((passed ++ key).drop 1), passed ++ key ++ [0x22], rest, members⟩ := by
  intro escaped left
  induction left generalizing escaped key with
  | nil => intro passed h; cases h
  | cons current left ih =>
    intro passed h
    unfold scanKey at h
    by_cases hend : !escaped ∧ current = 0x22
    · rw [if_pos hend] at h
      cases h
      obtain ⟨hescaped, rfl⟩ := hend
      refine Reaches.head (u := ⟨.colon (passed.drop 1), passed ++ [0x22], rest, members⟩) ?_ ?_
      · simp [scanStep, ScanState.keyByte, ScanState.pass, hescaped]
      · rw [List.append_nil]
        exact .refl _
    · rw [if_neg hend] at h
      obtain ⟨r, hr, heq⟩ := Option.map_eq_some_iff.mp h
      cases heq
      have hrest : Reaches scanStep ⟨.key _, passed ++ [current], left, members⟩ _ := ih hr
      rw [List.append_assoc passed [current], List.singleton_append] at hrest
      refine hrest.head ?_
      simp only [scanStep, ScanState.keyByte, if_neg hend, ScanState.pass]

theorem reaches_key_none : ∀ {escaped : Bool} {left passed : List UInt8},
    scanKey escaped left = none →
    Reaches scanStep ⟨.key escaped, passed, left, members⟩ (.finished []) := by
  intro escaped left
  induction left generalizing escaped with
  | nil => exact fun _ => Reaches.head (u := .finished []) rfl (.refl _)
  | cons current left ih =>
    intro passed h
    unfold scanKey at h
    by_cases hend : !escaped ∧ current = 0x22
    · rw [if_pos hend] at h
      cases h
    · rw [if_neg hend, Option.map_eq_none_iff] at h
      have hrest : Reaches scanStep ⟨.key _, passed ++ [current], left, members⟩ _ := ih h
      refine hrest.head ?_
      simp only [scanStep, ScanState.keyByte, if_neg hend, ScanState.pass]

theorem reaches_colon (key : List UInt8) : ∀ (left passed : List UInt8),
    Reaches scanStep ⟨.colon key, passed, left, members⟩
      ⟨.colon key, passed ++ left.takeWhile isScanSpace, left.dropWhile isScanSpace, members⟩ := by
  intro left
  induction left with
  | nil =>
    intro passed
    rw [List.takeWhile_nil, List.append_nil]
    exact .refl _
  | cons b rest ih =>
    intro passed
    by_cases hb : isScanSpace b = true
    · have hrest := ih (passed ++ [b])
      rw [List.takeWhile_cons_of_pos hb, List.dropWhile_cons_of_pos hb]
      rw [List.append_assoc, List.singleton_append] at hrest
      refine hrest.head ?_
      simp [scanStep, ScanState.colonByte, ScanState.pass, hb]
    · rw [List.takeWhile_cons_of_neg hb, List.dropWhile_cons_of_neg hb, List.append_nil]
      exact .refl _

theorem reaches_value (key : List UInt8) : ∀ (st : ValueScan) (left passed : List UInt8),
    Reaches scanStep ⟨.value key st, passed, left, members⟩
      ⟨.trim key, passed ++ (scanValue st left).1, (scanValue st left).2, members⟩ := by
  intro st left
  induction left generalizing st with
  | nil =>
    intro passed
    refine Reaches.head (u := ⟨.trim key, passed, [], members⟩) rfl ?_
    rw [scanValue, List.append_nil]
    exact .refl _
  | cons current left ih =>
    intro passed
    unfold scanValue
    by_cases hstops : st.stops current = true
    · rw [if_pos hstops, List.append_nil]
      refine Reaches.head (u := ⟨.trim key, passed, current :: left, members⟩) ?_ (.refl _)
      simp [scanStep, ScanState.valueByte, hstops]
    · have hrest := ih (st.next current) (passed ++ [current])
      rw [if_neg hstops]
      rw [List.append_assoc, List.singleton_append] at hrest
      refine hrest.head ?_
      simp only [scanStep, ScanState.valueByte, if_neg hstops, ScanState.pass]

theorem reaches_trim (key : List UInt8) (passed : List UInt8) :
    Reaches scanStep ⟨.trim key, passed, left, members⟩
      ⟨.separators, [], left, members ++ [⟨key, passed.rdropWhile isScanSpace⟩]⟩ := by
  induction passed using List.reverseRecOn with
  | nil => exact Reaches.head (u := ⟨.separators, [], left, members ++ [⟨key, []⟩]⟩) rfl (.refl _)
  | append_singleton init last ih =>
    by_cases hlast : isScanSpace last = true
    · rw [List.rdropWhile_concat_pos isScanSpace init last hlast]
      refine ih.head ?_
      simp [scanStep, ScanState.trimByte, hlast]
    · rw [List.rdropWhile_concat_neg isScanSpace init last hlast]
      refine Reaches.head (u := ⟨.separators, [], left, members ++ [⟨key, init ++ [last]⟩]⟩) ?_ (.refl _)
      simp [scanStep, ScanState.trimByte, hlast]

/-! ## A member -/

/-- Over one member, or where it is broken off. -/
theorem reaches_member {b : UInt8} (hb : ¬(b = 0x2C ∨ isScanSpace b = true)) (l : List UInt8) :
    Reaches scanStep ⟨.separators, [], b :: l, members⟩
      ((scanMember (b :: l)).elim (.finished []) fun r => ⟨.separators, [], r.2, members ++ [r.1]⟩) := by
  simp only [scanMember]
  by_cases hquote : b ≠ 0x22
  · rw [if_pos hquote]
    refine Reaches.head (u := .finished []) ?_ (.refl _)
    simp [scanStep, ScanState.separator, hb, hquote]
  rw [if_neg hquote]
  obtain rfl := not_not.mp hquote
  have hstart : scanStep ⟨.separators, [], 0x22 :: l, members⟩ =
      some ⟨.key false, [0x22], l, members⟩ := rfl
  refine Reaches.head hstart ?_
  cases hkey : scanKey false l with
  | none => exact reaches_key_none hkey
  | some r =>
    obtain ⟨key, rest⟩ := r
    refine (reaches_key hkey).trans ((reaches_colon _ rest _).trans ?_)
    simp only
    cases hcolon : rest.dropWhile isScanSpace with
    | nil => exact Reaches.head (u := .finished []) rfl (.refl _)
    | cons colon afterColon =>
      have hspace : isScanSpace colon = false := by
        have hhead := List.head?_dropWhile_not isScanSpace rest
        simpa [hcolon] using hhead
      simp only
      by_cases hc : colon ≠ 0x3A
      · rw [if_pos hc]
        refine Reaches.head (u := .finished []) ?_ (.refl _)
        simp [scanStep, ScanState.colonByte, hspace, hc]
      · rw [if_neg hc]
        obtain rfl := not_not.mp hc
        refine Reaches.head rfl ((reaches_value _ {} afterColon _).trans ((reaches_trim _ _).trans ?_))
        simp only [Option.elim_some]
        have hpassed : [0x22] ++ key ++ [0x22] ++ rest.takeWhile isScanSpace ++ [0x3A] ++
            (scanValue {} afterColon).1 =
            0x22 :: key ++ 0x22 :: rest.takeWhile isScanSpace ++ 0x3A :: (scanValue {} afterColon).1 := by
          simp
        rw [hpassed]
        exact .refl _

/-! ## The scan -/

/-- From the separators on, with the members found so far. -/
theorem leaves_separators (l : List UInt8) : ∀ members,
    Leaves scanStep ⟨.separators, [], l, members⟩
      (.finished (((membersFrom l).map (members ++ ·)).getD [])) := by
  induction h : l.length using Nat.strong_induction_on generalizing l with
  | _ n ih =>
    intro members
    refine .of_reaches (reaches_separators l) ?_
    rw [membersFrom_eq]
    cases hskip : skipSeparators l with
    | nil =>
      rw [if_pos rfl, Option.map_some, List.append_nil]
      exact Leaves.head (u := .finished members) rfl (.here rfl)
    | cons b rest =>
      have hb : ¬(b = 0x2C ∨ isScanSpace b = true) := by
        unfold skipSeparators at hskip
        have hhead := List.head?_dropWhile_not (fun b => b = 0x2C || isScanSpace b) l
        simpa [hskip] using hhead
      rw [if_neg (List.cons_ne_nil b rest)]
      refine .of_reaches (reaches_member hb rest) ?_
      cases hmember : scanMember (b :: rest) with
      | none => exact .here rfl
      | some r =>
        obtain ⟨m, rest'⟩ := r
        have hlen := scanMember_length hmember
        have hle : (skipSeparators l).length ≤ l.length := List.length_dropWhile_le ..
        rw [hskip] at hle
        have hrest := ih rest'.length (by omega) rest' rfl (members ++ [m])
        simp only [Option.elim_some]
        rw [Option.map_map]
        simpa [Function.comp_def] using hrest

/-- **The scan returns on every byte string**, and `topLevelMembers` is what it returns. -/
theorem leaves_topLevelMembers (rawObject : List UInt8) :
    Leaves scanStep (scanStart rawObject) (.finished (topLevelMembers rawObject)) := by
  unfold scanStart topLevelMembers
  simp only
  split
  · exact .here rfl
  · simpa using leaves_separators ((trimmed rawObject).drop 1).dropLast []

/-! ## Objects -/

/-- The members as an object again. -/
def rejoined (members : List TopLevelMember) : List UInt8 :=
  0x7B :: commaJoin (members.map (·.raw)) ++ [0x7D]

/-- The members that the scan finds are those of the object. -/
structure TakesApart (text : List UInt8) (ms : List Member) : Prop where
  found : topLevelMembers text = ms.map fun m => ⟨utf8 m.key, m.raw⟩
  /-- each where it stands in the text -/
  pieces : Pieces (ms.map Member.raw) text
  rejoins : IsObject (rejoined (topLevelMembers text)) (ms.map Member.bare)
  again : topLevelMembers (rejoined (topLevelMembers text)) = topLevelMembers text

theorem takesApart_object {text : List UInt8} {ms : List Member} (h : IsObject text ms) :
    TakesApart text ms := by
  have hfound : topLevelMembers text = ms.map topLevel := topLevelMembers_object h
  have hrejoined : rejoined (topLevelMembers text) =
      beginObject :: commaJoin (ms.map Member.raw) ++ [endObject] := by
    rw [hfound, rejoined, List.map_map]
    rfl
  have hobject : IsObject (rejoined (topLevelMembers text)) (ms.map Member.bare) := by
    rw [hrejoined]
    exact h.rejoined
  refine ⟨hfound, h.pieces, hobject, ?_⟩
  rw [topLevelMembers_object hobject, hfound, List.map_map]
  rfl

/-- **The scan** returns on every byte string, and takes every object apart into its members. Its
positions are `int`s: both are about texts of fewer than `2^31` bytes. -/
theorem topLevelMembers_scan (text : List UInt8) :
    Leaves scanStep (scanStart text) (.finished (topLevelMembers text)) ∧
      ∀ ms, IsObject text ms → TakesApart text ms :=
  ⟨leaves_topLevelMembers text, fun _ h => takesApart_object h⟩

/-- An object with a key that has an escape, and an array with a bracket in a string. -/
def nestedMembers : List Member :=
  [{ key := "a\\\"".toList, afterKey := [0x20], value := toUtf8 "[1,\"]\"]", after := [0x20] },
    { before := [0x0A], key := "b".toList, value := toUtf8 "\x7b\x7d" }]

theorem isObject_nested :
    IsObject (toUtf8 " \x7b\"a\\\"\" :[1,\"]\"] ,\n\"b\":\x7b\x7d\x7d") nestedMembers := by
  have harray : IsValue (toUtf8 "[1,\"]\"]") := by
    refine @IsValue.array [⟨[], [0x31], []⟩, ⟨[], quoted [']'], []⟩] (List.cons_ne_nil _ _) ?_ ?_
    · intro e he
      simp only [List.mem_cons, List.not_mem_nil, or_false] at he
      rcases he with rfl | rfl <;> exact ⟨ws_nil, ws_nil⟩
    · intro e he
      simp only [List.mem_cons, List.not_mem_nil, or_false] at he
      rcases he with rfl | rfl
      · have hdigits : Digits [0x31] := ⟨List.cons_ne_nil _ _, List.forall_mem_singleton.mpr rfl⟩
        exact .number ⟨[], [0x31], [], [], .inl rfl, .inr ⟨hdigits, by decide⟩, .inl rfl, .inl rfl, rfl⟩
      · exact .string rfl
  have hshape : ∀ m ∈ nestedMembers, m.Shaped := by
    intro m hm
    simp only [nestedMembers, List.mem_cons, List.not_mem_nil, or_false] at hm
    rcases hm with rfl | rfl
    · exact ⟨ws_nil, rfl, ws_singleton rfl, ws_nil, ws_singleton rfl⟩
    · exact ⟨ws_singleton rfl, rfl, ws_nil, ws_nil, ws_nil⟩
  have hvalue : ∀ m ∈ nestedMembers, IsValue m.value := by
    intro m hm
    simp only [nestedMembers, List.mem_cons, List.not_mem_nil, or_false] at hm
    rcases hm with rfl | rfl
    · exact harray
    · exact .emptyObject ws_nil
  have htext : toUtf8 " \x7b\"a\\\"\" :[1,\"]\"] ,\n\"b\":\x7b\x7d\x7d" =
      [0x20] ++ beginObject :: commaJoin (nestedMembers.map Member.text) ++ endObject :: [] := by decide
  rw [htext]
  exact IsObject.members (ws_singleton rfl) ws_nil (List.cons_ne_nil _ _) hshape hvalue

theorem topLevelMembers_scan_nested :
    TakesApart (toUtf8 " \x7b\"a\\\"\" :[1,\"]\"] ,\n\"b\":\x7b\x7d\x7d") nestedMembers :=
  (topLevelMembers_scan _).2 _ isObject_nested

end ShadNet.SummonBroker
