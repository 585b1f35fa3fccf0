import Mathlib.Data.List.DropRight
import ShadNet.Spec.SummonBroker

/-!
# Members of a raw object

The summon broker hands documents of clients on as they came. It takes an object apart into its
members without parsing it, and puts answers together from them. What a position of the source
stands for is the list of the bytes from there up to the closing brace. Positions are `int`s, so that
this is what it does with documents of fewer than `2^31` bytes.
-/

namespace ShadNet.SummonBroker

/-- `QByteArray::trimmed`. -/
def trimmed (raw : List UInt8) : List UInt8 := (raw.dropWhile isBlank).rdropWhile isBlank

/-- The white space that the scan knows. -/
def isScanSpace (b : UInt8) : Bool := b = 0x20 ∨ b = 0x09 ∨ b = 0x0D ∨ b = 0x0A

/-- A key as it stands between its quotes, and the text of its member. -/
structure TopLevelMember where
  key : List UInt8
  raw : List UInt8
deriving DecidableEq, Repr

/-! ## The scan -/

/-- The loop over a key: the key, and what comes behind its quotation mark. -/
def scanKey (escaped : Bool) : List UInt8 → Option (List UInt8 × List UInt8)
  | [] => none
  | current :: rest =>
    if !escaped ∧ current = 0x22 then some ([], rest)
    else (scanKey (!escaped && current = 0x5C) rest).map fun r => (current :: r.1, r.2)

/-- Where the loop over a value stands. -/
structure ValueScan where
  inString : Bool := false
  escaped : Bool := false
  objectDepth : ℤ := 0
  arrayDepth : ℤ := 0

/-- A comma that ends the value. -/
def ValueScan.stops (st : ValueScan) (current : UInt8) : Bool :=
  !st.inString ∧ current = 0x2C ∧ st.objectDepth = 0 ∧ st.arrayDepth = 0

/-- What the scan of a value remembers after one more byte. -/
def ValueScan.next (st : ValueScan) (current : UInt8) : ValueScan :=
  if st.inString then
    { st with
      inString := st.escaped || current ≠ 0x22
      escaped := !st.escaped && current = 0x5C }
  else if current = 0x22 then { st with inString := true, escaped := false }
  else if current = 0x7B then { st with objectDepth := st.objectDepth + 1 }
  else if current = 0x7D then { st with objectDepth := st.objectDepth - 1 }
  else if current = 0x5B then { st with arrayDepth := st.arrayDepth + 1 }
  else if current = 0x5D then { st with arrayDepth := st.arrayDepth - 1 }
  else st

/-- The loop over a value: what it passes, and where it stops. -/
def scanValue (st : ValueScan) : List UInt8 → List UInt8 × List UInt8
  | [] => ([], [])
  | current :: rest =>
    if st.stops current then ([], current :: rest)
    else
      let r := scanValue (st.next current) rest
      (current :: r.1, r.2)

/-- One member, and what is left behind it. -/
def scanMember : List UInt8 → Option (TopLevelMember × List UInt8)
  | [] => none
  | first :: rest =>
    if first ≠ 0x22 then none
    else match scanKey false rest with
      | none => none
      | some (key, rest) =>
        match rest.dropWhile isScanSpace with
        | [] => none
        | colon :: afterColon =>
          if colon ≠ 0x3A then none
          else
            let (value, left) := scanValue {} afterColon
            let passed := 0x22 :: key ++ 0x22 :: rest.takeWhile isScanSpace ++ 0x3A :: value
            some (⟨key, passed.rdropWhile isScanSpace⟩, left)

theorem scanKey_length : ∀ {escaped : Bool} {l key rest : List UInt8},
    scanKey escaped l = some (key, rest) → rest.length < l.length := by
  intro escaped l
  induction l generalizing escaped with
  | nil => intro key rest h; cases h
  | cons current l ih =>
    intro key rest h
    unfold scanKey at h
    split at h
    · cases h
      exact Nat.lt_succ_self _
    · obtain ⟨r, hr, heq⟩ := Option.map_eq_some_iff.mp h
      cases heq
      exact Nat.lt_succ_of_lt (ih hr)

theorem scanValue_append : ∀ (st : ValueScan) (l : List UInt8),
    (scanValue st l).1 ++ (scanValue st l).2 = l := by
  intro st l
  induction l generalizing st with
  | nil => rfl
  | cons current l ih =>
    unfold scanValue
    split
    · rfl
    · simp only [List.cons_append, ih]

/-- A round of the scan makes progress. -/
theorem scanMember_length {l rest : List UInt8} {m : TopLevelMember}
    (h : scanMember l = some (m, rest)) : rest.length < l.length := by
  unfold scanMember at h
  split at h
  · cases h
  · split at h
    · cases h
    · split at h
      · cases h
      · rename_i key after hkey
        have hafter := scanKey_length hkey
        have hdrop := List.length_dropWhile_le isScanSpace after
        split at h
        · cases h
        · rename_i colon afterColon hcolon
          split at h
          · cases h
          · have hvalue := congrArg List.length (scanValue_append {} afterColon)
            rw [hcolon] at hdrop
            cases h
            simp only [List.length_append, List.length_cons] at hvalue hdrop hafter ⊢
            omega

/-- Commas and blanks before a member. -/
def skipSeparators (l : List UInt8) : List UInt8 := l.dropWhile fun b => b = 0x2C || isScanSpace b

/-- The scan from a position on; nothing if it gives up. -/
def membersFrom (l : List UInt8) : Option (List TopLevelMember) :=
  if skipSeparators l = [] then some []
  else match _h : scanMember (skipSeparators l) with
    | none => none
    | some (m, rest) => (membersFrom rest).map (m :: ·)
termination_by l.length
decreasing_by
  have hmember := scanMember_length _h
  have hskip : (skipSeparators l).length ≤ l.length := List.length_dropWhile_le ..
  omega

/-- The members of an object, each as a piece of its text; none if something cannot be read. -/
def topLevelMembers (rawObject : List UInt8) : List TopLevelMember :=
  let raw := trimmed rawObject
  if raw.length < 2 ∨ raw.head? ≠ some 0x7B ∨ raw.getLast? ≠ some 0x7D then []
  else (membersFrom (raw.drop 1).dropLast).getD []

/-! ## The answer to a claim -/

/-- The members that are passed on. -/
def topLevelMembersExceptEnvelope (rawObject : List UInt8) : List (List UInt8) :=
  ((topLevelMembers rawObject).filter fun m =>
    m.key ≠ toUtf8 "MessageId" ∧ m.key ≠ toUtf8 "ResKind").map (·.raw)

/-- The envelope of the delivery, with the members of the claim in it as they are. -/
def buildClaimDeliveryResponse (rawClaim : List UInt8) : List UInt8 :=
  let members := topLevelMembersExceptEnvelope rawClaim
  if members = [] then []
  else toUtf8 "\x7b\"ResKind\":0,\"MessageId\":\"SummonDataCreateResponse\"" ++
    members.flatMap (0x2C :: ·) ++ [0x7D]

end ShadNet.SummonBroker
