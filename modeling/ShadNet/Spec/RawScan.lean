import ShadNet.Spec.RawJson

/-!
# The scan of a raw object, byte by byte

The loops of `TopLevelMembers` as one step function: a step is one iteration of one of its loops.
-/

namespace ShadNet.SummonBroker

/-- The loop that the scan is in, with the variables that it has by then. -/
inductive ScanPhase where
  | separators
  | key (escaped : Bool)
  | colon (key : List UInt8)
  | value (key : List UInt8) (st : ValueScan)
  /-- the loop that moves `memberEnd` back -/
  | trim (key : List UInt8)
  | done

/-- `left` is what lies between `position` and `end`, `passed` what lies between `memberStart` and
`position`, or `memberEnd`. -/
structure ScanState where
  phase : ScanPhase
  passed : List UInt8 := []
  left : List UInt8 := []
  members : List TopLevelMember

namespace ScanState

/-- The state in which the scan has returned `members`. -/
def finished (members : List TopLevelMember) : ScanState := { phase := .done, members := members }

/-- The member goes on behind `current`. -/
def pass (s : ScanState) (phase : ScanPhase) (current : UInt8) (rest : List UInt8) : ScanState :=
  { s with phase := phase, passed := s.passed ++ [current], left := rest }

/-- Commas and blanks are passed over; a member starts with a quote. -/
def separator (s : ScanState) : ScanState :=
  match s.left with
  | [] => finished s.members
  | b :: rest =>
    if b = 0x2C ∨ isScanSpace b = true then { s with left := rest }
    else if b ≠ 0x22 then finished []
    else s.pass (.key false) b rest

/-- The key ends at the first quote without a backslash before it. -/
def keyByte (s : ScanState) (escaped : Bool) : ScanState :=
  match s.left with
  | [] => finished []
  | current :: rest =>
    if !escaped ∧ current = 0x22 then s.pass (.colon (s.passed.drop 1)) current rest
    else s.pass (.key (!escaped && current = 0x5C)) current rest

/-- Blanks and the colon. -/
def colonByte (s : ScanState) (key : List UInt8) : ScanState :=
  match s.left with
  | [] => finished []
  | b :: rest =>
    if isScanSpace b then s.pass (.colon key) b rest
    else if b ≠ 0x3A then finished []
    else s.pass (.value key {}) b rest

/-- The value ends where `ValueScan` stops. -/
def valueByte (s : ScanState) (key : List UInt8) (st : ValueScan) : ScanState :=
  match s.left with
  | [] => { s with phase := .trim key }
  | current :: rest =>
    if st.stops current then { s with phase := .trim key }
    else s.pass (.value key (st.next current)) current rest

/-- Blanks behind the value are no part of it. -/
def trimByte (s : ScanState) (key : List UInt8) : ScanState :=
  if s.passed.getLast?.any isScanSpace then { s with passed := s.passed.dropLast }
  else
    { phase := .separators
      left := s.left
      members := s.members ++ [⟨key, s.passed⟩] }

end ScanState

/-- One iteration; nothing if the scan has returned. -/
def scanStep (s : ScanState) : Option ScanState :=
  match s.phase with
  | .separators => some s.separator
  | .key escaped => some (s.keyByte escaped)
  | .colon key => some (s.colonByte key)
  | .value key st => some (s.valueByte key st)
  | .trim key => some (s.trimByte key)
  | .done => none

/-- The scan before its first iteration. -/
def scanStart (rawObject : List UInt8) : ScanState :=
  let raw := trimmed rawObject
  if raw.length < 2 ∨ raw.head? ≠ some 0x7B ∨ raw.getLast? ≠ some 0x7D then .finished []
  else { phase := .separators, left := (raw.drop 1).dropLast, members := [] }

end ShadNet.SummonBroker
