import Mathlib.Tactic.Linarith

/-!
# JSON values

`QJsonValue` and `QJsonObject` as the server reads them. An object's members are kept
sorted by key and without repeats, so equal objects are equal lists; a missing member is the
undefined value `none`.
-/

namespace ShadNet

/-- `QJsonValue`. Numbers are exact here, and an object has its members in order. -/
inductive Json where
  | null
  | bool (b : Bool)
  | num (n : ℚ)
  | str (s : String)
  | arr (l : List Json)
  | obj (members : List (String × Json))
deriving Repr

mutual

/-- Equality of values can be decided, by a recursion through lists and members. -/
def Json.decEq : (a b : Json) → Decidable (a = b)
  | .null, .null => .isTrue rfl
  | .bool a, .bool b => decidable_of_iff (a = b) (by simp)
  | .num a, .num b => decidable_of_iff (a = b) (by simp)
  | .str a, .str b => decidable_of_iff (a = b) (by simp)
  | .arr a, .arr b =>
    match Json.decEqList a b with
    | .isTrue h => .isTrue (by rw [h])
    | .isFalse h => .isFalse (by simpa using h)
  | .obj a, .obj b =>
    match Json.decEqMembers a b with
    | .isTrue h => .isTrue (by rw [h])
    | .isFalse h => .isFalse (by simpa using h)
  | .null, .bool _ | .null, .num _ | .null, .str _ | .null, .arr _ | .null, .obj _
  | .bool _, .null | .bool _, .num _ | .bool _, .str _ | .bool _, .arr _ | .bool _, .obj _
  | .num _, .null | .num _, .bool _ | .num _, .str _ | .num _, .arr _ | .num _, .obj _
  | .str _, .null | .str _, .bool _ | .str _, .num _ | .str _, .arr _ | .str _, .obj _
  | .arr _, .null | .arr _, .bool _ | .arr _, .num _ | .arr _, .str _ | .arr _, .obj _
  | .obj _, .null | .obj _, .bool _ | .obj _, .num _ | .obj _, .str _ | .obj _, .arr _ =>
    .isFalse nofun

/-- Equality of the elements of two arrays is decidable. -/
def Json.decEqList : (a b : List Json) → Decidable (a = b)
  | [], [] => .isTrue rfl
  | [], _ :: _ | _ :: _, [] => .isFalse nofun
  | x :: xs, y :: ys =>
    match Json.decEq x y, Json.decEqList xs ys with
    | .isTrue h, .isTrue h' => .isTrue (by rw [h, h'])
    | .isFalse h, _ => .isFalse (by simp [h])
    | _, .isFalse h => .isFalse (by simp [h])

/-- Equality of the members of two objects is decidable. -/
def Json.decEqMembers : (a b : List (String × Json)) → Decidable (a = b)
  | [], [] => .isTrue rfl
  | [], _ :: _ | _ :: _, [] => .isFalse nofun
  | (k, x) :: xs, (l, y) :: ys =>
    match (inferInstance : Decidable (k = l)), Json.decEq x y, Json.decEqMembers xs ys with
    | .isTrue hk, .isTrue h, .isTrue h' => .isTrue (by rw [hk, h, h'])
    | .isFalse h, _, _ => .isFalse (by simp [h])
    | _, .isFalse h, _ => .isFalse (by simp [h])
    | _, _, .isFalse h => .isFalse (by simp [h])

end

instance : DecidableEq Json := Json.decEq

/-- `QJsonObject`; a key that comes twice is read at its first place. -/
abbrev JsonObject := List (String × Json)

/-- A value that may be undefined. -/
abbrev JsonValue := Option Json

/-- The value under a key; undefined if there is none. -/
def JsonObject.value (o : JsonObject) (key : String) : JsonValue := o.lookup key

/-- The key is there, whatever its value. -/
def JsonObject.contains (o : JsonObject) (key : String) : Bool := (o.lookup key).isSome

namespace JsonValue

/-- `QJsonValue::toString`: empty for all that is no string. -/
def toString (v : JsonValue) : String :=
  match v with
  | some (.str s) => s
  | _ => ""

/-- `QJsonValue::toBool` with a fallback for all that is no boolean. -/
def toBool (v : JsonValue) (fallback : Bool) : Bool :=
  match v with
  | some (.bool b) => b
  | _ => fallback

/-- Whole numbers in the range of `int`; anything else reads as the fallback. -/
def toInt (v : JsonValue) (fallback : ℤ) : ℤ :=
  match v with
  | some (.num n) => if n.den = 1 ∧ -2 ^ 31 ≤ n.num ∧ n.num < 2 ^ 31 then n.num else fallback
  | _ => fallback

/-- `QJsonValue::toArray`: empty for all that is no array. -/
def toArray (v : JsonValue) : List Json :=
  match v with
  | some (.arr l) => l
  | _ => []

/-- `QJsonValue::toObject`: empty for all that is no object. -/
def toObject (v : JsonValue) : JsonObject :=
  match v with
  | some (.obj o) => o
  | _ => []

/-- The whole number nearest to a JSON number, halves away from zero, kept in the range
of `qint64`. -/
def nearest (n : ℚ) : ℤ :=
  let m := if 0 ≤ n.num then (2 * n.num + n.den) / (2 * n.den)
    else -((-2 * n.num + n.den) / (2 * n.den))
  if m < -2 ^ 63 then -2 ^ 63 else if 2 ^ 63 ≤ m then 2 ^ 63 - 1 else m

/-- `value.isDouble() ? value.toVariant().toLongLong()`. -/
def toLongLong? (v : JsonValue) : Option ℤ :=
  match v with
  | some (.num n) => some (nearest n)
  | _ => none

end JsonValue

end ShadNet
