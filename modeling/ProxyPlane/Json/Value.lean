import ProxyPlane.Decimal.Binary64
import ProxyPlane.Dict

/-!
# JSON values

## What is here

* `Json.Number`: integers of up to 64 bits stay integers, all other numbers are binary64.
* `Json`, the values; the members of an object are kept in the order in which they are written.
* `Json.normalize`, which puts the members of every object into key order, the last value of a
  repeated key winning.  Values that are read without a declared shape are kept in this form.
-/

set_option autoImplicit false
namespace ProxyPlane

/-- A number of a JSON text. -/
inductive Json.Number
  | int (value : Int)
  | float (value : Binary64)
deriving DecidableEq, Repr, Inhabited

/-- A JSON value. -/
inductive Json
  | null
  | bool (value : Bool)
  | number (value : Json.Number)
  | string (value : String)
  | array (items : List Json)
  | object (members : List (String × Json))
deriving Inhabited

namespace Json

/-! ## Equality -/

mutual

/-- Whether two values are equal. -/
def decEq : (a b : Json) → Decidable (a = b)
  | .null, b => match b with
    | .null => isTrue rfl
    | .bool _ | .number _ | .string _ | .array _ | .object _ => isFalse nofun
  | .bool x, b => match b with
    | .bool y => decidable_of_iff (x = y) (by simp)
    | .null | .number _ | .string _ | .array _ | .object _ => isFalse nofun
  | .number x, b => match b with
    | .number y => decidable_of_iff (x = y) (by simp)
    | .null | .bool _ | .string _ | .array _ | .object _ => isFalse nofun
  | .string x, b => match b with
    | .string y => decidable_of_iff (x = y) (by simp)
    | .null | .bool _ | .number _ | .array _ | .object _ => isFalse nofun
  | .array xs, b => match b with
    | .array ys => let _ := decEqItems xs ys; decidable_of_iff (xs = ys) (by simp)
    | .null | .bool _ | .number _ | .string _ | .object _ => isFalse nofun
  | .object xs, b => match b with
    | .object ys => let _ := decEqMembers xs ys; decidable_of_iff (xs = ys) (by simp)
    | .null | .bool _ | .number _ | .string _ | .array _ => isFalse nofun

/-- Whether two lists of values are equal. -/
def decEqItems : (xs ys : List Json) → Decidable (xs = ys)
  | [], [] => isTrue rfl
  | [], _ :: _ => isFalse nofun
  | _ :: _, [] => isFalse nofun
  | x :: xs, y :: ys =>
    let _ := decEq x y
    let _ := decEqItems xs ys
    decidable_of_iff (x = y ∧ xs = ys) (by simp)

/-- Whether two lists of members are equal. -/
def decEqMembers : (xs ys : List (String × Json)) → Decidable (xs = ys)
  | [], [] => isTrue rfl
  | [], _ :: _ => isFalse nofun
  | _ :: _, [] => isFalse nofun
  | (k, x) :: xs, (l, y) :: ys =>
    let _ := decEq x y
    let _ := decEqMembers xs ys
    decidable_of_iff ((k = l ∧ x = y) ∧ xs = ys) (by simp)

end

instance : DecidableEq Json := decEq

/-! ## Views -/

/-- The number of a natural number. -/
def ofNat (n : Nat) : Json := .number (.int n)

/-- The object of a dictionary. -/
def ofDict (d : Dict Json) : Json := .object d.entries

/-- The text, if the value is one. -/
def string? : Json → Option String
  | .string s => some s
  | _ => none

/-- The member of an object under a key. -/
def member? (key : String) : Json → Option Json
  | .object members => members.lookup key
  | _ => none

/-! ## Key order -/

mutual

/-- The value with the members of every object in key order; of a repeated key the last member
stays. -/
def normalize : Json → Json
  | .array items => .array (normalizeItems items)
  | .object members => .object (Dict.ofList (normalizeMembers members)).entries
  | v => v

/-- The elements of an array, each normalised. -/
def normalizeItems : List Json → List Json
  | [] => []
  | v :: rest => v.normalize :: normalizeItems rest

/-- The members of an object, each normalised. -/
def normalizeMembers : List (String × Json) → List (String × Json)
  | [] => []
  | (k, v) :: rest => (k, v.normalize) :: normalizeMembers rest

end

mutual

/-- How deep arrays and objects are nested. -/
def height : Json → Nat
  | .array items => heightItems items + 1
  | .object members => heightMembers members + 1
  | _ => 0

/-- The greatest height of an element. -/
def heightItems : List Json → Nat
  | [] => 0
  | v :: rest => max v.height (heightItems rest)

/-- The greatest height of a member. -/
def heightMembers : List (String × Json) → Nat
  | [] => 0
  | (_, v) :: rest => max v.height (heightMembers rest)

end

end Json
end ProxyPlane
