/-
JSON values.

A number is a whole number that fits a signed or an unsigned word of 64 bits, or a binary
floating-point number. An object is a list of fields in ascending order of their keys; the order
of keys by code points is the order of their UTF-8 bytes.

* `Json.ofFields`: the object with given fields, of two with one key the later;
* `Json.get?`: the value of a field;
* `Json.Ordered`: the values whose objects are all in order.
-/
import SilentScan.Number.Double

namespace SilentScan

/-- A JSON number: whole within 64 bits, or floating. -/
inductive Number where
  | whole (n : Int)
  | float (d : Double)
deriving DecidableEq, Repr, Inhabited

/-- A JSON value. -/
inductive Json where
  | null
  | bool (b : Bool)
  | number (n : Number)
  | string (s : String)
  | array (items : List Json)
  | object (fields : List (String × Json))
deriving Repr, Inhabited

namespace Json

/-- A whole number as a value. -/
def int (n : Int) : Json :=
  .number (.whole n)

/-- A text, or null where there is none. -/
def ofText? : Option String → Json
  | some s => .string s
  | none => .null

/-- A whole number, or null where there is none. -/
def ofInt? : Option Int → Json
  | some n => .int n
  | none => .null

/-- Puts a field in its place among fields in ascending order, over one with the same key. -/
def putField (key : String) (value : Json) : List (String × Json) → List (String × Json)
  | [] => [(key, value)]
  | (k, v) :: rest =>
    if key < k then (key, value) :: (k, v) :: rest
    else if key = k then (key, value) :: rest
    else (k, v) :: putField key value rest

/-- Fields in ascending order of their keys; of two with one key the later stays. -/
def sortFields (fields : List (String × Json)) : List (String × Json) :=
  fields.foldl (fun acc f => putField f.1 f.2 acc) []

/-- The object with the given fields. -/
def ofFields (fields : List (String × Json)) : Json :=
  .object (sortFields fields)

/-- The value of the first field with a key. -/
def lookup (key : String) : List (String × Json) → Option Json
  | [] => none
  | (k, v) :: rest => if k = key then some v else lookup key rest

/-- The value of a field; a value that is no object has none. -/
def get? (key : String) : Json → Option Json
  | .object fields => lookup key fields
  | _ => none

/-- Whether every key is above `bound` and the keys ascend. -/
def Ascending : Option String → List String → Prop
  | _, [] => True
  | bound, k :: rest => (∀ b ∈ bound, b < k) ∧ Ascending (some k) rest

mutual
/-- Whether the fields of every object inside the value ascend strictly by key. -/
def Ordered : Json → Prop
  | .array items => OrderedItems items
  | .object fields => Ascending none (fields.map (·.1)) ∧ OrderedFields fields
  | _ => True

/-- `Ordered` for the items of an array. -/
def OrderedItems : List Json → Prop
  | [] => True
  | v :: rest => Ordered v ∧ OrderedItems rest

/-- `Ordered` for the values of an object's fields. -/
def OrderedFields : List (String × Json) → Prop
  | [] => True
  | (_, v) :: rest => Ordered v ∧ OrderedFields rest
end

mutual
/-- Whether two values are the same; floating numbers are compared by their bits. -/
def beq : Json → Json → Bool
  | .null, .null => true
  | .bool a, .bool b => a == b
  | .number a, .number b => a == b
  | .string a, .string b => a == b
  | .array a, .array b => beqItems a b
  | .object a, .object b => beqFields a b
  | _, _ => false

/-- `beq` for lists of items. -/
def beqItems : List Json → List Json → Bool
  | [], [] => true
  | a :: as, b :: bs => beq a b && beqItems as bs
  | _, _ => false

/-- `beq` for lists of fields. -/
def beqFields : List (String × Json) → List (String × Json) → Bool
  | [], [] => true
  | (k, a) :: as, (l, b) :: bs => k == l && beq a b && beqFields as bs
  | _, _ => false
end

instance : BEq Json := ⟨beq⟩

end Json
end SilentScan
