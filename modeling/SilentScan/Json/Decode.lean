/-
Reading records from JSON.

A record is read from a draft, either straight from a text or from a value that has been read
before. It may be spelled as an object, whose fields are looked at in the order in which they
stand, or as an array of the fields in their declared order. A fault is reported at the first
place that shows it.

* `Mismatch`: what can be wrong with a value, and its wording;
* `Decoder`: readers of single values;
* `setOnce`, `required`, `Items`: the parts from which readers of records are built.
-/
import SilentScan.Json.Draft
import SilentScan.Number.Shortest
import SilentScan.Text.Quoted

namespace SilentScan

/-- What stands where something else was expected. -/
inductive Found where
  | null
  | bool (b : Bool)
  | number (n : Number)
  | string (s : String)
  | sequence
  | map
deriving Repr

/-- How a found value is named in a message. -/
def Found.message : Found → String
  | .null => "null"
  | .bool b => "boolean `" ++ (if b then "true" else "false") ++ "`"
  | .number (.whole n) => "integer `" ++ toString n ++ "`"
  | .number (.float d) => "floating point `" ++ d.render ++ "`"
  | .string s => "string " ++ Text.quoteString s
  | .sequence => "sequence"
  | .map => "map"

/-- What is wrong with a well-formed value that does not have the expected form. -/
inductive Mismatch where
  | wrongType (found : Found) (expected : String)
  | outOfRange (n : Int) (expected : String)
  | wrongLength (length : Nat) (expected : String)
  | missing (field : String)
  | duplicate (field : String)
deriving Repr

/-- The wording of a mismatch. -/
def Mismatch.message : Mismatch → String
  | .wrongType found expected => "invalid type: " ++ found.message ++ ", expected " ++ expected
  | .outOfRange n expected =>
    "invalid value: integer `" ++ toString n ++ "`, expected " ++ expected
  | .wrongLength n expected => "invalid length " ++ toString n ++ ", expected " ++ expected
  | .missing field => "missing field `" ++ field ++ "`"
  | .duplicate field => "duplicate field `" ++ field ++ "`"

/-- Why a record could not be read. -/
inductive ReadFault where
  | notJson
  | mismatch (m : Mismatch)
deriving Repr

/-- Where a draft comes from. A text is read as far as the record goes, and what is left over is
a fault of the text; a value has a known length. -/
inductive Source where
  | text
  | value
deriving DecidableEq, Repr

namespace Draft

/-- What the draft of a whole value shows, if it is sound that far. -/
def found : Draft → Except ReadFault Found
  | .null => .ok .null
  | .bool b => .ok (.bool b)
  | .number (some n) => .ok (.number n)
  | .string (some s) => .ok (.string s)
  | .array _ _ => .ok .sequence
  | .object _ _ => .ok .map
  | _ => .error .notJson

/-- The fault of a draft that is not what was expected. -/
def mismatch (d : Draft) (expected : String) : ReadFault :=
  match d.found with
  | .ok f => .mismatch (.wrongType f expected)
  | .error e => e

end Draft

/-- Reads a value of a type from a draft, at a depth that is still allowed. -/
abbrev Decoder (α : Type) := Nat → Draft → Except ReadFault α

namespace Decoder

/-- A whole number in a range. -/
def whole (name : String) (low high : Int) : Decoder Int
  | _, .number (some (.whole n)) =>
    if low ≤ n ∧ n ≤ high then .ok n else .error (.mismatch (.outOfRange n name))
  | _, d => .error (d.mismatch name)

/-- A signed word of 32 bits. -/
def i32 : Decoder Int :=
  whole "i32" (-0x8000_0000) 0x7FFF_FFFF

/-- A signed word of 64 bits. -/
def i64 : Decoder Int :=
  whole "i64" (-0x8000_0000_0000_0000) 0x7FFF_FFFF_FFFF_FFFF

/-- An unsigned word of 32 bits. -/
def u32 : Decoder Nat := fun depth d =>
  (whole "u32" 0 0xFFFF_FFFF depth d).map Int.toNat

/-- An unsigned word of 64 bits. -/
def u64 : Decoder Nat := fun depth d =>
  (whole "u64" 0 0xFFFF_FFFF_FFFF_FFFF depth d).map Int.toNat

/-- A floating-point number; a whole number is rounded to one. -/
def f64 : Decoder Double
  | _, .number (some (.float x)) => .ok x
  | _, .number (some (.whole n)) => .ok (.ofInt n)
  | _, d => .error (d.mismatch "f64")

/-- A text. -/
def string : Decoder String
  | _, .string (some s) => .ok s
  | _, d => .error (d.mismatch "a string")

/-- Any value. -/
def json : Decoder Json := fun depth d =>
  match d.value? depth with
  | some v => .ok v
  | none => .error .notJson

/-- A value or null. -/
def optional {α : Type} (inner : Decoder α) : Decoder (Option α)
  | _, .null => .ok none
  | depth, d => (inner depth d).map some

/-- An array of values. -/
def list {α : Type} (inner : Decoder α) : Decoder (List α)
  | depth, .array items closed =>
    match depth with
    | 0 => .error .notJson
    | depth + 1 => do
      let vs ← items.mapM (inner depth)
      if closed then return vs else throw .notJson
  | _, d => .error (d.mismatch "a sequence")

/-- A value that is not looked at: it only has to be complete. -/
def ignored : Decoder Unit := fun _ d =>
  if d.complete then .ok () else .error .notJson

end Decoder

/-- Fills a field that may be given once. -/
def setOnce {α : Type} (field : String) (slot : Option α) (read : Decoder α) (depth : Nat)
    (d : Draft) : Except ReadFault (Option α) :=
  match slot with
  | some _ => .error (.mismatch (.duplicate field))
  | none => (read depth d).map some

/-- The value of a field that has to be there. -/
def required {α : Type} (field : String) : Option α → Except ReadFault α
  | some a => .ok a
  | none => .error (.mismatch (.missing field))

/-- The items of a record spelled as an array that have not been read yet. -/
structure Items where
  rest : List Draft
  closed : Bool
  taken : Nat

namespace Items

/-- Reads the next item, if there is one. -/
def next? {α : Type} (read : Decoder α) (depth : Nat) (items : Items) :
    Except ReadFault (Option α × Items) :=
  match items.rest with
  | [] => if items.closed then .ok (none, items) else .error .notJson
  | d :: rest => do
    let a ← read depth d
    return (some a, { items with rest, taken := items.taken + 1 })

/-- Reads an item that has to be there, the one at `index`. -/
def next {α : Type} (read : Decoder α) (depth : Nat) (record : String) (index : Nat)
    (items : Items) : Except ReadFault (α × Items) := do
  match ← items.next? read depth with
  | (some a, items) => return (a, items)
  | (none, _) => throw (.mismatch (.wrongLength index record))

/-- Checks that no items are left over. -/
def finish (source : Source) (items : Items) : Except ReadFault Unit :=
  if items.rest = [] then (if items.closed then .ok () else .error .notJson)
  else match source with
    | .text => .error .notJson
    | .value =>
      .error (.mismatch (.wrongLength (items.taken + items.rest.length) "fewer elements in array"))

end Items

/-- How a record is read: field by field from an object, or item by item from an array. -/
structure RecordReader (α : Type) where
  name : String
  Partial : Type
  start : Partial
  field : Partial → String → Nat → Draft → Except ReadFault Partial
  finish : Partial → Except ReadFault α
  items : Nat → Items → Except ReadFault (α × Items)

namespace RecordReader

/-- Goes through the fields of an object in the order in which they stand. -/
def readFields {α : Type} (r : RecordReader α) (depth : Nat) :
    r.Partial → List (Option String × Draft) → Except ReadFault r.Partial
  | p, [] => .ok p
  | _, (none, _) :: _ => .error .notJson
  | p, (some key, d) :: rest => do
    let p ← r.field p key depth d
    r.readFields depth p rest

/-- Reads a record. -/
def decoder {α : Type} (r : RecordReader α) (source : Source) : Decoder α
  | depth, .object fields closed =>
    match depth with
    | 0 => .error .notJson
    | depth + 1 => do
      let p ← r.readFields depth r.start fields
      if closed then r.finish p else throw .notJson
  | depth, .array items closed =>
    match depth with
    | 0 => .error .notJson
    | depth + 1 => do
      let (a, rest) ← r.items depth ⟨items, closed, 0⟩
      rest.finish source
      return a
  | _, d => .error (d.mismatch ("struct " ++ r.name))

end RecordReader

/-- Reads a record straight from a text. -/
def readText {α : Type} (read : Source → Decoder α) (text : String) : Except ReadFault α := do
  let (d, rest) := Draft.read text.toList
  let a ← read .text Draft.depthLimit d
  if Draft.skipBlanks rest = [] then return a else throw .notJson

/-- Reads a record from a value. -/
def readJson {α : Type} (read : Source → Decoder α) (v : Json) : Except ReadFault α :=
  read .value Draft.depthLimit (.ofValue v)

end SilentScan
