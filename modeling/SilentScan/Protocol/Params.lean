/-
Parameters of a call.

Parameters come as an array, by position, or as an object, by name; one that is null counts as
missing. A parameter of the wrong kind is refused, and the message names it.

* `Params`, with `get?`: the parameters;
* `text`, `text?`, `int?`, `below`, `bool?`, `labels`: single parameters of a kind.
-/
import SilentScan.Wire.Error

namespace SilentScan

/-- The parameters of a call, as sent. -/
structure Params where
  raw : Json

namespace Params

/-- The parameter at a position or under a name. -/
def get? (p : Params) (index : Nat) (name : String) : Option Json :=
  let value := match p.raw with
    | .array items => items[index]?
    | .object fields => Json.lookup name fields
    | _ => none
  match value with
  | some .null => none
  | v => v

/-- The fault of a parameter. -/
def fault {α : Type} (text : String) : Except RpcError α :=
  .error (.invalidParams text)

/-- A text that may be missing. -/
def text? (p : Params) (index : Nat) (name : String) : Except RpcError (Option String) :=
  match p.get? index name with
  | none => .ok none
  | some (.string s) => .ok (some s)
  | some _ => fault (name ++ " must be a string")

/-- A text. -/
def text (p : Params) (index : Nat) (name : String) : Except RpcError String := do
  match ← p.text? index name with
  | some s => return s
  | none => fault ("missing " ++ name)

/-- A whole number that fits a signed word of 64 bits. -/
def signedWord? : Json → Option Int
  | .number (.whole n) => if n < 0x8000_0000_0000_0000 then some n else none
  | _ => none

/-- A whole number that may be missing. -/
def int? (p : Params) (index : Nat) (name : String) : Except RpcError (Option Int) :=
  match p.get? index name with
  | none => .ok none
  | some v =>
    match signedWord? v with
    | some n => .ok (some n)
    | none => fault (name ++ " must be an integer")

/-- A whole number below a bound. -/
def below (bound : Nat) (p : Params) (index : Nat) (name : String) : Except RpcError Nat := do
  match ← p.int? index name with
  | none => fault ("missing " ++ name)
  | some n => if 0 ≤ n ∧ n < bound then return n.toNat else fault (name ++ " out of range")

/-- A truth value that may be missing. -/
def bool? (p : Params) (index : Nat) (name : String) : Except RpcError (Option Bool) :=
  match p.get? index name with
  | none => .ok none
  | some (.bool b) => .ok (some b)
  | some _ => fault (name ++ " must be a boolean")

/-- Labels as a client sends them, nulls included. -/
def labels (p : Params) (index : Nat) (name : String) : Except RpcError (List (Option Int)) :=
  match p.get? index name with
  | none => .ok []
  | some (.array items) =>
    items.mapM fun
      | .null => .ok none
      | v =>
        match signedWord? v with
        | some n => .ok (some n)
        | none => fault "labels must be integers"
  | some _ => fault (name ++ " must be an array")

end Params
end SilentScan
