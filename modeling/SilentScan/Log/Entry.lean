/-
Structured log records.

A record says when, in which part of the program and what happened; further fields are set level
with these. It is written as one JSON object.

* `LogRecord`, with `line`: the record and its text;
* `connectionRecord`, `scanRecord`, `indexRecord`: the records that the program writes.
-/
import SilentScan.Json.Printer
import SilentScan.Log.Level

namespace SilentScan

/-- The part of the program that a record is about. -/
inductive LogCategory where
  | connection
  | scan
  | index
deriving DecidableEq, Repr

/-- The name of a category. -/
def LogCategory.text : LogCategory → String
  | .connection => "connection"
  | .scan => "scan"
  | .index => "index"

/-- One structured record. -/
structure LogRecord where
  level : LogLevel := .info
  category : LogCategory
  event : String
  session : Option String := none
  /-- An object, whose fields are set level with the others, or null. -/
  fields : Json
  error : Option String := none

namespace LogRecord

/-- The further fields of a record, or what stands in place of an object. -/
def flatFields : Json → Except String (List (String × Json))
  | .object fields => .ok fields
  | .null => .ok []
  | .bool _ => .error "a boolean"
  | .number (.whole _) => .error "an integer"
  | .number (.float _) => .error "a float"
  | .string _ => .error "a string"
  | .array _ => .error "a sequence"

/-- The text of a record written at a given time. Where the fields cannot be set level with the
others, the text says so. -/
def line (r : LogRecord) (time : String) : String :=
  match flatFields r.fields with
  | .ok fields =>
    (Json.object ([("at", .string time), ("category", .string r.category.text),
        ("event", .string r.event)]
      ++ (r.session.map fun s => ("session", Json.string s)).toList
      ++ fields
      ++ (r.error.map fun e => ("error", Json.string e)).toList)).text
  | .error found =>
    "\x7b\"event\":\"" ++ r.event
      ++ "\",\"unserializable\":\"can only flatten structs and maps (got " ++ found ++ ")\"\x7d"

end LogRecord

/-- A client came or went. -/
def connectionRecord (event session : String) (peer : Option String) : LogRecord where
  category := .connection
  event := event
  session := some session
  fields := .ofFields [("peer", .ofText? peer)]

/-- A scan ended; with an error it failed. -/
def scanRecord (session address : String) (start stop : Option Int) (found elapsed : Nat)
    (error : Option String) : LogRecord where
  level := if error.isSome then .warn else .debug
  category := .scan
  event := if error.isSome then "failed" else "finished"
  session := some session
  fields := .ofFields [("address", .string address), ("start_height", .ofInt? start),
    ("end_height", .ofInt? stop), ("matches", .int found), ("elapsed_ms", .int elapsed)]
  error := error

/-- Rows were added to or removed from the index. -/
def indexRecord (event : String) (rows : Nat) (fromHeight toHeight : Int) : LogRecord where
  level := .debug
  category := .index
  event := event
  fields := .ofFields [("rows", .int rows), ("from_height", .int fromHeight),
    ("to_height", .int toHeight)]

end SilentScan
