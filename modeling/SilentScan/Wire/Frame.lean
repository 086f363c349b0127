/-
The frames of the line protocol.

A line holds one JSON object. A request carries an id that its response repeats; a notification
is a request without an id, pushed by a server. Records are written with their fields in declared
order and are read leniently: a frame says the version of the protocol and most other fields by
default.

* `Request`, `Response`, `Notification`, `ErrorObject`: the frames;
* `Request.line`, `Response.line`, `Notification.line`: their text;
* `Frame.classify`: the frame a line holds;
* `Response.numericId`: the number under which a response was asked for.
-/
import SilentScan.Json.Decode
import SilentScan.Json.Printer
import SilentScan.Number.Natural

namespace SilentScan

/-- The version of the frame format. -/
def frameVersion : String := "2.0"

/-- A call of a method. -/
structure Request where
  version : String := frameVersion
  id : Json
  method : String
  params : Json

/-- The error part of a response. -/
structure ErrorObject where
  code : Int
  message : String
deriving DecidableEq, Repr, Inhabited

/-- The answer to a request. -/
structure Response where
  version : String := frameVersion
  result : Json
  error : Option ErrorObject := none
  id : Json

/-- A message pushed by a server. -/
structure Notification where
  version : String := frameVersion
  method : String
  params : Json

namespace Request

/-- The request with a number for its id. -/
def numbered (id : Nat) (method : String) (params : Json) : Request :=
  { id := .int id, method, params }

/-- The request as a record. -/
def toRecord (r : Request) : Json :=
  .object [("jsonrpc", .string r.version), ("id", r.id), ("method", .string r.method),
    ("params", r.params)]

/-- The line of a request. -/
def line (r : Request) : String :=
  r.toRecord.text

/-- The fields met so far while a request is read. -/
structure Partial where
  version : Option String := none
  id : Option Json := none
  method : Option String := none
  params : Option Json := none

/-- Reads a request. -/
def reader : RecordReader Request where
  name := "Request"
  Partial := Partial
  start := {}
  field p key depth d :=
    match key with
    | "jsonrpc" => return { p with version := ← setOnce key p.version .string depth d }
    | "id" => return { p with id := ← setOnce key p.id .json depth d }
    | "method" => return { p with method := ← setOnce key p.method .string depth d }
    | "params" => return { p with params := ← setOnce key p.params .json depth d }
    | _ => do Decoder.ignored depth d; return p
  finish p := do
    let method ← required "method" p.method
    return { version := p.version.getD frameVersion, id := p.id.getD .null, method,
             params := p.params.getD .null }
  items depth items := do
    let (version, items) ← items.next? .string depth
    let (id, items) ← items.next? .json depth
    let (method, items) ← items.next .string depth "struct Request with 4 elements" 2
    let (params, items) ← items.next? .json depth
    return ({ version := version.getD frameVersion, id := id.getD .null, method,
              params := params.getD .null }, items)

/-- Reads a request from a draft. -/
def decoder : Source → Decoder Request :=
  reader.decoder

end Request

namespace ErrorObject

/-- The error as JSON; the declared order of the fields is the order of their keys. -/
def toJson (e : ErrorObject) : Json :=
  .object [("code", .int e.code), ("message", .string e.message)]

/-- The fields met so far while an error is read. -/
structure Partial where
  code : Option Int := none
  message : Option String := none

/-- Reads an error object; `name` is how messages call the record. -/
def readerAs (name : String) : RecordReader ErrorObject where
  name := name
  Partial := Partial
  start := {}
  field p key depth d :=
    match key with
    | "code" => return { p with code := ← setOnce key p.code .i64 depth d }
    | "message" => return { p with message := ← setOnce key p.message .string depth d }
    | _ => do Decoder.ignored depth d; return p
  finish p := do
    let code ← required "code" p.code
    let message ← required "message" p.message
    return { code, message }
  items depth items := do
    let record := "struct " ++ name ++ " with 2 elements"
    let (code, items) ← items.next .i64 depth record 0
    let (message, items) ← items.next .string depth record 1
    return ({ code, message }, items)

/-- Reads an error object from a draft. -/
def decoder : Source → Decoder ErrorObject :=
  (readerAs "ErrorObject").decoder

end ErrorObject

namespace Response

/-- The answer with a result. -/
def success (id result : Json) : Response :=
  { result, id }

/-- The answer with an error, whose result is null. -/
def failure (id : Json) (error : ErrorObject) : Response :=
  { result := .null, error := some error, id }

/-- The response as a record; without an error the field is left out. -/
def toRecord (r : Response) : Json :=
  .object ([("jsonrpc", .string r.version), ("result", r.result)]
    ++ (match r.error with
        | some e => [("error", e.toJson)]
        | none => [])
    ++ [("id", r.id)])

/-- The line of a response. -/
def line (r : Response) : String :=
  r.toRecord.text

/-- The fields met so far while a response is read. -/
structure Partial where
  version : Option String := none
  result : Option Json := none
  error : Option (Option ErrorObject) := none
  id : Option Json := none

/-- Reads a response. -/
def readerFrom (source : Source) : RecordReader Response where
  name := "Response"
  Partial := Partial
  start := {}
  field p key depth d :=
    match key with
    | "jsonrpc" => return { p with version := ← setOnce key p.version .string depth d }
    | "result" => return { p with result := ← setOnce key p.result .json depth d }
    | "error" =>
      let decoder := .optional (ErrorObject.decoder source)
      return { p with error := ← setOnce key p.error decoder depth d }
    | "id" => return { p with id := ← setOnce key p.id .json depth d }
    | _ => do Decoder.ignored depth d; return p
  finish p :=
    return { version := p.version.getD frameVersion, result := p.result.getD .null,
             error := p.error.getD none, id := p.id.getD .null }
  items depth items := do
    let (version, items) ← items.next? .string depth
    let (result, items) ← items.next? .json depth
    let (error, items) ← items.next? (.optional (ErrorObject.decoder source)) depth
    let (id, items) ← items.next? .json depth
    return ({ version := version.getD frameVersion, result := result.getD .null,
              error := error.getD none, id := id.getD .null }, items)

/-- Reads a response from a draft. -/
def decoder (source : Source) : Decoder Response :=
  (readerFrom source).decoder source

/-- The number under which a response was asked for, if its id is one, as a number or as a
text. -/
def numericId (r : Response) : Option Nat :=
  match r.id with
  | .number (.whole n) => if 0 ≤ n then some n.toNat else none
  | .string s => Natural.read? 0x1_0000_0000_0000_0000 s
  | _ => none

end Response

namespace Notification

/-- The notification as a record. -/
def toRecord (n : Notification) : Json :=
  .object [("jsonrpc", .string n.version), ("method", .string n.method), ("params", n.params)]

/-- The line of a notification. -/
def line (n : Notification) : String :=
  n.toRecord.text

/-- The fields met so far while a notification is read. -/
structure Partial where
  version : Option String := none
  method : Option String := none
  params : Option Json := none

/-- Reads a notification. -/
def reader : RecordReader Notification where
  name := "Notification"
  Partial := Partial
  start := {}
  field p key depth d :=
    match key with
    | "jsonrpc" => return { p with version := ← setOnce key p.version .string depth d }
    | "method" => return { p with method := ← setOnce key p.method .string depth d }
    | "params" => return { p with params := ← setOnce key p.params .json depth d }
    | _ => do Decoder.ignored depth d; return p
  finish p := do
    let method ← required "method" p.method
    return { version := p.version.getD frameVersion, method, params := p.params.getD .null }
  items depth items := do
    let (version, items) ← items.next? .string depth
    let (method, items) ← items.next .string depth "struct Notification with 3 elements" 1
    let (params, items) ← items.next? .json depth
    return ({ version := version.getD frameVersion, method, params := params.getD .null }, items)

/-- Reads a notification from a draft. -/
def decoder : Source → Decoder Notification :=
  reader.decoder

end Notification

/-- What a line of the peer holds. -/
inductive Frame where
  | notification (n : Notification)
  | response (r : Response)

/-- Why a line holds no frame. -/
inductive FrameFault where
  | notJson
  | notObject
  | mismatch (m : Mismatch)

/-- The wording of a fault; syntax errors are not told apart. -/
def FrameFault.message : FrameFault → String
  | .notJson => "<json>"
  | .notObject => "frame is not an object"
  | .mismatch m => m.message

/-- A fault in reading the record of a frame. -/
def FrameFault.ofRead : ReadFault → FrameFault
  | .notJson => .notJson
  | .mismatch m => .mismatch m

/-- The frame a line holds: an object with a method and without an error is a notification, and
any other object a response. -/
def Frame.classify (line : String) : Except FrameFault Frame :=
  match Json.parse line with
  | none => .error .notJson
  | some v =>
    match v with
    | .object fields =>
      let keys := fields.map (·.1)
      if keys.contains "method" && !keys.contains "error" then
        ((readJson Notification.decoder v).mapError FrameFault.ofRead).map .notification
      else
        ((readJson Response.decoder v).mapError FrameFault.ofRead).map .response
    | _ => .error .notObject

end SilentScan
