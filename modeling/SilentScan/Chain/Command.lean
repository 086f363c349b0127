/-
Commands of a full node.

A full node takes commands as JSON requests and answers each with a result or an error. Some
errors mean that something does not exist, or that a transaction is refused.

* `NodeCommand`, with `Reply`: the commands and the types of their results;
* `NodeCommand.body`: the request;
* `NodeCommand.readReply`: what an answer says.
-/
import SilentScan.Chain.Node
import SilentScan.Json.Decode
import SilentScan.Json.Printer
import SilentScan.Wire.Error
import SilentScan.Wire.HttpStatus

namespace SilentScan

/-- A command to the full node. -/
inductive NodeCommand where
  | bestBlockHash
  | blockCount
  | blockHash (height : Nat)
  /-- The header of a block, taken apart. -/
  | headerInfo (hash : String)
  /-- The header of a block in hexadecimal. -/
  | header (hash : String)
  | feeEstimate (blocks : Nat) (mode : Option String)
  | mempoolInfo
  | transaction (txid : String) (verbose : Bool)
  | sendTransaction (rawTx : String)
  | uptime
deriving DecidableEq, Repr

/-- What is used of a header that is taken apart. -/
structure HeaderInfo where
  height : Nat
  time : Nat
deriving DecidableEq, Repr

namespace HeaderInfo

/-- The fields met so far while a header is read. -/
structure Partial where
  height : Option Nat := none
  time : Option Nat := none

/-- Reads a header that is taken apart. -/
def reader : RecordReader HeaderInfo where
  name := "HeaderInfo"
  Partial := Partial
  start := {}
  field p key depth d :=
    match key with
    | "height" => return { p with height := ← setOnce key p.height .u32 depth d }
    | "time" => return { p with time := ← setOnce key p.time .u64 depth d }
    | _ => do Decoder.ignored depth d; return p
  finish p := do
    let height ← required "height" p.height
    let time ← required "time" p.time
    return { height, time }
  items depth items := do
    let record := "struct HeaderInfo with 2 elements"
    let (height, items) ← items.next .u32 depth record 0
    let (time, items) ← items.next .u64 depth record 1
    return ({ height, time }, items)

end HeaderInfo

/-- Reads a record with one field; `absent` stands for a field that is missing. -/
def soleFieldReader {α : Type} (name key : String) (read : Decoder α) (absent : Option α) :
    RecordReader α where
  name := name
  Partial := Option α
  start := none
  field p k depth d :=
    if k = key then setOnce key p read depth d
    else do Decoder.ignored depth d; return p
  finish p := required key (p.or absent)
  items depth items := items.next read depth ("struct " ++ name ++ " with 1 element") 0

/-- The error that a node answers with. -/
structure NodeFault where
  code : Int
  message : String
deriving DecidableEq, Repr

namespace NodeFault

/-- The fields met so far while an error is read. -/
structure Partial where
  code : Option Int := none
  message : Option String := none

/-- Reads an error. -/
def reader : RecordReader NodeFault where
  name := "RpcErrorObject"
  Partial := Partial
  start := {}
  field p key depth d :=
    match key with
    | "code" => return { p with code := ← setOnce key p.code .i64 depth d }
    | "message" => return { p with message := ← setOnce key p.message .string depth d }
    | _ => do Decoder.ignored depth d; return p
  finish p := do
    let code ← required "code" p.code
    let message ← required "message" p.message
    return { code, message }
  items depth items := do
    let record := "struct RpcErrorObject with 2 elements"
    let (code, items) ← items.next .i64 depth record 0
    let (message, items) ← items.next .string depth record 1
    return ({ code, message }, items)

end NodeFault

/-- What a node answers. -/
structure NodeReply (α : Type) where
  result : Option α
  error : Option NodeFault

namespace NodeReply

/-- The fields met so far while an answer is read. -/
structure Partial (α : Type) where
  result : Option (Option α) := none
  error : Option (Option NodeFault) := none

/-- Reads an answer. -/
def reader {α : Type} (source : Source) (read : Decoder α) : RecordReader (NodeReply α) where
  name := "RpcReply"
  Partial := Partial α
  start := {}
  field p key depth d :=
    match key with
    | "result" => return { p with result := ← setOnce key p.result (.optional read) depth d }
    | "error" =>
      return { p with
        error := ← setOnce key p.error (.optional (NodeFault.reader.decoder source)) depth d }
    | _ => do Decoder.ignored depth d; return p
  finish p := return { result := p.result.join, error := p.error.join }
  items depth items := do
    let record := "struct RpcReply with 2 elements"
    let (result, items) ← items.next (.optional read) depth record 0
    let (error, items) ← items.next (.optional (NodeFault.reader.decoder source)) depth record 1
    return ({ result, error }, items)

end NodeReply

namespace NodeCommand

/-- The type of the result of a command. -/
abbrev Reply : NodeCommand → Type
  | .bestBlockHash => String
  | .blockCount => Nat
  | .blockHash _ => String
  | .headerInfo _ => HeaderInfo
  | .header _ => String
  | .feeEstimate _ _ => Option Double
  | .mempoolInfo => Double
  | .transaction _ _ => Json
  | .sendTransaction _ => String
  | .uptime => Nat

/-- Reads the result of a command. -/
def reply (source : Source) : (c : NodeCommand) → Decoder c.Reply
  | .bestBlockHash | .blockHash _ | .header _ | .sendTransaction _ => .string
  | .blockCount => .u32
  | .headerInfo _ => HeaderInfo.reader.decoder source
  | .feeEstimate _ _ =>
    (soleFieldReader "FeeEstimate" "feerate" (.optional .f64) (some none)).decoder source
  | .mempoolInfo => (soleFieldReader "MempoolInfo" "minrelaytxfee" .f64 none).decoder source
  | .transaction _ _ => .json
  | .uptime => .u64

/-- The method of the request. -/
def method : NodeCommand → String
  | .bestBlockHash => "getbestblockhash"
  | .blockCount => "getblockcount"
  | .blockHash _ => "getblockhash"
  | .headerInfo _ | .header _ => "getblockheader"
  | .feeEstimate _ _ => "estimatesmartfee"
  | .mempoolInfo => "getmempoolinfo"
  | .transaction _ _ => "getrawtransaction"
  | .sendTransaction _ => "sendrawtransaction"
  | .uptime => "uptime"

/-- The parameters of the request. -/
def params : NodeCommand → List Json
  | .bestBlockHash | .blockCount | .mempoolInfo | .uptime => []
  | .blockHash height => [.int height]
  | .headerInfo hash => [.string hash, .bool true]
  | .header hash => [.string hash, .bool false]
  | .feeEstimate blocks mode => .int blocks :: (mode.map Json.string).toList
  | .transaction txid verbose => [.string txid, .bool verbose]
  | .sendTransaction rawTx => [.string rawTx, .int 0]

/-- The request, under a number. -/
def body (id : Nat) (c : NodeCommand) : String :=
  (Json.ofFields [("jsonrpc", .string "1.0"), ("id", .int id), ("method", .string c.method),
    ("params", .array c.params)]).text

/-- What an error answered by the node means for a command. -/
def meaning : NodeCommand → ChainError → ChainError
  | .blockHash _, e | .headerInfo _, e | .header _, e | .transaction _ _, e => e.orNotFound
  | .sendTransaction _, e => e.orRejected
  | _, e => e

/-- What an answer says. The status plays no part in it, because the node gives the reason for a
failure in the answer. -/
def readReply (c : NodeCommand) (status : Nat) (text : String) : Except ChainError c.Reply :=
  match readText (fun source => (NodeReply.reader source (c.reply source)).decoder source) text with
  | .error _ =>
    .error (.io (c.method ++ " returned HTTP " ++ HttpStatus.text status ++ ": <json>"))
  | .ok { error := some fault, .. } => .error (c.meaning (.rpc fault.code fault.message))
  | .ok { result := some result, .. } => .ok result
  | .ok { result := none, .. } => .error (.io (c.method ++ " returned no result"))

end NodeCommand
end SilentScan
