/-
The methods that clients may call.

Nothing but the settling of a version is answered before a version has been settled on. Some
methods are answered here, mostly with the help of the full node; some are handed to the other
server, where the session has a link to it.

* `Handling`: dialogues that may end in an error for the client;
* `dispatch`: the answer to a call;
* `handleRequest`, `handleValue`, `handleLine`: the replies to a request, to a value that should
  be one, and to a line.
-/
import SilentScan.Protocol.Dialogue
import SilentScan.Protocol.Params

namespace SilentScan

/-- The name and the version of this server, as clients are told. -/
def serverString : String := "spindex 0.1.0"

/-- Starts above this are timestamps and not heights. -/
def maxBlockLocktime : Int := 500000000

/-- The methods that the other server answers. -/
def proxiedMethods : List String := [
  "server.version",
  "server.features",
  "server.add_peer",
  "server.donation_address",
  "server.peers.subscribe",
  "mempool.get_fee_histogram",
  "blockchain.scripthash.subscribe",
  "blockchain.scripthash.unsubscribe",
  "blockchain.scripthash.get_balance",
  "blockchain.scripthash.get_history",
  "blockchain.scripthash.get_mempool",
  "blockchain.scripthash.listunspent",
  "blockchain.block.headers",
  "blockchain.transaction.get_merkle",
  "blockchain.transaction.id_from_pos"]

/-- Whether the other server answers a method. -/
def isProxied (method : String) : Bool :=
  proxiedMethods.contains method

/-- What all sessions have in common. -/
structure ServiceSetting where
  scheme : Scheme := .standard
  network : Network := .regtest

/-- A dialogue that ends with a value or with an error for the client. -/
abbrev Handling (α : Type) := ExceptT RpcError Dialogue α

namespace Handling

/-- Looks at the session or changes it. -/
def move (m : Move) : Handling m.Reply :=
  ExceptT.lift (.move m .done)

/-- Asks the full node. -/
def node (q : NodeQuery) : Handling q.Answer :=
  .mk (.ask (.node q) fun r => .done (r.mapError RpcError.ofChain))

/-- Has the other server answer, if the session has a link to it; `what` is what the client has
asked for. -/
def forwardFor (what method : String) (params : Json) : Handling Json := do
  let session ← move .look
  if session.linked then .mk (.ask (.forward method params) .done)
  else throw (.notConfigured what)

/-- Hands a call to the other server. -/
def forward (method : String) (params : Json) : Handling Json :=
  forwardFor method method params

end Handling

open Handling

/-- Reads the answer of the other server to the settling of a version: an array of texts. -/
def versionReply (reply : Json) : Except RpcError (List String) :=
  match readJson (fun _ => Decoder.list .string) reply with
  | .ok versions => .ok versions
  | .error e =>
    .error (.backendIo ("unexpected server.version reply: " ++ (FrameFault.ofRead e).message))

/-- Settles on a version, together with the other server if there is a link to it. -/
def serverVersion (params : Params) : Handling Json := do
  let clientName := (← params.text? 0 "client_name").getD ""
  let requested := (params.get? 1 "protocol_version").getD .null
  let session ← move .look
  let offered ←
    if session.linked then
      let reply ← forward "server.version" (.array [.string clientName, requested])
      pure (some (← versionReply reply))
    else pure none
  let version ← negotiate requested offered
  move (.settle version)
  return .array [.string serverString, .string version.text]

/-- What this server can do. -/
def serverFeatures (setting : ServiceSetting) : Handling Json := do
  let session ← move .look
  if session.linked then forward "server.features" (.array [])
  else
    return .ofFields [
      ("genesis_hash", .string setting.network.genesisHash),
      ("hosts", .object []),
      ("protocol_max", .string ProtocolVersion.highest.text),
      ("protocol_min", .string ProtocolVersion.lowest.text),
      ("pruning", .null),
      ("server_version", .string serverString),
      ("hash_function", .string "sha256")]

/-- The header of a block; a proof of it up to a later block comes from the other server. -/
def blockHeader (params : Params) : Handling Json := do
  let height ← params.below 0x1_0000_0000 0 "height"
  let cpHeight := (← params.int? 1 "cp_height").getD 0
  if 0 < cpHeight then
    forwardFor "blockchain.block.header with cp_height" "blockchain.block.header"
      (.array [.int height, .int cpHeight])
  else return .string (← node (.blockHeader height))

/-- The fee rate at which a transaction gets into one of the next blocks. -/
def estimateFee (params : Params) : Handling Json := do
  let blocks ← params.below 0x1_0000_0000 0 "number"
  if 0x1_0000 ≤ blocks then throw (.invalidParams "number out of range")
  let mode ← params.text? 1 "mode"
  let fee ← node (.estimateFee blocks mode)
  return .number (.float (fee.getD defaultFeeRate))

/-- The address that the first two parameters give. -/
def addressParam (setting : ServiceSetting) (params : Params) : Except RpcError ScanAddress := do
  let scan ← params.text 0 "scan_private_key"
  let spend ← params.text 1 "spend_public_key"
  (ScanAddress.ofHex setting.scheme scan spend setting.network).mapError
    fun e => .invalidParams e.message

/-- The height at which the scan of the history starts: a large start is a timestamp, any other
positive one a height, and everything else means the first block. -/
def startHeight (start : Option Int) : Handling Int :=
  match start with
  | some n =>
    if maxBlockLocktime < n then node (.heightForTimestamp n.toNat)
    else if 0 < n then
      if n ≤ heightMax then return n else throw (.invalidParams "start out of range")
    else return 0
  | none => return 0

/-- Watches an address and starts to scan its history. -/
def subscribeAddress (setting : ServiceSetting) (params : Params) : Handling Json := do
  let address ← addressParam setting params
  let start ← startHeight (← params.int? 2 "start")
  let rawLabels ← params.labels 3 "labels"
  let labels ← move (.watchAddress address rawLabels)
  let session ← move .look
  move (.scan { owner := session.id, address, labels, startHeight := some start,
                endHeight := none })
  return .string address.address

/-- Stops watching an address. -/
def unsubscribeAddress (setting : ServiceSetting) (params : Params) : Handling Json := do
  let address ← addressParam setting params
  move (.dropAddress address.address)
  return .string address.address

/-- Watches a script hash once the other server has agreed. -/
def subscribeHash (method : String) (raw : Json) : Handling Json := do
  let hash ← Params.text ⟨raw⟩ 0 "scripthash"
  let status ← forward method raw
  move (.watchHash hash)
  return status

/-- Stops watching a script hash once the other server has agreed. -/
def unsubscribeHash (method : String) (raw : Json) : Handling Json := do
  let hash ← Params.text ⟨raw⟩ 0 "scripthash"
  let result ← forward method raw
  move (.dropHash hash)
  return result

/-- The answer to a call other than the settling of a version. -/
def answerCall (setting : ServiceSetting) (method : String) (raw : Json) : Handling Json := do
  let params : Params := ⟨raw⟩
  match method with
  | "server.banner" => return .string serverString
  | "server.ping" => do
    let _ ← node .uptime
    return .null
  | "server.features" => serverFeatures setting
  | "blockchain.headers.subscribe" => do
    move .watchHeaders
    return (← node .tip).toJson
  | "blockchain.block.header" => blockHeader params
  | "blockchain.estimatefee" => estimateFee params
  | "blockchain.relayfee" => return .number (.float (← node .relayFee))
  | "blockchain.transaction.get" => do
    let txid ← params.text 0 "tx_hash"
    let verbose := (← params.bool? 1 "verbose").getD false
    node (.transaction txid verbose)
  | "blockchain.transaction.broadcast" => do
    let rawTx ← params.text 0 "raw_tx"
    return .string (← node (.broadcast rawTx))
  | "blockchain.scripthash.subscribe" => subscribeHash method raw
  | "blockchain.scripthash.unsubscribe" => unsubscribeHash method raw
  | "blockchain.silentpayments.subscribe" => subscribeAddress setting params
  | "blockchain.silentpayments.unsubscribe" => unsubscribeAddress setting params
  | _ => if isProxied method then forward method raw else throw (.methodNotFound method)

/-- The answer to a call. -/
def dispatch (setting : ServiceSetting) (method : String) (raw : Json) : Handling Json := do
  if method = "server.version" then serverVersion ⟨raw⟩
  else
    let session ← move .look
    if session.version.isNone then throw .versionNotNegotiated
    answerCall setting method raw

/-- The reply to a request. -/
def handleRequest (setting : ServiceSetting) (request : Request) : Dialogue Response := do
  match ← (dispatch setting request.method request.params).run with
  | .ok result => return .success request.id result
  | .error e => return .failure request.id e.toObject

/-- The reply to a value that should be a request. -/
def handleValue (setting : ServiceSetting) (v : Json) : Dialogue Response :=
  match readJson Request.decoder v with
  | .ok request => handleRequest setting request
  | .error e =>
    return .failure ((v.get? "id").getD .null)
      (RpcError.invalidParams (FrameFault.ofRead e).message).toObject

/-- The replies to the values of a batch, one after another. -/
def handleBatch (setting : ServiceSetting) : List Json → Dialogue (List Response)
  | [] => return []
  | v :: rest => do
    let reply ← handleValue setting v
    return reply :: (← handleBatch setting rest)

/-- The reply to a line: a blank line has none, and an array is a batch, answered by the array of
the replies. -/
def handleLine (setting : ServiceSetting) (line : String) : Dialogue (Option String) :=
  let line := Text.trim line
  if line.isEmpty then return none
  else
    match Json.parse line with
    | none =>
      return some (Response.failure .null
        (RpcError.parse (FrameFault.notJson).message).toObject).line
    | some (.array items) => do
      let replies ← handleBatch setting items
      return some (Json.array (replies.map Response.toRecord)).text
    | some v => return some (← handleValue setting v).line

end SilentScan
