/-
The command line.

The first argument names what to do: to serve, to show the configuration, or to count the
outputs worth indexing in a snapshot. Everything else shows how the program is used.

* `Command`, with `ofArguments`: what is asked for;
* `Surroundings`: what the program finds on the machine;
* `Command.run`: the lines written, and the error that ends the program, if any.
-/
import SilentScan.Protocol.Methods
import SilentScan.Service.Error
import SilentScan.Snapshot.File

namespace SilentScan

/-- What the program is asked to do. -/
inductive Command where
  | usage
  | serve
  | config
  /-- Counts the outputs worth indexing; the least value is still to be read from its text. -/
  | snapshot (path : String) (options : List String)
deriving DecidableEq, Repr

/-- The command that arguments give. -/
def Command.ofArguments : List String → Command
  | "serve" :: _ => .serve
  | "config" :: _ => .config
  | "snapshot" :: path :: options => .snapshot path options
  | _ => .usage

/-- Why a file cannot be read. -/
inductive FileFault where
  | notFound
  | isDirectory
deriving DecidableEq, Repr

/-- What the program finds on the machine. -/
structure Surroundings where
  environment : Environment
  /-- The content of a file. -/
  file : String → Except FileFault Bytes
  /-- Opens the index. -/
  openIndex : Config → Except StorageError Unit
  /-- Serves clients until the end, or until it fails. -/
  listen : Config → Except String Unit

/-- What the program writes, and the error that ends it. -/
structure CommandOutcome where
  lines : List String := []
  error : Option ServiceError := none
deriving DecidableEq, Repr

namespace CommandOutcome

/-- The status with which the program ends. -/
def exitCode (o : CommandOutcome) : Nat :=
  if o.error.isSome then 1 else 0

/-- The line that reports the error. -/
def errorLine (o : CommandOutcome) : Option String :=
  o.error.map fun e => "Error [" ++ e.code ++ "]: " ++ e.message

/-- The outcome of a step that may fail before anything is written. -/
def ofExcept (r : Except ServiceError (List String)) : CommandOutcome :=
  match r with
  | .ok lines => { lines }
  | .error e => { error := some e }

end CommandOutcome

namespace Command

/-- How the program is used. -/
def usageLines : List String := [
  serverString ++ " - Silent Payments Electrum server",
  "",
  "Usage:",
  "  spindex-server serve                           Start the server",
  "  spindex-server config                          Show effective configuration",
  "  spindex-server snapshot <file> [--min <sats>]  Scan a dumptxoutset file",
  "",
  "Environment Variables:",
  "  SPINDEX_NETWORK            mainnet | testnet | signet | regtest",
  "  SPINDEX_LISTEN             Client listener address (default: 127.0.0.1:57001)",
  "  SPINDEX_DB_PATH            SQLite index path, or :memory:",
  "  SPINDEX_INDEX_MODE         full | utxo",
  "  SPINDEX_BACKEND_ELECTRUM   Upstream Electrum server host:port",
  "  SPINDEX_BITCOIND_URL       Full node RPC endpoint",
  "  SPINDEX_LOG_LEVEL          trace | debug | info | warn | error"]

/-- The least value that the options give, the last one that does counting. Other options mean
nothing. -/
def minValueOf : (sofar : Nat) → List String → Except ServiceError Nat
  | sofar, [] => .ok sofar
  | sofar, option :: rest =>
    match option, rest with
    | "--min", value :: rest =>
      match Natural.read? 0x1_0000_0000_0000_0000 value with
      | some n => minValueOf n rest
      | none => .error (.internal ("invalid --min value: " ++ value))
    | _, rest => minValueOf sofar rest

/-- The content of a snapshot file. A directory can be opened but not read. -/
def snapshotBytes (around : Surroundings) (path : String) : Except ServiceError Bytes :=
  match around.file path with
  | .ok bytes => .ok bytes
  | .error .notFound => .error (.io "No such file or directory (os error 2)")
  | .error .isDirectory =>
    .error (.snapshot (.input (.unreadable "Is a directory (os error 21)")))

/-- The number of different transactions among coins. -/
def transactionCount (coins : List Coin) : Nat :=
  (coins.map (·.txid)).eraseDups.length

/-- Counts the outputs worth indexing in a snapshot. -/
def countSnapshot (around : Surroundings) (path : String) (options : List String) :
    Except ServiceError (List String) := do
  let minValue ← minValueOf 0 options
  let bytes ← snapshotBytes around path
  let reading ← (readSnapshot bytes).mapError .snapshot
  let kept ← (reading.indexableCount minValue).mapError .snapshot
  return ["Base block: " ++ reading.header.baseBlock,
    "Coins: " ++ toString reading.header.coinCount,
    "Taproot coins >= " ++ toString minValue ++ " sats: " ++ toString kept,
    "Transactions: " ++ toString (transactionCount (reading.indexable minValue))]

/-- Serves clients: the configuration is shown before the index is opened. -/
def serveClients (around : Surroundings) : CommandOutcome :=
  match Config.ofEnvironment around.environment with
  | .error e => { error := some (.config e) }
  | .ok settings =>
    let lines := settings.summary
    match around.openIndex settings with
    | .error e => { lines, error := some (.storage e) }
    | .ok () =>
      match around.listen settings with
      | .error cause => { lines, error := some (.io cause) }
      | .ok () => { lines }

/-- Does what is asked for. -/
def run (around : Surroundings) : Command → CommandOutcome
  | .usage => { lines := usageLines }
  | .config =>
    .ofExcept ((Config.ofEnvironment around.environment).mapError .config |>.map Config.summary)
  | .snapshot path options => .ofExcept (countSnapshot around path options)
  | .serve => serveClients around

end Command
end SilentScan
