/-
The configuration of the server.

Every setting comes from a variable of the environment and has a default. They are read in a
fixed order, and the first that is wrong is reported.

* `Environment`: the variables that are set;
* `Config`, with `settingNames` and `ofEnvironment`: the settings;
* `Config.summary`: what the operator is shown, without credentials.
-/
import SilentScan.Chain.Network
import SilentScan.Index.Basic
import SilentScan.Log.Level
import SilentScan.Number.Natural
import SilentScan.Service.Endpoint

namespace SilentScan

/-- What can be wrong with the configuration. -/
inductive ConfigError where
  | missing (name : String)
  | invalid (name : String) (value : String)
deriving DecidableEq, Repr

/-- The wording of a configuration error. -/
def ConfigError.message : ConfigError → String
  | .missing name => "missing required environment variable: " ++ name
  | .invalid name value => "invalid value for " ++ name ++ ": " ++ value

/-- The variables that are set, with their values. -/
abbrev Environment := List (String × String)

/-- The name of the variable that chooses the network. -/
def networkVariable : String := "SPINDEX_NETWORK"

/-- The network of a name, or the fault of the variable. -/
def Network.ofSetting (text : String) : Except ConfigError Network :=
  match Network.parse? text with
  | some n => .ok n
  | none => .error (.invalid networkVariable ("unknown network: " ++ text))

/-- The settings of the server. -/
structure Config where
  network : Network
  listen : Endpoint
  databasePath : String
  indexMode : IndexMode
  /-- The least value of an output that the layout of outputs takes in. -/
  minValue : Nat
  /-- The other server, if there is one. -/
  backend : Option String
  nodeUrl : String
  nodeUser : Option String
  nodePassword : Option String
  /-- The time between the ticks of a scan, in milliseconds. -/
  scanProgressMs : Nat
  tipPollSecs : Nat
  requestTimeoutSecs : Nat
  logLevel : LogLevel
  logJson : Bool
deriving DecidableEq, Repr

namespace Config

/-- The value of a variable with a default, read without the blanks around it. -/
def setting {α : Type} (env : Environment) (name default : String) (read : String → Option α) :
    Except ConfigError α :=
  let raw := (env.lookup name).getD default
  match read (Text.trim raw) with
  | some a => .ok a
  | none => .error (.invalid name raw)

/-- A variable that holds a word of 64 bits. -/
def word (env : Environment) (name default : String) : Except ConfigError Nat :=
  setting env name default (Natural.read? 0x1_0000_0000_0000_0000)

/-- A word that may not be zero. -/
def positiveWord (env : Environment) (name default : String) : Except ConfigError Nat := do
  let n ← word env name default
  if n = 0 then throw (.invalid name "must be greater than zero") else return n

/-- The place of the other server: blank means none, and otherwise a colon has to be in it. -/
def backendOf (env : Environment) : Except ConfigError (Option String) :=
  let name := "SPINDEX_BACKEND_ELECTRUM"
  match env.lookup name with
  | none => .ok none
  | some place =>
    if (Text.trim place).isEmpty then .ok none
    else if place.toList.contains ':' then .ok (some place)
    else .error (.invalid name ("expected host:port, got " ++ place))

/-- The variables that are looked at. -/
def settingNames : List String :=
  [networkVariable, "SPINDEX_LISTEN", "SPINDEX_DB_PATH", "SPINDEX_INDEX_MODE",
    "SPINDEX_MIN_UTXO_VALUE", "SPINDEX_BACKEND_ELECTRUM", "SPINDEX_BITCOIND_URL",
    "SPINDEX_BITCOIND_USER", "SPINDEX_BITCOIND_PASSWORD", "SPINDEX_SCAN_PROGRESS_MS",
    "SPINDEX_REQUEST_TIMEOUT_SECS", "SPINDEX_TIP_POLL_SECS", "SPINDEX_LOG_LEVEL",
    "SPINDEX_LOG_JSON"]

/-- Reads the settings. -/
def ofEnvironment (env : Environment) : Except ConfigError Config := do
  let network ← Network.ofSetting ((env.lookup networkVariable).getD "mainnet")
  let listen ← setting env "SPINDEX_LISTEN" "127.0.0.1:57001" Endpoint.parse?
  let databasePath := (env.lookup "SPINDEX_DB_PATH").getD "./data/index.db"
  let indexMode ← setting env "SPINDEX_INDEX_MODE" "full" fun s => (IndexMode.parse s).toOption
  let minValue ← word env "SPINDEX_MIN_UTXO_VALUE" "1000"
  let backend ← backendOf env
  let nodeUrl := (env.lookup "SPINDEX_BITCOIND_URL").getD
    ("http://127.0.0.1:" ++ toString network.rpcPort)
  let nodeUser := env.lookup "SPINDEX_BITCOIND_USER"
  let nodePassword := env.lookup "SPINDEX_BITCOIND_PASSWORD"
  if nodeUser.isSome && nodePassword.isNone then
    throw (.missing "SPINDEX_BITCOIND_PASSWORD")
  let scanProgressMs ← positiveWord env "SPINDEX_SCAN_PROGRESS_MS" "1000"
  let requestTimeoutSecs ← word env "SPINDEX_REQUEST_TIMEOUT_SECS" "30"
  let tipPollSecs ← positiveWord env "SPINDEX_TIP_POLL_SECS" "5"
  let logLevel ← setting env "SPINDEX_LOG_LEVEL" "info" fun s => (LogLevel.parse s).toOption
  let logJson := (env.lookup "SPINDEX_LOG_JSON").any fun v => ["1", "true"].contains (Text.trim v)
  return { network, listen, databasePath, indexMode, minValue, backend, nodeUrl, nodeUser,
           nodePassword, scanProgressMs, tipPollSecs, requestTimeoutSecs, logLevel, logJson }

/-- The thousandths of a number behind a point, without zeros at the end. -/
def thousandths (n : Nat) : String :=
  let digits := (toString (1000 + n % 1000)).toList.drop 1
  let shown := (digits.reverse.dropWhile (· = '0')).reverse
  if shown.isEmpty then "" else "." ++ String.ofList shown

/-- A span of time in its largest fitting unit. -/
def spanText (ms : Nat) : String :=
  if ms = 0 then "0ns"
  else if ms < 1000 then toString ms ++ "ms"
  else toString (ms / 1000) ++ thousandths ms ++ "s"

/-- The lines that the operator is shown. -/
def summary (c : Config) : List String :=
  ["=== spindex Configuration ===",
    "Network: " ++ c.network.name,
    "Listen: " ++ c.listen.text,
    "Index: " ++ c.databasePath ++ " (" ++ c.indexMode.text ++ ")"]
  ++ (if c.indexMode = .utxoOnly then ["Min UTXO Value: " ++ toString c.minValue ++ " sats"]
    else [])
  ++ ["Backend Electrum: " ++ c.backend.getD "(none)",
    "Bitcoind: " ++ c.nodeUrl,
    "Bitcoind Auth: " ++ (if c.nodeUser.isSome then "configured" else "none"),
    "Scan Progress Interval: " ++ spanText c.scanProgressMs,
    "Tip Poll Interval: " ++ spanText (1000 * c.tipPollSecs),
    "Log Level: " ++ c.logLevel.text,
    "============================="]

end Config
end SilentScan
