/-
What can go wrong in the server as a whole.

* `ServiceError`: the errors of all parts;
* `ServiceError.code`, `message`, `isRetryable`: what they are called, what they say, and whether
  trying again may help.
-/
import SilentScan.Index.Basic
import SilentScan.Service.Config
import SilentScan.Snapshot.Error
import SilentScan.Wire.Error

namespace SilentScan

/-- What can go wrong when logging is set up. -/
inductive LoggingError where
  | initFailed (cause : String)
  | unknownLevel (level : String)
deriving DecidableEq, Repr

/-- The wording of a logging error. -/
def LoggingError.message : LoggingError → String
  | .initFailed cause => "failed to initialize logging: " ++ cause
  | .unknownLevel level => "unknown log level: " ++ level

/-- An error of any part of the server. -/
inductive ServiceError where
  | config (e : ConfigError)
  | logging (e : LoggingError)
  | storage (e : StorageError)
  | transport (e : TransportError)
  | chain (e : ChainError)
  | snapshot (e : SnapshotError)
  | internal (cause : String)
  | io (cause : String)
deriving DecidableEq, Repr

namespace ServiceError

/-- The name of the family of an error. -/
def code : ServiceError → String
  | .config _ => "CONFIG_ERROR"
  | .logging _ => "LOGGING_ERROR"
  | .storage _ => "STORAGE_ERROR"
  | .transport _ => "TRANSPORT_ERROR"
  | .chain _ => "CHAIN_ERROR"
  | .snapshot _ => "SNAPSHOT_ERROR"
  | .internal _ => "INTERNAL_ERROR"
  | .io _ => "IO_ERROR"

/-- The wording of an error. -/
def message : ServiceError → String
  | .config e => "configuration error: " ++ e.message
  | .logging e => "logging error: " ++ e.message
  | .storage e => "storage error: " ++ e.message
  | .transport e => "transport error: " ++ e.message
  | .chain e => "chain error: " ++ e.message
  | .snapshot e => "snapshot error: " ++ e.message
  | .internal cause => "internal error: " ++ cause
  | .io cause => "IO error: " ++ cause

/-- Whether trying again may help: the fault lies with a connection or with the system. -/
def isRetryable : ServiceError → Bool
  | .transport _ | .chain (.io _) | .io _ => true
  | _ => false

end ServiceError
end SilentScan
