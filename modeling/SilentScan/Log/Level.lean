/-
Log levels.

* `LogLevel`, with `parse` and `text`: the levels and their names.
-/
import SilentScan.Text.Blank

namespace SilentScan

/-- How important a log line is. -/
inductive LogLevel where
  | trace
  | debug
  | info
  | warn
  | error
deriving DecidableEq, Repr, Inhabited

namespace LogLevel

/-- The name of a level. -/
def text : LogLevel → String
  | .trace => "trace"
  | .debug => "debug"
  | .info => "info"
  | .warn => "warn"
  | .error => "error"

/-- The level of a name in either case, blanks around it aside; a name that is none is given
back in lower case. -/
def parse (s : String) : Except String LogLevel :=
  match Text.lower (Text.trim s) with
  | "trace" => .ok .trace
  | "debug" => .ok .debug
  | "info" => .ok .info
  | "warn" | "warning" => .ok .warn
  | "error" => .ok .error
  | other => .error other

end LogLevel
end SilentScan
