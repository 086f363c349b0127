/-
The program.

It looks at the arguments, the environment and the files that are asked for, and does what the
command says. There are no sockets to serve clients on, so serving ends where it would listen.

* `main`: the entry point.
-/
import SilentScan.Service.CommandLine
import SilentScan.Service.EnvFile

namespace SilentScan

/-- The variables that are set, with what a file of variables in the working directory adds. -/
def machineEnvironment : IO Environment := do
  let found ← Config.settingNames.filterMapM fun name => do
    return (← IO.getEnv name).map (name, ·)
  try return Environment.withFile found (← IO.FS.readFile ".env")
  catch _ => return found

/-- The content of a file. -/
def fileContent (path : String) : IO (Except FileFault Bytes) := do
  try return .ok (← IO.FS.readBinFile path).toList
  catch
    | .noFileOrDirectory .. => return .error .notFound
    | _ => return .error .isDirectory

/-- What a command finds on the machine. -/
def machine (c : Command) : IO Surroundings := do
  let content ← match c with
    | .snapshot path _ => fileContent path
    | _ => pure (.error .notFound)
  return { environment := ← machineEnvironment
           file := fun _ => content
           openIndex := fun _ => .ok ()
           listen := fun _ => .error "Function not implemented (os error 38)" }

/-- Does what the arguments say, and gives the status with which the program ends. -/
def runArguments (args : List String) : IO UInt32 := do
  let c := Command.ofArguments args
  let o := c.run (← machine c)
  for line in o.lines do
    IO.println line
  for line in o.errorLine do
    IO.eprintln line
  return UInt32.ofNat o.exitCode

end SilentScan

/-- The entry point. -/
def main (args : List String) : IO UInt32 :=
  SilentScan.runArguments args
