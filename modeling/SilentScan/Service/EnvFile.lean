/-
Files of variables.

A file may set variables that the environment leaves open, one on a line as a name, an equals
sign and a value. Blank lines and lines behind a number sign mean nothing. A value between quotes
is taken as it stands there; otherwise it ends at the first number sign behind a blank, and
blanks around it do not count.

* `EnvFile.assignments`: the variables of a file;
* `Environment.withFile`: an environment with what a file adds.
-/
import SilentScan.Service.Config

namespace SilentScan
namespace EnvFile

/-- Cuts characters at every line end. -/
def splitLines : List Char → List (List Char)
  | [] => [[]]
  | c :: rest =>
    if c = '\n' then [] :: splitLines rest
    else match splitLines rest with
      | line :: lines => (c :: line) :: lines
      | [] => [[c]]

/-- The part of an unquoted value before a remark. -/
def withoutRemark : List Char → List Char
  | [] => []
  | ' ' :: '#' :: _ => []
  | c :: rest => c :: withoutRemark rest

/-- The value that characters spell. -/
def valueOf (cs : List Char) : List Char :=
  match Text.trimChars cs with
  | '\'' :: rest => rest.takeWhile (· ≠ '\'')
  | '"' :: rest => rest.takeWhile (· ≠ '"')
  | cs => Text.trimChars (withoutRemark cs)

/-- A name, which the word for exporting it may precede. -/
def nameOf (cs : List Char) : String :=
  let name := Text.trimChars cs
  let exporting := "export ".toList
  String.ofList (if name.take exporting.length = exporting then
    Text.trimChars (name.drop exporting.length) else name)

/-- The variable that a line sets. -/
def ofLine? (line : List Char) : Option (String × String) :=
  let line := Text.trimChars line
  if line.head? = some '#' || !line.contains '=' then none
  else some (nameOf (line.takeWhile (· ≠ '=')),
    String.ofList (valueOf ((line.dropWhile (· ≠ '=')).drop 1)))

/-- The variables of a file, in order. -/
def assignments (text : String) : List (String × String) :=
  (splitLines text.toList).filterMap ofLine?

end EnvFile

/-- An environment with what a file of variables adds; what is set already stays. -/
def Environment.withFile (env : Environment) (text : String) : Environment :=
  env ++ EnvFile.assignments text

end SilentScan
