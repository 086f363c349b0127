/-
The text of a JSON value.

The text is compact: no blanks, fields in the order in which they stand. Strings escape the
quote, the backslash and the controls below 32, the five common ones by a letter and the others
by four digits; all other characters stand for themselves. A number is printed as a whole number
or as the shortest decimal that reads back.

* `Json.print`: the characters of a value;
* `Json.text`: the same as a `String`.
-/
import SilentScan.Bytes.Hex
import SilentScan.Json.Value
import SilentScan.Number.Shortest

namespace SilentScan.Json

/-- A character as it stands inside a string. -/
def printChar (c : Char) : List Char :=
  if c = '"' then ['\\', '"']
  else if c = '\\' then ['\\', '\\']
  else if c = '\x08' then ['\\', 'b']
  else if c = '\x0c' then ['\\', 'f']
  else if c = '\n' then ['\\', 'n']
  else if c = '\r' then ['\\', 'r']
  else if c = '\t' then ['\\', 't']
  else if c.toNat < 32 then
    ['\\', 'u', '0', '0', Hex.digit (c.toNat / 16), Hex.digit (c.toNat % 16)]
  else [c]

/-- A string between quotes. -/
def printString (s : String) : List Char :=
  '"' :: s.toList.flatMap printChar ++ ['"']

/-- The decimal digits of a natural. -/
def printNat (n : Nat) : List Char :=
  Nat.toDigits 10 n

/-- A number. -/
def printNumber : Number → List Char
  | .whole (.ofNat n) => printNat n
  | .whole (.negSucc n) => '-' :: printNat (n + 1)
  | .float d => d.render.toList

mutual
/-- The characters of a value. -/
def print : Json → List Char
  | .null => ['n', 'u', 'l', 'l']
  | .bool true => ['t', 'r', 'u', 'e']
  | .bool false => ['f', 'a', 'l', 's', 'e']
  | .number n => printNumber n
  | .string s => printString s
  | .array [] => ['[', ']']
  | .array (v :: rest) => '[' :: print v ++ printItems rest
  | .object [] => ['{', '}']
  | .object ((k, v) :: rest) => '{' :: printString k ++ ':' :: print v ++ printFields rest

/-- The items after the first, with the closing bracket. -/
def printItems : List Json → List Char
  | [] => [']']
  | v :: rest => ',' :: print v ++ printItems rest

/-- The fields after the first, with the closing brace. -/
def printFields : List (String × Json) → List Char
  | [] => ['}']
  | (k, v) :: rest => ',' :: printString k ++ ':' :: print v ++ printFields rest
end

/-- The text of a value. -/
def text (v : Json) : String :=
  String.ofList (print v)

end SilentScan.Json
