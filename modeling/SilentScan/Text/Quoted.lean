/-
Quoted text inside messages.

A text shown in a message stands between double quotes, a single character between single
quotes. Quotes, backslashes and the common controls have short escapes; every other character
that does not print is written by its number between braces.

* `quoteString`, `quoteChar`: the quoted forms.
-/
import SilentScan.Text.Printable

namespace SilentScan.Text

/-- The digits of a number in base sixteen, lower case, without leading zeros. -/
def hexDigits (n : Nat) : String :=
  String.ofList (Nat.toDigits 16 n)

/-- A character by its number. -/
def numbered (c : Char) : String :=
  "\\u" ++ "\x7b" ++ hexDigits c.toNat ++ "\x7d"

/-- A character as it stands between quotes; `quote` is the delimiter in use. -/
def escapeQuoted (quote c : Char) : String :=
  if c = quote then "\\" ++ String.singleton c
  else match c with
    | '\x00' => "\\0"
    | '\t' => "\\t"
    | '\r' => "\\r"
    | '\n' => "\\n"
    | '\\' => "\\\\"
    | c => if isPrintable c then String.singleton c else numbered c

/-- A text between double quotes. -/
def quoteString (s : String) : String :=
  "\"" ++ String.join (s.toList.map (escapeQuoted '"')) ++ "\""

/-- A character between single quotes. -/
def quoteChar (c : Char) : String :=
  "'" ++ escapeQuoted '\'' c ++ "'"

end SilentScan.Text
