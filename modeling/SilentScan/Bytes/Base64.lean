/-
Base64 text.

Three bytes become four letters of six bits each; an ending of one or two bytes is filled up
with equals signs.

* `Base64.encode`: the text of a byte string.
-/
import SilentScan.Bytes.Order

namespace SilentScan.Base64

/-- The letter of a number below sixty-four. -/
def letter (n : Nat) : Char :=
  if n < 26 then Char.ofNat (65 + n)
  else if n < 52 then Char.ofNat (71 + n)
  else if n < 62 then Char.ofNat (n - 4)
  else if n = 62 then '+'
  else '/'

/-- The letters of a byte string, by groups of three bytes. -/
def letters : Bytes → List Char
  | a :: b :: c :: rest =>
    let n := 65536 * a.toNat + 256 * b.toNat + c.toNat
    letter (n / 262144) :: letter (n / 4096 % 64) :: letter (n / 64 % 64) :: letter (n % 64)
      :: letters rest
  | [a, b] =>
    let n := 1024 * a.toNat + 4 * b.toNat
    [letter (n / 4096), letter (n / 64 % 64), letter (n % 64), '=']
  | [a] =>
    let n := 16 * a.toNat
    [letter (n / 64), letter (n % 64), '=', '=']
  | [] => []

/-- The base64 text of a byte string. -/
def encode (bs : Bytes) : String :=
  String.ofList (letters bs)

end SilentScan.Base64
