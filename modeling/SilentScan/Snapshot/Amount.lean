/-
Compressed amounts.

Amounts tend to end in zeros. The code of an amount other than zero consists of the number of
its trailing zeros, up to nine, and of the digits before them; with fewer than nine zeros the
last of these digits is not zero and takes only nine values.

* `compressAmount`: the code of an amount;
* `amountOf`: the exact amount of a code;
* `decompressAmount`: the amount of a code in the arithmetic of words.
-/
import SilentScan.Snapshot.Error

namespace SilentScan

/-- The number of zeros at the end of a number in decimal, at most `limit`. -/
def trailingZeros : (limit : Nat) → Nat → Nat
  | 0, _ => 0
  | limit + 1, n => if n % 10 = 0 then trailingZeros limit (n / 10) + 1 else 0

/-- The code of an amount. It is a word if the amount is not too large. -/
def compressAmount (n : Nat) : Nat :=
  if n = 0 then 0
  else
    let e := trailingZeros 9 n
    let m := n / Nat.pow 10 e
    if e < 9 then 1 + (m / 10 * 9 + m % 10 - 1) * 10 + e
    else 1 + (m - 1) * 10 + 9

/-- The exact amount of a code. -/
def amountOf (code : Nat) : Nat :=
  if code = 0 then 0
  else
    let x := (code - 1) / 10
    let e := (code - 1) % 10
    if e < 9 then (x / 9 * 10 + (x % 9 + 1)) * Nat.pow 10 e else (x + 1) * Nat.pow 10 9

/-- A number, if it is a word. -/
def word? (n : Nat) : Option Nat :=
  if n < 0x1_0000_0000_0000_0000 then some n else none

/-- The digits before the zeros, `e` in number, that the rest `x` of a code stands for. -/
def mantissa? (e x : Nat) : Option Nat :=
  if e < 9 then (word? (x / 9 * 10)).bind fun tens => word? (tens + (x % 9 + 1))
  else word? (x + 1)

/-- The amount of a code, found in the arithmetic of words. -/
def amountInWords? (code : Nat) : Option Nat :=
  if code = 0 then some 0
  else
    let e := (code - 1) % 10
    (mantissa? e ((code - 1) / 10)).bind fun mantissa =>
      (word? (Nat.pow 10 e)).bind fun scale => word? (mantissa * scale)

/-- The amount of a code; some words are no code of a word. -/
def decompressAmount (code : Nat) : Except SnapshotError Nat :=
  match amountInWords? code with
  | some amount => .ok amount
  | none => .error (.amountOverflow code)

end SilentScan
