/-
Whether a transaction pays a wallet.

The index keeps for a transaction its tweak point and, for each Taproot output, eight bytes of
the output key. From the tweak point the wallet's secrets give the key that the first output paid
to the wallet must have, for the plain address and for each label. A transaction that pays the
wallet at all pays that first output, so comparing the eight bytes is enough.

* `Matcher`, `Matcher.ofBytes`: the wallet's keys, read from their stored forms;
* `firstOutputKey`, `candidates`: the keys and prefixes looked for;
* `Matcher.matchesRow`: whether a row is the wallet's.
-/
import SilentScan.Payment.Scheme

namespace SilentScan

/-- The keys against which rows are tested. -/
structure Matcher where
  scanKey : Nat
  spendKey : PublicKey
  labelKeys : List PublicKey
deriving DecidableEq, Repr

namespace Matcher

variable (s : Scheme)

/-- Reads the keys from a scalar of 32 bytes and raw points. -/
def ofBytes (scanKey spendKey : Bytes) (labelKeys : List Bytes) : Except KeyError Matcher := do
  let scanKey ← s.curve.secret scanKey
  let spendKey ← fromRawKey s.curve spendKey
  let labelKeys ← labelKeys.mapM (fromRawKey s.curve)
  return { scanKey, spendKey, labelKeys }

/-- The scalar that the sender and the receiver share for the first output. -/
def sharedScalar (shared : PublicKey) : Nat :=
  Bytes.toNatBE (s.hash "BIP0352/SharedSecret" (shared.compress ++ Bytes.ofNatBE 4 0))

/-- The key of the first output that pays the plain address. -/
def firstOutputKey (m : Matcher) (tweakKey : PublicKey) : Except KeyError PublicKey := do
  match s.curve.mul m.scanKey (some tweakKey) with
  | none => throw .badTweak
  | some shared =>
    let t := sharedScalar s shared
    if s.curve.order ≤ t then throw .scalarOutOfRange
    match s.curve.add (some m.spendKey) (s.curve.base t) with
    | some p => return p
    | none => throw .badTweak

/-- The key shifted for a label. -/
def shifted (key label : PublicKey) : Except KeyError PublicKey :=
  match s.curve.add (some key) (some label) with
  | some p => .ok p
  | none => .error .badSum

/-- The prefixes looked for: that of the plain key, then one for each label. -/
def candidates (m : Matcher) (tweakKey : PublicKey) : Except KeyError (List Nat) := do
  let key ← m.firstOutputKey s tweakKey
  let labelled ← m.labelKeys.mapM (shifted s key)
  return outputPrefix key :: labelled.map outputPrefix

/-- Whether a row with a raw tweak point and output prefixes pays the wallet. -/
def matchesRow (m : Matcher) (rawTweakKey : Bytes) (prefixes : List Nat) :
    Except KeyError Bool := do
  if prefixes.isEmpty then return false
  let tweakKey ← fromRawKey s.curve rawTweakKey
  let wanted ← m.candidates s tweakKey
  return wanted.any prefixes.contains

end Matcher
end SilentScan
