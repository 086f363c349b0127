/-
The coins of a snapshot.

The script of a coin is stored by its kind. Hashes and single keys have kinds of their own; any
other script is stored in full behind its length, and among these the Taproot outputs are told
apart when they are read.

* `CoinScript`, `Coin`: a coin and its script;
* `CoinScript.read`, `Coin.read`: the stored forms as they are read;
* `CoinScript.encode`, `Coin.encode`: the stored forms.
-/
import SilentScan.Chain.Txid
import SilentScan.Snapshot.Amount
import SilentScan.Snapshot.Varint

namespace SilentScan

/-- The script of a coin. -/
inductive CoinScript where
  | pubkeyHash (hash : Bytes)
  | scriptHash (hash : Bytes)
  /-- A single key, given by its abscissa and a selector from 2 to 5. -/
  | pubkey (selector : Nat) (x : Bytes)
  /-- A Taproot output with its key. -/
  | taproot (program : Bytes)
  /-- Any other script. -/
  | raw (script : Bytes)
deriving DecidableEq, Repr

/-- An unspent output. -/
structure Coin where
  txid : Txid
  vout : Nat
  amount : Nat
  height : Nat
  coinbase : Bool
  script : CoinScript
deriving DecidableEq, Repr

/-- The longest script that is read. -/
def maxScriptLength : Nat := 10000

namespace CoinScript

/-- The output key of a Taproot output. -/
def program? : CoinScript → Option Bytes
  | .taproot program => some program
  | _ => none

/-- Tells Taproot outputs apart from other scripts stored in full. -/
def ofStored : Bytes → CoinScript
  | 0x51 :: 0x20 :: program =>
    if program.length = 32 then .taproot program else .raw (0x51 :: 0x20 :: program)
  | script => .raw script

/-- Reads a script; `coin` is the number of the coin in the snapshot. -/
def read (coin : Nat) : SnapshotReader CoinScript := fun bs => do
  let (selector, bs) ← readVarint bs
  match selector with
  | 0 => do
    let (hash, bs) ← readBytes 20 bs
    return (.pubkeyHash hash, bs)
  | 1 => do
    let (hash, bs) ← readBytes 20 bs
    return (.scriptHash hash, bs)
  | selector =>
    if selector < 6 then do
      let (x, bs) ← readBytes 32 bs
      return (.pubkey selector x, bs)
    else if maxScriptLength < selector - 6 then throw (.scriptTooLong (selector - 6) coin)
    else do
      let (script, bs) ← readBytes (selector - 6) bs
      return (ofStored script, bs)

/-- A script stored in full. -/
def storeWhole (script : Bytes) : Bytes :=
  writeVarint (script.length + 6) ++ script

/-- The stored form of a script. -/
def encode : CoinScript → Bytes
  | .pubkeyHash hash => writeVarint 0 ++ hash
  | .scriptHash hash => writeVarint 1 ++ hash
  | .pubkey selector x => writeVarint selector ++ x
  | .taproot program => storeWhole (0x51 :: 0x20 :: program)
  | .raw script => storeWhole script

end CoinScript

namespace Coin

/-- Whether the coin is a Taproot output. -/
def isTaproot (c : Coin) : Bool :=
  c.script.program?.isSome

/-- Whether the coin is worth indexing: a Taproot output of enough value that was not mined. -/
def isIndexable (minValue : Nat) (c : Coin) : Bool :=
  c.isTaproot && !c.coinbase && minValue ≤ c.amount

/-- Reads a coin of a transaction, the coin with the given number in the snapshot. -/
def read (txid : Txid) (number : Nat) : SnapshotReader Coin := fun bs => do
  let (vout, bs) ← readCompactSize bs
  if 0x1_0000_0000 ≤ vout then throw (.input .outputNumberTooLarge)
  let (code, bs) ← readVarint bs
  if 0x8000_0000 ≤ code / 2 then throw (.input .heightTooLarge)
  let (stored, bs) ← readVarint bs
  let amount ← decompressAmount stored
  let (script, bs) ← CoinScript.read number bs
  return ({ txid, vout, amount, height := code / 2, coinbase := code % 2 = 1, script }, bs)

/-- The stored form of a coin, which leaves its transaction out. -/
def encode (c : Coin) : Bytes :=
  writeCompactSize c.vout ++ writeVarint (2 * c.height + (if c.coinbase then 1 else 0))
    ++ writeVarint (compressAmount c.amount) ++ c.script.encode

end Coin
end SilentScan
