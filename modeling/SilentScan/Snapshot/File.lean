/-
Snapshots of the unspent outputs.

A snapshot begins with a header, which tells the number of coins. The coins follow in groups, one
for each transaction: its id, the number of its coins, and the coins. What stands behind the last
coin is not looked at.

* `SnapshotHeader`, with `read` and `encode`;
* `readCoins`: the coins up to the last one or the first fault;
* `readSnapshot`, `SnapshotReading`: a whole snapshot, with `totals` and `indexable`;
* `encodeSnapshot`: the stored form of a header and groups of coins.
-/
import SilentScan.Snapshot.Coin

namespace SilentScan

/-- The bytes that a snapshot begins with. -/
def snapshotMagic : Bytes := [0x75, 0x74, 0x78, 0x6F, 0xFF]

/-- What a snapshot says about itself. -/
structure SnapshotHeader where
  version : Nat := snapshotVersion
  networkMagic : Bytes
  /-- The hash of the block up to which the snapshot goes, in the order of the file. -/
  baseBlockHash : Bytes
  coinCount : Nat
deriving DecidableEq, Repr

namespace SnapshotHeader

/-- Reads a header. -/
def read : SnapshotReader SnapshotHeader := fun bs => do
  let (magic, bs) ← readBytes 5 bs
  if magic ≠ snapshotMagic then throw (.badMagic (Hex.encode magic))
  let (version, bs) ← readLE 2 bs
  if version ≠ snapshotVersion then throw (.unsupportedVersion version)
  let (networkMagic, bs) ← readBytes 4 bs
  let (baseBlockHash, bs) ← readBytes 32 bs
  let (coinCount, bs) ← readLE 8 bs
  return ({ version, networkMagic, baseBlockHash, coinCount }, bs)

/-- The stored form of a header. -/
def encode (h : SnapshotHeader) : Bytes :=
  snapshotMagic ++ Bytes.ofNatLE 2 h.version ++ h.networkMagic ++ h.baseBlockHash
    ++ Bytes.ofNatLE 8 h.coinCount

/-- The hash of the block up to which the snapshot goes, as it is shown. -/
def baseBlock (h : SnapshotHeader) : String :=
  Hex.encode h.baseBlockHash.reverse

end SnapshotHeader

/-- Reads the id of a transaction and the number of its coins. -/
def readGroupHead : SnapshotReader (Txid × Nat) := fun bs => do
  let (id, bs) ← readBytes 32 bs
  let (count, bs) ← readCompactSize bs
  return ((.ofInternal id, count), bs)

/-- Reads coins from number `done` on while there are fewer than `total`; `left` of the coins of
`txid` are still to come. Gives the coins read and the bytes behind them, or the fault that ended
the reading. Every round takes in at least one byte, so as many rounds as there are bytes are
enough, and where they are used up the input has ended. -/
def readCoins (total : Nat) : (rounds done : Nat) → (txid : Txid) → (left : Nat) → Bytes →
    List Coin × Except SnapshotError Bytes
  | rounds, done, txid, left, bs =>
    if total ≤ done then ([], .ok bs)
    else match rounds, left with
      | 0, _ => ([], .error (.input .truncated))
      | rounds + 1, 0 =>
        match readGroupHead bs with
        | .error e => ([], .error e)
        | .ok ((txid, left), bs) => readCoins total rounds done txid left bs
      | rounds + 1, left + 1 =>
        match Coin.read txid done bs with
        | .error e => ([], .error e)
        | .ok (coin, bs) =>
          let (coins, rest) := readCoins total rounds (done + 1) txid left bs
          (coin :: coins, rest)

/-- What is read from a snapshot with a sound header: the coins up to the last one or the first
fault, and the bytes behind the last one or that fault. -/
structure SnapshotReading where
  header : SnapshotHeader
  coins : List Coin
  rest : Except SnapshotError Bytes

/-- Reads a snapshot. -/
def readSnapshot (file : Bytes) : Except SnapshotError SnapshotReading := do
  let (header, bs) ← SnapshotHeader.read file
  let (coins, rest) := readCoins header.coinCount (bs.length + 1) 0 [] 0 bs
  return { header, coins, rest }

namespace SnapshotReading

/-- The number of coins and of Taproot outputs among them, if all coins could be read. -/
def totals (r : SnapshotReading) : Except SnapshotError (Nat × Nat) := do
  let _ ← r.rest
  return (r.coins.length, r.coins.countP Coin.isTaproot)

/-- The coins worth indexing. -/
def indexable (minValue : Nat) (r : SnapshotReading) : List Coin :=
  r.coins.filter (Coin.isIndexable minValue)

/-- The number of coins worth indexing, if all coins could be read. -/
def indexableCount (minValue : Nat) (r : SnapshotReading) : Except SnapshotError Nat := do
  let _ ← r.rest
  return (r.indexable minValue).length

end SnapshotReading

/-- The coins of one transaction in the stored form. -/
def encodeGroup (txid : Txid) (coins : List Coin) : Bytes :=
  txid.internal ++ writeCompactSize coins.length ++ coins.flatMap Coin.encode

/-- The stored form of a snapshot. -/
def encodeSnapshot (header : SnapshotHeader) (groups : List (Txid × List Coin)) : Bytes :=
  header.encode ++ groups.flatMap fun (txid, coins) => encodeGroup txid coins

end SilentScan
