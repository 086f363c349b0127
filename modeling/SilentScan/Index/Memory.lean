/-
An index in memory.

The rows stand in the order in which they were added. A scan looks at the rows as they are when
it starts, whatever happens to the index afterwards.

* `MemoryIndex`, with `add`, `spend`, `remove`, `rewind`, `lastIndexed`: the index and its
  changes;
* `MemoryIndex.scan`: a scan.
-/
import SilentScan.Index.Tip
import SilentScan.Payment.Matcher

namespace SilentScan

/-- An index in memory. -/
structure MemoryIndex where
  mode : IndexMode
  minValue : Nat
  rows : List IndexRow := []
  tip : IndexTip := ⟨-1⟩

namespace MemoryIndex

/-- Whether two rows stand for the same output. -/
def sameOutput (a b : IndexRow) : Bool :=
  a.txid == b.txid && a.outputIndex == b.outputIndex

/-- Adds transactions; in the layout of outputs a new row takes the place of one for the same
output. Gives the number of rows written. -/
def add (ix : MemoryIndex) (txs : List IndexedTransaction) : MemoryIndex × Nat × Notice :=
  let new := txs.flatMap (·.rows ix.mode ix.minValue)
  let kept := match ix.mode with
    | .full => ix.rows
    | .utxoOnly => ix.rows.filter fun row => !new.any (sameOutput · row)
  let (tip, notice) := ix.tip.appended txs new.length
  ({ ix with rows := kept ++ new, tip }, new.length, notice)

/-- Keeps the rows that satisfy a test, and counts the others. -/
def keep (ix : MemoryIndex) (test : IndexRow → Bool) : MemoryIndex × Nat :=
  let rows := ix.rows.filter test
  ({ ix with rows }, ix.rows.length - rows.length)

/-- Drops outputs that have been spent; only the layout of outputs has rows for them. -/
def spend (ix : MemoryIndex) (spent : List OutPoint) : MemoryIndex × Nat :=
  match ix.mode with
  | .full => (ix, 0)
  | .utxoOnly =>
    ix.keep fun row => !spent.any fun o => row.txid == o.txid && row.outputIndex == some o.vout

/-- Drops transactions. -/
def remove (ix : MemoryIndex) (txids : List Txid) : MemoryIndex × Nat × Notice :=
  let (ix, n) := ix.keep fun row => !txids.contains row.txid
  (ix, n, IndexTip.removed txids)

/-- Drops the rows at a height and above. -/
def rewind (ix : MemoryIndex) (startHeight : Int) : MemoryIndex × Nat × Notice :=
  let (ix, n) := ix.keep fun row => row.height < startHeight
  let (tip, notice) := ix.tip.rewound startHeight n
  ({ ix with tip }, n, notice)

/-- The highest height known: that of a row, or the tip. -/
def lastIndexed (ix : MemoryIndex) : Int :=
  max ((ix.rows.map (·.height)).max?.getD (-1)) ix.tip.lastIndexed

/-- The rows of a query. -/
def candidates (ix : MemoryIndex) (q : ScanQuery) : List IndexRow :=
  ix.rows.filter (q.inBounds ·.height)

/-- What a scan sends on for a row. -/
def found (row : IndexRow) : RawMatch :=
  { txid := row.txid, tweakKey := row.tweakKey, height := row.height,
    outputIndex := row.outputIndex }

/-- Looks at rows one by one, the first of them being number `i`. `cancelled i` says whether the
scan is found cancelled before row `i`, and `taken i` whether what is sent for it still finds a
receiver. Gives what is sent, the number of rows looked at, and the outcome. -/
def walk (test : IndexRow → Except KeyError Bool) (cancelled taken : Nat → Bool) :
    (i : Nat) → List IndexRow → List RawMatch × Nat × Except StorageError Unit
  | i, [] => ([], i, .ok ())
  | i, row :: rest =>
    if cancelled i then ([], i, .error .cancelled)
    else
      match test row with
      | .error e => ([], i + 1, .error (.invalidData e.message))
      | .ok false => walk test cancelled taken (i + 1) rest
      | .ok true =>
        if taken i then
          let (sent, n, outcome) := walk test cancelled taken (i + 1) rest
          (found row :: sent, n, outcome)
        else ([], i + 1, .ok ())

/-- Scans the index. -/
def scan (s : Scheme) (ix : MemoryIndex) (q : ScanQuery) (cancelled taken : Nat → Bool) :
    ScanReport :=
  match Matcher.ofBytes s q.scanKey q.spendKey q.labelKeys with
  | .error e =>
    { sent := [], processed := 0, total := 0, result := .error (.invalidData e.message) }
  | .ok m =>
    let rows := ix.candidates q
    let test (row : IndexRow) := m.matchesRow s row.tweakKey row.prefixes
    let (sent, processed, result) := walk test cancelled taken 0 rows
    { sent, processed, total := rows.length, result }

end MemoryIndex
end SilentScan
