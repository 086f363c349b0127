/-
An index in the tables of a database.

A database file has one table for each layout. The cells of a table hold values of several
types, and not every row need have been written by this program: a row whose cells make no sense
spoils a scan only when the scan comes to it. Rows come out by height and, within a height, in
the order in which they were inserted; a row that replaces another counts as inserted anew.

* `Cell`, `TableRow`, `TableFile`: what a database holds;
* `TableIndex`, with `add`, `spend`, `remove`, `rewind`, `lastIndexed`: the index and its
  changes;
* `TableIndex.scan`: a scan.
-/
import SilentScan.Index.Tip
import SilentScan.Payment.Matcher

namespace SilentScan

/-- The value of a cell. -/
inductive Cell where
  | blob (bytes : Bytes)
  | integer (n : Int)
  | text (s : String)
deriving DecidableEq, Repr

namespace Cell

/-- The type of a cell as the database calls it. -/
def typeName : Cell → String
  | .blob _ => "Blob"
  | .integer _ => "Integer"
  | .text _ => "Text"

/-- An unsigned word as a signed integer cell. -/
def ofWord (n : Nat) : Cell :=
  .integer (if n < 0x8000_0000_0000_0000 then n else (n : Int) - 0x1_0000_0000_0000_0000)

/-- The big-endian words of a byte string; bytes left over are ignored. -/
def words : (fuel : Nat) → Bytes → List Nat
  | 0, _ => []
  | fuel + 1, bs =>
    if bs.length < 8 then [] else Bytes.toNatBE (bs.take 8) :: words fuel (bs.drop 8)

/-- The output prefixes that a cell holds: the words of a blob, or one integer. -/
def prefixes : Cell → List Nat
  | .blob bs => words bs.length bs
  | .integer n => [(n % 0x1_0000_0000_0000_0000).toNat]
  | .text _ => []

end Cell

/-- A row of a table; in the full layout the output index is not used. -/
structure TableRow where
  txid : Cell
  height : Int
  tweakKey : Cell
  outputs : Cell
  outputIndex : Int := 0
deriving DecidableEq, Repr

/-- The tables of a database file, rows in the order of insertion. -/
structure TableFile where
  full : List TableRow := []
  utxo : List TableRow := []

namespace TableFile

/-- The table of a layout. -/
def table (f : TableFile) : IndexMode → List TableRow
  | .full => f.full
  | .utxoOnly => f.utxo

/-- The file with another content of one table. -/
def withTable (f : TableFile) (mode : IndexMode) (rows : List TableRow) : TableFile :=
  match mode with
  | .full => { f with full := rows }
  | .utxoOnly => { f with utxo := rows }

end TableFile

/-- An index in a database file, opened in one layout. -/
structure TableIndex where
  mode : IndexMode
  minValue : Nat
  file : TableFile := {}
  tip : IndexTip := ⟨-1⟩

namespace TableIndex

/-- The rows of the layout in use. -/
def rows (ix : TableIndex) : List TableRow :=
  ix.file.table ix.mode

/-- Puts other rows in place. -/
def withRows (ix : TableIndex) (rows : List TableRow) : TableIndex :=
  { ix with file := ix.file.withTable ix.mode rows }

/-- The highest height in a table, -1 where it is empty. Heights that are no words of 32 bits
cannot be read. -/
def maxHeight (rows : List TableRow) : Except StorageError Int :=
  match (rows.map (·.height)).max? with
  | none => .ok (-1)
  | some h =>
    if heightMin ≤ h ∧ h ≤ heightMax then .ok h
    else .error (.database ("Integer " ++ toString h ++ " out of range at index 0"))

/-- Opens a file in a layout; the tip is the highest height found. -/
def openFile (file : TableFile) (mode : IndexMode) (minValue : Nat) :
    Except StorageError TableIndex := do
  let highest ← maxHeight (file.table mode)
  return { mode, minValue, file, tip := ⟨highest⟩ }

/-- The table row of an index row. -/
def encode (row : IndexRow) : TableRow where
  txid := .blob row.txid
  height := row.height
  tweakKey := .blob row.tweakKey
  outputs := match row.outputIndex with
    | none => .blob (row.prefixes.flatMap (Bytes.ofNatBE 8))
    | some _ => .ofWord (row.prefixes.headD 0)
  outputIndex := row.outputIndex.getD 0

/-- Inserts a row; in the layout of outputs it replaces one with the same key. -/
def insert (mode : IndexMode) (rows : List TableRow) (row : TableRow) : List TableRow :=
  match mode with
  | .full => rows ++ [row]
  | .utxoOnly =>
    rows.filter (fun r => !(r.txid == row.txid && r.outputIndex == row.outputIndex)) ++ [row]

/-- Adds transactions. Gives the number of rows written. -/
def add (ix : TableIndex) (txs : List IndexedTransaction) : TableIndex × Nat × Notice :=
  let new := txs.flatMap (·.rows ix.mode ix.minValue)
  let (tip, notice) := ix.tip.appended txs new.length
  ({ ix.withRows ((new.map encode).foldl (insert ix.mode) ix.rows) with tip }, new.length, notice)

/-- Keeps the rows that satisfy a test, and counts the others. -/
def keep (ix : TableIndex) (test : TableRow → Bool) : TableIndex × Nat :=
  let kept := ix.rows.filter test
  (ix.withRows kept, ix.rows.length - kept.length)

/-- Drops outputs that have been spent; only the layout of outputs has rows for them. -/
def spend (ix : TableIndex) (spent : List OutPoint) : TableIndex × Nat :=
  match ix.mode with
  | .full => (ix, 0)
  | .utxoOnly =>
    ix.keep fun row => !spent.any fun o => row.txid == .blob o.txid && row.outputIndex == o.vout

/-- Drops transactions. -/
def remove (ix : TableIndex) (txids : List Txid) : TableIndex × Nat × Notice :=
  let (ix, n) := ix.keep fun row => !txids.any fun id => row.txid == .blob id
  (ix, n, IndexTip.removed txids)

/-- Drops the rows at a height and above. -/
def rewind (ix : TableIndex) (startHeight : Int) : TableIndex × Nat × Notice :=
  let (ix, n) := ix.keep fun row => row.height < startHeight
  let (tip, notice) := ix.tip.rewound startHeight n
  ({ ix with tip }, n, notice)

/-- The highest height known: that of a row, or the tip. -/
def lastIndexed (ix : TableIndex) : Except StorageError Int := do
  return max (← maxHeight ix.rows) ix.tip.lastIndexed

/-- Puts a row at its place by height, behind those of the same height. -/
def insertByHeight (row : TableRow) : List TableRow → List TableRow
  | [] => [row]
  | r :: rest => if row.height < r.height then row :: r :: rest else r :: insertByHeight row rest

/-- The rows of a query in the order in which the database gives them out. -/
def candidates (ix : TableIndex) (q : ScanQuery) : List TableRow :=
  (ix.rows.filter (q.inBounds ·.height)).foldl (fun acc row => insertByHeight row acc) []

/-- Whether a row is the wallet's; a tweak point that is no blob belongs to nobody. -/
def test (s : Scheme) (m : Matcher) (row : TableRow) : Except KeyError Bool :=
  match row.tweakKey with
  | .blob key => m.matchesRow s key row.outputs.prefixes
  | _ => .ok false

/-- What a scan sends on for a row, if the cells of the row make sense. -/
def found (mode : IndexMode) (row : TableRow) : Except StorageError RawMatch :=
  match row.txid with
  | .blob id =>
    if id.length = 32 then
      .ok { txid := id
            tweakKey := match row.tweakKey with
              | .blob key => key
              | _ => []
            height := row.height
            outputIndex := match mode with
              | .full => none
              | .utxoOnly => some (row.outputIndex % 0x1_0000_0000).toNat }
    else .error (.invalidData ("txid of " ++ toString id.length ++ " bytes"))
  | cell =>
    .error (.database ("Invalid column type " ++ cell.typeName ++ " at index: 0, name: txid"))

/-- Looks at rows one by one, the first of them being number `i`. A row is counted before it is
found out whether the scan has been cancelled. -/
def walk (mode : IndexMode) (test : TableRow → Except KeyError Bool)
    (cancelled taken : Nat → Bool) :
    (i : Nat) → List TableRow → List RawMatch × Nat × Except StorageError Unit
  | i, [] => ([], i, .ok ())
  | i, row :: rest =>
    if cancelled i then ([], i + 1, .error .cancelled)
    else
      match test row with
      | .error e => ([], i + 1, .error (.database e.message))
      | .ok false => walk mode test cancelled taken (i + 1) rest
      | .ok true =>
        match found mode row with
        | .error e => ([], i + 1, .error e)
        | .ok hit =>
          if taken i then
            let (sent, n, outcome) := walk mode test cancelled taken (i + 1) rest
            (hit :: sent, n, outcome)
          else ([], i + 1, .ok ())

/-- Scans the index. -/
def scan (s : Scheme) (ix : TableIndex) (q : ScanQuery) (cancelled taken : Nat → Bool) :
    ScanReport :=
  match Matcher.ofBytes s q.scanKey q.spendKey q.labelKeys with
  | .error e =>
    { sent := [], processed := 0, total := 0, result := .error (.invalidData e.message) }
  | .ok m =>
    let rows := ix.candidates q
    let (sent, processed, result) := walk ix.mode (test s m) cancelled taken 0 rows
    { sent, processed, total := rows.length, result }

end TableIndex
end SilentScan
