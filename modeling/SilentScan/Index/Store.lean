/-
An index of either kind.

* `Store`: an index in memory or in a database;
* `Store.add`, `spend`, `remove`, `rewind`, `lastIndexed`, `scan`: what both can do.
-/
import SilentScan.Index.Memory
import SilentScan.Index.Table

namespace SilentScan

/-- An index in memory or in a database. -/
inductive Store where
  | memory (ix : MemoryIndex)
  | table (ix : TableIndex)

namespace Store

/-- The layout in use. -/
def mode : Store → IndexMode
  | .memory ix => ix.mode
  | .table ix => ix.mode

/-- Adds transactions. -/
def add (txs : List IndexedTransaction) : Store → Store × Nat × Notice
  | .memory ix => let (ix, r) := ix.add txs; (.memory ix, r)
  | .table ix => let (ix, r) := ix.add txs; (.table ix, r)

/-- Drops outputs that have been spent. -/
def spend (spent : List OutPoint) : Store → Store × Nat × Notice
  | .memory ix => let (ix, n) := ix.spend spent; (.memory ix, n, {})
  | .table ix => let (ix, n) := ix.spend spent; (.table ix, n, {})

/-- Drops transactions. -/
def remove (txids : List Txid) : Store → Store × Nat × Notice
  | .memory ix => let (ix, r) := ix.remove txids; (.memory ix, r)
  | .table ix => let (ix, r) := ix.remove txids; (.table ix, r)

/-- Drops the rows at a height and above. -/
def rewind (startHeight : Int) : Store → Store × Nat × Notice
  | .memory ix => let (ix, r) := ix.rewind startHeight; (.memory ix, r)
  | .table ix => let (ix, r) := ix.rewind startHeight; (.table ix, r)

/-- The highest height known. -/
def lastIndexed : Store → Except StorageError Int
  | .memory ix => .ok ix.lastIndexed
  | .table ix => ix.lastIndexed

/-- Scans the index. -/
def scan (s : Scheme) (q : ScanQuery) (cancelled taken : Nat → Bool) : Store → ScanReport
  | .memory ix => ix.scan s q cancelled taken
  | .table ix => ix.scan s q cancelled taken

end Store
end SilentScan
