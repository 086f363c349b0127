/-
The indexed tip and the announcements of the index.

An index remembers the highest block it has taken in. Taking in transactions of a block moves
the tip up and announces the blocks above the old tip; transactions outside the chain are
announced by their ids. A rewind moves the tip below the first block that is dropped.

* `IndexTip`, with `appended`, `removed` and `rewound`: the tip and what changes announce.
-/
import SilentScan.Event.Basic
import SilentScan.Index.Basic
import SilentScan.Log.Entry

namespace SilentScan

/-- What a change of the index gives rise to: events for the listeners and records for the
log. -/
structure Notice where
  events : List Event := []
  records : List LogRecord := []

/-- The highest block taken in, -1 where there is none. -/
structure IndexTip where
  lastIndexed : Int
deriving DecidableEq, Repr

namespace IndexTip

/-- Announces transactions that have been added as `rows` rows. -/
def appended (tip : IndexTip) (txs : List IndexedTransaction) (rows : Nat) : IndexTip × Notice :=
  match (txs.map (·.height)).max? with
  | none => (tip, {})
  | some highest =>
    if highest ≤ 0 then (tip, { events := [.mempoolAdded (txs.map (·.txid))] })
    else
      let fromHeight := tip.lastIndexed + 1
      (⟨max tip.lastIndexed highest⟩,
        { events := [.blocksIndexed fromHeight highest txs.length]
          records := [indexRecord "append" rows fromHeight highest] })

/-- Announces transactions that have been dropped. -/
def removed (txids : List Txid) : Notice :=
  if txids.isEmpty then {} else { events := [.mempoolRemoved txids] }

/-- Announces that the rows at a height and above, `rows` of them, have been dropped. -/
def rewound (tip : IndexTip) (startHeight : Int) (rows : Nat) : IndexTip × Notice :=
  (⟨min tip.lastIndexed (startHeight - 1)⟩,
    { events := [.reorg startHeight]
      records := [indexRecord "rewind" rows startHeight heightMax] })

end IndexTip
end SilentScan
