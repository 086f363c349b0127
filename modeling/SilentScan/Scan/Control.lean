/-
Counters and cancellation of a scan.

A scan counts the rows it has to look at and those it has looked at, and may be cancelled from
outside. A store that waits in a database installs a hook, which cancellation runs so that the
wait ends; a hook installed after the cancellation is run at once.

* `ScanControl`, with `setTotal`, `record`, `setInterrupt`, `clearInterrupt`, `cancel`.
-/
namespace SilentScan

/-- The counters, the mark of cancellation and the hook installed, hooks being named by values of
type `H`. -/
structure ScanControl (H : Type) where
  processed : Nat := 0
  total : Nat := 0
  cancelled : Bool := false
  hook : Option H := none
deriving Repr

namespace ScanControl

variable {H : Type}

/-- Sets the number of rows to look at. -/
def setTotal (c : ScanControl H) (n : Nat) : ScanControl H :=
  { c with total := n }

/-- Counts rows looked at; the counter is a word of 64 bits. -/
def record (c : ScanControl H) (n : Nat) : ScanControl H :=
  { c with processed := (c.processed + n) % 0x1_0000_0000_0000_0000 }

/-- Installs a hook in place of one that may be there. Gives the hooks run. -/
def setInterrupt (c : ScanControl H) (h : H) : ScanControl H × List H :=
  ({ c with hook := some h }, if c.cancelled then [h] else [])

/-- Removes the hook. -/
def clearInterrupt (c : ScanControl H) : ScanControl H :=
  { c with hook := none }

/-- Cancels the scan. Gives the hooks run. -/
def cancel (c : ScanControl H) : ScanControl H × List H :=
  ({ c with cancelled := true }, c.hook.toList)

end ScanControl
end SilentScan
