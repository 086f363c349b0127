/-
How far a scan has come.

The part done is measured from the first sample in which rows had been processed, because a store
can skip the beginning of its rows at once. It never falls, however the counters move.

* `Portion`: the numbers in which the part is measured;
* `ProgressTracker`, with `update`: the part done, sample by sample.
-/
import SilentScan.Number.Double

namespace SilentScan

/-- Numbers between zero and one that can stand for the part of a whole. `ratio done remaining`
is the quotient, held between zero and one, where `remaining` is positive. -/
class Portion (Q : Type) where
  zero : Q
  whole : Q
  ratio : (done remaining : Nat) → Q
  larger : Q → Q → Q

/-- The quotient of the nearest floating-point numbers, at most one. -/
instance : Portion Double where
  zero := .zero false
  whole := .one
  ratio done remaining :=
    let q := (Double.ofNat done).div (Double.ofNat remaining)
    if Double.one.le q then .one else q
  larger a b := a.max b

/-- The count of processed rows from which progress is measured, once there is one, and the part
last reported. -/
structure ProgressTracker (Q : Type) where
  baseline : Option Nat
  last : Q

namespace ProgressTracker

variable {Q : Type} [Portion Q]

/-- The tracker before the first sample. -/
def start : ProgressTracker Q :=
  ⟨none, Portion.zero⟩

/-- Takes in the numbers of processed rows and of all rows. -/
def update (t : ProgressTracker Q) (processed total : Nat) : ProgressTracker Q :=
  let baseline := match t.baseline with
    | some b => some b
    | none => if 0 < processed then some processed else none
  match baseline with
  | none => { t with baseline }
  | some b =>
    if b < total then
      { baseline, last := Portion.larger t.last (Portion.ratio (processed - b) (total - b)) }
    else { t with baseline }

end ProgressTracker
end SilentScan
