/-
The watch on the best block.

At regular times the watcher looks at the best block of the full node, and tells of it when it is
not the one it has seen before. A look that fails changes nothing.

* `TipWatcher`, with `poll`: one look;
* `TipWatcher.watch`: many looks, the first of them at once.
-/
import SilentScan.Event.Basic
import SilentScan.Wire.Error

namespace SilentScan

/-- The watcher, with the best block it has seen last. -/
structure TipWatcher where
  last : Option BlockTip := none
deriving Repr

/-- What a look brings: whether the best block has changed, the events, and the watcher after
it. -/
structure TipWatcher.Look where
  result : Except ChainError Bool
  events : List Event
  watcher : TipWatcher

namespace TipWatcher

/-- One look, at which the node gives some answer. -/
def poll (w : TipWatcher) : Except ChainError BlockTip → Look
  | .error e => { result := .error e, events := [], watcher := w }
  | .ok tip =>
    if w.last = some tip then { result := .ok false, events := [], watcher := w }
    else { result := .ok true, events := [.newTip tip], watcher := { last := some tip } }

/-- Looks one after another, at which the node gives some answers. -/
def watch : TipWatcher → List (Except ChainError BlockTip) → List Look
  | _, [] => []
  | w, answer :: rest =>
    let look := w.poll answer
    look :: watch look.watcher rest

/-- The number of looks in some time. -/
def looks (interval duration : Nat) : Nat :=
  duration / interval + 1

end TipWatcher
end SilentScan
