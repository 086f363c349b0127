/-
The reader of a link.

The reader asks the stream for its next line, over and over, and does something about what it gets.
Its stream tells of a fault, and says once after it that it has ended, whatever has come behind the
faulty line.

* `Reception`, with `ofItem` and `steps`: what the reader gets, and what it does about it;
* `Link.readOn`: the rounds of the reader;
* `LinkReader`, with `feed` and `finish`: a link that takes in bytes;
* `LinkTraffic`, `LinkReader.run`: bytes that come between the steps of the link.
-/
import SilentScan.Wire.Lines
import SilentScan.Wire.Link

namespace SilentScan

/-- What comes of asking a stream for its next line. -/
inductive Reception where
  | line (text : String)
  /-- A line over the greatest length. -/
  | tooLong
  | broken (cause : String)
  | ended
deriving DecidableEq, Repr

namespace Reception

/-- What the reader gets for an item of the stream. Bytes that are no text break the stream, and
after any fault the stream has ended. -/
def ofItem : LineItem → List Reception
  | .line text => [.line text]
  | .notText => [.broken "Unable to decode input as UTF8", .ended]
  | .tooLong => [.tooLong, .ended]

/-- What the reader does about what it gets. A line that is too long is passed over. -/
def steps : Reception → List LinkStep
  | .line text => [.receive text]
  | .tooLong => []
  | .broken cause => Link.loseSteps (.io cause)
  | .ended => Link.loseSteps .closed

end Reception

/-- The rounds of the reader, as long as it takes in lines. -/
def Link.readOn (l : Link) : List Reception → Link × List LinkEffect
  | [] => (l, [])
  | r :: rest =>
    if l.reading then
      let (l, effects) := l.run r.steps
      let (l, more) := l.readOn rest
      (l, effects ++ more)
    else (l, [])

/-- A link with the stream that its reader cuts into lines. -/
structure LinkReader where
  link : Link := {}
  splitter : LineSplitter := { limit := some maxLineLength }

/-- What can happen to a link and to its stream. -/
inductive LinkTraffic where
  /-- Bytes come from the other server. -/
  | bytes (bytes : Bytes)
  | step (s : LinkStep)

namespace LinkReader

/-- The reader takes in what it gets. -/
def take (r : LinkReader) (receptions : List Reception) : LinkReader × List LinkEffect :=
  let (link, effects) := r.link.readOn receptions
  ({ r with link }, effects)

/-- Bytes have come. -/
def feed (r : LinkReader) (bytes : Bytes) : LinkReader × List LinkEffect :=
  let (items, splitter) := r.splitter.feed bytes
  { r with splitter }.take (items.flatMap Reception.ofItem)

/-- The other server has closed the stream. -/
def finish (r : LinkReader) : LinkReader × List LinkEffect :=
  r.take (r.splitter.finish.flatMap Reception.ofItem ++ [.ended])

/-- What bytes or a step do. -/
def step (r : LinkReader) : LinkTraffic → LinkReader × List LinkEffect
  | .bytes bytes => r.feed bytes
  | .step s =>
    let (link, effects) := r.link.step s
    ({ r with link }, effects)

/-- Bytes and steps after one another. -/
def run (r : LinkReader) : List LinkTraffic → LinkReader × List LinkEffect
  | [] => (r, [])
  | t :: rest =>
    let (r, effects) := r.step t
    let (r, more) := r.run rest
    (r, effects ++ more)

end LinkReader
end SilentScan
