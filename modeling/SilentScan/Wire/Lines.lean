/-
Lines in a stream of bytes.

A line ends with a line feed; a carriage return before it does not count. Bytes arrive in pieces
of any size, and what has arrived of an unfinished line is kept. Where lines have a greatest
length, the stream is given up at the first byte beyond it.

* `LineItem`: what a stream holds;
* `LineSplitter`, with `feed` and `finish`: cutting a stream into lines.
-/
import SilentScan.Bytes.Order

namespace SilentScan

/-- What is found in a stream. -/
inductive LineItem where
  | line (text : String)
  /-- A line whose bytes are no text. -/
  | notText
  /-- A line over the greatest length. -/
  | tooLong
deriving DecidableEq, Repr

/-- A stream that is being cut into lines. -/
structure LineSplitter where
  /-- The greatest length of a line in bytes. -/
  limit : Option Nat := none
  /-- The bytes of the unfinished line, the last first. -/
  reversed : Bytes := []
  /-- The number of these bytes. -/
  length : Nat := 0
  /-- Set once the stream has been given up. -/
  stopped : Bool := false
deriving DecidableEq, Repr

namespace LineSplitter

/-- The line that bytes make up, the last of them given first. -/
def itemOf (reversed : Bytes) : LineItem :=
  let body := match reversed with
    | 13 :: rest => rest
    | bs => bs
  match Bytes.toText? body.reverse with
  | some text => .line text
  | none => .notText

/-- Takes in one byte; the items found so far are given last first. -/
def take (found : List LineItem × LineSplitter) (b : UInt8) : List LineItem × LineSplitter :=
  let (items, s) := found
  if s.stopped then (items, s)
  else if b = 10 then (itemOf s.reversed :: items, { s with reversed := [], length := 0 })
  else if s.limit = some s.length then (.tooLong :: items, { s with stopped := true })
  else (items, { s with reversed := b :: s.reversed, length := s.length + 1 })

/-- Takes in bytes. Gives what is found, in order. -/
def feed (s : LineSplitter) (bytes : Bytes) : List LineItem × LineSplitter :=
  let (items, s) := bytes.foldl take ([], s)
  (items.reverse, s)

/-- What is left at the end of the stream: an unfinished line counts as a line. -/
def finish (s : LineSplitter) : List LineItem :=
  if s.stopped || s.reversed = [] || s.reversed = [13] then [] else [itemOf s.reversed]

end LineSplitter
end SilentScan
