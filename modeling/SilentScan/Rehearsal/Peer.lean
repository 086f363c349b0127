/-
A scripted other server.

The peer answers requests one after another, each by the moves of its script. Beyond that it says
what it is told to say. While it waits it does nothing else.

* `PeerMove`, `Peer`: the moves, and the peer;
* `StreamPiece`: what it sends;
* `Peer.attend`: the peer goes on.
-/
import SilentScan.Bytes.Order
import SilentScan.Json.Draft

namespace SilentScan

/-- A move of the peer. -/
inductive PeerMove where
  /-- Sends a line. -/
  | say (text : String)
  /-- Sends bytes. -/
  | spill (bytes : Bytes)
  /-- Sends a line of so many letters. -/
  | filler (n : Nat)
  | wait (ms : Nat)
  | hangUp
deriving Repr

/-- A piece of the stream that the peer sends. -/
inductive StreamPiece where
  | bytes (bytes : Bytes)
  /-- A line of so many letters, which holds no frame. -/
  | filler (n : Nat)
  | ending
deriving Repr

/-- The peer. -/
structure Peer where
  /-- The moves that answer a method, the request having some id. -/
  script : String → Json → List PeerMove
  /-- The requests that have not been read yet. -/
  inbox : List String := []
  /-- What the peer is told to do besides. -/
  asides : List PeerMove := []
  /-- What is left of the moves under way. -/
  left : List PeerMove := []
  asleep : Bool := false
  /-- Whether the peer is still there. -/
  present : Bool := true
  /-- Whether no more requests can come. -/
  shut : Bool := false

/-- Where moves have come to. -/
inductive PeerPause where
  | idle
  | asleep (ms : Nat) (left : List PeerMove)
  | gone
deriving Repr

namespace Peer

/-- Does moves up to a wait: what is sent, and where the moves have come to. -/
def speak : List PeerMove → List StreamPiece × PeerPause
  | [] => ([], .idle)
  | .say text :: rest =>
    let (pieces, pause) := speak rest
    (.bytes (Bytes.ofText (text ++ "\n")) :: pieces, pause)
  | .spill bytes :: rest =>
    let (pieces, pause) := speak rest
    (.bytes bytes :: pieces, pause)
  | .filler n :: rest =>
    let (pieces, pause) := speak rest
    (.filler n :: pieces, pause)
  | .wait ms :: rest => ([], .asleep ms rest)
  | .hangUp :: _ => ([.ending], .gone)

/-- The moves that answer a request. -/
def answer (p : Peer) (line : String) : List PeerMove :=
  match Json.parse line with
  | some v =>
    match v.get? "method" with
    | some (.string method) => p.script method ((v.get? "id").getD .null)
    | _ => []
  | none => []

/-- What the peer has done: its state, what it has sent, the requests it has read, and for how
long it waits. -/
structure Deeds where
  peer : Peer
  sent : List StreamPiece := []
  read : List String := []
  wait : Option Nat := none

/-- The state after moves that have come to a pause, with what they have sent. -/
def paused (p : Peer) (read : List String) (r : List StreamPiece × PeerPause) : Deeds :=
  match r.2 with
  | .idle => { peer := { p with left := [] }, sent := r.1, read }
  | .asleep ms left =>
    { peer := { p with left, asleep := true }, sent := r.1, read, wait := some ms }
  | .gone => { peer := { p with left := [], present := false }, sent := r.1, read }

/-- Reads requests and answers them up to a wait. -/
def readOn (p : Peer) : List String → Deeds
  | [] => { peer := { p with inbox := [], present := p.present && !p.shut } }
  | line :: rest =>
    let d := paused { p with inbox := rest } [line] (speak (p.answer line))
    if d.peer.asleep || !d.peer.present then d
    else
      let more := readOn p rest
      { more with sent := d.sent ++ more.sent, read := d.read ++ more.read }

/-- The peer goes on, unless it waits: first with the moves under way and what it is told to do
besides, then with the requests. -/
def attend (p : Peer) : Deeds :=
  if p.asleep || !p.present then { peer := p }
  else
    let d := paused { p with asides := [] } [] (speak (p.left ++ p.asides))
    if d.peer.asleep || !d.peer.present then d
    else
      let more := readOn d.peer d.peer.inbox
      { more with sent := d.sent ++ more.sent }

/-- The peer wakes up. -/
def wake (p : Peer) : Peer :=
  { p with asleep := false }

end Peer
end SilentScan
