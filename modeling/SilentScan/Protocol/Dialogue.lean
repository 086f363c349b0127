/-
Dialogues.

While it answers a client, the server asks the full node and the other server, looks at the
session and changes it. A dialogue is such a course of action, cut at every step: what to ask or
do next, and how to go on for each reply. What the outside answers, and what happens meanwhile,
is left open.

* `Question`, with `Reply`: what is asked of the outside;
* `Move`, with `Reply` and `perform`: what concerns the session alone;
* `Dialogue`: courses of action, which form a monad;
* `Dialogue.advance`: goes on up to the next question;
* `Dialogue.run`: the whole course for given answers.
-/
import SilentScan.Chain.Node
import SilentScan.Session.Basic

namespace SilentScan

/-- A question to the outside. -/
inductive Question where
  /-- Asks the full node. -/
  | node (q : NodeQuery)
  /-- Has the other server answer a call. -/
  | forward (method : String) (params : Json)

/-- The answer to a question. -/
abbrev Question.Reply : Question → Type
  | .node q => Except ChainError q.Answer
  | .forward _ _ => Except RpcError Json

/-- A step that concerns the session alone. -/
inductive Move where
  /-- Looks at the session. -/
  | look
  /-- Watches the best block. -/
  | watchHeaders
  /-- Watches a script hash. -/
  | watchHash (hash : String)
  /-- Stops watching a script hash. -/
  | dropHash (hash : String)
  /-- Watches an address. -/
  | watchAddress (address : ScanAddress) (rawLabels : List (Option Int))
  /-- Stops watching an address. -/
  | dropAddress (key : String)
  /-- Settles on a version. -/
  | settle (version : ProtocolVersion)
  /-- Starts a scan. -/
  | scan (request : ScanRequest)

/-- What a step brings back: the session that is looked at, or the labels that are watched. -/
abbrev Move.Reply : Move → Type
  | .look => Session
  | .watchAddress _ _ => LabelSet
  | _ => Unit

/-- What a step does to the session, with the scans that it starts. -/
def Move.perform : (m : Move) → Session → m.Reply × Session × List ScanRequest
  | .look, s => (s, s, [])
  | .watchHeaders, s => ((), { s with registry := s.registry.setHeaders true }, [])
  | .watchHash h, s => ((), { s with registry := s.registry.subscribeHash h }, [])
  | .dropHash h, s => ((), { s with registry := (s.registry.unsubscribeHash h).2 }, [])
  | .watchAddress a raw, s =>
    let (sub, registry) := s.registry.subscribe a raw
    (sub.labels, { s with registry }, [])
  | .dropAddress k, s => ((), { s with registry := (s.registry.unsubscribe k).2 }, [])
  | .settle v, s => ((), { s with version := some v }, [])
  | .scan r, s => ((), s, [r])

/-- A course of action that ends with a value. -/
inductive Dialogue (α : Type) where
  | done (a : α)
  | ask (q : Question) (next : q.Reply → Dialogue α)
  | move (m : Move) (next : m.Reply → Dialogue α)

namespace Dialogue

/-- One dialogue after another. -/
def bind {α β : Type} : Dialogue α → (α → Dialogue β) → Dialogue β
  | .done a, f => f a
  | .ask q next, f => .ask q fun r => (next r).bind f
  | .move m next, f => .move m fun r => (next r).bind f

instance : Monad Dialogue where
  pure := .done
  bind := bind

/-- A dialogue up to its next question: the session as it is then, the scans started, and the end
or the question with what follows it. -/
inductive Standing (α : Type) where
  | done (a : α)
  | waiting (q : Question) (next : q.Reply → Dialogue α)

/-- Goes on up to the next question. -/
def advance {α : Type} : Session → Dialogue α → Session × List ScanRequest × Standing α
  | s, .done a => (s, [], .done a)
  | s, .ask q next => (s, [], .waiting q next)
  | s, .move m next =>
    let (r, s, started) := m.perform s
    let (s, more, standing) := advance s (next r)
    (s, started ++ more, standing)

/-- What a dialogue has brought about: its value, the session, the scans started, and the
questions asked, in order. -/
structure Outcome (α : Type) where
  value : α
  session : Session
  scans : List ScanRequest
  questions : List Question

/-- The whole course of a dialogue, where `answer` replies to a question, knowing those before
it. -/
def run {α : Type} (answer : List Question → (q : Question) → q.Reply) :
    List Question → Session → Dialogue α → Outcome α
  | asked, s, .done a => { value := a, session := s, scans := [], questions := asked }
  | asked, s, .ask q next => run answer (asked ++ [q]) s (next (answer asked q))
  | asked, s, .move m next =>
    let (r, s, started) := m.perform s
    let o := run answer asked s (next r)
    { o with scans := started ++ o.scans }

end Dialogue
end SilentScan
