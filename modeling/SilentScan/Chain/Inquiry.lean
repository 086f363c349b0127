/-
Inquiries at a full node.

What the server asks of a full node takes one or more commands, each of which may depend on the
results of those before. An inquiry is such a course of commands; the first failure ends it.

* `Inquiry`, with `run`: courses of commands, which form a monad;
* `Inquiry.firstAtOrAfter`: bisection of the chain by time;
* `NodeQuery.inquiry`: the commands that answer a question.
-/
import SilentScan.Chain.Command

namespace SilentScan

/-- A course of commands that ends with a value. -/
inductive Inquiry (α : Type) where
  | done (a : α)
  | ask (c : NodeCommand) (next : c.Reply → Inquiry α)

namespace Inquiry

/-- One course after another. -/
def bind {α β : Type} : Inquiry α → (α → Inquiry β) → Inquiry β
  | .done a, f => f a
  | .ask c next, f => .ask c fun r => (next r).bind f

instance : Monad Inquiry where
  pure := .done
  bind := bind

/-- A single command. -/
def command (c : NodeCommand) : Inquiry c.Reply :=
  .ask c .done

/-- The outcome where `answer` answers the commands. -/
def run {m : Type → Type} [Monad m] (answer : (c : NodeCommand) → m c.Reply) {α : Type} :
    Inquiry α → m α
  | .done a => pure a
  | .ask c next => do run answer (next (← answer c))

/-- Halves an interval of heights until one is left: the upper half is taken where the block in
the middle is too early, and the lower half with the middle itself where it is not. -/
def firstAtOrAfter (timestamp low high : Nat) : Inquiry Nat :=
  if low < high then
    let middle := low + (high - low) / 2
    .ask (.blockHash middle) fun hash =>
      .ask (.headerInfo hash) fun info =>
        if info.time < timestamp then firstAtOrAfter timestamp (middle + 1) high
        else firstAtOrAfter timestamp low middle
  else .done low
termination_by high - low

end Inquiry

open Inquiry in
/-- The commands that answer a question. Heights are given as signed words of 32 bits. -/
def NodeQuery.inquiry : (q : NodeQuery) → Inquiry q.Answer
  | .tip => do
    let hash ← command .bestBlockHash
    let info ← command (.headerInfo hash)
    let hex ← command (.header hash)
    return { height := info.height, hex }
  | .blockHeader height => do
    let hash ← command (.blockHash height)
    command (.header hash)
  | .heightForTimestamp timestamp => do
    let tip ← command .blockCount
    return Int.bmod (← firstAtOrAfter timestamp 0 tip) 0x1_0000_0000
  | .estimateFee blocks mode => command (.feeEstimate blocks mode)
  | .relayFee => command .mempoolInfo
  | .transaction txid verbose => command (.transaction txid verbose)
  | .broadcast rawTx => command (.sendTransaction rawTx)
  | .uptime => command .uptime

end SilentScan
