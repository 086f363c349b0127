/-
The bisection of a chain by time.

The client of a full node is asked for the first block at or after a timestamp. It halves the
heights up to the tip, and at each turn asks for the time of the block in the middle. It never looks
at the blocks between: a block that is too early is taken to say that all blocks before it are. In a
chain whose times rise that is so, but the time of a block may be before that of the block below it,
and then a block that the timestamp asks for can stand below the height that is found.

What holds in every chain is said by the blocks that were looked at. Those that are too early are
the ones below the height that is found; and the height just below it and the height itself are
among those looked at, unless they are at an end.

* `NodeClient.ask_eq`: what the client exchanges is the commands of the inquiry, in turn;
* `ServesChain`: that a node answers from a chain without errors;
* `run_firstAtOrAfter`: the course of the bisection between two heights;
* `heightForTimestamp_eq_firstAt_iff`: the whole, with `later_block_found` the exception.
-/
import Mathlib.Data.Nat.Size
import SilentScan.Chain.Client

namespace SilentScan

/-! ### The course of an inquiry -/

/-- Answers commands and writes down which ones were asked. -/
def recorded (answer : (c : NodeCommand) → Except ChainError c.Reply) (c : NodeCommand) :
    ExceptT ChainError (StateM (List NodeCommand)) c.Reply := do
  modify (· ++ [c])
  MonadExcept.ofExcept (answer c)

namespace Inquiry

variable {answer : (c : NodeCommand) → Except ChainError c.Reply} {α β : Type}

/-- The outcome of an inquiry, and the commands asked so far and in its course. -/
def outcome (answer : (c : NodeCommand) → Except ChainError c.Reply) (i : Inquiry α)
    (asked : List NodeCommand) : Except ChainError α × List NodeCommand :=
  (i.run (recorded answer)).run.run asked

lemma outcome_done (a : α) (asked : List NodeCommand) :
    (done a).outcome answer asked = (.ok a, asked) :=
  rfl

lemma outcome_ask {c : NodeCommand} {r : c.Reply} (hr : answer c = .ok r)
    (next : c.Reply → Inquiry α) (asked : List NodeCommand) :
    (ask c next).outcome answer asked = (next r).outcome answer (asked ++ [c]) := by
  simp only [outcome, run, recorded, hr]
  rfl

lemma outcome_ask_error {c : NodeCommand} {e : ChainError} (he : answer c = .error e)
    (next : c.Reply → Inquiry α) (asked : List NodeCommand) :
    (ask c next).outcome answer asked = (.error e, asked ++ [c]) := by
  simp only [outcome, run, recorded, he]
  rfl

lemma outcome_bind {i : Inquiry α} {a : α} {asked asked' : List NodeCommand}
    (h : i.outcome answer asked = (.ok a, asked')) (f : α → Inquiry β) :
    (i >>= f).outcome answer asked = (f a).outcome answer asked' := by
  induction i generalizing asked with
  | done a =>
    cases h
    rfl
  | ask c next ih =>
    cases hr : answer c with
    | error e =>
      rw [outcome_ask_error hr] at h
      cases h
    | ok r =>
      rw [outcome_ask hr] at h
      calc (ask c next >>= f).outcome answer asked
          = (next r >>= f).outcome answer (asked ++ [c]) := outcome_ask hr _ asked
        _ = (f a).outcome answer asked' := ih r h

end Inquiry

/-! ### The client -/

namespace NodeClient

/-- That what a client exchanges for a command is the answer to it, whatever the number of the
command. -/
def Exchanges (k : NodeClient) (serve : NodeRequest → NodeExchange)
    (answer : (c : NodeCommand) → Except ChainError c.Reply) : Prop :=
  ∀ c n, (perform (m := Id) serve c).run.run { k with nextId := n }
    = (answer c, { k with nextId := n + 1 })

/-- **What the client exchanges** is the commands of the inquiry, in turn and numbered in turn, up
to the first that fails. -/
theorem ask_eq {k : NodeClient} {serve : NodeRequest → NodeExchange}
    {answer : (c : NodeCommand) → Except ChainError c.Reply} (exchanges : k.Exchanges serve answer)
    (q : NodeQuery) :
    k.ask (m := Id) serve q = ((q.inquiry.outcome answer []).1,
      { k with nextId := k.nextId + (q.inquiry.outcome answer []).2.length }) := by
  -- The number of the next command is known from the commands that were asked before it.
  have key : ∀ (i : Inquiry q.Answer) (asked : List NodeCommand),
      (i.run (perform (m := Id) serve)).run.run { k with nextId := k.nextId + asked.length }
        = ((i.outcome answer asked).1,
          { k with nextId := k.nextId + (i.outcome answer asked).2.length }) := by
    intro i
    induction i with
    | done a => exact fun asked => rfl
    | ask c next ih =>
      intro asked
      have hstep := exchanges c (k.nextId + asked.length)
      rw [Inquiry.run, ExceptT.run_bind, StateT.run_bind, hstep]
      cases hr : answer c with
      | error e =>
        rw [Inquiry.outcome_ask_error hr, List.length_append]
        rfl
      | ok r =>
        rw [Inquiry.outcome_ask hr, ← ih r (asked ++ [c]), List.length_append]
        rfl
  exact key q.inquiry []

end NodeClient

/-! ### Chains -/

/-- The headers of a chain, up to its tip. -/
structure HeaderChain where
  tip : Nat
  hash : Nat → String
  header : Nat → HeaderInfo

namespace HeaderChain

/-- The time of the block at a height. -/
def time (chain : HeaderChain) (height : Nat) : Nat :=
  (chain.header height).time

/-- The first block that is not before a timestamp, the tip where there is none. -/
def firstAt (chain : HeaderChain) (timestamp : Nat) : Nat :=
  ((List.range (chain.tip + 1)).find? fun h => timestamp ≤ chain.time h).getD chain.tip

/-- The commands that ask for the header at a height. -/
def lookUp (chain : HeaderChain) (height : Nat) : List NodeCommand :=
  [.blockHash height, .headerInfo (chain.hash height)]

/-- No block below the first one is at or after the timestamp. -/
lemma time_lt_of_lt_firstAt {chain : HeaderChain} {timestamp height : Nat}
    (hlt : height < chain.firstAt timestamp) : chain.time height < timestamp := by
  rw [firstAt] at hlt
  cases hfind : (List.range (chain.tip + 1)).find? fun h => timestamp ≤ chain.time h with
  | none =>
    rw [hfind, Option.getD_none] at hlt
    have hearly := List.find?_range_eq_none.1 hfind height (by omega)
    simpa using hearly
  | some first =>
    rw [hfind, Option.getD_some] at hlt
    obtain ⟨-, -, hbefore⟩ := List.find?_range_eq_some.1 hfind
    simpa using hbefore height hlt

/-- Where the block above one that is not too early never is, none up to the tip is. -/
lemma le_time_of_stays {chain : HeaderChain} {timestamp j h : Nat}
    (stays : ∀ h, h + 1 < chain.tip → timestamp ≤ chain.time h → timestamp ≤ chain.time (h + 1))
    (hle : j ≤ h) (htip : h < chain.tip) (late : timestamp ≤ chain.time j) :
    timestamp ≤ chain.time h := by
  induction hle with
  | refl => exact late
  | step _ ih => exact stays _ htip (ih (by omega))

/-- A block is the first one, if those below it are too early and it is not or is the tip. -/
lemma eq_firstAt {chain : HeaderChain} {timestamp height : Nat} (hle : height ≤ chain.tip)
    (below : ∀ h < height, chain.time h < timestamp)
    (here : height = chain.tip ∨ timestamp ≤ chain.time height) :
    height = chain.firstAt timestamp := by
  rw [firstAt]
  cases hfind : (List.range (chain.tip + 1)).find? fun h => timestamp ≤ chain.time h with
  | none =>
    have hearly := List.find?_range_eq_none.1 hfind height (by omega)
    have hearly : chain.time height < timestamp := by simpa using hearly
    exact here.resolve_right (by omega)
  | some first =>
    obtain ⟨hfirst, hmem, hbefore⟩ := List.find?_range_eq_some.1 hfind
    have hfirst : timestamp ≤ chain.time first := by simpa using hfirst
    have hmem : first < chain.tip + 1 := List.mem_range.1 hmem
    rcases Nat.lt_trichotomy height first with hlt | rfl | hlt
    · have hearly : chain.time height < timestamp := by simpa using hbefore height hlt
      omega
    · rfl
    · have := below first hlt
      omega

/-- What the blocks that were looked at say of the height that is found between two heights: the
ones too early are those below it, and it was looked at, as was the one below it, unless it is at an
end. -/
structure Found (chain : HeaderChain) (timestamp low high height : Nat) (probes : List Nat) :
    Prop where
  low_le : low ≤ height
  le_high : height ≤ high
  between : ∀ h ∈ probes, low ≤ h ∧ h < high
  early_iff : ∀ h ∈ probes, (chain.time h < timestamp ↔ h < height)
  below : height = low ∨ height - 1 ∈ probes
  here : height = high ∨ height ∈ probes

namespace Found

variable {chain : HeaderChain} {timestamp low high height middle : Nat} {probes : List Nat}

/-- What is found above a block that is too early is found above any block below it. -/
lemma upper (found : chain.Found timestamp (middle + 1) high height probes)
    (early : chain.time middle < timestamp) (hle : low ≤ middle) :
    chain.Found timestamp low high height (middle :: probes) where
  low_le := by have := found.low_le; omega
  le_high := found.le_high
  between := by
    have := found.low_le
    have := found.le_high
    refine List.forall_mem_cons.2 ⟨by omega, fun h hmem => ?_⟩
    have := found.between h hmem
    omega
  early_iff :=
    List.forall_mem_cons.2 ⟨iff_of_true early found.low_le, found.early_iff⟩
  below := by
    rcases found.below with rfl | hmem
    · exact Or.inr List.mem_cons_self
    · exact Or.inr (List.mem_cons_of_mem _ hmem)
  here := found.here.imp_right (List.mem_cons_of_mem _)

/-- What is found up to a block that is not too early is found up to any block above it. -/
lemma lower (found : chain.Found timestamp low middle height probes)
    (late : ¬ chain.time middle < timestamp) (hlt : middle < high) :
    chain.Found timestamp low high height (middle :: probes) where
  low_le := found.low_le
  le_high := by have := found.le_high; omega
  between := by
    have := found.low_le
    have := found.le_high
    refine List.forall_mem_cons.2 ⟨by omega, fun h hmem => ?_⟩
    have := found.between h hmem
    omega
  early_iff :=
    List.forall_mem_cons.2 ⟨iff_of_false late (Nat.not_lt.2 found.le_high), found.early_iff⟩
  below := found.below.imp_right (List.mem_cons_of_mem _)
  here := by
    rcases found.here with rfl | hmem
    · exact Or.inr List.mem_cons_self
    · exact Or.inr (List.mem_cons_of_mem _ hmem)

/-- The height that is found is one where the times cross the timestamp. -/
lemma crossing (found : chain.Found timestamp 0 chain.tip height probes) :
    (height = 0 ∨ chain.time (height - 1) < timestamp)
      ∧ (height = chain.tip ∨ timestamp ≤ chain.time height) := by
  constructor
  · rcases Nat.eq_zero_or_pos height with hzero | hpos
    · exact Or.inl hzero
    · have hmem := found.below.resolve_left (by omega)
      exact Or.inr ((found.early_iff _ hmem).2 (by omega))
  · refine found.here.imp_right fun hmem => ?_
    have hlate : ¬ chain.time height < timestamp := fun early =>
      Nat.lt_irrefl height ((found.early_iff _ hmem).1 early)
    omega

/-- No block below the height that is found is missed, exactly if none is below a block that was
looked at and is too early. -/
lemma none_missed_iff (found : chain.Found timestamp 0 chain.tip height probes) :
    (∀ h < height, chain.time h < timestamp)
      ↔ ∀ h ∈ probes, chain.time h < timestamp → ∀ j < h, chain.time j < timestamp := by
  constructor
  · intro hall h hmem early j hj
    have := (found.early_iff h hmem).1 early
    exact hall j (by omega)
  · intro hprobes h hlt
    have hmem := found.below.resolve_left (by omega)
    have hlast : chain.time (height - 1) < timestamp := (found.early_iff _ hmem).2 (by omega)
    rcases Nat.eq_or_lt_of_le (Nat.le_sub_one_of_lt hlt) with rfl | hlt
    · exact hlast
    · exact hprobes _ hmem hlast h hlt

/-- The height that is found is the first one, exactly if no block below it is missed. -/
lemma eq_firstAt_iff (found : chain.Found timestamp 0 chain.tip height probes) :
    height = chain.firstAt timestamp ↔ ∀ h < height, chain.time h < timestamp := by
  constructor
  · rintro rfl h hlt
    exact time_lt_of_lt_firstAt hlt
  · exact fun below => eq_firstAt found.le_high below found.crossing.2

end Found

end HeaderChain

/-- That a node answers from a chain, always the same and without errors. -/
structure ServesChain (answer : (c : NodeCommand) → Except ChainError c.Reply)
    (chain : HeaderChain) : Prop where
  count : answer .blockCount = .ok chain.tip
  hash : ∀ h ≤ chain.tip, answer (.blockHash h) = .ok (chain.hash h)
  header : ∀ h ≤ chain.tip, answer (.headerInfo (chain.hash h)) = .ok (chain.header h)

/-! ### The bisection -/

namespace ServesChain

variable {answer : (c : NodeCommand) → Except ChainError c.Reply} {chain : HeaderChain}

/-- One turn of the bisection: the upper half is taken where the block in the middle is too early,
and the lower half where it is not. -/
lemma outcome_firstAtOrAfter (served : ServesChain answer chain) (timestamp : Nat)
    {low high middle : Nat} (hlt : low < high) (hmiddle : middle = low + (high - low) / 2)
    (htip : middle ≤ chain.tip) (asked : List NodeCommand) :
    (Inquiry.firstAtOrAfter timestamp low high).outcome answer asked
      = (if chain.time middle < timestamp then Inquiry.firstAtOrAfter timestamp (middle + 1) high
        else Inquiry.firstAtOrAfter timestamp low middle).outcome answer
          (asked ++ chain.lookUp middle) := by
  subst hmiddle
  rw [Inquiry.firstAtOrAfter, if_pos hlt]
  calc _ = _ := Inquiry.outcome_ask (served.hash _ htip) _ asked
    _ = _ := Inquiry.outcome_ask (served.header _ htip) _ _
    _ = _ := by rw [List.append_assoc]; rfl

/-- Half of a number has a binary digit less. -/
lemma size_le_of_double_le {d e turns : Nat} (hsize : d.size ≤ turns + 1) (hdouble : 2 * e ≤ d) :
    e.size ≤ turns := by
  have hlt : d < 2 ^ (turns + 1) := Nat.size_le.1 hsize
  rw [Nat.pow_succ] at hlt
  exact Nat.size_le.2 (by omega)

/-- **The course of the bisection** between two heights up to the tip: the blocks looked at are
asked for in turn, and as many turns are enough as the distance of the heights has binary
digits. -/
lemma run_firstAtOrAfter (served : ServesChain answer chain) (timestamp : Nat)
    {low high turns : Nat} (hle : low ≤ high) (htip : high ≤ chain.tip)
    (hturns : (high - low).size ≤ turns) :
    ∃ (height : Nat) (probes : List Nat), chain.Found timestamp low high height probes
      ∧ probes.length ≤ turns
      ∧ ∀ asked, (Inquiry.firstAtOrAfter timestamp low high).outcome answer asked
        = (.ok height, asked ++ probes.flatMap chain.lookUp) := by
  -- A turn leaves at most half of the heights, so the induction is on the number of turns left.
  induction turns generalizing low high with
  | zero =>
    have hnone : high - low = 0 := Nat.size_eq_zero.1 (Nat.le_zero.1 hturns)
    obtain rfl : low = high := by omega
    refine ⟨low, [], ⟨hle, hle, by simp, by simp, Or.inl rfl, Or.inl rfl⟩, Nat.le_refl 0,
      fun asked => ?_⟩
    rw [Inquiry.firstAtOrAfter, if_neg (Nat.lt_irrefl low), Inquiry.outcome_done,
      List.flatMap_nil, List.append_nil]
  | succ turns ih =>
    rcases Nat.eq_or_lt_of_le hle with rfl | hlt
    · obtain ⟨height, probes, found, hlength, hrun⟩ :=
        ih hle htip (by rw [Nat.sub_self, Nat.size_zero]; exact Nat.zero_le turns)
      exact ⟨height, probes, found, by omega, hrun⟩
    obtain ⟨middle, hmiddle⟩ : ∃ middle, middle = low + (high - low) / 2 := ⟨_, rfl⟩
    have hturn := served.outcome_firstAtOrAfter timestamp hlt hmiddle (by omega)
    by_cases early : chain.time middle < timestamp
    · simp only [if_pos early] at hturn
      obtain ⟨height, probes, found, hlength, hrun⟩ :=
        ih (show middle + 1 ≤ high by omega) htip (size_le_of_double_le hturns (by omega))
      refine ⟨height, middle :: probes, found.upper early (by omega), by simpa using hlength,
        fun asked => ?_⟩
      rw [hturn, hrun, List.append_assoc, List.flatMap_cons]
    · simp only [if_neg early] at hturn
      obtain ⟨height, probes, found, hlength, hrun⟩ :=
        ih (show low ≤ middle by omega) (by omega) (size_le_of_double_le hturns (by omega))
      refine ⟨height, middle :: probes, found.lower early (by omega), by simpa using hlength,
        fun asked => ?_⟩
      rw [hturn, hrun, List.append_assoc, List.flatMap_cons]

/-- The height that is found is answered as a signed word of 32 bits. -/
lemma outcome_heightForTimestamp (served : ServesChain answer chain) {timestamp height : Nat}
    {asked : List NodeCommand}
    (hrun : (Inquiry.firstAtOrAfter timestamp 0 chain.tip).outcome answer [.blockCount]
      = (.ok height, asked)) :
    (NodeQuery.heightForTimestamp timestamp).inquiry.outcome answer []
      = (.ok (Int.bmod height 0x1_0000_0000), asked) :=
  calc _ = (Inquiry.firstAtOrAfter timestamp 0 chain.tip >>= fun h =>
          (pure (Int.bmod h 0x1_0000_0000) : Inquiry Int)).outcome answer [.blockCount] :=
        Inquiry.outcome_ask served.count _ []
    _ = _ := Inquiry.outcome_bind hrun _

end ServesChain

/-- **The height for a timestamp.** In every chain whose tip is below 2³¹, whatever the times of its
blocks, the question for the first block at or after a timestamp is answered. The headers asked for
are of blocks below the tip, and no more than the tip has binary digits. The block before the height
that is answered is too early, and the block at that height is not or is the tip. The height is that
of the first block at or after the timestamp, or the tip's where there is none, exactly if no block
that is not too early is below one that was looked at and is; this is also when no block below the
height is missed. It is so where the block above one that is not too early never is, and thus where
the times never fall. -/
theorem heightForTimestamp_eq_firstAt_iff
    {answer : (c : NodeCommand) → Except ChainError c.Reply} {chain : HeaderChain}
    (served : ServesChain answer chain) (htip : chain.tip < 0x8000_0000) (timestamp : Nat) :
    ∃ (height : Nat) (probes : List Nat),
      (NodeQuery.heightForTimestamp timestamp).inquiry.outcome answer []
        = (.ok (height : Int), .blockCount :: probes.flatMap chain.lookUp)
      ∧ probes.length ≤ chain.tip.size
      ∧ (∀ h ∈ probes, h < chain.tip)
      ∧ height ≤ chain.tip
      ∧ (height = 0 ∨ chain.time (height - 1) < timestamp)
      ∧ (height = chain.tip ∨ timestamp ≤ chain.time height)
      ∧ (height = chain.firstAt timestamp
        ↔ ∀ h ∈ probes, chain.time h < timestamp → ∀ j < h, chain.time j < timestamp)
      ∧ (height = chain.firstAt timestamp ↔ ∀ h < height, chain.time h < timestamp)
      ∧ ((∀ h, h + 1 < chain.tip → timestamp ≤ chain.time h → timestamp ≤ chain.time (h + 1))
        → height = chain.firstAt timestamp) := by
  obtain ⟨height, probes, found, hlength, hrun⟩ :=
    served.run_firstAtOrAfter timestamp (Nat.zero_le chain.tip) (Nat.le_refl _)
      (Nat.le_refl chain.tip.size)
  obtain ⟨hbelow, hhere⟩ := found.crossing
  have hmissed := found.none_missed_iff
  have hfirst := found.eq_firstAt_iff
  have hanswer : (NodeQuery.heightForTimestamp timestamp).inquiry.outcome answer []
      = (.ok (height : Int), .blockCount :: probes.flatMap chain.lookUp) := by
    have hword : Int.bmod height 0x1_0000_0000 = height := by
      have := found.le_high
      rw [Int.bmod_eq_of_le] <;> omega
    rw [served.outcome_heightForTimestamp (hrun _), hword]
    rfl
  refine ⟨height, probes, hanswer, hlength, fun h hmem => (found.between h hmem).2, found.le_high,
    hbelow, hhere, hfirst.trans hmissed, hfirst, fun hstays => ?_⟩
  refine hfirst.2 (hmissed.2 fun h hmem early j hj => Nat.lt_of_not_le fun late => ?_)
  have := HeaderChain.le_time_of_stays hstays (Nat.le_of_lt hj) (found.between h hmem).2 late
  omega

/-- The headers of a chain whose blocks have these times, where the hash of a block is as long as
the chain below it. -/
def sampleChain (times : List Nat) : HeaderChain where
  tip := times.length - 1
  hash h := String.ofList (List.replicate h 'f')
  header h := { height := h, time := times.getD h 0 }

/-- A node that answers from it. -/
def sampleNode (times : List Nat) : (c : NodeCommand) → Except ChainError c.Reply
  | .blockCount => .ok (sampleChain times).tip
  | .blockHash h => .ok ((sampleChain times).hash h)
  | .headerInfo hash => .ok ((sampleChain times).header hash.length)
  | _ => .error (.io "no answer")

lemma serves_sampleNode (times : List Nat) :
    ServesChain (sampleNode times) (sampleChain times) where
  count := rfl
  hash _ _ := rfl
  header h _ := by
    have hlength : ((sampleChain times).hash h).length = h := by
      simp [sampleChain]
    rw [sampleNode, hlength]

/-- The first block at or after a timestamp is found in a chain whose times fall twice above it. -/
theorem first_below_falling_times :
    (sampleChain [10, 30, 40, 35, 20]).firstAt 25 = 1
      ∧ ((NodeQuery.heightForTimestamp 25).inquiry.outcome
        (sampleNode [10, 30, 40, 35, 20]) []).1 = .ok 1 := by
  have hfirst : (sampleChain [10, 30, 40, 35, 20]).firstAt 25 = 1 := rfl
  obtain ⟨height, probes, hrun, -, -, -, -, -, -, -, hstays⟩ := heightForTimestamp_eq_firstAt_iff
    (serves_sampleNode [10, 30, 40, 35, 20]) (by decide) 25
  have hheight : height = 1 := by
    refine (hstays fun h htip _ => ?_).trans hfirst
    have htip : h + 1 < 4 := htip
    obtain rfl | rfl | rfl : h = 0 ∨ h = 1 ∨ h = 2 := by omega
    all_goals simp [sampleChain, HeaderChain.time]
  rw [hrun, hheight]
  exact ⟨hfirst, rfl⟩

/-- **A later block is found** in a chain whose first block is at the timestamp and whose second one
is before it: the second one is looked at, and the first one is not. -/
theorem later_block_found :
    (sampleChain [100, 50, 60]).firstAt 100 = 0
      ∧ (NodeQuery.heightForTimestamp 100).inquiry.outcome (sampleNode [100, 50, 60]) []
        = (.ok 2, [.blockCount, .blockHash 1, .headerInfo "f"]) := by
  have served := serves_sampleNode [100, 50, 60]
  have hturn := served.outcome_firstAtOrAfter 100 (show 0 < 2 by omega)
    (show 1 = 0 + (2 - 0) / 2 from rfl) (by decide) [.blockCount]
  have hend : (Inquiry.firstAtOrAfter 100 2 2).outcome (sampleNode [100, 50, 60])
      ([.blockCount] ++ (sampleChain [100, 50, 60]).lookUp 1)
        = (.ok 2, [.blockCount, .blockHash 1, .headerInfo "f"]) := by
    rw [Inquiry.firstAtOrAfter, if_neg (Nat.lt_irrefl 2)]
    rfl
  have hrun := served.outcome_heightForTimestamp (hturn.trans hend)
  rw [show Int.bmod ((2 : Nat) : Int) 0x1_0000_0000 = 2 by decide] at hrun
  exact ⟨rfl, hrun⟩

end SilentScan
