/-
Courses of dialogues among everything else.

Nothing waits for a dialogue to end. Before each of its steps, and while it waits for an answer,
the session may hear of events, be set back, lose its receiver or be closed; and the full node and
the other server may answer anything. All this is given as the circumstances of a dialogue, one
moment for each of its steps. The course that the dialogue takes among them is determined then, and
it keeps whatever the terms of the dialogue and the incidents keep.

* `Incident`, `Moment`, `Circumstances`: what happens around a dialogue;
* `Course`, `Dialogue.play`, `play_bind`: the course of a dialogue, and of two one after another;
* `Terms.Cover`, `Course.Within`, `Dialogue.Keeps.play`: a dialogue that keeps to terms takes a
  course within them, if they cover all that can happen.
-/
import SilentScan.Protocol.Forwarding
import SilentScan.Proofs.Protocol.Terms

namespace SilentScan

/-! ### Circumstances -/

/-- What happens to a session besides the steps of its dialogues. -/
inductive Incident where
  /-- The first listener is told of an event. -/
  | hears (e : Event)
  /-- The second listener is told of an event. -/
  | rewinds (e : Event)
  | deafened
  | closed

/-- The scan that a session asks for, if it does. -/
def SessionEffect.request? : SessionEffect → Option ScanRequest
  | .push _ => none
  | .scan r => some r

/-- What an incident does to the session, with the scans that it starts. -/
def Incident.strike : Incident → Session → Session × List ScanRequest
  | .hears e, s => ((s.onEvent e).1, (s.onEvent e).2.filterMap SessionEffect.request?)
  | .rewinds e, s => (s.onReorg e, [])
  | .deafened, s => ({ s with receiving := false }, [])
  | .closed, s => (s.close.1, [])

/-- What happens before a step of a dialogue, and what the outside would answer then. -/
structure Moment where
  incidents : List Incident
  node : (q : NodeQuery) → Except ChainError q.Answer
  other : (method : String) → (params : Json) → Except TransportError Response

/-- The circumstances of a dialogue, by the number of the step. -/
abbrev Circumstances : Type :=
  Nat → Moment

/-- Circumstances in which nothing happens, the full node is down and the other server is gone. -/
def quietCircumstances : Circumstances := fun _ =>
  { incidents := [], node := fun _ => .error (.io "down"), other := fun _ _ => .error .closed }

/-- The answer to a question: the other server is understood as its response says. -/
def Moment.answer (m : Moment) : (q : Question) → q.Reply
  | .node q => m.node q
  | .forward method params => forwardReply (m.other method params)

/-! ### Courses -/

/-- What a dialogue has brought about among its circumstances: its value, the session, the scans
started by it and by incidents, the questions asked, the sessions that were passed through, and the
number of the next step. -/
structure Course (α : Type) where
  value : α
  session : Session
  scans : List ScanRequest := []
  questions : List Question := []
  passed : List Session := []
  clock : Nat

namespace Course

variable {α β : Type}

/-- One course after another. -/
def andThen (c : Course α) (c' : Course β) : Course β where
  value := c'.value
  session := c'.session
  scans := c.scans ++ c'.scans
  questions := c.questions ++ c'.questions
  passed := c.passed ++ c'.passed
  clock := c'.clock

/-- The same course with another value. -/
def withValue (c : Course α) (b : β) : Course β where
  value := b
  session := c.session
  scans := c.scans
  questions := c.questions
  passed := c.passed
  clock := c.clock

end Course

/-- The course of incidents. -/
def strikeAll (n : Nat) : Session → List Incident → Course Unit
  | s, [] => { value := (), session := s, clock := n }
  | s, i :: rest =>
    let (s, scans) := i.strike s
    Course.andThen { value := (), session := s, scans, passed := [s], clock := n : Course Unit }
      (strikeAll n s rest)

/-- The course of a step. -/
def Move.course (m : Move) (n : Nat) (s : Session) : Course m.Reply where
  value := (m.perform s).1
  session := (m.perform s).2.1
  scans := (m.perform s).2.2
  passed := [(m.perform s).2.1]
  clock := n

namespace Dialogue

variable {α β : Type}

/-- The course of a dialogue among its circumstances, from a step on. -/
def play (w : Circumstances) : Nat → Session → Dialogue α → Course α
  | n, s, .done a => { value := a, session := s, clock := n }
  | n, s, .ask q next =>
    let c := strikeAll (n + 1) s (w n).incidents
    ({ c with questions := [q] } : Course Unit).andThen
      (play w (n + 1) c.session (next ((w n).answer q)))
  | n, s, .move m next =>
    let c := strikeAll (n + 1) s (w n).incidents
    let c' := c.andThen (m.course (n + 1) c.session)
    c'.andThen (play w (n + 1) c'.session (next c'.value))

/-- **Two dialogues one after another**: the second goes on where the first has ended. -/
lemma play_bind (w : Circumstances) (n : Nat) (s : Session) (d : Dialogue α)
    (f : α → Dialogue β) :
    (d >>= f).play w n s
      = (d.play w n s).andThen
          ((f (d.play w n s).value).play w (d.play w n s).clock (d.play w n s).session) := by
  change (d.bind f).play w n s = _
  induction d generalizing n s with
  | done a => rfl
  | ask q next ih => simp only [bind, play, ih, Course.andThen, List.append_assoc]
  | move m next ih => simp only [bind, play, ih, Course.andThen, List.append_assoc]

/-- What only makes something of a value changes the value only. -/
lemma play_bind_pure (w : Circumstances) (n : Nat) (s : Session) (d : Dialogue α) (f : α → β) :
    (do let a ← d; return f a : Dialogue β).play w n s
      = (d.play w n s).withValue (f (d.play w n s).value) := by
  rw [play_bind]
  simp [Course.andThen, Course.withValue, pure, play]

end Dialogue

section Handling

variable {α β : Type} {w : Circumstances} {n : Nat} {s : Session} {h : Handling α}
  (f : α → Handling β)

/-- After a handling that has ended well the next one goes on where it has ended. -/
lemma Handling.play_bind_of_ok {a : α} (ha : (h.run.play w n s).value = .ok a) :
    (h >>= f).run.play w n s
      = (h.run.play w n s).andThen
          ((f a).run.play w (h.run.play w n s).clock (h.run.play w n s).session) := by
  change (h.run >>= ExceptT.bindCont f).play w n s = _
  rw [Dialogue.play_bind, ha]
  rfl

/-- A handling that has failed is not gone on with. -/
lemma Handling.play_bind_of_error {e : RpcError} (he : (h.run.play w n s).value = .error e) :
    (h >>= f).run.play w n s = (h.run.play w n s).withValue (.error e) := by
  change (h.run >>= ExceptT.bindCont f).play w n s = _
  rw [Dialogue.play_bind, he]
  simp [ExceptT.bindCont, pure, Dialogue.play, Course.andThen, Course.withValue]

end Handling

/-! ### Terms and courses -/

/-- That a course has kept within bounds: where it ends, the questions asked, the sessions passed
through, and the scans started. -/
structure Course.Within {α : Type} (c : Course α) (ends : α → Prop) (asks : Question → Prop)
    (inv : Session → Prop) (starts : ScanRequest → Prop) : Prop where
  value : ends c.value
  session : inv c.session
  passed : ∀ s ∈ c.passed, inv s
  questions : ∀ q ∈ c.questions, asks q
  scans : ∀ r ∈ c.scans, starts r

/-- That terms, with a property of sessions and one of scans, cover all that can happen: incidents
and allowed steps keep the property and start such scans only, and all replies are reckoned
with. -/
structure Terms.Cover (t : Terms) (w : Circumstances) (inv : Session → Prop)
    (starts : ScanRequest → Prop) : Prop where
  told : ∀ n q, t.told q ((w n).answer q)
  strike : ∀ (i : Incident) s, inv s → inv (i.strike s).1 ∧ ∀ r ∈ (i.strike s).2, starts r
  perform : ∀ (m : Move) s, t.does m → inv s →
    t.sees m (m.perform s).1 ∧ inv (m.perform s).2.1 ∧ ∀ r ∈ (m.perform s).2.2, starts r

section Within

variable {α β : Type} {ends : α → Prop} {ends' : β → Prop} {asks : Question → Prop}
  {inv : Session → Prop} {starts : ScanRequest → Prop}

lemma Course.Within.andThen {c : Course α} {c' : Course β} (hc : c.Within ends asks inv starts)
    (hc' : c'.Within ends' asks inv starts) : (c.andThen c').Within ends' asks inv starts where
  value := hc'.value
  session := hc'.session
  passed := List.forall_mem_append.2 ⟨hc.passed, hc'.passed⟩
  questions := List.forall_mem_append.2 ⟨hc.questions, hc'.questions⟩
  scans := List.forall_mem_append.2 ⟨hc.scans, hc'.scans⟩

variable {t : Terms} {w : Circumstances}

lemma Terms.Cover.strikeAll (cover : t.Cover w inv starts) (asks : Question → Prop) {s : Session}
    (hs : inv s) (n : Nat) (incidents : List Incident) :
    (strikeAll n s incidents).Within (fun _ => True) asks inv starts := by
  induction incidents generalizing s with
  | nil => exact ⟨True.intro, hs, by simp [SilentScan.strikeAll], by simp [SilentScan.strikeAll],
      by simp [SilentScan.strikeAll]⟩
  | cons i rest ih =>
    obtain ⟨hinv, hscans⟩ := cover.strike i s hs
    have hfirst : Course.Within
        { value := (), session := (i.strike s).1, scans := (i.strike s).2,
          passed := [(i.strike s).1], clock := n : Course Unit } (fun _ => True) asks inv starts :=
      ⟨True.intro, hinv, by simpa using hinv, by simp, hscans⟩
    exact hfirst.andThen (ih hinv)

/-- **A dialogue that keeps to terms** takes a course within them, whatever happens around it, if
the terms cover that. -/
theorem Dialogue.Keeps.play (cover : t.Cover w inv starts) {d : Dialogue α}
    (hd : d.Keeps t ends) (n : Nat) {s : Session} (hs : inv s) :
    (d.play w n s).Within ends t.asks inv starts := by
  induction d generalizing n s with
  | done a => exact ⟨hd, hs, by simp [Dialogue.play], by simp [Dialogue.play],
      by simp [Dialogue.play]⟩
  | ask q next ih =>
    have hstruck := cover.strikeAll t.asks hs (n + 1) (w n).incidents
    have hasked : Course.Within
        { strikeAll (n + 1) s (w n).incidents with questions := [q] } (fun _ => True) t.asks inv
          starts :=
      { hstruck with questions := by simpa using hd.1 }
    exact hasked.andThen (ih _ (hd.2 _ (cover.told n q)) (n + 1) hstruck.session)
  | move m next ih =>
    have hstruck := cover.strikeAll t.asks hs (n + 1) (w n).incidents
    obtain ⟨hsees, hinv, hscans⟩ := cover.perform m _ hd.1 hstruck.session
    have hstep : (m.course (n + 1) (strikeAll (n + 1) s (w n).incidents).session).Within
        (t.sees m) t.asks inv starts :=
      ⟨hsees, hinv, by simpa [Move.course] using hinv, by simp [Move.course], hscans⟩
    exact (hstruck.andThen hstep).andThen (ih _ (hd.2 _ hsees) (n + 1) hinv)

end Within
end SilentScan
