/-
Conversations.

A client sends line after line. Each line asks for some values to be dealt with, none, one or the
items of a batch, and in the end a conversation is nothing but dealings with values, one after
another; how they were spread over lines shows in the form of the replies only.

* `handleLines`: the replies to lines, one after another;
* `verdictOn`, `Dealing`, `dealWith`: what becomes of a value, and of values one after another;
* `converse`, `play_handleLines`: the dealings of a conversation, which make up its course;
* `flatten_converse`: that they are those with all its values.
-/
import SilentScan.Proofs.Protocol.Course

namespace SilentScan

/-- The replies to lines, one after another. -/
def handleLines (setting : ServiceSetting) : List String → Dialogue (List (Option String))
  | [] => return []
  | line :: rest => do
    let reply ← handleLine setting line
    return reply :: (← handleLines setting rest)

/-! ### Values -/

/-- What becomes of a value that should be a request. -/
def verdictOn (setting : ServiceSetting) (v : Json) : Handling Json :=
  match readJson Request.decoder v with
  | .ok request => dispatch setting request.method request.params
  | .error e => throw (.invalidParams (FrameFault.ofRead e).message)

/-- The id under which a value is answered. -/
def replyId (v : Json) : Json :=
  match readJson Request.decoder v with
  | .ok request => request.id
  | .error _ => (v.get? "id").getD .null

/-- The reply that tells a verdict. -/
def Response.ofVerdict (id : Json) : Except RpcError Json → Response
  | .ok result => .success id result
  | .error e => .failure id e.toObject

/-- The reply to a value tells what has become of it. -/
lemma handleValue_eq (setting : ServiceSetting) (v : Json) :
    handleValue setting v
      = (do
          let r ← (verdictOn setting v).run
          return .ofVerdict (replyId v) r) := by
  unfold handleValue verdictOn replyId
  cases readJson Request.decoder v with
  | ok request => exact bind_congr fun r => by cases r <;> rfl
  | error e => rfl

/-- A value dealt with: the session before, and the course that was taken. -/
structure Dealing where
  value : Json
  before : Session
  course : Course (Except RpcError Json)

/-- The reply to a value. -/
def Dealing.reply (x : Dealing) : Response :=
  .ofVerdict (replyId x.value) x.course.value

section Dealings

variable (setting : ServiceSetting) (w : Circumstances)

/-- Values dealt with one after another. -/
def dealWith : Nat → Session → List Json → List Dealing
  | _, _, [] => []
  | n, s, v :: rest =>
    let c := (verdictOn setting v).run.play w n s
    { value := v, before := s, course := c } :: dealWith c.clock c.session rest

/-- The course that dealings make up. -/
def gather : Nat → Session → List Dealing → Course Unit
  | n, s, [] => { value := (), session := s, clock := n }
  | _, _, x :: rest => x.course.andThen (gather x.course.clock x.course.session rest)

lemma gather_append (n : Nat) (s : Session) (xs ys : List Dealing) :
    gather n s (xs ++ ys)
      = (gather n s xs).andThen (gather (gather n s xs).clock (gather n s xs).session ys) := by
  induction xs generalizing n s with
  | nil => rfl
  | cons x xs ih => simp only [List.cons_append, gather, ih, Course.andThen, List.append_assoc]

lemma dealWith_append (n : Nat) (s : Session) (vs us : List Json) :
    dealWith setting w n s (vs ++ us)
      = dealWith setting w n s vs
        ++ dealWith setting w (gather n s (dealWith setting w n s vs)).clock
          (gather n s (dealWith setting w n s vs)).session us := by
  induction vs generalizing n s with
  | nil => rfl
  | cons v vs ih => simp only [List.cons_append, dealWith, gather, ih, Course.andThen]

/-- The first of dealings, and the others. -/
lemma dealWith_eq_cons {n : Nat} {s : Session} {vs : List Json} {x : Dealing}
    {later : List Dealing} (h : dealWith setting w n s vs = x :: later) :
    x.before = s ∧ x.course = (verdictOn setting x.value).run.play w n x.before
      ∧ ∃ vs', dealWith setting w x.course.clock x.course.session vs' = later := by
  cases vs with
  | nil => cases h
  | cons v vs =>
    obtain ⟨hx, hlater⟩ := List.cons.inj h
    subst hx
    exact ⟨rfl, rfl, vs, hlater⟩

/-- A dealing among others begins where those before it have ended. -/
lemma dealWith_split {n : Nat} {s : Session} {vs : List Json} {earlier later : List Dealing}
    {x : Dealing} (h : dealWith setting w n s vs = earlier ++ x :: later) :
    x.before = (gather n s earlier).session
      ∧ x.course = (verdictOn setting x.value).run.play w (gather n s earlier).clock x.before := by
  induction earlier generalizing n s vs with
  | nil =>
    obtain ⟨hbefore, hcourse, _⟩ := dealWith_eq_cons setting w h
    exact ⟨hbefore, hcourse⟩
  | cons y earlier ih =>
    obtain ⟨_, _, vs', hrest⟩ := dealWith_eq_cons setting w h
    exact ih hrest

/-! ### Lines -/

/-- The values that a line asks to be dealt with. -/
def valuesOf (line : String) : List Json :=
  match Json.parse (Text.trim line) with
  | none => []
  | some (.array items) => items
  | some v => [v]

/-- The reply to a line, where its values have been dealt with. -/
def lineReply (line : String) (dealings : List Dealing) : Option String :=
  if (Text.trim line).isEmpty then none
  else
    match Json.parse (Text.trim line) with
    | none =>
      some (Response.failure .null (RpcError.parse (FrameFault.notJson).message).toObject).line
    | some (.array _) => some (Json.array (dealings.map fun x => x.reply.toRecord)).text
    | some _ => dealings.head?.map fun x => x.reply.line

/-- A text without anything is no JSON. -/
lemma parse_blank : Json.parse "" = none := by
  decide

/-- A line that spells a value is not blank. -/
lemma not_blank_of_parse {line : String} {v : Json} (h : Json.parse (Text.trim line) = some v) :
    ¬ (Text.trim line).isEmpty = true := by
  intro hblank
  rw [String.isEmpty_iff.1 hblank, parse_blank] at h
  cases h

/-- The course of a value. -/
lemma play_handleValue (n : Nat) (s : Session) (v : Json) :
    (handleValue setting v).play w n s
      = ((verdictOn setting v).run.play w n s).withValue
          (.ofVerdict (replyId v) ((verdictOn setting v).run.play w n s).value) := by
  rw [handleValue_eq, Dialogue.play_bind_pure]

/-- The course of a batch. -/
lemma play_handleBatch (n : Nat) (s : Session) (vs : List Json) :
    (handleBatch setting vs).play w n s
      = (gather n s (dealWith setting w n s vs)).withValue
          ((dealWith setting w n s vs).map Dealing.reply) := by
  induction vs generalizing n s with
  | nil => rfl
  | cons v vs ih =>
    rw [handleBatch, Dialogue.play_bind]
    simp only [Dialogue.play_bind_pure, play_handleValue, ih]
    rfl

/-- **The course of a line** is made up by the dealings with its values. -/
lemma play_handleLine (n : Nat) (s : Session) (line : String) :
    (handleLine setting line).play w n s
      = (gather n s (dealWith setting w n s (valuesOf line))).withValue
          (lineReply line (dealWith setting w n s (valuesOf line))) := by
  unfold handleLine lineReply valuesOf
  dsimp only
  by_cases hblank : (Text.trim line).isEmpty = true
  · rw [if_pos hblank, if_pos hblank, String.isEmpty_iff.1 hblank, parse_blank]
    rfl
  · rw [if_neg hblank, if_neg hblank]
    cases hparse : Json.parse (Text.trim line) with
    | none => rfl
    | some v =>
      cases v with
      | array items =>
        refine (Dialogue.play_bind_pure w n s (handleBatch setting items) _).trans ?_
        rw [play_handleBatch]
        simp only [Course.withValue, List.map_map, Function.comp_def]
      | _ =>
        refine (Dialogue.play_bind_pure w n s (handleValue setting _) _).trans ?_
        rw [play_handleValue]
        simp [Course.withValue, dealWith, gather, Course.andThen, Dealing.reply]

/-- The dealings of a conversation, line by line. -/
def converse : Nat → Session → List String → List (List Dealing)
  | _, _, [] => []
  | n, s, line :: rest =>
    let dealings := dealWith setting w n s (valuesOf line)
    let c := gather n s dealings
    dealings :: converse c.clock c.session rest

/-- **The course of a conversation** is made up by its dealings, and so are the replies. -/
theorem play_handleLines (n : Nat) (s : Session) (lines : List String) :
    (handleLines setting lines).play w n s
      = (gather n s (converse setting w n s lines).flatten).withValue
          (lines.zipWith lineReply (converse setting w n s lines)) := by
  induction lines generalizing n s with
  | nil => rfl
  | cons line rest ih =>
    rw [handleLines, Dialogue.play_bind]
    simp only [Dialogue.play_bind_pure, play_handleLine, ih, converse, List.flatten_cons,
      gather_append, Course.andThen, Course.withValue, List.zipWith_cons_cons]

/-- The dealings of a conversation are those with all its values, one after another. -/
lemma flatten_converse (n : Nat) (s : Session) (lines : List String) :
    (converse setting w n s lines).flatten = dealWith setting w n s (lines.flatMap valuesOf) := by
  induction lines generalizing n s with
  | nil => rfl
  | cons line rest ih =>
    simp only [converse, List.flatten_cons, List.flatMap_cons, dealWith_append, ih]

end Dealings
end SilentScan
