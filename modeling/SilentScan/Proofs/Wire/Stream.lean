/-
What the reader of a link makes of a stream.

Whatever the other server sends in a line that holds no frame, the link goes on as if the line had
not come, as long as every line is a text and within the greatest length. The first line that is
not one ends the reading: bytes that are no text break the stream, and a line that is too long is
passed over, but the stream says after it that it has ended. From then on the link is closed, and
whatever was registered has failed.

* `Bytes.lines`, `Bytes.Legible`: the lines of a stream, and that they can be read;
* `LinkTraffic.arrivals`: the steps of a link that are left of traffic without the idle lines;
* `LinkReader.run_eq_run_arrivals`: the course of a link whose stream is legible;
* `LinkTraffic.frames_log_arrivals`: the frames that are taken in;
* `LinkReader.lost_of_not_legible`: the end of a link whose stream is not legible;
* `LinkReader.goes_on_if_legible`: all of it, with `line_of_no_text_ends_reading` the exception.
-/
import SilentScan.Proofs.Json.Plain
import SilentScan.Proofs.Wire.Record
import SilentScan.Wire.Reader

namespace SilentScan

/-- The frame in a line of text, if it holds one. -/
def Frame.inText? (text : String) : Option Frame :=
  if (Text.trim text).isEmpty then none else (Frame.classify (Text.trim text)).toOption

/-- The notification that a frame is. -/
def Frame.notification? : Frame → Option Notification
  | .notification n => some n
  | .response _ => none

/-- The frame that has been taken in. -/
def LinkEvent.frame? : LinkEvent → Option Frame
  | .took f => some f
  | _ => none

/-- Whether a step is one of a caller, and so none of the reader and none that ends a link. -/
def LinkStep.ofCaller : LinkStep → Bool
  | .call _ | .proceed | .giveUp | .wrote | .writeFailed _ | .expire _ => true
  | .start | .receive _ | .markClosed | .stopReading | .failPending _ => false

/-! ### The lines of a stream -/

namespace Bytes

/-- The lines of a stream, of which the last is not finished. -/
def lines (stream : Bytes) : List Bytes :=
  stream.splitOn 10

/-- The text of a line, without the carriage return at its end. -/
def lineText? (line : Bytes) : Option String :=
  toText? (if line.getLast? = some 13 then line.dropLast else line)

/-- That every line of a stream is within the greatest length and, if it is finished, a text. -/
structure Legible (stream : Bytes) : Prop where
  short : ∀ line ∈ stream.lines, line.length ≤ maxLineLength
  text : ∀ line ∈ stream.lines.dropLast, (lineText? line).isSome = true

/-- The frames in the finished lines of a stream. -/
def frames (stream : Bytes) : List Frame :=
  stream.lines.dropLast.filterMap fun line => (lineText? line).bind Frame.inText?

/-- The texts of those lines that hold a frame. -/
def frameTexts (lines : List Bytes) : List String :=
  (lines.filterMap lineText?).filter fun text => (Frame.inText? text).isSome

variable {u : Bytes}

lemma lines_of_unfinished (hu : 10 ∉ u) : lines u = [u] :=
  List.splitOn_eq_singleton hu

lemma lines_finished (hu : 10 ∉ u) (rest : Bytes) : lines (u ++ 10 :: rest) = u :: lines rest := by
  rw [lines, List.splitOn_append_cons_self, List.splitOn_eq_singleton hu, List.singleton_append,
    lines]

lemma lines_ne_nil (stream : Bytes) : lines stream ≠ [] :=
  List.splitOn_ne_nil 10 stream

/-- The unfinished line goes on in the first line. -/
lemma exists_lines_unfinished (hu : 10 ∉ u) (rest : Bytes) :
    ∃ v more, lines (u ++ rest) = (u ++ v) :: more := by
  induction rest generalizing u with
  | nil => exact ⟨[], [], by simpa using lines_of_unfinished hu⟩
  | cons b rest ih =>
    by_cases hb : b = 10
    · subst hb
      exact ⟨[], lines rest, by rw [lines_finished hu, List.append_nil]⟩
    · obtain ⟨v, more, hlines⟩ := ih (u := u ++ [b]) (by simp [hu, Ne.symm hb])
      exact ⟨b :: v, more, by simpa using hlines⟩

lemma legible_of_unfinished (hu : 10 ∉ u) (hshort : u.length ≤ maxLineLength) : Legible u := by
  constructor <;> simp [lines_of_unfinished hu, hshort]

lemma frames_of_unfinished (hu : 10 ∉ u) : frames u = [] := by
  simp [frames, lines_of_unfinished hu]

lemma frames_finished (hu : 10 ∉ u) (rest : Bytes) :
    frames (u ++ 10 :: rest) = ((lineText? u).bind Frame.inText?).toList ++ frames rest := by
  rw [frames, lines_finished hu, List.dropLast_cons_of_ne_nil (lines_ne_nil rest),
    List.filterMap_cons]
  cases (lineText? u).bind Frame.inText? <;> rfl

/-- A stream is legible if its first line and the rest are. -/
lemma legible_finished (hu : 10 ∉ u) (rest : Bytes) :
    Legible (u ++ 10 :: rest)
      ↔ u.length ≤ maxLineLength ∧ (lineText? u).isSome = true ∧ Legible rest := by
  have hlines := lines_finished hu rest
  have hdrop : (lines (u ++ 10 :: rest)).dropLast = u :: (lines rest).dropLast := by
    rw [hlines, List.dropLast_cons_of_ne_nil (lines_ne_nil rest)]
  constructor
  · rintro ⟨hshort, htext⟩
    rw [hlines, List.forall_mem_cons] at hshort
    rw [hdrop, List.forall_mem_cons] at htext
    exact ⟨hshort.1, htext.1, hshort.2, htext.2⟩
  · rintro ⟨hshort, htext, hrest⟩
    refine ⟨?_, ?_⟩
    · rw [hlines, List.forall_mem_cons]
      exact ⟨hshort, hrest.short⟩
    · rw [hdrop, List.forall_mem_cons]
      exact ⟨htext, hrest.text⟩

/-- The unfinished line of a legible stream is within the greatest length. -/
lemma Legible.unfinished {rest : Bytes} (h : Legible (u ++ rest)) (hu : 10 ∉ u) :
    u.length ≤ maxLineLength := by
  obtain ⟨v, more, hlines⟩ := exists_lines_unfinished hu rest
  have hshort := h.short (u ++ v) (hlines ▸ List.mem_cons_self)
  rw [List.length_append] at hshort
  omega

end Bytes

namespace LinkTraffic

/-- The bytes that come. -/
def stream (traffic : List LinkTraffic) : Bytes :=
  traffic.flatMap fun
    | .bytes bs => bs
    | .step _ => []

/-- The steps of a link that traffic comes to: lines that hold a frame are received as soon as they
are finished, and nothing else of the stream. -/
def arrivals : (unfinished : Bytes) → List LinkTraffic → List LinkStep
  | _, [] => []
  | unfinished, .step s :: rest => s :: arrivals unfinished rest
  | unfinished, .bytes bs :: rest =>
    let lines := Bytes.lines (unfinished ++ bs)
    (Bytes.frameTexts lines.dropLast).map .receive ++ arrivals (lines.getLastD []) rest

/-- Traffic step by step and byte by byte. -/
lemma ind {P : List LinkTraffic → Prop} (nil : P [])
    (step : ∀ s rest, P rest → P (.step s :: rest)) (empty : ∀ rest, P rest → P (.bytes [] :: rest))
    (byte : ∀ b bs rest, P (.bytes bs :: rest) → P (.bytes (b :: bs) :: rest))
    (traffic : List LinkTraffic) : P traffic := by
  induction traffic with
  | nil => exact nil
  | cons t rest ih =>
    cases t with
    | step s => exact step s rest ih
    | bytes bs =>
      induction bs with
      | nil => exact empty rest ih
      | cons b bs ihb => exact byte b bs rest ihb

variable {u : Bytes} (rest : List LinkTraffic)

@[simp] lemma stream_step (s : LinkStep) : stream (.step s :: rest) = stream rest := rfl

@[simp] lemma stream_bytes (bs : Bytes) : stream (.bytes bs :: rest) = bs ++ stream rest := rfl

lemma arrivals_empty (hu : 10 ∉ u) : arrivals u (.bytes [] :: rest) = arrivals u rest := by
  simp [arrivals, Bytes.lines_of_unfinished hu, Bytes.frameTexts]

lemma arrivals_finished (hu : 10 ∉ u) (bs : Bytes) :
    arrivals u (.bytes (10 :: bs) :: rest)
      = (Bytes.frameTexts [u]).map .receive ++ arrivals [] (.bytes bs :: rest) := by
  have hne := Bytes.lines_ne_nil bs
  have hsplit : Bytes.frameTexts (u :: (Bytes.lines bs).dropLast)
      = Bytes.frameTexts [u] ++ Bytes.frameTexts (Bytes.lines bs).dropLast := by
    rw [← List.singleton_append, Bytes.frameTexts, List.filterMap_append, List.filter_append]
    rfl
  have hlast : (u :: Bytes.lines bs).getLastD [] = (Bytes.lines bs).getLastD [] := by
    cases hlines : Bytes.lines bs with
    | nil => exact absurd hlines hne
    | cons line more => rfl
  simp only [arrivals, Bytes.lines_finished hu, List.nil_append, List.dropLast_cons_of_ne_nil hne,
    hsplit, hlast, List.map_append, List.append_assoc]

lemma arrivals_unfinished (b : UInt8) (bs : Bytes) :
    arrivals u (.bytes (b :: bs) :: rest) = arrivals (u ++ [b]) (.bytes bs :: rest) := by
  simp only [arrivals, List.append_assoc, List.singleton_append]

end LinkTraffic

/-! ### One byte after another -/

namespace LineSplitter

/-- The splitter of a link when a line has begun with some bytes. -/
def holding (u : Bytes) : LineSplitter :=
  { limit := some maxLineLength, reversed := u.reverse, length := u.length }

lemma take_found (items : List LineItem) (s : LineSplitter) (b : UInt8) :
    take (items, s) b = ((take ([], s) b).1 ++ items, (take ([], s) b).2) := by
  unfold take
  dsimp only
  split_ifs <;> rfl

lemma foldl_take_found (bs : Bytes) (items : List LineItem) (s : LineSplitter) :
    bs.foldl take (items, s)
      = ((bs.foldl take ([], s)).1 ++ items, (bs.foldl take ([], s)).2) := by
  induction bs generalizing items s with
  | nil => rfl
  | cons b bs ih =>
    rw [List.foldl_cons, List.foldl_cons, take_found, ih, ih (take ([], s) b).1, List.append_assoc]

lemma feed_cons (s : LineSplitter) (b : UInt8) (bs : Bytes) :
    s.feed (b :: bs)
      = ((take ([], s) b).1.reverse ++ ((take ([], s) b).2.feed bs).1,
          ((take ([], s) b).2.feed bs).2) := by
  simp only [feed, List.foldl_cons]
  rw [foldl_take_found bs (take ([], s) b).1, List.reverse_append]

/-- The line feed finishes a line. -/
lemma take_finished (u : Bytes) : take ([], holding u) 10 = ([itemOf u.reverse], holding []) := rfl

/-- Any other byte goes into the line if there is room. -/
lemma take_unfinished {u : Bytes} {b : UInt8} (hb : b ≠ 10) (hroom : u.length < maxLineLength) :
    take ([], holding u) b = ([], holding (u ++ [b])) := by
  have hlimit : ¬ some maxLineLength = some u.length := by
    rw [Option.some.injEq]
    omega
  simp [take, holding, hb, hlimit]

/-- A byte beyond the greatest length gives the line up. -/
lemma take_tooLong {u : Bytes} {b : UInt8} (hb : b ≠ 10) (hfull : u.length = maxLineLength) :
    (take ([], holding u) b).1 = [.tooLong] := by
  simp [take, holding, hb, hfull]

/-- What a finished line is. -/
lemma itemOf_reverse (u : Bytes) :
    itemOf u.reverse = (Bytes.lineText? u).elim .notText .line := by
  obtain rfl | ⟨v, b, rfl⟩ := u.eq_nil_or_concat
  · rfl
  · rw [List.concat_eq_append]
    by_cases hb : b = 13
    · have htext : Bytes.lineText? (v ++ [b]) = Bytes.toText? v := by simp [Bytes.lineText?, hb]
      rw [htext]
      cases h : Bytes.toText? v <;> simp [itemOf, hb, h]
    · have htext : Bytes.lineText? (v ++ [b]) = Bytes.toText? (v ++ [b]) := by
        simp [Bytes.lineText?, hb]
      rw [htext]
      cases h : Bytes.toText? (v ++ [b]) <;> simp [itemOf, hb, h]

end LineSplitter

/-! ### What the reader does -/

namespace Link

lemma readOn_of_not_reading {l : Link} (h : l.reading = false) (rs : List Reception) :
    l.readOn rs = (l, []) := by
  cases rs with
  | nil => rfl
  | cons r rs => simp [readOn, h]

lemma readOn_nil (l : Link) : l.readOn [] = (l, []) := rfl

lemma readOn_append (l : Link) (rs more : List Reception) :
    l.readOn (rs ++ more)
      = (((l.readOn rs).1.readOn more).1, (l.readOn rs).2 ++ ((l.readOn rs).1.readOn more).2) := by
  induction rs generalizing l with
  | nil => rfl
  | cons r rs ih =>
    cases hreading : l.reading with
    | true => simp only [List.cons_append, readOn, hreading, if_true, ih, List.append_assoc]
    | false => simp only [readOn_of_not_reading hreading, List.append_nil]

/-- A reader that has started does not go back to before its start. -/
lemma Change.started {l l' : Link} {effects : List LinkEffect} {events : List LinkEvent}
    (change : l.Change l' effects events) (h : l.started = true) : l'.started = true := by
  cases change <;> simp_all [failPending, cancel]

lemma started_run {l : Link} (h : l.started = true) (ss : List LinkStep) :
    (l.run ss).1.started = true := by
  induction ss generalizing l with
  | nil => exact h
  | cons s ss ih => exact ih ((l.change_step s).started h)

/-- While the reader takes in lines, it takes in the frame of a line. -/
lemma frame?_eq {l : Link} (hstarted : l.started = true) (text : String) :
    l.frame? text = if l.reading then Frame.inText? text else none := by
  unfold frame? Frame.inText?
  cases l.reading <;> cases (Text.trim text).isEmpty <;> simp [hstarted]

/-- What the reader does about a line of text is to receive it if it holds a frame. -/
lemma readOn_line {l : Link} (hstarted : l.started = true) (text : String) :
    l.readOn [.line text]
      = l.run (([text].filter fun text => (Frame.inText? text).isSome).map .receive) := by
  have hidle : l.reading = false ∨ Frame.inText? text = none →
      l.step (.receive text) = (l, []) := by
    intro h
    rw [step_receive, frame?_eq hstarted]
    rcases h with h | h <;> simp [h]
  cases hreading : l.reading with
  | false =>
    rw [readOn_of_not_reading hreading]
    cases hframe : Frame.inText? text <;> simp [hframe, run, hidle (.inl hreading)]
  | true =>
    cases hframe : Frame.inText? text <;>
      simp [readOn, hreading, Reception.steps, hframe, run, hidle]

end Link

namespace LinkReader

variable (rest : List LinkTraffic)

lemma run_bytes_empty (l : Link) (splitter : LineSplitter) :
    run ⟨l, splitter⟩ (.bytes [] :: rest) = run ⟨l, splitter⟩ rest := rfl

/-- The first of some bytes, with what the reader makes of it. -/
lemma run_bytes_cons {l : Link} {s s' : LineSplitter} {b : UInt8} {items : List LineItem}
    {read : Link × List LinkEffect} (htake : LineSplitter.take ([], s) b = (items, s'))
    (hread : l.readOn (items.reverse.flatMap Reception.ofItem) = read) (bs : Bytes) :
    run ⟨l, s⟩ (.bytes (b :: bs) :: rest)
      = ((run ⟨read.1, s'⟩ (.bytes bs :: rest)).1,
          read.2 ++ (run ⟨read.1, s'⟩ (.bytes bs :: rest)).2) := by
  simp only [run, step, feed, take, LineSplitter.feed_cons, htake, List.flatMap_append,
    Link.readOn_append, hread, List.append_assoc]

/-- The line feed of a line that is a text. -/
lemma run_bytes_finished {u : Bytes} {l : Link} (hstarted : l.started = true) {text : String}
    (htext : Bytes.lineText? u = some text) (bs : Bytes) :
    run ⟨l, .holding u⟩ (.bytes (10 :: bs) :: rest)
      = ((run ⟨(l.run ((Bytes.frameTexts [u]).map .receive)).1, .holding []⟩
            (.bytes bs :: rest)).1,
          (l.run ((Bytes.frameTexts [u]).map .receive)).2
            ++ (run ⟨(l.run ((Bytes.frameTexts [u]).map .receive)).1, .holding []⟩
              (.bytes bs :: rest)).2) := by
  have htake : LineSplitter.take ([], .holding u) 10 = ([.line text], .holding []) := by
    rw [LineSplitter.take_finished, LineSplitter.itemOf_reverse, htext, Option.elim]
  have htexts : Bytes.frameTexts [u]
      = [text].filter fun text => (Frame.inText? text).isSome := by
    rw [Bytes.frameTexts, List.filterMap_cons, htext]
    rfl
  rw [htexts]
  exact run_bytes_cons rest htake (Link.readOn_line hstarted text) bs

/-- **The course of a link whose stream is legible**: lines without frames might as well not have
come, and it does not matter how the stream is cut into pieces. -/
theorem run_eq_run_arrivals {u : Bytes} (hu : 10 ∉ u) {l : Link} (hstarted : l.started = true)
    {traffic : List LinkTraffic} (h : Bytes.Legible (u ++ LinkTraffic.stream traffic)) :
    ((run ⟨l, .holding u⟩ traffic).1.link, (run ⟨l, .holding u⟩ traffic).2)
      = l.run (LinkTraffic.arrivals u traffic) := by
  induction traffic using LinkTraffic.ind generalizing u l with
  | nil => rfl
  | step s rest ih =>
    have ih := ih hu (l := (l.step s).1) ((l.change_step s).started hstarted) h
    simp only [Prod.ext_iff] at ih ⊢
    simp only [run, step, LinkTraffic.arrivals, Link.run, ih, and_self]
  | empty rest ih =>
    rw [run_bytes_empty, LinkTraffic.arrivals_empty rest hu]
    exact ih hu hstarted h
  | byte b bs rest ih =>
    by_cases hb : b = 10
    · subst hb
      rw [LinkTraffic.stream_bytes, List.cons_append, Bytes.legible_finished hu] at h
      obtain ⟨-, htext, hrest⟩ := h
      obtain ⟨text, htext⟩ := Option.isSome_iff_exists.1 htext
      have hstarted' := Link.started_run hstarted ((Bytes.frameTexts [u]).map .receive)
      have ih := ih (u := []) List.not_mem_nil hstarted' hrest
      rw [LinkTraffic.arrivals_finished rest hu, Link.run_append, ← ih,
        run_bytes_finished rest hstarted htext]
    · have hu' : 10 ∉ u ++ [b] := by simp [hu, Ne.symm hb]
      have h' : Bytes.Legible ((u ++ [b]) ++ LinkTraffic.stream (.bytes bs :: rest)) := by
        simpa using h
      have hroom : u.length < maxLineLength := by
        have hshort := h'.unfinished hu'
        rw [List.length_append] at hshort
        exact hshort
      rw [LinkTraffic.arrivals_unfinished,
        run_bytes_cons rest (LineSplitter.take_unfinished hb hroom) (Link.readOn_nil l)]
      exact ih hu' hstarted h'

end LinkReader

/-! ### What the callers leave alone -/

namespace Link

/-- That a link takes in lines, is closed and has failed just as another one. -/
structure Alike (l l' : Link) : Prop where
  reading : l'.reading = l.reading
  closed : l'.closed = l.closed
  failed : l'.failed = l.failed

lemma Alike.trans {l m n : Link} (h : l.Alike m) (h' : m.Alike n) : l.Alike n :=
  ⟨h'.reading.trans h.reading, h'.closed.trans h.closed, h'.failed.trans h.failed⟩

/-- Callers that go on, and lines that come, neither close a link nor end the reading. -/
lemma alike_step (l : Link) {s : LinkStep} (hs : s.ofCaller = true ∨ ∃ text, s = .receive text) :
    l.Alike (l.step s).1 := by
  obtain hs | ⟨text, rfl⟩ := hs
  · cases s with
    | start | receive | markClosed | stopReading | failPending => cases hs
    | _ =>
      simp only [step, proceed, proceedTurn, register, endTurn, moveTo, cancel]
      repeat' split
      all_goals exact ⟨rfl, rfl, rfl⟩
  · rw [step_receive]
    split
    · exact ⟨rfl, rfl, rfl⟩
    · simp only [deliver]
      repeat' split
      all_goals exact ⟨rfl, rfl, rfl⟩
    · exact ⟨rfl, rfl, rfl⟩

lemma alike_run (l : Link) {ss : List LinkStep}
    (hss : ∀ s ∈ ss, s.ofCaller = true ∨ ∃ text, s = .receive text) : l.Alike (l.run ss).1 := by
  induction ss generalizing l with
  | nil => exact ⟨rfl, rfl, rfl⟩
  | cons s ss ih =>
    obtain ⟨hs, hss⟩ := List.forall_mem_cons.1 hss
    exact (l.alike_step hs).trans (ih _ hss)

end Link

lemma forall_mem_receive (texts : List String) :
    ∀ s ∈ texts.map LinkStep.receive, s.ofCaller = true ∨ ∃ text, s = .receive text := fun _ hs =>
  .inr ((List.mem_map.1 hs).imp fun _ h => h.2.symm)

namespace LinkTraffic

lemma mem_arrivals {u : Bytes} {traffic : List LinkTraffic}
    (hcallers : ∀ s, .step s ∈ traffic → s.ofCaller = true) :
    ∀ s ∈ arrivals u traffic, s.ofCaller = true ∨ ∃ text, s = .receive text := by
  induction traffic generalizing u with
  | nil => simp [arrivals]
  | cons t rest ih =>
    have hrest : ∀ s, .step s ∈ rest → s.ofCaller = true := fun s hs =>
      hcallers s (List.mem_cons_of_mem t hs)
    cases t with
    | step s =>
      exact List.forall_mem_cons.2 ⟨.inl (hcallers s List.mem_cons_self), ih hrest⟩
    | bytes bs =>
      intro s hs
      obtain hs | hs := List.mem_append.1 hs
      · exact forall_mem_receive _ s hs
      · exact ih hrest s hs

end LinkTraffic

/-! ### What has been dispatched -/

namespace Link

/-- Of a caller's step no frame is recorded, and of a line its frame. -/
lemma frames_events (l : Link) (s : LinkStep) :
    (l.events s).filterMap LinkEvent.frame?
      = match s with
        | .receive text => (l.frame? text).toList
        | _ => [] := by
  rw [events, List.filterMap_append, filterMap_noted (fun _ _ => rfl) (fun _ _ _ => rfl),
    List.append_nil]
  cases s with
  | receive text => cases hframe : l.frame? text <;> simp [met, hframe, LinkEvent.frame?]
  | _ => rfl

end Link

/-- **The frames of the finished lines are taken in**, all of them and in order. -/
theorem LinkTraffic.frames_log_arrivals {u : Bytes} (hu : 10 ∉ u) {l : Link}
    (hstarted : l.started = true) (hreading : l.reading = true) {traffic : List LinkTraffic}
    (hcallers : ∀ s, .step s ∈ traffic → s.ofCaller = true) :
    (l.log (arrivals u traffic)).filterMap LinkEvent.frame?
      = Bytes.frames (u ++ stream traffic) := by
  induction traffic using LinkTraffic.ind generalizing u l with
  | nil => simp [arrivals, Link.log, stream, Bytes.frames_of_unfinished hu]
  | step s rest ih =>
    obtain ⟨hs, hrest⟩ : s.ofCaller = true ∧ ∀ s, .step s ∈ rest → s.ofCaller = true := by
      simpa using hcallers
    have hframes : (l.events s).filterMap LinkEvent.frame? = [] := by
      rw [Link.frames_events]
      cases s with
      | receive => cases hs
      | _ => rfl
    rw [arrivals, Link.log, List.filterMap_append, hframes, List.nil_append, stream_step]
    exact ih hu ((l.change_step s).started hstarted)
      ((l.alike_step (.inl hs)).reading.trans hreading) hrest
  | empty rest ih =>
    rw [arrivals_empty rest hu, stream_bytes, List.nil_append]
    exact ih hu hstarted hreading (by simpa using hcallers)
  | byte b bs rest ih =>
    have hrest : ∀ s, .step s ∈ LinkTraffic.bytes bs :: rest → s.ofCaller = true := by
      simpa using hcallers
    by_cases hb : b = 10
    · subst hb
      have hframes : (l.log ((Bytes.frameTexts [u]).map .receive)).filterMap LinkEvent.frame?
          = ((Bytes.lineText? u).bind Frame.inText?).toList := by
        cases htext : Bytes.lineText? u with
        | none => simp [Bytes.frameTexts, htext, Link.log]
        | some text =>
          cases hframe : Frame.inText? text <;>
            simp [Bytes.frameTexts, htext, hframe, Link.log, Link.frames_events,
              Link.frame?_eq hstarted, hreading]
      rw [arrivals_finished rest hu, Link.log_append, List.filterMap_append, hframes, stream_bytes,
        List.cons_append, Bytes.frames_finished hu]
      congr 1
      exact ih List.not_mem_nil (Link.started_run hstarted _)
        ((l.alike_run (forall_mem_receive _)).reading.trans hreading) hrest
    · have hu' : 10 ∉ u ++ [b] := by simp [hu, Ne.symm hb]
      rw [arrivals_unfinished, ih hu' hstarted hreading hrest]
      simp

/-! ### The end of the reading -/

/-- That a link is lost: it is closed, takes in no lines, and nothing is registered on it nor will
be. -/
structure Link.Lost (l : Link) : Prop where
  closed : l.closed = true
  reading : l.reading = false
  failed : l.failed.isSome = true
  pending : l.pending = []

namespace Link

lemma lost_run_loseSteps (l : Link) (e : TransportError) : (l.run (loseSteps e)).1.Lost :=
  ⟨rfl, rfl, rfl, rfl⟩

/-- Any fault of the stream ends the reading. -/
lemma lost_of_fault {l : Link} (hreading : l.reading = true) {item : LineItem}
    (hfault : item = .notText ∨ item = .tooLong) :
    (l.readOn (Reception.ofItem item)).1.Lost := by
  obtain rfl | rfl := hfault
  · have hlost := l.lost_run_loseSteps (.io "Unable to decode input as UTF8")
    simp only [Reception.ofItem, readOn, hreading, if_true, Reception.steps, hlost.reading]
    exact hlost
  · simp only [Reception.ofItem, readOn, hreading, if_true, Reception.steps, run]
    exact l.lost_run_loseSteps .closed

lemma Lost.step {l : Link} (h : l.Lost) {s : LinkStep} (hs : s.ofCaller = true) :
    (l.step s).1.Lost := by
  have alike := l.alike_step (.inl hs)
  refine ⟨alike.closed.trans h.closed, alike.reading.trans h.reading, ?_, ?_⟩
  · rw [alike.failed]
    exact h.failed
  · obtain ⟨-, -, hfailed, hpending⟩ := h
    have change := l.change_step s
    revert change
    generalize (l.step s).1 = l', (l.step s).2 = effects, l.events s = events
    rintro ⟨⟩ <;> simp_all [failPending]

end Link

namespace LinkReader

lemma lost_run {l : Link} (h : l.Lost) (splitter : LineSplitter) {traffic : List LinkTraffic}
    (hcallers : ∀ s, .step s ∈ traffic → s.ofCaller = true) :
    (run ⟨l, splitter⟩ traffic).1.link.Lost := by
  induction traffic generalizing l splitter with
  | nil => exact h
  | cons t rest ih =>
    have hrest : ∀ s, .step s ∈ rest → s.ofCaller = true := fun s hs =>
      hcallers s (List.mem_cons_of_mem t hs)
    cases t with
    | step s => exact ih (h.step (hcallers s List.mem_cons_self)) splitter hrest
    | bytes bs =>
      have hread := Link.readOn_of_not_reading h.reading
        ((splitter.feed bs).1.flatMap Reception.ofItem)
      have hfeed : (LinkReader.feed ⟨l, splitter⟩ bs).1 = ⟨l, (splitter.feed bs).2⟩ := by
        simp only [feed, take, hread]
      simp only [run, step, hfeed]
      exact ih h _ hrest

/-- **The first line that is no text or too long ends the reading.** -/
theorem lost_of_not_legible {u : Bytes} (hu : 10 ∉ u) (hshort : u.length ≤ maxLineLength) {l : Link}
    (hstarted : l.started = true) (hreading : l.reading = true) {traffic : List LinkTraffic}
    (hcallers : ∀ s, .step s ∈ traffic → s.ofCaller = true)
    (h : ¬ Bytes.Legible (u ++ LinkTraffic.stream traffic)) :
    (run ⟨l, .holding u⟩ traffic).1.link.Lost := by
  induction traffic using LinkTraffic.ind generalizing u l with
  | nil =>
    rw [LinkTraffic.stream, List.flatMap_nil, List.append_nil] at h
    exact absurd (Bytes.legible_of_unfinished hu hshort) h
  | step s rest ih =>
    obtain ⟨hs, hrest⟩ : s.ofCaller = true ∧ ∀ s, .step s ∈ rest → s.ofCaller = true := by
      simpa using hcallers
    exact ih hu hshort ((l.change_step s).started hstarted)
      ((l.alike_step (.inl hs)).reading.trans hreading) hrest h
  | empty rest ih =>
    exact ih hu hshort hstarted hreading (by simpa using hcallers) h
  | byte b bs rest ih =>
    have hrest : ∀ s, .step s ∈ LinkTraffic.bytes bs :: rest → s.ofCaller = true := by
      simpa using hcallers
    by_cases hb : b = 10
    · subst hb
      rw [LinkTraffic.stream_bytes, List.cons_append, Bytes.legible_finished hu] at h
      cases htext : Bytes.lineText? u with
      | none =>
        have htake : LineSplitter.take ([], .holding u) 10 = ([.notText], .holding []) := by
          rw [LineSplitter.take_finished, LineSplitter.itemOf_reverse, htext, Option.elim]
        rw [run_bytes_cons rest htake rfl]
        exact lost_run (Link.lost_of_fault hreading (.inl rfl)) _ hrest
      | some text =>
        rw [run_bytes_finished rest hstarted htext]
        have hlegible : ¬ Bytes.Legible (bs ++ LinkTraffic.stream rest) := fun hrest =>
          h ⟨hshort, by rw [htext, Option.isSome], hrest⟩
        exact ih List.not_mem_nil (Nat.zero_le _) (Link.started_run hstarted _)
          ((l.alike_run (forall_mem_receive _)).reading.trans hreading) hrest hlegible
    · by_cases hroom : u.length < maxLineLength
      · have hu' : 10 ∉ u ++ [b] := by simp [hu, Ne.symm hb]
        rw [run_bytes_cons rest (LineSplitter.take_unfinished hb hroom) (Link.readOn_nil l)]
        have hshort' : (u ++ [b]).length ≤ maxLineLength := by
          rw [List.length_append]
          exact hroom
        exact ih hu' hshort' hstarted hreading hrest (by simpa using h)
      · have hfull := LineSplitter.take_tooLong hb (Nat.le_antisymm hshort (Nat.le_of_not_lt hroom))
        rw [run_bytes_cons rest (Prod.ext hfull rfl) rfl]
        exact lost_run (Link.lost_of_fault hreading (.inr rfl)) _ hrest

/-- **A link goes on exactly if its stream is legible**, for as long as its callers only call. If
every line is within the greatest length and every finished one a text, the reader goes on, nothing
fails, all frames of the stream are taken in, in order, and their notifications handed on; and the
course of the link is that of one to which the lines with frames have come, and no others. If some
line is not, the link is lost. -/
theorem goes_on_if_legible {l : Link} (hstarted : l.started = true) (hreading : l.reading = true)
    {traffic : List LinkTraffic} (hcallers : ∀ s, .step s ∈ traffic → s.ofCaller = true) :
    let after := run { link := l } traffic
    let stream := LinkTraffic.stream traffic
    let steps := LinkTraffic.arrivals [] traffic
    (stream.Legible →
      l.Alike after.1.link ∧ (after.1.link, after.2) = l.run steps
        ∧ (l.log steps).filterMap LinkEvent.frame? = stream.frames
        ∧ after.2.filterMap LinkEffect.notification?
          = stream.frames.filterMap Frame.notification?)
    ∧ (¬ stream.Legible → after.1.link.Lost) := by
  intro after stream steps
  have hframes : (l.log steps).filterMap LinkEvent.frame? = stream.frames :=
    LinkTraffic.frames_log_arrivals List.not_mem_nil hstarted hreading hcallers
  refine ⟨fun h => ?_, lost_of_not_legible List.not_mem_nil (Nat.zero_le _) hstarted hreading
    hcallers⟩
  have hrun : (after.1.link, after.2) = l.run steps :=
    run_eq_run_arrivals List.not_mem_nil hstarted h
  obtain ⟨hlink, heffects⟩ : after.1.link = (l.run steps).1 ∧ after.2 = (l.run steps).2 :=
    Prod.ext_iff.1 hrun
  have hnews : ∀ x : LinkEvent, x.notification? = x.frame?.bind Frame.notification? := by
    rintro (_ | _ | (_ | _) | _ | _) <;> rfl
  refine ⟨?_, hrun, hframes, ?_⟩
  · rw [hlink]
    exact l.alike_run (LinkTraffic.mem_arrivals hcallers)
  · rw [heffects, Link.notifications_eq, ← hframes, List.filterMap_filterMap]
    exact congrArg₂ _ (funext hnews) rfl

/-- A line that holds a notification. -/
def newsLine : Bytes :=
  [123, 34, 109, 101, 116, 104, 111, 100, 34, 58, 34, 110, 34, 125, 10]

/-- A link whose first request waits for its response. -/
def waitingLink : Link :=
  (({} : Link).run
    [.call ⟨0, "m", .null⟩, .start, .proceed, .proceed, .proceed, .proceed, .wrote]).1

lemma inText?_news :
    Frame.inText? "\x7b\"method\":\"n\"\x7d"
      = some (.notification { method := "n", params := .null }) := by
  have htrim : Text.trim "\x7b\"method\":\"n\"\x7d" = "\x7b\"method\":\"n\"\x7d" := by
    decide +kernel
  have hprinted : (Json.object [("method", .string "n")]).text = "\x7b\"method\":\"n\"\x7d" := by
    decide +kernel
  have hparse : Json.parse "\x7b\"method\":\"n\"\x7d"
      = some (.object [("method", .string "n")]) := by
    rw [← hprinted, Json.parse_record (by simp [Json.plain_string])]
    rfl
  have hread : readJson Notification.decoder (.object [("method", .string "n")])
      = .ok { method := "n", params := .null } := rfl
  simp [Frame.inText?, htrim, Frame.classify, hparse, hread, Except.mapError, Except.map,
    Except.toOption]

lemma frames_newsLine :
    newsLine.frames = [.notification { method := "n", params := .null }] := by
  have htext : Bytes.lineText? (newsLine.take 14) = some "\x7b\"method\":\"n\"\x7d" := by decide
  have hline := Bytes.frames_finished (u := newsLine.take 14) (by decide) []
  rw [htext, Option.bind, inText?_news, Bytes.frames_of_unfinished List.not_mem_nil] at hline
  exact hline

/-- A line without a frame, a call, and a notification in two pieces: the notification is handed
on. -/
theorem goes_on_after_idle_line :
    let after := run { link := waitingLink }
      [.bytes (63 :: 10 :: newsLine.take 7), .step (.call ⟨1, "m", .null⟩),
        .bytes (newsLine.drop 7)]
    waitingLink.Alike after.1.link
      ∧ after.2.filterMap LinkEffect.notification? = [{ method := "n", params := .null }] := by
  have hstream : LinkTraffic.stream [.bytes (63 :: 10 :: newsLine.take 7),
      .step (.call ⟨1, "m", .null⟩), .bytes (newsLine.drop 7)] = 63 :: 10 :: newsLine := rfl
  have hlegible : Bytes.Legible (63 :: 10 :: newsLine) := ⟨by decide +kernel, by decide⟩
  have hidle : Frame.inText? "?" = none := Option.isNone_iff_eq_none.1 (by decide +kernel)
  have hframes := Bytes.frames_finished (u := [63]) (by decide) newsLine
  rw [show Bytes.lineText? [63] = some "?" by decide, Option.bind, hidle,
    frames_newsLine] at hframes
  have hcallers : ∀ s, LinkTraffic.step s ∈ [LinkTraffic.bytes (63 :: 10 :: newsLine.take 7),
      .step (.call ⟨1, "m", .null⟩), .bytes (newsLine.drop 7)] → s.ofCaller = true := by
    simp [LinkStep.ofCaller]
  have hcourse := goes_on_if_legible (l := waitingLink) (by rfl) (by rfl) hcallers
  dsimp only at hcourse
  rw [hstream] at hcourse
  obtain ⟨alike, -, -, hnews⟩ := hcourse.1 hlegible
  exact ⟨alike, hnews.trans (congrArg (List.filterMap Frame.notification?) hframes)⟩

/-- **A line that is no text ends the reading**: the request that waits fails, the link is closed,
and the notification in the next line is not handed on. -/
theorem line_of_no_text_ends_reading :
    let traffic := [LinkTraffic.bytes [255, 10], .bytes newsLine]
    let after := run { link := waitingLink } traffic
    waitingLink.started = true ∧ waitingLink.reading = true ∧ waitingLink.pending = [(1, 0)]
      ∧ (LinkTraffic.stream traffic).frames = [.notification { method := "n", params := .null }]
      ∧ after.1.link.Lost ∧ after.2 = []
      ∧ after.1.link.delivered = [(1, .error (.io "Unable to decode input as UTF8"))] := by
  have hframes := Bytes.frames_finished (u := [255]) (by decide) newsLine
  rw [show Bytes.lineText? [255] = none by decide, Option.bind, frames_newsLine] at hframes
  exact ⟨by rfl, by rfl, by rfl, hframes, ⟨by rfl, by rfl, by rfl, by rfl⟩, by rfl, by rfl⟩

end LinkReader

end SilentScan
