/-
A scan in memory while the index changes.

A scan of an index in memory copies the rows of its query and goes through them one by one. Before
each row it looks whether it has been cancelled; then it counts the row, matches it, and sends it on
if it is the wallet's. Between any two of these moves the index may be changed, and the scan may be
cancelled.

Throughout, the rows of the copy fall in two. There are those that the scan is done with, none of
which made the matcher fail, and of which those accepted have been sent; and there is the rest, at
whose first row the scan stands. Changes of the index do not matter for that, as the scan looks at
its copy, and a cancellation does not matter before the scan looks for it.

* `MemoryScan`, with `start`, `proceed`, `meet`, `play`: a scan under way, and what happens to it;
* `Stands`, `stands_meet`, `stands_play`: where the scan stands, after every turn;
* `moves_play`, `ended_of_moves`: a scan ends after two moves for each row and one more;
* `exists_walk`: when it has ended, it has come to what a walk over its rows comes to;
* `memoryScan_exact`: the whole.
-/
import SilentScan.Proofs.Index.Repetition
import SilentScan.Scan.Control

namespace SilentScan

/-- The index after a change. -/
def MemoryIndex.after (ix : MemoryIndex) : IndexChange → MemoryIndex
  | .add txs => (ix.add txs).1
  | .spend spent => (ix.spend spent).1
  | .remove txids => (ix.remove txids).1
  | .rewind startHeight => (ix.rewind startHeight).1

/-- Whether a height is one of a query, where a bound that is missing is none. -/
def ScanQuery.covers (q : ScanQuery) (height : Int) : Bool :=
  q.startHeight.all (· ≤ height) && q.endHeight.all (height ≤ ·)

/-- For heights that are words of 32 bits, a bound that is missing is the lowest or the highest. -/
lemma ScanQuery.inBounds_eq_covers (q : ScanQuery) {height : Int}
    (hword : heightMin ≤ height ∧ height ≤ heightMax) : q.inBounds height = q.covers height := by
  obtain ⟨hmin, hmax⟩ := hword
  rw [inBounds, covers, low, high]
  cases q.startHeight <;> cases q.endHeight <;> simp [hmin, hmax]

/-! ### Scans under way -/

/-- Where a scan in memory stands among the rows of its copy. -/
inductive ScanStage where
  /-- It is about to look whether it has been cancelled, before the first of these rows. -/
  | looking (rest : List IndexRow)
  /-- It is about to count and to match a row. -/
  | matching (row : IndexRow) (rest : List IndexRow)
  | ended (result : Except StorageError Unit)

/-- The number of moves that are left to a scan if nothing ends it before. -/
def ScanStage.moves : ScanStage → Nat
  | .looking rest => 2 * rest.length + 1
  | .matching _ rest => 2 * rest.length + 2
  | .ended _ => 0

/-- What happens around a scan: it makes a move, the index is changed, or the scan is cancelled. -/
inductive ScanTurn where
  | proceed
  | change (c : IndexChange)
  | cancel

namespace ScanTurn

/-- Whether a turn is a move of the scan. -/
def isMove : ScanTurn → Bool
  | .proceed => true
  | _ => false

end ScanTurn

/-- A scan of an index in memory, with the index as it is by now. -/
structure MemoryScan (H : Type) where
  index : MemoryIndex
  control : ScanControl H
  stage : ScanStage
  sent : List RawMatch := []

namespace MemoryScan

variable {H : Type} {q : ScanQuery} {test : IndexRow → Except KeyError Bool}
  {rows done rest : List IndexRow} {row : IndexRow} {sent : List RawMatch} {scan : MemoryScan H}

/-- The scan copies the rows of its query. -/
def start (q : ScanQuery) (ix : MemoryIndex) (control : ScanControl H) : MemoryScan H where
  index := ix
  control := control.setTotal (ix.candidates q).length
  stage := .looking (ix.candidates q)

/-- The scan makes a move. -/
def proceed (test : IndexRow → Except KeyError Bool) (scan : MemoryScan H) : MemoryScan H :=
  match scan.stage with
  | .looking [] => { scan with stage := .ended (.ok ()) }
  | .looking (row :: rest) =>
    if scan.control.cancelled then { scan with stage := .ended (.error .cancelled) }
    else { scan with stage := .matching row rest }
  | .matching row rest =>
    let scan := { scan with control := scan.control.record 1 }
    match test row with
    | .error e => { scan with stage := .ended (.error (.invalidData e.message)) }
    | .ok false => { scan with stage := .looking rest }
    | .ok true =>
      { scan with stage := .looking rest, sent := scan.sent ++ [MemoryIndex.found row] }
  | .ended _ => scan

/-- What happens to the scan. -/
def meet (test : IndexRow → Except KeyError Bool) (scan : MemoryScan H) : ScanTurn → MemoryScan H
  | .proceed => scan.proceed test
  | .change c => { scan with index := scan.index.after c }
  | .cancel => { scan with control := scan.control.cancel.1 }

/-- The scan after a course of turns. -/
def play (test : IndexRow → Except KeyError Bool) (scan : MemoryScan H) (course : List ScanTurn) :
    MemoryScan H :=
  course.foldl (meet test) scan

/-! ### Where a scan stands -/

/-- What is sent for some rows: the matches of those that are accepted, in order. -/
def due (test : IndexRow → Except KeyError Bool) (rows : List IndexRow) : List RawMatch :=
  (rows.filter (accepts test)).map MemoryIndex.found

/-- That a scan which has sent some matches is done with some rows. -/
structure DoneWith (test : IndexRow → Except KeyError Bool) (done : List IndexRow)
    (sent : List RawMatch) : Prop where
  clear : ∀ row ∈ done, ∃ b, test row = .ok b
  sent_eq : sent = due test done

namespace DoneWith

lemma nil : DoneWith test [] [] :=
  ⟨by simp, rfl⟩

/-- A row that is not the wallet's is passed over. -/
lemma skip (h : DoneWith test done sent) (hrow : test row = .ok false) :
    DoneWith test (done ++ [row]) sent where
  clear r hr := by
    rcases List.mem_append.1 hr with hr | hr
    · exact h.clear r hr
    · exact ⟨false, List.mem_singleton.1 hr ▸ hrow⟩
  sent_eq := by simp [h.sent_eq, due, accepts, hrow, Except.toOption]

/-- A row that is the wallet's is sent on. -/
lemma send (h : DoneWith test done sent) (hrow : test row = .ok true) :
    DoneWith test (done ++ [row]) (sent ++ [MemoryIndex.found row]) where
  clear r hr := by
    rcases List.mem_append.1 hr with hr | hr
    · exact h.clear r hr
    · exact ⟨true, List.mem_singleton.1 hr ▸ hrow⟩
  sent_eq := by simp [h.sent_eq, due, accepts, hrow, Except.toOption]

/-- What has been sent is a first part of what is due in all. -/
lemma isPrefix (h : DoneWith test done sent) (hrows : rows = done ++ rest) :
    sent <+: due test rows := by
  rw [h.sent_eq, hrows, due, due, List.filter_append, List.map_append]
  exact List.prefix_append _ _

end DoneWith

/-- That a scan stands where it has to among some rows: it is done with those before, and has
counted them. It ends well after the last row, and in another way before a row if it has been
cancelled, or at a row that makes the matcher fail. -/
def Stands (test : IndexRow → Except KeyError Bool) (rows : List IndexRow) (scan : MemoryScan H) :
    Prop :=
  ∃ done, DoneWith test done scan.sent ∧
    match scan.stage with
    | .looking rest => rows = done ++ rest ∧ scan.control.processed = done.length
    | .matching row rest => rows = done ++ row :: rest ∧ scan.control.processed = done.length
    | .ended (.ok ()) => rows = done ∧ scan.control.processed = done.length
    | .ended (.error e) => ∃ row rest, rows = done ++ row :: rest ∧
        (e = .cancelled ∧ scan.control.cancelled = true ∧ scan.control.processed = done.length
          ∨ ∃ k, test row = .error k ∧ e = .invalidData k.message
            ∧ scan.control.processed = done.length + 1)

/-- A move takes the scan to where it has to stand. -/
lemma stands_proceed (hlength : rows.length < 0x1_0000_0000_0000_0000)
    (h : Stands test rows scan) : Stands test rows (scan.proceed test) := by
  obtain ⟨index, control, stage, sent⟩ := scan
  obtain ⟨done, hdone, hstage⟩ := h
  cases stage with
  | ended result => exact ⟨done, hdone, hstage⟩
  | looking rest =>
    obtain ⟨hrows, hcount⟩ := hstage
    cases rest with
    | nil => exact ⟨done, hdone, by rw [hrows, List.append_nil], hcount⟩
    | cons row rest =>
      rw [proceed]
      dsimp only
      split
      · exact ⟨done, hdone, row, rest, hrows, Or.inl ⟨rfl, ‹_›, hcount⟩⟩
      · exact ⟨done, hdone, hrows, hcount⟩
  | matching row rest =>
    obtain ⟨hrows, hcount⟩ := hstage
    -- The counter does not come round, since it counts no more than the rows.
    have hcounted : (control.record 1).processed = done.length + 1 := by
      have hle : done.length + 1 ≤ rows.length := by
        rw [hrows, List.length_append, List.length_cons]
        omega
      have hcount : control.processed = done.length := hcount
      show (control.processed + 1) % 0x1_0000_0000_0000_0000 = done.length + 1
      rw [hcount]
      exact Nat.mod_eq_of_lt (by omega)
    have hmoved : rows = (done ++ [row]) ++ rest := by
      rw [hrows, List.append_assoc, List.singleton_append]
    have hall : (control.record 1).processed = (done ++ [row]).length := by
      rw [hcounted, List.length_append, List.length_singleton]
    rw [proceed]
    dsimp only
    split
    · exact ⟨done, hdone, row, rest, hrows, Or.inr ⟨_, ‹_›, rfl, hcounted⟩⟩
    · exact ⟨done ++ [row], hdone.skip ‹_›, hmoved, hall⟩
    · exact ⟨done ++ [row], hdone.send ‹_›, hmoved, hall⟩

/-- **Whatever happens**, the scan stands where it has to: a change of the index does not touch it,
and a cancellation leaves it where it is. -/
lemma stands_meet (hlength : rows.length < 0x1_0000_0000_0000_0000) (h : Stands test rows scan)
    (turn : ScanTurn) : Stands test rows (scan.meet test turn) := by
  cases turn with
  | proceed => exact stands_proceed hlength h
  | change c => exact h
  | cancel =>
    obtain ⟨index, control, stage, sent⟩ := scan
    obtain ⟨done, hdone, hstage⟩ := h
    refine ⟨done, hdone, ?_⟩
    match stage with
    | .looking rest => exact hstage
    | .matching row rest => exact hstage
    | .ended (.ok ()) => exact hstage
    | .ended (.error e) =>
      obtain ⟨row, rest, hrows, hend⟩ := hstage
      exact ⟨row, rest, hrows, hend.imp_left fun ⟨he, _, hcount⟩ => ⟨he, rfl, hcount⟩⟩

lemma stands_play (hlength : rows.length < 0x1_0000_0000_0000_0000) (h : Stands test rows scan)
    (course : List ScanTurn) : Stands test rows (scan.play test course) := by
  induction course generalizing scan with
  | nil => exact h
  | cons turn course ih => exact ih (stands_meet hlength h turn)

/-- A scan that starts stands before the first row of its copy. -/
lemma stands_start {ix : MemoryIndex} {control : ScanControl H} (hnew : control.processed = 0) :
    Stands test (ix.candidates q) (start q ix control) :=
  ⟨[], .nil, rfl, hnew⟩

namespace Stands

/-- What has been sent is a first part of what is due. -/
lemma isPrefix (h : Stands test rows scan) : scan.sent <+: due test rows := by
  obtain ⟨index, control, stage, sent⟩ := scan
  obtain ⟨done, hdone, hstage⟩ := h
  match stage with
  | .looking rest => exact hdone.isPrefix hstage.1
  | .matching row rest => exact hdone.isPrefix hstage.1
  | .ended (.ok ()) => exact hdone.isPrefix (hstage.1.trans (List.append_nil done).symm)
  | .ended (.error e) =>
    obtain ⟨row, rest, hrows, -⟩ := hstage
    exact hdone.isPrefix hrows

/-- A scan that has ended well has sent what is due, and has counted all rows. -/
lemma of_ok (h : Stands test rows scan) (hstage : scan.stage = .ended (.ok ())) :
    scan.sent = due test rows ∧ scan.control.processed = rows.length := by
  obtain ⟨done, hdone, hend⟩ := h
  rw [hstage] at hend
  obtain ⟨rfl, hcount⟩ := hend
  exact ⟨hdone.sent_eq, hcount⟩

/-- A scan that has not ended well has been cancelled, or has met a row that makes the matcher
fail. -/
lemma of_error (h : Stands test rows scan) {e : StorageError}
    (hstage : scan.stage = .ended (.error e)) :
    e = .cancelled ∧ scan.control.cancelled = true
      ∨ ∃ row ∈ rows, ∃ k, test row = .error k ∧ e = .invalidData k.message := by
  obtain ⟨done, hdone, hend⟩ := h
  rw [hstage] at hend
  obtain ⟨row, rest, rfl, ⟨he, hcancelled, -⟩ | ⟨k, hrow, he, -⟩⟩ := hend
  · exact Or.inl ⟨he, hcancelled⟩
  · exact Or.inr ⟨row, List.mem_append_right _ List.mem_cons_self, k, hrow, he⟩

/-- A scan that has not been cancelled ends well if no row makes the matcher fail. -/
lemma ok_of_clear (h : Stands test rows scan) {result : Except StorageError Unit}
    (hstage : scan.stage = .ended result) (huncancelled : ¬ scan.control.cancelled = true)
    (hclear : ∀ row ∈ rows, ∃ b, test row = .ok b) : result = .ok () := by
  cases result with
  | ok => rfl
  | error e =>
    rcases h.of_error hstage with ⟨-, hcancelled⟩ | ⟨row, hrow, k, herror, -⟩
    · exact absurd hcancelled huncancelled
    · obtain ⟨b, hb⟩ := hclear row hrow
      rw [herror] at hb
      cases hb

end Stands

/-! ### Counters and moves -/

/-- A move counts at most one row, and leaves fewer moves. -/
lemma proceed_frame (test : IndexRow → Except KeyError Bool) (scan : MemoryScan H) :
    ((scan.proceed test).control = scan.control
        ∨ (scan.proceed test).control = scan.control.record 1)
      ∧ (scan.proceed test).stage.moves ≤ scan.stage.moves - 1 := by
  obtain ⟨index, control, stage, sent⟩ := scan
  rw [proceed]
  match stage with
  | .looking [] => exact ⟨Or.inl rfl, Nat.zero_le _⟩
  | .looking (row :: rest) =>
    have hmoves : 2 * rest.length + 2 ≤ 2 * (row :: rest).length + 1 - 1 := by
      rw [List.length_cons]
      omega
    dsimp only
    split
    · exact ⟨Or.inl rfl, Nat.zero_le _⟩
    · exact ⟨Or.inl rfl, hmoves⟩
  | .matching row rest =>
    dsimp only
    split
    · exact ⟨Or.inr rfl, Nat.zero_le _⟩
    · exact ⟨Or.inr rfl, Nat.le_refl _⟩
    · exact ⟨Or.inr rfl, Nat.le_refl _⟩
  | .ended result => exact ⟨Or.inl rfl, Nat.le_refl _⟩

/-- The number of rows to look at is set once. -/
lemma total_play (course : List ScanTurn) :
    (scan.play test course).control.total = scan.control.total := by
  induction course generalizing scan with
  | nil => rfl
  | cons turn course ih =>
    refine ih.trans ?_
    cases turn with
    | proceed =>
      obtain ⟨hcontrol | hcontrol, -⟩ := proceed_frame test scan <;> rw [meet, hcontrol]
      rfl
    | change c => rfl
    | cancel => rfl

/-- Only a cancellation cancels the scan. -/
lemma cancelled_play {course : List ScanTurn}
    (h : (scan.play test course).control.cancelled = true) :
    scan.control.cancelled = true ∨ .cancel ∈ course := by
  induction course generalizing scan with
  | nil => exact Or.inl h
  | cons turn course ih =>
    rcases ih h with h | hmem
    · cases turn with
      | proceed =>
        obtain ⟨hcontrol | hcontrol, -⟩ := proceed_frame test scan <;> rw [meet, hcontrol] at h
        · exact Or.inl h
        · exact Or.inl h
      | change c => exact Or.inl h
      | cancel => exact Or.inr List.mem_cons_self
    · exact Or.inr (List.mem_cons_of_mem _ hmem)

lemma moves_play (test : IndexRow → Except KeyError Bool) (scan : MemoryScan H)
    (course : List ScanTurn) :
    (scan.play test course).stage.moves ≤ scan.stage.moves - course.countP (·.isMove) := by
  induction course generalizing scan with
  | nil => exact Nat.le_refl _
  | cons turn course ih =>
    have hturn : (scan.meet test turn).stage.moves ≤ scan.stage.moves - turn.isMove.toNat := by
      cases turn with
      | proceed => exact (proceed_frame test scan).2
      | change c => exact Nat.le_refl _
      | cancel => exact Nat.le_refl _
    have hrest := ih (scan.meet test turn)
    have hcount : (turn :: course).countP (·.isMove)
        = course.countP (·.isMove) + turn.isMove.toNat := by
      rw [List.countP_cons]
      cases turn <;> rfl
    show ((scan.meet test turn).play test course).stage.moves ≤ _
    omega

/-- A scan ends, once it has been let make enough moves. -/
lemma ended_of_moves {course : List ScanTurn}
    (h : scan.stage.moves ≤ course.countP (·.isMove)) :
    ∃ result, (scan.play test course).stage = .ended result := by
  have hmoves : (scan.play test course).stage.moves = 0 := by
    have := moves_play test scan course
    omega
  cases hstage : (scan.play test course).stage with
  | ended result => exact ⟨result, rfl⟩
  | looking rest => simp [hstage, ScanStage.moves] at hmoves
  | matching row rest => simp [hstage, ScanStage.moves] at hmoves

/-! ### The report of a scan -/

/-- A walk that is not found cancelled goes through rows that do not make the matcher fail. -/
lemma walk_append {cancelled : Nat → Bool} (rest : List IndexRow)
    (hclear : ∀ row ∈ done, ∃ b, test row = .ok b) {i : Nat}
    (hgoes : ∀ j < done.length, cancelled (i + j) = false) :
    MemoryIndex.walk test cancelled (fun _ => true) i (done ++ rest)
      = (due test done
          ++ (MemoryIndex.walk test cancelled (fun _ => true) (i + done.length) rest).1,
        (MemoryIndex.walk test cancelled (fun _ => true) (i + done.length) rest).2) := by
  induction done generalizing i with
  | nil => rfl
  | cons row done ih =>
    obtain ⟨⟨b, hrow⟩, hclear⟩ := List.forall_mem_cons.1 hclear
    have hhere : ¬ cancelled i = true := by
      rw [← Nat.add_zero i, hgoes 0 (Nat.zero_lt_succ _)]
      exact Bool.false_ne_true
    have hnext := ih hclear (i := i + 1) fun j hj => by
      rw [Nat.add_right_comm, Nat.add_assoc]
      exact hgoes (j + 1) (Nat.succ_lt_succ hj)
    rw [List.cons_append, MemoryIndex.walk, if_neg hhere, hrow, List.length_cons,
      ← Nat.add_assoc, Nat.add_right_comm i]
    cases b with
    | false => simp only [hnext, due, List.filter_cons, accepts, hrow]; rfl
    | true => simp only [hnext, due, List.filter_cons, accepts, hrow]; rfl

/-- **What a scan has come to** when it has ended is what a walk over its rows comes to that is
found cancelled where the scan was. -/
lemma exists_walk {result : Except StorageError Unit} (h : Stands test rows scan)
    (hstage : scan.stage = .ended result) :
    ∃ cancelled : Nat → Bool, MemoryIndex.walk test cancelled (fun _ => true) 0 rows
      = (scan.sent, scan.control.processed, result) := by
  obtain ⟨done, hdone, hend⟩ := h
  rw [hstage] at hend
  have hwalk : ∀ (cancelled : Nat → Bool) (rest : List IndexRow),
      (∀ j < done.length, cancelled j = false) →
        MemoryIndex.walk test cancelled (fun _ => true) 0 (done ++ rest)
          = (scan.sent ++ (MemoryIndex.walk test cancelled (fun _ => true) done.length rest).1,
            (MemoryIndex.walk test cancelled (fun _ => true) done.length rest).2) := by
    intro cancelled rest hgoes
    have hgoes : ∀ j < done.length, cancelled (0 + j) = false := by simpa using hgoes
    have happend := walk_append rest hdone.clear hgoes
    rwa [Nat.zero_add, ← hdone.sent_eq] at happend
  -- A cancelled scan is one that is found cancelled before the row that it stands at, and no other.
  match result with
  | .ok () =>
    obtain ⟨rfl, hcount⟩ := hend
    have hwhole := hwalk (fun _ => false) [] fun _ _ => rfl
    rw [List.append_nil] at hwhole
    refine ⟨fun _ => false, hwhole.trans ?_⟩
    rw [hcount, MemoryIndex.walk, List.append_nil]
  | .error e =>
    obtain ⟨row, rest, rfl, ⟨rfl, -, hcount⟩ | ⟨k, hrow, rfl, hcount⟩⟩ := hend
    · refine ⟨(· == done.length), (hwalk _ (row :: rest) fun j hj => ?_).trans ?_⟩
      · exact beq_false_of_ne (Nat.ne_of_lt hj)
      · rw [hcount, MemoryIndex.walk, if_pos (beq_self_eq_true _), List.append_nil]
    · refine ⟨fun _ => false, (hwalk _ (row :: rest) fun _ _ => rfl).trans ?_⟩
      rw [hcount, MemoryIndex.walk, if_neg Bool.false_ne_true, hrow, List.append_nil]

end MemoryScan

/-- **A scan in memory is exact.** It starts on an index of rows whose heights are words of 32 bits
and whose number is a word of 64 bits, for keys that a matcher can be made of; then the index is
changed and the scan is cancelled in any way between its moves. What it has sent is at any time a
first part of what is due: the matches of the rows within the bounds at its start that the matcher
accepts, each once and in the order of the rows. After two moves for each row, and one more, it has
ended. It ends well if it is not cancelled and no row makes the matcher fail; if it ends well it has
sent what is due and counted all rows. It ends as cancelled only if it has been cancelled, and
otherwise only at a row that makes the matcher fail. And then it has come to what
`MemoryIndex.scan` reports of a scan that is found cancelled before certain rows. -/
theorem memoryScan_exact {H : Type} (s : Scheme) (q : ScanQuery) (m : Matcher)
    (hm : Matcher.ofBytes s q.scanKey q.spendKey q.labelKeys = .ok m) (ix : MemoryIndex)
    (hlength : ix.rows.length < 0x1_0000_0000_0000_0000)
    (hheights : ∀ row ∈ ix.rows, heightMin ≤ row.height ∧ row.height ≤ heightMax)
    (control : ScanControl H) (hnew : control.processed = 0) (course : List ScanTurn) :
    let test (row : IndexRow) := m.matchesRow s row.tweakKey row.prefixes
    let rows := ix.rows.filter (q.covers ·.height)
    let scan := (MemoryScan.start q ix control).play test course
    scan.sent <+: MemoryScan.due test rows
      ∧ scan.control.total = rows.length
      ∧ (2 * rows.length < course.countP (·.isMove) → ∃ result, scan.stage = .ended result)
      ∧ ∀ result, scan.stage = .ended result →
        (control.cancelled = false → .cancel ∉ course → (∀ row ∈ rows, ∃ b, test row = .ok b) →
            result = .ok ())
          ∧ (result = .ok () →
            scan.sent = MemoryScan.due test rows ∧ scan.control.processed = rows.length)
          ∧ (result = .error .cancelled → control.cancelled = true ∨ .cancel ∈ course)
          ∧ (∀ e, result = .error e → e = .cancelled
            ∨ ∃ row ∈ rows, ∃ k, test row = .error k ∧ e = .invalidData k.message)
          ∧ ∃ cancelled : Nat → Bool, ix.scan s q cancelled (fun _ => true)
            = { sent := scan.sent, processed := scan.control.processed,
                total := scan.control.total, result } := by
  intro test rows scan
  have hrows : ix.candidates q = rows :=
    List.filter_congr fun row hrow => q.inBounds_eq_covers (hheights row hrow)
  have hfits : rows.length < 0x1_0000_0000_0000_0000 :=
    Nat.lt_of_le_of_lt (List.length_filter_le _ _) hlength
  have hstands : MemoryScan.Stands test rows scan :=
    MemoryScan.stands_play hfits (hrows ▸ MemoryScan.stands_start hnew) course
  have htotal : scan.control.total = rows.length := by
    calc scan.control.total = (ix.candidates q).length := MemoryScan.total_play course
      _ = rows.length := by rw [hrows]
  refine ⟨hstands.isPrefix, htotal, fun hmoves => ?_, fun result hstage => ⟨?_, ?_, ?_, ?_, ?_⟩⟩
  · refine MemoryScan.ended_of_moves ?_
    show 2 * (ix.candidates q).length + 1 ≤ _
    rw [hrows]
    omega
  · intro huncancelled hmem hclear
    refine hstands.ok_of_clear hstage (fun hcancelled => ?_) hclear
    rcases MemoryScan.cancelled_play hcancelled with h | h
    · exact Bool.false_ne_true (huncancelled.symm.trans h)
    · exact hmem h
  · rintro rfl
    exact hstands.of_ok hstage
  · rintro rfl
    rcases hstands.of_error hstage with ⟨-, hcancelled⟩ | ⟨row, hrow, k, -, he⟩
    · exact MemoryScan.cancelled_play hcancelled
    · cases he
  · rintro e rfl
    exact (hstands.of_error hstage).imp_left And.left
  · obtain ⟨cancelled, hwalk⟩ := MemoryScan.exists_walk hstands hstage
    refine ⟨cancelled, ?_⟩
    rw [MemoryIndex.scan, hm]
    dsimp only
    rw [hrows, hwalk, htotal]

/-- The keys of the wallet that the sample payment is for. -/
def sampleMatcher : Matcher where
  scanKey := 1
  spendKey := secp256k1.generator
  labelKeys := []

/-- A query of the wallet up to height 5. -/
def sampleQueryTo5 : ScanQuery :=
  { Store.sampleQuery with endHeight := some 5 }

/-- An index with three payments to the wallet. -/
def samplePaidIndex : MemoryIndex :=
  ({ mode := .full, minValue := 0 } : MemoryIndex).after
    (.add [Store.samplePayment 4, Store.samplePayment 9, Store.samplePayment 5])

/-- Two of three payments are up to height 5. Both are sent, though all rows are dropped and another
payment comes in before the scan makes its second move. -/
theorem memoryScan_of_two_rows :
    let scan := (MemoryScan.start sampleQueryTo5 samplePaidIndex ({} : ScanControl Unit)).play
      (fun row => sampleMatcher.matchesRow plainScheme row.tweakKey row.prefixes)
      [.proceed, .change (.rewind 0), .change (.add [Store.samplePayment 3]), .proceed, .proceed,
        .proceed, .proceed]
    scan.stage = .ended (.ok ()) ∧ scan.sent.map (·.height) = [4, 5]
      ∧ scan.control.processed = 2 := by
  have hm : Matcher.ofBytes plainScheme sampleQueryTo5.scanKey sampleQueryTo5.spendKey
      sampleQueryTo5.labelKeys = .ok sampleMatcher := by decide +kernel
  have hheights : ∀ row ∈ samplePaidIndex.rows,
      heightMin ≤ row.height ∧ row.height ≤ heightMax := by decide
  have hcount : (samplePaidIndex.rows.filter (sampleQueryTo5.covers ·.height)).length = 2 := by
    decide
  have hclear : ((samplePaidIndex.rows.filter (sampleQueryTo5.covers ·.height)).all fun row =>
      (sampleMatcher.matchesRow plainScheme row.tweakKey row.prefixes).isOk) = true := by
    decide +kernel
  obtain ⟨-, -, hends, hended⟩ := memoryScan_exact plainScheme sampleQueryTo5 sampleMatcher hm
    samplePaidIndex (by decide) hheights ({} : ScanControl Unit) rfl
    [.proceed, .change (.rewind 0), .change (.add [Store.samplePayment 3]), .proceed, .proceed,
      .proceed, .proceed]
  obtain ⟨result, hstage⟩ := hends (by rw [hcount]; decide)
  obtain ⟨hok, hexact, -⟩ := hended result hstage
  obtain rfl := hok rfl (by simp) fun row hrow => by
    have hrow := List.all_eq_true.1 hclear row hrow
    cases htest : sampleMatcher.matchesRow plainScheme row.tweakKey row.prefixes with
    | ok b => exact ⟨b, htest⟩
    | error e => simp [htest, Except.isOk, Except.toBool] at hrow
  obtain ⟨hsent, hprocessed⟩ := hexact rfl
  rw [hcount] at hprocessed
  dsimp only at hsent hprocessed ⊢
  refine ⟨hstage, ?_, hprocessed⟩
  rw [hsent]
  decide +kernel

end SilentScan
