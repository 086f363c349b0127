/-
Rows that stand for the same.

In the full layout a row stands for a transaction, in the layout of outputs for one output of it. In
a table of outputs a new row takes the place of the one for its output. In memory only the rows that
were there before a batch are replaced, and in the full layout none is in either kind of index: a
transaction that is added while it is unconfirmed, and again once it is in a block, has two rows
then. So an index holds nothing twice exactly as long as no batch brings in what the index would
keep twice.

* `IndexRow.subject`, `TableRow.subject`, `RawMatch.subject`: what a row or a match stands for;
* `Store.Once`, `Store.Admits`: that an index holds nothing twice, and that a batch leaves it so;
* `once_add`, `once_after`, `once_throughout_iff`: batches, changes and histories;
* `subjects_of_sent`: what a scan of such an index sends;
* `once_iff_admitted`: the whole, with `confirmed_transaction_found_twice` the exception.
-/
import SilentScan.Proofs.Index.Agreement
import SilentScan.Proofs.Scan.Lifetime

namespace SilentScan

/-! ### What rows stand for -/

/-- What a row stands for: a transaction, or one of its outputs. -/
def IndexRow.subject (mode : IndexMode) (row : IndexRow) : Txid × Option Nat :=
  match mode with
  | .full => (row.txid, none)
  | .utxoOnly => (row.txid, row.outputIndex)

/-- What a row of a table stands for. -/
def TableRow.subject (mode : IndexMode) (row : TableRow) : Cell × Int :=
  match mode with
  | .full => (row.txid, 0)
  | .utxoOnly => (row.txid, row.outputIndex)

/-- What a match stands for. -/
def RawMatch.subject (mode : IndexMode) (m : RawMatch) : Txid × Option Nat :=
  match mode with
  | .full => (m.txid, none)
  | .utxoOnly => (m.txid, m.outputIndex)

namespace Store

/-- That no two rows stand for the same. -/
def Once : Store → Prop
  | .memory ix => (ix.rows.map (·.subject ix.mode)).Nodup
  | .table ix => (ix.rows.map (·.subject ix.mode)).Nodup

instance : DecidablePred Once
  | .memory ix => inferInstanceAs (Decidable (ix.rows.map (·.subject ix.mode)).Nodup)
  | .table ix => inferInstanceAs (Decidable (ix.rows.map (·.subject ix.mode)).Nodup)

/-- Whether there is a row of a transaction. -/
def Mentions : Store → Txid → Prop
  | .memory ix, id => ∃ row ∈ ix.rows, row.txid = id
  | .table ix, id => ∃ row ∈ ix.rows, row.txid = .blob id

instance : (st : Store) → (id : Txid) → Decidable (st.Mentions id)
  | .memory ix, id => inferInstanceAs (Decidable (∃ row ∈ ix.rows, row.txid = id))
  | .table ix, id => inferInstanceAs (Decidable (∃ row ∈ ix.rows, row.txid = .blob id))

/-- That a batch brings in nothing that an index would keep twice. In the full layout, where no row
takes the place of another, it is to have no transaction twice and none that is there. In the layout
of outputs it is to have no output twice in memory; a table does not mind. -/
def Admits (st : Store) (txs : List IndexedTransaction) : Prop :=
  match st.mode, st with
  | .full, st => (txs.map (·.txid)).Nodup ∧ ∀ tx ∈ txs, ¬ st.Mentions tx.txid
  | .utxoOnly, .memory ix => (keptOutputs ix.minValue txs).Nodup
  | .utxoOnly, .table _ => True

/-! ### Batches -/

/-- Keys put behind others: nothing is there twice if the new ones are not among the old ones, nor
twice among themselves. -/
lemma nodup_append_map_iff {α β : Type} {key : α → β} (hkey : Function.Injective key)
    {held : List β} (hheld : held.Nodup) (new : List α) :
    (held ++ new.map key).Nodup ↔ new.Nodup ∧ ∀ a ∈ new, key a ∉ held := by
  rw [List.nodup_append, List.nodup_map_iff hkey]
  constructor
  · rintro ⟨-, hnew, hne⟩
    exact ⟨hnew, fun a ha hmem => hne _ hmem _ (List.mem_map_of_mem ha) rfl⟩
  · rintro ⟨hnew, hnot⟩
    refine ⟨hheld, hnew, fun a ha b hb hab => ?_⟩
    obtain ⟨c, hc, rfl⟩ := List.mem_map.1 hb
    exact hnot c hc (hab ▸ ha)

/-- In the full layout a batch has one row for each transaction. -/
lemma map_rows_full {α : Type} {f : IndexRow → α} (g : Txid → α) (hfg : ∀ row, f row = g row.txid)
    (minValue : Nat) (txs : List IndexedTransaction) :
    (txs.flatMap (·.rows .full minValue)).map f = (txs.map (·.txid)).map g := by
  induction txs with
  | nil => rfl
  | cons tx txs ih =>
    rw [List.flatMap_cons, List.map_append, ih]
    exact congrArg (· :: _) (hfg _)

lemma mentions_memory (ix : MemoryIndex) (id : Txid) :
    (memory ix).Mentions id ↔ (id, none) ∈ ix.rows.map (·.subject .full) := by
  simp [Mentions, IndexRow.subject]

lemma mentions_table (ix : TableIndex) (id : Txid) :
    (table ix).Mentions id ↔ (Cell.blob id, 0) ∈ ix.rows.map (·.subject .full) := by
  simp [Mentions, TableRow.subject]

lemma once_add_memory {ix : MemoryIndex} (once : (memory ix).Once)
    (txs : List IndexedTransaction) :
    (memory (ix.add txs).1).Once ↔ (memory ix).Admits txs := by
  obtain ⟨mode, minValue, rows, tip⟩ := ix
  cases mode with
  | full =>
    have hnew : (txs.flatMap (·.rows .full minValue)).map (·.subject .full)
        = (txs.map (·.txid)).map (·, none) := map_rows_full (·, none) (fun _ => rfl) minValue txs
    calc (memory (MemoryIndex.add ⟨.full, minValue, rows, tip⟩ txs).1).Once
        ↔ (rows.map (IndexRow.subject .full)
            ++ (txs.map IndexedTransaction.txid).map (·, none)).Nodup := by
          rw [← hnew, ← List.map_append]
          exact Iff.rfl
      _ ↔ (txs.map (·.txid)).Nodup
            ∧ ∀ id ∈ txs.map (·.txid), (id, none) ∉ rows.map (IndexRow.subject .full) :=
          nodup_append_map_iff (fun a b hab => (Prod.mk.inj hab).1) once _
      _ ↔ (memory ⟨.full, minValue, rows, tip⟩).Admits txs := by
          rw [List.forall_mem_map]
          exact and_congr_right fun _ => forall₂_congr fun _ _ =>
            not_congr (mentions_memory ⟨.full, minValue, rows, tip⟩ _).symm
  | utxoOnly =>
    have hnew : (txs.flatMap (·.rows .utxoOnly minValue)).map (·.subject .utxoOnly)
        = (keptOutputs minValue txs).map fun o => (o.txid, some o.vout) :=
      outputs_of_rows minValue txs
    simp only [Once, MemoryIndex.add, List.map_append]
    rw [List.nodup_append, hnew, List.nodup_map_iff outPoint_injective]
    refine ⟨fun h => h.2.1, fun h => ⟨List.Nodup.sublist (List.filter_sublist.map _) once, h, ?_⟩⟩
    -- a row that is kept is for none of the new outputs
    rintro _ hold _ hrow rfl
    rw [← hnew] at hrow
    obtain ⟨row, hmem, hsame⟩ := List.mem_map.1 hrow
    obtain ⟨old, hkept, heq⟩ := List.mem_map.1 hold
    obtain ⟨htxid, hindex⟩ := Prod.mk.inj (hsame.trans heq.symm)
    have hnone := (List.mem_filter.1 hkept).2
    rw [Bool.not_eq_true', List.any_eq_false] at hnone
    exact hnone row hmem (by simp [MemoryIndex.sameOutput, htxid, hindex])

/-- Insertion into a table of outputs leaves one row for each. -/
lemma nodup_insert {rows : List TableRow} (h : (rows.map (·.subject .utxoOnly)).Nodup)
    (row : TableRow) :
    ((TableIndex.insert .utxoOnly rows row).map (·.subject .utxoOnly)).Nodup := by
  rw [TableIndex.insert, List.map_append, List.nodup_append]
  refine ⟨h.sublist (List.filter_sublist.map _), List.nodup_singleton _, ?_⟩
  rintro _ hold _ hrow rfl
  obtain ⟨r, hr, hsame⟩ := List.mem_map.1 hold
  rw [List.map_singleton, List.mem_singleton] at hrow
  obtain ⟨htxid, hindex⟩ := Prod.mk.inj (hsame.trans hrow)
  simpa [htxid, hindex] using (List.mem_filter.1 hr).2

lemma nodup_foldl_insert {rows : List TableRow} (h : (rows.map (·.subject .utxoOnly)).Nodup)
    (new : List TableRow) :
    ((new.foldl (TableIndex.insert .utxoOnly) rows).map (·.subject .utxoOnly)).Nodup := by
  induction new generalizing rows with
  | nil => exact h
  | cons row new ih => exact ih (nodup_insert h row)

/-- In the full layout rows are only ever put behind the others. -/
lemma foldl_insert_append (new rows : List TableRow) :
    new.foldl (TableIndex.insert .full) rows = rows ++ new := by
  induction new generalizing rows with
  | nil => exact (List.append_nil _).symm
  | cons row new ih => rw [List.foldl_cons, ih, TableIndex.insert, List.append_assoc]; rfl

lemma rows_add (ix : TableIndex) (txs : List IndexedTransaction) :
    (ix.add txs).1.rows = ((txs.flatMap (·.rows ix.mode ix.minValue)).map
      TableIndex.encode).foldl (TableIndex.insert ix.mode) ix.rows :=
  TableIndex.rows_withRows ix _

lemma once_add_table {ix : TableIndex} (once : (table ix).Once) (txs : List IndexedTransaction) :
    (table (ix.add txs).1).Once ↔ (table ix).Admits txs := by
  have hrows := rows_add ix txs
  obtain ⟨mode, minValue, file, tip⟩ := ix
  cases mode with
  | full =>
    have hnew : ((txs.flatMap (·.rows .full minValue)).map TableIndex.encode).map (·.subject .full)
        = (txs.map (·.txid)).map (Cell.blob ·, 0) := by
      rw [List.map_map]
      exact map_rows_full (Cell.blob ·, 0) (fun _ => rfl) minValue txs
    calc (table (TableIndex.add ⟨.full, minValue, file, tip⟩ txs).1).Once
        ↔ (file.full.map (TableRow.subject .full)
            ++ (txs.map IndexedTransaction.txid).map (Cell.blob ·, 0)).Nodup := by
          rw [Once, hrows, foldl_insert_append, List.map_append, ← hnew]
          exact Iff.rfl
      _ ↔ (txs.map (·.txid)).Nodup
            ∧ ∀ id ∈ txs.map (·.txid), (Cell.blob id, 0) ∉ file.full.map (TableRow.subject .full) :=
          nodup_append_map_iff (fun a b hab => Cell.blob.inj (Prod.mk.inj hab).1) once _
      _ ↔ (table ⟨.full, minValue, file, tip⟩).Admits txs := by
          rw [List.forall_mem_map]
          exact and_congr_right fun _ => forall₂_congr fun _ _ =>
            not_congr (mentions_table ⟨.full, minValue, file, tip⟩ _).symm
  | utxoOnly =>
    refine ⟨fun _ => True.intro, fun _ => ?_⟩
    rw [Once, hrows]
    exact nodup_foldl_insert once _

/-- **A batch** leaves nothing twice exactly if it brings in nothing that would be kept twice. -/
lemma once_add {st : Store} (once : st.Once) (txs : List IndexedTransaction) :
    (st.add txs).1.Once ↔ st.Admits txs := by
  cases st with
  | memory ix => exact once_add_memory once txs
  | table ix => exact once_add_table once txs

/-! ### Changes and histories -/

lemma once_keep_memory {ix : MemoryIndex} (once : (memory ix).Once) (test : IndexRow → Bool) :
    (memory (ix.keep test).1).Once :=
  List.Nodup.sublist (List.filter_sublist.map _) once

lemma once_keep_table {ix : TableIndex} (once : (table ix).Once) (test : TableRow → Bool) :
    (table (ix.keep test).1).Once := by
  have hsub : (ix.keep test).1.rows.Sublist ix.rows := by
    rw [TableIndex.keep, TableIndex.rows_withRows]
    exact List.filter_sublist
  exact List.Nodup.sublist (hsub.map _) once

/-- **A change** leaves nothing twice unless it is a batch that brings something in. -/
lemma once_after {st : Store} (once : st.Once) (c : IndexChange) :
    (st.after c).Once ↔ ∀ txs, c = .add txs → st.Admits txs := by
  cases c with
  | add txs =>
    rw [after, change, once_add once]
    exact ⟨fun h txs' heq => IndexChange.add.inj heq ▸ h, fun h => h txs rfl⟩
  | spend spent =>
    refine ⟨fun _ _ heq => IndexChange.noConfusion heq, fun _ => ?_⟩
    cases st with
    | memory ix =>
      simp only [after, change, spend, MemoryIndex.spend]
      split
      · exact once
      · exact once_keep_memory once _
    | table ix =>
      simp only [after, change, spend, TableIndex.spend]
      split
      · exact once
      · exact once_keep_table once _
  | remove txids =>
    refine ⟨fun _ _ heq => IndexChange.noConfusion heq, fun _ => ?_⟩
    cases st with
    | memory ix => exact once_keep_memory once _
    | table ix => exact once_keep_table once _
  | rewind startHeight =>
    refine ⟨fun _ _ heq => IndexChange.noConfusion heq, fun _ => ?_⟩
    cases st with
    | memory ix => exact once_keep_memory once _
    | table ix => exact once_keep_table once fun row => row.height < startHeight

/-- **A history**: nothing is ever there twice exactly if every batch is admitted where it comes. -/
lemma once_throughout_iff {st : Store} (once : st.Once) (cs : List IndexChange) :
    (∀ history, history <+: cs → (st.afterAll history).Once)
      ↔ ∀ history txs, history ++ [.add txs] <+: cs → (st.afterAll history).Admits txs := by
  induction cs generalizing st with
  | nil =>
    refine ⟨fun _ history txs hearlier => ?_, fun _ history hearlier => ?_⟩
    · simp at hearlier
    · rw [List.prefix_nil.1 hearlier]
      exact once
  | cons c cs ih =>
    constructor
    · intro hall history txs hearlier
      have hafter : (st.after c).Once := hall [c] (by simp)
      cases history with
      | nil =>
        obtain ⟨heq, _⟩ := List.cons_prefix_cons.1 hearlier
        exact (once_after once c).1 hafter txs heq.symm
      | cons c' history =>
        obtain ⟨rfl, hrest⟩ := List.cons_prefix_cons.1 hearlier
        exact (ih hafter).1 (fun h hh => hall (c' :: h) (List.cons_prefix_cons.2 ⟨rfl, hh⟩))
          history txs hrest
    · intro hall history hearlier
      have hafter : (st.after c).Once :=
        (once_after once c).2 fun txs heq => hall [] txs (by simp [heq])
      cases history with
      | nil => exact once
      | cons c' history =>
        obtain ⟨rfl, hrest⟩ := List.cons_prefix_cons.1 hearlier
        exact (ih hafter).2 (fun h txs hh => hall (c' :: h) txs (List.cons_prefix_cons.2 ⟨rfl, hh⟩))
          history hrest

/-! ### Scans -/

/-- That the rows of a table are those of transactions that can occur. -/
def Written : Store → Prop
  | .memory _ => True
  | .table ix => ∀ r ∈ ix.rows, ∃ row : IndexRow, row.Fits ix.mode ∧ TableIndex.encode row = r

lemma written_keep {ix : TableIndex} (written : (table ix).Written) (test : TableRow → Bool) :
    (table (ix.keep test).1).Written := by
  intro r hr
  rw [TableIndex.keep, TableIndex.rows_withRows] at hr
  exact written r (List.mem_filter.1 hr).1

lemma written_after {st : Store} (written : st.Written) {c : IndexChange}
    (hfits : ∀ txs, c = .add txs → ∀ tx ∈ txs, tx.Fits) : (st.after c).Written := by
  cases st with
  | memory ix => cases c <;> exact True.intro
  | table ix =>
    cases c with
    | add txs =>
      intro r hr
      rcases TableIndex.mem_foldl_insert (rows_add ix txs ▸ hr) with hr | hr
      · exact written r hr
      · obtain ⟨row, hrow, rfl⟩ := List.mem_map.1 hr
        obtain ⟨tx, htx, hrow⟩ := List.mem_flatMap.1 hrow
        exact ⟨row, (hfits txs rfl tx htx).rows hrow, rfl⟩
    | spend spent =>
      simp only [after, change, spend, TableIndex.spend]
      split
      · exact written
      · exact written_keep written _
    | remove txids => exact written_keep written _
    | rewind startHeight => exact written_keep written fun row => row.height < startHeight

lemma mode_after (st : Store) (c : IndexChange) : (st.after c).mode = st.mode := by
  cases st with
  | memory ix =>
    cases c with
    | spend spent =>
      simp only [after, change, spend, mode, MemoryIndex.spend]
      split <;> rfl
    | _ => rfl
  | table ix =>
    cases c with
    | spend spent =>
      simp only [after, change, spend, mode, TableIndex.spend]
      split <;> rfl
    | _ => rfl

lemma written_afterAll {st : Store} (written : st.Written) (cs : List IndexChange)
    (hfits : ∀ txs, .add txs ∈ cs → ∀ tx ∈ txs, tx.Fits) :
    (st.afterAll cs).Written ∧ (st.afterAll cs).mode = st.mode := by
  induction cs generalizing st with
  | nil => exact ⟨written, rfl⟩
  | cons c cs ih =>
    have hafter := written_after written (c := c) fun txs heq =>
      hfits txs (heq ▸ List.mem_cons_self)
    obtain ⟨hrest, hmode⟩ := ih hafter fun txs htxs => hfits txs (List.mem_cons_of_mem _ htxs)
    exact ⟨hrest, hmode.trans (mode_after st c)⟩

/-- A walk in memory sends matches of rows, each at most once and in order. -/
lemma sublist_memory_walk (test : IndexRow → Except KeyError Bool) (cancelled taken : Nat → Bool)
    (i : Nat) (rows : List IndexRow) :
    (MemoryIndex.walk test cancelled taken i rows).1.Sublist (rows.map MemoryIndex.found) := by
  induction rows generalizing i with
  | nil => exact List.Sublist.refl _
  | cons row rows ih =>
    rw [MemoryIndex.walk, List.map_cons]
    split
    · exact List.nil_sublist _
    · split
      · exact List.nil_sublist _
      · exact (ih (i + 1)).cons _
      · split
        · exact (ih (i + 1)).cons_cons _
        · exact List.nil_sublist _

/-- A walk over a table sends matches of rows, each at most once and in order. -/
lemma sublist_table_walk {mode : IndexMode} (test : TableRow → Except KeyError Bool)
    (cancelled taken : Nat → Bool) (i : Nat) {rows : List IndexRow}
    (hrows : ∀ row ∈ rows, row.Fits mode) :
    (TableIndex.walk mode test cancelled taken i (rows.map TableIndex.encode)).1.Sublist
      (rows.map MemoryIndex.found) := by
  induction rows generalizing i with
  | nil => exact List.Sublist.refl _
  | cons row rows ih =>
    have ih := ih (i + 1) fun r hr => hrows r (List.mem_cons_of_mem _ hr)
    rw [List.map_cons, List.map_cons, TableIndex.walk]
    split
    · exact List.nil_sublist _
    · split
      · exact List.nil_sublist _
      · exact ih.cons _
      · rw [TableIndex.found_encode (hrows row List.mem_cons_self)]
        dsimp only
        split
        · exact ih.cons_cons _
        · exact List.nil_sublist _

/-- Rows of a table that are those of transactions that can occur are encodings. -/
lemma exists_rows {mode : IndexMode} (rs : List TableRow)
    (h : ∀ r ∈ rs, ∃ row : IndexRow, row.Fits mode ∧ TableIndex.encode row = r) :
    ∃ rows : List IndexRow, rs = rows.map TableIndex.encode ∧ ∀ row ∈ rows, row.Fits mode := by
  induction rs with
  | nil => exact ⟨[], rfl, by simp⟩
  | cons r rs ih =>
    obtain ⟨⟨row, hrow, rfl⟩, hrest⟩ := List.forall_mem_cons.1 h
    obtain ⟨rows, rfl, hrows⟩ := ih hrest
    exact ⟨row :: rows, rfl, List.forall_mem_cons.2 ⟨hrow, hrows⟩⟩

lemma subject_found (mode : IndexMode) (row : IndexRow) :
    (MemoryIndex.found row).subject mode = row.subject mode := by
  cases mode <;> rfl

/-- Matches of rows that stand for different things stand for different things. -/
lemma nodup_subjects_of_sublist {mode : IndexMode} {rows : List IndexRow} {sent : List RawMatch}
    (hrows : (rows.map (·.subject mode)).Nodup)
    (hsent : sent.Sublist (rows.map MemoryIndex.found)) :
    (sent.map (·.subject mode)).Nodup := by
  refine List.Nodup.sublist (hsent.map _) ?_
  rw [List.map_map]
  exact (List.map_congr_left fun row _ => subject_found mode row) ▸ hrows

/-- What the encoding of a row stands for is told by what the row stands for. -/
lemma subject_encode (mode : IndexMode) (row : IndexRow) :
    (TableIndex.encode row).subject mode
      = (Cell.blob (row.subject mode).1, (((row.subject mode).2.getD 0 : Nat) : Int)) := by
  cases mode with
  | full => rfl
  | utxoOnly => cases h : row.outputIndex <;> simp [TableRow.subject, IndexRow.subject,
      TableIndex.encode, h]

/-- **What a scan sends** for an index that holds nothing twice stands for different things. -/
lemma subjects_of_sent {st : Store} (once : st.Once) (written : st.Written) (s : Scheme)
    (q : ScanQuery) (cancelled taken : Nat → Bool) :
    ((st.scan s q cancelled taken).sent.map (·.subject st.mode)).Nodup := by
  cases st with
  | memory ix =>
    rw [scan, MemoryIndex.scan]
    split
    · exact List.nodup_nil
    · have hcandidates : ((ix.candidates q).map (·.subject ix.mode)).Nodup :=
        List.Nodup.sublist (List.filter_sublist.map _) once
      exact nodup_subjects_of_sublist hcandidates (sublist_memory_walk _ _ _ _ _)
  | table ix =>
    rw [scan, TableIndex.scan]
    split
    · exact List.nodup_nil
    · obtain ⟨rows, heq, hrows⟩ := exists_rows (ix.candidates q) fun r hr =>
        written r (TableIndex.mem_rows_of_mem_candidates hr)
      have hcandidates : ((ix.candidates q).map (·.subject ix.mode)).Nodup :=
        ((TableIndex.candidates_perm ix q).map _).nodup_iff.2
          (List.Nodup.sublist (List.filter_sublist.map _) once)
      have hsubjects : (rows.map (·.subject ix.mode)).Nodup := by
        refine List.Nodup.of_map (fun p => (Cell.blob p.1, ((p.2.getD 0 : Nat) : Int))) ?_
        rw [List.map_map]
        rw [heq, List.map_map] at hcandidates
        exact (List.map_congr_left fun row _ => subject_encode ix.mode row) ▸ hcandidates
      simp only [heq]
      exact nodup_subjects_of_sublist hsubjects (sublist_table_walk _ _ _ _ hrows)

/-- **An index holds nothing twice** exactly as long as every batch brings in nothing that it would
keep twice. For an index of either kind, begun empty, and every history of changes: there is never a
second row for the same transaction, or in the layout of outputs for the same output, if and only if
every batch is admitted where it comes. And whenever there is none, no scan sends two matches for
the same transaction, or the same output. -/
theorem once_iff_admitted (mode : IndexMode) (minValue : Nat) (st : Store)
    (hst : st = memory { mode, minValue } ∨ st = table { mode, minValue })
    (cs : List IndexChange) (hfits : ∀ txs, .add txs ∈ cs → ∀ tx ∈ txs, tx.Fits) :
    ((∀ history, history <+: cs → (st.afterAll history).Once)
        ↔ ∀ history txs, history ++ [.add txs] <+: cs → (st.afterAll history).Admits txs)
      ∧ ∀ history, history <+: cs → (st.afterAll history).Once →
        ∀ (s : Scheme) (q : ScanQuery) (cancelled taken : Nat → Bool),
          (((st.afterAll history).scan s q cancelled taken).sent.map (·.subject mode)).Nodup := by
  have hempty : st.Once ∧ st.Written ∧ st.mode = mode := by
    rcases hst with rfl | rfl
    · exact ⟨List.nodup_nil, True.intro, rfl⟩
    · cases mode <;>
        exact ⟨List.nodup_nil, by simp [Written, TableIndex.rows, TableFile.table], rfl⟩
  obtain ⟨once, written, hmode⟩ := hempty
  refine ⟨once_throughout_iff once cs, fun history hearlier honce s q cancelled taken => ?_⟩
  obtain ⟨hwritten, hsame⟩ := written_afterAll written history
    fun txs htxs => hfits txs (hearlier.subset htxs)
  have hsent := subjects_of_sent honce hwritten s q cancelled taken
  rwa [hsame, hmode] at hsent

/-- A transaction that pays the wallet whose keys are the scalar one and the base point, where all
hashes are one: its output key is twice the base point. -/
def samplePayment (height : Int) : IndexedTransaction where
  txid := List.replicate 32 1
  height := height
  tweakKey := secp256k1.generator
  outputs := [⟨0, 50000, Bytes.ofNatBE 32
    0xC6047F9441ED7D6D3045406E95C07CD85C778E4B8CEF3CA7ABAC09B95C709EE5⟩]

lemma fits_samplePayment {height : Int} (h : 0 ≤ height ∧ height < 100) :
    (samplePayment height).Fits where
  txid := List.length_replicate
  height := by simp only [samplePayment, heightMin, heightMax]; omega
  index := by simp [samplePayment]

/-- The query of the wallet that the sample payment is for. -/
def sampleQuery : ScanQuery where
  scanKey := Bytes.ofNatBE 32 1
  spendKey := toRawKey secp256k1.generator
  labelKeys := []
  startHeight := none
  endHeight := none
  batchSize := none

/-- A transaction that is dropped before it is added again, now in a block, is there once, and no
scan finds it twice. -/
theorem once_if_dropped_before :
    let st := (memory { mode := .full, minValue := 0 }).afterAll
      [.add [samplePayment 0], .remove [(samplePayment 0).txid], .add [samplePayment 5]]
    st.Once ∧ ((st.scan plainScheme sampleQuery (fun _ => false) fun _ => true).sent.map
      (·.subject .full)).Nodup := by
  have hfits : ∀ txs, .add txs ∈ [IndexChange.add [samplePayment 0],
      .remove [(samplePayment 0).txid], .add [samplePayment 5]] → ∀ tx ∈ txs, tx.Fits := by
    intro txs htxs tx htx
    simp only [List.mem_cons, List.not_mem_nil, or_false, IndexChange.add.injEq, reduceCtorEq,
      false_or] at htxs
    rcases htxs with rfl | rfl <;> rw [List.mem_singleton.1 htx]
    · exact fits_samplePayment (by decide)
    · exact fits_samplePayment (by decide)
  obtain ⟨hiff, hscan⟩ := once_iff_admitted .full 0 _ (Or.inl rfl) _ hfits
  have honce := hiff.2 fun history txs hearlier => by
    match history with
    | [] =>
      obtain rfl : txs = [samplePayment 0] := by simpa using hearlier
      exact ⟨by decide, by decide⟩
    | [c] => simp at hearlier
    | [c, c'] =>
      obtain ⟨rfl, rfl, rfl⟩ : c = .add [samplePayment 0] ∧ c' = .remove [(samplePayment 0).txid]
          ∧ txs = [samplePayment 5] := by simpa using hearlier
      exact ⟨by decide, by decide⟩
    | c :: c' :: c'' :: rest => simp at hearlier
  have hwhole := honce _ (List.prefix_refl _)
  exact ⟨hwhole, hscan _ (List.prefix_refl _) hwhole plainScheme sampleQuery _ _⟩

/-- **A transaction that is added again once it is in a block** has two rows in the full layout, and
a scan finds it twice, in an index of either kind. So has an output, in memory, that a batch names
twice. -/
theorem confirmed_transaction_found_twice :
    (∀ st ∈ [memory { mode := .full, minValue := 0 }, table { mode := .full, minValue := 0 }],
        ¬ (st.afterAll [.add [samplePayment 0], .add [samplePayment 5]]).Once
          ∧ (((st.afterAll [.add [samplePayment 0], .add [samplePayment 5]]).scan plainScheme
                sampleQuery (fun _ => false) fun _ => true).sent.map fun m => (m.txid, m.height))
              = [((samplePayment 0).txid, 0), ((samplePayment 0).txid, 5)])
      ∧ ¬ ((memory { mode := .utxoOnly, minValue := 0 }).afterAll
            [.add [samplePayment 0, samplePayment 5]]).Once := by
  refine ⟨?_, by decide +kernel⟩
  simp only [List.forall_mem_cons, List.not_mem_nil, false_imp_iff, implies_true, and_true]
  exact ⟨⟨by decide +kernel, by decide +kernel⟩, by decide +kernel, by decide +kernel⟩

end Store
end SilentScan
