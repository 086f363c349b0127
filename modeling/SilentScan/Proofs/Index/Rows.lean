/-
The heights of the rows of an index.

An index takes in rows with the transactions of a batch and drops rows otherwise. So the rows of
an index that was begun empty or opened from a file stand at or below the indexed tip, those
outside the chain aside, and a scan finds nothing above it either.

* `Store.heights`: the heights of the rows, with `heights_add`, `heights_rewind` and the like for
  each change;
* `Store.Made`, `height_le_of_made`: no row of such an index is above zero and above the tip;
* `height_of_sent`: what a scan sends stands at the height of a row.
-/
import SilentScan.Proofs.Index.History

namespace SilentScan

namespace Store

/-- The heights of the rows of the layout in use. -/
def heights : Store → List Int
  | .memory ix => ix.rows.map (·.height)
  | .table ix => ix.rows.map (·.height)

lemma mem_heights_memory {ix : MemoryIndex} {row : IndexRow} (h : row ∈ ix.rows) :
    row.height ∈ (memory ix).heights :=
  List.mem_map_of_mem h

lemma mem_heights_table {ix : TableIndex} {row : TableRow} (h : row ∈ ix.rows) :
    row.height ∈ (table ix).heights :=
  List.mem_map_of_mem h

end Store

/-- The rows of a transaction stand at its height. -/
lemma height_of_mem_rows {mode : IndexMode} {minValue : Nat} {tx : IndexedTransaction}
    {row : IndexRow} (h : row ∈ tx.rows mode minValue) : row.height = tx.height := by
  cases mode with
  | full =>
    rw [IndexedTransaction.rows, List.mem_singleton] at h
    rw [h]
  | utxoOnly =>
    obtain ⟨o, _, rfl⟩ := List.mem_map.1 h
    rfl

/-- The rows of a batch stand at the heights of its transactions. -/
lemma height_of_mem_batch {mode : IndexMode} {minValue : Nat} {txs : List IndexedTransaction}
    {row : IndexRow} (h : row ∈ txs.flatMap (·.rows mode minValue)) :
    ∃ tx ∈ txs, tx.height = row.height := by
  obtain ⟨tx, htx, hrow⟩ := List.mem_flatMap.1 h
  exact ⟨tx, htx, (height_of_mem_rows hrow).symm⟩

namespace TableIndex

@[simp] lemma rows_withRows (ix : TableIndex) (rows : List TableRow) :
    (ix.withRows rows).rows = rows := by
  cases hm : ix.mode <;> simp [withRows, TableIndex.rows, TableFile.withTable, TableFile.table, hm]

/-- Insertion adds the row and keeps none that was not there. -/
lemma mem_insert {mode : IndexMode} {rows : List TableRow} {row r : TableRow}
    (h : r ∈ insert mode rows row) : r ∈ rows ∨ r = row := by
  cases mode with
  | full => simpa [insert] using h
  | utxoOnly =>
    simp only [insert, List.mem_append, List.mem_singleton] at h
    rcases h with h | h
    · exact Or.inl (List.mem_filter.1 h).1
    · exact Or.inr h

/-- Inserting several rows keeps none that was not there. -/
lemma mem_foldl_insert {mode : IndexMode} {new rows : List TableRow} {r : TableRow}
    (h : r ∈ new.foldl (insert mode) rows) : r ∈ rows ∨ r ∈ new := by
  induction new generalizing rows with
  | nil => exact Or.inl h
  | cons row new ih =>
    rcases ih h with h | h
    · rcases mem_insert h with h | rfl
      · exact Or.inl h
      · exact Or.inr List.mem_cons_self
    · exact Or.inr (List.mem_cons_of_mem _ h)

/-- A row is put somewhere among the others. -/
lemma mem_insertByHeight {row r : TableRow} {rows : List TableRow}
    (h : r ∈ insertByHeight row rows) : r = row ∨ r ∈ rows := by
  induction rows with
  | nil => simpa [insertByHeight] using h
  | cons r' rows ih =>
    rw [insertByHeight] at h
    split at h
    · simpa using h
    · rcases List.mem_cons.1 h with rfl | h
      · exact Or.inr List.mem_cons_self
      · exact (ih h).imp id (List.mem_cons_of_mem _)

/-- The candidates of a query are rows. -/
lemma mem_rows_of_mem_candidates {ix : TableIndex} {q : ScanQuery} {r : TableRow}
    (h : r ∈ ix.candidates q) : r ∈ ix.rows := by
  have key : ∀ (l acc : List TableRow),
      r ∈ l.foldl (fun acc row => insertByHeight row acc) acc → r ∈ acc ∨ r ∈ l := by
    intro l
    induction l with
    | nil => exact fun _ h => Or.inl h
    | cons row l ih =>
      intro acc h
      rcases ih _ h with h | h
      · rcases mem_insertByHeight h with rfl | h
        · exact Or.inr List.mem_cons_self
        · exact Or.inl h
      · exact Or.inr (List.mem_cons_of_mem _ h)
  rcases key _ [] h with h | h
  · simp at h
  · exact (List.mem_filter.1 h).1

end TableIndex

namespace Store

/-! ### What changes do to the heights -/

/-- An append brings in the heights of its batch and no others. -/
lemma heights_add {st : Store} {txs : List IndexedTransaction} {h : Int}
    (hmem : h ∈ (st.add txs).1.heights) : h ∈ st.heights ∨ ∃ tx ∈ txs, tx.height = h := by
  cases st with
  | memory ix =>
    obtain ⟨row, hrow, rfl⟩ := List.mem_map.1 hmem
    rcases List.mem_append.1 hrow with hrow | hrow
    · refine Or.inl (mem_heights_memory ?_)
      cases hm : ix.mode with
      | full => simpa [hm] using hrow
      | utxoOnly =>
        simp only [hm] at hrow
        exact (List.mem_filter.1 hrow).1
    · exact Or.inr (height_of_mem_batch hrow)
  | table ix =>
    obtain ⟨r, hr, rfl⟩ := List.mem_map.1 hmem
    have hr' : r ∈ ((txs.flatMap (·.rows ix.mode ix.minValue)).map TableIndex.encode).foldl
        (TableIndex.insert ix.mode) ix.rows := by
      have := TableIndex.rows_withRows ix (((txs.flatMap (·.rows ix.mode ix.minValue)).map
        TableIndex.encode).foldl (TableIndex.insert ix.mode) ix.rows)
      rw [← this]
      exact hr
    rcases TableIndex.mem_foldl_insert hr' with hr | hr
    · exact Or.inl (mem_heights_table hr)
    · obtain ⟨row, hrow, rfl⟩ := List.mem_map.1 hr
      exact Or.inr (height_of_mem_batch hrow)

/-- Rows that are kept by a test were there before. -/
lemma heights_keep_memory {ix : MemoryIndex} {test : IndexRow → Bool} {h : Int}
    (hmem : h ∈ (ix.keep test).1.rows.map (·.height)) :
    ∃ row ∈ ix.rows, test row = true ∧ row.height = h := by
  obtain ⟨row, hrow, rfl⟩ := List.mem_map.1 hmem
  obtain ⟨hin, ht⟩ := List.mem_filter.1 hrow
  exact ⟨row, hin, ht, rfl⟩

lemma heights_keep_table {ix : TableIndex} {test : TableRow → Bool} {h : Int}
    (hmem : h ∈ (ix.keep test).1.rows.map (·.height)) :
    ∃ row ∈ ix.rows, test row = true ∧ row.height = h := by
  obtain ⟨row, hrow, rfl⟩ := List.mem_map.1 hmem
  rw [TableIndex.keep, TableIndex.rows_withRows] at hrow
  obtain ⟨hin, ht⟩ := List.mem_filter.1 hrow
  exact ⟨row, hin, ht, rfl⟩

lemma heights_spend {st : Store} {spent : List OutPoint} {h : Int}
    (hmem : h ∈ (st.spend spent).1.heights) : h ∈ st.heights := by
  cases st with
  | memory ix =>
    cases hm : ix.mode with
    | full => simpa [spend, MemoryIndex.spend, hm] using hmem
    | utxoOnly =>
      simp only [spend, MemoryIndex.spend, hm] at hmem
      obtain ⟨row, hrow, _, rfl⟩ := heights_keep_memory hmem
      exact List.mem_map_of_mem hrow
  | table ix =>
    cases hm : ix.mode with
    | full => simpa [spend, TableIndex.spend, hm] using hmem
    | utxoOnly =>
      simp only [spend, TableIndex.spend, hm] at hmem
      obtain ⟨row, hrow, _, rfl⟩ := heights_keep_table hmem
      exact List.mem_map_of_mem hrow

lemma heights_remove {st : Store} {txids : List Txid} {h : Int}
    (hmem : h ∈ (st.remove txids).1.heights) : h ∈ st.heights := by
  cases st with
  | memory ix =>
    obtain ⟨row, hrow, _, rfl⟩ := heights_keep_memory hmem
    exact List.mem_map_of_mem hrow
  | table ix =>
    obtain ⟨row, hrow, _, rfl⟩ := heights_keep_table hmem
    exact List.mem_map_of_mem hrow

/-- A rewind leaves no row at its height or above. -/
lemma heights_rewind {st : Store} {startHeight h : Int}
    (hmem : h ∈ (st.rewind startHeight).1.heights) : h ∈ st.heights ∧ h < startHeight := by
  cases st with
  | memory ix =>
    obtain ⟨row, hrow, ht, rfl⟩ := heights_keep_memory hmem
    exact ⟨mem_heights_memory hrow, by simpa using ht⟩
  | table ix =>
    have hmem' : h ∈ (ix.keep fun row => row.height < startHeight).1.rows.map (·.height) := hmem
    obtain ⟨row, hrow, ht, rfl⟩ := heights_keep_table hmem'
    exact ⟨mem_heights_table hrow, by simpa using ht⟩

/-- A change brings in no heights but those of a batch that is added. -/
lemma heights_after {st : Store} {c : IndexChange} {h : Int} (hmem : h ∈ (st.after c).heights) :
    h ∈ st.heights ∨ ∃ txs, c = .add txs ∧ ∃ tx ∈ txs, tx.height = h := by
  cases c with
  | add txs => exact (heights_add hmem).imp_right fun hbatch => ⟨txs, rfl, hbatch⟩
  | spend spent => exact Or.inl (heights_spend hmem)
  | remove txids => exact Or.inl (heights_remove hmem)
  | rewind startHeight => exact Or.inl (heights_rewind hmem).1

/-! ### Rows and the tip -/

/-- An index that was begun empty or opened from a file, whatever has happened to it since. -/
inductive Made : Store → Prop where
  | empty (mode : IndexMode) (minValue : Nat) : Made (.memory { mode, minValue })
  | opened {file : TableFile} {mode : IndexMode} {minValue : Nat} {ix : TableIndex}
      (h : TableIndex.openFile file mode minValue = .ok ix) : Made (.table ix)
  | changed {st : Store} (h : Made st) (c : IndexChange) : Made (st.after c)

/-- No row of an opened file is above its tip. -/
lemma height_le_of_opened {file : TableFile} {mode : IndexMode} {minValue : Nat} {ix : TableIndex}
    (hopen : TableIndex.openFile file mode minValue = .ok ix) :
    ∀ row ∈ ix.rows, row.height ≤ ix.tip.lastIndexed := by
  intro row hrow
  cases hmax : TableIndex.maxHeight (file.table mode) with
  | error e =>
    rw [TableIndex.openFile, hmax] at hopen
    cases hopen
  | ok highest =>
    rw [TableIndex.openFile, hmax] at hopen
    cases hopen
    have hrow' : row ∈ file.table mode := hrow
    rw [TableIndex.maxHeight] at hmax
    split at hmax
    · rename_i hnone
      have hnil : file.table mode = [] := by simpa using hnone
      simp [hnil] at hrow'
    · rename_i m hm
      split at hmax
      · cases hmax
        exact (List.max?_eq_some_iff.1 hm).2 _ (List.mem_map_of_mem hrow')
      · cases hmax

/-- The rows of an index are at or below the tip, or outside the chain. -/
lemma height_le_of_made {st : Store} (made : Made st) :
    ∀ h ∈ st.heights, h ≤ 0 ∨ h ≤ st.tip.lastIndexed := by
  induction made with
  | empty mode minValue => exact fun h hmem => absurd hmem (by simp [heights])
  | opened hopen =>
    intro h hmem
    obtain ⟨row, hrow, rfl⟩ := List.mem_map.1 hmem
    exact Or.inr (height_le_of_opened hopen row hrow)
  | @changed st _ c ih =>
    intro h hmem
    rw [lastIndexed_after]
    cases c with
    | add txs =>
      simp only [tipStep]
      rcases heights_add hmem with hmem | ⟨tx, htx, rfl⟩
      · have := ih h hmem
        split <;> omega
      · cases htop : IndexTip.top? txs with
        | none =>
          have hnone := IndexTip.top?_eq_none_iff.1 htop
          exact Or.inl (Int.not_lt.1 fun hpos => hnone ⟨tx, htx, hpos⟩)
        | some m =>
          have := (IndexTip.top?_eq_some htop).2 tx htx
          exact Or.inr (by simp only; omega)
    | spend spent => exact ih h (heights_spend hmem)
    | remove txids => exact ih h (heights_remove hmem)
    | rewind startHeight =>
      obtain ⟨hmem, hlt⟩ := heights_rewind hmem
      have := ih h hmem
      simp only [tipStep]
      omega

/-! ### What a scan sends -/

/-- What a scan in memory sends on are rows. -/
lemma height_of_memory_walk {test : IndexRow → Except KeyError Bool} {cancelled taken : Nat → Bool}
    {i : Nat} {rows : List IndexRow} {m : RawMatch}
    (h : m ∈ (MemoryIndex.walk test cancelled taken i rows).1) :
    ∃ row ∈ rows, row.height = m.height := by
  induction rows generalizing i with
  | nil => simp [MemoryIndex.walk] at h
  | cons row rows ih =>
    have later : m ∈ (MemoryIndex.walk test cancelled taken (i + 1) rows).1 →
        ∃ r ∈ row :: rows, r.height = m.height := by
      intro h
      obtain ⟨r, hr, he⟩ := ih h
      exact ⟨r, List.mem_cons_of_mem _ hr, he⟩
    rw [MemoryIndex.walk] at h
    split at h
    · simp at h
    · split at h
      · simp at h
      · exact later h
      · split at h
        · rcases List.mem_cons.1 h with rfl | h
          · exact ⟨row, List.mem_cons_self, rfl⟩
          · exact later h
        · simp at h

/-- The match that is made of a row stands at its height. -/
lemma height_of_found {mode : IndexMode} {row : TableRow} {m : RawMatch}
    (h : TableIndex.found mode row = .ok m) : m.height = row.height := by
  unfold TableIndex.found at h
  split at h
  · split at h
    · cases h
      rfl
    · cases h
  · cases h

lemma height_of_table_walk {mode : IndexMode} {test : TableRow → Except KeyError Bool}
    {cancelled taken : Nat → Bool} {i : Nat} {rows : List TableRow} {m : RawMatch}
    (h : m ∈ (TableIndex.walk mode test cancelled taken i rows).1) :
    ∃ row ∈ rows, row.height = m.height := by
  induction rows generalizing i with
  | nil => simp [TableIndex.walk] at h
  | cons row rows ih =>
    have later : m ∈ (TableIndex.walk mode test cancelled taken (i + 1) rows).1 →
        ∃ r ∈ row :: rows, r.height = m.height := by
      intro h
      obtain ⟨r, hr, he⟩ := ih h
      exact ⟨r, List.mem_cons_of_mem _ hr, he⟩
    rw [TableIndex.walk] at h
    split at h
    · simp at h
    · split at h
      · simp at h
      · exact later h
      · split at h
        · simp at h
        · rename_i hit hfound
          split at h
          · rcases List.mem_cons.1 h with rfl | h
            · exact ⟨row, List.mem_cons_self, (height_of_found hfound).symm⟩
            · exact later h
          · simp at h

/-- **What a scan sends stands in the index**: at the height of one of its rows. -/
lemma height_of_sent {s : Scheme} {q : ScanQuery} {cancelled taken : Nat → Bool} {st : Store}
    {m : RawMatch} (h : m ∈ (st.scan s q cancelled taken).sent) : m.height ∈ st.heights := by
  cases st with
  | memory ix =>
    simp only [scan, MemoryIndex.scan] at h
    split at h
    · simp at h
    · obtain ⟨row, hrow, he⟩ := height_of_memory_walk h
      exact he ▸ mem_heights_memory (List.mem_filter.1 hrow).1
  | table ix =>
    simp only [scan, TableIndex.scan] at h
    split at h
    · simp at h
    · obtain ⟨row, hrow, he⟩ := height_of_table_walk h
      exact he ▸ mem_heights_table (TableIndex.mem_rows_of_mem_candidates hrow)

end Store

end SilentScan
