/-
The two kinds of index agree.

An index in a database keeps its rows in cells and gives them out by height, one in memory keeps
them as they are and in the order of their coming. Begun empty and changed alike, the table always
holds the encodings of the rows in memory, in the same order: an inserted row takes the place of one
for the same output just as the rows of a batch do in memory, as long as no batch has two rows for
one output. So both answer every change alike and find the same rows for every query.

* `TableIndex.prefixes_encode`, `TableIndex.found_encode`: nothing is lost in the cells;
* `TableIndex.foldl_insert_encode`: inserting a batch row by row is putting it behind the rows that
  it does not replace;
* `Mirrors`, `Mirrors.add`, `Mirrors.keep`, `Mirrors.scan`: the table holds the encodings of the
  rows in memory, which every change keeps and which makes scans agree;
* `Store.Twins`, `Twins.change`, `Twins.responses`: the same for whole histories;
* `memory_table_agree`: counts, announcements, heights and scans are the same.
-/
import Mathlib.Data.List.Nodup
import Mathlib.Data.List.Perm.Basic
import SilentScan.Proofs.Bytes.Order
import SilentScan.Proofs.Index.History
import SilentScan.Proofs.Index.Rows

namespace SilentScan

/-! ### Rows that a table can hold -/

/-- That a transaction is one that can occur: an id of 32 bytes, and words of 32 bits for the height
and the numbers of the outputs. -/
structure IndexedTransaction.Fits (tx : IndexedTransaction) : Prop where
  txid : tx.txid.length = 32
  height : heightMin ≤ tx.height ∧ tx.height ≤ heightMax
  index : ∀ o ∈ tx.outputs, o.index < 0x1_0000_0000

/-- That a row is one of such a transaction, in a layout. -/
structure IndexRow.Fits (mode : IndexMode) (row : IndexRow) : Prop where
  txid : row.txid.length = 32
  height : heightMin ≤ row.height ∧ row.height ≤ heightMax
  prefixes : ∀ p ∈ row.prefixes, p < 0x1_0000_0000_0000_0000
  layout : match mode with
    | .full => row.outputIndex = none
    | .utxoOnly => ∃ i p, i < 0x1_0000_0000 ∧ row.outputIndex = some i ∧ row.prefixes = [p]

/-- The prefix of an output key is a word of 64 bits. -/
lemma xonlyPrefix_lt (program : Bytes) : xonlyPrefix program < 0x1_0000_0000_0000_0000 := by
  have hlt := Bytes.toNatBE_lt (program.take 8)
  have hlen : (program.take 8).length ≤ 8 := by
    rw [List.length_take]
    omega
  calc xonlyPrefix program < 256 ^ (program.take 8).length := hlt
    _ ≤ 256 ^ 8 := Nat.pow_le_pow_right (by decide) hlen
    _ = 0x1_0000_0000_0000_0000 := by decide

/-- The rows of a transaction that can occur can occur. -/
lemma IndexedTransaction.Fits.rows {tx : IndexedTransaction} (fits : tx.Fits) {mode : IndexMode}
    {minValue : Nat} {row : IndexRow} (h : row ∈ tx.rows mode minValue) : row.Fits mode := by
  cases mode with
  | full =>
    obtain rfl : row = _ := List.mem_singleton.1 h
    refine ⟨fits.txid, fits.height, fun p hp => ?_, rfl⟩
    obtain ⟨o, _, rfl⟩ := List.mem_map.1 hp
    exact xonlyPrefix_lt _
  | utxoOnly =>
    obtain ⟨o, ho, rfl⟩ := List.mem_map.1 h
    refine ⟨fits.txid, fits.height, fun p hp => ?_, o.index, xonlyPrefix o.program,
      fits.index o (List.mem_filter.1 ho).1, rfl, rfl⟩
    rw [List.mem_singleton.1 hp]
    exact xonlyPrefix_lt _

/-! ### Cells -/

namespace Cell

/-- A word comes back from an integer cell, whatever its sign there. -/
lemma prefixes_ofWord {n : Nat} (h : n < 0x1_0000_0000_0000_0000) : (ofWord n).prefixes = [n] := by
  rw [ofWord, prefixes]
  split <;> simp <;> omega

/-- Words come back from the bytes of a blob. -/
lemma words_flatMap {ps : List Nat} (h : ∀ p ∈ ps, p < 0x1_0000_0000_0000_0000) {fuel : Nat}
    (hfuel : ps.length ≤ fuel) : words fuel (ps.flatMap (Bytes.ofNatBE 8)) = ps := by
  induction ps generalizing fuel with
  | nil => cases fuel <;> simp [words]
  | cons p ps ih =>
    obtain ⟨fuel, rfl⟩ : ∃ k, fuel = k + 1 := ⟨fuel - 1, by simp at hfuel; omega⟩
    have hlen : (Bytes.ofNatBE 8 p).length = 8 := Bytes.length_ofNatBE 8 p
    have hp : Bytes.toNatBE (Bytes.ofNatBE 8 p) = p :=
      Bytes.toNatBE_ofNatBE (lt_of_lt_of_eq (h p List.mem_cons_self) (by decide))
    have hrest : words fuel (ps.flatMap (Bytes.ofNatBE 8)) = ps :=
      ih (fun q hq => h q (List.mem_cons_of_mem _ hq)) (by simpa using hfuel)
    rw [List.flatMap_cons, words, if_neg (by simp [hlen]), List.take_left' hlen,
      List.drop_left' hlen, hp, hrest]

end Cell

namespace TableIndex

/-- The cell of a row's prefixes holds just these. -/
lemma prefixes_encode {mode : IndexMode} {row : IndexRow} (fits : row.Fits mode) :
    (encode row).outputs.prefixes = row.prefixes := by
  have hlayout := fits.layout
  cases mode with
  | full =>
    have hindex : row.outputIndex = none := hlayout
    have hlen : (row.prefixes.flatMap (Bytes.ofNatBE 8)).length = 8 * row.prefixes.length := by
      simp [List.length_flatMap, Nat.mul_comm]
    simp only [encode, hindex, Cell.prefixes]
    exact Cell.words_flatMap fits.prefixes (by omega)
  | utxoOnly =>
    obtain ⟨i, p, _, hindex, hprefixes⟩ := hlayout
    simp only [encode, hindex, hprefixes, List.headD_cons]
    exact Cell.prefixes_ofWord (fits.prefixes p (by simp [hprefixes]))

/-- What a scan sends on for the encoding of a row is what it sends on for the row. -/
lemma found_encode {mode : IndexMode} {row : IndexRow} (fits : row.Fits mode) :
    found mode (encode row) = .ok (MemoryIndex.found row) := by
  have hlayout := fits.layout
  have htxid : (encode row).txid = .blob row.txid := rfl
  unfold found MemoryIndex.found
  simp only [htxid]
  rw [if_pos fits.txid]
  cases mode with
  | full =>
    have hindex : row.outputIndex = none := hlayout
    rw [hindex]
    rfl
  | utxoOnly =>
    obtain ⟨i, p, hi, hindex, _⟩ := hlayout
    have hcell : (encode row).outputIndex = (i : Int) := by simp [encode, hindex]
    have hmod : ((i : Int) % 0x1_0000_0000).toNat = i := by omega
    simp only [hcell, hmod, hindex]
    rfl

/-! ### Batches -/

/-- In the layout of outputs the key of a table tells rows apart just as the output does. -/
lemma same_encode {a b : IndexRow} (ha : a.Fits .utxoOnly) (hb : b.Fits .utxoOnly) :
    ((encode b).txid == (encode a).txid && (encode b).outputIndex == (encode a).outputIndex)
      = MemoryIndex.sameOutput a b := by
  obtain ⟨i, _, _, hi, _⟩ := ha.layout
  obtain ⟨j, _, _, hj, _⟩ := hb.layout
  rw [Bool.eq_iff_iff]
  simp only [encode, MemoryIndex.sameOutput, hi, hj, Bool.and_eq_true, beq_iff_eq, Cell.blob.injEq,
    Option.getD_some, Nat.cast_inj, Option.some.injEq]
  exact and_congr eq_comm eq_comm

/-- A row is inserted in place of the rows for its output. -/
lemma insert_encode {rows : List IndexRow} {row : IndexRow} (hrows : ∀ r ∈ rows, r.Fits .utxoOnly)
    (hrow : row.Fits .utxoOnly) :
    insert .utxoOnly (rows.map encode) (encode row)
      = (rows.filter (fun r => !MemoryIndex.sameOutput row r) ++ [row]).map encode := by
  have hfilter : (rows.map encode).filter
      (fun r => !(r.txid == (encode row).txid && r.outputIndex == (encode row).outputIndex))
        = (rows.filter fun r => !MemoryIndex.sameOutput row r).map encode := by
    rw [List.filter_map]
    refine congrArg (List.map encode) (List.filter_congr fun r hr => ?_)
    exact congrArg (! ·) (same_encode hrow (hrows r hr))
  rw [insert, hfilter, List.map_append, List.map_singleton]

/-- **A batch inserted row by row**: without two rows for one output, the batch stands behind the
rows that it does not replace. -/
lemma foldl_insert_encode {new rows : List IndexRow} (hrows : ∀ r ∈ rows, r.Fits .utxoOnly)
    (hnew : ∀ r ∈ new, r.Fits .utxoOnly)
    (honce : new.Pairwise fun a b => MemoryIndex.sameOutput b a = false) :
    (new.map encode).foldl (insert .utxoOnly) (rows.map encode)
      = (rows.filter (fun r => !new.any (MemoryIndex.sameOutput · r)) ++ new).map encode := by
  induction new generalizing rows with
  | nil => simp
  | cons n new ih =>
    obtain ⟨hn, honce⟩ := List.pairwise_cons.1 honce
    have hfits : ∀ r ∈ rows.filter (fun r => !MemoryIndex.sameOutput n r) ++ [n],
        r.Fits .utxoOnly := by
      intro r hr
      rcases List.mem_append.1 hr with hr | hr
      · exact hrows r (List.mem_filter.1 hr).1
      · rw [List.mem_singleton.1 hr]
        exact hnew n List.mem_cons_self
    have hkept : (!new.any (MemoryIndex.sameOutput · n)) = true := by
      rw [Bool.not_eq_true', List.any_eq_false]
      exact fun m hm => by simp [hn m hm]
    rw [List.map_cons, List.foldl_cons, insert_encode hrows (hnew n List.mem_cons_self),
      ih hfits (fun r hr => hnew r (List.mem_cons_of_mem _ hr)) honce, List.filter_append,
      List.filter_filter, List.filter_singleton, hkept, cond_true, List.append_assoc,
      List.singleton_append]
    simp only [List.any_cons, Bool.not_or, Bool.and_comm]

/-- In the full layout a batch is put behind the rows. -/
lemma foldl_insert_full (new rows : List IndexRow) :
    (new.map encode).foldl (insert .full) (rows.map encode) = (rows ++ new).map encode := by
  induction new generalizing rows with
  | nil => simp
  | cons n new ih =>
    have hinsert : insert .full (rows.map encode) (encode n) = (rows ++ [n]).map encode := by
      simp [insert]
    rw [List.map_cons, List.foldl_cons, hinsert, ih, List.append_assoc, List.singleton_append]

/-! ### What comes out -/

/-- Rows are put in order of height, and none is lost or repeated. -/
lemma insertByHeight_perm (row : TableRow) (rows : List TableRow) :
    (insertByHeight row rows).Perm (row :: rows) := by
  induction rows with
  | nil => exact .refl _
  | cons r rows ih =>
    rw [insertByHeight]
    split
    · exact .refl _
    · exact (ih.cons r).trans (.swap row r rows)

lemma candidates_perm (ix : TableIndex) (q : ScanQuery) :
    (ix.candidates q).Perm (ix.rows.filter (q.inBounds ·.height)) := by
  have key : ∀ rows acc : List TableRow,
      (rows.foldl (fun acc row => insertByHeight row acc) acc).Perm (rows ++ acc) := by
    intro rows
    induction rows with
    | nil => exact fun acc => .refl _
    | cons row rows ih =>
      intro acc
      exact (ih _).trans (((insertByHeight_perm row acc).append_left rows).trans
        List.perm_middle)
  simpa [candidates] using key (ix.rows.filter (q.inBounds ·.height)) []

/-- The candidates among encoded rows are encoded rows, in some order. -/
lemma candidates_eq_map {ix : TableIndex} {rows : List IndexRow} (h : ix.rows = rows.map encode)
    (q : ScanQuery) :
    ∃ rows' : List IndexRow, rows'.Perm (rows.filter (q.inBounds ·.height)) ∧
      ix.candidates q = rows'.map encode := by
  have hperm : (ix.candidates q).Perm ((rows.filter (q.inBounds ·.height)).map encode) := by
    refine (candidates_perm ix q).trans (.of_eq ?_)
    rw [h, List.filter_map]
    rfl
  obtain ⟨rows', hrows', hperm'⟩ := List.perm_comp_forall₂ (r := fun a b => a = encode b) hperm
    (List.forall₂_map_left_iff.2 (List.forall₂_same.2 fun _ _ => rfl))
  refine ⟨rows', hperm', ?_⟩
  rw [← List.forall₂_eq_eq_eq, List.forall₂_map_right_iff]
  exact hrows'

/-- The highest height of rows that fit is read, or -1 where there are none. -/
lemma maxHeight_encode {mode : IndexMode} {rows : List IndexRow} (hrows : ∀ r ∈ rows, r.Fits mode) :
    maxHeight (rows.map encode) = .ok ((rows.map (·.height)).max?.getD (-1)) := by
  have hheights : (rows.map encode).map (·.height) = rows.map (·.height) := by
    rw [List.map_map]
    rfl
  rw [maxHeight, hheights]
  cases hmax : (rows.map (·.height)).max? with
  | none => rfl
  | some h =>
    obtain ⟨row, hrow, rfl⟩ := List.mem_map.1 (List.max?_eq_some_iff.1 hmax).1
    simp [(hrows row hrow).height]

end TableIndex

/-! ### Scans that are let go on -/

/-- Whether a row is found to be the wallet's. -/
def accepts {α : Type} (test : α → Except KeyError Bool) (row : α) : Bool :=
  (test row).toOption = some true

/-- What walking over rows comes to if nobody stops it: it ends well exactly if no row makes the
test fail, and then it has sent what belongs to the rows that the test accepts. -/
structure WalksThrough {α : Type} (test : α → Except KeyError Bool) (hit : α → RawMatch)
    (rows : List α) (w : List RawMatch × Nat × Except StorageError Unit) : Prop where
  ends : w.2.2 = .ok () ↔ ∀ row ∈ rows, ∃ b, test row = .ok b
  sends : w.2.2 = .ok () → w.1 = (rows.filter (accepts test)).map hit

section WalksThrough

variable {α : Type} {test : α → Except KeyError Bool} {hit : α → RawMatch} {row : α}
  {rows : List α} {w : List RawMatch × Nat × Except StorageError Unit}

lemma WalksThrough.nil {i : Nat} : WalksThrough test hit [] ([], i, .ok ()) :=
  ⟨by simp, fun _ => rfl⟩

/-- A walk ends at the first row that makes the test fail. -/
lemma WalksThrough.fail {e : KeyError} (htest : test row = .error e) {i : Nat} {e' : StorageError} :
    WalksThrough test hit (row :: rows) ([], i, .error e') :=
  ⟨by simp [htest], by simp⟩

/-- A row that is not the wallet's is passed over. -/
lemma WalksThrough.skip (htest : test row = .ok false) (h : WalksThrough test hit rows w) :
    WalksThrough test hit (row :: rows) w := by
  refine ⟨by simp [h.ends, htest], fun hw => ?_⟩
  rw [h.sends hw, List.filter_cons, if_neg (by simp [accepts, htest, Except.toOption])]

/-- A row that is the wallet's is sent on. -/
lemma WalksThrough.send (htest : test row = .ok true) (h : WalksThrough test hit rows w) :
    WalksThrough test hit (row :: rows) (hit row :: w.1, w.2.1, w.2.2) := by
  refine ⟨by simp [h.ends, htest], fun hw => ?_⟩
  rw [List.filter_cons, if_pos (by simp [accepts, htest, Except.toOption]), List.map_cons]
  exact congrArg (hit row :: ·) (h.sends hw)

/-- Walks over the same rows in different orders come to the same. -/
lemma WalksThrough.agree {test' : α → Except KeyError Bool} {rows' : List α}
    {w' : List RawMatch × Nat × Except StorageError Unit} (hperm : rows'.Perm rows)
    (htest : ∀ row ∈ rows', test' row = test row) (h : WalksThrough test hit rows w)
    (h' : WalksThrough test' hit rows' w') :
    (w.2.2 = .ok () ↔ w'.2.2 = .ok ()) ∧ (w.2.2 = .ok () → w.1.Perm w'.1) := by
  have hends : w.2.2 = .ok () ↔ w'.2.2 = .ok () := by
    rw [h.ends, h'.ends]
    refine ⟨fun hall row hrow => ?_, fun hall row hrow => ?_⟩
    · rw [htest row hrow]
      exact hall row (hperm.mem_iff.1 hrow)
    · have hrow' := hperm.mem_iff.2 hrow
      rw [← htest row hrow']
      exact hall row hrow'
  refine ⟨hends, fun hw => ?_⟩
  have hsame : rows'.filter (accepts test') = rows'.filter (accepts test) :=
    List.filter_congr fun row hrow => by rw [accepts, accepts, htest row hrow]
  rw [h.sends hw, h'.sends (hends.1 hw), hsame]
  exact ((hperm.filter _).map hit).symm

end WalksThrough

lemma MemoryIndex.walksThrough (test : IndexRow → Except KeyError Bool) (i : Nat)
    (rows : List IndexRow) :
    WalksThrough test found rows (walk test (fun _ => false) (fun _ => true) i rows) := by
  induction rows generalizing i with
  | nil => exact .nil
  | cons row rows ih =>
    rw [walk, if_neg Bool.false_ne_true]
    split
    · exact .fail ‹_›
    · exact (ih (i + 1)).skip ‹_›
    · exact (ih (i + 1)).send ‹_›

/-- A walk over a table of encoded rows. -/
lemma TableIndex.walksThrough {mode : IndexMode} (test : TableRow → Except KeyError Bool) (i : Nat)
    {rows : List IndexRow} (hrows : ∀ row ∈ rows, row.Fits mode) :
    WalksThrough (fun row => test (encode row)) MemoryIndex.found rows
      (walk mode test (fun _ => false) (fun _ => true) i (rows.map encode)) := by
  induction rows generalizing i with
  | nil => exact .nil
  | cons row rows ih =>
    have ih := ih (i + 1) fun r hr => hrows r (List.mem_cons_of_mem _ hr)
    rw [List.map_cons, walk, if_neg Bool.false_ne_true]
    split
    · exact .fail ‹_›
    · exact ih.skip ‹_›
    · rw [found_encode (hrows row List.mem_cons_self)]
      exact ih.send ‹_›

/-- That two scans come to the same: both end well or neither does, both were to look at the same
number of rows, and if they end well they have sent the same matches, in whatever order. -/
structure ScanReport.Agrees (a b : ScanReport) : Prop where
  result : a.result = .ok () ↔ b.result = .ok ()
  total : a.total = b.total
  sent : a.result = .ok () → a.sent.Perm b.sent

/-! ### Two indexes side by side -/

/-- That a table holds the encodings of the rows in memory, all of which fit. -/
structure Mirrors (mem : MemoryIndex) (tab : TableIndex) : Prop where
  mode : tab.mode = mem.mode
  minValue : tab.minValue = mem.minValue
  tip : tab.tip = mem.tip
  rows : tab.rows = mem.rows.map TableIndex.encode
  fits : ∀ row ∈ mem.rows, row.Fits mem.mode

/-- The outputs of a batch that get a row in the layout of outputs. -/
def keptOutputs (minValue : Nat) (txs : List IndexedTransaction) : List OutPoint :=
  txs.flatMap fun tx =>
    (tx.outputs.filter (minValue ≤ ·.value)).map fun o => { txid := tx.txid, vout := o.index }

/-- That a change is one that can occur, and that a batch in the layout of outputs names no output
twice. -/
def IndexChange.Fits (mode : IndexMode) (minValue : Nat) : IndexChange → Prop
  | .add txs => (∀ tx ∈ txs, tx.Fits) ∧ (mode = .utxoOnly → (keptOutputs minValue txs).Nodup)
  | _ => True

/-- In the layout of outputs the rows of a batch stand for the outputs that get one, in order. -/
lemma outputs_of_rows (minValue : Nat) (txs : List IndexedTransaction) :
    (txs.flatMap (·.rows .utxoOnly minValue)).map (fun r => (r.txid, r.outputIndex))
      = (keptOutputs minValue txs).map fun o => (o.txid, some o.vout) := by
  simp [keptOutputs, IndexedTransaction.rows, List.map_flatMap, Function.comp_def]

lemma outPoint_injective : Function.Injective fun o : OutPoint => (o.txid, some o.vout) := by
  intro a b hab
  cases a
  cases b
  simpa using hab

/-- Two rows of a batch that names no output twice are for different outputs. -/
lemma pairwise_rows {minValue : Nat} {txs : List IndexedTransaction}
    (honce : (keptOutputs minValue txs).Nodup) :
    (txs.flatMap (·.rows .utxoOnly minValue)).Pairwise
      fun a b => MemoryIndex.sameOutput b a = false := by
  have hnodup := honce.map outPoint_injective
  rw [← outputs_of_rows, List.Nodup, List.pairwise_map] at hnodup
  refine hnodup.imp fun {a b} hne => Bool.eq_false_iff.2 fun hsame => hne ?_
  simp only [MemoryIndex.sameOutput, Bool.and_eq_true, beq_iff_eq] at hsame
  rw [hsame.1, hsame.2]

namespace Mirrors

variable {mem : MemoryIndex} {tab : TableIndex}

lemma empty (mode : IndexMode) (minValue : Nat) :
    Mirrors { mode, minValue } { mode, minValue } :=
  ⟨rfl, rfl, rfl, by cases mode <;> rfl, by simp⟩

/-- Rows that are kept alike on both sides are dropped in the same number. -/
lemma keep (h : Mirrors mem tab) (test : IndexRow → Bool) (test' : TableRow → Bool)
    (htest : ∀ row ∈ mem.rows, test' (TableIndex.encode row) = test row) :
    Mirrors (mem.keep test).1 (tab.keep test').1 ∧ (mem.keep test).2 = (tab.keep test').2 := by
  have hrows : tab.rows.filter test' = (mem.rows.filter test).map TableIndex.encode := by
    rw [h.rows, List.filter_map]
    exact congrArg _ (List.filter_congr htest)
  refine ⟨⟨h.mode, h.minValue, h.tip, ?_, fun row hrow => ?_⟩, ?_⟩
  · rw [TableIndex.keep, TableIndex.rows_withRows, hrows]
    rfl
  · exact h.fits row (List.mem_filter.1 hrow).1
  · simp only [MemoryIndex.keep, TableIndex.keep, hrows]
    rw [h.rows, List.length_map, List.length_map]

/-- A batch comes into both alike. -/
lemma add (h : Mirrors mem tab) {txs : List IndexedTransaction}
    (hfits : (IndexChange.add txs).Fits mem.mode mem.minValue) :
    Mirrors (mem.add txs).1 (tab.add txs).1 ∧ (mem.add txs).2 = (tab.add txs).2 := by
  obtain ⟨htxs, honce⟩ := hfits
  have hbatch : ∀ row ∈ txs.flatMap (·.rows mem.mode mem.minValue), row.Fits mem.mode := by
    intro row hrow
    obtain ⟨tx, htx, hrow⟩ := List.mem_flatMap.1 hrow
    exact (htxs tx htx).rows hrow
  have hnew : txs.flatMap (·.rows tab.mode tab.minValue)
      = txs.flatMap (·.rows mem.mode mem.minValue) := by rw [h.mode, h.minValue]
  have hrows : ((txs.flatMap (·.rows tab.mode tab.minValue)).map TableIndex.encode).foldl
      (TableIndex.insert tab.mode) tab.rows = (mem.add txs).1.rows.map TableIndex.encode := by
    rw [hnew, h.mode, h.rows]
    unfold MemoryIndex.add
    cases hmode : mem.mode with
    | full => exact TableIndex.foldl_insert_full _ _
    | utxoOnly =>
      rw [hmode] at hbatch
      exact TableIndex.foldl_insert_encode (fun row hrow => hmode ▸ h.fits row hrow) hbatch
        (pairwise_rows (honce hmode))
  have happended : tab.tip.appended txs (txs.flatMap (·.rows tab.mode tab.minValue)).length
      = mem.tip.appended txs (txs.flatMap (·.rows mem.mode mem.minValue)).length := by
    rw [hnew, h.tip]
  refine ⟨⟨h.mode, h.minValue, congrArg Prod.fst happended, ?_, fun row hrow => ?_⟩, ?_⟩
  · exact (TableIndex.rows_withRows tab _).trans hrows
  · rcases List.mem_append.1 hrow with hrow | hrow
    · refine h.fits row ?_
      cases hmode : mem.mode with
      | full => simpa [hmode] using hrow
      | utxoOnly =>
        simp only [hmode] at hrow
        exact (List.mem_filter.1 hrow).1
    · exact hbatch row hrow
  · exact Prod.ext (congrArg List.length hnew.symm) (congrArg Prod.snd happended.symm :)

/-- Outputs are spent in both alike. -/
lemma spend (h : Mirrors mem tab) (spent : List OutPoint) :
    Mirrors (mem.spend spent).1 (tab.spend spent).1 ∧
      (mem.spend spent).2 = (tab.spend spent).2 := by
  rw [MemoryIndex.spend, TableIndex.spend, h.mode]
  cases hmode : mem.mode with
  | full => exact ⟨h, rfl⟩
  | utxoOnly =>
    refine h.keep _ _ fun row hrow => ?_
    obtain ⟨i, _, _, hi, _⟩ := (hmode ▸ h.fits row hrow).layout
    have hsame : ∀ o : OutPoint,
        ((TableIndex.encode row).txid == .blob o.txid
          && (TableIndex.encode row).outputIndex == (o.vout : Int))
          = (row.txid == o.txid && row.outputIndex == some o.vout) := by
      intro o
      rw [Bool.eq_iff_iff]
      simp [TableIndex.encode, hi]
    simp only [hsame]

/-- Transactions are dropped from both alike. -/
lemma remove (h : Mirrors mem tab) (txids : List Txid) :
    Mirrors (mem.remove txids).1 (tab.remove txids).1 ∧
      (mem.remove txids).2 = (tab.remove txids).2 := by
  obtain ⟨hmirrors, hcount⟩ := h.keep (fun row => !txids.contains row.txid)
    (fun row => !txids.any fun id => row.txid == .blob id) fun row _ => by
      rw [List.contains_eq_any_beq]
      have hsame : ∀ id : Txid, ((TableIndex.encode row).txid == .blob id) = (row.txid == id) := by
        intro id
        rw [Bool.eq_iff_iff]
        simp [TableIndex.encode]
      simp only [hsame]
  exact ⟨hmirrors, Prod.ext hcount rfl⟩

/-- Both are rewound alike. -/
lemma rewind (h : Mirrors mem tab) (startHeight : Int) :
    Mirrors (mem.rewind startHeight).1 (tab.rewind startHeight).1 ∧
      (mem.rewind startHeight).2 = (tab.rewind startHeight).2 := by
  obtain ⟨hmirrors, hcount⟩ := h.keep (fun row => row.height < startHeight)
    (fun row => row.height < startHeight) fun _ _ => rfl
  have hrewound : (tab.tip.rewound startHeight (tab.keep fun row => row.height < startHeight).2)
      = mem.tip.rewound startHeight (mem.keep fun row => row.height < startHeight).2 := by
    rw [h.tip, hcount]
  refine ⟨⟨hmirrors.mode, hmirrors.minValue, congrArg Prod.fst hrewound, hmirrors.rows,
    hmirrors.fits⟩, Prod.ext hcount (congrArg Prod.snd hrewound.symm :)⟩

/-- Both tell the same highest height. -/
lemma lastIndexed (h : Mirrors mem tab) : tab.lastIndexed = .ok mem.lastIndexed := by
  rw [TableIndex.lastIndexed, h.rows, TableIndex.maxHeight_encode h.fits, h.tip]
  rfl

/-- **A scan finds the same in both**: unless it is stopped it ends well in both or in neither, it
looks for the same number of rows, and if it ends well it sends the same matches. -/
lemma scan (h : Mirrors mem tab) (s : Scheme) (q : ScanQuery) :
    ScanReport.Agrees (mem.scan s q (fun _ => false) fun _ => true)
      (tab.scan s q (fun _ => false) fun _ => true) := by
  rw [MemoryIndex.scan, TableIndex.scan]
  cases Matcher.ofBytes s q.scanKey q.spendKey q.labelKeys with
  | error e => exact ⟨Iff.rfl, rfl, fun _ => .refl _⟩
  | ok m =>
    obtain ⟨rows, hperm, hcandidates⟩ := TableIndex.candidates_eq_map h.rows q
    have hfits : ∀ row ∈ rows, row.Fits mem.mode := fun row hrow =>
      h.fits row (List.mem_filter.1 (hperm.mem_iff.1 hrow)).1
    have htest : ∀ row ∈ rows, TableIndex.test s m (TableIndex.encode row)
        = m.matchesRow s row.tweakKey row.prefixes := fun row hrow =>
      congrArg (m.matchesRow s row.tweakKey) (TableIndex.prefixes_encode (hfits row hrow))
    have hmem := MemoryIndex.walksThrough
      (fun row => m.matchesRow s row.tweakKey row.prefixes) 0 (mem.candidates q)
    have htab := TableIndex.walksThrough (TableIndex.test s m) 0 hfits
    rw [← hcandidates] at htab
    obtain ⟨hends, hsent⟩ := hmem.agree hperm htest htab
    simp only [h.mode]
    refine ⟨hends, ?_, hsent⟩
    simp only [hcandidates, List.length_map]
    exact hperm.length_eq.symm

end Mirrors

namespace Store

/-- That one index is in memory and the other in a table that mirrors it, both of one layout. -/
inductive Twins (mode : IndexMode) (minValue : Nat) : Store → Store → Prop where
  | mirrors {mem : MemoryIndex} {tab : TableIndex} (h : Mirrors mem tab) (hmode : mem.mode = mode)
    (hmin : mem.minValue = minValue) : Twins mode minValue (.memory mem) (.table tab)

variable {mode : IndexMode} {minValue : Nat} {a b : Store}

/-- Spending leaves the layout of an index in memory. -/
lemma layout_spend (mem : MemoryIndex) (spent : List OutPoint) :
    (mem.spend spent).1.mode = mem.mode ∧ (mem.spend spent).1.minValue = mem.minValue := by
  rw [MemoryIndex.spend]
  split <;> exact ⟨rfl, rfl⟩

/-- Twins stay twins under a change, and answer it alike. -/
lemma Twins.change (h : Twins mode minValue a b) {c : IndexChange} (hfits : c.Fits mode minValue) :
    Twins mode minValue (a.after c) (b.after c) ∧ (a.change c).2 = (b.change c).2 := by
  obtain ⟨h, rfl, rfl⟩ := h
  cases c with
  | add txs =>
    obtain ⟨hmirrors, hresult⟩ := h.add hfits
    exact ⟨⟨hmirrors, rfl, rfl⟩, hresult⟩
  | spend spent =>
    obtain ⟨hmirrors, hresult⟩ := h.spend spent
    obtain ⟨hmode, hmin⟩ := layout_spend _ spent
    exact ⟨⟨hmirrors, hmode, hmin⟩, congrArg (fun n => (n, ({} : Notice))) hresult⟩
  | remove txids =>
    obtain ⟨hmirrors, hresult⟩ := h.remove txids
    exact ⟨⟨hmirrors, rfl, rfl⟩, hresult⟩
  | rewind startHeight =>
    obtain ⟨hmirrors, hresult⟩ := h.rewind startHeight
    exact ⟨⟨hmirrors, rfl, rfl⟩, hresult⟩

lemma Twins.afterAll (h : Twins mode minValue a b) {cs : List IndexChange}
    (hfits : ∀ c ∈ cs, c.Fits mode minValue) :
    Twins mode minValue (a.afterAll cs) (b.afterAll cs) := by
  induction cs generalizing a b with
  | nil => exact h
  | cons c cs ih =>
    exact ih (h.change (hfits c List.mem_cons_self)).1 fun c' hc' =>
      hfits c' (List.mem_cons_of_mem _ hc')

lemma Twins.lastIndexed (h : Twins mode minValue a b) : a.lastIndexed = b.lastIndexed := by
  obtain ⟨h, _, _⟩ := h
  exact h.lastIndexed.symm

lemma Twins.scan (h : Twins mode minValue a b) (s : Scheme) (q : ScanQuery) :
    ScanReport.Agrees (a.scan s q (fun _ => false) fun _ => true)
      (b.scan s q (fun _ => false) fun _ => true) := by
  obtain ⟨h, _, _⟩ := h
  exact h.scan s q

/-- What an index answers to changes one after another: the number of rows written or dropped, what
is announced, and the highest height afterwards. -/
def responses (st : Store) : List IndexChange → List (Nat × Notice × Except StorageError Int)
  | [] => []
  | c :: cs =>
    ((st.change c).2.1, (st.change c).2.2, (st.after c).lastIndexed) :: (st.after c).responses cs

lemma Twins.responses (h : Twins mode minValue a b) {cs : List IndexChange}
    (hfits : ∀ c ∈ cs, c.Fits mode minValue) : a.responses cs = b.responses cs := by
  induction cs generalizing a b with
  | nil => rfl
  | cons c cs ih =>
    obtain ⟨htwins, hresult⟩ := h.change (hfits c List.mem_cons_self)
    rw [Store.responses, Store.responses, hresult, htwins.lastIndexed,
      ih htwins fun c' hc' => hfits c' (List.mem_cons_of_mem _ hc')]

/-- **Both kinds of index agree**: an index in memory and one in the table of an empty file, begun
in one layout and changed alike, answer every change with the same count, the same announcements
and the same highest height; and after each of the changes a scan that is not stopped ends well in
both or in neither, is to look at the same number of rows, and if it ends well sends the same
matches. -/
theorem memory_table_agree (s : Scheme) (mode : IndexMode) (minValue : Nat)
    (cs : List IndexChange) (hfits : ∀ c ∈ cs, c.Fits mode minValue) :
    TableIndex.openFile {} mode minValue = .ok { mode, minValue } ∧
      (memory { mode, minValue }).responses cs = (table { mode, minValue }).responses cs ∧
      ∀ history, history <+: cs → ∀ q : ScanQuery,
        ScanReport.Agrees
          (((memory { mode, minValue }).afterAll history).scan s q (fun _ => false) fun _ => true)
          (((table { mode, minValue }).afterAll history).scan s q (fun _ => false) fun _ => true)
      := by
  have hempty : Twins mode minValue (memory { mode, minValue }) (table { mode, minValue }) :=
    .mirrors (.empty mode minValue) rfl rfl
  refine ⟨by cases mode <;> rfl, hempty.responses hfits, fun history hearlier q => ?_⟩
  exact (hempty.afterAll fun c hc => hfits c (hearlier.subset hc)).scan s q

/-- A transaction with an output of enough value and one of too little, to be used as an example. -/
def sampleSpendable (id : UInt8) (height : Int) : IndexedTransaction where
  txid := List.replicate 32 id
  height := height
  tweakKey := secp256k1.generator
  outputs := [⟨0, 5000, List.replicate 32 id⟩, ⟨1, 10, List.replicate 32 0xff⟩]

/-- A history in which a row is replaced, spent, added again and rewound. -/
def sampleHistory : List IndexChange :=
  [.add [sampleSpendable 1 5, sampleSpendable 2 0], .add [sampleSpendable 1 7],
    .spend [⟨List.replicate 32 1, 0⟩], .add [sampleSpendable 1 8], .remove [List.replicate 32 2],
    .rewind 8]

lemma fits_sampleSpendable {id : UInt8} {height : Int} (h : 0 ≤ height ∧ height < 100) :
    (sampleSpendable id height).Fits where
  txid := List.length_replicate
  height := by simp only [sampleSpendable, heightMin, heightMax]; omega
  index := by simp [sampleSpendable]

/-- The replaced row, the spent one and the rewound one are the same on both sides. -/
theorem memory_table_agree_on_replacement :
    (∀ c ∈ sampleHistory, c.Fits .utxoOnly 1000) ∧
      (memory { mode := .utxoOnly, minValue := 1000 }).responses sampleHistory
        = (table { mode := .utxoOnly, minValue := 1000 }).responses sampleHistory := by
  have hfits : ∀ c ∈ sampleHistory, c.Fits .utxoOnly 1000 := by
    intro c hc
    simp only [sampleHistory, List.mem_cons, List.not_mem_nil, or_false] at hc
    rcases hc with rfl | rfl | rfl | rfl | rfl | rfl
    · refine ⟨?_, fun _ => by decide⟩
      simp [fits_sampleSpendable]
    · refine ⟨?_, fun _ => by decide⟩
      simp [fits_sampleSpendable]
    · trivial
    · refine ⟨?_, fun _ => by decide⟩
      simp [fits_sampleSpendable]
    · trivial
    · trivial
  exact ⟨hfits, (memory_table_agree .standard .utxoOnly 1000 sampleHistory hfits).2.1⟩

end Store

end SilentScan
