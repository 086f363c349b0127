/-
Values as they are printed.

The text of a value holds no control characters, so it stays on one line. Reading takes it apart
again, whatever stands behind it: strings come back as they were, numbers as their text is read, and
the rest is as it was. What has been read is a value as soon as its numbers fit and it does not nest
too deep.

* `readString_printed`: strings;
* `Draft.ofPrinted`, `readsBack`: what is read where a value is printed;
* `isSome_value?_ofPrinted`: when this is a value;
* `Json.parseWithin_text`: reading the text of a value;
* `Json.visible_print`: the characters of a text.
-/
import Mathlib.Tactic.IntervalCases
import SilentScan.Proofs.Json.Numerals
import SilentScan.Proofs.Json.Reading

namespace SilentScan
namespace Draft

/-! ### Strings -/

/-- The numbered escapes of controls. -/
lemma hex4?_control {n : Nat} (h : n < 32) (rest : List Char) :
    hex4? ('0' :: '0' :: Hex.digit (n / 16) :: Hex.digit (n % 16) :: rest) = some (n, rest) := by
  interval_cases n <;> rfl

/-- What a piece adds to those after it. -/
def addPiece (p : Piece) (r : Option (List Piece × List Char)) : Option (List Piece × List Char) :=
  r.map fun (ps, rest) => (p :: ps, rest)

lemma readPieces_short (fuel : Nat) {e c : Char} (he : shortEscape? e = some c) (rest : List Char) :
    readPieces (fuel + 1) ('\\' :: e :: rest) = addPiece (.char c) (readPieces fuel rest) := by
  have hu : e ≠ 'u' := by
    rintro rfl
    cases he
  conv_lhs => unfold readPieces
  rw [if_neg (by decide), if_pos rfl]
  split
  · contradiction
  · rename_i heq
    exact absurd (List.cons.inj heq).1 hu
  · rename_i heq
    obtain ⟨rfl, rfl⟩ := List.cons.inj heq
    rw [he]
    cases readPieces fuel rest <;> rfl

/-- A numbered escape. -/
lemma readPieces_unit (fuel : Nat) {cs rest : List Char} {n : Nat} (h : hex4? cs = some (n, rest)) :
    readPieces (fuel + 1) ('\\' :: 'u' :: cs) = addPiece (.ofUnit n) (readPieces fuel rest) := by
  conv_lhs => unfold readPieces
  rw [if_neg (by decide), if_pos rfl]
  split
  · contradiction
  · rename_i heq
    rw [← (List.cons.inj heq).2, h]
    cases hrest : readPieces fuel rest <;> simp [addPiece, hrest]
  · rename_i hne heq
    exact (hne (List.cons.inj heq).1.symm).elim

lemma readPieces_control (fuel : Nat) {c : Char} (hc : c.toNat < 32) (rest : List Char) :
    readPieces (fuel + 1)
        ('\\' :: 'u' :: '0' :: '0' :: Hex.digit (c.toNat / 16) :: Hex.digit (c.toNat % 16) :: rest)
      = addPiece (.char c) (readPieces fuel rest) := by
  have hunit : Piece.ofUnit c.toNat = .char c := by
    rw [Piece.ofUnit, if_neg (by omega), if_neg (by omega), Char.ofNat_toNat]
  rw [readPieces_unit fuel (hex4?_control hc rest), hunit]

lemma readPieces_plain (fuel : Nat) {c : Char} (hquote : c ≠ '"') (hslash : c ≠ '\\')
    (hc : 32 ≤ c.toNat) (rest : List Char) :
    readPieces (fuel + 1) (c :: rest) = addPiece (.char c) (readPieces fuel rest) := by
  conv_lhs => unfold readPieces
  rw [if_neg hquote, if_neg hslash, if_neg (not_lt.2 hc)]
  cases readPieces fuel rest <;> rfl

/-- A character is printed as a short escape, as a numbered one, or as it is. -/
lemma printChar_cases (c : Char) :
    (∃ e, shortEscape? e = some c ∧ Json.printChar c = ['\\', e])
      ∨ (c.toNat < 32 ∧ Json.printChar c
          = ['\\', 'u', '0', '0', Hex.digit (c.toNat / 16), Hex.digit (c.toNat % 16)])
      ∨ (c ≠ '"' ∧ c ≠ '\\' ∧ 32 ≤ c.toNat ∧ Json.printChar c = [c]) := by
  rw [Json.printChar]
  split_ifs with hquote hslash _ _ _ _ _ hcontrol
  on_goal 8 => exact .inr (.inl ⟨hcontrol, rfl⟩)
  on_goal 8 => exact .inr (.inr ⟨hquote, hslash, not_lt.1 hcontrol, rfl⟩)
  -- what is left are the characters that have a short escape
  all_goals
    subst c
    exact .inl ⟨_, rfl, rfl⟩

/-- One character of a string, as it is printed. -/
lemma readPieces_printChar (fuel : Nat) (c : Char) (rest : List Char) :
    readPieces (fuel + 1) (Json.printChar c ++ rest)
      = addPiece (.char c) (readPieces fuel rest) := by
  obtain ⟨e, he, hprint⟩ | ⟨hcontrol, hprint⟩ | ⟨hquote, hslash, hplain, hprint⟩ :=
    printChar_cases c
  · rw [hprint]
    exact readPieces_short fuel he rest
  · rw [hprint]
    exact readPieces_control fuel hcontrol rest
  · rw [hprint]
    exact readPieces_plain fuel hquote hslash hplain rest

/-- The characters of a string up to the closing quote. -/
lemma readPieces_printed (cs rest : List Char) {fuel : Nat} (h : cs.length < fuel) :
    readPieces fuel (cs.flatMap Json.printChar ++ '"' :: rest) = some (cs.map .char, rest) := by
  induction cs generalizing fuel with
  | nil =>
    obtain ⟨fuel, rfl⟩ := Nat.exists_eq_succ_of_ne_zero (Nat.ne_of_gt h)
    simp [readPieces]
  | cons c cs ih =>
    obtain ⟨fuel, rfl⟩ := Nat.exists_eq_succ_of_ne_zero (Nat.ne_of_gt (Nat.zero_lt_of_lt h))
    rw [List.flatMap_cons, List.append_assoc, readPieces_printChar,
      ih (Nat.lt_of_succ_lt_succ h)]
    rfl

lemma joinPieces_chars (cs : List Char) : joinPieces (cs.map .char) = some cs := by
  induction cs with
  | nil => rfl
  | cons c cs ih => rw [List.map_cons, joinPieces, ih, Option.map_some]

lemma one_le_length_printChar (c : Char) : 1 ≤ (Json.printChar c).length := by
  obtain ⟨e, -, hprint⟩ | ⟨-, hprint⟩ | ⟨-, -, -, hprint⟩ := printChar_cases c <;> simp [hprint]

lemma length_le_printed (cs : List Char) : cs.length ≤ (cs.flatMap Json.printChar).length := by
  induction cs with
  | nil => simp
  | cons c cs ih =>
    have hc := one_le_length_printChar c
    rw [List.flatMap_cons, List.length_append, List.length_cons]
    omega

/-- **A printed string** is read as it was. -/
lemma readString_printed (s : String) (rest : List Char) :
    readString (s.toList.flatMap Json.printChar ++ '"' :: rest) = some (some s, rest) := by
  have hlength := length_le_printed s.toList
  rw [readString, readPieces_printed, Option.map_some]
  · simp only [joinPieces_chars, Option.map_some, String.ofList_toList]
  · rw [List.length_append]
    omega

/-! ### The reader -/

/-- Items are read one by one, each of them followed by a comma or the closing bracket. -/
lemma readItems_succ_iff {fuel : Nat} {cs rest : List Char} {ds : List Draft} :
    readItems (fuel + 1) cs = (ds, true, rest)
      ↔ ∃ d after, readValue fuel cs = (d, after) ∧ d.complete = true
          ∧ ((skipBlanks after = ']' :: rest ∧ ds = [d])
            ∨ ∃ after' ds', skipBlanks after = ',' :: after'
                ∧ (∀ tail, skipBlanks after' ≠ ']' :: tail)
                ∧ readItems fuel (skipBlanks after') = (ds', true, rest) ∧ ds = d :: ds') := by
  cases hread : readValue fuel cs with
  | mk d after =>
    constructor
    · intro h
      refine ⟨d, after, rfl, ?_⟩
      simp only [readItems, hread] at h
      split at h
      · rename_i hd
        refine ⟨hd, ?_⟩
        split at h
        · rename_i hclose
          cases h
          exact .inl ⟨hclose, rfl⟩
        · rename_i after' hcomma
          split at h
          · cases h
          · rename_i hopen
            simp only [Prod.mk.injEq] at h
            obtain ⟨rfl, hclosed, rfl⟩ := h
            exact .inr ⟨after', _, hcomma, hopen, Prod.ext rfl (Prod.ext hclosed rfl), rfl⟩
        · cases h
      · cases h
    · rintro ⟨d', after', heq, hd, hrest⟩
      cases heq
      simp only [readItems, hread, if_pos hd]
      obtain ⟨hclose, rfl⟩ | ⟨after', ds', hcomma, hopen, hitems, rfl⟩ := hrest
      · simp only [hclose]
      · simp only [hcomma, hitems]

/-- Fields are read one by one, each of them followed by a comma or the closing brace. -/
lemma readFields_succ_iff {fuel : Nat} {cs rest : List Char} {fs : List (Option String × Draft)} :
    readFields (fuel + 1) cs = (fs, true, rest)
      ↔ ∃ quoted key tail after d after', skipBlanks cs = '"' :: quoted
          ∧ readString quoted = some (key, tail) ∧ skipBlanks tail = ':' :: after
          ∧ readValue fuel after = (d, after') ∧ d.complete = true
          ∧ ((skipBlanks after' = '}' :: rest ∧ fs = [(key, d)])
            ∨ ∃ next fs', skipBlanks after' = ',' :: next
                ∧ readFields fuel next = (fs', true, rest) ∧ fs = (key, d) :: fs') := by
  constructor
  · intro h
    rw [readFields] at h
    split at h
    case h_2 => cases h
    rename_i quoted hquote
    split at h
    case h_1 => cases h
    rename_i key tail hkey
    split at h
    case h_2 => cases h
    rename_i after hcolon
    cases hread : readValue fuel after with
    | mk d after' =>
      refine ⟨quoted, key, tail, after, d, after', hquote, hkey, hcolon, hread, ?_⟩
      simp only [hread] at h
      split at h
      case isFalse => cases h
      rename_i hd
      refine ⟨hd, ?_⟩
      split at h
      · rename_i hclose
        cases h
        exact .inl ⟨hclose, rfl⟩
      · rename_i next hcomma
        simp only [Prod.mk.injEq] at h
        obtain ⟨rfl, hclosed, rfl⟩ := h
        exact .inr ⟨next, _, hcomma, Prod.ext rfl (Prod.ext hclosed rfl), rfl⟩
      · cases h
  · rintro ⟨quoted, key, tail, after, d, after', hquote, hkey, hcolon, hread, hd, hrest⟩
    simp only [readFields, hquote, hkey, hcolon, hread, if_pos hd]
    obtain ⟨hclose, rfl⟩ | ⟨next, fs', hcomma, hfields, rfl⟩ := hrest
    · simp only [hclose]
    · simp only [hcomma, hfields]

/-- That characters spell a draft wherever they stand. -/
def Denotes (cs : List Char) (d : Draft) : Prop :=
  ∀ fuel rest, 2 * cs.length ≤ fuel → Ends rest → readValue fuel (cs ++ rest) = (d, rest)

/-- What begins with a character is read in one step after which there is less to read. -/
lemma denotes_cons {c : Char} {tail : List Char} {d : Draft}
    (h : ∀ fuel rest, 2 * tail.length < fuel → Ends rest →
      readValue (fuel + 1) (c :: (tail ++ rest)) = (d, rest)) : Denotes (c :: tail) d := by
  intro fuel rest hfuel hrest
  rw [List.length_cons] at hfuel
  obtain ⟨fuel, rfl⟩ := Nat.exists_eq_succ_of_ne_zero (show fuel ≠ 0 by omega)
  exact h fuel rest (by omega) hrest

/-! ### Values -/

mutual
/-- What is read where a value is printed. -/
def ofPrinted : Json → Draft
  | .null => .null
  | .bool b => .bool b
  | .number n => .number (reread n)
  | .string s => .string (some s)
  | .array items => .array (ofPrintedItems items) true
  | .object fields => .object (ofPrintedFields fields) true

/-- `ofPrinted` for the items of an array. -/
def ofPrintedItems : List Json → List Draft
  | [] => []
  | v :: rest => ofPrinted v :: ofPrintedItems rest

/-- `ofPrinted` for the fields of an object. -/
def ofPrintedFields : List (String × Json) → List (Option String × Draft)
  | [] => []
  | (k, v) :: rest => (some k, ofPrinted v) :: ofPrintedFields rest
end

lemma ofPrintedItems_eq (items : List Json) : ofPrintedItems items = items.map ofPrinted := by
  induction items with
  | nil => rfl
  | cons v items ih => rw [ofPrintedItems, ih, List.map_cons]

lemma complete_ofPrinted (v : Json) : (ofPrinted v).complete = true := by
  cases v <;> rfl

lemma Numeral.not_blank {c : Char} (h : Numeral c) : isBlank c = false ∧ c ≠ ']' ∧ c ≠ '}' := by
  rcases h with hdigit | hother
  · have hne : ∀ a : Char, a.isDigit = false → c ≠ a := by
      rintro a ha rfl
      simp [ha] at hdigit
    simp [isBlank, hne]
  · simp only [List.mem_cons, List.not_mem_nil, or_false] at hother
    rcases hother with rfl | rfl | rfl | rfl <;> decide

/-- The first character of a text is no blank, and it closes nothing. -/
lemma print_head (v : Json) : ∃ c tail, Json.print v = c :: tail ∧ isBlank c = false ∧ c ≠ ']' := by
  cases v with
  | number n =>
    obtain ⟨c, tail, heq⟩ := List.exists_cons_of_ne_nil (printNumber_ne_nil n)
    have hc := (numeral_printNumber n c (heq ▸ List.mem_cons_self)).not_blank
    exact ⟨c, tail, by rw [Json.print, heq], hc.1, hc.2.1⟩
  | array items => cases items <;> exact ⟨_, _, rfl, by decide, by decide⟩
  | object fields => cases fields <;> exact ⟨_, _, rfl, by decide, by decide⟩
  | bool b => cases b <;> exact ⟨_, _, rfl, by decide, by decide⟩
  | _ => exact ⟨_, _, rfl, by decide, by decide⟩

lemma skipBlanks_print (v : Json) (rest : List Char) :
    skipBlanks (Json.print v ++ rest) = Json.print v ++ rest := by
  obtain ⟨c, tail, heq, hc, -⟩ := print_head v
  simp [heq, skipBlanks, hc]

/-- What separates or closes carries no number on. -/
lemma ends_of_not_numeral {c : Char} (h : ¬ Numeral c) (hE : c ≠ 'E') (rest : List Char) :
    Ends (c :: rest) := by
  simp only [Numeral, List.mem_cons, List.not_mem_nil, or_false, not_or] at h
  simp [Ends, h, hE]

/-- That a value is read back from its text. -/
def ReadsBack (v : Json) : Prop :=
  Denotes (Json.print v) (ofPrinted v)

lemma ends_printItems (items : List Json) (rest : List Char) :
    Ends (Json.printItems items ++ rest) := by
  cases items <;> exact ends_of_not_numeral (by decide) (by decide) _

/-- Items are read back one after another. -/
lemma readItems_print {v : Json} {items : List Json} (hv : ReadsBack v)
    (hitems : ∀ u ∈ items, ReadsBack u) {fuel : Nat} {rest : List Char}
    (hfuel : 2 * (Json.print v ++ Json.printItems items).length < fuel) :
    readItems fuel (Json.print v ++ (Json.printItems items ++ rest))
      = (ofPrinted v :: ofPrintedItems items, true, rest) := by
  induction items generalizing v fuel with
  | nil =>
    obtain ⟨fuel, rfl⟩ := Nat.exists_eq_succ_of_ne_zero (Nat.ne_of_gt (Nat.zero_lt_of_lt hfuel))
    rw [List.length_append] at hfuel
    exact readItems_succ_iff.2 ⟨_, _, hv fuel _ (by omega) (ends_printItems _ _),
      complete_ofPrinted v, .inl ⟨rfl, rfl⟩⟩
  | cons u items ih =>
    obtain ⟨fuel, rfl⟩ := Nat.exists_eq_succ_of_ne_zero (Nat.ne_of_gt (Nat.zero_lt_of_lt hfuel))
    obtain ⟨hu, hitems⟩ := List.forall_mem_cons.1 hitems
    simp only [Json.printItems, List.length_append, List.length_cons] at hfuel
    have hless : 2 * (Json.print u ++ Json.printItems items).length < fuel := by
      rw [List.length_append]
      omega
    have hrest : readItems fuel (Json.print u ++ (Json.printItems items ++ rest))
        = (ofPrinted u :: ofPrintedItems items, true, rest) := ih hu hitems hless
    have htail : Json.printItems (u :: items) ++ rest
        = ',' :: (Json.print u ++ (Json.printItems items ++ rest)) := by simp [Json.printItems]
    have hopen : ∀ tail, Json.print u ++ (Json.printItems items ++ rest) ≠ ']' :: tail := by
      obtain ⟨c, _, heq, -, hc⟩ := print_head u
      rw [heq]
      exact fun _ hclose => hc (List.cons.inj hclose).1
    refine readItems_succ_iff.2 ⟨_, _, hv fuel _ (by omega) (ends_printItems _ _),
      complete_ofPrinted v, .inr ⟨_, _, congrArg skipBlanks htail, ?_, ?_, rfl⟩⟩
    · rwa [skipBlanks_print]
    · rwa [skipBlanks_print]

lemma ends_printFields (fields : List (String × Json)) (rest : List Char) :
    Ends (Json.printFields fields ++ rest) := by
  cases fields <;> exact ends_of_not_numeral (by decide) (by decide) _

/-- Fields are read back one after another. -/
lemma readFields_print {k : String} {v : Json} {fields : List (String × Json)} (hv : ReadsBack v)
    (hfields : ∀ f ∈ fields, ReadsBack f.2) {fuel : Nat} {rest : List Char}
    (hfuel : 2 * (Json.printString k ++ ':' :: (Json.print v ++ Json.printFields fields)).length
      < fuel) :
    readFields fuel
        (Json.printString k ++ ':' :: (Json.print v ++ (Json.printFields fields ++ rest)))
      = ((some k, ofPrinted v) :: ofPrintedFields fields, true, rest) := by
  have hquote : ∀ l cs, skipBlanks (Json.printString l ++ cs)
      = '"' :: (l.toList.flatMap Json.printChar ++ '"' :: cs) := by
    simp [Json.printString, skipBlanks, isBlank]
  induction fields generalizing k v fuel with
  | nil =>
    obtain ⟨fuel, rfl⟩ := Nat.exists_eq_succ_of_ne_zero (Nat.ne_of_gt (Nat.zero_lt_of_lt hfuel))
    simp only [List.length_append, List.length_cons] at hfuel
    exact readFields_succ_iff.2 ⟨_, _, _, _, _, _, hquote k _, readString_printed k _, rfl,
      hv fuel _ (by omega) (ends_printFields _ _), complete_ofPrinted v, .inl ⟨rfl, rfl⟩⟩
  | cons f fields ih =>
    obtain ⟨l, u⟩ := f
    obtain ⟨fuel, rfl⟩ := Nat.exists_eq_succ_of_ne_zero (Nat.ne_of_gt (Nat.zero_lt_of_lt hfuel))
    obtain ⟨hu, hfields⟩ := List.forall_mem_cons.1 hfields
    simp only [Json.printFields, List.length_append, List.length_cons] at hfuel
    have hless : 2 * (Json.printString l ++ ':' :: (Json.print u ++ Json.printFields fields)).length
        < fuel := by
      simp only [List.length_append, List.length_cons]
      omega
    have hrest : readFields fuel
        (Json.printString l ++ ':' :: (Json.print u ++ (Json.printFields fields ++ rest)))
          = ((some l, ofPrinted u) :: ofPrintedFields fields, true, rest) := ih hu hfields hless
    have htail : Json.printFields ((l, u) :: fields) ++ rest = ',' :: (Json.printString l
        ++ ':' :: (Json.print u ++ (Json.printFields fields ++ rest))) := by
      simp [Json.printFields]
    exact readFields_succ_iff.2 ⟨_, _, _, _, _, _, hquote k _, readString_printed k _, rfl,
      hv fuel _ (by omega) (ends_printFields _ _), complete_ofPrinted v,
      .inr ⟨_, _, congrArg skipBlanks htail, hrest, rfl⟩⟩

/-- A value is read back as its first character says. -/
lemma readsBack_of_cons {v : Json} {c : Char} {tail : List Char} (heq : Json.print v = c :: tail)
    (h : ∀ fuel rest, 2 * tail.length < fuel → Ends rest →
      readValue (fuel + 1) (c :: (tail ++ rest)) = (ofPrinted v, rest)) : ReadsBack v := by
  rw [ReadsBack, heq]
  exact denotes_cons h

/-- An array that is not closed at once has items. -/
lemma readValue_array (fuel : Nat) {cs : List Char} (h : ∀ rest, skipBlanks cs ≠ ']' :: rest) :
    readValue (fuel + 1) ('[' :: cs)
      = (.array (readItems fuel (skipBlanks cs)).1 (readItems fuel (skipBlanks cs)).2.1,
          (readItems fuel (skipBlanks cs)).2.2) := by
  have hskip : skipBlanks ('[' :: cs) = '[' :: cs := rfl
  conv_lhs => unfold readValue
  simp only [hskip]
  rw [if_neg (by decide), if_neg (by decide), if_neg (by decide), if_neg (by decide),
    if_neg (by decide), if_neg (by decide), if_pos trivial]

/-- An object that is not closed at once has fields. -/
lemma readValue_object (fuel : Nat) {cs : List Char} (h : ∀ rest, skipBlanks cs ≠ '}' :: rest) :
    readValue (fuel + 1) ('{' :: cs)
      = (.object (readFields fuel (skipBlanks cs)).1 (readFields fuel (skipBlanks cs)).2.1,
          (readFields fuel (skipBlanks cs)).2.2) := by
  have hskip : skipBlanks ('{' :: cs) = '{' :: cs := rfl
  conv_lhs => unfold readValue
  simp only [hskip]
  rw [if_neg (by decide), if_neg (by decide), if_neg (by decide), if_neg (by decide),
    if_neg (by decide), if_neg (by decide), if_neg (by decide), if_pos trivial]

/-- **A printed value** is read back, up to its numbers. -/
theorem readsBack (v : Json) : ReadsBack v := by
  induction v using Json.ind with
  | null =>
    refine readsBack_of_cons rfl fun fuel rest _ _ => ?_
    simp [readValue, skipBlanks, isBlank, readWord, ofPrinted]
  | bool b =>
    cases b <;> refine readsBack_of_cons rfl fun fuel rest _ _ => ?_ <;>
      simp [readValue, skipBlanks, isBlank, readWord, ofPrinted]
  | number n =>
    intro fuel rest hfuel hrest
    have hpos := List.length_pos_iff.2 (printNumber_ne_nil n)
    rw [Json.print] at hfuel ⊢
    obtain ⟨fuel, rfl⟩ := Nat.exists_eq_succ_of_ne_zero (show fuel ≠ 0 by omega)
    exact spells_printNumber n fuel rest hrest
  | string s =>
    refine readsBack_of_cons rfl fun fuel rest _ _ => ?_
    have hread := readString_printed s rest
    simp [readValue, skipBlanks, isBlank, hread, ofPrinted]
  | array items ih =>
    cases items with
    | nil =>
      refine readsBack_of_cons rfl fun fuel rest _ _ => ?_
      simp [readValue, skipBlanks, isBlank, ofPrinted, ofPrintedItems]
    | cons v items =>
      obtain ⟨hv, hitems⟩ := List.forall_mem_cons.1 ih
      have htext : Json.print (.array (v :: items))
          = '[' :: (Json.print v ++ Json.printItems items) := rfl
      refine readsBack_of_cons htext fun fuel rest hfuel _ => ?_
      obtain ⟨c, tail, heq, -, hc⟩ := print_head v
      have hskip := skipBlanks_print v (Json.printItems items ++ rest)
      have hopen : ∀ cs,
          skipBlanks (Json.print v ++ (Json.printItems items ++ rest)) ≠ ']' :: cs := by
        rw [hskip, heq]
        exact fun cs hcs => hc (List.cons.inj hcs).1
      rw [List.append_assoc, readValue_array fuel hopen, hskip, readItems_print hv hitems hfuel]
      rfl
  | object fields ih =>
    cases fields with
    | nil =>
      refine readsBack_of_cons rfl fun fuel rest _ _ => ?_
      simp [readValue, skipBlanks, isBlank, ofPrinted, ofPrintedFields]
    | cons f fields =>
      obtain ⟨k, v⟩ := f
      obtain ⟨hv, hfields⟩ := List.forall_mem_cons.1 ih
      have htext : Json.print (.object ((k, v) :: fields))
          = '{' :: (Json.printString k ++ ':' :: (Json.print v ++ Json.printFields fields)) := by
        simp [Json.print]
      refine readsBack_of_cons htext fun fuel rest hfuel _ => ?_
      have hskip : ∀ cs, skipBlanks (Json.printString k ++ cs) = Json.printString k ++ cs :=
        fun cs => by simp [Json.printString, skipBlanks, isBlank]
      have hopen : ∀ cs tail, skipBlanks (Json.printString k ++ cs) ≠ '}' :: tail := by
        intro cs tail
        rw [hskip]
        simp [Json.printString]
      rw [List.append_assoc, List.cons_append, List.append_assoc,
        readValue_object fuel (hopen _), hskip, readFields_print hv hfields hfuel]
      rfl

/-! ### What has been read as a value -/

/-- Items are values if each of them is. -/
lemma isSome_items? {depth : Nat} {items : List Json}
    (h : ∀ v ∈ items, ((ofPrinted v).value? depth).isSome = true) :
    (items? depth (ofPrintedItems items)).isSome = true := by
  induction items with
  | nil => rfl
  | cons v items ih =>
    obtain ⟨hv, hitems⟩ := List.forall_mem_cons.1 h
    obtain ⟨u, hu⟩ := Option.isSome_iff_exists.1 hv
    obtain ⟨us, hus⟩ := Option.isSome_iff_exists.1 (ih hitems)
    simp [ofPrintedItems, items?, hu, hus]

/-- Fields have values if each of them has. -/
lemma isSome_fields? {depth : Nat} {fields : List (String × Json)}
    (h : ∀ f ∈ fields, ((ofPrinted f.2).value? depth).isSome = true) :
    (fields? depth (ofPrintedFields fields)).isSome = true := by
  induction fields with
  | nil => rfl
  | cons f fields ih =>
    obtain ⟨k, v⟩ := f
    obtain ⟨hv, hfields⟩ := List.forall_mem_cons.1 h
    obtain ⟨u, hu⟩ := Option.isSome_iff_exists.1 hv
    obtain ⟨us, hus⟩ := Option.isSome_iff_exists.1 (ih hfields)
    simp [ofPrintedFields, fields?, hu, hus]

/-- **What has been read** where a value was printed is a value, if the numbers inside are ones that
can be read and enough nesting is allowed for. -/
theorem isSome_value?_ofPrinted {v : Json} (hv : v.Sound) {depth : Nat} (h : v.nesting ≤ depth) :
    ((ofPrinted v).value? depth).isSome = true := by
  induction v using Json.ind generalizing depth with
  | number n =>
    rw [ofPrinted, value?, Option.isSome_map]
    exact isSome_reread hv
  | array items ih =>
    obtain ⟨depth, rfl⟩ := Nat.exists_eq_succ_of_ne_zero (Nat.ne_of_gt (Nat.zero_lt_of_lt h))
    have hnesting := Json.nestingItems_le.1 (Nat.le_of_succ_le_succ h)
    have hsound := Json.sound_array.1 hv
    have hitems := isSome_items? fun u hu => ih u hu (hsound u hu) (hnesting u hu)
    obtain ⟨us, hus⟩ := Option.isSome_iff_exists.1 hitems
    simp [ofPrinted, value?, hus]
  | object fields ih =>
    obtain ⟨depth, rfl⟩ := Nat.exists_eq_succ_of_ne_zero (Nat.ne_of_gt (Nat.zero_lt_of_lt h))
    have hnesting := Json.nestingFields_le.1 (Nat.le_of_succ_le_succ h)
    have hsound := Json.sound_object.1 hv
    have hfields := isSome_fields? fun f hf => ih f hf (hsound f hf) (hnesting f hf)
    obtain ⟨us, hus⟩ := Option.isSome_iff_exists.1 hfields
    simp [ofPrinted, value?, hus]
  | _ => rfl

end Draft

namespace Json

/-- The value of a whole text, where arrays and objects may nest to a given depth. -/
def parseWithin (depth : Nat) (text : String) : Option Json :=
  let (d, rest) := Draft.read text.toList
  if Draft.skipBlanks rest = [] then d.value? depth else none

lemma parse_eq_parseWithin (text : String) : parse text = parseWithin Draft.depthLimit text :=
  rfl

/-- **The text of a value** is read as what was printed. -/
theorem parseWithin_text (depth : Nat) (v : Json) :
    parseWithin depth v.text = (Draft.ofPrinted v).value? depth := by
  have hread := Draft.readsBack v (2 * (print v).length + 2) [] (by omega) Draft.ends_nil
  rw [List.append_nil] at hread
  simp only [parseWithin, text, Draft.read, String.toList_ofList, hread]
  exact if_pos rfl

/-! ### The characters of a text -/

/-- That a character is no control. -/
def Visible (c : Char) : Prop :=
  32 ≤ c.toNat

instance (c : Char) : Decidable (Visible c) :=
  inferInstanceAs (Decidable (_ ≤ _))

/-- A list of known characters is looked through. -/
lemma visible_of_all {cs : List Char} (h : (cs.all fun c => Visible c) = true) :
    ∀ c ∈ cs, Visible c :=
  fun c hc => of_decide_eq_true (List.all_eq_true.1 h c hc)

lemma visible_numeral {c : Char} (h : Draft.Numeral c) : Visible c := by
  rcases h with hdigit | hother
  · simp only [Char.isDigit, Bool.and_eq_true, decide_eq_true_eq] at hdigit
    have hle : '0'.toNat ≤ c.toNat := hdigit.1
    exact le_trans (by decide) hle
  · simp only [List.mem_cons, List.not_mem_nil, or_false] at hother
    rcases hother with rfl | rfl | rfl | rfl <;> decide

lemma visible_printChar (c : Char) : ∀ a ∈ printChar c, Visible a := by
  have hdigits : ∀ n < 32, Visible (Hex.digit (n / 16)) ∧ Visible (Hex.digit (n % 16)) := by decide
  rw [printChar]
  repeat' split
  all_goals try exact visible_of_all (by decide)
  · rename_i hcontrol
    obtain ⟨hhigh, hlow⟩ := hdigits c.toNat hcontrol
    simp only [List.forall_mem_cons]
    exact ⟨by decide, by decide, by decide, by decide, hhigh, hlow, by simp⟩
  · rename_i hplain
    simpa [Visible] using hplain

lemma visible_printString (s : String) : ∀ a ∈ printString s, Visible a := by
  have hquote : Visible '"' := by decide
  rw [printString, List.cons_append]
  refine List.forall_mem_cons.2
    ⟨hquote, List.forall_mem_append.2 ⟨fun a ha => ?_, by simp [hquote]⟩⟩
  obtain ⟨c, -, hc⟩ := List.mem_flatMap.1 ha
  exact visible_printChar c a hc

lemma visible_printItems {items : List Json} (h : ∀ v ∈ items, ∀ c ∈ print v, Visible c) :
    ∀ c ∈ printItems items, Visible c := by
  induction items with
  | nil => exact visible_of_all (by decide)
  | cons v items ih =>
    obtain ⟨hv, hitems⟩ := List.forall_mem_cons.1 h
    rw [printItems, List.cons_append]
    exact List.forall_mem_cons.2 ⟨by decide, List.forall_mem_append.2 ⟨hv, ih hitems⟩⟩

lemma visible_field {k : String} {v : Json} (hv : ∀ c ∈ print v, Visible c) :
    ∀ c ∈ printString k ++ ':' :: print v, Visible c :=
  List.forall_mem_append.2 ⟨visible_printString k, List.forall_mem_cons.2 ⟨by decide, hv⟩⟩

lemma visible_printFields {fields : List (String × Json)}
    (h : ∀ f ∈ fields, ∀ c ∈ print f.2, Visible c) : ∀ c ∈ printFields fields, Visible c := by
  induction fields with
  | nil => exact visible_of_all (by decide)
  | cons f fields ih =>
    obtain ⟨hf, hfields⟩ := List.forall_mem_cons.1 h
    exact List.forall_mem_cons.2 ⟨by decide,
      List.forall_mem_append.2 ⟨visible_field hf, ih hfields⟩⟩

/-- **A text** holds no controls, so it is a single line. -/
theorem visible_print (v : Json) : ∀ c ∈ print v, Visible c := by
  induction v using Json.ind with
  | null => exact visible_of_all (by decide)
  | bool b => cases b <;> exact visible_of_all (by decide)
  | number n => exact fun c hc => visible_numeral (Draft.numeral_printNumber n c hc)
  | string s => exact visible_printString s
  | array items ih =>
    cases items with
    | nil => exact visible_of_all (by decide)
    | cons v items =>
      obtain ⟨hv, hitems⟩ := List.forall_mem_cons.1 ih
      exact List.forall_mem_cons.2 ⟨by decide,
        List.forall_mem_append.2 ⟨hv, visible_printItems hitems⟩⟩
  | object fields ih =>
    cases fields with
    | nil => exact visible_of_all (by decide)
    | cons f fields =>
      obtain ⟨hf, hfields⟩ := List.forall_mem_cons.1 ih
      exact List.forall_mem_cons.2 ⟨by decide,
        List.forall_mem_append.2 ⟨visible_field hf, visible_printFields hfields⟩⟩

end Json
end SilentScan
