/-
Values cut out of a text.

How a value is read does not depend on what stands behind it, as long as that carries no number
on. So the characters a value has been read from denote it wherever they stand, and the items of an
array can be told one by one, each on a line of its own that is cut out of the array's text.

* `exists_readString`, `exists_readNumber`: strings and numbers;
* `Carries`, `Excerpt`: a stretch that denotes a value, and the characters one has been read from;
* `exists_excerpt`: these denote it;
* `exists_lines_of_parse`: an array as lines of its items.
-/
import Mathlib.Data.List.DropRight
import SilentScan.Proofs.Json.Printing
import SilentScan.Text.Blank

namespace SilentScan
namespace Draft

/-! ### Strings -/

lemma hex4?_append (a b c d : Char) (rest : List Char) :
    hex4? (a :: b :: c :: d :: rest) = (hex4? [a, b, c, d]).map fun x => (x.1, rest) := by
  simp only [hex4?, Option.bind_eq_bind, Option.map_bind, Function.comp_def, Option.pure_def,
    Option.map_some]

lemma exists_hex4? {cs rest : List Char} {n : Nat} (h : hex4? cs = some (n, rest)) :
    ∃ own, cs = own ++ rest ∧ ∀ rest', hex4? (own ++ rest') = some (n, rest') := by
  match cs, h with
  | a :: b :: c :: d :: tail, h =>
    rw [hex4?_append, Option.map_eq_some_iff] at h
    obtain ⟨x, hx, heq⟩ := h
    cases heq
    refine ⟨[a, b, c, d], rfl, fun rest' => ?_⟩
    exact (hex4?_append a b c d rest').trans (by rw [hx]; rfl)

/-- What is read of a string is the closing quote, or characters that are the same piece before any
others. -/
lemma exists_piece {fuel : Nat} {cs : List Char} {x : List Piece × List Char}
    (h : readPieces (fuel + 1) cs = some x) :
    (∃ tail, cs = '"' :: tail)
      ∨ ∃ own tail p, cs = own ++ tail ∧ own ≠ [] ∧ ∀ fuel' tail',
          readPieces (fuel' + 1) (own ++ tail') = addPiece p (readPieces fuel' tail') := by
  cases cs with
  | nil => cases h
  | cons c tail =>
    by_cases hquote : c = '"'
    · exact .inl ⟨tail, hquote ▸ rfl⟩
    by_cases hslash : c = '\\'
    · subst hslash
      cases tail with
      | nil => simp [readPieces] at h
      | cons e tail =>
        by_cases hu : e = 'u'
        · subst hu
          cases hunit : hex4? tail with
          | none => simp [readPieces, hunit] at h
          | some x =>
            obtain ⟨n, after⟩ := x
            obtain ⟨own, rfl, hown⟩ := exists_hex4? hunit
            exact .inr ⟨'\\' :: 'u' :: own, after, _, rfl, by simp, fun fuel' tail' =>
              readPieces_unit fuel' (hown tail')⟩
        · cases hshort : shortEscape? e with
          | none => simp [readPieces, hshort] at h
          | some a =>
            exact .inr ⟨['\\', e], tail, _, rfl, by simp, fun fuel' tail' =>
              readPieces_short fuel' hshort tail'⟩
    by_cases hcontrol : c.toNat < 32
    · simp [readPieces, hquote, hslash, hcontrol] at h
    · exact .inr ⟨[c], tail, _, rfl, by simp, fun fuel' tail' =>
        readPieces_plain fuel' hquote hslash (not_lt.1 hcontrol) tail'⟩

/-- **A string** is read from its characters up to the closing quote. -/
lemma exists_readPieces {fuel : Nat} {cs rest : List Char} {ps : List Piece}
    (h : readPieces fuel cs = some (ps, rest)) :
    ∃ own, cs = own ++ '"' :: rest ∧ ∀ fuel' rest', own.length < fuel' →
      readPieces fuel' (own ++ '"' :: rest') = some (ps, rest') := by
  induction fuel generalizing cs ps with
  | zero => cases h
  | succ fuel ih =>
    obtain ⟨tail, rfl⟩ | ⟨own, tail, p, rfl, hne, hown⟩ := exists_piece h
    · cases h
      refine ⟨[], rfl, fun fuel' rest' hfuel => ?_⟩
      obtain ⟨fuel', rfl⟩ := Nat.exists_eq_succ_of_ne_zero (Nat.ne_of_gt hfuel)
      rfl
    · rw [hown, addPiece, Option.map_eq_some_iff] at h
      obtain ⟨⟨ps', after⟩, htail, heq⟩ := h
      cases heq
      obtain ⟨own', rfl, hread⟩ := ih htail
      refine ⟨own ++ own', (List.append_assoc _ _ _).symm, fun fuel' rest' hfuel => ?_⟩
      have hlength := List.length_pos_iff.2 hne
      rw [List.length_append] at hfuel
      obtain ⟨fuel', rfl⟩ := Nat.exists_eq_succ_of_ne_zero (Nat.ne_of_gt (Nat.zero_lt_of_lt hfuel))
      rw [List.append_assoc, hown, hread fuel' rest' (by omega)]
      rfl

/-- **A string** up to the closing quote, which comes last. -/
lemma exists_readString {cs rest : List Char} {o : Option String}
    (h : readString cs = some (o, rest)) :
    ∃ own, cs = own ++ '"' :: rest
      ∧ ∀ rest', readString (own ++ '"' :: rest') = some (o, rest') := by
  rw [readString, Option.map_eq_some_iff] at h
  obtain ⟨⟨ps, tail⟩, hpieces, heq⟩ := h
  cases heq
  obtain ⟨own, rfl, hread⟩ := exists_readPieces hpieces
  refine ⟨own, rfl, fun rest' => ?_⟩
  rw [readString, hread, Option.map_some]
  rw [List.length_append]
  omega

/-! ### Numbers -/

/-- That a digit comes last. -/
def EndsInDigit (cs : List Char) : Prop :=
  ∃ c ∈ cs.getLast?, c.isDigit = true

lemma EndsInDigit.append {cs : List Char} (h : EndsInDigit cs) (before : List Char) :
    EndsInDigit (before ++ cs) := by
  obtain ⟨c, hc, hdigit⟩ := h
  exact ⟨c, by simp_all, hdigit⟩

lemma Digits.endsInDigit {ds : List Char} (h : Digits ds) : EndsInDigit ds :=
  ⟨ds.getLast h.1, by simp [List.getLast?_eq_getLast_of_ne_nil h.1], h.2 _ (List.getLast_mem h.1)⟩

lemma digits_takeWhile {cs : List Char} (h : cs.takeWhile Char.isDigit ≠ []) :
    Digits (cs.takeWhile Char.isDigit) :=
  ⟨h, fun _ hc => List.mem_takeWhile_imp hc⟩

/-- What is read after the sign of an exponent. -/
def readPower (negative : Bool) (s : Significand) (below : Bool) (cs : List Char) :
    Draft × List Char :=
  let digits := cs.takeWhile Char.isDigit
  let rest := cs.dropWhile Char.isDigit
  if digits = [] then (.fault, rest)
  else
    let e : Nat := digits.foldl (fun n c => 10 * n + digitValue c) 0
    (.number (float negative s (if below then -e else e)), rest)

section

variable {negative : Bool} {s : Significand} {cs rest : List Char} {d : Draft}

lemma readPower_digits (below : Bool) {ds : List Char} (hds : Digits ds) (hrest : NoDigit rest) :
    readPower negative s below (ds ++ rest)
      = (.number (float negative s (if below then
            -(ds.foldl (fun n c => 10 * n + digitValue c) 0 : Nat)
          else (ds.foldl (fun n c => 10 * n + digitValue c) 0 : Nat))), rest) := by
  rw [readPower, takeWhile_digits hds hrest, dropWhile_digits hds hrest]
  exact if_neg hds.1

lemma exists_readPower {below : Bool} (h : readPower negative s below cs = (d, rest))
    (hd : d.complete = true) :
    ∃ own, cs = own ++ rest ∧ Digits own
      ∧ ∀ rest', NoDigit rest' → readPower negative s below (own ++ rest') = (d, rest') := by
  rw [readPower] at h
  split at h
  · cases h
    cases hd
  · rename_i hne
    cases h
    exact ⟨_, List.takeWhile_append_dropWhile.symm, digits_takeWhile hne, fun rest' hrest =>
      readPower_digits below (digits_takeWhile hne) hrest⟩

lemma readExponent_unsigned (h : ∀ c ∈ cs.head?, c ≠ '+' ∧ c ≠ '-') :
    readExponent negative s cs = readPower negative s false cs := by
  unfold readExponent
  split
  rename_i heq
  split at heq
  · exact absurd rfl (h '+' rfl).1
  · exact absurd rfl (h '-' rfl).2
  · cases heq
    rfl

lemma Digits.unsigned {ds : List Char} (hds : Digits ds) (rest : List Char) :
    ∀ c ∈ (ds ++ rest).head?, c ≠ '+' ∧ c ≠ '-' := by
  obtain ⟨c, tail, rfl⟩ := List.exists_cons_of_ne_nil hds.1
  have hc := hds.2 c List.mem_cons_self
  simp only [List.cons_append, List.head?_cons, Option.mem_some_iff, forall_eq']
  constructor <;> rintro rfl <;> cases hc

/-- The sign of an exponent, if it has one, is read before its digits. -/
lemma exists_sign (negative : Bool) (s : Significand) (cs : List Char) :
    ∃ sign tail below, cs = sign ++ tail
      ∧ readExponent negative s cs = readPower negative s below tail
      ∧ ∀ ds rest', Digits ds →
          readExponent negative s (sign ++ (ds ++ rest'))
            = readPower negative s below (ds ++ rest') := by
  by_cases hplus : ∃ tail, cs = '+' :: tail
  · obtain ⟨tail, rfl⟩ := hplus
    exact ⟨['+'], tail, false, rfl, rfl, fun _ _ _ => rfl⟩
  by_cases hminus : ∃ tail, cs = '-' :: tail
  · obtain ⟨tail, rfl⟩ := hminus
    exact ⟨['-'], tail, true, rfl, rfl, fun _ _ _ => rfl⟩
  refine ⟨[], cs, false, rfl, readExponent_unsigned ?_, fun ds rest' hds =>
    readExponent_unsigned (hds.unsigned rest')⟩
  cases cs with
  | nil => simp
  | cons c tail =>
    simp only [List.head?_cons, Option.mem_some_iff, forall_eq']
    exact ⟨fun h => hplus ⟨tail, h ▸ rfl⟩, fun h => hminus ⟨tail, h ▸ rfl⟩⟩

lemma exists_readExponent (h : readExponent negative s cs = (d, rest)) (hd : d.complete = true) :
    ∃ own, cs = own ++ rest ∧ EndsInDigit own
      ∧ ∀ rest', NoDigit rest' → readExponent negative s (own ++ rest') = (d, rest') := by
  obtain ⟨sign, tail, below, rfl, heq, hsign⟩ := exists_sign negative s cs
  rw [heq] at h
  obtain ⟨own, rfl, hown, hread⟩ := exists_readPower h hd
  refine ⟨sign ++ own, (List.append_assoc _ _ _).symm, hown.endsInDigit.append sign,
    fun rest' hrest => ?_⟩
  rw [List.append_assoc, hsign own rest' hown, hread rest' hrest]

/-- What is read after the digits of a number is nothing or an exponent. -/
lemma exists_readAfterDigits {plain : Option Number}
    (h : readAfterDigits negative s plain cs = (d, rest)) (hd : d.complete = true) :
    ∃ own, cs = own ++ rest ∧ (own = [] ∨ EndsInDigit own)
      ∧ ∀ rest', Ends rest' → NoDigit (own ++ rest') ∧ (own ++ rest').head? ≠ some '.'
          ∧ readAfterDigits negative s plain (own ++ rest') = (d, rest') := by
  unfold readAfterDigits at h
  split at h
  · obtain ⟨own, rfl, hown, hread⟩ := exists_readExponent h hd
    exact ⟨'e' :: own, rfl, .inr (hown.append ['e']), fun rest' hrest =>
      ⟨by simp [NoDigit], by simp, hread rest' hrest.noDigit⟩⟩
  · obtain ⟨own, rfl, hown, hread⟩ := exists_readExponent h hd
    exact ⟨'E' :: own, rfl, .inr (hown.append ['E']), fun rest' hrest =>
      ⟨by simp [NoDigit], by simp, hread rest' hrest.noDigit⟩⟩
  · cases h
    refine ⟨[], rfl, .inl rfl, fun rest' hrest => ⟨hrest.noDigit, fun hpoint => ?_,
      readAfterDigits_of_ends _ _ _ hrest⟩⟩
    exact (hrest '.' hpoint).2.1 rfl

lemma EndsInDigit.of_append {before cs : List Char} (hbefore : EndsInDigit before)
    (h : cs = [] ∨ EndsInDigit cs) : EndsInDigit (before ++ cs) := by
  obtain rfl | h := h
  · rwa [List.append_nil]
  · exact h.append before

/-- **A number** is read from its characters. -/
lemma exists_readNumber (h : readNumber negative cs = (d, rest)) (hd : d.complete = true) :
    ∃ own, cs = own ++ rest ∧ (∃ c ∈ own.head?, c.isDigit = true) ∧ EndsInDigit own
      ∧ ∀ rest', Ends rest' → readNumber negative (own ++ rest') = (d, rest') := by
  have hcut : cs = cs.takeWhile Char.isDigit ++ cs.dropWhile Char.isDigit :=
    List.takeWhile_append_dropWhile.symm
  rw [readNumber] at h
  dsimp only at h
  generalize hwhole : cs.takeWhile Char.isDigit = whole at h hcut
  generalize cs.dropWhile Char.isDigit = after at h hcut
  subst hcut
  split at h
  · cases h
    cases hd
  rename_i hgood
  obtain ⟨hne, hlead⟩ : whole ≠ [] ∧ (whole.head? = some '0' → whole.length = 1) := by tauto
  have hdigits : Digits whole := by
    rw [← hwhole] at hne ⊢
    exact digits_takeWhile hne
  have hfirst : ∀ own, ∃ c ∈ (whole ++ own).head?, c.isDigit = true := by
    intro own
    obtain ⟨c, tail, rfl⟩ := List.exists_cons_of_ne_nil hne
    exact ⟨c, rfl, hdigits.2 c List.mem_cons_self⟩
  split at h
  · split at h
    · cases h
      cases hd
    · rename_i tail hfraction
      obtain ⟨own, htail, hown, hread⟩ := exists_readAfterDigits h hd
      have hfs := digits_takeWhile hfraction
      refine ⟨whole ++ ('.' :: (tail.takeWhile Char.isDigit ++ own)), ?_, hfirst _, ?_,
        fun rest' hrest => ?_⟩
      · rw [List.append_assoc, List.cons_append, List.append_assoc, ← htail,
          List.takeWhile_append_dropWhile]
      · exact ((hfs.endsInDigit.of_append hown).append ['.']).append whole
      · obtain ⟨hdigit, -, hrest'⟩ := hread rest' hrest
        rw [List.append_assoc, List.cons_append, List.append_assoc,
          readNumber_point negative hdigits hlead hfs hdigit]
        exact hrest'
  · obtain ⟨own, rfl, hown, hread⟩ := exists_readAfterDigits h hd
    refine ⟨whole ++ own, (List.append_assoc _ _ _).symm, hfirst _,
      hdigits.endsInDigit.of_append hown, fun rest' hrest => ?_⟩
    obtain ⟨hdigit, hpoint, hrest'⟩ := hread rest' hrest
    rw [List.append_assoc, readNumber_bare negative hdigits hlead hdigit hpoint]
    exact hrest'

end

/-! ### Blanks -/

/-- What comes after the blanks is no blank. -/
lemma isBlank_of_skipBlanks {cs tail : List Char} {c : Char} (h : skipBlanks cs = c :: tail) :
    isBlank c = false := by
  have hskip : skipBlanks (skipBlanks cs) = skipBlanks cs := List.dropWhile_idempotent _ _
  by_contra hblank
  rw [h, skipBlanks, List.dropWhile_eq_self_iff] at hskip
  exact hskip (Nat.succ_pos _) (by simpa using hblank)

/-- What stands after the blanks stands there before anything else, too. -/
lemma exists_blanks (own : List Char) {cs rest : List Char} (h : skipBlanks cs = own ++ rest)
    (hown : own ≠ []) :
    ∃ blanks, cs = blanks ++ (own ++ rest) ∧ (∀ c ∈ blanks, isBlank c = true)
      ∧ ∀ tail, skipBlanks (blanks ++ (own ++ tail)) = own ++ tail := by
  obtain ⟨c, own, rfl⟩ := List.exists_cons_of_ne_nil hown
  have hc : isBlank c = false := isBlank_of_skipBlanks h
  refine ⟨cs.takeWhile isBlank, ?_, fun _ hblank => List.mem_takeWhile_imp hblank, fun tail => ?_⟩
  · rw [← h]
    exact List.takeWhile_append_dropWhile.symm
  · rw [skipBlanks, List.dropWhile_append_of_pos fun _ hblank => List.mem_takeWhile_imp hblank]
    simp [hc]

/-- Blanks carry no number on. -/
lemma ends_blanks {blanks : List Char} (hblanks : ∀ c ∈ blanks, isBlank c = true) {rest : List Char}
    (hrest : Ends rest) : Ends (blanks ++ rest) := by
  cases blanks with
  | nil => exact hrest
  | cons c blanks =>
    have hc := hblanks c List.mem_cons_self
    simp only [isBlank, Bool.or_eq_true, decide_eq_true_eq] at hc
    obtain ((rfl | rfl) | rfl) | rfl := hc <;> simp [Ends]

lemma readValue_congr {cs cs' : List Char} (h : skipBlanks cs = skipBlanks cs') (fuel : Nat) :
    readValue fuel cs = readValue fuel cs' := by
  cases fuel with
  | zero => rw [readValue, readValue]
  | succ fuel => rw [readValue, readValue, h]

/-- Where a character does not come first, something else does. -/
lemma ne_nil_of_open {own rest : List Char} {c : Char} (h : ∀ tail, own ++ c :: rest ≠ c :: tail) :
    own ≠ [] := by
  rintro rfl
  exact h rest rfl

lemma open_append {own rest : List Char} {c : Char} (hown : own ≠ [])
    (h : ∀ tail, own ++ rest ≠ c :: tail) (rest' tail : List Char) : own ++ rest' ≠ c :: tail := by
  obtain ⟨a, own, rfl⟩ := List.exists_cons_of_ne_nil hown
  intro heq
  obtain ⟨rfl, -⟩ := List.cons.inj heq
  exact h _ rfl

/-! ### Values -/

/-- That no white space stands at the ends. -/
def Bounded (cs : List Char) : Prop :=
  (∃ c ∈ cs.head?, Text.isWhiteSpace c = false) ∧ ∃ c ∈ cs.getLast?, Text.isWhiteSpace c = false

/-- The items of an array. -/
def parts : Draft → List Draft
  | .array items _ => items
  | _ => []

/-- That a stretch of the characters denotes a value, from its first character to its last. -/
def Carries (cs : List Char) (d : Draft) : Prop :=
  ∃ one, one <:+: cs ∧ Bounded one ∧ Denotes one d

lemma Carries.mono {cs cs' : List Char} {d : Draft} (h : Carries cs d) (hcs : cs <:+: cs') :
    Carries cs' d := by
  obtain ⟨one, hone, hdenotes⟩ := h
  exact ⟨one, hone.trans hcs, hdenotes⟩

/-- That a value has been read from some characters, before the rest. -/
structure Excerpt (cs : List Char) (d : Draft) (rest own : List Char) : Prop where
  cut : cs = own ++ rest
  bounded : Bounded own
  denotes : Denotes own d
  parts : ∀ e ∈ d.parts, Carries own e

/-- That items have been read from some characters, up to the closing bracket. -/
structure ItemsExcerpt (cs : List Char) (ds : List Draft) (rest own : List Char) : Prop where
  cut : cs = own ++ ']' :: rest
  parts : ∀ d ∈ ds, Carries own d
  denotes : ∀ fuel rest', 2 * own.length < fuel →
    readItems fuel (own ++ ']' :: rest') = (ds, true, rest')

/-- That fields have been read from some characters, up to the closing brace. -/
structure FieldsExcerpt (cs : List Char) (fs : List (Option String × Draft))
    (rest own : List Char) : Prop where
  cut : cs = own ++ '}' :: rest
  denotes : ∀ fuel rest', 2 * own.length < fuel →
    readFields fuel (own ++ '}' :: rest') = (fs, true, rest')

lemma Bounded.ne_nil {cs : List Char} (h : Bounded cs) : cs ≠ [] := by
  rintro rfl
  simp [Bounded] at h

/-- With the blanks before it a value is read as without them. -/
lemma Excerpt.exists_denotes {cs rest own : List Char} {d : Draft}
    (h : Excerpt (skipBlanks cs) d rest own) :
    ∃ before, cs = before ++ rest ∧ Denotes before d ∧ Carries before d := by
  obtain ⟨blanks, rfl, -, hskip⟩ := exists_blanks _ h.cut h.bounded.ne_nil
  refine ⟨blanks ++ own, (List.append_assoc _ _ _).symm, fun fuel rest' hfuel hrest => ?_,
    own, (List.suffix_append blanks own).isInfix, h.bounded, h.denotes⟩
  rw [List.length_append] at hfuel
  have hread := h.denotes fuel rest' (by omega) hrest
  rw [List.append_assoc, ← hread]
  refine readValue_congr ?_ fuel
  rw [hskip, ← hskip rest']
  exact (List.dropWhile_idempotent _ _).symm

section

variable {fuel : Nat}
  (hvalue : ∀ cs d rest, readValue fuel cs = (d, rest) → d.complete = true →
    ∃ own, Excerpt (skipBlanks cs) d rest own)
include hvalue

lemma exists_itemsExcerpt
    (hitems : ∀ cs ds rest, readItems fuel cs = (ds, true, rest) →
      ∃ own, ItemsExcerpt cs ds rest own)
    {cs : List Char} {ds : List Draft} {rest : List Char}
    (h : readItems (fuel + 1) cs = (ds, true, rest)) : ∃ own, ItemsExcerpt cs ds rest own := by
  obtain ⟨d, after, hread, hd, hrest⟩ := readItems_succ_iff.1 h
  obtain ⟨one, hone⟩ := hvalue cs d after hread hd
  obtain ⟨before, rfl, hbefore, hcarries⟩ := hone.exists_denotes
  obtain ⟨hclose, rfl⟩ | ⟨after', ds', hcomma, hopen, hafter, rfl⟩ := hrest
  · obtain ⟨blanks, rfl, hblanks, hskip⟩ := exists_blanks [']'] hclose (by simp)
    have hparts : ∀ e ∈ [d], Carries (before ++ blanks) e := by
      simpa using hcarries.mono (List.prefix_append before blanks).isInfix
    refine ⟨before ++ blanks, by simp, hparts, fun fuel' rest' hfuel => ?_⟩
    obtain ⟨fuel', rfl⟩ := Nat.exists_eq_succ_of_ne_zero (Nat.ne_of_gt (Nat.zero_lt_of_lt hfuel))
    rw [List.length_append] at hfuel
    rw [List.append_assoc]
    exact readItems_succ_iff.2 ⟨d, _, hbefore fuel' _ (by omega)
      (ends_blanks hblanks (ends_of_not_numeral (by decide) (by decide) _)), hd,
      .inl ⟨hskip rest', rfl⟩⟩
  · obtain ⟨own, hown⟩ := hitems _ _ _ hafter
    rw [hown.cut] at hopen
    have hne := ne_nil_of_open hopen
    obtain ⟨blanks, rfl, hblanks, hskip⟩ := exists_blanks [','] hcomma (by simp)
    obtain ⟨blanks', rfl, -, hskip'⟩ := exists_blanks _ hown.cut hne
    have hparts : ∀ e ∈ d :: ds', Carries (before ++ (blanks ++ ',' :: (blanks' ++ own))) e :=
      List.forall_mem_cons.2 ⟨hcarries.mono (List.prefix_append before _).isInfix,
        fun e he => (hown.parts e he).mono ⟨before ++ (blanks ++ ',' :: blanks'), [], by simp⟩⟩
    refine ⟨before ++ (blanks ++ ',' :: (blanks' ++ own)), by simp, hparts,
      fun fuel' rest' hfuel => ?_⟩
    obtain ⟨fuel', rfl⟩ := Nat.exists_eq_succ_of_ne_zero (Nat.ne_of_gt (Nat.zero_lt_of_lt hfuel))
    simp only [List.length_append, List.length_cons] at hfuel
    simp only [List.append_assoc, List.cons_append]
    have hopen' := open_append hne hopen (']' :: rest')
    have hafter' := hown.denotes fuel' rest' (by omega)
    rw [← hskip'] at hopen' hafter'
    exact readItems_succ_iff.2 ⟨d, _, hbefore fuel' _ (by omega)
      (ends_blanks hblanks (ends_of_not_numeral (by decide) (by decide) _)), hd,
      .inr ⟨_, ds', hskip _, hopen', hafter', rfl⟩⟩

lemma exists_fieldsExcerpt
    (hfields : ∀ cs fs rest, readFields fuel cs = (fs, true, rest) →
      ∃ own, FieldsExcerpt cs fs rest own)
    {cs : List Char} {fs : List (Option String × Draft)} {rest : List Char}
    (h : readFields (fuel + 1) cs = (fs, true, rest)) : ∃ own, FieldsExcerpt cs fs rest own := by
  obtain ⟨quoted, key, tail, after, d, after', hquote, hkey, hcolon, hread, hd, hrest⟩ :=
    readFields_succ_iff.1 h
  obtain ⟨one, hone⟩ := hvalue after d after' hread hd
  obtain ⟨before, rfl, hbefore, -⟩ := hone.exists_denotes
  obtain ⟨name, rfl, hname⟩ := exists_readString hkey
  obtain ⟨blanks, rfl, -, hskip⟩ := exists_blanks ['"'] hquote (by simp)
  obtain ⟨blanks', rfl, -, hskip'⟩ := exists_blanks [':'] hcolon (by simp)
  obtain ⟨hclose, rfl⟩ | ⟨next, fs', hcomma, hnext, rfl⟩ := hrest
  · obtain ⟨gap, rfl, hgap, hskip''⟩ := exists_blanks ['}'] hclose (by simp)
    refine ⟨blanks ++ '"' :: (name ++ '"' :: (blanks' ++ ':' :: (before ++ gap))), by simp,
      fun fuel' rest' hfuel => ?_⟩
    obtain ⟨fuel', rfl⟩ := Nat.exists_eq_succ_of_ne_zero (Nat.ne_of_gt (Nat.zero_lt_of_lt hfuel))
    simp only [List.length_append, List.length_cons] at hfuel
    simp only [List.append_assoc, List.cons_append]
    exact readFields_succ_iff.2 ⟨_, key, _, _, d, _, hskip _, hname _, hskip' _,
      hbefore fuel' _ (by omega)
        (ends_blanks hgap (ends_of_not_numeral (by decide) (by decide) _)), hd,
      .inl ⟨hskip'' _, rfl⟩⟩
  · obtain ⟨own, rfl, hown⟩ := hfields _ _ _ hnext
    obtain ⟨gap, rfl, hgap, hskip''⟩ := exists_blanks [','] hcomma (by simp)
    refine ⟨blanks ++ '"' :: (name ++ '"' :: (blanks' ++ ':' :: (before ++ (gap ++ ',' :: own)))),
      by simp, fun fuel' rest' hfuel => ?_⟩
    obtain ⟨fuel', rfl⟩ := Nat.exists_eq_succ_of_ne_zero (Nat.ne_of_gt (Nat.zero_lt_of_lt hfuel))
    simp only [List.length_append, List.length_cons] at hfuel
    simp only [List.append_assoc, List.cons_append]
    exact readFields_succ_iff.2 ⟨_, key, _, _, d, _, hskip _, hname _, hskip' _,
      hbefore fuel' _ (by omega)
        (ends_blanks hgap (ends_of_not_numeral (by decide) (by decide) _)), hd,
      .inr ⟨_, fs', hskip'' _, hown fuel' rest' (by omega), rfl⟩⟩

end

lemma readWord_of_complete {word cs rest : List Char} {value d : Draft}
    (h : readWord word value cs = (d, rest)) (hd : d.complete = true) :
    cs = word ++ rest ∧ d = value := by
  rw [readWord] at h
  split at h
  · rename_i hword
    cases h
    exact ⟨by conv_lhs => rw [← List.take_append_drop word.length cs, hword], rfl⟩
  · cases h
    cases hd

lemma readValue_array_closed (fuel : Nat) {cs rest : List Char} (h : skipBlanks cs = ']' :: rest) :
    readValue (fuel + 1) ('[' :: cs) = (.array [] true, rest) := by
  simp [readValue, show skipBlanks ('[' :: cs) = '[' :: cs from rfl, h]

lemma readValue_object_closed (fuel : Nat) {cs rest : List Char} (h : skipBlanks cs = '}' :: rest) :
    readValue (fuel + 1) ('{' :: cs) = (.object [] true, rest) := by
  simp [readValue, show skipBlanks ('{' :: cs) = '{' :: cs from rfl, h]

/-- Between two characters that are no white space. -/
lemma bounded_between {a b : Char} (ha : Text.isWhiteSpace a = false)
    (hb : Text.isWhiteSpace b = false) (cs : List Char) : Bounded (a :: (cs ++ [b])) :=
  ⟨⟨a, rfl, ha⟩, b, by simp [List.getLast?_cons], hb⟩

lemma EndsInDigit.exists_getLast? {cs : List Char} (h : EndsInDigit cs) :
    ∃ c ∈ cs.getLast?, Text.isWhiteSpace c = false := by
  obtain ⟨c, hc, hdigit⟩ := h
  exact ⟨c, hc, Text.isWhiteSpace_of_isDigit hdigit⟩

lemma parts_readAfterDigits (negative : Bool) (s : Significand) (plain : Option Number)
    (cs : List Char) : (readAfterDigits negative s plain cs).1.parts = [] := by
  have hexponent : ∀ cs, (readExponent negative s cs).1.parts = [] := by
    intro cs
    obtain ⟨sign, tail, below, -, heq, -⟩ := exists_sign negative s cs
    rw [heq, readPower]
    dsimp only
    split <;> rfl
  unfold readAfterDigits
  split
  · exact hexponent _
  · exact hexponent _
  · rfl

lemma parts_readNumber (negative : Bool) (cs : List Char) :
    (readNumber negative cs).1.parts = [] := by
  rw [readNumber]
  dsimp only
  split
  · rfl
  split
  · split
    · rfl
    · exact parts_readAfterDigits _ _ _ _
  · exact parts_readAfterDigits _ _ _ _

/-- A word. -/
lemma exists_excerpt_word {v : Json} {c : Char} {word tail rest : List Char} {d : Draft}
    (hprint : Json.print v = c :: word) (hparts : (ofPrinted v).parts = [])
    (hbounded : Bounded (c :: word)) (h : readWord word (ofPrinted v) tail = (d, rest))
    (hd : d.complete = true) : ∃ own, Excerpt (c :: tail) d rest own := by
  obtain ⟨rfl, rfl⟩ := readWord_of_complete h hd
  exact ⟨c :: word, rfl, hbounded, hprint ▸ readsBack v, by simp [hparts]⟩

/-- A string after its opening quote. -/
lemma exists_excerpt_string {tail rest : List Char} {o : Option String}
    (h : readString tail = some (o, rest)) : ∃ own, Excerpt ('"' :: tail) (.string o) rest own := by
  obtain ⟨own, rfl, hown⟩ := exists_readString h
  refine ⟨'"' :: (own ++ ['"']), by simp, bounded_between (by decide) (by decide) own,
    denotes_cons fun fuel rest' _ _ => ?_, by simp [parts]⟩
  have hread := hown rest'
  simp [readValue, skipBlanks, isBlank, hread]

/-- A number with a sign. -/
lemma exists_excerpt_minus {tail rest : List Char} {d : Draft}
    (h : readNumber true tail = (d, rest)) (hd : d.complete = true) :
    ∃ own, Excerpt ('-' :: tail) d rest own := by
  have hparts : d.parts = [] := by
    rw [← parts_readNumber true tail, h]
  obtain ⟨own, rfl, -, hlast, hread⟩ := exists_readNumber h hd
  refine ⟨'-' :: own, rfl, ⟨⟨'-', rfl, by decide⟩, (hlast.append ['-']).exists_getLast?⟩,
    denotes_cons fun fuel rest' _ hrest => ?_, by simp [hparts]⟩
  exact (readValue_minus fuel _).trans (hread rest' hrest)

/-- A number without a sign. -/
lemma exists_excerpt_digit {cs rest : List Char} {d : Draft} (h : readNumber false cs = (d, rest))
    (hd : d.complete = true) : ∃ own, Excerpt cs d rest own := by
  have hparts : d.parts = [] := by
    rw [← parts_readNumber false cs, h]
  obtain ⟨own, rfl, ⟨c, hc, hdigit⟩, hlast, hread⟩ := exists_readNumber h hd
  obtain ⟨tail, rfl⟩ : ∃ tail, own = c :: tail := List.head?_eq_some_iff.1 hc
  refine ⟨c :: tail, rfl, ⟨⟨c, rfl, Text.isWhiteSpace_of_isDigit hdigit⟩, hlast.exists_getLast?⟩,
    denotes_cons fun fuel rest' _ hrest => ?_, by simp [hparts]⟩
  exact (readValue_digit fuel hdigit _).trans (hread rest' hrest)

/-- An array, if its items can be cut out. -/
lemma exists_excerpt_array {fuel : Nat}
    (hitems : ∀ cs ds rest, readItems fuel cs = (ds, true, rest) →
      ∃ own, ItemsExcerpt cs ds rest own)
    {tail rest : List Char} {d : Draft} (h : readValue (fuel + 1) ('[' :: tail) = (d, rest))
    (hd : d.complete = true) : ∃ own, Excerpt ('[' :: tail) d rest own := by
  by_cases hclosed : ∃ after, skipBlanks tail = ']' :: after
  · obtain ⟨after, hclosed⟩ := hclosed
    rw [readValue_array_closed fuel hclosed] at h
    cases h
    obtain ⟨blanks, rfl, -, hskip⟩ := exists_blanks [']'] hclosed (by simp)
    refine ⟨'[' :: (blanks ++ [']']), by simp, bounded_between (by decide) (by decide) blanks,
      denotes_cons fun fuel' rest' _ _ => ?_, by simp [parts]⟩
    rw [List.append_assoc]
    exact readValue_array_closed fuel' (hskip rest')
  · have hopen := not_exists.1 hclosed
    obtain ⟨⟨ds, closed, after⟩, hread⟩ : ∃ x, readItems fuel (skipBlanks tail) = x := ⟨_, rfl⟩
    rw [readValue_array fuel hopen, hread] at h
    cases h
    obtain rfl : closed = true := hd
    obtain ⟨own, hown⟩ := hitems _ _ _ hread
    rw [hown.cut] at hopen
    have hne := ne_nil_of_open hopen
    obtain ⟨blanks, heq, -, hskip⟩ := exists_blanks _ hown.cut hne
    refine ⟨'[' :: ((blanks ++ own) ++ [']']), by simpa using heq,
      bounded_between (by decide) (by decide) _, denotes_cons fun fuel' rest' hfuel _ => ?_,
      fun e he => (hown.parts e he).mono ⟨'[' :: blanks, [']'], by simp⟩⟩
    simp only [List.length_append] at hfuel
    have hopen' := open_append hne hopen (']' :: rest')
    simp only [List.append_assoc, List.cons_append, List.nil_append]
    rw [← hskip] at hopen'
    rw [readValue_array fuel' hopen', hskip, hown.denotes fuel' rest' (by omega)]

/-- An object, if its fields can be cut out. -/
lemma exists_excerpt_object {fuel : Nat}
    (hfields : ∀ cs fs rest, readFields fuel cs = (fs, true, rest) →
      ∃ own, FieldsExcerpt cs fs rest own)
    {tail rest : List Char} {d : Draft} (h : readValue (fuel + 1) ('{' :: tail) = (d, rest))
    (hd : d.complete = true) : ∃ own, Excerpt ('{' :: tail) d rest own := by
  by_cases hclosed : ∃ after, skipBlanks tail = '}' :: after
  · obtain ⟨after, hclosed⟩ := hclosed
    rw [readValue_object_closed fuel hclosed] at h
    cases h
    obtain ⟨blanks, rfl, -, hskip⟩ := exists_blanks ['}'] hclosed (by simp)
    refine ⟨'{' :: (blanks ++ ['}']), by simp, bounded_between (by decide) (by decide) blanks,
      denotes_cons fun fuel' rest' _ _ => ?_, by simp [parts]⟩
    rw [List.append_assoc]
    exact readValue_object_closed fuel' (hskip rest')
  · have hopen := not_exists.1 hclosed
    obtain ⟨⟨fs, closed, after⟩, hread⟩ : ∃ x, readFields fuel (skipBlanks tail) = x := ⟨_, rfl⟩
    rw [readValue_object fuel hopen, hread] at h
    cases h
    obtain rfl : closed = true := hd
    obtain ⟨own, hown⟩ := hfields _ _ _ hread
    rw [hown.cut] at hopen
    have hne := ne_nil_of_open hopen
    obtain ⟨blanks, heq, -, hskip⟩ := exists_blanks _ hown.cut hne
    refine ⟨'{' :: ((blanks ++ own) ++ ['}']), by simpa using heq,
      bounded_between (by decide) (by decide) _, denotes_cons fun fuel' rest' hfuel _ => ?_,
      by simp [parts]⟩
    simp only [List.length_append] at hfuel
    have hopen' := open_append hne hopen ('}' :: rest')
    simp only [List.append_assoc, List.cons_append, List.nil_append]
    rw [← hskip] at hopen'
    rw [readValue_object fuel' hopen', hskip, hown.denotes fuel' rest' (by omega)]

/-- A value by its first character. -/
lemma exists_excerpt_cons {fuel : Nat}
    (hitems : ∀ cs ds rest, readItems fuel cs = (ds, true, rest) →
      ∃ own, ItemsExcerpt cs ds rest own)
    (hfields : ∀ cs fs rest, readFields fuel cs = (fs, true, rest) →
      ∃ own, FieldsExcerpt cs fs rest own)
    {c : Char} {tail rest : List Char} {d : Draft}
    (h : readValue (fuel + 1) (c :: tail) = (d, rest)) (hc : isBlank c = false)
    (hd : d.complete = true) : ∃ own, Excerpt (c :: tail) d rest own := by
  have hskip : skipBlanks (c :: tail) = c :: tail := by simp [skipBlanks, hc]
  by_cases hminus : c = '-'
  · subst hminus
    exact exists_excerpt_minus ((readValue_minus fuel tail).symm.trans h) hd
  by_cases hdigit : c.isDigit = true
  · exact exists_excerpt_digit ((readValue_digit fuel hdigit tail).symm.trans h) hd
  by_cases hbracket : c = '['
  · subst hbracket
    exact exists_excerpt_array hitems h hd
  by_cases hbrace : c = '{'
  · subst hbrace
    exact exists_excerpt_object hfields h hd
  simp only [readValue, hskip, hminus, hdigit, hbracket, hbrace] at h
  split at h
  · subst c
    exact exists_excerpt_word (v := .null) rfl rfl
      (bounded_between (by decide) (by decide) ['u', 'l']) h hd
  split at h
  · subst c
    exact exists_excerpt_word (v := .bool true) rfl rfl
      (bounded_between (by decide) (by decide) ['r', 'u']) h hd
  split at h
  · subst c
    exact exists_excerpt_word (v := .bool false) rfl rfl
      (bounded_between (by decide) (by decide) ['a', 'l', 's']) h hd
  split at h
  · subst c
    split at h
    · cases h
      exact exists_excerpt_string ‹_›
    · cases h
      cases hd
  · cases h
    cases hd

/-- **A value** is read from characters that denote it wherever they stand, and so are the items
inside. -/
theorem exists_excerpt (fuel : Nat) :
    (∀ cs d rest, readValue fuel cs = (d, rest) → d.complete = true →
        ∃ own, Excerpt (skipBlanks cs) d rest own)
      ∧ (∀ cs ds rest, readItems fuel cs = (ds, true, rest) →
        ∃ own, ItemsExcerpt cs ds rest own)
      ∧ ∀ cs fs rest, readFields fuel cs = (fs, true, rest) →
        ∃ own, FieldsExcerpt cs fs rest own := by
  induction fuel with
  | zero =>
    refine ⟨fun cs d rest h hd => ?_, fun cs ds rest h => ?_, fun cs fs rest h => ?_⟩
    · cases h
      cases hd
    · cases h
    · cases h
  | succ fuel ih =>
    obtain ⟨hvalue, hitems, hfields⟩ := ih
    refine ⟨fun cs d rest h hd => ?_, fun cs ds rest => exists_itemsExcerpt hvalue hitems,
      fun cs fs rest => exists_fieldsExcerpt hvalue hfields⟩
    cases hskip : skipBlanks cs with
    | nil =>
      simp only [readValue, hskip] at h
      cases h
      cases hd
    | cons c tail =>
      have hc := isBlank_of_skipBlanks hskip
      have hread : readValue (fuel + 1) (c :: tail) = (d, rest) :=
        (readValue_congr (by rw [hskip]; simp [skipBlanks, hc]) _).trans h
      exact exists_excerpt_cons hitems hfields hread hc hd

/-! ### The items of an array -/

/-- White space at the ends is trimmed, and there is none. -/
lemma trim_of_bounded {cs : List Char} (h : Bounded cs) :
    Text.trim (String.ofList cs) = String.ofList cs := by
  obtain ⟨⟨a, ha, hfirst⟩, b, hb, hlast⟩ := h
  have hdrop : ∀ {ds : List Char} {c : Char}, c ∈ ds.head? → Text.isWhiteSpace c = false →
      ds.dropWhile Text.isWhiteSpace = ds := by
    intro ds c hc hwhite
    obtain ⟨tail, rfl⟩ := List.head?_eq_some_iff.1 hc
    simp [hwhite]
  rw [Text.trim, Text.trimChars, String.toList_ofList, hdrop ha hfirst,
    hdrop (by rwa [List.head?_reverse]) hlast, List.reverse_reverse]

/-- What is left of a text that is trimmed is a stretch of it. -/
lemma toList_trim_isInfix (s : String) : (Text.trim s).toList <:+: s.toList := by
  rw [Text.trim, Text.trimChars, String.toList_ofList]
  have hfront : s.toList.dropWhile Text.isWhiteSpace <:+ s.toList := List.dropWhile_suffix _
  exact (List.rdropWhile_prefix Text.isWhiteSpace _).isInfix.trans hfront.isInfix

/-- Only an array's draft, and a closed one, gives an array. -/
lemma exists_array_of_value? {d : Draft} (depth : Nat) {vs : List Json}
    (h : d.value? (depth + 1) = some (.array vs)) :
    ∃ ds closed, d = .array ds closed ∧ items? depth ds = some vs ∧ closed = true := by
  cases d with
  | array ds closed =>
    rw [value?] at h
    split at h
    · split at h
      · cases h
        exact ⟨ds, closed, rfl, ‹_›, ‹_›⟩
      · cases h
    · cases h
  | object fs closed =>
    rw [value?] at h
    split at h
    · split at h <;> cases h
    · cases h
  | number n => cases n <;> cases h
  | string s => cases s <;> cases h
  | _ => cases h

/-- **A line of its own** for a value that some characters carry: a stretch of them. -/
lemma Carries.exists_line {cs : List Char} {d : Draft} {v : Json} (h : Carries cs d)
    (hv : d.value? depthLimit = some v) :
    ∃ line : String, line.toList <:+: cs ∧ Json.parse (Text.trim line) = some v := by
  obtain ⟨one, hone, hbounded, hdenotes⟩ := h
  have hread := hdenotes (2 * one.length + 2) [] (by omega) ends_nil
  rw [List.append_nil] at hread
  refine ⟨String.ofList one, by rwa [String.toList_ofList], ?_⟩
  rw [trim_of_bounded hbounded, Json.parse, Draft.read, String.toList_ofList, hread]
  exact hv

/-- The text of an array carries its items. -/
lemma exists_carried {text : String} {items : List Json}
    (h : Json.parse text = some (.array items)) :
    ∃ ds, items? 126 ds = some items ∧ ∀ d ∈ ds, Carries text.toList d := by
  obtain ⟨⟨d, rest⟩, hread⟩ : ∃ x, Draft.read text.toList = x := ⟨_, rfl⟩
  rw [Json.parse, hread] at h
  dsimp only at h
  split at h
  · obtain ⟨ds, closed, rfl, hds, hclosed⟩ := exists_array_of_value? 126 h
    obtain ⟨own, hown⟩ := (exists_excerpt _).1 _ _ _ hread hclosed
    have hskip : skipBlanks text.toList <:+ text.toList := List.dropWhile_suffix _
    rw [hown.cut] at hskip
    have hcut : own <:+: text.toList := (List.prefix_append own rest).isInfix.trans hskip.isInfix
    exact ⟨ds, hds, fun d hd => (hown.parts d hd).mono hcut⟩
  · cases h

/-- **An array** on a line can be told by a line for each of its items, cut out of that line. -/
theorem exists_lines_of_parse {line : String} {items : List Json}
    (h : Json.parse (Text.trim line) = some (.array items)) :
    ∃ lines : List String, List.Forall₂ (fun l v =>
      l.toList <:+: line.toList ∧ Json.parse (Text.trim l) = some v) lines items := by
  obtain ⟨ds, hds, hcarried⟩ := exists_carried h
  have hlines : ∀ d ∈ ds, ∀ v, d.value? 126 = some v →
      ∃ l : String, l.toList <:+: line.toList ∧ Json.parse (Text.trim l) = some v :=
    fun d hd v hv =>
      ((hcarried d hd).mono (toList_trim_isInfix line)).exists_line (value?_mono (by decide) hv)
  have hitems := forall_items? hds hlines
  clear hds h hcarried hlines
  induction items with
  | nil => exact ⟨[], .nil⟩
  | cons v items ih =>
    obtain ⟨⟨l, hl⟩, hitems⟩ := List.forall_mem_cons.1 hitems
    obtain ⟨lines, hlines⟩ := ih hitems
    exact ⟨l :: lines, .cons hl hlines⟩

end Draft
end SilentScan
