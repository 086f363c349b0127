/-
Numbers as they are printed.

A printed number is read as a number, whatever stands behind it, as long as that does not carry the
number on. Which number it is depends on rounding where there is a fraction or an exponent; whole
numbers within 64 bits are read as themselves.

* `Draft.Ends`, `Draft.Spells`: what may follow a number, and that characters spell one;
* `readNumber_bare`, `readNumber_point`: the reader, by the parts of a number;
* `decimal`, `render_eq`: the text of a floating number, by its digits and the power of ten;
* `readNumber_magnitudeText`: such a text is read as a number;
* `reread`, `spells_printNumber`, `isSome_reread`: what is read where a number is printed;
* `reread_whole`: whole numbers;
* `Numeral`: the characters a number is printed with.
-/
import Mathlib.Algebra.Order.Field.Rat
import Mathlib.Tactic.Common
import SilentScan.Json.Printer
import SilentScan.Proofs.Json.Values
import SilentScan.Proofs.Number.Decimal

namespace SilentScan

namespace Draft

/-- That characters do not carry a number on. -/
def Ends (rest : List Char) : Prop :=
  ∀ c ∈ rest.head?, c.isDigit = false ∧ c ≠ '.' ∧ c ≠ 'e' ∧ c ≠ 'E'

/-- That characters are decimal digits. -/
def Digits (ds : List Char) : Prop :=
  ds ≠ [] ∧ ∀ c ∈ ds, c.isDigit = true

/-- That no digit comes first. -/
def NoDigit (rest : List Char) : Prop :=
  ∀ c ∈ rest.head?, c.isDigit = false

lemma Ends.noDigit {rest : List Char} (h : Ends rest) : NoDigit rest :=
  fun c hc => (h c hc).1

lemma ends_nil : Ends [] := by
  simp [Ends]

/-! ### Digits -/

lemma takeWhile_digits {ds rest : List Char} (hds : Digits ds) (hrest : NoDigit rest) :
    (ds ++ rest).takeWhile Char.isDigit = ds := by
  rw [List.takeWhile_append_of_pos hds.2]
  cases rest with
  | nil => simp
  | cons c rest => simp [hrest c rfl]

lemma dropWhile_digits {ds rest : List Char} (hds : Digits ds) (hrest : NoDigit rest) :
    (ds ++ rest).dropWhile Char.isDigit = rest := by
  rw [List.dropWhile_append_of_pos hds.2]
  cases rest with
  | nil => rfl
  | cons c rest => simp [hrest c rfl]

/-- Digits only make a number larger. -/
lemma le_ofDigitChars (ds : List Char) (n : Nat) : n ≤ Nat.ofDigitChars 10 ds n := by
  induction ds generalizing n with
  | nil => exact le_rfl
  | cons c ds ih =>
    rw [Nat.ofDigitChars_cons]
    exact le_trans (by omega) (ih _)

/-- Digits before the point are taken in as long as they fit. -/
lemma foldl_pushWhole {ds : List Char} {n : Nat} {e : Int}
    (h : Nat.ofDigitChars 10 ds n ≤ wordMax) :
    ds.foldl Significand.pushWhole ⟨n, e, false⟩ = ⟨Nat.ofDigitChars 10 ds n, e, false⟩ := by
  induction ds generalizing n with
  | nil => rfl
  | cons c ds ih =>
    rw [Nat.ofDigitChars_cons] at h ⊢
    have hnext : ¬ wordMax < 10 * n + digitValue c := not_lt.2 ((le_ofDigitChars ds _).trans h)
    rw [List.foldl_cons, Significand.pushWhole]
    simp only [Bool.false_or, gt_iff_lt, decide_eq_true_eq, if_neg hnext]
    exact ih h

/-- Digits after the point are taken in as long as they fit, and lower the exponent. -/
lemma foldl_pushFraction {ds : List Char} {n : Nat} {e : Int}
    (h : Nat.ofDigitChars 10 ds n ≤ wordMax) :
    ds.foldl Significand.pushFraction ⟨n, e, false⟩
      = ⟨Nat.ofDigitChars 10 ds n, e - ds.length, false⟩ := by
  induction ds generalizing n e with
  | nil => simp [Nat.ofDigitChars]
  | cons c ds ih =>
    rw [Nat.ofDigitChars_cons] at h ⊢
    have hnext : ¬ wordMax < 10 * n + digitValue c := not_lt.2 ((le_ofDigitChars ds _).trans h)
    rw [List.foldl_cons, Significand.pushFraction]
    simp only [Bool.false_or, gt_iff_lt, decide_eq_true_eq, if_neg hnext]
    refine (ih h).trans ?_
    simp only [List.length_cons, Nat.cast_add, Nat.cast_one, Significand.mk.injEq, and_true,
      true_and]
    omega

/-- Digits after the point never raise the exponent. -/
lemma exponent_foldl_pushFraction_le (ds : List Char) (s : Significand) :
    (ds.foldl Significand.pushFraction s).exponent ≤ s.exponent := by
  induction ds generalizing s with
  | nil => exact le_rfl
  | cons c ds ih =>
    refine (ih _).trans ?_
    rw [Significand.pushFraction]
    split
    · exact le_rfl
    · exact (sub_lt_self _ one_pos).le

/-! ### The reader -/

/-- A number without a fraction. -/
lemma readNumber_bare (negative : Bool) {ds rest : List Char} (hds : Digits ds)
    (hlead : ds.head? = some '0' → ds.length = 1) (hrest : NoDigit rest)
    (hpoint : rest.head? ≠ some '.') :
    readNumber negative (ds ++ rest)
      = readAfterDigits negative (ds.foldl Significand.pushWhole ⟨0, 0, false⟩)
          (wholeNumber negative (ds.foldl Significand.pushWhole ⟨0, 0, false⟩)) rest := by
  have hgood : ¬ (ds = [] ∨ (ds.head? = some '0' ∧ ds.length ≠ 1)) := by
    have := hds.1
    tauto
  rw [readNumber, takeWhile_digits hds hrest, dropWhile_digits hds hrest]
  dsimp only
  rw [if_neg hgood]
  split
  · simp at hpoint
  · rfl

/-- A number with a fraction. -/
lemma readNumber_point (negative : Bool) {ds fs rest : List Char} (hds : Digits ds)
    (hlead : ds.head? = some '0' → ds.length = 1) (hfs : Digits fs) (hrest : NoDigit rest) :
    readNumber negative (ds ++ '.' :: (fs ++ rest))
      = readAfterDigits negative
          (fs.foldl Significand.pushFraction
            { ds.foldl Significand.pushWhole ⟨0, 0, false⟩ with full := false })
          (float negative (fs.foldl Significand.pushFraction
            { ds.foldl Significand.pushWhole ⟨0, 0, false⟩ with full := false }) 0) rest := by
  have hgood : ¬ (ds = [] ∨ (ds.head? = some '0' ∧ ds.length ≠ 1)) := by
    have := hds.1
    tauto
  have hdot : NoDigit ('.' :: (fs ++ rest)) := by simp [NoDigit]
  rw [readNumber, takeWhile_digits hds hdot, dropWhile_digits hds hdot]
  dsimp only
  rw [if_neg hgood]
  simp only [takeWhile_digits hfs hrest, dropWhile_digits hfs hrest, if_neg hfs.1]

lemma readAfterDigits_of_ends (negative : Bool) (s : Significand) (plain : Option Number)
    {rest : List Char} (h : Ends rest) :
    readAfterDigits negative s plain rest = (.number plain, rest) := by
  unfold readAfterDigits
  split
  · exact absurd rfl (h 'e' rfl).2.2.1
  · exact absurd rfl (h 'E' rfl).2.2.2
  · rfl

/-- An exponent that carries its sign. -/
lemma readAfterDigits_exponent (negative below : Bool) (s : Significand) (plain : Option Number)
    {es rest : List Char} (hes : Digits es) (h : NoDigit rest) :
    readAfterDigits negative s plain ('e' :: (if below then '-' else '+') :: (es ++ rest))
      = (.number (float negative s
          (if below then -(Nat.ofDigitChars 10 es 0 : Int) else Nat.ofDigitChars 10 es 0)),
        rest) := by
  cases below <;>
    simp [readAfterDigits, readExponent, takeWhile_digits hes h, dropWhile_digits hes h, hes.1,
      Nat.ofDigitChars, digitValue]

/-! ### The text of a floating number -/

/-- The text of digits that are multiplied by a power of ten. -/
def decimal (digits : List Char) (k : Int) : List Char :=
  let order := k + digits.length - 1
  let zeros (n : Int) := List.replicate n.toNat '0'
  if -5 ≤ order ∧ order ≤ 15 then
    if order < 0 then '0' :: '.' :: zeros (-order - 1) ++ digits
    else if 0 ≤ k then digits ++ zeros k ++ ['.', '0']
    else digits.take (order.toNat + 1) ++ '.' :: digits.drop (order.toNat + 1)
  else
    let head := digits.take 1 ++ (if digits.length = 1 then [] else '.' :: digits.drop 1)
    head ++ 'e' :: (if order < 0 then '-' else '+') :: (toString order.natAbs).toList

/-- The magnitude of a floating number as text. -/
def magnitudeText (d : Double) : List Char :=
  if d.mantissa = 0 then ['0', '.', '0'] else decimal (Nat.toDigits 10 d.shortest.1) d.shortest.2

/-- A floating number is written as its sign and its magnitude. -/
lemma render_eq (d : Double) :
    d.render.toList = (if d.negative then ['-'] else []) ++ magnitudeText d := by
  have hsign : (if d.negative then "-" else "").toList = if d.negative then ['-'] else [] := by
    split <;> rfl
  by_cases hzero : d.mantissa = 0
  · rw [Double.render, magnitudeText, if_pos hzero, if_pos hzero, String.toList_append, hsign]
    rfl
  · rw [Double.render, magnitudeText, if_neg hzero, if_neg hzero]
    obtain ⟨c, k⟩ := d.shortest
    rw [String.toList_append, hsign, String.toList_ofList]
    simp only [decimal, Nat.toString_eq_ofList_toDigits, String.toList_ofList]

lemma digits_toDigits (n : Nat) : Digits (Nat.toDigits 10 n) :=
  ⟨Nat.toDigits_ne_nil, fun _ hc => Nat.isDigit_of_mem_toDigits (by norm_num) (by norm_num) hc⟩

/-- Zero is the only number that is written with a zero in front. -/
lemma eq_zero_of_head?_toDigits {n : Nat} (h : (Nat.toDigits 10 n).head? = some '0') : n = 0 := by
  induction n using Nat.strong_induction_on with
  | _ n ih =>
    rcases lt_or_ge n 10 with hsmall | hlarge
    · have hdigit : ∀ m < 10, m.digitChar = '0' → m = 0 := by decide
      rw [Nat.toDigits_of_lt_base hsmall] at h
      exact hdigit n hsmall (Option.some.inj h)
    · rw [Nat.toDigits_of_base_le (by norm_num) hlarge,
        List.head?_append_of_ne_nil _ Nat.toDigits_ne_nil] at h
      have hzero := ih (n / 10) (by omega) h
      omega

lemma replicate_zero_digits {n : Nat} {c : Char} (h : c ∈ List.replicate n '0') :
    c.isDigit = true := by
  rw [List.eq_of_mem_replicate h]
  rfl

section Decimal

variable {ds : List Char} {k : Int} (hds : Digits ds)
  (hlead : ds.head? = some '0' → ds.length = 1 ∧ k = 0)
include hds hlead

/-- In the middle of the range a decimal has a point, and few digits before it. -/
lemma decimal_positional (horder : -5 ≤ k + ds.length - 1 ∧ k + ds.length - 1 ≤ 15) :
    ∃ whole fs, decimal ds k = whole ++ '.' :: fs ∧ Digits whole ∧ Digits fs
      ∧ (whole.head? = some '0' → whole.length = 1) ∧ whole.length ≤ 16 := by
  have hlength : 0 < ds.length := List.length_pos_iff.2 hds.1
  simp only [decimal, if_pos horder]
  split
  · refine ⟨['0'], List.replicate (-(k + ds.length - 1) - 1).toNat '0' ++ ds, rfl,
      ⟨by simp, by simp⟩, ⟨by simp [hds.1], fun c hc => ?_⟩, by simp, by simp⟩
    exact (List.mem_append.1 hc).elim replicate_zero_digits (hds.2 c)
  · split
    · refine ⟨ds ++ List.replicate k.toNat '0', ['0'], by simp, ⟨by simp [hds.1], fun c hc => ?_⟩,
        ⟨by simp, by simp⟩, fun hzero => ?_, ?_⟩
      · exact (List.mem_append.1 hc).elim (hds.2 c) replicate_zero_digits
      · rw [List.head?_append_of_ne_nil _ hds.1] at hzero
        obtain ⟨hone, rfl⟩ := hlead hzero
        simp [hone]
      · rw [List.length_append, List.length_replicate]
        omega
    · refine ⟨_, _, rfl, ⟨?_, fun c hc => hds.2 c (List.mem_of_mem_take hc)⟩,
        ⟨?_, fun c hc => hds.2 c (List.mem_of_mem_drop hc)⟩, fun hzero => ?_, ?_⟩
      · simp [hds.1]
      · simp only [ne_eq, List.drop_eq_nil_iff]
        omega
      · obtain ⟨c, rest, rfl⟩ := List.exists_cons_of_ne_nil hds.1
        simp at hzero
        subst hzero
        have := hlead rfl
        omega
      · rw [List.length_take]
        omega

omit hlead in
/-- Elsewhere it is read digit by digit, with the power of ten as it is. -/
lemma readNumber_exponent (negative : Bool)
    (horder : ¬ (-5 ≤ k + ds.length - 1 ∧ k + ds.length - 1 ≤ 15))
    (hfits : Nat.ofDigitChars 10 ds 0 ≤ wordMax) {rest : List Char} (hrest : Ends rest) :
    readNumber negative (decimal ds k ++ rest)
      = (.number (float negative ⟨Nat.ofDigitChars 10 ds 0, 1 - ds.length, false⟩
          (k + ds.length - 1)), rest) := by
  have hexponent : ∀ s plain, readAfterDigits negative s plain
      ('e' :: (if k + ds.length - 1 < 0 then '-' else '+')
        :: ((toString (k + ds.length - 1).natAbs).toList ++ rest))
        = (.number (float negative s (k + ds.length - 1)), rest) := by
    intro s plain
    have hread := readAfterDigits_exponent negative (decide (k + ds.length - 1 < 0)) s plain
      (digits_toDigits (k + ds.length - 1).natAbs) hrest.noDigit
    rw [Nat.toString_eq_ofList_toDigits, String.toList_ofList]
    simp only [decide_eq_true_eq, Nat.ofDigitChars_ten_toDigits] at hread
    rw [hread]
    split <;> congr 4 <;> omega
  have hletter : ∀ tail, NoDigit ('e' :: tail) := by simp [NoDigit]
  simp only [decimal, if_neg horder]
  match ds, hds, hfits, hexponent with
  | [], hds, _, _ => exact absurd rfl hds.1
  | [c], hds, hfits, hexponent =>
    refine (readNumber_bare negative hds (by simp) (hletter _) (by simp)).trans ?_
    rw [foldl_pushWhole hfits]
    exact hexponent _ _
  | c :: f :: fs, hds, hfits, hexponent =>
    have hfirst : Digits [c] := ⟨by simp, fun a ha => hds.2 a (by simp_all)⟩
    have hothers : Digits (f :: fs) := ⟨by simp, fun a ha => hds.2 a (List.mem_cons_of_mem _ ha)⟩
    have hhead : Nat.ofDigitChars 10 [c] 0 ≤ wordMax :=
      (le_ofDigitChars (f :: fs) _).trans hfits
    have hread := readNumber_point negative hfirst (by simp) hothers
      (hletter ((if k + (c :: f :: fs).length - 1 < 0 then '-' else '+')
        :: ((toString (k + (c :: f :: fs).length - 1).natAbs).toList ++ rest)))
    rw [foldl_pushWhole hhead] at hread
    dsimp only at hread
    rw [foldl_pushFraction (n := Nat.ofDigitChars 10 [c] 0) hfits, hexponent] at hread
    have hlength : (0 : Int) - (f :: fs).length = 1 - (c :: f :: fs).length := by
      simp only [List.length_cons]
      omega
    have hvalue : Nat.ofDigitChars 10 (f :: fs) (Nat.ofDigitChars 10 [c] 0)
        = Nat.ofDigitChars 10 (c :: f :: fs) 0 := rfl
    rw [hlength, hvalue] at hread
    simpa using hread

end Decimal

/-- A small exponent leads to a number if the digits with it do. -/
lemma isSome_float (negative : Bool) {s : Significand} {written : Int}
    (hsmall : written ≤ exponentMax)
    (h : (scaled s.value (s.exponent + written)).isSome = true) :
    (float negative s written).isSome = true := by
  rw [float, if_neg (not_lt.2 hsmall)]
  split
  · rfl
  · rw [Option.isSome_map]
    exact h

lemma ofDigitChars_lt {ds : List Char} (h : ∀ c ∈ ds, c.isDigit = true) (n : Nat) :
    Nat.ofDigitChars 10 ds n < (n + 1) * 10 ^ ds.length := by
  induction ds generalizing n with
  | nil => simp [Nat.ofDigitChars]
  | cons c ds ih =>
    have hdigit : c.toNat - '0'.toNat ≤ 9 := by
      have hc := h c List.mem_cons_self
      simp only [Char.isDigit, Bool.and_eq_true, decide_eq_true_eq] at hc
      have hle : c.toNat ≤ '9'.toNat := hc.2
      have hnine : '9'.toNat = 57 := rfl
      have hzero : '0'.toNat = 48 := rfl
      omega
    rw [Nat.ofDigitChars_cons, List.length_cons, pow_succ]
    refine (ih (fun a ha => h a (List.mem_cons_of_mem _ ha)) _).trans_le ?_
    calc (10 * n + (c.toNat - '0'.toNat) + 1) * 10 ^ ds.length
        ≤ (10 * (n + 1)) * 10 ^ ds.length := Nat.mul_le_mul_right _ (by omega)
      _ = (n + 1) * (10 ^ ds.length * 10) := by ring

/-- Few digits before the point, and some after it, are always read as a number: the first digit
after the point is taken in, so that the reader divides. -/
lemma readNumber_positional (negative : Bool) {whole fs : List Char} (hwhole : Digits whole)
    (hfs : Digits fs) (hlead : whole.head? = some '0' → whole.length = 1)
    (hfew : whole.length ≤ 16) :
    ∃ x, ∀ rest, Ends rest →
      readNumber negative (whole ++ '.' :: (fs ++ rest)) = (.number (some x), rest) := by
  obtain ⟨n, hn⟩ : ∃ n, n = Nat.ofDigitChars 10 whole 0 := ⟨_, rfl⟩
  have hsmall : n < 10 ^ 16 :=
    calc n < (0 + 1) * 10 ^ whole.length := hn ▸ ofDigitChars_lt hwhole.2 0
      _ ≤ 10 ^ 16 := by
        rw [zero_add, one_mul]
        exact Nat.pow_le_pow_right (by norm_num) hfew
  have hfits : Nat.ofDigitChars 10 whole 0 ≤ wordMax := by
    rw [← hn, wordMax]
    omega
  obtain ⟨s, hs⟩ : ∃ s, s = fs.foldl Significand.pushFraction ⟨n, 0, false⟩ := ⟨_, rfl⟩
  have hexponent : s.exponent < 0 := by
    obtain ⟨f, more, rfl⟩ := List.exists_cons_of_ne_nil hfs.1
    have hsingle : ∀ c ∈ [f], c.isDigit = true := by simpa using hfs.2 f
    have hdigit := ofDigitChars_lt hsingle n
    simp only [Nat.ofDigitChars_cons, Nat.ofDigitChars_nil, List.length_singleton] at hdigit
    have hnext : ¬ wordMax < 10 * n + digitValue f := by
      simp only [digitValue, wordMax]
      omega
    rw [hs, List.foldl_cons]
    refine (exponent_foldl_pushFraction_le _ _).trans_lt ?_
    simp [Significand.pushFraction, hnext]
  have hsome : (float negative s 0).isSome = true :=
    isSome_float negative (by simp) (isSome_scaled_of_neg _ (by simpa using hexponent))
  obtain ⟨x, hx⟩ := Option.isSome_iff_exists.1 hsome
  refine ⟨x, fun rest hrest => ?_⟩
  rw [readNumber_point negative hwhole hlead hfs hrest.noDigit, foldl_pushWhole hfits]
  dsimp only
  rw [← hn, ← hs, readAfterDigits_of_ends _ _ _ hrest, hx]

/-- **The magnitude of a floating number** is read as a number. -/
lemma readNumber_magnitudeText (negative : Bool) (d : Double) :
    ∃ o, (d.isFinite = true → o.isSome = true)
      ∧ ∀ rest, Ends rest → readNumber negative (magnitudeText d ++ rest) = (.number o, rest) := by
  rw [magnitudeText]
  split
  · have hzero : Digits ['0'] := ⟨by simp, by simp⟩
    obtain ⟨x, hx⟩ := readNumber_positional negative hzero hzero (by simp) (by simp)
    exact ⟨some x, fun _ => rfl, hx⟩
  · rename_i hmantissa
    have hpos : 0 < d.mantissa := Nat.pos_of_ne_zero hmantissa
    have hspec := Double.shortest_spec hpos
    have hscaled := fun h => isSome_scaled_shortest (d := d) h hpos
    generalize d.shortest = digits at hspec hscaled ⊢
    obtain ⟨c, k⟩ := digits
    have hc : c ≤ 10 ^ 18 := by
      rcases hspec with hnone | ⟨-, hc, -⟩
      · rw [(Prod.mk.inj hnone).1]
        exact Nat.zero_le _
      · exact hc
    have hlead : (Nat.toDigits 10 c).head? = some '0' → (Nat.toDigits 10 c).length = 1 ∧ k = 0 := by
      intro hhead
      obtain rfl := eq_zero_of_head?_toDigits hhead
      rcases hspec with hnone | ⟨hpos, -⟩
      · exact ⟨rfl, (Prod.mk.inj hnone).2⟩
      · exact absurd hpos (lt_irrefl _)
    have hdigits := digits_toDigits c
    by_cases horder : -5 ≤ k + (Nat.toDigits 10 c).length - 1
        ∧ k + (Nat.toDigits 10 c).length - 1 ≤ 15
    · obtain ⟨whole, fs, htext, hwhole, hfs, hzero, hfew⟩ :=
        decimal_positional hdigits hlead horder
      obtain ⟨x, hx⟩ := readNumber_positional negative hwhole hfs hzero hfew
      refine ⟨some x, fun _ => rfl, fun rest hrest => ?_⟩
      rw [htext, List.append_assoc, List.cons_append]
      exact hx rest hrest
    · have hfits : Nat.ofDigitChars 10 (Nat.toDigits 10 c) 0 ≤ wordMax := by
        rw [Nat.ofDigitChars_ten_toDigits, wordMax]
        omega
      refine ⟨_, fun hfinite => ?_, fun rest hrest => readNumber_exponent hdigits negative horder
        hfits hrest⟩
      have hlength : (Nat.toDigits 10 c).length ≤ 19 :=
        (Nat.length_toDigits_le_iff (by norm_num) (by norm_num)).2 (by omega)
      obtain ⟨hsome, hk⟩ := hscaled hfinite
      refine isSome_float negative (by simp only [exponentMax] at hk ⊢; omega) ?_
      rw [Nat.ofDigitChars_ten_toDigits]
      have hsum : (1 : Int) - (Nat.toDigits 10 c).length
          + (k + (Nat.toDigits 10 c).length - 1) = k := by
        omega
      rw [hsum]
      exact hsome

/-! ### Printed numbers -/

/-- That characters spell a number, whatever follows them. -/
def Spells (cs : List Char) (o : Option Number) : Prop :=
  ∀ fuel rest, Ends rest → readValue (fuel + 1) (cs ++ rest) = (.number o, rest)

lemma readValue_minus (fuel : Nat) (cs : List Char) :
    readValue (fuel + 1) ('-' :: cs) = readNumber true cs := by
  simp [readValue, skipBlanks, isBlank]

lemma readValue_digit (fuel : Nat) {c : Char} (hc : c.isDigit = true) (cs : List Char) :
    readValue (fuel + 1) (c :: cs) = readNumber false (c :: cs) := by
  have hne : ∀ a : Char, a.isDigit = false → c ≠ a := by
    rintro a ha rfl
    simp [ha] at hc
  have hblank : isBlank c = false := by simp [isBlank, hne]
  simp [readValue, skipBlanks, hblank, hc, hne]

/-- What is read as a number begins with a digit. -/
lemma exists_digit_of_readNumber {negative : Bool} {cs rest : List Char} {o : Option Number}
    (h : readNumber negative cs = (.number o, rest)) :
    ∃ c tail, cs = c :: tail ∧ c.isDigit = true := by
  cases cs with
  | nil => simp [readNumber] at h
  | cons c tail =>
    refine ⟨c, tail, rfl, ?_⟩
    by_contra hc
    simp [readNumber, hc] at h

/-- What is read as a number is read after a sign and without one. -/
lemma spells_of_readNumber (negative : Bool) {cs : List Char} {o : Option Number}
    (h : ∀ rest, Ends rest → readNumber negative (cs ++ rest) = (.number o, rest)) :
    Spells (if negative then '-' :: cs else cs) o := by
  intro fuel rest hrest
  have hread := h rest hrest
  cases negative with
  | true => exact (readValue_minus fuel _).trans hread
  | false =>
    obtain ⟨c, tail, heq, hc⟩ := exists_digit_of_readNumber hread
    rw [if_neg Bool.false_ne_true, heq, readValue_digit fuel hc, ← heq]
    exact hread

/-- The digits of a natural under a sign. -/
lemma readNumber_toDigits (negative : Bool) (n : Nat) {rest : List Char} (hrest : Ends rest) :
    readNumber negative (Nat.toDigits 10 n ++ rest)
      = (.number (wholeNumber negative
          ((Nat.toDigits 10 n).foldl Significand.pushWhole ⟨0, 0, false⟩)), rest) := by
  have hlead : (Nat.toDigits 10 n).head? = some '0' → (Nat.toDigits 10 n).length = 1 := by
    intro hhead
    rw [eq_zero_of_head?_toDigits hhead]
    rfl
  rw [readNumber_bare negative (digits_toDigits n) hlead hrest.noDigit
    (fun hpoint => (hrest '.' hpoint).2.1 rfl), readAfterDigits_of_ends _ _ _ hrest]

lemma foldl_toDigits {n : Nat} (hn : n ≤ wordMax) :
    (Nat.toDigits 10 n).foldl Significand.pushWhole ⟨0, 0, false⟩ = ⟨n, 0, false⟩ := by
  have hvalue : Nat.ofDigitChars 10 (Nat.toDigits 10 n) 0 = n := Nat.ofDigitChars_ten_toDigits
  rw [foldl_pushWhole (hvalue.trans_le hn), hvalue]

/-- Whole numbers are read as such if they are within 64 bits, and as some number otherwise. -/
lemma exists_spells_whole (n : Int) :
    ∃ o, Spells (Json.printNumber (.whole n)) o
      ∧ (Number.Sound (.whole n) → o = some (.whole n)) := by
  cases n with
  | ofNat n =>
    refine ⟨_, spells_of_readNumber false fun rest => readNumber_toDigits false n,
      fun hsound => ?_⟩
    rw [foldl_toDigits (Int.ofNat_le.1 hsound.2)]
    rfl
  | negSucc n =>
    refine ⟨_, spells_of_readNumber true fun rest => readNumber_toDigits true (n + 1),
      fun hsound => ?_⟩
    have hlow : n + 1 ≤ 0x8000_0000_0000_0000 := by
      have := hsound.1
      omega
    rw [foldl_toDigits (by rw [wordMax]; omega), wholeNumber, if_neg Bool.false_ne_true, if_pos rfl,
      if_pos ⟨Nat.succ_pos n, hlow⟩]
    rfl

lemma exists_spells (n : Number) :
    ∃ o, Spells (Json.printNumber n) o ∧ (n.Sound → o.isSome = true) := by
  cases n with
  | whole n =>
    obtain ⟨o, hspells, hsound⟩ := exists_spells_whole n
    exact ⟨o, hspells, fun h => by rw [hsound h]; rfl⟩
  | float d =>
    obtain ⟨o, hsome, hread⟩ := readNumber_magnitudeText d.negative d
    refine ⟨o, ?_, hsome⟩
    have hspells := spells_of_readNumber d.negative hread
    rw [Json.printNumber, render_eq]
    cases hneg : d.negative <;> rw [hneg] at hspells <;> exact hspells

/-- What is read where a number is printed. -/
def reread (n : Number) : Option Number :=
  match (readValue 1 (Json.printNumber n)).1 with
  | .number o => o
  | _ => none

lemma Spells.reread_eq {n : Number} {o : Option Number} (h : Spells (Json.printNumber n) o) :
    reread n = o := by
  have hread := h 0 [] ends_nil
  rw [List.append_nil] at hread
  rw [reread, hread]

/-- **A printed number** is read as a number. -/
theorem spells_printNumber (n : Number) : Spells (Json.printNumber n) (reread n) := by
  obtain ⟨o, h, -⟩ := exists_spells n
  rwa [h.reread_eq]

theorem isSome_reread {n : Number} (hn : n.Sound) : (reread n).isSome = true := by
  obtain ⟨o, h, hsome⟩ := exists_spells n
  rw [h.reread_eq]
  exact hsome hn

/-- **Whole numbers** within 64 bits are read as themselves. -/
theorem reread_whole {n : Int} (hn : Number.Sound (.whole n)) :
    reread (.whole n) = some (.whole n) := by
  obtain ⟨o, h, hsound⟩ := exists_spells_whole n
  rw [h.reread_eq]
  exact hsound hn

/-! ### The characters of numbers -/

/-- The characters of which numbers are written. -/
def Numeral (c : Char) : Prop :=
  c.isDigit = true ∨ c ∈ ['-', '+', '.', 'e']

instance (c : Char) : Decidable (Numeral c) :=
  inferInstanceAs (Decidable (_ ∨ _))

lemma numeral_digits {ds : List Char} (h : Digits ds) : ∀ c ∈ ds, Numeral c :=
  fun c hc => .inl (h.2 c hc)

lemma numeral_zeros (n : Nat) : ∀ c ∈ List.replicate n '0', Numeral c :=
  fun _ hc => .inl (replicate_zero_digits hc)

lemma numeral_decimal {ds : List Char} (hds : Digits ds) (k : Int) :
    ∀ c ∈ decimal ds k, Numeral c := by
  have hdigits := numeral_digits hds
  have htake : ∀ n, ∀ c ∈ ds.take n, Numeral c := fun n c hc => hdigits c (List.mem_of_mem_take hc)
  have hdrop : ∀ n, ∀ c ∈ ds.drop n, Numeral c := fun n c hc => hdigits c (List.mem_of_mem_drop hc)
  have hzero : Numeral '0' := .inl rfl
  have hpoint : Numeral '.' := .inr (by simp)
  have hletter : Numeral 'e' := .inr (by simp)
  have hsign : ∀ p : Prop, [Decidable p] → Numeral (if p then '-' else '+') := by
    intro p _
    split <;> exact .inr (by simp)
  have hexponent : ∀ n : Nat, ∀ c ∈ (toString n).toList, Numeral c := by
    intro n
    rw [Nat.toString_eq_ofList_toDigits, String.toList_ofList]
    exact numeral_digits (digits_toDigits n)
  have hfraction : ∀ c ∈ (if ds.length = 1 then [] else '.' :: ds.drop 1), Numeral c := by
    split
    · simp
    · exact List.forall_mem_cons.2 ⟨hpoint, hdrop 1⟩
  simp only [decimal]
  split
  · split
    · exact List.forall_mem_cons.2 ⟨hzero, List.forall_mem_cons.2
        ⟨hpoint, List.forall_mem_append.2 ⟨numeral_zeros _, hdigits⟩⟩⟩
    · split
      · exact List.forall_mem_append.2 ⟨List.forall_mem_append.2 ⟨hdigits, numeral_zeros _⟩,
          by simp [hpoint, hzero]⟩
      · exact List.forall_mem_append.2 ⟨htake _, List.forall_mem_cons.2 ⟨hpoint, hdrop _⟩⟩
  · exact List.forall_mem_append.2 ⟨List.forall_mem_append.2 ⟨htake 1, hfraction⟩,
      List.forall_mem_cons.2 ⟨hletter, List.forall_mem_cons.2 ⟨hsign _, hexponent _⟩⟩⟩

/-- Printed numbers are written with these characters. -/
lemma numeral_printNumber (n : Number) : ∀ c ∈ Json.printNumber n, Numeral c := by
  have hminus : Numeral '-' := .inr (by simp)
  have hmagnitude : ∀ d, ∀ c ∈ magnitudeText d, Numeral c := by
    intro d
    rw [magnitudeText]
    split
    · intro c hc
      simp only [List.mem_cons, List.not_mem_nil, or_false] at hc
      rcases hc with rfl | rfl | rfl
      · exact .inl rfl
      · exact .inr (by simp)
      · exact .inl rfl
    · exact numeral_decimal (digits_toDigits _) _
  match n with
  | .whole (.ofNat n) => exact numeral_digits (digits_toDigits n)
  | .whole (.negSucc n) =>
    exact List.forall_mem_cons.2 ⟨hminus, numeral_digits (digits_toDigits (n + 1))⟩
  | .float d =>
    rw [Json.printNumber, render_eq]
    split
    · exact List.forall_mem_cons.2 ⟨hminus, hmagnitude d⟩
    · exact hmagnitude d

lemma printNumber_ne_nil (n : Number) : Json.printNumber n ≠ [] := by
  intro hnil
  have hread := spells_printNumber n 0 [] ends_nil
  rw [hnil] at hread
  simp [readValue, skipBlanks] at hread

end Draft
end SilentScan
