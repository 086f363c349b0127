/-
Bytes from their digits.

A text of ASCII characters has one byte for each of them, and the two digits of a byte give the
byte back, whatever their case. Digits are no blanks, so that blanks around them can be told from
them.

* `Bytes.ofText_ofList`: the bytes of an ASCII text;
* `Hex.decode_of_toLower`: bytes come back from their digits;
* `Hex.Spells`, `Hex.decode_trim_of_spells`: the same with blanks around.
-/
import Mathlib.Tactic.Common
import SilentScan.Bytes.Hex
import SilentScan.Text.Blank

namespace SilentScan

/-! ### The bytes of a text -/

namespace Bytes

/-- The loop that lists bytes has read the first ones of them. -/
lemma toList_loop_eq (bs : ByteArray) {k i : Nat} (h : i + k = bs.size) (r : List UInt8) :
    ByteArray.toList.loop bs i r = r.reverse ++ bs.data.toList.drop i := by
  induction k generalizing i r with
  | zero =>
    have hend : bs.data.toList.length ≤ i := Nat.le_of_eq h.symm
    rw [ByteArray.toList.loop, if_neg (by omega), List.drop_eq_nil_of_le hend, List.append_nil]
  | succ k ih =>
    have hlt : i < bs.size := by omega
    have hi : i < bs.data.toList.length := hlt
    have hget : bs.get! i = bs.data.toList[i] :=
      (getElem!_pos bs.data i hlt).trans (Array.getElem_toList hlt).symm
    rw [ByteArray.toList.loop, if_pos hlt, ih (by omega), List.drop_eq_getElem_cons hi, hget,
      List.reverse_cons, List.append_assoc, List.singleton_append]

/-- An ASCII text has one byte for each character. -/
lemma ofText_ofList {cs : List Char} (h : ∀ c ∈ cs, c.toNat < 128) :
    ofText (String.ofList cs) = cs.map fun c => UInt8.ofNat c.toNat := by
  have hchar : ∀ c ∈ cs, String.utf8EncodeChar c = [UInt8.ofNat c.toNat] :=
    fun c hc => if_pos (Nat.le_of_lt_succ (h c hc))
  have hlist : ∀ bs : List UInt8, bs.toByteArray.toList = bs := by
    intro bs
    have hloop := toList_loop_eq bs.toByteArray (Nat.zero_add _) []
    rwa [List.data_toByteArray] at hloop
  rw [ofText, String.toUTF8, String.toByteArray_ofList, List.utf8Encode, hlist,
    List.flatMap_def, List.map_congr_left hchar, ← List.flatMap_def,
    List.map_eq_flatMap]

end Bytes

namespace Hex

/-! ### Digits -/

/-- A digit of either case is an ASCII character, no blank, and read as what it stands for. -/
lemma value?_of_toLower {c : Char} {n : Nat} (hn : n < 16) (h : c.toLower = digit n) :
    c.toNat < 128 ∧ Text.isWhiteSpace c = false ∧ value? (UInt8.ofNat c.toNat) = some n := by
  have hall : ∀ m < 128, ∀ n < 16, (Char.ofNat m).toLower = digit n →
      Text.isWhiteSpace (Char.ofNat m) = false ∧ value? (UInt8.ofNat m) = some n := by
    decide +kernel
  have hdigit : ∀ n < 16, (digit n).toNat < 128 := by decide
  have hascii : c.toNat < 128 := by
    cases hupper : c.isUpper with
    | true =>
      have hle : c.toNat ≤ 90 := (of_decide_eq_true hupper).2
      omega
    | false =>
      have hsame : c.toLower = c := dif_neg (of_decide_eq_false hupper)
      rw [← hsame, h]
      exact hdigit n hn
  have hc := hall c.toNat hascii n hn
  rw [Char.ofNat_toNat] at hc
  exact ⟨hascii, hc h⟩

lemma exists_digit_of_mem {cs : List Char} {bs : Bytes}
    (h : cs.map Char.toLower = bs.flatMap byteDigits) {c : Char} (hc : c ∈ cs) :
    ∃ n < 16, c.toLower = digit n := by
  have hmem : c.toLower ∈ bs.flatMap byteDigits := h ▸ List.mem_map_of_mem hc
  obtain ⟨b, -, hb⟩ := List.mem_flatMap.1 hmem
  have hlt : b.toNat < 256 := b.toNat_lt
  simp only [byteDigits, List.mem_cons, List.not_mem_nil, or_false] at hb
  obtain hb | hb := hb
  · exact ⟨_, by omega, hb⟩
  · exact ⟨_, by omega, hb⟩

lemma decodeFrom_of_toLower {cs : List Char} {bs : Bytes}
    (h : cs.map Char.toLower = bs.flatMap byteDigits) (position : Nat) :
    decodeFrom position (cs.map fun c => UInt8.ofNat c.toNat) = .ok bs := by
  induction bs generalizing cs position with
  | nil =>
    obtain rfl := List.map_eq_nil_iff.1 h
    rfl
  | cons b bs ih =>
    have hb : b.toNat < 256 := b.toNat_lt
    obtain ⟨hi, lo, cs, rfl⟩ : ∃ hi lo cs', cs = hi :: lo :: cs' := by
      rcases cs with - | ⟨hi, - | ⟨lo, cs⟩⟩
      · simp [byteDigits] at h
      · simp [byteDigits] at h
      · exact ⟨hi, lo, cs, rfl⟩
    rw [List.flatMap_cons, byteDigits, List.map_cons, List.map_cons, List.cons_append,
      List.cons_append, List.nil_append, List.cons.injEq, List.cons.injEq] at h
    obtain ⟨hhi, hlo, hrest⟩ := h
    obtain ⟨-, -, hhigh⟩ := value?_of_toLower (by omega) hhi
    obtain ⟨-, -, hlow⟩ := value?_of_toLower (by omega) hlo
    have hwhole : 16 * (b.toNat / 16) + b.toNat % 16 = b.toNat := Nat.div_add_mod b.toNat 16
    simp only [List.map_cons, decodeFrom, hhigh, hlow, ih hrest (position + 2), hwhole,
      UInt8.ofNat_toNat]
    rfl

/-- **Bytes come back from their digits**, in either case of the letters. -/
theorem decode_of_toLower {cs : List Char} {bs : Bytes}
    (h : cs.map Char.toLower = bs.flatMap byteDigits) : decode (String.ofList cs) = .ok bs := by
  have hascii : ∀ c ∈ cs, c.toNat < 128 := by
    intro c hc
    obtain ⟨n, hn, hdigit⟩ := exists_digit_of_mem h hc
    exact (value?_of_toLower hn hdigit).1
  have hdigits : (bs.flatMap byteDigits).length = 2 * bs.length := by
    simp [byteDigits, List.map_const', Nat.mul_comm]
  have heven : ¬ cs.length % 2 = 1 := by
    rw [← h, List.length_map] at hdigits
    omega
  simp only [decode, Bytes.ofText_ofList hascii, List.length_map, if_neg heven,
    decodeFrom_of_toLower h]

/-! ### Blanks -/

/-- Blanks around characters that are none are dropped. -/
lemma trimChars_append {front cs back : List Char}
    (hfront : ∀ c ∈ front, Text.isWhiteSpace c = true)
    (hcs : ∀ c ∈ cs, Text.isWhiteSpace c = false)
    (hback : ∀ c ∈ back, Text.isWhiteSpace c = true) :
    Text.trimChars (front ++ cs ++ back) = cs := by
  have hdrop : ∀ cs' rest : List Char, (∀ c ∈ cs', Text.isWhiteSpace c = false) → cs' ≠ [] →
      (cs' ++ rest).dropWhile Text.isWhiteSpace = cs' ++ rest := by
    intro cs' rest hcs' hne
    obtain ⟨c, cs'', rfl⟩ := List.exists_cons_of_ne_nil hne
    rw [List.cons_append, List.dropWhile_cons_of_neg (by simp [hcs' c List.mem_cons_self])]
  rw [Text.trimChars, List.append_assoc, List.dropWhile_append_of_pos hfront]
  by_cases hnil : cs = []
  · have hall : (back ++ []).dropWhile Text.isWhiteSpace = [] :=
      List.dropWhile_append_of_pos hback
    rw [List.append_nil] at hall
    rw [hnil, List.nil_append, hall]
    rfl
  · have hlast := hdrop cs.reverse [] (fun c hc => hcs c (List.mem_reverse.1 hc))
      (List.reverse_ne_nil_iff.2 hnil)
    rw [List.append_nil] at hlast
    rw [hdrop cs back hcs hnil, List.reverse_append,
      List.dropWhile_append_of_pos fun c hc => hback c (List.mem_reverse.1 hc), hlast,
      List.reverse_reverse]

/-- A text shows bytes: their digits in either case of the letters, with blanks around. -/
def Spells (text : String) (bs : Bytes) : Prop :=
  ∃ front digits back : List Char, text = String.ofList (front ++ digits ++ back)
    ∧ (∀ c ∈ front, Text.isWhiteSpace c = true) ∧ (∀ c ∈ back, Text.isWhiteSpace c = true)
    ∧ digits.map Char.toLower = bs.flatMap byteDigits

/-- Digits may be written in any way that is undone in lower case. -/
lemma spells_map {f : Char → Char} (hf : ∀ n < 16, (f (digit n)).toLower = digit n)
    {front back : List Char} (hfront : ∀ c ∈ front, Text.isWhiteSpace c = true)
    (hback : ∀ c ∈ back, Text.isWhiteSpace c = true) (bs : Bytes) :
    Spells (String.ofList (front ++ (bs.flatMap byteDigits).map f ++ back)) bs := by
  refine ⟨front, (bs.flatMap byteDigits).map f, back, rfl, hfront, hback, ?_⟩
  induction bs with
  | nil => rfl
  | cons b bs ih =>
    have hb : b.toNat < 256 := b.toNat_lt
    simp only [List.flatMap_cons, List.map_append, ih]
    simp only [byteDigits, List.map_cons, List.map_nil, hf (b.toNat / 16) (by omega),
      hf (b.toNat % 16) (by omega)]

lemma spells_encode (bs : Bytes) : Spells (encode bs) bs := by
  have hplain : Spells (String.ofList ([] ++ (bs.flatMap byteDigits).map id ++ [])) bs :=
    spells_map (by decide) (by simp) (by simp) bs
  rwa [List.map_id, List.nil_append, List.append_nil] at hplain

/-- **What a text shows is read from it.** -/
theorem decode_trim_of_spells {text : String} {bs : Bytes} (h : Spells text bs) :
    decode (Text.trim text) = .ok bs := by
  obtain ⟨front, digits, back, rfl, hfront, hback, hdigits⟩ := h
  have hplain : ∀ c ∈ digits, Text.isWhiteSpace c = false := by
    intro c hc
    obtain ⟨n, hn, hdigit⟩ := exists_digit_of_mem hdigits hc
    exact (value?_of_toLower hn hdigit).2.1
  rw [Text.trim, String.toList_ofList, trimChars_append hfront hplain hback,
    decode_of_toLower hdigits]

end Hex
end SilentScan
