/-
Blank characters at the ends of a text.

The blanks are the characters with the White_Space property.

* `isWhiteSpace`: the property;
* `trim`: a text without blanks at its ends.
-/
namespace SilentScan.Text

/-- Whether a character has the White_Space property. -/
def isWhiteSpace (c : Char) : Bool :=
  let n := c.toNat
  (9 ≤ n && n ≤ 13) || n = 32 || n = 0x85 || n = 0xA0 || n = 0x1680
    || (0x2000 ≤ n && n ≤ 0x200A) || n = 0x2028 || n = 0x2029 || n = 0x202F || n = 0x205F
    || n = 0x3000

/-- A digit is no blank. -/
theorem isWhiteSpace_of_isDigit {c : Char} (h : c.isDigit = true) : isWhiteSpace c = false := by
  simp only [Char.isDigit, Bool.and_eq_true, decide_eq_true_eq] at h
  have hlow : '0'.toNat ≤ c.toNat := h.1
  have hhigh : c.toNat ≤ '9'.toNat := h.2
  have h48 : '0'.toNat = 48 := rfl
  have h57 : '9'.toNat = 57 := rfl
  simp only [isWhiteSpace, Bool.or_eq_false_iff, Bool.and_eq_false_iff, decide_eq_false_iff_not]
  omega

/-- The characters without blanks at the ends. -/
def trimChars (cs : List Char) : List Char :=
  ((cs.dropWhile isWhiteSpace).reverse.dropWhile isWhiteSpace).reverse

/-- A text without blanks at its ends. -/
def trim (s : String) : String :=
  String.ofList (trimChars s.toList)

/-- A text with its ASCII letters in lower case. No other character has a lower-case form made
up of letters that occur in the words looked for. -/
def lower (s : String) : String :=
  String.ofList (s.toList.map Char.toLower)

end SilentScan.Text
