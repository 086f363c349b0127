/-
What a JSON text spells.

Reading goes from left to right and stops at the first fault, so what has been read is a draft:
a value that may break off. A draft keeps what a reader of a record has to see, namely the fields
in the order of the text with repetitions, and it puts off two judgements that a skipped value
never faces: whether a number fits, and whether the escapes of a string pair up.

* `Draft.read`: the draft of a text and what follows it;
* `Draft.value?`: the value a draft spells, nested at most 127 deep;
* `Json.parse`: the value of a whole text.
-/
import SilentScan.Json.Value
import SilentScan.Number.Double

namespace SilentScan

/-- A value as spelled, possibly broken off. -/
inductive Draft where
  | null
  | bool (b : Bool)
  | number (n : Option Number)
  | string (s : Option String)
  | array (items : List Draft) (closed : Bool)
  | object (fields : List (Option String × Draft)) (closed : Bool)
  | fault
deriving Inhabited

namespace Draft

/-- The four characters that may stand between the parts of a text. -/
def isBlank (c : Char) : Bool :=
  c = ' ' || c = '\n' || c = '\t' || c = '\r'

/-- What follows the blanks. -/
def skipBlanks (cs : List Char) : List Char :=
  cs.dropWhile isBlank

/-! ### Numbers -/

/-- The value of a decimal digit. -/
def digitValue (c : Char) : Nat :=
  c.toNat - '0'.toNat

/-- The largest unsigned word. -/
def wordMax : Nat := 0xFFFF_FFFF_FFFF_FFFF

/-- The digits of a significand read so far. Digits are taken in while the number fits a word;
those after it only move the exponent, and `full` says that this has begun. -/
structure Significand where
  value : Nat
  exponent : Int
  full : Bool

/-- Takes in a digit before the point. -/
def Significand.pushWhole (s : Significand) (c : Char) : Significand :=
  let next := 10 * s.value + digitValue c
  if s.full || next > wordMax then { s with exponent := s.exponent + 1, full := true }
  else { s with value := next }

/-- Takes in a digit after the point: ignored from the first one that does not fit. -/
def Significand.pushFraction (s : Significand) (c : Char) : Significand :=
  let next := 10 * s.value + digitValue c
  if s.full || next > wordMax then { s with full := true }
  else { s with value := next, exponent := s.exponent - 1 }

/-- The number `significand * 10 ^ exponent`, found by scaling the nearest number to the
significand by the nearest number to the power of ten; none where it is beyond the range. A
power below `10 ^ -308` is taken in several steps. -/
def scaled (significand : Nat) (exponent : Int) : Option Double :=
  let f := Double.ofNat significand
  let power (k : Nat) := Double.ofNat (Nat.pow 10 k)
  if 0 ≤ exponent then
    if exponent ≤ 308 then
      let r := f.mul (power exponent.toNat)
      if r.isFinite then some r else none
    else if significand = 0 then some f else none
  else down f (-exponent).toNat 4
where
  /-- Divides by `10 ^ k`, at most `10 ^ 308` at a time; four steps reach zero. -/
  down (f : Double) (k : Nat) : (steps : Nat) → Option Double
    | 0 => some f
    | steps + 1 =>
      if k ≤ 308 then some (f.div (Double.ofNat (Nat.pow 10 k)))
      else if f.magnitude = 0 then some f
      else down (f.div (Double.ofNat (Nat.pow 10 308))) (k - 308) steps

/-- The bound on written exponents; one beyond it means zero or out of range. -/
def exponentMax : Nat := 0x7FFF_FFFF

/-- A floating number from its parts. -/
def float (negative : Bool) (s : Significand) (written : Int) : Option Number :=
  let signed (d : Double) : Number := .float (if negative then d.neg else d)
  if written > exponentMax then
    if s.value = 0 then some (signed (.zero false)) else none
  else if written < -(exponentMax : Int) then some (signed (.zero false))
  else (scaled s.value (s.exponent + written)).map signed

/-- A number without point or exponent: whole where it fits a word, and floating otherwise.
A negative zero is the floating one. -/
def wholeNumber (negative : Bool) (s : Significand) : Option Number :=
  if s.full then float negative s 0
  else if negative then
    if 0 < s.value ∧ s.value ≤ 0x8000_0000_0000_0000 then some (.whole (-s.value))
    else float true s 0
  else some (.whole s.value)

/-- Reads the exponent after its letter. -/
def readExponent (negative : Bool) (s : Significand) (cs : List Char) : Draft × List Char :=
  let (sign, cs) := match cs with
    | '+' :: rest => (false, rest)
    | '-' :: rest => (true, rest)
    | cs => (false, cs)
  let digits := cs.takeWhile Char.isDigit
  let rest := cs.dropWhile Char.isDigit
  if digits = [] then (.fault, rest)
  else
    let e : Nat := digits.foldl (fun n c => 10 * n + digitValue c) 0
    (.number (float negative s (if sign then -e else e)), rest)

/-- Reads what may follow the digits of a number: its exponent. -/
def readAfterDigits (negative : Bool) (s : Significand) (plain : Option Number)
    (cs : List Char) : Draft × List Char :=
  match cs with
  | 'e' :: rest => readExponent negative s rest
  | 'E' :: rest => readExponent negative s rest
  | cs => (.number plain, cs)

/-- Reads a number after its sign. -/
def readNumber (negative : Bool) (cs : List Char) : Draft × List Char :=
  let whole := cs.takeWhile Char.isDigit
  let rest := cs.dropWhile Char.isDigit
  if whole = [] ∨ (whole.head? = some '0' ∧ whole.length ≠ 1) then (.fault, rest)
  else
    let s := whole.foldl Significand.pushWhole ⟨0, 0, false⟩
    match rest with
    | '.' :: rest =>
      let digits := rest.takeWhile Char.isDigit
      let rest := rest.dropWhile Char.isDigit
      if digits = [] then (.fault, rest)
      else
        let s := digits.foldl Significand.pushFraction { s with full := false }
        readAfterDigits negative s (float negative s 0) rest
    | rest => readAfterDigits negative s (wholeNumber negative s) rest

/-! ### Strings -/

/-- The value of four hexadecimal digits. -/
def hex4? : List Char → Option (Nat × List Char)
  | a :: b :: c :: d :: rest => do
    let digit (c : Char) : Option Nat :=
      if c.toNat < 128 then
        if c.isDigit then some (c.toNat - 48)
        else if 'a' ≤ c ∧ c ≤ 'f' then some (c.toNat - 87)
        else if 'A' ≤ c ∧ c ≤ 'F' then some (c.toNat - 55)
        else none
      else none
    let n := 4096 * (← digit a) + 256 * (← digit b) + 16 * (← digit c) + (← digit d)
    return (n, rest)
  | _ => none

/-- One piece of a string: an ordinary character, or half of a pair of escapes. -/
inductive Piece where
  | char (c : Char)
  | high (unit : Nat)
  | low (unit : Nat)

/-- A piece by the number of its escape. -/
def Piece.ofUnit (n : Nat) : Piece :=
  if 0xD800 ≤ n ∧ n < 0xDC00 then .high n
  else if 0xDC00 ≤ n ∧ n < 0xE000 then .low n
  else .char (Char.ofNat n)

/-- The character after a backslash, other than the numbered escape. -/
def shortEscape? : Char → Option Char
  | '"' => some '"'
  | '\\' => some '\\'
  | '/' => some '/'
  | 'b' => some '\x08'
  | 'f' => some '\x0c'
  | 'n' => some '\n'
  | 'r' => some '\r'
  | 't' => some '\t'
  | _ => none

/-- Reads the pieces of a string up to the closing quote; none where the string is malformed. -/
def readPieces : (fuel : Nat) → List Char → Option (List Piece × List Char)
  | 0, _ => none
  | _ + 1, [] => none
  | fuel + 1, c :: rest =>
    if c = '"' then some ([], rest)
    else if c = '\\' then
      match rest with
      | [] => none
      | 'u' :: rest => do
        let (n, rest) ← hex4? rest
        let (ps, rest) ← readPieces fuel rest
        return (Piece.ofUnit n :: ps, rest)
      | e :: rest => do
        let c ← shortEscape? e
        let (ps, rest) ← readPieces fuel rest
        return (.char c :: ps, rest)
    else if c.toNat < 32 then none
    else do
      let (ps, rest) ← readPieces fuel rest
      return (.char c :: ps, rest)

/-- The characters that pieces spell; none where a half of a pair stands alone. -/
def joinPieces : List Piece → Option (List Char)
  | [] => some []
  | .char c :: rest => (joinPieces rest).map (c :: ·)
  | .high h :: .low l :: rest =>
    (joinPieces rest).map (Char.ofNat (0x10000 + (h - 0xD800) * 1024 + (l - 0xDC00)) :: ·)
  | _ => none

/-- Reads a string after its opening quote. -/
def readString (cs : List Char) : Option (Option String × List Char) :=
  (readPieces (cs.length + 1) cs).map fun (ps, rest) => ((joinPieces ps).map String.ofList, rest)

/-! ### Values -/

/-- Reads the rest of a word whose first letter has been read. -/
def readWord (word : List Char) (value : Draft) (cs : List Char) : Draft × List Char :=
  if cs.take word.length = word then (value, cs.drop word.length) else (.fault, [])

/-- Whether reading went on to the end of the value. -/
def complete : Draft → Bool
  | .array _ closed => closed
  | .object _ closed => closed
  | .fault => false
  | _ => true

mutual
/-- Reads one value after the blanks before it. -/
def readValue : (fuel : Nat) → List Char → Draft × List Char
  | 0, _ => (.fault, [])
  | fuel + 1, cs =>
    match skipBlanks cs with
    | [] => (.fault, [])
    | c :: rest =>
      if c = 'n' then readWord ['u', 'l', 'l'] .null rest
      else if c = 't' then readWord ['r', 'u', 'e'] (.bool true) rest
      else if c = 'f' then readWord ['a', 'l', 's', 'e'] (.bool false) rest
      else if c = '"' then
        match readString rest with
        | some (s, rest) => (.string s, rest)
        | none => (.fault, [])
      else if c = '-' then readNumber true rest
      else if c.isDigit then readNumber false (c :: rest)
      else if c = '[' then
        match skipBlanks rest with
        | ']' :: rest => (.array [] true, rest)
        | rest =>
          let (items, closed, rest) := readItems fuel rest
          (.array items closed, rest)
      else if c = '{' then
        match skipBlanks rest with
        | '}' :: rest => (.object [] true, rest)
        | rest =>
          let (fields, closed, rest) := readFields fuel rest
          (.object fields closed, rest)
      else (.fault, [])

/-- Reads an item and those after it, up to the closing bracket. -/
def readItems : (fuel : Nat) → List Char → List Draft × Bool × List Char
  | 0, _ => ([.fault], false, [])
  | fuel + 1, cs =>
    let (v, rest) := readValue fuel cs
    if v.complete then
      match skipBlanks rest with
      | ']' :: rest => ([v], true, rest)
      | ',' :: rest =>
        match skipBlanks rest with
        | ']' :: _ => ([v], false, [])
        | rest =>
          let (items, closed, rest) := readItems fuel rest
          (v :: items, closed, rest)
      | _ => ([v], false, [])
    else ([v], false, [])

/-- Reads a field and those after it, up to the closing brace. A key whose value is missing
counts as a field with a faulty value. -/
def readFields : (fuel : Nat) → List Char → List (Option String × Draft) × Bool × List Char
  | 0, _ => ([], false, [])
  | fuel + 1, cs =>
    match skipBlanks cs with
    | '"' :: rest =>
      match readString rest with
      | none => ([], false, [])
      | some (key, rest) =>
        match skipBlanks rest with
        | ':' :: rest =>
          let (v, rest) := readValue fuel rest
          if v.complete then
            match skipBlanks rest with
            | '}' :: rest => ([(key, v)], true, rest)
            | ',' :: rest =>
              let (fields, closed, rest) := readFields fuel rest
              ((key, v) :: fields, closed, rest)
            | _ => ([(key, v)], false, [])
          else ([(key, v)], false, [])
        | _ => ([(key, .fault)], false, [])
    | _ => ([], false, [])
end

/-- The draft of a text and the characters after it. Each character starts at most two nested
readings, so the fuel never runs out. -/
def read (cs : List Char) : Draft × List Char :=
  readValue (2 * cs.length + 2) cs

/-! ### From drafts to values -/

mutual
/-- The value a draft spells; arrays and objects nest at most `depth` deep. -/
def value? : (depth : Nat) → Draft → Option Json
  | _, .null => some .null
  | _, .bool b => some (.bool b)
  | _, .number n => n.map .number
  | _, .string s => s.map .string
  | 0, .array _ _ => none
  | depth + 1, .array items closed =>
    match items? depth items with
    | some vs => if closed then some (.array vs) else none
    | none => none
  | 0, .object _ _ => none
  | depth + 1, .object fields closed =>
    match fields? depth fields with
    | some fs => if closed then some (.ofFields fs) else none
    | none => none
  | _, .fault => none

/-- `value?` for items. -/
def items? (depth : Nat) : List Draft → Option (List Json)
  | [] => some []
  | d :: rest =>
    match value? depth d, items? depth rest with
    | some v, some vs => some (v :: vs)
    | _, _ => none

/-- `value?` for fields. -/
def fields? (depth : Nat) : List (Option String × Draft) → Option (List (String × Json))
  | [] => some []
  | (some k, d) :: rest =>
    match value? depth d, fields? depth rest with
    | some v, some fs => some ((k, v) :: fs)
    | _, _ => none
  | (none, _) :: _ => none
end

mutual
/-- A value as a draft. -/
def ofValue : Json → Draft
  | .null => .null
  | .bool b => .bool b
  | .number n => .number (some n)
  | .string s => .string (some s)
  | .array items => .array (ofItems items) true
  | .object fields => .object (ofFields fields) true

/-- `ofValue` for items. -/
def ofItems : List Json → List Draft
  | [] => []
  | v :: rest => ofValue v :: ofItems rest

/-- `ofValue` for fields. -/
def ofFields : List (String × Json) → List (Option String × Draft)
  | [] => []
  | (k, v) :: rest => (some k, ofValue v) :: ofFields rest
end

/-- The depth to which arrays and objects may nest. -/
def depthLimit : Nat := 127

end Draft

/-- The value of a whole text, if it is JSON. -/
def Json.parse (text : String) : Option Json :=
  let (d, rest) := Draft.read text.toList
  if Draft.skipBlanks rest = [] then d.value? Draft.depthLimit else none

end SilentScan
