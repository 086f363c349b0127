/-
Network endpoints.

An endpoint is an address of the internet protocol, of version 4 or 6, with the number of a
service there. In text the four numbers of an address of version 4 stand between points, without
leading zeros; the eight groups of one of version 6 stand in hexadecimal between colons and are
put between brackets, and one run of zero groups may be left out.

* `Endpoint`, with `parse?` and `text`: endpoints and their text.
-/
import SilentScan.Text.Quoted

namespace SilentScan

/-- An internet address. -/
inductive IpAddress where
  | v4 (octets : List Nat)
  /-- Eight groups of 16 bits, and the scope in which the address is meant. -/
  | v6 (groups : List Nat) (scope : Nat)
deriving DecidableEq, Repr

/-- An internet address with the number of a service there. -/
structure Endpoint where
  address : IpAddress
  portNumber : Nat
deriving DecidableEq, Repr

namespace Endpoint

/-- Reads something from the front of a text and gives the rest. -/
abbrev Reader (α : Type) := List Char → Option (α × List Char)

/-- The value of a digit in a base up to sixteen. -/
def digit? (base : Nat) (c : Char) : Option Nat :=
  let n := c.toNat
  let value :=
    if 48 ≤ n ∧ n ≤ 57 then n - 48
    else if 97 ≤ n ∧ n ≤ 102 then n - 87
    else if 65 ≤ n ∧ n ≤ 70 then n - 55
    else base
  if value < base then some value else none

/-- Reads a number below a bound, at least one digit; `most` is the largest number of digits, and
`padded` whether it may begin with zeros. -/
def readNumber (base bound : Nat) (most : Option Nat) (padded : Bool) : Reader Nat := fun cs =>
  let digits := cs.takeWhile fun c => (digit? base c).isSome
  let value := digits.foldl (fun n c => base * n + (digit? base c).getD 0) 0
  if digits = [] ∨ (∃ m ∈ most, m < digits.length) ∨ bound ≤ value
      ∨ (padded = false ∧ digits.head? = some '0' ∧ digits ≠ ['0']) then none
  else some (value, cs.drop digits.length)

/-- Reads one given character. -/
def readChar (c : Char) : Reader Unit
  | d :: rest => if d = c then some ((), rest) else none
  | [] => none

/-- Reads an octet of an address of version 4. -/
def readOctet : Reader Nat :=
  readNumber 10 256 (some 3) false

/-- Reads the octets that follow the first, each behind a point. -/
def readOctets : (n : Nat) → Reader (List Nat)
  | 0, cs => some ([], cs)
  | n + 1, cs => do
    let (_, cs) ← readChar '.' cs
    let (o, cs) ← readOctet cs
    let (os, cs) ← readOctets n cs
    return (o :: os, cs)

/-- Reads an address of version 4. -/
def readV4 : Reader (List Nat) := fun cs => do
  let (o, cs) ← readOctet cs
  let (os, cs) ← readOctets 3 cs
  return (o :: os, cs)

/-- The two groups of 16 bits that four octets make up. -/
def pairOctets : List Nat → List Nat
  | hi :: lo :: rest => (256 * hi + lo) :: pairOctets rest
  | _ => []

/-- Reads a colon, except before the first group. -/
def readColon (first : Bool) (cs : List Char) : Option (List Char) :=
  if first then some cs else (readChar ':' cs).map (·.2)

/-- Reads up to `room` groups, as many as there are. Where there is room for two of them an
address of version 4 may stand in their place, and ends the groups; the result says if it
does. -/
def readGroups : (room : Nat) → (first : Bool) → List Char → List Nat × Bool × List Char
  | 0, _, cs => ([], false, cs)
  | room + 1, first, cs =>
    let embedded := if room = 0 then none else (readColon first cs).bind readV4
    match embedded with
    | some (octets, rest) => (pairOctets octets, true, rest)
    | none =>
      match (readColon first cs).bind (readNumber 16 0x1_0000 (some 4) true) with
      | none => ([], false, cs)
      | some (g, rest) =>
        let (gs, embedded, rest) := readGroups room false rest
        (g :: gs, embedded, rest)

/-- Reads the groups of an address of version 6. A double colon stands for at least one zero
group. -/
def readV6 : Reader (List Nat) := fun cs =>
  let (front, embedded, rest) := readGroups 8 true cs
  if front.length = 8 then some (front, rest)
  else if embedded then none
  else do
    let (_, rest) ← readChar ':' rest
    let (_, rest) ← readChar ':' rest
    let (back, _, rest) := readGroups (7 - front.length) true rest
    return (front ++ List.replicate (8 - front.length - back.length) 0 ++ back, rest)

/-- Reads a colon and the number of a service. -/
def readPort : Reader Nat := fun cs => do
  let (_, cs) ← readChar ':' cs
  readNumber 10 0x1_0000 none true cs

/-- Reads the scope of an address of version 6, which is 0 unless it is given. -/
def readScope (cs : List Char) : Nat × List Char :=
  let given := (readChar '%' cs).bind fun (_, rest) => readNumber 10 0x1_0000_0000 none true rest
  given.getD (0, cs)

/-- Reads an endpoint of version 4. -/
def readEndpoint4 : Reader Endpoint := fun cs => do
  let (octets, cs) ← readV4 cs
  let (portNumber, cs) ← readPort cs
  return ({ address := .v4 octets, portNumber }, cs)

/-- Reads an endpoint of version 6. -/
def readEndpoint6 : Reader Endpoint := fun cs => do
  let (_, cs) ← readChar '[' cs
  let (groups, cs) ← readV6 cs
  let (scope, cs) := readScope cs
  let (_, cs) ← readChar ']' cs
  let (portNumber, cs) ← readPort cs
  return ({ address := .v6 groups scope, portNumber }, cs)

/-- The endpoint that a text spells. -/
def parse? (s : String) : Option Endpoint :=
  match (readEndpoint4 s.toList).or (readEndpoint6 s.toList) with
  | some (e, []) => some e
  | _ => none

/-- The start and the length of the first longest run of zeros, the first group being number
`i`. -/
def longestZeros : (i : Nat) → List Nat → Nat × Nat
  | i, [] => (i, 0)
  | i, g :: rest =>
    let here := ((g :: rest).takeWhile (· = 0)).length
    let (start, length) := longestZeros (i + 1) rest
    if length ≤ here then (i, here) else (start, length)

/-- Groups in hexadecimal between colons. -/
def groupText (groups : List Nat) : String :=
  ":".intercalate (groups.map Text.hexDigits)

/-- The text of an address of version 4. -/
def octetText (octets : List Nat) : String :=
  ".".intercalate (octets.map toString)

/-- The text of the groups of an address of version 6: the longest run of two or more zero groups
is left out. An address of version 4 in its place within version 6 is shown as such. -/
def v6Text (groups : List Nat) : String :=
  match groups with
  | [0, 0, 0, 0, 0, 0xFFFF, hi, lo] =>
    "::ffff:" ++ octetText [hi / 256, hi % 256, lo / 256, lo % 256]
  | _ =>
    let (start, length) := longestZeros 0 groups
    if 1 < length then
      groupText (groups.take start) ++ "::" ++ groupText (groups.drop (start + length))
    else groupText groups

/-- The text of an endpoint. -/
def text (e : Endpoint) : String :=
  let address := match e.address with
    | .v4 octets => octetText octets
    | .v6 groups 0 => "[" ++ v6Text groups ++ "]"
    | .v6 groups scope => "[" ++ v6Text groups ++ "%" ++ toString scope ++ "]"
  address ++ ":" ++ toString e.portNumber

end Endpoint
end SilentScan
