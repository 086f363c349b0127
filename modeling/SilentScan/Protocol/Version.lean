/-
Versions of the protocol.

A version is a sequence of numbers, compared component by component; components that are missing
count as zero. Client and server settle on the lower of their versions.

* `ProtocolVersion`, with `compare`, `parse`, `text`: versions;
* `negotiate`: the version that is settled on.
-/
import SilentScan.Json.Printer
import SilentScan.Number.Natural
import SilentScan.Text.Blank
import SilentScan.Wire.Error

namespace SilentScan

/-- A dotted version. -/
structure ProtocolVersion where
  components : List Nat
deriving DecidableEq, Repr, Inhabited

namespace ProtocolVersion

/-- The lowest version that is spoken. -/
def lowest : ProtocolVersion := ⟨[1, 4]⟩

/-- The highest version that is spoken. -/
def highest : ProtocolVersion := ⟨[1, 4, 2]⟩

/-- A component, a missing one counting as zero. -/
def component (v : ProtocolVersion) (i : Nat) : Nat :=
  v.components[i]?.getD 0

/-- The order of versions: the first component that differs counts. -/
def compare (a b : ProtocolVersion) : Ordering :=
  let orders := (List.range (max a.components.length b.components.length)).map fun i =>
    Ord.compare (a.component i) (b.component i)
  (orders.find? (· ≠ .eq)).getD .eq

/-- Whether a version is not above another. -/
def le (a b : ProtocolVersion) : Bool :=
  a.compare b ≠ .gt

/-- The lower of two versions, the first of two equal ones. -/
def lower (a b : ProtocolVersion) : ProtocolVersion :=
  if a.le b then a else b

/-- Cuts characters at every dot. -/
def splitDots : List Char → List (List Char)
  | [] => [[]]
  | c :: rest =>
    if c = '.' then [] :: splitDots rest
    else match splitDots rest with
      | part :: parts => (c :: part) :: parts
      | [] => [[c]]

/-- Reads a version; blanks around it do not count. -/
def parse (s : String) : Except RpcError ProtocolVersion :=
  match (splitDots (Text.trimChars s.toList)).mapM (Natural.readChars? 0x1_0000_0000) with
  | some components => .ok ⟨components⟩
  | none => .error (.invalidParams ("invalid protocol version: " ++ s))

/-- The text of a version. -/
def text (v : ProtocolVersion) : String :=
  ".".intercalate (v.components.map toString)

end ProtocolVersion

/-- The version a client asks for: a version, or an array of the lowest and the highest, of which
the latter counts. -/
def clientVersion : Json → Except RpcError ProtocolVersion
  | .string s => ProtocolVersion.parse s
  | .array versions =>
    let pick : Option Json := if versions.length > 1 then versions[1]? else versions[0]?
    match pick with
    | some (.string s) => ProtocolVersion.parse s
    | _ => .error (.invalidParams "protocol_version array must hold strings")
  | .null => .ok .lowest
  | other => .error (.invalidParams ("invalid protocol_version type: " ++ other.text))

/-- The version that a client and this server settle on, where the other server, if there is one,
has answered with some versions, of which the last counts. -/
def negotiate (requested : Json) (offered : Option (List String)) :
    Except RpcError ProtocolVersion := do
  let client ← clientVersion requested
  let other ← match offered.bind List.getLast? with
    | some v => ProtocolVersion.parse v
    | none => pure client
  let version := client.lower other
  if ProtocolVersion.lowest.le version then return version.lower .highest
  else throw (.unsupportedVersion version.text)

end SilentScan
