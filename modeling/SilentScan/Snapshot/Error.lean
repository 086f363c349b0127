/-
What can be wrong with a snapshot.

* `InputFault`: faults of the input as such;
* `SnapshotError`, with `message`: all faults.
-/
import SilentScan.Bytes.Hex

namespace SilentScan

/-- A fault of the input that a snapshot is read from. -/
inductive InputFault where
  /-- The input ends too early. -/
  | truncated
  | outputNumberTooLarge
  | heightTooLarge
  /-- The input cannot be read. -/
  | unreadable (cause : String)
deriving DecidableEq, Repr

/-- The wording of a fault of the input. -/
def InputFault.message : InputFault → String
  | .truncated => "failed to fill whole buffer"
  | .outputNumberTooLarge => "vout exceeds u32"
  | .heightTooLarge => "height exceeds i32"
  | .unreadable cause => cause

/-- The version of the format that is read. -/
def snapshotVersion : Nat := 2

/-- What can be wrong with a snapshot. -/
inductive SnapshotError where
  /-- The file begins with other bytes than a snapshot; they are shown in hexadecimal. -/
  | badMagic (shown : String)
  | unsupportedVersion (version : Nat)
  /-- The script of a coin, which is given by its number, is too long. -/
  | scriptTooLong (length coin : Nat)
  | varintOverflow
  | amountOverflow (code : Nat)
  | input (fault : InputFault)
deriving DecidableEq, Repr

/-- The wording of an error. -/
def SnapshotError.message : SnapshotError → String
  | .badMagic shown => "invalid snapshot magic: " ++ shown
  | .unsupportedVersion v =>
    "unsupported snapshot version " ++ toString v ++ " (only " ++ toString snapshotVersion
      ++ " is supported)"
  | .scriptTooLong length coin =>
    "invalid script length " ++ toString length ++ " at coin " ++ toString coin
  | .varintOverflow => "varint overflows 64 bits"
  | .amountOverflow code => "compressed amount " ++ toString code ++ " overflows 64 bits"
  | .input fault => "snapshot I/O error: " ++ fault.message

/-- Reads a value from the front of a byte string and gives the rest. -/
abbrev SnapshotReader (α : Type) := Bytes → Except SnapshotError (α × Bytes)

/-- The given number of bytes from the front, and the rest. -/
def splitBytes : (n : Nat) → Bytes → Option (Bytes × Bytes)
  | 0, bs => some ([], bs)
  | _ + 1, [] => none
  | n + 1, b :: bs =>
    match splitBytes n bs with
    | some (front, rest) => some (b :: front, rest)
    | none => none

/-- Reads a number of bytes. -/
def readBytes (n : Nat) : SnapshotReader Bytes := fun bs =>
  match splitBytes n bs with
  | some r => .ok r
  | none => .error (.input .truncated)

end SilentScan
