/-
The numbers of a snapshot.

Two forms are in use. A compact size is one byte, or a marker followed by two, four or eight
bytes in little-endian order. A varint is a sequence of groups of seven bits, the highest first,
with the top bit set on every group but the last; each group that is followed by another counts
one more than it says, so that every number has a single form.

* `readCompactSize`, `writeCompactSize`: compact sizes;
* `readVarint`, `writeVarint`: varints.
-/
import SilentScan.Snapshot.Error

namespace SilentScan

/-- Reads a number of the given width, the least significant byte first. -/
def readLE (width : Nat) : SnapshotReader Nat := fun bs => do
  let (front, rest) ← readBytes width bs
  return (Bytes.toNatLE front, rest)

/-- Reads a compact size. -/
def readCompactSize : SnapshotReader Nat
  | [] => .error (.input .truncated)
  | marker :: rest =>
    if marker = 0xFD then readLE 2 rest
    else if marker = 0xFE then readLE 4 rest
    else if marker = 0xFF then readLE 8 rest
    else .ok (marker.toNat, rest)

/-- The shortest compact size of a word. -/
def writeCompactSize (n : Nat) : Bytes :=
  if n < 0xFD then [UInt8.ofNat n]
  else if n < 0x1_0000 then 0xFD :: Bytes.ofNatLE 2 n
  else if n < 0x1_0000_0000 then 0xFE :: Bytes.ofNatLE 4 n
  else 0xFF :: Bytes.ofNatLE 8 n

/-- Reads the groups of a varint that follow those that make up `n`. -/
def readGroups : (n : Nat) → SnapshotReader Nat
  | _, [] => .error (.input .truncated)
  | n, b :: rest =>
    if 0x200_0000_0000_0000 ≤ n then .error .varintOverflow
    else
      let n := 128 * n + b.toNat % 128
      if b.toNat < 128 then .ok (n, rest)
      else if n + 1 < 0x1_0000_0000_0000_0000 then readGroups (n + 1) rest
      else .error .varintOverflow

/-- Reads a varint. -/
def readVarint : SnapshotReader Nat :=
  readGroups 0

/-- The groups of a number when another group follows. -/
def writeGroups (n : Nat) : Bytes :=
  if n < 128 then [UInt8.ofNat (n + 128)]
  else writeGroups (n / 128 - 1) ++ [UInt8.ofNat (n % 128 + 128)]
termination_by n
decreasing_by omega

/-- The varint of a number. -/
def writeVarint (n : Nat) : Bytes :=
  if n < 128 then [UInt8.ofNat n]
  else writeGroups (n / 128 - 1) ++ [UInt8.ofNat (n % 128)]

end SilentScan
