/-
Encodings of points and scalars.

A point is written compressed, as its abscissa behind a byte that tells the parity of the
ordinate, or in full behind the byte 4. Reading also takes the hybrid form, in full behind the
parity byte of the compressed form plus 4. The index keeps points in a raw form of 64 bytes: both
coordinates in full, the least significant byte first, and no marker.

* `PublicKey.compress`, `PublicKey.uncompressed`, `Curve.parse`: the marked forms;
* `toRawKey`, `fromRawKey`, `compressRawKey`: the raw form;
* `Curve.secret`: the scalars;
* `hashPrefix`, `outputPrefix`, `xonlyPrefix`: the eight bytes by which outputs are indexed.
-/
import SilentScan.Bytes.Hex
import SilentScan.Curve.Basic

namespace SilentScan

/-- What can be wrong with keys and their encodings. -/
inductive KeyError where
  | invalidLength (expected actual : Nat)
  | invalidHex (fault : Hex.Fault)
  | malformedKey
  | badSecret
  | badTweak
  | badSum
  | scalarOutOfRange
  | prefixOutOfRange (length offset : Nat)
deriving DecidableEq, Repr

/-- The wording of a key error. -/
def KeyError.message : KeyError → String
  | .invalidLength expected actual =>
    "invalid key length: expected " ++ toString expected ++ ", got " ++ toString actual
  | .invalidHex fault => "invalid hex: " ++ fault.message
  | .malformedKey => "invalid key: malformed public key"
  | .badSecret => "invalid key: malformed or out-of-range secret key"
  | .badTweak => "invalid key: bad tweak"
  | .badSum =>
    "invalid key: the sum of public keys was invalid or the input vector lengths was less than 1"
  | .scalarOutOfRange => "invalid key: the value is not a member of the scalar field"
  | .prefixOutOfRange length offset =>
    "no 8-byte prefix at offset " ++ toString offset ++ " in " ++ toString length ++ " bytes"

/-- The compressed form of a point, 33 bytes. -/
def PublicKey.compress (p : PublicKey) : Bytes :=
  (if p.y % 2 = 0 then 2 else 3) :: Bytes.ofNatBE 32 p.x

/-- The full form of a point, 65 bytes. -/
def PublicKey.uncompressed (p : PublicKey) : Bytes :=
  4 :: Bytes.ofNatBE 32 p.x ++ Bytes.ofNatBE 32 p.y

namespace Curve

variable (c : Curve)

/-- The point with a given abscissa whose ordinate has a given parity. -/
def lift? (odd : Bool) (x : Nat) : Option PublicKey := do
  if x < c.fieldPrime then
    let y ← c.sqrt? (c.cubic x)
    return ⟨x, if (y % 2 = 1) = odd then y else (c.fieldPrime - y) % c.fieldPrime⟩
  else none

/-- The point with given coordinates, if there is one. -/
def point? (x y : Nat) : Option PublicKey :=
  if c.onCurve ⟨x, y⟩ then some ⟨x, y⟩ else none

/-- Reads a point in any of the marked forms. -/
def parse (bs : Bytes) : Except KeyError PublicKey :=
  let point? : Option PublicKey :=
    match bs with
    | marker :: rest =>
      let x := Bytes.toNatBE (rest.take 32)
      let y := Bytes.toNatBE (rest.drop 32)
      if rest.length = 32 then
        if marker = 2 then c.lift? false x
        else if marker = 3 then c.lift? true x
        else none
      else if rest.length = 64 then
        if marker = 4 ∨ (marker = 6 ∧ y % 2 = 0) ∨ (marker = 7 ∧ y % 2 = 1) then c.point? x y
        else none
      else none
    | [] => none
  match point? with
  | some p => .ok p
  | none => .error .malformedKey

/-- Reads a secret scalar: 32 bytes, neither zero nor as large as the order. -/
def secret (bs : Bytes) : Except KeyError Nat :=
  let k := Bytes.toNatBE bs
  if bs.length = 32 ∧ 0 < k ∧ k < c.order then .ok k else .error .badSecret

end Curve

/-- The number of bytes of the raw form. -/
def rawKeyLength : Nat := 64

/-- The raw form of a point. -/
def toRawKey (p : PublicKey) : Bytes :=
  Bytes.ofNatLE 32 p.x ++ Bytes.ofNatLE 32 p.y

/-- The compressed form of a point given in raw form. The halves are put in order by swapping
them and reversing the whole. -/
def compressRawKey (c : Curve) (raw : Bytes) : Except KeyError Bytes := do
  if raw.length ≠ rawKeyLength then
    throw (.invalidLength rawKeyLength raw.length)
  let key ← c.parse (4 :: (raw.drop 32 ++ raw.take 32).reverse)
  return key.compress

/-- The point given in raw form. -/
def fromRawKey (c : Curve) (raw : Bytes) : Except KeyError PublicKey := do
  c.parse (← compressRawKey c raw)

/-- The eight bytes from an offset on as a number. -/
def hashPrefix (hash : Bytes) (offset : Nat) : Except KeyError Nat :=
  if offset + 8 ≤ hash.length then
    .ok (Bytes.toNatBE ((hash.drop offset).take 8))
  else .error (.prefixOutOfRange hash.length offset)

/-- The eight bytes by which the output of an x-only key is indexed. -/
def xonlyPrefix (program : Bytes) : Nat :=
  Bytes.toNatBE (program.take 8)

/-- The eight bytes by which the output of a key is indexed. -/
def outputPrefix (p : PublicKey) : Nat :=
  Bytes.toNatBE ((p.compress.drop 1).take 8)

end SilentScan
