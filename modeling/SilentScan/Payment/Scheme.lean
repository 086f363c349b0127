/-
The setting of the payments: a curve and a family of tagged hashes.

All that follows about addresses and outputs is stated over a `Scheme`, so that what it says
needs nothing of the curve but its group, and nothing of the hashes at all.

* `Scheme`: the setting, with `Scheme.standard` the one in use.
-/
import SilentScan.Curve.Encoding
import SilentScan.Hash.Sha256

namespace SilentScan

/-- A curve together with hashes under tags. -/
structure Scheme where
  curve : Curve
  hash : (tag : String) → Bytes → Bytes

/-- The curve and the hashes that wallets use. -/
def Scheme.standard : Scheme where
  curve := secp256k1
  hash := taggedHash

end SilentScan
