/-
The address of a wallet.

A wallet that is scanned for hands over its secret scan scalar and its public spend key. Both
together make the address, a text with a checksum over the public form of the scan scalar and
the spend key; the text also names the wallet's subscription. For every label the wallet has a
further spend key, shifted by a point that only the scan scalar gives.

* `ScanAddress`, `ScanAddress.make`, `ScanAddress.ofHex`: the address and how it is made;
* `labelTweakKey`, `labelledSpendKey`: the shift of a label and the shifted key.
-/
import SilentScan.Chain.Network
import SilentScan.Payment.Bech32
import SilentScan.Payment.Scheme

namespace SilentScan

/-- What a wallet hands over, with its public address. -/
structure ScanAddress where
  /-- The secret scan scalar. -/
  scanKey : Nat
  scanPublicKey : PublicKey
  spendKey : PublicKey
  /-- The address text. -/
  address : String
deriving DecidableEq, Repr, Inhabited

namespace ScanAddress

/-- The address text of a pair of keys. -/
def encode (network : Network) (scan spend : PublicKey) : String :=
  Bech32.encode network.addressPart 0 (scan.compress ++ spend.compress)

/-- The address of a secret scalar below the order and a spend key. -/
def make (s : Scheme) (scanKey : Nat) (spendKey : PublicKey) (network : Network) :
    Except KeyError ScanAddress :=
  match s.curve.base scanKey with
  | some scanPublicKey =>
    .ok { scanKey, scanPublicKey, spendKey, address := encode network scanPublicKey spendKey }
  | none => .error .badSecret

/-- The bytes of a hexadecimal text, blanks around it aside. -/
def keyBytes (text : String) : Except KeyError Bytes :=
  (Hex.decode (Text.trim text)).mapError .invalidHex

/-- The address of a scalar and a spend key given in hexadecimal. -/
def ofHex (s : Scheme) (scan spend : String) (network : Network) : Except KeyError ScanAddress := do
  let scanBytes ← keyBytes scan
  let spendBytes ← keyBytes spend
  let scanKey ← s.curve.secret scanBytes
  let spendKey ← s.curve.parse spendBytes
  make s scanKey spendKey network

/-- The bytes of the secret scalar. -/
def scanBytes (a : ScanAddress) : Bytes :=
  Bytes.ofNatBE 32 a.scanKey

/-- The point by which a label shifts the spend key. -/
def labelTweakKey (s : Scheme) (a : ScanAddress) (label : Nat) : Except KeyError PublicKey := do
  let tweak ← s.curve.secret (s.hash "BIP0352/Label" (a.scanBytes ++ Bytes.ofNatBE 4 label))
  match s.curve.base tweak with
  | some p => return p
  | none => throw .badSecret

/-- The spend key shifted for a label. -/
def labelledSpendKey (s : Scheme) (a : ScanAddress) (label : Nat) : Except KeyError PublicKey := do
  let tweakKey ← labelTweakKey s a label
  match s.curve.add (some a.spendKey) (some tweakKey) with
  | some p => return p
  | none => throw .badSum

/-- The address as shown among the fields of a record; the keys stay hidden. -/
def debug (a : ScanAddress) : String :=
  "ScanAddress \x7b address: " ++ Text.quoteString a.address ++ ", .. \x7d"

end ScanAddress
end SilentScan
