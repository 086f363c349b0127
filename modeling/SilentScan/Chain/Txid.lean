/-
Transaction ids.

An id has 32 bytes. It is shown with its bytes in display order, and it is kept in that order
here; inside transactions the bytes stand in the opposite order.

* `Txid.parse?`, `Txid.text`: the shown form;
* `Txid.internal`: the order used inside transactions.
-/
import SilentScan.Bytes.Hex

namespace SilentScan

/-- The 32 bytes of a transaction id in display order. -/
abbrev Txid := Bytes

namespace Txid

/-- The id that a text shows: 64 hexadecimal digits of either case. -/
def parse? (text : String) : Option Txid :=
  match Hex.decode text with
  | .ok bs => if bs.length = 32 then some bs else none
  | .error _ => none

/-- The shown form. -/
def text (id : Txid) : String :=
  Hex.encode id

/-- The bytes as they stand inside transactions. -/
def internal (id : Txid) : Bytes :=
  id.reverse

/-- The id whose bytes stand in the given order inside transactions. -/
def ofInternal (bytes : Bytes) : Txid :=
  bytes.reverse

end Txid
end SilentScan
