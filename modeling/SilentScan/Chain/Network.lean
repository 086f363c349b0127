/-
The networks a chain can belong to.

* `Network`, with `Network.parse?`: the four networks and the names they go by;
* `addressPart`, `genesisHash`, `rpcPort`: what depends on the network.
-/
import SilentScan.Text.Blank

namespace SilentScan

/-- A network. -/
inductive Network where
  | mainnet
  | testnet
  | signet
  | regtest
deriving DecidableEq, Repr, Inhabited

namespace Network

/-- The network of a name, in either case of its letters. -/
def parse? (text : String) : Option Network :=
  match Text.lower text with
  | "mainnet" | "main" | "bitcoin" => some .mainnet
  | "testnet" | "test" | "testnet3" => some .testnet
  | "signet" => some .signet
  | "regtest" => some .regtest
  | _ => none

/-- The name shown to the operator. -/
def name : Network → String
  | .mainnet => "Mainnet"
  | .testnet => "Testnet"
  | .signet => "Signet"
  | .regtest => "Regtest"

/-- The human-readable part of addresses on the network. -/
def addressPart : Network → String
  | .mainnet => "sp"
  | _ => "tsp"

/-- The hash of the first block. -/
def genesisHash : Network → String
  | .mainnet => "000000000019d6689c085ae165831e934ff763ae46a2a6c172b3f1b60a8ce26f"
  | .testnet => "000000000933ea01ad0ee984209779baaec3ced90fa3f408719526f8d77f4943"
  | .signet => "00000008819873e925422c1ff0f99f7cc9bbb232af63a077a480a3633bee1ef6"
  | .regtest => "0f9188f13cb7b2c71f2a335e3a4fc328bf5beb436012afca590b1a11466e2206"

/-- The number of the service that a full node offers by default. -/
def rpcPort : Network → Nat
  | .mainnet => 8332
  | .testnet => 18332
  | .signet => 38332
  | .regtest => 18443

end Network
end SilentScan
