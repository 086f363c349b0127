/-
An address names the keys of a wallet.

An address is a text with a checksum over the compressed scan and spend keys, so both are read back
from it. Different secrets have different keys, and a key comes back from its compressed form. So
two addresses are the same text exactly if they are those of the same scan scalar and spend key on
networks whose addresses begin alike, in whatever forms the keys were handed over; and a registry,
which tells addresses apart by their text, tells wallets apart by their keys.

* `PublicKey.forms`: how keys are handed over;
* `ScanAddress.Genuine`: an address fits its keys, with `genuine_of_ofHex`, `ofHex_of_spells`;
* `Genuine.decode?_address`: the keys are read back from the text;
* `Genuine.address_eq_iff`: the same text means the same keys;
* `addresses_name_keys`: all of it, and what it means for a registry.
-/
import SilentScan.Proofs.Bytes.Hex
import SilentScan.Proofs.Curve.Forms
import SilentScan.Proofs.Payment.Bech32
import SilentScan.Proofs.Session.Marks

namespace SilentScan

open Curve

/-! ### Handing over keys -/

/-- The forms in which a key is handed over. -/
def PublicKey.forms (p : PublicKey) : List Bytes :=
  [p.compress, p.uncompressed, p.hybrid]

@[simp] lemma PublicKey.length_compress (p : PublicKey) : p.compress.length = 33 := by
  rw [PublicKey.compress, List.length_cons, Bytes.length_ofNatBE]

namespace Curve

variable {c : Curve} {p : PublicKey}

/-- What is read as a secret is one. -/
lemma secret_eq_ok {bs : Bytes} {k : ℕ} (h : c.secret bs = .ok k) : 0 < k ∧ k < c.order := by
  simp only [secret] at h
  split_ifs at h with hrange
  cases h
  exact hrange.2

variable [c.Sound]

/-- A key comes back from each of its forms. -/
lemma parse_form (h : c.onCurve p = true) {form : Bytes} (hform : form ∈ p.forms) :
    c.parse form = .ok p := by
  simp only [PublicKey.forms, List.mem_cons, List.not_mem_nil, or_false] at hform
  rcases hform with rfl | rfl | rfl
  · exact parse_compress h
  · exact parse_uncompressed h
  · exact parse_hybrid h

/-- Different keys have different compressed forms. -/
lemma compress_injOn : Set.InjOn PublicKey.compress {p | c.onCurve p = true} := by
  intro p hp q hq hsame
  have hread := parse_compress hp
  rw [hsame, parse_compress hq] at hread
  exact (Except.ok.inj hread).symm

end Curve

/-! ### Addresses that fit their keys -/

namespace ScanAddress

/-- That an address belongs to its keys on a network. -/
structure Genuine (s : Scheme) (network : Network) (a : ScanAddress) : Prop where
  pos : 0 < a.scanKey
  lt_order : a.scanKey < s.curve.order
  scanPublicKey : s.curve.base a.scanKey = some a.scanPublicKey
  spendKey : s.curve.onCurve a.spendKey = true
  address : a.address = encode network a.scanPublicKey a.spendKey

/-- Whether two wallets have the same keys, on networks whose addresses begin alike. -/
def SameKeys (network network' : Network) (a b : ScanAddress) : Prop :=
  network.addressPart = network'.addressPart ∧ a.scanKey = b.scanKey ∧ a.spendKey = b.spendKey

instance (network network' : Network) (a b : ScanAddress) :
    Decidable (SameKeys network network' a b) :=
  inferInstanceAs (Decidable (_ ∧ _ ∧ _))

variable {s : Scheme} {network network' : Network} {a b : ScanAddress}

/-- The human-readable part is that of the network, and both keys are read back. -/
lemma Genuine.decode?_address (ha : Genuine s network a) :
    Bech32.decode? a.address
      = some (network.addressPart, 0, a.scanPublicKey.compress ++ a.spendKey.compress) := by
  have hpart : Bech32.isPart network.addressPart.toList = true := by cases network <;> decide
  have hcase : ∀ c ∈ network.addressPart.toList, c.isUpper = false := by
    cases network <;> simp [Network.addressPart]
  rw [ha.address, encode]
  exact Bech32.decode?_encode hpart hcase (by decide) _

variable [s.curve.Sound]

/-- Every secret and every key have an address. -/
lemma exists_make {k : ℕ} {p : PublicKey} (hpos : 0 < k) (hlt : k < s.curve.order)
    (hp : s.curve.onCurve p = true) (network : Network) :
    ∃ a, make s k p network = .ok a ∧ a.scanKey = k ∧ a.spendKey = p ∧ Genuine s network a := by
  obtain ⟨q, hq⟩ := exists_base hpos hlt
  refine ⟨⟨k, q, p, encode network q p⟩, ?_, rfl, rfl, hpos, hlt, hq, hp, rfl⟩
  rw [make, hq]

/-- **Keys are taken in every spelling** of each of their forms. -/
lemma ofHex_of_spells {k : ℕ} {p : PublicKey} {form : Bytes} {scan spend : String} (hpos : 0 < k)
    (hlt : k < s.curve.order) (hp : s.curve.onCurve p = true) (hform : form ∈ p.forms)
    (hscan : Hex.Spells scan (Bytes.ofNatBE 32 k)) (hspend : Hex.Spells spend form)
    (network : Network) : ofHex s scan spend network = make s k p network := by
  have hscanBytes : keyBytes scan = .ok (Bytes.ofNatBE 32 k) := by
    rw [keyBytes, Hex.decode_trim_of_spells hscan]
    rfl
  have hspendBytes : keyBytes spend = .ok form := by
    rw [keyBytes, Hex.decode_trim_of_spells hspend]
    rfl
  simp only [ofHex, hscanBytes, hspendBytes, secret_ofNatBE hpos hlt, parse_form hp hform, bind,
    Except.bind]

/-- An address made from texts fits its keys. -/
lemma genuine_of_ofHex {scan spend : String} (h : ofHex s scan spend network = .ok a) :
    Genuine s network a := by
  obtain ⟨scanBytes, -, h⟩ := exists_of_bind_eq_ok h
  obtain ⟨spendBytes, -, h⟩ := exists_of_bind_eq_ok h
  obtain ⟨k, hsecret, h⟩ := exists_of_bind_eq_ok h
  obtain ⟨p, hparse, h⟩ := exists_of_bind_eq_ok h
  obtain ⟨hpos, hlt⟩ := secret_eq_ok hsecret
  obtain ⟨a', hmake, -, -, hgenuine⟩ := exists_make hpos hlt (onCurve_of_parse hparse) network
  obtain rfl : a' = a := Except.ok.inj (hmake.symm.trans h)
  exact hgenuine

/-- **The same address means the same keys**, on networks whose addresses begin alike. -/
theorem Genuine.address_eq_iff (ha : Genuine s network a) (hb : Genuine s network' b) :
    a.address = b.address ↔ SameKeys network network' a b := by
  constructor
  · intro h
    have hread := ha.decode?_address
    rw [h, hb.decode?_address, Option.some.injEq, Prod.mk.injEq, Prod.mk.injEq] at hread
    obtain ⟨hpart, -, hpayload⟩ := hread
    -- Both keys have 33 bytes, so that the payload can be cut in one way only.
    obtain ⟨hscan, hspend⟩ := List.append_inj hpayload (by simp)
    have hpublic : b.scanPublicKey = a.scanPublicKey :=
      compress_injOn (onCurve_of_base hb.scanPublicKey) (onCurve_of_base ha.scanPublicKey) hscan
    refine ⟨hpart.symm, base_injOn ha.lt_order hb.lt_order ?_,
      (compress_injOn hb.spendKey ha.spendKey hspend).symm⟩
    rw [ha.scanPublicKey, hb.scanPublicKey, hpublic]
  · rintro ⟨hpart, hscan, hspend⟩
    have hpublic : a.scanPublicKey = b.scanPublicKey :=
      Option.some.inj (ha.scanPublicKey.symm.trans (hscan ▸ hb.scanPublicKey))
    rw [ha.address, hb.address, encode, encode, hpart, hpublic, hspend]

end ScanAddress

/-! ### Names -/

/-- **Addresses name keys.** The text of an address gives back the human-readable part of its
network and both keys; the keys are taken in every spelling of each of their forms; and two
addresses are the same text, and so stand for the same subscription, exactly if their keys are the
same. -/
theorem addresses_name_keys :
    (∀ k p network, 0 < k → k < secp256k1.order → secp256k1.onCurve p = true →
      ∃ a q rest, ScanAddress.make .standard k p network = .ok a
        ∧ a.scanKey = k ∧ a.spendKey = p ∧ secp256k1.base k = some q
        ∧ a.address = network.addressPart ++ "1" ++ "q" ++ rest
        ∧ Bech32.decode? a.address = some (network.addressPart, 0, q.compress ++ p.compress)
        ∧ (q.compress ++ p.compress).length = 66)
    ∧ (∀ k p network form scan spend, 0 < k → k < secp256k1.order → secp256k1.onCurve p = true →
      form ∈ p.forms → Hex.Spells scan (Bytes.ofNatBE 32 k) → Hex.Spells spend form →
      ScanAddress.ofHex .standard scan spend network = ScanAddress.make .standard k p network)
    ∧ ∀ scan spend network a scan' spend' network' b,
      ScanAddress.ofHex .standard scan spend network = .ok a →
      ScanAddress.ofHex .standard scan' spend' network' = .ok b →
      (a.address = b.address ↔ ScanAddress.SameKeys network network' a b)
        ∧ ∀ (r : Registry) labels,
          (r.subscribe a labels).2.get? b.address
              = (if ScanAddress.SameKeys network network' a b then some (r.subscribe a labels).1
                else r.get? b.address)
            ∧ (r.unsubscribe a.address).2.get? b.address
              = if ScanAddress.SameKeys network network' a b then none else r.get? b.address := by
  have hsound : Scheme.standard.curve.Sound := inferInstanceAs secp256k1.Sound
  refine ⟨?_, ?_, ?_⟩
  · intro k p network hpos hlt hp
    obtain ⟨a, hmake, rfl, rfl, hgenuine⟩ :=
      ScanAddress.exists_make (s := .standard) hpos hlt hp network
    obtain ⟨rest, hrest⟩ := Bech32.exists_encode_eq network.addressPart 0
      (a.scanPublicKey.compress ++ a.spendKey.compress)
    exact ⟨a, a.scanPublicKey, rest, hmake, rfl, rfl, hgenuine.scanPublicKey,
      hgenuine.address.trans hrest, hgenuine.decode?_address, by simp⟩
  · intro k p network form scan spend hpos hlt hp hform hscan hspend
    exact ScanAddress.ofHex_of_spells hpos hlt hp hform hscan hspend network
  · intro scan spend network a scan' spend' network' b ha hb
    have hsame := (ScanAddress.genuine_of_ofHex ha).address_eq_iff (ScanAddress.genuine_of_ofHex hb)
    have hkeys := eq_comm.trans hsame
    refine ⟨hsame, fun r labels => ⟨?_, ?_⟩⟩
    · exact (Registry.lookup_put _ _ _ _).trans (if_congr hkeys rfl rfl)
    · exact (Registry.get?_unsubscribe _ _ _).trans (if_congr hkeys rfl rfl)

/-- The secret one with the generator: in plain digits, and with the key in full, in capitals,
behind a blank and before a line end. Addresses of the test networks begin alike, so that a
subscription for one is found under the other. -/
theorem generator_named_twice :
    ∃ a b c : ScanAddress,
      ScanAddress.ofHex .standard (Hex.encode (Bytes.ofNatBE 32 1))
          (Hex.encode secp256k1.generator.compress) .mainnet = .ok a
        ∧ ScanAddress.ofHex .standard (Hex.encode (Bytes.ofNatBE 32 1))
          (Hex.encode secp256k1.generator.compress) .testnet = .ok b
        ∧ ScanAddress.ofHex .standard (Hex.encode (Bytes.ofNatBE 32 1))
          (.ofList ([' '] ++ (secp256k1.generator.hybrid.flatMap Hex.byteDigits).map Char.toUpper
            ++ ['\n'])) .signet = .ok c
        ∧ a.address ≠ b.address ∧ b.address = c.address
        ∧ (({} : Registry).subscribe b []).2.get? c.address
          = some (({} : Registry).subscribe b []).1 := by
  obtain ⟨hmake, hspell, hsame⟩ := addresses_name_keys
  have hpos : 0 < 1 := Nat.one_pos
  have hlt : 1 < secp256k1.order := by decide
  have hcurve : secp256k1.onCurve secp256k1.generator = true := by decide +kernel
  have hscan := Hex.spells_encode (Bytes.ofNatBE 32 1)
  have hcapitals : Hex.Spells (.ofList ([' ']
      ++ (secp256k1.generator.hybrid.flatMap Hex.byteDigits).map Char.toUpper ++ ['\n']))
      secp256k1.generator.hybrid :=
    Hex.spells_map (by decide) (List.forall_mem_singleton.2 rfl) (List.forall_mem_singleton.2 rfl) _
  have hplain : ∀ network, ScanAddress.ofHex .standard (Hex.encode (Bytes.ofNatBE 32 1))
      (Hex.encode secp256k1.generator.compress) network
        = ScanAddress.make .standard 1 secp256k1.generator network := fun network =>
    hspell 1 _ network _ _ _ hpos hlt hcurve List.mem_cons_self hscan (Hex.spells_encode _)
  obtain ⟨a, -, -, ha, -⟩ := hmake 1 _ .mainnet hpos hlt hcurve
  obtain ⟨b, -, -, hb, hbscan, hbspend, -⟩ := hmake 1 _ .testnet hpos hlt hcurve
  obtain ⟨c, -, -, hc, hcscan, hcspend, -⟩ := hmake 1 _ .signet hpos hlt hcurve
  have ha' := (hplain .mainnet).trans ha
  have hb' := (hplain .testnet).trans hb
  have hc' := (hspell 1 _ .signet _ _ _ hpos hlt hcurve (by simp [PublicKey.forms]) hscan
    hcapitals).trans hc
  have hkeys : ScanAddress.SameKeys .testnet .signet b c :=
    ⟨rfl, hbscan.trans hcscan.symm, hbspend.trans hcspend.symm⟩
  obtain ⟨hab, -⟩ := hsame _ _ _ a _ _ _ b ha' hb'
  obtain ⟨hbc, hregistry⟩ := hsame _ _ _ b _ _ _ c hb' hc'
  refine ⟨a, b, c, ha', hb', hc', fun h => absurd (hab.1 h).1 (by decide), hbc.2 hkeys, ?_⟩
  rw [(hregistry {} []).1, if_pos hkeys]

end SilentScan
