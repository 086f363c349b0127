/-
A snapshot read back from its stored form.

Coins are stored one behind the other, so that reading them back is a matter of one coin and of the
order in which the reader goes through the groups. Groups without coins take up bytes and a round of
the reader, and nothing else.

* `CoinScript.Fits`, `Coin.Fits`, `SnapshotHeader.Fits`: what can be stored;
* `CoinScript.recognized`: a script stored in full, as it is told apart when it is read;
* `recovers_coin`: a coin read back;
* `readCoins_encode`: all coins of a file, whatever the groups;
* `readSnapshot_encodeSnapshot`: the whole snapshot, with its totals and its coins worth indexing.
-/
import SilentScan.Proofs.Snapshot.Numbers
import SilentScan.Snapshot.File

namespace SilentScan

/-! ### What can be stored -/

/-- The bytes `0x51 0x20` followed by exactly 32 bytes. -/
def paysTaproot : Bytes → Bool
  | 0x51 :: 0x20 :: program => program.length = 32
  | _ => false

namespace CoinScript

/-- The script of a coin that stores it in full. -/
def whole? : CoinScript → Option Bytes
  | .taproot program => some (0x51 :: 0x20 :: program)
  | .raw script => some script
  | _ => none

/-- Whether a script has the lengths of its kind. -/
def Fits : CoinScript → Prop
  | .pubkeyHash hash => hash.length = 20
  | .scriptHash hash => hash.length = 20
  | .pubkey selector x => 2 ≤ selector ∧ selector ≤ 5 ∧ x.length = 32
  | .taproot program => program.length = 32
  | .raw script => script.length ≤ maxScriptLength

instance : DecidablePred Fits
  | .pubkeyHash hash => inferInstanceAs (Decidable (hash.length = 20))
  | .scriptHash hash => inferInstanceAs (Decidable (hash.length = 20))
  | .pubkey selector x => inferInstanceAs (Decidable (2 ≤ selector ∧ selector ≤ 5 ∧ x.length = 32))
  | .taproot program => inferInstanceAs (Decidable (program.length = 32))
  | .raw script => inferInstanceAs (Decidable (script.length ≤ maxScriptLength))

/-- A script as it is read: Taproot outputs are told apart from others stored in full. -/
def recognized : CoinScript → CoinScript
  | .raw script => ofStored script
  | script => script

end CoinScript

namespace Coin

/-- Whether the script of the coin is stored in full and pays to a Taproot key. -/
def paysTaproot (c : Coin) : Bool :=
  c.script.whole?.any SilentScan.paysTaproot

/-- A coin as it is read. -/
def recognized (c : Coin) : Coin :=
  { c with script := c.script.recognized }

/-- The coin as one of a transaction. -/
def under (txid : Txid) (c : Coin) : Coin :=
  { c with txid }

/-- Whether the numbers of a coin can be stored, and its script. -/
structure Fits (c : Coin) : Prop where
  vout : c.vout < 0x1_0000_0000
  height : c.height < 0x8000_0000
  amount : c.amount < 0x1_0000_0000_0000_0000
  code : compressAmount c.amount < 0x1_0000_0000_0000_0000
  script : c.script.Fits

instance : DecidablePred Fits := fun c =>
  decidable_of_iff (c.vout < 0x1_0000_0000 ∧ c.height < 0x8000_0000
      ∧ c.amount < 0x1_0000_0000_0000_0000 ∧ compressAmount c.amount < 0x1_0000_0000_0000_0000
      ∧ c.script.Fits)
    ⟨fun ⟨hvout, hheight, hamount, hcode, hscript⟩ => ⟨hvout, hheight, hamount, hcode, hscript⟩,
      fun h => ⟨h.vout, h.height, h.amount, h.code, h.script⟩⟩

end Coin

/-- Whether the parts of a header have their widths. -/
structure SnapshotHeader.Fits (h : SnapshotHeader) : Prop where
  version : h.version = snapshotVersion
  networkMagic : h.networkMagic.length = 4
  baseBlockHash : h.baseBlockHash.length = 32
  coinCount : h.coinCount < 0x1_0000_0000_0000_0000

/-- The coins of groups, in order, each as one of the transaction of its group. -/
def coinsOfGroups (groups : List (Txid × List Coin)) : List Coin :=
  groups.flatMap fun (txid, coins) => coins.map (·.under txid)

/-! ### Scripts -/

namespace CoinScript

/-- Taproot outputs are told apart by their bytes. -/
lemma program?_ofStored (script : Bytes) :
    (ofStored script).program?.isSome = SilentScan.paysTaproot script := by
  unfold ofStored
  split
  · split <;> simp_all [program?, SilentScan.paysTaproot]
  · rename_i hother
    rw [SilentScan.paysTaproot]
    · rfl
    · exact hother

/-- What is told apart is not taken for something else. -/
lemma ofStored_taproot {program : Bytes} (h : program.length = 32) :
    ofStored (0x51 :: 0x20 :: program) = .taproot program := by
  rw [ofStored, if_pos h]

/-- A script stored in full is read back, and told apart. -/
lemma recovers_storeWhole {script : Bytes} (h : script.length ≤ maxScriptLength) (coin : Nat) :
    (CoinScript.read coin).Recovers (storeWhole script) (ofStored script) := by
  intro rest
  have hmax : maxScriptLength = 10000 := rfl
  have hlength : script.length + 6 - 6 = script.length := by omega
  rw [storeWhole, List.append_assoc, CoinScript.read, recovers_readVarint (by omega)]
  simp only [bind, Except.bind, pure, Except.pure]
  rw [if_neg (by omega), hlength, if_neg (by omega), recovers_readBytes rfl rest]

/-- **Scripts** of every kind are read back. -/
lemma recovers_script {script : CoinScript} (h : script.Fits) (coin : Nat) :
    (CoinScript.read coin).Recovers script.encode script.recognized := by
  cases script with
  | pubkeyHash hash =>
    intro rest
    rw [encode, List.append_assoc, CoinScript.read, recovers_readVarint (by decide)]
    simp only [bind, Except.bind, pure, Except.pure, recovers_readBytes h rest, recognized]
  | scriptHash hash =>
    intro rest
    rw [encode, List.append_assoc, CoinScript.read, recovers_readVarint (by decide)]
    simp only [bind, Except.bind, pure, Except.pure, recovers_readBytes h rest, recognized]
  | pubkey selector x =>
    obtain ⟨hlow, hhigh, hx⟩ := h
    intro rest
    rw [encode, List.append_assoc, CoinScript.read, recovers_readVarint (by omega)]
    simp only [bind, Except.bind, pure, Except.pure]
    split
    · omega
    · omega
    · rw [if_pos (by omega), recovers_readBytes hx rest]
      rfl
  | taproot program =>
    have hprogram : program.length = 32 := h
    have hwhole : (0x51 :: 0x20 :: program : Bytes).length ≤ maxScriptLength := by
      rw [List.length_cons, List.length_cons, hprogram]
      decide
    have hkind : (taproot program).recognized = ofStored (0x51 :: 0x20 :: program) :=
      (ofStored_taproot hprogram).symm
    rw [encode, hkind]
    exact recovers_storeWhole hwhole coin
  | raw script => exact recovers_storeWhole h coin

/-- A script is read as a Taproot output exactly if it is stored in full and pays to a Taproot
key. -/
lemma program?_recognized {script : CoinScript} (h : script.Fits) :
    script.recognized.program?.isSome = script.whole?.any SilentScan.paysTaproot := by
  cases script with
  | taproot program =>
    have hprogram : program.length = 32 := h
    simp [recognized, program?, whole?, SilentScan.paysTaproot, hprogram]
  | raw script => simp [recognized, whole?, program?_ofStored]
  | _ => rfl

end CoinScript

/-! ### Coins -/

/-- **A coin** is read back from its stored form, as one of the transaction it is read for. -/
lemma recovers_coin {c : Coin} (h : c.Fits) (txid : Txid) (number : Nat) :
    (Coin.read txid number).Recovers c.encode (c.under txid).recognized := by
  intro rest
  have hvout := h.vout
  have hheight := h.height
  have hbit : (if c.coinbase then 1 else 0) < 2 := by split <;> decide
  have hhalf : (2 * c.height + (if c.coinbase then 1 else 0)) / 2 = c.height := by omega
  have hflag : decide ((2 * c.height + (if c.coinbase then 1 else 0)) % 2 = 1) = c.coinbase := by
    cases c.coinbase <;> simp
  simp only [Coin.encode, List.append_assoc]
  rw [Coin.read, recovers_readCompactSize (by omega)]
  simp only [bind, Except.bind, if_neg (Nat.not_le.2 hvout), pure, Except.pure]
  rw [recovers_readVarint (by omega)]
  simp only [hhalf, if_neg (Nat.not_le.2 hheight)]
  rw [recovers_readVarint h.code]
  simp only [decompressAmount_compressAmount h.amount]
  rw [CoinScript.recovers_script h.script]
  simp only [hflag]
  rfl

lemma Coin.isTaproot_recognized {c : Coin} (h : c.Fits) :
    c.recognized.isTaproot = c.paysTaproot :=
  CoinScript.program?_recognized h.script

/-- A coin is worth indexing as it is read exactly if its stored form says so. -/
lemma Coin.isIndexable_recognized {c : Coin} (h : c.Fits) (minValue : Nat) :
    c.recognized.isIndexable minValue
      = (c.paysTaproot && !c.coinbase && decide (minValue ≤ c.amount)) := by
  rw [Coin.isIndexable, Coin.isTaproot_recognized h]
  rfl

/-! ### Groups -/

lemma recovers_groupHead {txid : Txid} {count : Nat} (htxid : txid.length = 32)
    (hcount : count < 0x1_0000_0000_0000_0000) :
    readGroupHead.Recovers (txid.internal ++ writeCompactSize count) (txid, count) := by
  intro rest
  have hlength : txid.internal.length = 32 := by rw [Txid.internal, List.length_reverse, htxid]
  have hback : Txid.ofInternal txid.internal = txid := List.reverse_reverse txid
  rw [readGroupHead, List.append_assoc, recovers_readBytes hlength]
  simp only [bind, Except.bind, recovers_readCompactSize hcount rest, hback]
  rfl

/-- The rounds in which a group is read: one for its head and one for each coin. -/
def roundsOfGroups (groups : List (Txid × List Coin)) : Nat :=
  (groups.map fun (_, coins) => coins.length + 1).sum

/-- The stored form of groups. -/
def encodeGroups (groups : List (Txid × List Coin)) : Bytes :=
  groups.flatMap fun (txid, coins) => encodeGroup txid coins

lemma coinsOfGroups_cons (txid : Txid) (coins : List Coin) (groups : List (Txid × List Coin)) :
    coinsOfGroups ((txid, coins) :: groups)
      = coins.map (·.under txid) ++ coinsOfGroups groups := rfl

lemma encodeGroups_cons (txid : Txid) (coins : List Coin) (groups : List (Txid × List Coin)) :
    encodeGroups ((txid, coins) :: groups)
      = encodeGroup txid coins ++ encodeGroups groups := rfl

lemma roundsOfGroups_cons (txid : Txid) (coins : List Coin) (groups : List (Txid × List Coin)) :
    roundsOfGroups ((txid, coins) :: groups) = coins.length + 1 + roundsOfGroups groups := by
  simp [roundsOfGroups]

/-- Whether the parts of groups can be stored. -/
def GroupsFit (groups : List (Txid × List Coin)) : Prop :=
  ∀ g ∈ groups, g.1.length = 32 ∧ ∀ c ∈ g.2, c.Fits

instance : DecidablePred GroupsFit := fun groups =>
  inferInstanceAs (Decidable (∀ g ∈ groups, g.1.length = 32 ∧ ∀ c ∈ g.2, c.Fits))

/-- The end of the reading: all coins are there. -/
lemma readCoins_of_le {total done : Nat} (h : total ≤ done) (rounds : Nat) (txid : Txid)
    (left : Nat) (bs : Bytes) : readCoins total rounds done txid left bs = ([], .ok bs) := by
  rw [readCoins.eq_def]
  exact if_pos h

/-- A round in which a coin is read. -/
lemma readCoins_coin {total rounds done left : Nat} {txid : Txid} {c : Coin} {bs : Bytes}
    (h : done < total) (hc : c.Fits) :
    readCoins total (rounds + 1) done txid (left + 1) (c.encode ++ bs)
      = ((c.under txid).recognized :: (readCoins total rounds (done + 1) txid left bs).1,
          (readCoins total rounds (done + 1) txid left bs).2) := by
  rw [readCoins.eq_def]
  simp only [if_neg (Nat.not_le.2 h), recovers_coin hc txid done bs]

/-- A round in which the head of a group is read. -/
lemma readCoins_head {total rounds done : Nat} {txid old : Txid} {coins : List Coin} {bs : Bytes}
    (h : done < total) (htxid : txid.length = 32)
    (hcount : coins.length < 0x1_0000_0000_0000_0000) :
    readCoins total (rounds + 1) done old 0 (encodeGroup txid coins ++ bs)
      = readCoins total rounds done txid coins.length (coins.flatMap Coin.encode ++ bs) := by
  rw [readCoins.eq_def, encodeGroup, List.append_assoc]
  simp only [if_neg (Nat.not_le.2 h), recovers_groupHead htxid hcount _]

/-- The coins left of a group are read, and then those of what follows, `next`. -/
lemma readCoins_group {total rounds done : Nat} (txid : Txid) {coins : List Coin} (bs : Bytes)
    (hcoins : ∀ c ∈ coins, c.Fits) (hrounds : coins.length ≤ rounds)
    (htotal : done + coins.length ≤ total) :
    (readCoins total rounds done txid coins.length (coins.flatMap Coin.encode ++ bs)).1
        = coins.map (fun c => (c.under txid).recognized)
          ++ (readCoins total (rounds - coins.length) (done + coins.length) txid 0 bs).1
      ∧ (readCoins total rounds done txid coins.length (coins.flatMap Coin.encode ++ bs)).2
        = (readCoins total (rounds - coins.length) (done + coins.length) txid 0 bs).2 := by
  induction coins generalizing rounds done with
  | nil => exact ⟨rfl, rfl⟩
  | cons c coins ih =>
    obtain ⟨hc, hcoins⟩ := List.forall_mem_cons.1 hcoins
    rw [List.length_cons] at hrounds htotal ⊢
    obtain ⟨rounds, rfl⟩ : ∃ k, rounds = k + 1 := ⟨rounds - 1, by omega⟩
    have hrest := ih hcoins (show coins.length ≤ rounds by omega)
      (show done + 1 + coins.length ≤ total by omega)
    have hleft : rounds + 1 - (coins.length + 1) = rounds - coins.length := by omega
    have hdone : done + (coins.length + 1) = done + 1 + coins.length := by omega
    rw [List.flatMap_cons, List.append_assoc, readCoins_coin (by omega) hc, hleft, hdone]
    exact ⟨congrArg _ hrest.1, hrest.2⟩

/-- **The coins of a file**: whatever the groups, all coins are read in order, each as one of its
own transaction, and the reading ends well. -/
lemma readCoins_encode {groups : List (Txid × List Coin)} (hgroups : GroupsFit groups)
    {total rounds done : Nat} (htotal : total = done + (coinsOfGroups groups).length)
    (hsmall : total < 0x1_0000_0000_0000_0000) (hrounds : roundsOfGroups groups ≤ rounds)
    (txid : Txid) (trailing : Bytes) :
    (readCoins total rounds done txid 0 (encodeGroups groups ++ trailing)).1
        = (coinsOfGroups groups).map Coin.recognized
      ∧ ∃ rest, (readCoins total rounds done txid 0 (encodeGroups groups ++ trailing)).2
        = .ok rest := by
  induction groups generalizing rounds done txid with
  | nil =>
    rw [readCoins_of_le (by simp [htotal, coinsOfGroups])]
    exact ⟨rfl, _, rfl⟩
  | cons group groups ih =>
    obtain ⟨id, coins⟩ := group
    obtain ⟨⟨hid, hcoins⟩, hgroups⟩ := List.forall_mem_cons.1 hgroups
    dsimp only at hid hcoins
    rw [coinsOfGroups_cons, List.length_append, List.length_map] at htotal
    rw [roundsOfGroups_cons] at hrounds
    by_cases hend : total ≤ done
    · have hnone : (coinsOfGroups ((id, coins) :: groups)) = [] := by
        rw [coinsOfGroups_cons, ← List.length_eq_zero_iff, List.length_append, List.length_map]
        omega
      rw [readCoins_of_le hend, hnone]
      exact ⟨rfl, _, rfl⟩
    · obtain ⟨rounds, rfl⟩ : ∃ k, rounds = k + 1 := ⟨rounds - 1, by omega⟩
      rw [encodeGroups_cons, List.append_assoc, readCoins_head (by omega) hid (by omega)]
      obtain ⟨hfirst, hsecond⟩ := readCoins_group id (encodeGroups groups ++ trailing) hcoins
        (show coins.length ≤ rounds by omega) (show done + coins.length ≤ total by omega)
      have hleft : total = done + coins.length + (coinsOfGroups groups).length := by omega
      obtain ⟨hrest, hend⟩ := ih hgroups hleft
        (show roundsOfGroups groups ≤ rounds - coins.length by omega) id
      rw [hfirst, hsecond, hrest, coinsOfGroups_cons, List.map_append, List.map_map]
      exact ⟨rfl, hend⟩

/-! ### Whole files -/

lemma recovers_header {h : SnapshotHeader} (fits : h.Fits) :
    SnapshotHeader.read.Recovers h.encode h := by
  intro rest
  have hmagic : snapshotMagic.length = 5 := rfl
  have hversion : h.version < 256 ^ 2 := by rw [fits.version]; decide
  simp only [SnapshotHeader.encode, List.append_assoc]
  rw [SnapshotHeader.read, recovers_readBytes hmagic]
  simp only [bind, Except.bind, ne_eq, not_true_eq_false, if_false, pure, Except.pure]
  rw [recovers_readLE hversion]
  simp only [fits.version, not_true_eq_false, if_false]
  rw [recovers_readBytes fits.networkMagic]
  simp only
  rw [recovers_readBytes fits.baseBlockHash]
  simp only
  rw [recovers_readLE (lt_of_lt_of_eq fits.coinCount (by norm_num))]
  simp only [← fits.version]

/-- Every round of the reader takes in a byte at least. -/
lemma length_writeCompactSize_pos (n : Nat) : 0 < (writeCompactSize n).length := by
  rw [writeCompactSize]
  repeat' split
  all_goals simp

lemma length_encode_pos (c : Coin) : 0 < c.encode.length := by
  have := length_writeCompactSize_pos c.vout
  rw [Coin.encode]
  simp only [List.length_append]
  omega

lemma length_coins_le (coins : List Coin) :
    coins.length ≤ (coins.flatMap Coin.encode).length := by
  induction coins with
  | nil => exact le_refl 0
  | cons c coins ih =>
    have := length_encode_pos c
    rw [List.flatMap_cons, List.length_append, List.length_cons]
    omega

lemma roundsOfGroups_le (groups : List (Txid × List Coin)) :
    roundsOfGroups groups ≤ (encodeGroups groups).length := by
  induction groups with
  | nil => exact le_refl 0
  | cons group groups ih =>
    obtain ⟨id, coins⟩ := group
    have hhead := length_writeCompactSize_pos coins.length
    have hcoins := length_coins_le coins
    rw [roundsOfGroups_cons, encodeGroups_cons, encodeGroup]
    simp only [List.length_append]
    omega

lemma fits_of_mem_coinsOfGroups {groups : List (Txid × List Coin)} (hgroups : GroupsFit groups)
    {c : Coin} (hc : c ∈ coinsOfGroups groups) : c.Fits := by
  obtain ⟨⟨id, coins⟩, hgroup, hmem⟩ := List.mem_flatMap.1 hc
  obtain ⟨c', hc', rfl⟩ := List.mem_map.1 hmem
  have fits := (hgroups _ hgroup).2 c' hc'
  exact ⟨fits.vout, fits.height, fits.amount, fits.code, fits.script⟩

/-- **A snapshot read back**: for every header and every list of groups, some of them perhaps
without coins, and whatever stands behind them, the stored form is read as just these: the header,
the coins in order with the transactions of their groups, their number, and the number of those that
pay to a Taproot key. And for every least value the coins worth indexing are those of at least that
value that pay to a Taproot key and were not mined. -/
theorem readSnapshot_encodeSnapshot (h : SnapshotHeader) (groups : List (Txid × List Coin))
    (trailing : Bytes) (hheader : h.Fits) (hgroups : GroupsFit groups)
    (hcount : h.coinCount = (coinsOfGroups groups).length) :
    ∃ r, readSnapshot (encodeSnapshot h groups ++ trailing) = .ok r
      ∧ r.header = h
      ∧ r.coins = (coinsOfGroups groups).map Coin.recognized
      ∧ r.totals = .ok ((coinsOfGroups groups).length,
          (coinsOfGroups groups).countP Coin.paysTaproot)
      ∧ ∀ minValue,
        r.indexable minValue
            = ((coinsOfGroups groups).filter fun c =>
                c.paysTaproot && !c.coinbase && decide (minValue ≤ c.amount)).map Coin.recognized
          ∧ r.indexableCount minValue = .ok (r.indexable minValue).length := by
  have hfile : encodeSnapshot h groups ++ trailing
      = h.encode ++ (encodeGroups groups ++ trailing) := List.append_assoc _ _ _
  have hrounds : roundsOfGroups groups ≤ (encodeGroups groups ++ trailing).length + 1 := by
    have := roundsOfGroups_le groups
    rw [List.length_append]
    omega
  have htotal : h.coinCount = 0 + (coinsOfGroups groups).length := by omega
  obtain ⟨hcoins, rest, hrest⟩ := readCoins_encode hgroups htotal
    hheader.coinCount hrounds [] trailing
  have hread : readSnapshot (encodeSnapshot h groups ++ trailing)
      = .ok { header := h, coins := (coinsOfGroups groups).map Coin.recognized,
              rest := .ok rest } := by
    rw [readSnapshot, hfile, recovers_header hheader]
    simp only [bind, Except.bind, pure, Except.pure]
    rw [← hcoins, ← hrest]
  refine ⟨_, hread, rfl, rfl, ?_, fun minValue => ⟨?_, rfl⟩⟩
  · have htaproot : (coinsOfGroups groups).countP (Coin.isTaproot ∘ Coin.recognized)
        = (coinsOfGroups groups).countP Coin.paysTaproot :=
      List.countP_congr fun c hc => by
        rw [Function.comp, Coin.isTaproot_recognized (fits_of_mem_coinsOfGroups hgroups hc)]
    simp [SnapshotReading.totals, bind, Except.bind, pure, Except.pure, List.countP_map, htaproot]
  · rw [SnapshotReading.indexable, List.filter_map]
    refine congrArg _ (List.filter_congr fun c hc => ?_)
    exact Coin.isIndexable_recognized (fits_of_mem_coinsOfGroups hgroups hc) minValue

/-- A snapshot with a group without coins, to be used as an example: a Taproot output, a mined one
that is stored in full like any other script, and an output to the hash of a key. -/
def sampleGroups : List (Txid × List Coin) :=
  let coin (vout amount : Nat) (coinbase : Bool) (script : CoinScript) : Coin :=
    { txid := [], vout, amount, height := 100, coinbase, script }
  [(List.replicate 32 1, [coin 0 5000 false (.taproot (List.replicate 32 7)),
      coin 1 5000000000 true (.raw (0x51 :: 0x20 :: List.replicate 32 8))]),
    (List.replicate 32 2, []),
    (List.replicate 32 3, [coin 70000 600 false (.pubkeyHash (List.replicate 20 9))])]

/-- The header of the example. -/
def sampleHeader : SnapshotHeader where
  networkMagic := [0xFA, 0xBF, 0xB5, 0xDA]
  baseBlockHash := List.replicate 32 0x11
  coinCount := 3

/-- The example with a byte behind it: three coins, two of them to Taproot keys, and one of these
worth indexing. -/
theorem readSnapshot_of_three_coins :
    sampleHeader.Fits ∧ GroupsFit sampleGroups
      ∧ sampleHeader.coinCount = (coinsOfGroups sampleGroups).length
      ∧ ∃ r, readSnapshot (encodeSnapshot sampleHeader sampleGroups ++ [0xAA]) = .ok r
        ∧ r.totals = .ok (3, 2) ∧ (r.indexable 1000).map (·.vout) = [0] := by
  have hheader : sampleHeader.Fits := ⟨by decide, by decide, by decide, by decide⟩
  have hgroups : GroupsFit sampleGroups := by decide
  have hcount : sampleHeader.coinCount = (coinsOfGroups sampleGroups).length := by decide
  obtain ⟨r, hr, _, _, htotals, hindexable⟩ :=
    readSnapshot_encodeSnapshot sampleHeader sampleGroups [0xAA] hheader hgroups hcount
  refine ⟨hheader, hgroups, hcount, r, hr, htotals.trans (by decide), ?_⟩
  rw [(hindexable 1000).1]
  decide

end SilentScan
