/-
A text with a checksum is read back.

Taking a symbol into the remainder is linear in exclusive or, and six symbols that are taken in
behind others come to stand in the remainder as they are. The checksum, which makes up the
difference to the right remainder, therefore always fits. Bytes and groups of five bits are two ways
of cutting the same bits, if the zeros that fill the last group are dropped; fewer than five are
left over. So a text is read back to what it was made of.

* `numberBits`, `bytes?`, `decode?`: the reader of texts with a checksum;
* `polymodStep_xor`, `verifies_checksum`: the checksum fits;
* `bytes?_symbols`: bytes come back from their groups;
* `decode?_encode`: a text is read back.
-/
import Mathlib.Data.List.Induction
import Mathlib.Tactic.NormNum
import SilentScan.Payment.Bech32
import SilentScan.Proofs.Attempt

namespace SilentScan.Bech32

/-! ### The reader -/

/-- The symbol of a character. -/
def charSymbol? (c : Char) : Option Nat :=
  alphabet.toList.findIdx? (· == c)

/-- The bits of a number at a width, the highest first. -/
def numberBits (width n : Nat) : List Bool :=
  (List.range width).map fun i => n.testBit (width - 1 - i)

/-- Cuts bits into bytes. Fewer than five may be left over, and these are zeros. -/
def bytes? : List Bool → Option Bytes
  | b₀ :: b₁ :: b₂ :: b₃ :: b₄ :: b₅ :: b₆ :: b₇ :: rest =>
    (bytes? rest).map (UInt8.ofNat (bitsNat [b₀, b₁, b₂, b₃, b₄, b₅, b₆, b₇]) :: ·)
  | rest => if rest.length < 5 ∧ true ∉ rest then some [] else none

/-- Reads symbols behind a human-readable part, the last six of them the checksum: the version
symbol and the payload. -/
def payload? (hrp : String) (symbols : List Nat) : Option (Nat × Bytes) :=
  if verifies hrp symbols then
    match symbols.take (symbols.length - 6) with
    | [] => none
    | version :: groups => (bytes? (groups.flatMap (numberBits 5))).map (version, ·)
  else none

/-- Whether characters make up a human-readable part. -/
def isPart (part : List Char) : Bool :=
  part ≠ [] && part.all fun c => 33 ≤ c.toNat && c.toNat ≤ 126

/-- Reads the characters of a text: the human-readable part, which ends at the last separator, the
version symbol and the payload. -/
def decodeChars? (cs : List Char) : Option (String × Nat × Bytes) := do
  let symbols ← (cs.reverse.takeWhile (· ≠ '1')).reverse.mapM charSymbol?
  let part := ((cs.reverse.dropWhile (· ≠ '1')).drop 1).reverse
  if isPart part then
    let (version, payload) ← payload? (String.ofList part) symbols
    return (String.ofList part, version, payload)
  else none

/-- Reads a text with a checksum, whose letters are all in one case. -/
def decode? (text : String) : Option (String × Nat × Bytes) :=
  let cs := text.toList
  if cs.any Char.isUpper && cs.any Char.isLower then none else decodeChars? (cs.map Char.toLower)

/-! ### The checksum -/

lemma xor_xor_xor_comm (a b v w : Nat) : a ^^^ b ^^^ (v ^^^ w) = a ^^^ v ^^^ (b ^^^ w) := by
  rw [Nat.xor_assoc, Nat.xor_assoc, ← Nat.xor_assoc b, Nat.xor_comm b v, Nat.xor_assoc v]

/-- The coefficients that the bits shifted out select are added to the remainder. -/
def addSelected (top : Nat) (gs : List (Nat × Nat)) (chk : Nat) : Nat :=
  gs.foldl (fun c (g, i) => if top.testBit i then c ^^^ g else c) chk

lemma addSelected_cons (top g i : Nat) (gs : List (Nat × Nat)) (chk : Nat) :
    addSelected top ((g, i) :: gs) chk
      = addSelected top gs (if top.testBit i then chk ^^^ g else chk) :=
  rfl

lemma polymodStep_eq (chk v : Nat) :
    polymodStep chk v
      = addSelected (chk >>> 25) generators.zipIdx ((chk &&& 0x1ffffff) <<< 5 ^^^ v) :=
  rfl

lemma addSelected_xor (s t : Nat) (gs : List (Nat × Nat)) (a b : Nat) :
    addSelected (s ^^^ t) gs (a ^^^ b) = addSelected s gs a ^^^ addSelected t gs b := by
  induction gs generalizing a b with
  | nil => rfl
  | cons p gs ih =>
    obtain ⟨g, i⟩ := p
    have hselect : (if (s ^^^ t).testBit i then a ^^^ b ^^^ g else a ^^^ b)
        = (if s.testBit i then a ^^^ g else a) ^^^ (if t.testBit i then b ^^^ g else b) := by
      rw [Nat.testBit_xor]
      cases s.testBit i <;> cases t.testBit i
      · rfl
      · exact Nat.xor_assoc a b g
      · simp only [Bool.true_bne, Bool.not_false, if_true, Bool.false_eq_true, if_false]
        rw [Nat.xor_assoc, Nat.xor_comm b g, ← Nat.xor_assoc]
      · simp only [bne_self_eq_false, Bool.false_eq_true, if_false, if_true]
        rw [xor_xor_xor_comm, Nat.xor_self, Nat.xor_zero]
    rw [addSelected_cons, addSelected_cons, addSelected_cons, hselect, ih]

/-- **Taking a symbol into the remainder is linear** in exclusive or. -/
lemma polymodStep_xor (a b v w : Nat) :
    polymodStep (a ^^^ b) (v ^^^ w) = polymodStep a v ^^^ polymodStep b w := by
  simp only [polymodStep_eq, Nat.shiftRight_xor_distrib, Nat.and_xor_distrib_right,
    Nat.shiftLeft_xor_distrib]
  rw [xor_xor_xor_comm, addSelected_xor]

/-- Symbols behind others add to the remainder what zeros would leave of it. -/
lemma foldl_polymodStep_xor (a b : Nat) (vs : List Nat) :
    vs.foldl polymodStep (a ^^^ b)
      = (List.replicate vs.length 0).foldl polymodStep a ^^^ vs.foldl polymodStep b := by
  induction vs generalizing a b with
  | nil => rfl
  | cons v vs ih =>
    have hstep := polymodStep_xor a b 0 v
    rw [Nat.zero_xor] at hstep
    rw [List.foldl_cons, hstep, ih, List.length_cons, List.replicate_succ, List.foldl_cons,
      List.foldl_cons]

/-- No bit is shifted out of a small remainder. -/
lemma polymodStep_of_lt {chk : Nat} (h : chk < 2 ^ 25) (v : Nat) :
    polymodStep chk v = (chk <<< 5) ^^^ v := by
  have htop : chk >>> 25 = 0 := by rw [Nat.shiftRight_eq_div_pow, Nat.div_eq_of_lt h]
  have hlow : chk &&& 0x1ffffff = chk :=
    (Nat.and_two_pow_sub_one_eq_mod chk 25).trans (Nat.mod_eq_of_lt h)
  simp [polymodStep, htop, hlow, generators, List.zipIdx]

lemma addSelected_lt (top : Nat) {gs : List (Nat × Nat)} (hgs : ∀ p ∈ gs, p.1 < 2 ^ 30) {chk : Nat}
    (h : chk < 2 ^ 30) : addSelected top gs chk < 2 ^ 30 := by
  induction gs generalizing chk with
  | nil => exact h
  | cons p gs ih =>
    obtain ⟨g, i⟩ := p
    obtain ⟨hg, hgs⟩ := List.forall_mem_cons.1 hgs
    rw [addSelected_cons]
    split
    · exact ih hgs (Nat.xor_lt_two_pow h hg)
    · exact ih hgs h

/-- The remainder has thirty bits. -/
lemma polymodStep_lt (chk : Nat) {v : Nat} (hv : v < 2 ^ 30) : polymodStep chk v < 2 ^ 30 := by
  have hlow : chk &&& 0x1ffffff < 2 ^ 25 := Nat.and_lt_two_pow chk (by norm_num)
  have hshifted : (chk &&& 0x1ffffff) <<< 5 < 2 ^ 30 := by
    rw [Nat.shiftLeft_eq]
    omega
  exact addSelected_lt _ (by decide) (Nat.xor_lt_two_pow hshifted hv)

/-- A number is put together from its high bits and its five low ones. -/
lemma shiftLeft_div_xor_mod (q : Nat) : (q / 2 ^ 5) <<< 5 ^^^ q % 2 ^ 5 = q := by
  refine Nat.eq_of_testBit_eq fun i => ?_
  rw [Nat.testBit_xor, Nat.testBit_shiftLeft, Nat.testBit_mod_two_pow, Nat.testBit_div_two_pow]
  by_cases hi : 5 ≤ i
  · have hlow : ¬ i < 5 := by omega
    have hback : i - 5 + 5 = i := by omega
    simp [hi, hlow, hback]
  · have hlow : i < 5 := by omega
    simp [hi, hlow]

/-- Six symbols come to stand in the remainder as they are. -/
lemma foldl_polymodStep_digits {m : Nat} (hm : m < 2 ^ 30) :
    ((List.range 6).map fun i => (m >>> (5 * (5 - i))) % 32).foldl polymodStep 0 = m := by
  -- After `k` symbols the remainder holds the `k` highest of the six groups of `m`; no bit is
  -- shifted out before the last symbol is in.
  suffices hsome : ∀ k ≤ 6, ((List.range k).map fun i => (m >>> (5 * (5 - i))) % 32).foldl
      polymodStep 0 = m >>> (5 * (6 - k)) from hsome 6 le_rfl
  intro k
  induction k with
  | zero =>
    intro _
    rw [Nat.shiftRight_eq_div_pow, Nat.div_eq_of_lt (by omega)]
    rfl
  | succ k ih =>
    intro hk
    have hnext : m >>> (5 * (6 - k)) = m >>> (5 * (5 - k)) / 2 ^ 5 := by
      rw [← Nat.shiftRight_eq_div_pow, ← Nat.shiftRight_add]
      congr 1
      omega
    have hsmall : m >>> (5 * (6 - k)) < 2 ^ 25 := by
      rw [hnext]
      have := Nat.shiftRight_le m (5 * (5 - k))
      omega
    have hlast : 6 - (k + 1) = 5 - k := by omega
    rw [List.range_succ, List.map_append, List.foldl_append, ih (by omega), List.map_singleton,
      List.foldl_cons, List.foldl_nil, polymodStep_of_lt hsmall, hnext, hlast]
    exact shiftLeft_div_xor_mod _

lemma length_checksum (hrp : String) (data : List Nat) : (checksum hrp data).length = 6 := by
  rw [checksum, List.length_map, List.length_range]

/-- **The checksum fits.** -/
theorem verifies_checksum (hrp : String) (data : List Nat) :
    verifies hrp (data ++ checksum hrp data) = true := by
  set before := (expand hrp ++ data).foldl polymodStep 1 with hbefore
  set zeros := (List.replicate 6 0).foldl polymodStep before with hzeros
  have hchecksum : checksum hrp data
      = (List.range 6).map fun i => ((zeros ^^^ target) >>> (5 * (5 - i))) % 32 := by
    rw [checksum, polymod, List.foldl_append]
  have hlt : zeros ^^^ target < 2 ^ 30 :=
    Nat.xor_lt_two_pow (polymodStep_lt _ (by norm_num)) (by decide)
  -- The checksum is the difference between what six zeros would leave and the right remainder.
  have hpolymod : polymod (expand hrp ++ (data ++ checksum hrp data)) = target := by
    have hadd := foldl_polymodStep_xor before 0 (checksum hrp data)
    rw [Nat.xor_zero, length_checksum] at hadd
    rw [polymod, ← List.append_assoc, List.foldl_append, ← hbefore, hadd, hchecksum,
      foldl_polymodStep_digits hlt, ← hzeros, ← Nat.xor_assoc, Nat.xor_self, Nat.zero_xor]
  exact decide_eq_true hpolymod

/-! ### Bytes and groups -/

lemma numberBits_succ (width n : Nat) :
    numberBits (width + 1) n = numberBits width (n / 2) ++ [n.testBit 0] := by
  rw [numberBits, numberBits, List.range_succ, List.map_append, List.map_singleton]
  congr 1
  · refine List.map_congr_left fun i hi => ?_
    have hlt : i < width := List.mem_range.1 hi
    have hshift : width + 1 - 1 - i = (width - 1 - i).succ := by omega
    rw [hshift, Nat.testBit_succ]
  · simp

lemma bitsNat_append_one (bits : List Bool) (b : Bool) :
    bitsNat (bits ++ [b]) = 2 * bitsNat bits + b.toNat := by
  rw [bitsNat, bitsNat, List.foldl_append]
  rfl

lemma bitsNat_numberBits (width n : Nat) : bitsNat (numberBits width n) = n % 2 ^ width := by
  induction width generalizing n with
  | zero => simp [numberBits, bitsNat, Nat.mod_one]
  | succ width ih =>
    have hlast : (n.testBit 0).toNat = n % 2 := by
      obtain hzero | hone := Nat.mod_two_eq_zero_or_one n
      · simp [hzero]
      · simp [hone]
    rw [numberBits_succ, bitsNat_append_one, ih, hlast, pow_succ', Nat.mod_mul, add_comm]

lemma numberBits_bitsNat (bits : List Bool) : numberBits bits.length (bitsNat bits) = bits := by
  induction bits using List.reverseRecOn with
  | nil => rfl
  | append_singleton bits b ih =>
    have hhigh : (2 * bitsNat bits + b.toNat) / 2 = bitsNat bits := by
      cases b with
      | false => simp
      | true => rw [Bool.toNat_true]; omega
    have hlow : (2 * bitsNat bits + b.toNat).testBit 0 = b := by
      cases b <;> simp
    rw [List.length_append, List.length_singleton, bitsNat_append_one, numberBits_succ, hhigh, hlow,
      ih]

/-- **The groups have the bits that were cut**, but for less than five zeros at the end. -/
lemma exists_flatMap_groups {fuel : Nat} {bits : List Bool} (h : bits.length < fuel) :
    ∃ k < 5, (groups fuel bits).flatMap (numberBits 5) = bits ++ List.replicate k false := by
  induction fuel generalizing bits with
  | zero => exact absurd h (Nat.not_lt_zero _)
  | succ fuel ih =>
    by_cases hnil : bits = []
    · subst hnil
      exact ⟨0, by decide, rfl⟩
    · have hpos : 0 < bits.length := List.length_pos_iff.2 hnil
      have hfirst : ∀ g : List Bool, g.length = 5 → numberBits 5 (bitsNat g) = g :=
        fun g hg => hg ▸ numberBits_bitsNat g
      by_cases hfull : 5 ≤ bits.length
      · have hlength : (bits.take 5).length = 5 := List.length_take_of_le hfull
        have hshort : (bits.drop 5).length < fuel := by
          rw [List.length_drop]
          omega
        obtain ⟨k, hk, hrest⟩ := ih hshort
        refine ⟨k, hk, ?_⟩
        simp only [groups, if_neg hnil, List.flatMap_cons, hlength, hrest, Nat.sub_self,
          List.replicate_zero, List.append_nil, hfirst _ hlength]
        rw [← List.append_assoc, List.take_append_drop]
      · have htake : bits.take 5 = bits := List.take_of_length_le (by omega)
        have hdrop : bits.drop 5 = [] := List.drop_of_length_le (by omega)
        have hend : groups fuel [] = [] := by cases fuel <;> simp [groups]
        refine ⟨5 - bits.length, by omega, ?_⟩
        simp only [groups, if_neg hnil, List.flatMap_cons, htake, hdrop, hend, List.flatMap_nil,
          List.append_nil]
        exact hfirst _ (by rw [List.length_append, List.length_replicate]; omega)

lemma bytes?_byteBits (b : UInt8) (rest : List Bool) :
    bytes? (byteBits b ++ rest) = (bytes? rest).map (b :: ·) := by
  have hbits : bitsNat (byteBits b) = b.toNat :=
    (bitsNat_numberBits 8 b.toNat).trans (Nat.mod_eq_of_lt b.toNat_lt)
  change (bytes? rest).map (UInt8.ofNat (bitsNat (byteBits b)) :: ·) = _
  rw [hbits, UInt8.ofNat_toNat]

/-- **Bytes come back from their groups.** -/
theorem bytes?_symbols (bs : Bytes) : bytes? ((symbols bs).flatMap (numberBits 5)) = some bs := by
  obtain ⟨k, hk, hbits⟩ := exists_flatMap_groups (Nat.lt_succ_self (bs.flatMap byteBits).length)
  have hzeros : bytes? (List.replicate k false) = some [] := by
    have hall : ∀ k < 5, bytes? (List.replicate k false) = some [] := by decide
    exact hall k hk
  have hbytes : ∀ bs : Bytes, bytes? (bs.flatMap byteBits ++ List.replicate k false) = some bs := by
    intro bs
    induction bs with
    | nil => exact hzeros
    | cons b bs ih =>
      rw [List.flatMap_cons, List.append_assoc, bytes?_byteBits, ih]
      rfl
  rw [symbols, hbits, hbytes]

lemma bitsNat_lt (bits : List Bool) : bitsNat bits < 2 ^ bits.length := by
  have hmod := bitsNat_numberBits bits.length (bitsNat bits)
  rw [numberBits_bitsNat] at hmod
  exact hmod.trans_lt (Nat.mod_lt _ (Nat.pow_pos Nat.two_pos))

/-- Groups are symbols. -/
lemma lt_of_mem_groups {fuel : Nat} {bits : List Bool} {s : Nat} (h : s ∈ groups fuel bits) :
    s < 32 := by
  induction fuel generalizing bits with
  | zero => simp [groups] at h
  | succ fuel ih =>
    rw [groups] at h
    split at h
    · simp at h
    · rcases List.mem_cons.1 h with rfl | h
      · have hlength :
            (bits.take 5 ++ List.replicate (5 - (bits.take 5).length) false).length = 5 := by
          have hle := List.length_take_le 5 bits
          rw [List.length_append, List.length_replicate]
          omega
        exact (bitsNat_lt _).trans_eq (by rw [hlength]; norm_num)
      · exact ih h

/-- What stands behind the separator are symbols. -/
lemma lt_of_mem_data {hrp : String} {version : Nat} {payload : Bytes} (hversion : version < 32)
    {v : Nat} (hv : v ∈ version :: symbols payload ++ checksum hrp (version :: symbols payload)) :
    v < 32 := by
  simp only [checksum, List.mem_append, List.mem_cons, List.mem_map] at hv
  rcases hv with (rfl | hv) | ⟨i, -, rfl⟩
  · exact hversion
  · exact lt_of_mem_groups hv
  · exact Nat.mod_lt _ (by decide)

/-! ### The text -/

/-- The character of a symbol stands for it, is no separator and no capital. -/
lemma charSymbol?_symbolChar {s : Nat} (h : s < 32) :
    charSymbol? (symbolChar s) = some s ∧ symbolChar s ≠ '1' ∧ (symbolChar s).isUpper = false := by
  have hall : ∀ s < 32, charSymbol? (symbolChar s) = some s ∧ symbolChar s ≠ '1'
      ∧ (symbolChar s).isUpper = false := by decide +kernel
  exact hall s h

lemma mapM_charSymbol? {vs : List Nat} (h : ∀ v ∈ vs, v < 32) :
    (vs.map symbolChar).mapM charSymbol? = some vs :=
  mapM_map_eq_self fun v hv => (charSymbol?_symbolChar (h v hv)).1

/-- The character of the version symbol stands behind the separator. -/
lemma exists_encode_eq (hrp : String) (version : Nat) (payload : Bytes) :
    ∃ rest, encode hrp version payload
      = hrp ++ "1" ++ String.singleton (symbolChar version) ++ rest := by
  refine ⟨String.ofList ((symbols payload ++ checksum hrp (version :: symbols payload)).map
    symbolChar), ?_⟩
  rw [encode, ← String.toList_inj]
  simp

/-- A payload is read from its symbols and the checksum behind them. -/
lemma payload?_checksum (hrp : String) (version : Nat) (payload : Bytes) :
    payload? hrp (version :: symbols payload ++ checksum hrp (version :: symbols payload))
      = some (version, payload) := by
  have htake : ∀ data : List Nat, (data ++ checksum hrp (version :: symbols payload)).take
      ((data ++ checksum hrp (version :: symbols payload)).length - 6) = data := by
    intro data
    rw [List.length_append, length_checksum, Nat.add_sub_cancel, List.take_left]
  rw [payload?, if_pos (verifies_checksum hrp _), htake]
  simp only [bytes?_symbols, Option.map_some]

/-- The characters of a text are read back. -/
lemma decodeChars?_append {part : List Char} (hpart : isPart part = true) {vs : List Nat}
    (hvs : ∀ v ∈ vs, v < 32) :
    decodeChars? (part ++ '1' :: vs.map symbolChar)
      = (payload? (String.ofList part) vs).map fun found => (String.ofList part, found) := by
  have hreverse : (part ++ '1' :: vs.map symbolChar).reverse
      = (vs.map symbolChar).reverse ++ '1' :: part.reverse := by simp
  have hplain : ∀ c ∈ (vs.map symbolChar).reverse, decide (c ≠ '1') = true := by
    intro c hc
    obtain ⟨v, hv, rfl⟩ := List.mem_map.1 (List.mem_reverse.1 hc)
    exact decide_eq_true (charSymbol?_symbolChar (hvs v hv)).2.1
  rw [decodeChars?, hreverse, List.takeWhile_append_of_pos hplain,
    List.dropWhile_append_of_pos hplain]
  simp [mapM_charSymbol? hvs, hpart, Option.map_eq_bind]

/-- **A text is read back**: the human-readable part, the version symbol and the payload of which it
was made. -/
theorem decode?_encode {hrp : String} {version : Nat} (hpart : isPart hrp.toList = true)
    (hcase : ∀ c ∈ hrp.toList, c.isUpper = false) (hversion : version < 32) (payload : Bytes) :
    decode? (encode hrp version payload) = some (hrp, version, payload) := by
  set data := version :: symbols payload with hdata
  have hsymbols : ∀ v ∈ data ++ checksum hrp data, v < 32 := fun v hv => lt_of_mem_data hversion hv
  have hchars : (encode hrp version payload).toList
      = hrp.toList ++ '1' :: (data ++ checksum hrp data).map symbolChar := by
    simp [encode, hdata]
  have hlower : ∀ c ∈ (encode hrp version payload).toList, c.isUpper = false := by
    intro c hc
    rw [hchars, List.mem_append, List.mem_cons] at hc
    rcases hc with hc | rfl | hc
    · exact hcase c hc
    · rfl
    · obtain ⟨v, hv, rfl⟩ := List.mem_map.1 hc
      exact (charSymbol?_symbolChar (hsymbols v hv)).2.2
  have hnone : (encode hrp version payload).toList.any Char.isUpper = false :=
    List.any_eq_false.2 fun c hc => by simp [hlower c hc]
  have hsame : (encode hrp version payload).toList.map Char.toLower
      = (encode hrp version payload).toList :=
    (List.map_congr_left fun c hc =>
      dif_neg (of_decide_eq_false (hlower c hc))).trans (List.map_id _)
  simp only [decode?, hnone, Bool.false_and, Bool.false_eq_true, if_false, hsame]
  rw [hchars, decodeChars?_append hpart hsymbols, String.ofList_toList, payload?_checksum]
  rfl

/-- A text in which the symbols descend from the last to the first, and the same with its letters
changed in one place. -/
example : (decode? "abcdef1l7aum6echk45nj3s0wdvt2fg8x9yrzpqzd3ryx").map Prod.fst = some "abcdef"
    ∧ decode? "abcdef1l7aum6echk45nj3s0wdvt2fg8x9yrzpqzd3ryq" = none := by
  decide +kernel

end SilentScan.Bech32
