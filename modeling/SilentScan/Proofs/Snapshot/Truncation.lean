/-
Snapshots that are cut off.

A reader works from the front of its input and does not look ahead: unless it runs out of bytes, it
gives the same value whatever stands behind what it has taken in. This goes from the numbers to the
coins and on to the whole file, where every round takes in a byte at least, so that the rounds never
run out before the bytes do. So a file that is cut off gives the coins that it has in full, and then
the fault that it has ended too early.

* `Continues`, `SnapshotReader.Streams`: that a reader does not look ahead, with `Continues.bind`;
* `streams_header`, `streams_groupHead`, `streams_coin`: the readers that a file is read with;
* `readCoins_rounds`: more rounds than bytes make no difference;
* `readCoins_append`: the coins of an input that goes on;
* `truncation_detected`: the whole.
-/
import SilentScan.Proofs.Snapshot.Recovery

namespace SilentScan

/-! ### Readers that do not look ahead -/

/-- What a reader gives for `bs`, compared with what it gives when `rest` stands behind: the same,
unless the bytes have run out. What is left is left of `bs`, and at least so many bytes are taken
in. -/
structure Continues {α : Type} (least : Nat) (bs rest : Bytes)
    (x y : Except SnapshotError (α × Bytes)) : Prop where
  same : x ≠ .error (.input .truncated) → y = x.map fun (a, left) => (a, left ++ rest)
  takes : ∀ {a left}, x = .ok (a, left) → ∃ used, bs = used ++ left ∧ least ≤ used.length

/-- That a reader takes in at least so many bytes and does not look ahead. -/
def SnapshotReader.Streams {α : Type} (least : Nat) (read : SnapshotReader α) : Prop :=
  ∀ bs rest, Continues least bs rest (read bs) (read (bs ++ rest))

namespace Continues

variable {α β : Type} {m n : Nat} {bs rest : Bytes} {x y : Except SnapshotError (α × Bytes)}

lemma pure (a : α) : Continues 0 bs rest (.ok (a, bs)) (.ok (a, bs ++ rest)) :=
  ⟨fun _ => rfl, fun h => ⟨[], by cases h; rfl, Nat.zero_le _⟩⟩

lemma fail (e : SnapshotError) :
    Continues n bs rest (.error e : Except SnapshotError (α × Bytes)) (.error e) :=
  ⟨fun _ => rfl, fun h => by cases h⟩

/-- Running out of bytes leaves open what comes when there are more. -/
lemma out : Continues n bs rest (.error (.input .truncated)) y :=
  ⟨fun hmore => absurd rfl hmore, fun h => by cases h⟩

/-- **Reading one thing after another** does not look ahead if neither does. -/
lemma bind {next next' : α × Bytes → Except SnapshotError (β × Bytes)}
    (h : Continues n bs rest x y)
    (hnext : ∀ a left, Continues m left rest (next (a, left)) (next' (a, left ++ rest))) :
    Continues n bs rest (x >>= next) (y >>= next') := by
  cases x with
  | error e =>
    refine ⟨fun hmore => ?_, fun hread => by cases hread⟩
    have hy : y = .error e := h.same fun heq => hmore (by rw [heq]; rfl)
    rw [hy]
    rfl
  | ok r =>
    obtain ⟨a, left⟩ := r
    have hy : y = .ok (a, left ++ rest) := h.same fun heq => by cases heq
    obtain ⟨used, hbs, hused⟩ := h.takes rfl
    rw [hy]
    refine ⟨(hnext a left).same, fun hread => ?_⟩
    obtain ⟨used', rfl, _⟩ := (hnext a left).takes hread
    refine ⟨used ++ used', by rw [hbs, List.append_assoc], ?_⟩
    rw [List.length_append]
    omega

lemma error_append (h : Continues n bs rest x y) {e : SnapshotError} (hx : x = .error e)
    (hmore : e ≠ .input .truncated) : y = .error e := by
  subst hx
  exact h.same fun heq => hmore (Except.error.inj heq)

lemma exists_used (h : Continues n bs rest x y) {a : α} {left : Bytes} (hx : x = .ok (a, left)) :
    ∃ used, bs = used ++ left :=
  (h.takes hx).imp fun _ hused => hused.1

lemma ok_append (h : Continues n bs rest x y) {a : α} {left : Bytes} (hx : x = .ok (a, left)) :
    y = .ok (a, left ++ rest) := by
  subst hx
  exact h.same fun heq => by cases heq

/-- A reader that takes in a byte at least leaves fewer. -/
lemma length_lt (h : Continues (n + 1) bs rest x y) {a : α} {left : Bytes}
    (hx : x = .ok (a, left)) : left.length < bs.length := by
  obtain ⟨used, rfl, hused⟩ := h.takes hx
  rw [List.length_append]
  omega

end Continues

/-- How much is taken in may be left open. -/
lemma SnapshotReader.Streams.any {α : Type} {n : Nat} {read : SnapshotReader α}
    (h : read.Streams n) (bs rest : Bytes) : Continues 0 bs rest (read bs) (read (bs ++ rest)) :=
  ⟨(h bs rest).same, fun hread => ((h bs rest).takes hread).imp fun _ hused =>
    ⟨hused.1, Nat.zero_le _⟩⟩

/-! ### The readers of a file -/

lemma splitBytes_eq_some {n : Nat} {bs front left : Bytes}
    (h : splitBytes n bs = some (front, left)) : bs = front ++ left ∧ front.length = n := by
  induction n generalizing bs front with
  | zero =>
    obtain ⟨rfl, rfl⟩ := Prod.mk.inj (Option.some.inj h)
    exact ⟨rfl, rfl⟩
  | succ n ih =>
    cases bs with
    | nil => cases h
    | cons b bs =>
      rw [splitBytes] at h
      split at h
      · rename_i front' left' hsplit
        obtain ⟨rfl, rfl⟩ := Prod.mk.inj (Option.some.inj h)
        obtain ⟨rfl, hlength⟩ := ih hsplit
        exact ⟨rfl, congrArg (· + 1) hlength⟩
      · cases h

lemma streams_bytes (n : Nat) : (readBytes n).Streams n := by
  intro bs rest
  cases hsplit : splitBytes n bs with
  | none =>
    rw [readBytes, hsplit]
    exact .out
  | some r =>
    obtain ⟨front, left⟩ := r
    obtain ⟨rfl, rfl⟩ := splitBytes_eq_some hsplit
    rw [recovers_readBytes rfl, List.append_assoc, recovers_readBytes rfl]
    refine ⟨fun _ => rfl, fun hread => ⟨front, ?_, le_refl _⟩⟩
    cases hread
    rfl

lemma streams_readLE (width : Nat) : (readLE width).Streams width := by
  intro bs rest
  exact .bind (streams_bytes width bs rest) fun front left => .pure _

/-- A byte that is taken in before another reader goes on. -/
lemma Continues.cons {α : Type} {n : Nat} {b : UInt8} {bs rest : Bytes}
    {x y : Except SnapshotError (α × Bytes)} (h : Continues n bs rest x y) :
    Continues 1 (b :: bs) rest x y := by
  refine ⟨h.same, fun hx => ?_⟩
  obtain ⟨used, rfl, _⟩ := h.takes hx
  exact ⟨b :: used, rfl, Nat.succ_le_succ (Nat.zero_le _)⟩

lemma streams_compactSize : readCompactSize.Streams 1 := by
  intro bs rest
  cases bs with
  | nil => exact .out
  | cons marker bs =>
    rw [List.cons_append, readCompactSize, readCompactSize]
    split
    · exact (streams_readLE 2 bs rest).cons
    · split
      · exact (streams_readLE 4 bs rest).cons
      · split
        · exact (streams_readLE 8 bs rest).cons
        · exact (Continues.pure _).cons

lemma streams_groups (n : Nat) : (readGroups n).Streams 1 := by
  intro bs rest
  induction bs generalizing n with
  | nil => exact .out
  | cons b bs ih =>
    rw [List.cons_append, readGroups_cons, readGroups_cons]
    split
    · exact .fail _
    · split
      · exact (Continues.pure _).cons
      · split
        · exact (ih _).cons
        · exact .fail _

lemma streams_varint : readVarint.Streams 1 :=
  streams_groups 0

lemma streams_script (number : Nat) : (CoinScript.read number).Streams 1 := by
  intro bs rest
  refine .bind (streams_varint bs rest) fun selector bs => (?_ : Continues 0 bs rest _ _)
  have hcontent : ∀ (k : Nat) (script : Bytes → CoinScript),
      Continues 0 bs rest (readBytes k bs >>= fun r => .ok (script r.1, r.2))
        (readBytes k (bs ++ rest) >>= fun r => .ok (script r.1, r.2)) :=
    fun k script => .bind ((streams_bytes k).any bs rest) fun content left => .pure _
  rcases selector with _ | _ | selector
  · exact hcontent 20 .pubkeyHash
  · exact hcontent 20 .scriptHash
  · by_cases hkey : selector + 2 < 6
    · simp only [if_pos hkey]
      exact hcontent 32 (.pubkey (selector + 2))
    · by_cases hlong : maxScriptLength < selector + 2 - 6
      · simp only [if_neg hkey, if_pos hlong]
        exact .fail _
      · simp only [if_neg hkey, if_neg hlong]
        exact hcontent (selector + 2 - 6) CoinScript.ofStored

/-- **A coin** is read without looking ahead. -/
lemma streams_coin (txid : Txid) (number : Nat) : (Coin.read txid number).Streams 1 := by
  intro bs rest
  refine .bind (streams_compactSize bs rest) fun vout bs => (?_ : Continues 0 bs rest _ _)
  by_cases hvout : 0x1_0000_0000 ≤ vout
  · simp only [if_pos hvout]
    exact .fail _
  · simp only [if_neg hvout]
    refine .bind (streams_varint.any bs rest) fun code bs => (?_ : Continues 0 bs rest _ _)
    by_cases hheight : 0x8000_0000 ≤ code / 2
    · simp only [if_pos hheight]
      exact .fail _
    · simp only [if_neg hheight]
      refine .bind (streams_varint.any bs rest) fun stored bs => (?_ : Continues 0 bs rest _ _)
      dsimp only
      cases decompressAmount stored with
      | error e => exact .fail e
      | ok amount => exact .bind ((streams_script number).any bs rest) fun script bs => .pure _

lemma streams_groupHead : readGroupHead.Streams 32 := by
  intro bs rest
  refine .bind (streams_bytes 32 bs rest) fun id bs => (?_ : Continues 0 bs rest _ _)
  exact .bind (streams_compactSize.any bs rest) fun count bs => .pure _

lemma streams_header : SnapshotHeader.read.Streams 5 := by
  intro bs rest
  refine .bind (streams_bytes 5 bs rest) fun magic bs => (?_ : Continues 0 bs rest _ _)
  by_cases hmagic : magic = snapshotMagic
  · simp only [hmagic, ne_eq, not_true_eq_false, if_false]
    refine .bind ((streams_readLE 2).any bs rest) fun version bs => (?_ : Continues 0 bs rest _ _)
    by_cases hversion : version = snapshotVersion
    · simp only [hversion, not_true_eq_false, if_false]
      refine .bind ((streams_bytes 4).any bs rest) fun magic bs => (?_ : Continues 0 bs rest _ _)
      refine .bind ((streams_bytes 32).any bs rest) fun hash bs => (?_ : Continues 0 bs rest _ _)
      exact .bind ((streams_readLE 8).any bs rest) fun count bs => .pure _
    · simp only [hversion, not_false_eq_true, if_true]
      exact .fail _
  · simp only [ne_eq, hmagic, not_false_eq_true, if_true]
    exact .fail _

/-! ### The coins -/

variable {total : Nat}

/-- A round in which the head of a group is due. -/
lemma readCoins_zero_left {done : Nat} (h : done < total) (rounds : Nat) (txid : Txid)
    (bs : Bytes) :
    readCoins total (rounds + 1) done txid 0 bs
      = match readGroupHead bs with
        | .error e => ([], .error e)
        | .ok ((txid, left), bs) => readCoins total rounds done txid left bs := by
  rw [readCoins.eq_def]
  exact if_neg (Nat.not_le.2 h)

/-- A round in which a coin is due. -/
lemma readCoins_succ_left {done : Nat} (h : done < total) (rounds : Nat) (txid : Txid) (left : Nat)
    (bs : Bytes) :
    readCoins total (rounds + 1) done txid (left + 1) bs
      = match Coin.read txid done bs with
        | .error e => ([], .error e)
        | .ok (coin, bs) =>
          (coin :: (readCoins total rounds (done + 1) txid left bs).1,
            (readCoins total rounds (done + 1) txid left bs).2) := by
  rw [readCoins.eq_def]
  exact if_neg (Nat.not_le.2 h)

/-- **More rounds than bytes make no difference**: the rounds are never used up. -/
lemma readCoins_rounds {rounds rounds' done left : Nat} {txid : Txid} {bs : Bytes}
    (h : bs.length < rounds) (h' : bs.length < rounds') :
    readCoins total rounds done txid left bs = readCoins total rounds' done txid left bs := by
  induction rounds generalizing rounds' done left txid bs with
  | zero => exact absurd h (Nat.not_lt_zero _)
  | succ rounds ih =>
    obtain ⟨rounds', rfl⟩ : ∃ k, rounds' = k + 1 := ⟨rounds' - 1, by omega⟩
    by_cases hend : total ≤ done
    · rw [readCoins_of_le hend, readCoins_of_le hend]
    · have hdone : done < total := Nat.not_le.1 hend
      cases left with
      | zero =>
        rw [readCoins_zero_left hdone, readCoins_zero_left hdone]
        cases hread : readGroupHead bs with
        | error e => rfl
        | ok r =>
          obtain ⟨⟨id, count⟩, bs'⟩ := r
          have hlt := (streams_groupHead bs []).length_lt hread
          exact ih (by omega) (by omega)
      | succ left =>
        rw [readCoins_succ_left hdone, readCoins_succ_left hdone]
        cases hread : Coin.read txid done bs with
        | error e => rfl
        | ok r =>
          obtain ⟨coin, bs'⟩ := r
          have hlt := (streams_coin txid done bs []).length_lt hread
          dsimp only
          rw [ih (show bs'.length < rounds by omega) (show bs'.length < rounds' by omega)]

/-- What is read of coins, compared with what is read when more stands behind: the same, unless the
bytes have run out, and then the coins read so far are the first of those that there are. What is
left is left of the input. -/
structure CoinsContinue (bs rest : Bytes) (x y : List Coin × Except SnapshotError Bytes) :
    Prop where
  coins : x.1 <+: y.1
  same : x.2 ≠ .error (.input .truncated) → y = (x.1, x.2.map (· ++ rest))
  takes : ∀ {left}, x.2 = .ok left → ∃ used, bs = used ++ left

namespace CoinsContinue

variable {bs bs' rest : Bytes} {x y : List Coin × Except SnapshotError Bytes}

/-- A fault ends the reading, and is the same when more stands behind, unless it is the end of the
input. -/
lemma fault {e : SnapshotError} (h : e ≠ .input .truncated → y = ([], .error e)) :
    CoinsContinue bs rest ([], .error e) y :=
  ⟨List.nil_prefix, fun hmore => h fun heq => hmore (congrArg Except.error heq),
    fun hread => by cases hread⟩

/-- What is read behind bytes that have been taken in. -/
lemma behind (h : CoinsContinue bs' rest x y) (hbs : ∃ used, bs = used ++ bs') :
    CoinsContinue bs rest x y := by
  refine ⟨h.coins, h.same, fun hread => ?_⟩
  obtain ⟨used, rfl⟩ := hbs
  obtain ⟨used', rfl⟩ := h.takes hread
  exact ⟨used ++ used', (List.append_assoc _ _ _).symm⟩

lemma cons (h : CoinsContinue bs rest x y) (coin : Coin) :
    CoinsContinue bs rest (coin :: x.1, x.2) (coin :: y.1, y.2) := by
  refine ⟨List.cons_prefix_cons.2 ⟨rfl, h.coins⟩, fun hmore => ?_, h.takes⟩
  rw [h.same hmore]

end CoinsContinue

/-- **The coins of an input that goes on** begin with those of its front, and if the front does not
run out of bytes, nothing that stands behind it makes a difference. -/
lemma readCoins_append {rounds done left : Nat} {txid : Txid} {bs rest : Bytes}
    (h : (bs ++ rest).length < rounds) :
    CoinsContinue bs rest (readCoins total rounds done txid left bs)
      (readCoins total rounds done txid left (bs ++ rest)) := by
  -- Both readings have the same rounds, which are enough for the longer one.
  induction rounds generalizing done left txid bs with
  | zero => exact absurd h (Nat.not_lt_zero _)
  | succ rounds ih =>
    rw [List.length_append] at h
    by_cases hend : total ≤ done
    · rw [readCoins_of_le hend, readCoins_of_le hend]
      exact ⟨List.nil_prefix, fun _ => rfl, fun hread => ⟨[], by cases hread; rfl⟩⟩
    · have hdone : done < total := Nat.not_le.1 hend
      cases left with
      | zero =>
        have hhead := streams_groupHead bs rest
        rw [readCoins_zero_left hdone, readCoins_zero_left hdone]
        cases hread : readGroupHead bs with
        | error e => exact .fault fun hmore => by rw [hhead.error_append hread hmore]
        | ok r =>
          obtain ⟨⟨id, count⟩, bs'⟩ := r
          have hlt := hhead.length_lt hread
          rw [hhead.ok_append hread]
          have hfits : (bs' ++ rest).length < rounds := by
            rw [List.length_append]
            omega
          exact (ih hfits).behind (hhead.exists_used hread)
      | succ left =>
        have hcoin := streams_coin txid done bs rest
        rw [readCoins_succ_left hdone, readCoins_succ_left hdone]
        cases hread : Coin.read txid done bs with
        | error e => exact .fault fun hmore => by rw [hcoin.error_append hread hmore]
        | ok r =>
          obtain ⟨coin, bs'⟩ := r
          have hlt := hcoin.length_lt hread
          rw [hcoin.ok_append hread]
          have hfits : (bs' ++ rest).length < rounds := by
            rw [List.length_append]
            omega
          exact ((ih hfits).behind (hcoin.exists_used hread)).cons coin

/-! ### Whole files -/

/-- The coins that are read of a file, up to the last one or the first fault. -/
def coinsOfFile (file : Bytes) : List Coin :=
  match readSnapshot file with
  | .error _ => []
  | .ok r => r.coins

/-- What the reading of a file comes to: the totals of a snapshot with a sound header that could be
read to its last coin, or the first fault. -/
def totalsOfFile (file : Bytes) : Except SnapshotError (Nat × Nat) := do
  let r ← readSnapshot file
  r.totals

lemma readSnapshot_of_error {file : Bytes} {e : SnapshotError}
    (h : SnapshotHeader.read file = .error e) : readSnapshot file = .error e := by
  rw [readSnapshot, h]
  rfl

/-- Behind a sound header the coins are read, in any number of rounds above that of the bytes. -/
lemma readSnapshot_of_ok {file bs : Bytes} {header : SnapshotHeader}
    (h : SnapshotHeader.read file = .ok (header, bs)) {rounds : Nat}
    (hrounds : bs.length < rounds) :
    readSnapshot file
      = .ok { header, coins := (readCoins header.coinCount rounds 0 [] 0 bs).1,
              rest := (readCoins header.coinCount rounds 0 [] 0 bs).2 } := by
  rw [readSnapshot, h, readCoins_rounds hrounds (Nat.lt_succ_self bs.length)]
  rfl

lemma totalsOfFile_of_rest {file : Bytes} {r : SnapshotReading} {e : SnapshotError}
    (h : readSnapshot file = .ok r) (hrest : r.rest = .error e) : totalsOfFile file = .error e := by
  rw [totalsOfFile, h]
  simp only [bind, Except.bind, SnapshotReading.totals, hrest]

/-- What is read when more stands behind what is left. -/
def SnapshotReading.extend (more : Bytes) (r : SnapshotReading) : SnapshotReading :=
  { r with rest := r.rest.map (· ++ more) }

lemma exists_rest_of_extend {more left : Bytes} {r : SnapshotReading}
    (h : (r.extend more).rest = .ok left) : ∃ left', left = left' ++ more := by
  cases hrest : r.rest with
  | error e =>
    simp only [SnapshotReading.extend, hrest] at h
    cases h
  | ok left' =>
    simp only [SnapshotReading.extend, hrest] at h
    exact ⟨left', (Except.ok.inj h).symm⟩

/-- What is read of a file, compared with what is read when more stands behind. -/
structure FileContinues (file rest : Bytes) : Prop where
  coins : coinsOfFile file <+: coinsOfFile (file ++ rest)
  same : totalsOfFile file ≠ .error (.input .truncated) →
    readSnapshot (file ++ rest) = (readSnapshot file).map (·.extend rest)
  takes : ∀ {r left}, readSnapshot file = .ok r → r.rest = .ok left → ∃ used, file = used ++ left

/-- **Reading a file** does not look ahead. -/
lemma fileContinues (file rest : Bytes) : FileContinues file rest := by
  have hheader := streams_header file rest
  cases hread : SnapshotHeader.read file with
  | error e =>
    have hfile := readSnapshot_of_error hread
    refine ⟨?_, fun hmore => ?_, fun hok => ?_⟩
    · rw [coinsOfFile, hfile]
      exact List.nil_prefix
    · have hne : e ≠ .input .truncated := by
        rintro rfl
        rw [totalsOfFile, hfile] at hmore
        exact hmore rfl
      rw [hfile, readSnapshot_of_error (hheader.error_append hread hne)]
      rfl
    · rw [hfile] at hok
      cases hok
  | ok parts =>
    obtain ⟨header, bs⟩ := parts
    have hlength : bs.length < (bs ++ rest).length + 1 := by
      rw [List.length_append]
      omega
    have hfile := readSnapshot_of_ok hread hlength
    have hwhole := readSnapshot_of_ok (hheader.ok_append hread) (Nat.lt_succ_self _)
    have hcoins : CoinsContinue bs rest
        (readCoins header.coinCount ((bs ++ rest).length + 1) 0 [] 0 bs)
        (readCoins header.coinCount ((bs ++ rest).length + 1) 0 [] 0 (bs ++ rest)) :=
      readCoins_append (Nat.lt_succ_self (bs ++ rest).length)
    refine ⟨?_, fun hmore => ?_, fun hok hrest => ?_⟩
    · rw [coinsOfFile, coinsOfFile, hfile, hwhole]
      exact hcoins.coins
    · have hne : (readCoins header.coinCount ((bs ++ rest).length + 1) 0 [] 0 bs).2
          ≠ .error (.input .truncated) := fun heq => hmore (totalsOfFile_of_rest hfile heq)
      rw [hfile, hwhole, hcoins.same hne]
      rfl
    · rw [hfile] at hok
      cases hok
      obtain ⟨used, rfl⟩ := hcoins.takes hrest
      obtain ⟨used', rfl⟩ := hheader.exists_used hread
      exact ⟨used' ++ used, (List.append_assoc _ _ _).symm⟩

/-- **A file that is cut off is found out.** The coins that are read of a front of a file are the
first of those that are read of the file, whatever may be wrong with it. And if the file can be read
to its last coin, then a front that is shorter than the bytes taken in until then ends with the
fault that the input ends too early, whether within the header or behind it. -/
theorem truncation_detected {front file : Bytes} (h : front <+: file) :
    coinsOfFile front <+: coinsOfFile file
      ∧ ∀ r rest, readSnapshot file = .ok r → r.rest = .ok rest →
        ∃ used, file = used ++ rest
          ∧ (front.length < used.length →
            totalsOfFile front = .error (.input .truncated)) := by
  obtain ⟨behind, rfl⟩ := h
  have hfront := fileContinues front behind
  refine ⟨hfront.coins, fun r rest hread hrest => ?_⟩
  obtain ⟨used, hused⟩ := (fileContinues (front ++ behind) []).takes hread hrest
  refine ⟨used, hused, fun hshort => ?_⟩
  -- If the front does not run out of bytes, all that stands behind it is left over.
  by_contra hmore
  rw [hfront.same hmore] at hread
  cases hfirst : readSnapshot front with
  | error e =>
    rw [hfirst] at hread
    cases hread
  | ok r' =>
    rw [hfirst] at hread
    obtain rfl : r'.extend behind = r := Except.ok.inj hread
    obtain ⟨left, hleft⟩ := exists_rest_of_extend hrest
    have hlength := congrArg List.length hused
    simp only [List.length_append, hleft] at hlength
    omega

/-- A file with two coins of one transaction and a byte behind them, cut off within the second coin:
one coin is read, and then the input ends. -/
theorem second_coin_cut_off :
    let header := snapshotMagic ++ [2, 0] ++ [0xFA, 0xBF, 0xB5, 0xDA] ++ List.replicate 32 0x11
      ++ [2, 0, 0, 0, 0, 0, 0, 0]
    let coin (vout : UInt8) : Bytes := [vout, 0x40, 9, 0] ++ List.replicate 20 0x22
    let file := header ++ List.replicate 32 1 ++ [2] ++ coin 0 ++ coin 1 ++ [0xAA]
    file.take 120 <+: file
      ∧ (coinsOfFile (file.take 120)).map (·.vout) = [0]
      ∧ coinsOfFile (file.take 120) <+: coinsOfFile file
      ∧ totalsOfFile (file.take 120) = .error (.input .truncated) := by
  intro header coin file
  have hfront : file.take 120 <+: file := List.take_prefix _ _
  obtain ⟨hcoins, hend⟩ := truncation_detected hfront
  obtain ⟨used, hused, hshort⟩ := hend _ [0xAA] rfl rfl
  have hlength : used.length = 132 := by
    have := congrArg List.length hused
    simp only [List.length_append] at this
    change _ = used.length + 1 at this
    exact Nat.succ.inj this.symm
  refine ⟨hfront, rfl, hcoins, hshort ?_⟩
  rw [hlength]
  decide

end SilentScan
