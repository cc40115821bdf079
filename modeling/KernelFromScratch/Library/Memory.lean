import Mathlib.Data.BitVec
import Mathlib.Data.List.GetD

/-!
# Words in memory

A 32-bit byte-addressed memory, little-endian words in it, and stacks of words that grow down. An
address wraps around at `2 ^ 32`.
-/

namespace KernelFromScratch

abbrev Memory := UInt32 → UInt8

def byteOf (word : UInt32) (k : Nat) : UInt8 := .ofNat (word.toNat / 2 ^ (8 * k))

def wordOf (byte0 byte1 byte2 byte3 : UInt8) : UInt32 :=
  .ofNat (byte0.toNat + 2 ^ 8 * byte1.toNat + 2 ^ 16 * byte2.toNat + 2 ^ 24 * byte3.toNat)

def read32 (memory : Memory) (address : UInt32) : UInt32 :=
  wordOf (memory address) (memory (address + 1)) (memory (address + 2)) (memory (address + 3))

def write32 (memory : Memory) (address word : UInt32) : Memory := fun x =>
  if (x - address).toNat < 4 then byteOf word (x - address).toNat else memory x

/-- The words lie one after the other from `address` on. -/
def HoldsWords (memory : Memory) : UInt32 → List UInt32 → Prop
  | _, [] => True
  | address, word :: words => read32 memory address = word ∧ HoldsWords memory (address + 4) words

variable {memory memory' : Memory} {address word : UInt32} {words : List UInt32}

theorem wordOf_byteOf (word : UInt32) :
    wordOf (byteOf word 0) (byteOf word 1) (byteOf word 2) (byteOf word 3) = word := by
  apply UInt32.toNat_inj.mp
  have hlt := word.toNat_lt
  have hbyte : ∀ k, (byteOf word k).toNat = word.toNat / 2 ^ (8 * k) % 2 ^ 8 := fun k => rfl
  have hsum : (byteOf word 0).toNat + 2 ^ 8 * (byteOf word 1).toNat
      + 2 ^ 16 * (byteOf word 2).toNat + 2 ^ 24 * (byteOf word 3).toNat = word.toNat := by
    rw [hbyte, hbyte, hbyte, hbyte]
    omega
  rw [wordOf, hsum]
  exact UInt32.toNat_ofNat_of_lt' hlt

theorem add_sub_self (address offset : UInt32) : address + offset - address = offset := by
  rw [UInt32.add_comm, UInt32.add_sub_cancel]

theorem eq_add_iff (address offset x : UInt32) : x = address + offset ↔ x - address = offset := by
  constructor
  · rintro rfl
    exact add_sub_self address offset
  · rintro rfl
    rw [UInt32.add_comm, UInt32.sub_add_cancel]

theorem sub_offset_toNat (x address : UInt32) {k : Nat} (hk : k < 2 ^ 32) :
    (x - (address + .ofNat k)).toNat = ((x - address).toNat + 2 ^ 32 - k) % 2 ^ 32 := by
  have haddress := address.toNat_lt
  have hx := x.toNat_lt
  rw [UInt32.toNat_sub, UInt32.toNat_sub, UInt32.toNat_add, UInt32.toNat_ofNat_of_lt' hk]
  omega

theorem sub_offset_of_le {x : UInt32} {k : Nat} (hle : k ≤ (x - address).toNat) :
    (x - (address + .ofNat k)).toNat = (x - address).toNat - k := by
  have hx := (x - address).toNat_lt
  rw [sub_offset_toNat _ _ (by omega)]
  omega

theorem offset_sub_toNat (address : UInt32) {j k : Nat} (hj : j < 2 ^ 32) (hk : k < 2 ^ 32) :
    (address + .ofNat k - (address + .ofNat j)).toNat = (2 ^ 32 + k - j) % 2 ^ 32 := by
  rw [sub_offset_toNat _ _ hj, add_sub_self, UInt32.toNat_ofNat_of_lt' hk, Nat.add_comm]

theorem address_add_toNat {i : Nat} (hfits : address.toNat + i < 2 ^ 32) :
    (address + .ofNat i).toNat = address.toNat + i := by
  rw [UInt32.toNat_add, UInt32.toNat_ofNat_of_lt' (by simp only [UInt32.size]; omega)]
  exact Nat.mod_eq_of_lt hfits

theorem write32_inside {k : Nat} (hk : k < 4) :
    write32 memory address word (address + .ofNat k) = byteOf word k := by
  have hoffset : (UInt32.ofNat k).toNat = k :=
    UInt32.toNat_ofNat_of_lt' (Nat.lt_trans hk (by decide))
  rw [write32, add_sub_self, hoffset, if_pos hk]

theorem write32_outside {k : Nat} (hk : 4 ≤ k) (hlt : k < 2 ^ 32) :
    write32 memory address word (address + .ofNat k) = memory (address + .ofNat k) := by
  have hoffset : (UInt32.ofNat k).toNat = k := UInt32.toNat_ofNat_of_lt' hlt
  rw [write32, add_sub_self, hoffset, if_neg (Nat.not_lt.mpr hk)]

theorem write32_apart {x : UInt32} (hfits : address.toNat + 4 ≤ 2 ^ 32)
    (hapart : x.toNat < address.toNat ∨ address.toNat + 4 ≤ x.toNat) :
    write32 memory address word x = memory x := by
  have haddress := address.toNat_lt
  have hx := x.toNat_lt
  rw [write32, if_neg]
  rw [UInt32.toNat_sub]
  omega

theorem read32_write32 : read32 (write32 memory address word) address = word := by
  have hfirst : write32 memory address word address = byteOf word 0 := by
    have hzero : write32 memory address word (address + 0) = byteOf word 0 :=
      write32_inside (by decide)
    rwa [UInt32.add_zero] at hzero
  have hsecond : write32 memory address word (address + 1) = byteOf word 1 :=
    write32_inside (by decide)
  have hthird : write32 memory address word (address + 2) = byteOf word 2 :=
    write32_inside (by decide)
  have hfourth : write32 memory address word (address + 3) = byteOf word 3 :=
    write32_inside (by decide)
  rw [read32, hfirst, hsecond, hthird, hfourth, wordOf_byteOf]

/-! ### Bytes in a row -/

/-- The bytes lie one after the other from `address` on. -/
def HoldsBytes (memory : Memory) (address : UInt32) (bytes : List UInt8) : Prop :=
  ∀ k < bytes.length, memory (address + .ofNat k) = bytes.getD k 0

def littleEndian32 (word : UInt32) : List UInt8 :=
  [byteOf word 0, byteOf word 1, byteOf word 2, byteOf word 3]

def littleEndian64 (number : UInt64) : List UInt8 :=
  littleEndian32 number.toUInt32 ++ littleEndian32 (number >>> 32).toUInt32

def read64 (memory : Memory) (address : UInt32) : UInt64 :=
  (read32 memory address).toUInt64 ||| (read32 memory (address + 4)).toUInt64 <<< 32

theorem toNat_halves (low high : UInt32) :
    (low.toUInt64 ||| high.toUInt64 <<< 32).toNat = 2 ^ 32 * high.toNat + low.toNat := by
  have hlow := low.toNat_lt
  have hhigh := high.toNat_lt
  have hshift : (high.toUInt64 <<< 32).toNat = 2 ^ 32 * high.toNat := by
    rw [UInt64.toNat_shiftLeft, UInt32.toNat_toUInt64, Nat.shiftLeft_eq]
    change high.toNat * 2 ^ 32 % 2 ^ 64 = _
    omega
  rw [UInt64.toNat_or, hshift, UInt32.toNat_toUInt64, Nat.or_comm, Nat.two_pow_add_eq_or_of_lt hlow]

theorem halves_toNat (number : UInt64) :
    2 ^ 32 * (number >>> 32).toUInt32.toNat + number.toUInt32.toNat = number.toNat := by
  have hlt := number.toNat_lt
  rw [UInt64.toNat_toUInt32, UInt64.toNat_toUInt32, UInt64.toNat_shiftRight,
    Nat.shiftRight_eq_div_pow]
  change 2 ^ 32 * (number.toNat / 2 ^ 32 % 2 ^ 32) + number.toNat % 2 ^ 32 = number.toNat
  omega

theorem holdsBytes_append {first second : List UInt8} :
    HoldsBytes memory address (first ++ second)
      ↔ HoldsBytes memory address first
        ∧ HoldsBytes memory (address + .ofNat first.length) second := by
  have hoffset : ∀ k, address + .ofNat first.length + .ofNat k
      = address + .ofNat (first.length + k) := by
    intro k
    rw [UInt32.ofNat_add, UInt32.add_assoc]
  constructor
  · intro hholds
    refine ⟨fun k hk => ?_, fun k hk => ?_⟩
    · rw [hholds k (by rw [List.length_append]; omega), List.getD_append _ _ _ _ hk]
    · rw [hoffset, hholds _ (by rw [List.length_append]; omega),
        List.getD_append_right _ _ _ _ (Nat.le_add_right _ _), Nat.add_sub_cancel_left]
  · rintro ⟨hfirst, hsecond⟩ k hk
    rw [List.length_append] at hk
    by_cases hlt : k < first.length
    · rw [hfirst k hlt, List.getD_append _ _ _ _ hlt]
    · have hsplit : k = first.length + (k - first.length) := by omega
      rw [List.getD_append_right _ _ _ _ (Nat.not_lt.mp hlt), hsplit, ← hoffset,
        hsecond _ (by omega), Nat.add_sub_cancel_left]

theorem read32_of_holdsBytes (hholds : HoldsBytes memory address (littleEndian32 word)) :
    read32 memory address = word := by
  have hlength : (littleEndian32 word).length = 4 := rfl
  have hfirst : memory (address + 0) = byteOf word 0 := hholds 0 (by omega)
  have hsecond : memory (address + 1) = byteOf word 1 := hholds 1 (by omega)
  have hthird : memory (address + 2) = byteOf word 2 := hholds 2 (by omega)
  have hfourth : memory (address + 3) = byteOf word 3 := hholds 3 (by omega)
  rw [UInt32.add_zero] at hfirst
  rw [read32, hfirst, hsecond, hthird, hfourth, wordOf_byteOf]

theorem read64_of_holdsBytes {number : UInt64}
    (hholds : HoldsBytes memory address (littleEndian64 number)) :
    read64 memory address = number := by
  obtain ⟨hlow, hhigh⟩ := holdsBytes_append.mp hholds
  have hread : read32 memory (address + 4) = (number >>> 32).toUInt32 := read32_of_holdsBytes hhigh
  apply UInt64.toNat_inj.mp
  rw [read64, read32_of_holdsBytes hlow, hread, toNat_halves, halves_toNat]

theorem HoldsWords.drop {first : List UInt32} (hholds : HoldsWords memory address (first ++ words)) :
    HoldsWords memory (address + .ofNat (4 * first.length)) words := by
  induction first generalizing address with
  | nil =>
      change HoldsWords memory (address + 0) words
      rwa [UInt32.add_zero]
  | cons word first ih =>
      have hoffset : address + .ofNat (4 * (word :: first).length)
          = address + 4 + .ofNat (4 * first.length) := by
        rw [List.length_cons, Nat.mul_add, Nat.add_comm, UInt32.ofNat_add, UInt32.add_assoc]
        rfl
      rw [hoffset]
      exact ih hholds.2

theorem HoldsWords.read (hholds : HoldsWords memory address words) (k : Nat)
    (hk : k < words.length) : read32 memory (address + .ofNat (4 * k)) = words.getD k 0 := by
  induction words generalizing address k with
  | nil => exact absurd hk (Nat.not_lt_zero k)
  | cons word words ih =>
      cases k with
      | zero =>
          change read32 memory (address + 0) = word
          rw [UInt32.add_zero]
          exact hholds.1
      | succ k =>
          have hoffset : address + .ofNat (4 * (k + 1)) = address + 4 + .ofNat (4 * k) := by
            rw [Nat.mul_add, Nat.add_comm, UInt32.ofNat_add, UInt32.add_assoc]
            rfl
          rw [hoffset]
          exact ih hholds.2 k (Nat.lt_of_succ_lt_succ hk)

/-- The words stay where their bytes do. -/
theorem HoldsWords.of_bytes (hholds : HoldsWords memory address words)
    (hbytes : ∀ k < 4 * words.length,
      memory' (address + .ofNat k) = memory (address + .ofNat k)) :
    HoldsWords memory' address words := by
  induction words generalizing address with
  | nil => trivial
  | cons word words ih =>
      rw [List.length_cons] at hbytes
      refine ⟨?_, ih hholds.2 fun k hk => ?_⟩
      · have hfirst : memory' address = memory address := by
          have hzero : memory' (address + 0) = memory (address + 0) := hbytes 0 (by omega)
          rwa [UInt32.add_zero] at hzero
        have hsecond : memory' (address + 1) = memory (address + 1) := hbytes 1 (by omega)
        have hthird : memory' (address + 2) = memory (address + 2) := hbytes 2 (by omega)
        have hfourth : memory' (address + 3) = memory (address + 3) := hbytes 3 (by omega)
        rw [read32, hfirst, hsecond, hthird, hfourth]
        exact hholds.1
      · have hoffset : address + 4 + .ofNat k = address + .ofNat (4 + k) := by
          rw [UInt32.add_assoc, UInt32.ofNat_add]
          rfl
        rw [hoffset]
        exact hbytes (4 + k) (by omega)

theorem read32_congr (hbytes : ∀ k < 4,
      memory' (address + .ofNat k) = memory (address + .ofNat k)) :
    read32 memory' address = read32 memory address := by
  have hword : HoldsWords memory address [read32 memory address] := ⟨rfl, trivial⟩
  exact (hword.of_bytes hbytes).1

/-- Pushing a word leaves the words of the stack where they are. -/
theorem HoldsWords.push (hholds : HoldsWords memory address words)
    (hfits : 4 * (words.length + 1) ≤ 2 ^ 32) (word : UInt32) :
    HoldsWords (write32 memory (address - 4) word) (address - 4) (word :: words) := by
  have haddress : address - 4 + 4 = address := UInt32.sub_add_cancel address 4
  refine ⟨read32_write32, ?_⟩
  rw [haddress]
  refine hholds.of_bytes fun k hk => ?_
  have hoffset : address + .ofNat k = address - 4 + .ofNat (4 + k) := by
    rw [UInt32.ofNat_add, ← UInt32.add_assoc]
    change _ = address - 4 + 4 + _
    rw [haddress]
  rw [hoffset]
  exact write32_outside (by omega) (by omega)

/-! ### Bytes and halves of a word -/

def write8 (memory : Memory) (address : UInt32) (value : UInt8) : Memory :=
  Function.update memory address value

def write16 (memory : Memory) (address : UInt32) (value : UInt16) : Memory :=
  write8 (write8 memory address value.toUInt8) (address + 1) (value >>> 8).toUInt8

def read16 (memory : Memory) (address : UInt32) : UInt16 :=
  .ofNat ((memory address).toNat + 2 ^ 8 * (memory (address + 1)).toNat)

theorem write8_apply (memory : Memory) (entry offset x : UInt32) (value : UInt8) :
    write8 memory (entry + offset) value x = if x - entry = offset then value else memory x := by
  rw [write8, Function.update_apply]
  exact if_congr (eq_add_iff entry offset x) rfl rfl

theorem write16_apply (memory : Memory) (entry offset x : UInt32) (value : UInt16) :
    write16 memory (entry + offset) value x
      = if x - entry = offset + 1 then (value >>> 8).toUInt8
        else if x - entry = offset then value.toUInt8 else memory x := by
  rw [write16, UInt32.add_assoc, write8_apply, write8_apply]

theorem read16_bytes (value : UInt16) :
    UInt16.ofNat (value.toUInt8.toNat + 2 ^ 8 * (value >>> 8).toUInt8.toNat) = value := by
  have hlt := value.toNat_lt
  have hsum : value.toUInt8.toNat + 2 ^ 8 * (value >>> 8).toUInt8.toNat = value.toNat := by
    rw [UInt16.toNat_toUInt8, UInt16.toNat_toUInt8, UInt16.toNat_shiftRight]
    change value.toNat % 2 ^ 8 + 2 ^ 8 * (value.toNat >>> 8 % 2 ^ 8) = value.toNat
    rw [Nat.shiftRight_eq_div_pow]
    omega
  rw [hsum, UInt16.ofNat_toNat]

end KernelFromScratch
