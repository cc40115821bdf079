import KernelFromScratch.Library.Loop
import KernelFromScratch.Library.Memory

/-!
# Copying a range of bytes in place

A byte at a time, upwards when the destination lies below the source and downwards when it lies
above. Part of the way the memory holds the source bytes in a middle part `lo, ..., hi - 1` of the
destination and is as it was elsewhere; the byte read next is not one of those already overwritten.
-/

namespace KernelFromScratch

/-- `memory` with the bytes `lo`, ..., `hi - 1` of the range at `dest` taken from the one at `src`. -/
def withCopy (memory : Memory) (dest src : UInt32) (lo hi : Nat) : Memory := fun address =>
  if lo ≤ (address - dest).toNat ∧ (address - dest).toNat < hi then memory (src + (address - dest))
  else memory address

/-- `d[i] = s[i];` -/
def copyByte (dest src i : UInt32) (memory : Memory) : Memory :=
  Function.update memory (dest + i) (memory (src + i))

variable {memory : Memory} {dest src : UInt32} {lo hi n : Nat}

theorem withCopy_of_le (hle : hi ≤ lo) : withCopy memory dest src lo hi = memory := by
  funext address
  exact if_neg fun hin => absurd (Nat.lt_of_le_of_lt hin.1 hin.2) (Nat.not_lt.mpr hle)

theorem withCopy_self : withCopy memory dest dest lo hi = memory := by
  funext address
  have haddress : dest + (address - dest) = address := by
    rw [UInt32.add_comm, UInt32.sub_add_cancel]
  rw [withCopy, haddress, ite_self]

theorem withCopy_inside {i : Nat} (hlo : lo ≤ i) (hhi : i < hi) (hlt : i < 2 ^ 32) :
    withCopy memory dest src lo hi (dest + .ofNat i) = memory (src + .ofNat i) := by
  have hoffset : (UInt32.ofNat i).toNat = i := UInt32.toNat_ofNat_of_lt' hlt
  rw [withCopy, add_sub_self, hoffset, if_pos ⟨hlo, hhi⟩]

theorem withCopy_outside {address : UInt32} (hfits : dest.toNat + hi ≤ 2 ^ 32)
    (hout : address.toNat < dest.toNat + lo ∨ dest.toNat + hi ≤ address.toNat) :
    withCopy memory dest src lo hi address = memory address := by
  have hdest := dest.toNat_lt
  have haddress := address.toNat_lt
  rw [withCopy, if_neg]
  rw [UInt32.toNat_sub]
  omega

theorem copyByte_withCopy {i : Nat}
    (hsource : ¬(lo ≤ (src + .ofNat i - dest).toNat ∧ (src + .ofNat i - dest).toNat < hi)) :
    copyByte dest src (.ofNat i) (withCopy memory dest src lo hi) = fun address =>
      if address = dest + .ofNat i then memory (src + .ofNat i)
      else withCopy memory dest src lo hi address := by
  funext address
  rw [copyByte, Function.update_apply]
  by_cases heq : address = dest + .ofNat i
  · rw [if_pos heq, if_pos heq, withCopy, if_neg hsource]
  · rw [if_neg heq, if_neg heq]

theorem address_eq_iff {address : UInt32} {i : Nat} (hlt : i < 2 ^ 32) :
    address = dest + .ofNat i ↔ (address - dest).toNat = i := by
  have hoffset : (UInt32.ofNat i).toNat = i := UInt32.toNat_ofNat_of_lt' hlt
  constructor
  · rintro rfl
    rw [add_sub_self, hoffset]
  · intro heq
    rw [← heq, UInt32.ofNat_toNat, UInt32.add_comm, UInt32.sub_add_cancel]

theorem copyByte_up {i : Nat} (hlt : i < 2 ^ 32) (hsource : i ≤ (src + .ofNat i - dest).toNat) :
    copyByte dest src (.ofNat i) (withCopy memory dest src 0 i)
      = withCopy memory dest src 0 (i + 1) := by
  rw [copyByte_withCopy (by omega)]
  funext address
  by_cases heq : (address - dest).toNat = i
  · rw [if_pos ((address_eq_iff hlt).mpr heq), (address_eq_iff hlt).mpr heq,
      withCopy_inside (Nat.zero_le i) (Nat.lt_succ_self i) hlt]
  · rw [if_neg fun h => heq ((address_eq_iff hlt).mp h), withCopy, withCopy]
    congr 1
    exact propext (by omega)

theorem copyByte_down {i : Nat} (hlt : i < 2 ^ 32) (hi : i < n)
    (hsource : ¬(i + 1 ≤ (src + .ofNat i - dest).toNat ∧ (src + .ofNat i - dest).toNat < n)) :
    copyByte dest src (.ofNat i) (withCopy memory dest src (i + 1) n)
      = withCopy memory dest src i n := by
  rw [copyByte_withCopy hsource]
  funext address
  by_cases heq : (address - dest).toNat = i
  · rw [if_pos ((address_eq_iff hlt).mpr heq), (address_eq_iff hlt).mpr heq,
      withCopy_inside le_rfl hi hlt]
  · rw [if_neg fun h => heq ((address_eq_iff hlt).mp h), withCopy, withCopy]
    congr 1
    exact propext (by omega)

/-- The source stays ahead of the destination. -/
theorem copy_up (hlt : dest < src) (hsrc : src.toNat + n ≤ 2 ^ 32) :
    forLoop 0 n (fun i => copyByte dest src (.ofNat i)) memory = withCopy memory dest src 0 n := by
  have hbelow : dest.toNat < src.toNat := UInt32.lt_iff_toNat_lt.mp hlt
  refine forLoop_rule (fun i current => current = withCopy memory dest src 0 i) (Nat.zero_le n)
    (withCopy_of_le le_rfl).symm ?_
  intro i current _ hi hcurrent
  rw [hcurrent]
  have hi32 : i < 2 ^ 32 := by omega
  refine copyByte_up hi32 ?_
  rw [UInt32.toNat_sub, UInt32.toNat_add, UInt32.toNat_ofNat_of_lt' hi32]
  omega

/-- The source stays behind the destination. -/
theorem copy_down (hlt : src < dest) (hdest : dest.toNat + n ≤ 2 ^ 32) :
    forDownLoop n (fun i => copyByte dest src (.ofNat i - 1)) memory
      = withCopy memory dest src 0 n := by
  have hbelow : src.toNat < dest.toNat := UInt32.lt_iff_toNat_lt.mp hlt
  refine forDownLoop_rule (fun i current => current = withCopy memory dest src i n)
    (withCopy_of_le le_rfl).symm ?_
  intro i current hi hcurrent
  have hi32 : i < 2 ^ 32 := by omega
  have hoffset : UInt32.ofNat (i + 1) - 1 = .ofNat i := by
    rw [UInt32.ofNat_add]
    exact UInt32.add_sub_cancel _ _
  rw [hcurrent, hoffset]
  refine copyByte_down hi32 hi ?_
  rw [UInt32.toNat_sub, UInt32.toNat_add, UInt32.toNat_ofNat_of_lt' hi32]
  omega

end KernelFromScratch
