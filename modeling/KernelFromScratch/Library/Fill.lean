import KernelFromScratch.Library.Memory
import Mathlib.Logic.Function.Basic

/-!
# Writing a range of bytes

A range of the memory with given bytes in it, as a loop leaves it that writes them one after the
other.
-/

namespace KernelFromScratch

/-- `memory` with the bytes from `address` on. -/
def place (memory : Memory) (address : UInt32) (bytes : List UInt8) : Memory := fun x =>
  if (x - address).toNat < bytes.length then bytes.getD (x - address).toNat 0 else memory x

/-- `memory` with the `n` bytes from `address` on set to `value`. -/
def fill (memory : Memory) (address : UInt32) (n : Nat) (value : UInt8) : Memory :=
  place memory address (.replicate n value)

variable {memory : Memory} {address x : UInt32} {bytes : List UInt8} {value : UInt8} {n : Nat}

theorem place_nil : place memory address [] = memory := by
  funext x
  exact if_neg (Nat.not_lt_zero _)

theorem update_place (hlength : bytes.length < 2 ^ 32) (byte : UInt8) :
    Function.update (place memory address bytes) (address + .ofNat bytes.length) byte
      = place memory address (bytes ++ [byte]) := by
  have hoffset : (UInt32.ofNat bytes.length).toNat = bytes.length := UInt32.toNat_ofNat_of_lt' hlength
  funext x
  rw [Function.update_apply, place, place, List.length_append, List.length_singleton]
  by_cases hx : x = address + .ofNat bytes.length
  · have hlast : (x - address).toNat = bytes.length := by
      rw [(eq_add_iff _ _ _).mp hx, hoffset]
    rw [if_pos hx, hlast, if_pos (Nat.lt_succ_self _),
      List.getD_append_right _ _ _ _ le_rfl, Nat.sub_self]
    rfl
  · have hne : (x - address).toNat ≠ bytes.length := by
      intro heq
      apply hx
      rw [eq_add_iff, ← UInt32.toNat_inj, heq, hoffset]
    rw [if_neg hx]
    by_cases hlt : (x - address).toNat < bytes.length
    · rw [if_pos hlt, if_pos (Nat.lt_succ_of_lt hlt), List.getD_append _ _ _ _ hlt]
    · rw [if_neg hlt, if_neg (by omega)]

theorem place_inside {k : Nat} (hk : k < bytes.length) (hlength : bytes.length ≤ 2 ^ 32) :
    place memory address bytes (address + .ofNat k) = bytes.getD k 0 := by
  have hoffset : (UInt32.ofNat k).toNat = k :=
    UInt32.toNat_ofNat_of_lt' (Nat.lt_of_lt_of_le hk hlength)
  rw [place, add_sub_self, hoffset, if_pos hk]

theorem place_apart (hout : bytes.length ≤ (x - address).toNat) :
    place memory address bytes x = memory x :=
  if_neg (Nat.not_lt.mpr hout)

/-- For a range that does not wrap around. -/
theorem place_outside (hfits : address.toNat + bytes.length ≤ 2 ^ 32)
    (hout : x.toNat < address.toNat ∨ address.toNat + bytes.length ≤ x.toNat) :
    place memory address bytes x = memory x := by
  have haddress := address.toNat_lt
  have hx := x.toNat_lt
  apply place_apart
  rw [UInt32.toNat_sub]
  omega

theorem fill_zero : fill memory address 0 value = memory := place_nil

theorem update_fill (hn : n < 2 ^ 32) :
    Function.update (fill memory address n value) (address + .ofNat n) value
      = fill memory address (n + 1) value := by
  have hlength : (List.replicate n value).length = n := List.length_replicate
  rw [fill, fill, List.replicate_succ', ← update_place (by omega), hlength]

theorem fill_inside (hfits : address.toNat + n ≤ 2 ^ 32) (hle : address.toNat ≤ x.toNat)
    (hlt : x.toNat < address.toNat + n) : fill memory address n value x = value := by
  have hin : (x - address).toNat < n := by
    rw [UInt32.toNat_sub]
    omega
  rw [fill, place, List.length_replicate, if_pos hin, List.getD_replicate _ hin]

theorem fill_outside (hfits : address.toNat + n ≤ 2 ^ 32)
    (hout : x.toNat < address.toNat ∨ address.toNat + n ≤ x.toNat) :
    fill memory address n value x = memory x := by
  have hlength : (List.replicate n value).length = n := List.length_replicate
  exact place_outside (by omega) (by omega)

end KernelFromScratch
