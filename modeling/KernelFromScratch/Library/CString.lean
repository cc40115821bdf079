import KernelFromScratch.Library.Fill
import Mathlib.Data.List.TakeWhile

/-!
# Strings in memory

A string is the bytes up to the first NUL. A list stands for the string it begins with: what follows
a NUL in it does not count, and a list without one has a NUL after it.
-/

namespace KernelFromScratch

/-- The string that a list stands for. -/
def cString (text : List UInt8) : List UInt8 := text.takeWhile (· ≠ 0)

def HoldsString (memory : Memory) : UInt32 → List UInt8 → Prop
  | address, [] => memory address = 0
  | address, c :: text => memory address = c ∧ (c ≠ 0 → HoldsString memory (address + 1) text)

variable {memory memory' : Memory} {address : UInt32} {text : List UInt8} {c : UInt8}

theorem cString_zero (text : List UInt8) : cString (0 :: text) = [] := rfl

theorem cString_cons (hc : c ≠ 0) (text : List UInt8) : cString (c :: text) = c :: cString text :=
  List.takeWhile_cons_of_pos (decide_eq_true hc)

theorem cString_of_notMem (htext : 0 ∉ text) : cString text = text := by
  rw [cString, List.takeWhile_eq_self_iff]
  intro c hc
  exact decide_eq_true fun h => htext (h ▸ hc)

theorem ne_zero_of_mem_cString (hc : c ∈ cString text) : c ≠ 0 := by
  have hne := List.mem_takeWhile_imp hc
  exact of_decide_eq_true hne

theorem cString_take (text : List UInt8) (n : Nat) :
    cString ((cString text).take n) = (cString text).take n :=
  cString_of_notMem fun hmem => ne_zero_of_mem_cString (List.mem_of_mem_take hmem) rfl

theorem getD_cString_ne_zero {k : Nat} (hk : k < (cString text).length) :
    (cString text).getD k 0 ≠ 0 := by
  rw [List.getD_eq_getElem _ _ hk]
  exact ne_zero_of_mem_cString (List.getElem_mem hk)

theorem offset_succ (address : UInt32) (k : Nat) :
    address + .ofNat (k + 1) = address + 1 + .ofNat k := by
  rw [Nat.add_comm, UInt32.ofNat_add, UInt32.add_assoc]
  rfl

theorem holdsString_iff : HoldsString memory address text
    ↔ ∀ k ≤ (cString text).length, memory (address + .ofNat k) = (cString text).getD k 0 := by
  induction text generalizing address with
  | nil =>
      constructor
      · intro hnul k hk
        rw [Nat.le_zero.mp hk]
        change memory (address + 0) = 0
        rwa [UInt32.add_zero]
      · intro hbytes
        have hnul : memory (address + 0) = 0 := hbytes 0 le_rfl
        rwa [UInt32.add_zero] at hnul
  | cons c text ih =>
      by_cases hc : c = 0
      · rw [hc, cString_zero, HoldsString]
        constructor
        · rintro ⟨hnul, -⟩ k hk
          rw [Nat.le_zero.mp hk]
          change memory (address + 0) = 0
          rwa [UInt32.add_zero]
        · intro hbytes
          have hnul : memory (address + 0) = 0 := hbytes 0 le_rfl
          rw [UInt32.add_zero] at hnul
          exact ⟨hnul, fun h => absurd rfl h⟩
      · rw [cString_cons hc, HoldsString, ih, List.length_cons]
        constructor
        · rintro ⟨hfirst, hrest⟩ k hk
          cases k with
          | zero =>
              change memory (address + 0) = c
              rwa [UInt32.add_zero]
          | succ k =>
              rw [offset_succ]
              exact hrest hc k (Nat.le_of_succ_le_succ hk)
        · intro hbytes
          have hfirst : memory (address + 0) = c := hbytes 0 (Nat.zero_le _)
          rw [UInt32.add_zero] at hfirst
          refine ⟨hfirst, fun _ k hk => ?_⟩
          rw [← offset_succ]
          exact hbytes (k + 1) (Nat.succ_le_succ hk)

theorem HoldsString.length_lt (hholds : HoldsString memory address text) :
    (cString text).length < 2 ^ 32 := by
  by_contra hle
  rw [not_lt] at hle
  -- The NUL would lie on a byte of the string.
  have hwrap : UInt32.ofNat (cString text).length
      = .ofNat ((cString text).length - 2 ^ 32) := by
    apply UInt32.toNat_inj.mp
    rw [UInt32.toNat_ofNat', UInt32.toNat_ofNat']
    omega
  have hnul := holdsString_iff.mp hholds (cString text).length le_rfl
  have hbyte := holdsString_iff.mp hholds ((cString text).length - 2 ^ 32) (Nat.sub_le _ _)
  rw [List.getD_eq_default _ _ le_rfl, hwrap] at hnul
  have hin : (cString text).length - 2 ^ 32 < (cString text).length := by omega
  exact getD_cString_ne_zero hin (hbyte.symm.trans hnul)

theorem HoldsString.of_bytes (hholds : HoldsString memory address text)
    (hbytes : ∀ k ≤ (cString text).length,
      memory' (address + .ofNat k) = memory (address + .ofNat k)) :
    HoldsString memory' address text := by
  rw [holdsString_iff] at hholds ⊢
  intro k hk
  rw [hbytes k hk, hholds k hk]

/-- A string whose bytes, with its NUL, lie in a region. -/
structure HoldsStringIn (region : UInt32 → Prop) (memory : Memory) (address : UInt32)
    (text : List UInt8) : Prop where
  holds : HoldsString memory address text
  inside : ∀ k ≤ (cString text).length, region (address + .ofNat k)

namespace HoldsStringIn

variable {region region' : UInt32 → Prop}

theorem congr (hholds : HoldsStringIn region memory address text)
    (hkeeps : ∀ x, region x → memory' x = memory x) : HoldsStringIn region memory' address text :=
  ⟨hholds.holds.of_bytes fun k hk => hkeeps _ (hholds.inside k hk), hholds.inside⟩

theorem mono (hholds : HoldsStringIn region memory address text)
    (hregion : ∀ x, region x → region' x) : HoldsStringIn region' memory address text :=
  ⟨hholds.holds, fun k hk => hregion _ (hholds.inside k hk)⟩

end HoldsStringIn

end KernelFromScratch
