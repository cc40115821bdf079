import KernelFromScratch.Library.CString
import KernelFromScratch.Library.Loop
import KernelFromScratch.Library.While
import KernelFromScratch.Shell

/-!
# Strings and bytes in memory

`string.c`, and `memcmp` of `mem.c`, on a byte-addressed memory. A loop that ends at a NUL ends within
`2 ^ 32` turns or not at all: then its pointers are back where they were.
-/

namespace KernelFromScratch

namespace Memory

section Source

variable (memory : Memory)

def strlenTest (string length : UInt32) : Bool := memory (string + length) ≠ 0

def strlen (string : UInt32) : Option UInt32 :=
  whileLoop (strlenTest memory string) (fun length => length + 1) (2 ^ 32) 0

/-- The test on the two pointers. -/
def strcmpTest (p : UInt32 × UInt32) : Bool := memory p.1 ≠ 0 && memory p.1 = memory p.2

def strcmpLoop (fuel : Nat) (str1 str2 : UInt32) : Option (UInt32 × UInt32) :=
  whileLoop (strcmpTest memory) (fun p => (p.1 + 1, p.2 + 1)) fuel (str1, str2)

def strcmp (str1 str2 : UInt32) : Option UInt32 :=
  (strcmpLoop memory (2 ^ 32) str1 str2).map
    fun p => (memory p.1).toUInt32 - (memory p.2).toUInt32

/-- The first loop of `strncpy`, with `left` turns before `i` is `length`. -/
def strncpyCopy (destination source : UInt32) : Nat → Nat → Memory → Nat × Memory
  | 0, i, memory => (i, memory)
  | left + 1, i, memory =>
      if memory (source + .ofNat i) ≠ 0 then
        strncpyCopy destination source left (i + 1)
          (Function.update memory (destination + .ofNat i) (memory (source + .ofNat i)))
      else (i, memory)

def strncpy (destination source length : UInt32) : Memory :=
  let (i, memory) := strncpyCopy destination source length.toNat 0 memory
  forLoop i length.toNat (fun i memory => Function.update memory (destination + .ofNat i) 0) memory

/-- The loop of `memcmp` from `i` on, with `left` turns before `i` is `n`. -/
def memcmpFrom (p1 p2 : UInt32) : Nat → Nat → Int
  | 0, _ => 0
  | left + 1, i =>
      if memory (p1 + .ofNat i) ≠ memory (p2 + .ofNat i) then
        (memory (p1 + .ofNat i)).toNat - (memory (p2 + .ofNat i)).toNat
      else memcmpFrom p1 p2 left (i + 1)

def memcmp (s1 s2 n : UInt32) : Int := memcmpFrom memory s1 s2 n.toNat 0

end Source

/-- The `n` bytes from `address + i` on. -/
def bytesFrom (memory : Memory) (address : UInt32) (i n : Nat) : List UInt8 :=
  (List.range' i n).map fun k => memory (address + .ofNat k)

variable {memory : Memory} {text text1 text2 : List UInt8} {string str1 str2 : UInt32}

/-! ### `strlen` and `strcmp` -/

theorem strlen_eq (hholds : HoldsString memory string text) :
    strlen memory string = some (.ofNat (cString text).length) := by
  have hfrom : ∀ (text : List UInt8) (length : UInt32), HoldsString memory (string + length) text →
      whileLoop (strlenTest memory string) (fun length => length + 1) (cString text).length length
        = some (length + .ofNat (cString text).length) := by
    intro text
    induction text with
    | nil =>
        intro length hnul
        have htest : strlenTest memory string length = false := decide_eq_false fun h => h hnul
        rw [whileLoop_of_false htest]
        exact congrArg some (UInt32.add_zero length).symm
    | cons c text ih =>
        rintro length ⟨hfirst, hrest⟩
        by_cases hc : c = 0
        · have htest : strlenTest memory string length = false :=
            decide_eq_false fun h => h (hfirst.trans hc)
          rw [whileLoop_of_false htest, hc, cString_zero]
          exact congrArg some (UInt32.add_zero length).symm
        · have htest : strlenTest memory string length = true := decide_eq_true (hfirst ▸ hc)
          have hnext : HoldsString memory (string + (length + 1)) text := by
            rw [← UInt32.add_assoc]
            exact hrest hc
          rw [cString_cons hc, List.length_cons, whileLoop_of_true htest, ih _ hnext, offset_succ]
  have hstart := hfrom text 0 (by rwa [UInt32.add_zero])
  rw [UInt32.zero_add] at hstart
  exact whileLoop_of_le hholds.length_lt.le hstart

/-- A NUL anywhere in the memory ends a string. -/
theorem exists_holdsString {address : UInt32} (hnul : memory address = 0) :
    ∃ text, HoldsString memory string text := by
  have hfrom : ∀ (n : Nat) (string : UInt32), memory (string + .ofNat n) = 0 →
      ∃ text, HoldsString memory string text := by
    intro n
    induction n with
    | zero =>
        intro string hnul
        refine ⟨[], ?_⟩
        change memory (string + 0) = 0 at hnul
        rwa [UInt32.add_zero] at hnul
    | succ n ih =>
        intro string hnul
        rw [offset_succ] at hnul
        obtain ⟨text, hholds⟩ := ih (string + 1) hnul
        exact ⟨memory string :: text, rfl, fun _ => hholds⟩
  have haddress : string + .ofNat (address - string).toNat = address := by
    rw [UInt32.ofNat_toNat, UInt32.add_comm, UInt32.sub_add_cancel]
  exact hfrom (address - string).toNat string (by rw [haddress, hnul])

/-- `strlen` counts the bytes in front of the next NUL; it fails to end only when no byte of the memory
is one. -/
theorem strlen_total (memory : Memory) (string : UInt32) :
    (∃ text, HoldsString memory string text ∧ strlen memory string = some (.ofNat text.length) ∧
        text.length < 2 ^ 32 ∧ 0 ∉ text) ∨
      (∀ address, memory address ≠ 0) ∧
        ∀ fuel, whileLoop (strlenTest memory string) (fun length => length + 1) fuel 0 = none := by
  by_cases hnul : ∃ address, memory address = 0
  · obtain ⟨address, haddress⟩ := hnul
    obtain ⟨text, hholds⟩ := @exists_holdsString memory string address haddress
    have hsame : cString (cString text) = cString text := by
      rw [← List.take_length (l := cString text), cString_take]
    refine .inl ⟨cString text, ?_, strlen_eq hholds, hholds.length_lt,
      fun hmem => ne_zero_of_mem_cString hmem rfl⟩
    rwa [holdsString_iff, hsame, ← holdsString_iff]
  · have hall : ∀ address, memory address ≠ 0 := fun address hzero => hnul ⟨address, hzero⟩
    refine .inr ⟨hall, fun fuel => ?_⟩
    exact whileLoop_diverges (fun _ => True) trivial
      (fun length _ => ⟨decide_eq_true (hall (string + length)), trivial⟩) fuel

theorem strcmpTest_iff : strcmpTest memory (str1, str2) = true
    ↔ memory str1 ≠ 0 ∧ memory str1 = memory str2 := by
  rw [strcmpTest, Bool.and_eq_true, decide_eq_true_iff, decide_eq_true_iff]

/-- With the fuel for the length of the first string the loop ends where the two differ. -/
theorem strcmpLoop_eq (hholds1 : HoldsString memory str1 text1)
    (hholds2 : HoldsString memory str2 text2) :
    ∃ p, strcmpLoop memory (cString text1).length str1 str2 = some p ∧
      (memory p.1).toUInt32 - (memory p.2).toUInt32 = KernelFromScratch.strcmp text1 text2 := by
  have hends : ∀ {str1 str2 : UInt32} {fuel : Nat}, strcmpTest memory (str1, str2) = false →
      strcmpLoop memory fuel str1 str2 = some (str1, str2) :=
    fun htest => whileLoop_of_false htest _
  induction text1 generalizing str1 str2 text2 with
  | nil =>
      have hnul : memory str1 = 0 := hholds1
      have htest : strcmpTest memory (str1, str2) = false := by
        rw [strcmpTest, hnul]
        rfl
      refine ⟨(str1, str2), hends htest, ?_⟩
      rw [hnul]
      cases text2 with
      | nil =>
          have hnul2 : memory str2 = 0 := hholds2
          rw [hnul2]
          rfl
      | cons c2 text2 =>
          rw [hholds2.1]
          rfl
  | cons c1 text1 ih =>
      obtain ⟨hfirst1, hrest1⟩ := hholds1
      cases text2 with
      | nil =>
          have hnul2 : memory str2 = 0 := hholds2
          have htest : strcmpTest memory (str1, str2) = false := by
            rw [Bool.eq_false_iff, ne_eq, strcmpTest_iff, hnul2]
            exact fun h => h.1 h.2
          refine ⟨(str1, str2), hends htest, ?_⟩
          rw [hfirst1, hnul2, KernelFromScratch.strcmp]
          exact UInt32.sub_zero _
      | cons c2 text2 =>
          obtain ⟨hfirst2, hrest2⟩ := hholds2
          rw [KernelFromScratch.strcmp]
          by_cases hsame : c1 ≠ 0 ∧ c1 = c2
          · obtain ⟨hc1, rfl⟩ := hsame
            have htest : strcmpTest memory (str1, str2) = true := by
              rw [strcmpTest_iff, hfirst1, hfirst2]
              exact ⟨hc1, rfl⟩
            rw [if_pos ⟨hc1, rfl⟩, cString_cons hc1, List.length_cons, strcmpLoop,
              whileLoop_of_true htest]
            exact ih (hrest1 hc1) (hrest2 hc1)
          · have htest : strcmpTest memory (str1, str2) = false := by
              rw [Bool.eq_false_iff, ne_eq, strcmpTest_iff, hfirst1, hfirst2]
              exact hsame
            refine ⟨(str1, str2), hends htest, ?_⟩
            rw [if_neg hsame, hfirst1, hfirst2]

theorem strcmp_eq (hholds1 : HoldsString memory str1 text1)
    (hholds2 : HoldsString memory str2 text2) :
    strcmp memory str1 str2 = some (KernelFromScratch.strcmp text1 text2) := by
  obtain ⟨p, hloop, hresult⟩ := strcmpLoop_eq hholds1 hholds2
  have hends : strcmpLoop memory (2 ^ 32) str1 str2 = some p :=
    whileLoop_of_le hholds1.length_lt.le hloop
  rw [strcmp, hends, Option.map_some, hresult]

/-! ### `strncpy` -/

/-- What `strncpy` writes: the string as far as it fits, and NULs. -/
def padded (text : List UInt8) (length : Nat) : List UInt8 :=
  KernelFromScratch.strncpy text length
    ++ .replicate (length - (KernelFromScratch.strncpy text length).length) 0

theorem length_padded (text : List UInt8) (length : Nat) : (padded text length).length = length := by
  have hle : (KernelFromScratch.strncpy text length).length ≤ length := List.length_take_le _ _
  rw [padded, List.length_append, List.length_replicate]
  omega

variable {destination source length : UInt32}

/-- No byte of the string is in the range that is written. -/
def Apart (destination source length : UInt32) (text : List UInt8) : Prop :=
  ∀ k ≤ (cString text).length, length.toNat ≤ (source + .ofNat k - destination).toNat

theorem strncpyCopy_eq (hholds : HoldsString memory source text)
    (hapart : Apart destination source length text) {left i : Nat} (hlength : i + left = length.toNat)
    (hi : i ≤ (cString text).length) :
    strncpyCopy destination source left i (place memory destination ((cString text).take i))
      = ((KernelFromScratch.strncpy text length.toNat).length,
        place memory destination (KernelFromScratch.strncpy text length.toNat)) := by
  induction left generalizing i with
  | zero =>
      have hfull : i = length.toNat := hlength
      rw [strncpyCopy, KernelFromScratch.strncpy, ← hfull, ← cString, List.length_take_of_le hi]
  | succ left ih =>
      have htaken : ((cString text).take i).length = i := List.length_take_of_le hi
      have hi32 := length.toNat_lt
      have hbyte : place memory destination ((cString text).take i) (source + .ofNat i)
          = (cString text).getD i 0 := by
        have hfar := hapart i hi
        rw [place_apart (by omega)]
        exact holdsString_iff.mp hholds i hi
      rw [strncpyCopy, hbyte]
      rcases Nat.lt_or_eq_of_le hi with hlt | heq
      · have hstep : Function.update (place memory destination ((cString text).take i))
            (destination + .ofNat i) ((cString text).getD i 0)
              = place memory destination ((cString text).take (i + 1)) := by
          have hplace := @update_place memory destination ((cString text).take i) (by omega)
            ((cString text).getD i 0)
          rw [htaken] at hplace
          rw [hplace, List.getD_eq_getElem _ _ hlt, List.take_append_getElem]
        rw [if_pos (getD_cString_ne_zero hlt), hstep]
        exact ih (by omega) hlt
      · -- The NUL ends the loop.
        have hnul : (cString text).getD i 0 = 0 := List.getD_eq_default _ _ heq.ge
        have hall : KernelFromScratch.strncpy text length.toNat = cString text :=
          List.take_of_length_le (by rw [← cString]; omega)
        rw [if_neg (not_not.mpr hnul), hall, List.take_of_length_le heq.ge, heq]

theorem strncpy_eq (hholds : HoldsString memory source text)
    (hapart : Apart destination source length text) :
    strncpy memory destination source length
      = place memory destination (padded text length.toNat) := by
  have hlt := length.toNat_lt
  set copied := KernelFromScratch.strncpy text length.toNat with hcopied
  have hle : copied.length ≤ length.toNat := List.length_take_le _ _
  have hcopy := strncpyCopy_eq hholds hapart (Nat.zero_add _) (Nat.zero_le _)
  rw [List.take_zero, place_nil, ← hcopied] at hcopy
  rw [strncpy, hcopy, padded, ← hcopied]
  refine forLoop_rule (fun i (current : Memory) =>
    current = place memory destination (copied ++ .replicate (i - copied.length) 0)) hle ?_ ?_
  · rw [Nat.sub_self, List.replicate_zero, List.append_nil]
  · intro i current hstart hi hcurrent
    have hwritten : (copied ++ List.replicate (i - copied.length) (0 : UInt8)).length = i := by
      rw [List.length_append, List.length_replicate]
      omega
    have hplace := @update_place memory destination (copied ++ .replicate (i - copied.length) 0)
      (by omega) 0
    rw [hwritten] at hplace
    rw [hcurrent, hplace, List.append_assoc, ← List.replicate_succ', Nat.succ_sub hstart]

theorem strncpy_apart (hholds : HoldsString memory source text)
    (hapart : Apart destination source length text) {x : UInt32}
    (hout : length.toNat ≤ (x - destination).toNat) :
    strncpy memory destination source length x = memory x := by
  rw [strncpy_eq hholds hapart, place_apart]
  rwa [length_padded]

/-- The copy is a string when a NUL lies after the bytes that are written. -/
theorem holdsString_strncpy (hholds : HoldsString memory source text)
    (hapart : Apart destination source length text)
    (hnul : memory (destination + length) = 0) :
    HoldsString (strncpy memory destination source length) destination
      (KernelFromScratch.strncpy text length.toNat) := by
  have hlt := length.toNat_lt
  have hcopied : cString (KernelFromScratch.strncpy text length.toNat)
      = KernelFromScratch.strncpy text length.toNat := cString_take text length.toNat
  rw [strncpy_eq hholds hapart, holdsString_iff, hcopied]
  set copied := KernelFromScratch.strncpy text length.toNat with hcopied
  have hle : copied.length ≤ length.toNat := List.length_take_le _ _
  have hlength := length_padded text length.toNat
  intro k hk
  rcases Nat.lt_or_ge k length.toNat with hinside | hlast
  · rw [place_inside (by omega) (by omega), padded, ← hcopied]
    rcases Nat.lt_or_eq_of_le hk with hshort | heq
    · rw [List.getD_append _ _ _ _ hshort]
    · rw [List.getD_append_right _ _ _ _ heq.ge, List.getD_replicate _ (by omega),
        List.getD_eq_default _ _ heq.ge]
  · have hend : k = length.toNat := by omega
    have haddress : destination + .ofNat k = destination + length := by
      rw [hend, UInt32.ofNat_toNat]
    have hapart : (padded text length.toNat).length ≤ (destination + length - destination).toNat := by
      rw [add_sub_self, hlength]
    rw [haddress, place_apart hapart, hnul, List.getD_eq_default _ _ (by omega)]

/-! ### `memcmp` -/

/-- The sign says how the two ranges compare, byte by byte as unsigned numbers. -/
theorem memcmp_sign (s1 s2 n : UInt32) (memory : Memory) :
    (memcmp memory s1 s2 n = 0 ↔ bytesFrom memory s1 0 n.toNat = bytesFrom memory s2 0 n.toNat) ∧
      (memcmp memory s1 s2 n < 0
        ↔ bytesFrom memory s1 0 n.toNat < bytesFrom memory s2 0 n.toNat) ∧
      (0 < memcmp memory s1 s2 n
        ↔ bytesFrom memory s2 0 n.toNat < bytesFrom memory s1 0 n.toNat) := by
  have hfrom : ∀ left i,
      (memcmpFrom memory s1 s2 left i = 0
          ↔ bytesFrom memory s1 i left = bytesFrom memory s2 i left) ∧
        (memcmpFrom memory s1 s2 left i < 0
          ↔ bytesFrom memory s1 i left < bytesFrom memory s2 i left) ∧
        (0 < memcmpFrom memory s1 s2 left i
          ↔ bytesFrom memory s2 i left < bytesFrom memory s1 i left) := by
    intro left
    induction left with
    | zero =>
        intro i
        have hirrefl : ¬([] : List UInt8) < [] := List.not_lt_nil []
        exact ⟨⟨fun _ => rfl, fun _ => rfl⟩, ⟨fun h => absurd h (lt_irrefl 0), fun h => absurd h hirrefl⟩,
          ⟨fun h => absurd h (lt_irrefl 0), fun h => absurd h hirrefl⟩⟩
    | succ left ih =>
        intro i
        have hcons : ∀ address, bytesFrom memory address i (left + 1)
            = memory (address + .ofNat i) :: bytesFrom memory address (i + 1) left := by
          intro address
          rw [bytesFrom, List.range'_succ, List.map_cons]
          rfl
        rw [hcons, hcons, List.cons_lt_cons_iff, List.cons_lt_cons_iff, List.cons.injEq, memcmpFrom]
        set byte1 := memory (s1 + .ofNat i)
        set byte2 := memory (s2 + .ofNat i)
        by_cases hsame : byte1 = byte2
        · have hirrefl : ¬byte2 < byte2 := UInt8.lt_irrefl _
          rw [hsame, if_neg (not_not.mpr rfl)]
          simp only [true_and, hirrefl, false_or]
          exact ih (i + 1)
        · have hne : byte1.toNat ≠ byte2.toNat := fun h => hsame (UInt8.toNat_inj.mp h)
          rw [if_pos hsame, UInt8.lt_iff_toNat_lt, UInt8.lt_iff_toNat_lt]
          simp only [hsame, Ne.symm hsame, false_and, or_false, iff_false]
          omega
  exact hfrom n.toNat 0

end Memory

end KernelFromScratch
