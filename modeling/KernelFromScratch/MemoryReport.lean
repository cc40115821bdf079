import KernelFromScratch.MemoryMap
import KernelFromScratch.Proof.Editing

/-!
# The numbers of the memory report

The sizes are printed with `%d`, so as the signed value of one word: the report is right exactly when
the sizes stay below `2 ^ 31` bytes.
-/

namespace KernelFromScratch

/-- The line with the true values. -/
def MapEntry.trueLine (entry : MapEntry) : List UInt8 :=
  entryLine (memMapType entry.type).chars (hexadecimal entry.baseAddr.toNat)
    (hexadecimal (entry.baseAddr.toNat + entry.length.toNat)) (decimal entry.length.toNat)

def trueMemoryLines (mbi : MultibootInfo) : List (List UInt8) :=
  [memoryLine (str "Lower memory: ") (decimal mbi.memLower.toNat)
      (decimal (mbi.memLower.toNat * 1024)),
    memoryLine (str "Upper memory: ") (decimal mbi.memUpper.toNat)
      (decimal (mbi.memUpper.toNat * 1024))]

def trueReport (mbi : MultibootInfo) (entries : List MapEntry) : List (List UInt8) :=
  (if mbi.flags &&& multibootInfoMemory ≠ 0 then trueMemoryLines mbi else [])
    ++ if mbi.flags &&& multibootInfoMemMap ≠ 0 then
      str "Memory map entries:\n" :: entries.map MapEntry.trueLine
    else
      []

/-- `print_multiboot_info` returns, and its calls of `printk` print the true lines. -/
def ReportRight (memory : Memory) (mbi : MultibootInfo) (entries : List MapEntry) : Prop :=
  ∃ fuel requests, printMultibootInfo memory mbi fuel = some requests
    ∧ List.Forall₂ Request.Prints requests (trueReport mbi entries)

theorem Request.prints_iff {request : Request} {text : List UInt8} (hprints : request.Prints text)
    (text' : List UInt8) : request.Prints text' ↔ text = text' := by
  constructor
  · exact fun hprints' => hprints.unique hprints'
  · rintro rfl
    exact hprints

theorem int32_eq_iff {word : UInt32} {n : Nat} (hword : word.toNat = n % 2 ^ 32) :
    int32 word.toNat = n ↔ n < 2 ^ 31 := by
  constructor
  · intro heq
    have hlt := (PrintkCall.int32_bounds word.toNat).2
    rw [heq] at hlt
    exact_mod_cast hlt
  · intro hlt
    rw [hword, Nat.mod_eq_of_lt (by omega)]
    exact int32_of_lt hlt

theorem space_notMem_decimal (n : Nat) : chr ' ' ∉ decimal n :=
  fun hmem => absurd (isdigit_of_mem_decimal hmem) (by decide)

theorem space_notMem_signedDecimal (z : Int) : chr ' ' ∉ signedDecimal z := by
  rw [signedDecimal, List.mem_append, not_or]
  refine ⟨?_, space_notMem_decimal _⟩
  by_cases hneg : z < 0
  · rw [if_pos hneg]
    decide
  · rw [if_neg hneg]
    exact List.not_mem_nil

/-- Two texts are cut at their first separator. -/
theorem append_separator_inj {α : Type*} {separator : α} {first first' rest rest' : List α}
    (hfirst : separator ∉ first) (hfirst' : separator ∉ first') :
    first ++ separator :: rest = first' ++ separator :: rest' ↔ first = first' ∧ rest = rest' := by
  induction first generalizing first' with
  | nil =>
      cases first' with
      | nil => simp
      | cons c first' =>
          rw [List.mem_cons, not_or] at hfirst'
          refine iff_of_false (fun heq => hfirst'.1 ?_) (fun h => ?_)
          · exact (List.cons.inj heq).1
          · cases h.1
  | cons c first ih =>
      rw [List.mem_cons, not_or] at hfirst
      cases first' with
      | nil =>
          refine iff_of_false (fun heq => hfirst.1 ?_) (fun h => ?_)
          · exact (List.cons.inj heq).1.symm
          · cases h.1
      | cons c' first' =>
          rw [List.mem_cons, not_or] at hfirst'
          rw [List.cons_append, List.cons_append, List.cons.injEq, List.cons.injEq,
            ih hfirst.2 hfirst'.2, and_assoc]

theorem memoryLine_inj {label kib kib' bytes bytes' : List UInt8} (hkib : chr ' ' ∉ kib)
    (hkib' : chr ' ' ∉ kib') :
    memoryLine label kib bytes = memoryLine label kib' bytes' ↔ kib = kib' ∧ bytes = bytes' := by
  have hspace : str " KiB (" = chr ' ' :: str "KiB (" := rfl
  rw [memoryLine, memoryLine, List.append_cancel_left_eq, hspace, List.cons_append,
    List.cons_append, append_separator_inj hkib hkib', List.append_cancel_left_eq,
    List.append_cancel_right_eq]

theorem entryLine_inj {type base stop length length' : List UInt8} :
    entryLine type base stop length = entryLine type base stop length' ↔ length = length' := by
  simp only [entryLine, List.append_cancel_left_eq, List.append_cancel_right_eq]

/-- Both sizes of a line about memory are right exactly when the bytes fit. -/
theorem memoryLine_right_iff {label : List UInt8}
    (hplain : (literals label).all Piece.plain = true) (noNul : 0 ∉ label) (kib : UInt32) :
    (⟨label ++ str "%d KiB (%d bytes)\n", [.int kib, .int (kib * 1024)]⟩ : Request).Prints
        (memoryLine label (decimal kib.toNat) (decimal (kib.toNat * 1024)))
      ↔ kib.toNat < 2 ^ 21 := by
  have hkib : int32 kib.toNat = kib.toNat ↔ kib.toNat < 2 ^ 31 :=
    int32_eq_iff (Nat.mod_eq_of_lt kib.toNat_lt).symm
  have hbytes : int32 (kib * 1024).toNat = (kib.toNat * 1024 : Nat) ↔ kib.toNat * 1024 < 2 ^ 31 :=
    int32_eq_iff (UInt32.toNat_mul kib 1024)
  rw [Request.prints_iff (memoryLine_prints hplain noNul),
    memoryLine_inj (space_notMem_signedDecimal _) (space_notMem_decimal _),
    signedDecimal_eq_decimal_iff, signedDecimal_eq_decimal_iff, hkib, hbytes]
  omega

theorem entryLine_right_iff {entry : MapEntry}
    (hsum : entry.baseAddr.toNat + entry.length.toNat < 2 ^ 64) :
    entry.request.Prints entry.trueLine ↔ entry.length.toNat < 2 ^ 31 := by
  have hstop : (entry.baseAddr + entry.length).toNat
      = entry.baseAddr.toNat + entry.length.toNat := by
    rw [UInt64.toNat_add]
    exact Nat.mod_eq_of_lt hsum
  have hlength : int32 entry.length.toUInt32.toNat = entry.length.toNat
      ↔ entry.length.toNat < 2 ^ 31 := int32_eq_iff (UInt64.toNat_toUInt32 _)
  rw [MapEntry.request, Request.prints_iff (printEntry_prints _ _ _), MapEntry.trueLine, hstop,
    entryLine_inj, signedDecimal_eq_decimal_iff, hlength]

/-- What `print_multiboot_info` prints when there is a map. -/
theorem printMultibootInfo_eq {memory : Memory} {mbi : MultibootInfo} {entries : List MapEntry}
    (hmap : mbi.flags &&& multibootInfoMemMap ≠ 0 → HoldsMap memory mbi entries) :
    printMultibootInfo memory mbi entries.length
      = some ((if mbi.flags &&& multibootInfoMemory ≠ 0 then memoryRequests mbi else [])
        ++ if mbi.flags &&& multibootInfoMemMap ≠ 0 then
          mapHeader :: entries.map MapEntry.request
        else
          []) := by
  rw [printMultibootInfo]
  by_cases hflag : mbi.flags &&& multibootInfoMemMap ≠ 0
  · rw [if_pos hflag, if_pos hflag, (hmap hflag).walk, Option.map_some, List.append_assoc]
    rfl
  · rw [if_neg hflag, if_neg hflag, List.append_nil]

theorem printMultibootInfo_unique {memory : Memory} {mbi : MultibootInfo} {fuel fuel' : Nat}
    {requests requests' : List Request}
    (hprints : printMultibootInfo memory mbi fuel = some requests)
    (hprints' : printMultibootInfo memory mbi fuel' = some requests') : requests = requests' := by
  rw [printMultibootInfo] at hprints hprints'
  by_cases hflag : mbi.flags &&& multibootInfoMemMap ≠ 0
  · rw [if_pos hflag, Option.map_eq_some_iff] at hprints hprints'
    obtain ⟨walk, hends, rfl⟩ := hprints
    obtain ⟨walk', hends', rfl⟩ := hprints'
    rw [whileLoop_unique hends hends']
  · rw [if_neg hflag] at hprints hprints'
    exact Option.some.inj (hprints.symm.trans hprints')

theorem memoryLines_right_iff (mbi : MultibootInfo) :
    List.Forall₂ Request.Prints (memoryRequests mbi) (trueMemoryLines mbi)
      ↔ mbi.memLower.toNat < 2 ^ 21 ∧ mbi.memUpper.toNat < 2 ^ 21 := by
  have hlower := @memoryLine_right_iff (str "Lower memory: ") (by decide) (by decide) mbi.memLower
  have hupper := @memoryLine_right_iff (str "Upper memory: ") (by decide) (by decide) mbi.memUpper
  rw [← hlower, ← hupper, memoryRequests, trueMemoryLines, List.forall₂_cons, List.forall₂_cons]
  exact and_congr_right fun _ => and_iff_left List.Forall₂.nil

theorem entryLines_right_iff {entries : List MapEntry}
    (hsums : ∀ entry ∈ entries, entry.baseAddr.toNat + entry.length.toNat < 2 ^ 64) :
    List.Forall₂ Request.Prints (mapHeader :: entries.map MapEntry.request)
        (str "Memory map entries:\n" :: entries.map MapEntry.trueLine)
      ↔ ∀ entry ∈ entries, entry.length.toNat < 2 ^ 31 := by
  rw [List.forall₂_cons, List.forall₂_map_left_iff, List.forall₂_map_right_iff,
    List.forall₂_same, and_iff_right mapHeader_prints]
  exact forall₂_congr fun entry hmem => entryLine_right_iff (hsums entry hmem)

theorem forall₂_append_iff {first rest : List Request} {first' rest' : List (List UInt8)}
    (hlength : first.length = first'.length) :
    List.Forall₂ Request.Prints (first ++ rest) (first' ++ rest')
      ↔ List.Forall₂ Request.Prints first first' ∧ List.Forall₂ Request.Prints rest rest' := by
  constructor
  · intro hall
    have htake := List.forall₂_take first.length hall
    have hdrop := List.forall₂_drop first.length hall
    rw [List.take_left, hlength, List.take_left] at htake
    rw [List.drop_left, hlength, List.drop_left] at hdrop
    exact ⟨htake, hdrop⟩
  · rintro ⟨hfirst, hrest⟩
    exact List.rel_append hfirst hrest

/-- The report is numerically right exactly when every size it prints in bytes is below `2 ^ 31`. -/
theorem reportRight_iff {memory : Memory} {mbi : MultibootInfo} {entries : List MapEntry}
    (hmap : mbi.flags &&& multibootInfoMemMap ≠ 0 → HoldsMap memory mbi entries)
    (hsums : ∀ entry ∈ entries, entry.baseAddr.toNat + entry.length.toNat < 2 ^ 64) :
    ReportRight memory mbi entries
      ↔ (mbi.flags &&& multibootInfoMemory ≠ 0 →
          mbi.memLower.toNat < 2 ^ 21 ∧ mbi.memUpper.toNat < 2 ^ 21)
        ∧ (mbi.flags &&& multibootInfoMemMap ≠ 0 →
          ∀ entry ∈ entries, entry.length.toNat < 2 ^ 31) := by
  have hprints := printMultibootInfo_eq hmap
  have hreport : ReportRight memory mbi entries
      ↔ List.Forall₂ Request.Prints
        ((if mbi.flags &&& multibootInfoMemory ≠ 0 then memoryRequests mbi else [])
          ++ if mbi.flags &&& multibootInfoMemMap ≠ 0 then
            mapHeader :: entries.map MapEntry.request
          else
            []) (trueReport mbi entries) := by
    constructor
    · rintro ⟨fuel, requests, hprints', hall⟩
      rwa [printMultibootInfo_unique hprints hprints']
    · exact fun hall => ⟨entries.length, _, hprints, hall⟩
  have hlength : (if mbi.flags &&& multibootInfoMemory ≠ 0 then memoryRequests mbi else []).length
      = (if mbi.flags &&& multibootInfoMemory ≠ 0 then trueMemoryLines mbi else []).length := by
    split_ifs <;> rfl
  rw [hreport, trueReport, forall₂_append_iff hlength]
  refine and_congr ?_ ?_
  · by_cases hflag : mbi.flags &&& multibootInfoMemory ≠ 0
    · rw [if_pos hflag, if_pos hflag, memoryLines_right_iff]
      exact ⟨fun h _ => h, fun h => h hflag⟩
    · rw [if_neg hflag, if_neg hflag]
      exact iff_of_true .nil fun h => absurd h hflag
  · by_cases hflag : mbi.flags &&& multibootInfoMemMap ≠ 0
    · rw [if_pos hflag, if_pos hflag, entryLines_right_iff hsums]
      exact ⟨fun h _ => h, fun h => h hflag⟩
    · rw [if_neg hflag, if_neg hflag]
      exact iff_of_true .nil fun h => absurd h hflag

theorem reportRight_iff_one :
    ReportRight oneEntryMemory ⟨0x41, 639, 130048, 24, 4096⟩ [oneEntry]
      ↔ ((0x41 : UInt32) &&& multibootInfoMemory ≠ 0 →
          (639 : UInt32).toNat < 2 ^ 21 ∧ (130048 : UInt32).toNat < 2 ^ 21)
        ∧ ((0x41 : UInt32) &&& multibootInfoMemMap ≠ 0 →
          ∀ entry ∈ [oneEntry], entry.length.toNat < 2 ^ 31) :=
  @reportRight_iff oneEntryMemory ⟨0x41, 639, 130048, 24, 4096⟩ [oneEntry]
    (fun _ => ⟨oneEntry_holdsMap.holds, rfl, by decide⟩) fun entry hmem => by
      rw [List.mem_singleton.mp hmem]
      decide

/-- Three gigabytes above the first megabyte: the bytes of upper memory are printed as a negative
number. -/
theorem threeGigabytes_not_right :
    ¬ReportRight (fun _ => 0) ⟨0x01, 639, 3145728, 0, 0⟩ []
      ∧ signedDecimal (int32 ((3145728 : UInt32) * 1024).toNat) = str "-1073741824" := by
  refine ⟨?_, ?_⟩
  · rintro ⟨fuel, requests, hprints, hall⟩
    obtain rfl : memoryRequests ⟨0x01, 639, 3145728, 0, 0⟩ = requests := Option.some.inj hprints
    have hlines := (memoryLines_right_iff ⟨0x01, 639, 3145728, 0, 0⟩).mp hall
    exact absurd hlines.2 (by decide)
  · have hdigits : Nat.digits 10 1073741824 = [4, 2, 8, 1, 4, 7, 3, 7, 0, 1] := by norm_num
    have hvalue : int32 ((3145728 : UInt32) * 1024).toNat = -1073741824 := by decide
    rw [hvalue, signedDecimal, if_pos (by decide), decimal_of_pos (by decide)]
    change _ ++ ((Nat.digits 10 1073741824).map digitChar).reverse = _
    rw [hdigits]
    decide

end KernelFromScratch
