import KernelFromScratch.Multiboot

/-!
# The lines of the memory report

What each request of `print_multiboot_info` prints: a `%d` prints the signed value of the word it
takes.
-/

namespace KernelFromScratch

def memoryLine (label kib bytes : List UInt8) : List UInt8 :=
  label ++ (kib ++ (str " KiB (" ++ (bytes ++ str " bytes)\n")))

def entryLine (type base stop length : List UInt8) : List UInt8 :=
  type ++ (str " memory: 0x" ++ (base ++ (str " - 0x" ++ (stop ++ (str " ("
    ++ (length ++ str " bytes)\n"))))))

theorem memoryLine_prints {label : List UInt8} {kib bytes : UInt32}
    (hplain : (literals label).all Piece.plain = true) (noNul : 0 ∉ label) :
    (⟨label ++ str "%d KiB (%d bytes)\n", [.int kib, .int bytes]⟩ : Request).Prints
      (memoryLine label (signedDecimal (int32 kib.toNat)) (signedDecimal (int32 bytes.toNat))) := by
  have hchars : ∀ text : List UInt8, (literals text).flatMap Piece.chars = text := by
    intro text
    rw [literals, List.flatMap_map]
    exact List.flatMap_singleton' text
  refine Request.prints_of_render (literals label ++ (signedPiece :: (literals (str " KiB (")
    ++ (signedPiece :: literals (str " bytes)\n"))))) ⟨[], by decide, by decide⟩ ?_ ?_ ?_ ?_ ?_
  · rw [List.flatMap_append, hchars]
    rfl
  · rw [List.all_append, hplain, Bool.true_and]
    decide
  · simp only [List.mem_append, noNul, false_or]
    decide
  · simp
  · rintro call ⟨hkib, hbytes, -⟩
    have hend : literals (str " bytes)\n") = literals (str " bytes)\n") ++ [] :=
      (List.append_nil _).symm
    rw [render_literals, render_signedPiece, render_literals, render_signedPiece, hend,
      render_literals, hkib, hbytes, PrintkCall.render, List.append_nil]
    rfl

theorem mapHeader_prints : mapHeader.Prints (str "Memory map entries:\n") := by
  refine Request.prints_of_render (literals (str "Memory map entries:\n") ++ [])
    ⟨[], by decide, by decide⟩ (by decide) (by decide) (by decide) (by simp [mapHeader]) ?_
  intro call _
  rw [render_literals, PrintkCall.render, List.append_nil]

theorem printEntry_prints (type : CString) (base length : UInt64) :
    (printEntry type base length).Prints (entryLine type.chars (hexadecimal base.toNat)
      (hexadecimal (base + length).toNat)
      (signedDecimal (int32 length.toUInt32.toNat))) := by
  refine Request.prints_of_render (stringPiece :: (literals (str " memory: 0x") ++ (longHexPiece
    :: (literals (str " - 0x") ++ (longHexPiece :: (literals (str " (") ++ (signedPiece
      :: (literals (str " bytes)\n") ++ [])))))))) type rfl (by decide) ?_ ?_ ?_
  · change 0 ∉ str "%s memory: 0x%llx - 0x%llx (%d bytes)\n"
    decide
  · intro s' hmem
    simp [printEntry] at hmem
    exact hmem
  · rintro call ⟨hnotNull, htype, hbase, hbaseHigh, hstop, hstopHigh, hlength, -⟩
    rw [render_stringPiece _ hnotNull, htype, render_literals, render_longHexPiece _ hbase hbaseHigh,
      render_literals, render_longHexPiece _ hstop hstopHigh, render_literals, render_signedPiece,
      hlength, render_literals, PrintkCall.render, List.append_nil]
    rfl

end KernelFromScratch
