import KernelFromScratch.Library.While
import KernelFromScratch.Request

/-!
# The stack dump

`stack.c`. A function gives the calls of `printk` it makes and the addresses of the bytes it reads
through its pointers, in order.
-/

namespace KernelFromScratch

def stackDumpBytes : UInt32 := 256

def stackDumpWords : Nat := 16

def stackReturnSearch : UInt32 := 64

def stackStringMinLen : Nat := 4

/-- `char` is signed, so a byte from 128 on is below 32. -/
def isprint (c : UInt8) : Bool := 32 ≤ c && c ≤ 126

/-- The addresses of the linker script. -/
structure LinkerSymbols where
  textStart : UInt32
  textEnd : UInt32
  stackTop : UInt32

structure Dump where
  requests : List Request
  reads : List UInt32

namespace Dump

def nothing : Dump := ⟨[], []⟩

def append (first second : Dump) : Dump :=
  ⟨first.requests ++ second.requests, first.reads ++ second.reads⟩

instance : Append Dump := ⟨append⟩

def print (format : List UInt8) (arguments : List Argument) : Dump := ⟨[⟨format, arguments⟩], []⟩

def read8 (address : UInt32) : Dump := ⟨[], [address]⟩

def read32 (address : UInt32) : Dump :=
  ⟨[], [address, address + 1, address + 2, address + 3]⟩

def when (test : Bool) (dump : Dump) : Dump := if test then dump else nothing

/-- `for (i = 0; i < n; i++)`. -/
def forEach (n : Nat) (body : Nat → Dump) : Dump :=
  ⟨(List.range n).flatMap fun i => (body i).requests, (List.range n).flatMap fun i => (body i).reads⟩

end Dump

section

variable (symbols : LinkerSymbols) (memory : Memory)

def isCodeAddress (value : UInt32) : Bool := symbols.textStart ≤ value && value < symbols.textEnd

/-- `ptr`, and what was done so far. -/
structure ReturnSearch where
  ptr : UInt32
  dump : Dump

def returnSearchTest (esp stackBase : UInt32) (search : ReturnSearch) : Bool :=
  search.ptr < stackBase && search.ptr < esp + stackReturnSearch

def returnSearchBody (search : ReturnSearch) : ReturnSearch :=
  let ptr := search.ptr
  { ptr := ptr + 4
    dump := search.dump ++ .read32 ptr
      ++ .when (isCodeAddress symbols (read32 memory ptr))
        (.read32 ptr ++ .print (str "Possible return address at 0x%x: 0x%x\n")
          [.int ptr, .int (read32 memory ptr)]) }

def printReturnAddresses (esp stackBase : UInt32) (fuel : Nat) : Option Dump :=
  (whileLoop (returnSearchTest esp stackBase) (returnSearchBody symbols memory) fuel
    ⟨esp, .print (str "\nLooking for return addresses...\n") []⟩).map ReturnSearch.dump

/-- The first loop over the bytes of a row. -/
def hexColumn (esp stackBase offset : UInt32) : Dump :=
  .forEach 16 fun i =>
    let address := esp + offset
    (if address + .ofNat i < stackBase then
      .read8 (esp + (offset + .ofNat i))
        ++ .print (str "%02x ") [.int (memory (esp + (offset + .ofNat i))).toUInt32]
    else
      .print (str "   ") [])
      ++ .when (i = 7) (.print (str " ") [])

/-- The second loop. The byte is read again when it is shown. -/
def asciiColumn (esp stackBase offset : UInt32) : Dump :=
  .forEach 16 fun i =>
    let address := esp + offset
    let byte := memory (esp + (offset + .ofNat i))
    if address + .ofNat i < stackBase then
      .read8 (esp + (offset + .ofNat i)) ++ .when (isprint byte) (.read8 (esp + (offset + .ofNat i)))
        ++ .print (str "%c") [.int (if isprint byte then byte.toUInt32 else (chr '.').toUInt32)]
    else
      .print (str " ") []

/-- The loop that counts the printable bytes at `address`, with `left` bytes of the row to go: the
count and the bytes read. -/
def stringScan (stackBase address : UInt32) : Nat → Nat → Nat × List UInt32
  | 0, length => (length, [])
  | left + 1, length =>
    if address + .ofNat length < stackBase then
      if isprint (memory (address + .ofNat length)) then
        let scan := stringScan stackBase address left (length + 1)
        (scan.1, (address + .ofNat length) :: scan.2)
      else
        (length, [address + .ofNat length])
    else
      (length, [])

def stringNote (stackBase address : UInt32) : Dump :=
  let scan := stringScan memory stackBase address 16 0
  let length := scan.1
  let stop := address + .ofNat length
  ⟨[], scan.2⟩ ++ .when (stackStringMinLen ≤ length)
    (.read8 stop ++ .when (memory stop = 0)
      (.print (str "\"") []
        ++ .forEach length (fun i => .read8 (address + .ofNat i)
          ++ .print (str "%c") [.int (memory (address + .ofNat i)).toUInt32])
        ++ .print (str "\" ") []))

/-- The body of the loop over the rows. -/
def printRow (esp ebp stackBase offset : UInt32) : Dump :=
  let address := esp + offset
  .print (str "0x%08x  ") [.int address] ++ hexColumn memory esp stackBase offset
    ++ .print (str " ") [] ++ asciiColumn memory esp stackBase offset ++ .print (str "  ") []
    ++ .when (address = esp) (.print (str "[ESP] ") [])
    ++ .when (address = ebp) (.print (str "[EBP] ") [])
    ++ .when (address = ebp + 4) (.print (str "[Ret Addr] ") [])
    ++ stringNote memory stackBase address ++ .print (str "\n") []

/-- The loop over the rows from `offset` on, with `left` rows to go. -/
def printRows (esp ebp stackBase : UInt32) : Nat → UInt32 → Dump
  | 0, _ => .nothing
  | left + 1, offset =>
    if stackBase ≤ esp + offset then
      .nothing
    else
      printRow memory esp ebp stackBase offset ++ printRows esp ebp stackBase left (offset + 16)

def printBytes (esp ebp stackBase : UInt32) : Dump :=
  .print (str "\n=== Detailed Stack Contents (with ASCII) ===\n") []
    ++ .print (str "Addr       Hex Value     ASCII           Notes\n") []
    ++ .print (str "---------- ------------  --------------  ----------\n") []
    ++ printRows memory esp ebp stackBase (stackDumpBytes.toNat / 16) 0

def asciiChar (value : UInt32) (j : Nat) : UInt8 :=
  if isprint (byteOf value j) then byteOf value j else chr '.'

theorem asciiChar_ne (value : UInt32) (j : Nat) : asciiChar value j ≠ 0 := by
  rw [asciiChar]
  split_ifs with hprint
  · intro hzero
    rw [hzero] at hprint
    exact absurd hprint (by decide)
  · decide

def asciiOf (value : UInt32) : CString where
  chars := (List.range 4).map (asciiChar value)
  noNul := by
    intro hmem
    obtain ⟨j, -, hzero⟩ := List.mem_map.mp hmem
    exact asciiChar_ne value j hzero
  length_lt := by
    rw [List.length_map, List.length_range]
    decide

def wordNote (esp ebp address value : UInt32) : Dump :=
  if address = esp then
    .print (str "[ESP] ") []
  else if address = ebp then
    .print (str "[EBP] ") []
  else if value = ebp then
    .print (str "[Saved EBP from 0x%x] ") [.int (address - 4)]
  else
    .when (isCodeAddress symbols value) (.print (str "[Code ~0x%x] ") [.int value])

/-- The loop over the words from `word` on, with `left` words to go. -/
def printWordsLoop (esp ebp stackBase : UInt32) : Nat → UInt32 → Dump
  | 0, _ => .nothing
  | left + 1, word =>
    if word < stackBase then
      let value := read32 memory word
      .read32 word ++ .print (str "0x%08x  0x%08x  ") [.int word, .int value]
        ++ wordNote symbols esp ebp word value ++ .print (str "'%s'\n") [.string (asciiOf value)]
        ++ printWordsLoop esp ebp stackBase left (word + 4)
    else
      .nothing

def printWords (esp ebp stackBase : UInt32) : Dump :=
  .print (str "\n=== Word View (for stack frames) ===\n") []
    ++ .print (str "Addr       Value        Notes\n") []
    ++ .print (str "---------- -----------  --------------------\n") []
    ++ printWordsLoop symbols memory esp ebp stackBase stackDumpWords esp

/-- `stack_dump`, if the search for return addresses ends within `fuel` turns. -/
def stackDump (esp ebp : UInt32) (fuel : Nat) : Option Dump :=
  let stackBase := symbols.stackTop
  (printReturnAddresses symbols memory esp stackBase fuel).map fun returnAddresses =>
    .print (str "=== Kernel Stack Dump ===\n") []
      ++ .print (str "ESP: 0x%x | EBP: 0x%x | Used: %d bytes\n\n")
        [.int esp, .int ebp, .int (stackBase - esp)]
      ++ .print (str "Stack frame size: %d bytes\n") [.int (ebp - esp)]
      ++ returnAddresses ++ printBytes memory esp ebp stackBase
      ++ printWords symbols memory esp ebp stackBase

end

end KernelFromScratch
