import KernelFromScratch.Proof.ReportLines

/-!
# The walk over the memory map

A map is a row of entries, each behind a field with its size. On such a map the walk visits every
entry once and stops at the end. On any other content of the memory it is safe exactly as long as
the size fields move it forward.
-/

namespace KernelFromScratch

/-- An entry of a memory map, with what follows its members. -/
structure MapEntry where
  baseAddr : UInt64
  length : UInt64
  type : UInt32
  rest : List UInt8
  rest_lt : 20 + rest.length < 2 ^ 32

namespace MapEntry

variable (entry : MapEntry)

/-- The size field, which does not count itself. -/
def size : UInt32 := .ofNat (20 + entry.rest.length)

def bytes : List UInt8 :=
  littleEndian32 entry.size ++ (littleEndian64 entry.baseAddr ++ (littleEndian64 entry.length
    ++ (littleEndian32 entry.type ++ entry.rest)))

def request : Request := printEntry (memMapType entry.type) entry.baseAddr entry.length

theorem size_toNat : entry.size.toNat = 20 + entry.rest.length :=
  UInt32.toNat_ofNat_of_lt' entry.rest_lt

theorem length_bytes : entry.bytes.length = entry.size.toNat + 4 := by
  rw [size_toNat, bytes]
  simp only [List.length_append, littleEndian64, littleEndian32, List.length_cons, List.length_nil]
  omega

end MapEntry

/-- `multiboot_mmap_entry_t`: the type, the base, the length and the size of the entry at an address,
in the order in which the loop reads them. -/
def entryReads (address : UInt32) : List MemberRead :=
  [⟨address + 20, 4⟩, ⟨address + 4, 8⟩, ⟨address + 12, 8⟩, ⟨address, 4⟩]

/-- The entries with the addresses they start at. -/
def placed : UInt32 → List MapEntry → List (UInt32 × MapEntry)
  | _, [] => []
  | address, entry :: entries =>
    (address, entry) :: placed (address + .ofNat entry.bytes.length) entries

/-- What the walk reads of a map, entry by entry. -/
def mapReads (address : UInt32) (entries : List MapEntry) : List MemberRead :=
  (placed address entries).flatMap fun place => entryReads place.1

theorem mapReads_cons (address : UInt32) (entry : MapEntry) (entries : List MapEntry) :
    mapReads address (entry :: entries)
      = entryReads address ++ mapReads (address + .ofNat entry.bytes.length) entries :=
  List.flatMap_cons

theorem map_snd_placed (address : UInt32) (entries : List MapEntry) :
    (placed address entries).map Prod.snd = entries := by
  induction entries generalizing address with
  | nil => rfl
  | cons entry entries ih => rw [placed, List.map_cons, ih]

/-- The members lie inside the entry. -/
theorem entryReads_inside (entry : MapEntry) {address : UInt32}
    (hfits : address.toNat + entry.bytes.length < 2 ^ 32) :
    ∀ read ∈ entryReads address, address.toNat ≤ read.address.toNat
      ∧ read.address.toNat + read.width ≤ address.toNat + entry.bytes.length := by
  have hlength := entry.length_bytes
  rw [entry.size_toNat] at hlength
  have hmember : ∀ offset : Nat, offset < 24 →
      (address + .ofNat offset).toNat = address.toNat + offset :=
    fun offset hoffset => address_add_toNat (by omega)
  have htype : (address + 20).toNat = address.toNat + 20 := hmember 20 (by decide)
  have hbase : (address + 4).toNat = address.toNat + 4 := hmember 4 (by decide)
  have hlen : (address + 12).toNat = address.toNat + 12 := hmember 12 (by decide)
  intro read hread
  simp only [entryReads, List.mem_cons, List.not_mem_nil, or_false] at hread
  obtain rfl | rfl | rfl | rfl := hread <;> dsimp only <;> omega

/-- The entries lie one behind the other inside the map. -/
theorem placed_inside {address : UInt32} {entries : List MapEntry}
    (hfits : address.toNat + (entries.flatMap MapEntry.bytes).length < 2 ^ 32) :
    ∀ place ∈ placed address entries, address.toNat ≤ place.1.toNat
      ∧ place.1.toNat + place.2.bytes.length
        ≤ address.toNat + (entries.flatMap MapEntry.bytes).length := by
  induction entries generalizing address with
  | nil =>
      intro place hmem
      cases hmem
  | cons entry entries ih =>
      rw [List.flatMap_cons, List.length_append] at hfits ⊢
      have hnext : (address + .ofNat entry.bytes.length).toNat
          = address.toNat + entry.bytes.length := address_add_toNat (by omega)
      intro place hmem
      rw [placed, List.mem_cons] at hmem
      rcases hmem with rfl | hmem
      · dsimp only
        omega
      · have hplace := ih (by omega) place hmem
        omega

/-- The names the report has for the types of memory. -/
inductive TypeName : UInt32 → List UInt8 → Prop where
  | available : TypeName 1 (str "Available")
  | reserved : TypeName 2 (str "Reserved")
  | acpiReclaimable : TypeName 3 (str "ACPI Reclaimable")
  | nvs : TypeName 4 (str "NVS")
  | badRam : TypeName 5 (str "Bad RAM")
  | unknown {type : UInt32} (hother : type = 0 ∨ 5 < type) : TypeName type (str "Unknown")

theorem typeName_memMapType (type : UInt32) : TypeName type (memMapType type).chars := by
  unfold memMapType multibootMemMapAvailable multibootMemMapReserved
    multibootMemMapAcpiReclaimable multibootMemMapNvs multibootMemMapBadram
  split_ifs with hone htwo hthree hfour hfive
  · subst hone
    exact .available
  · subst htwo
    exact .reserved
  · subst hthree
    exact .acpiReclaimable
  · subst hfour
    exact .nvs
  · subst hfive
    exact .badRam
  · refine .unknown ?_
    simp only [← UInt32.toNat_inj, UInt32.lt_iff_toNat_lt, UInt32.reduceToNat]
      at hone htwo hthree hfour hfive ⊢
    omega

/-- The call of `printk` for an entry has its base and its length, and the line starts with the name
of its type. -/
def PrintsEntry (place : UInt32 × MapEntry) (request : Request) : Prop :=
  ∃ name : CString, TypeName place.2.type name.chars
    ∧ request = printEntry name place.2.baseAddr place.2.length
    ∧ ∃ rest, request.Prints (name.chars ++ (str " memory: 0x" ++ rest))

theorem MapEntry.printsEntry (address : UInt32) (entry : MapEntry) :
    PrintsEntry (address, entry) entry.request :=
  ⟨memMapType entry.type, typeName_memMapType entry.type, rfl, _, printEntry_prints _ _ _⟩

variable {memory : Memory} {mbi : MultibootInfo} {address : UInt32}

theorem members_of_holdsBytes {entry : MapEntry} (hholds : HoldsBytes memory address entry.bytes) :
    read32 memory address = entry.size ∧ read64 memory (address + 4) = entry.baseAddr
      ∧ read64 memory (address + 12) = entry.length ∧ read32 memory (address + 20) = entry.type := by
  obtain ⟨hsize, hholds⟩ := holdsBytes_append.mp hholds
  obtain ⟨hbase, hholds⟩ := holdsBytes_append.mp hholds
  obtain ⟨hlength, hholds⟩ := holdsBytes_append.mp hholds
  obtain ⟨htype, -⟩ := holdsBytes_append.mp hholds
  have htwelve : address + 4 + 8 = address + 12 := by
    rw [UInt32.add_assoc]
    rfl
  have htwenty : address + 4 + 8 + 8 = address + 20 := by
    rw [htwelve, UInt32.add_assoc]
    rfl
  refine ⟨read32_of_holdsBytes hsize, read64_of_holdsBytes hbase, ?_, ?_⟩
  · rw [← htwelve]
    exact read64_of_holdsBytes hlength
  · rw [← htwenty]
    exact read32_of_holdsBytes htype

theorem walkEntry_of_holdsBytes {entry : MapEntry} (hholds : HoldsBytes memory address entry.bytes)
    (requests : List Request) (reads : List MemberRead) :
    walkEntry memory ⟨address, requests, reads⟩
      = ⟨address + .ofNat entry.bytes.length, requests ++ [entry.request],
        reads ++ entryReads address⟩ := by
  obtain ⟨hsize, hbase, hlength, htype⟩ := members_of_holdsBytes hholds
  have hstride : entry.size + 4 = .ofNat entry.bytes.length := by
    rw [entry.length_bytes, UInt32.ofNat_add, UInt32.ofNat_toNat]
    rfl
  simp only [walkEntry, MapWalk.load32, MapWalk.load64, MapWalk.print, hsize, hbase, hlength, htype,
    hstride, List.append_assoc]
  rfl

/-- One turn an entry, and the test fails at the end of the last one. -/
theorem whileLoop_of_holdsBytes {entries : List MapEntry} {stop : UInt32}
    (hholds : HoldsBytes memory address (entries.flatMap MapEntry.bytes))
    (hstop : address.toNat + (entries.flatMap MapEntry.bytes).length = stop.toNat)
    (requests : List Request) (reads : List MemberRead) :
    whileLoop (beforeEnd stop) (walkEntry memory) entries.length ⟨address, requests, reads⟩
      = some ⟨stop, requests ++ entries.map MapEntry.request, reads ++ mapReads address entries⟩ := by
  induction entries generalizing address requests reads with
  | nil =>
      obtain rfl : address = stop := UInt32.toNat_inj.mp hstop
      have htest : beforeEnd address ⟨address, requests, reads⟩ = false :=
        decide_eq_false (UInt32.lt_irrefl address)
      rw [whileLoop_of_false htest, List.map_nil, List.append_nil]
      change _ = some (⟨address, requests, reads ++ []⟩ : MapWalk)
      rw [List.append_nil]
  | cons entry entries ih =>
      rw [List.flatMap_cons] at hholds hstop
      obtain ⟨hentry, hrest⟩ := holdsBytes_append.mp hholds
      have hlength := entry.length_bytes
      have hlt := stop.toNat_lt
      rw [List.length_append] at hstop
      have htest : beforeEnd stop ⟨address, requests, reads⟩ = true := by
        apply decide_eq_true
        change address < stop
        rw [UInt32.lt_iff_toNat_lt]
        omega
      have hnext : (address + .ofNat entry.bytes.length).toNat
          = address.toNat + entry.bytes.length := address_add_toNat (by omega)
      rw [List.length_cons, whileLoop_of_true htest, walkEntry_of_holdsBytes hentry,
        ih hrest (by omega), List.map_cons, mapReads_cons, List.append_assoc, List.append_assoc]
      rfl

theorem stop_toNat (hfits : mbi.mmapAddr.toNat + mbi.mmapLength.toNat < 2 ^ 32) :
    (mbi.mmapAddr + mbi.mmapLength).toNat = mbi.mmapAddr.toNat + mbi.mmapLength.toNat := by
  rw [UInt32.toNat_add]
  exact Nat.mod_eq_of_lt hfits

/-- The memory holds a map of these entries where the boot information says. -/
structure HoldsMap (memory : Memory) (mbi : MultibootInfo) (entries : List MapEntry) : Prop where
  holds : HoldsBytes memory mbi.mmapAddr (entries.flatMap MapEntry.bytes)
  length : mbi.mmapLength.toNat = (entries.flatMap MapEntry.bytes).length
  fits : mbi.mmapAddr.toNat + mbi.mmapLength.toNat < 2 ^ 32

theorem HoldsMap.walk {entries : List MapEntry} (hmap : HoldsMap memory mbi entries)
    (requests : List Request) :
    walkMap memory mbi entries.length requests
      = some ⟨mbi.mmapAddr + mbi.mmapLength, requests ++ entries.map MapEntry.request,
        mapReads mbi.mmapAddr entries⟩ := by
  refine whileLoop_of_holdsBytes hmap.holds ?_ requests []
  rw [stop_toNat hmap.fits, hmap.length]

theorem forall₂_requests (address : UInt32) (entries : List MapEntry) :
    List.Forall₂ PrintsEntry (placed address entries) (entries.map MapEntry.request) := by
  induction entries generalizing address with
  | nil => exact .nil
  | cons entry entries ih => exact .cons (entry.printsEntry address) (ih _)

/-- The walk over a map ends, at the end of the map. It visits every entry once, in order: it prints
one line for each, with the name of its type, and reads nothing but the members of each, which lie
inside it. -/
theorem walk_visits_entries {entries : List MapEntry} (hmap : HoldsMap memory mbi entries)
    (requests : List Request) :
    ∃ fuel walk printed, walkMap memory mbi fuel requests = some walk
      ∧ walk.current.toNat = mbi.mmapAddr.toNat + mbi.mmapLength.toNat
      ∧ walk.requests = requests ++ printed
      ∧ List.Forall₂ PrintsEntry (placed mbi.mmapAddr entries) printed
      ∧ walk.reads = (placed mbi.mmapAddr entries).flatMap (fun place => entryReads place.1)
      ∧ (placed mbi.mmapAddr entries).map Prod.snd = entries
      ∧ ∀ place ∈ placed mbi.mmapAddr entries,
        (mbi.mmapAddr.toNat ≤ place.1.toNat ∧ place.1.toNat + place.2.bytes.length
          ≤ mbi.mmapAddr.toNat + mbi.mmapLength.toNat)
        ∧ ∀ read ∈ entryReads place.1, place.1.toNat ≤ read.address.toNat
          ∧ read.address.toNat + read.width ≤ place.1.toNat + place.2.bytes.length := by
  have hfits := hmap.fits
  refine ⟨entries.length, _, entries.map MapEntry.request, hmap.walk requests,
    stop_toNat hmap.fits, rfl, forall₂_requests _ _, rfl, map_snd_placed _ _, ?_⟩
  rw [hmap.length] at hfits ⊢
  intro place hmem
  have hinside := placed_inside hfits place hmem
  exact ⟨hinside, entryReads_inside place.2 (by omega)⟩

/-- A map of one entry at address 4096. -/
def oneEntry : MapEntry := ⟨0, 0x9FC00, 1, [], by decide⟩

def oneEntryMemory : Memory := fun address => oneEntry.bytes.getD (address - 4096).toNat 0

theorem oneEntry_holdsMap : HoldsMap oneEntryMemory ⟨0x40, 0, 0, 24, 4096⟩ [oneEntry] := by
  refine ⟨fun k hk => ?_, rfl, by decide⟩
  have hk24 : k < 24 := hk
  have hoffset : (4096 + UInt32.ofNat k - 4096).toNat = k := by
    rw [add_sub_self]
    exact UInt32.toNat_ofNat_of_lt' (by simp only [UInt32.size]; omega)
  change oneEntry.bytes.getD (4096 + UInt32.ofNat k - 4096).toNat 0 = _
  rw [hoffset]
  rfl

theorem walk_visits_entries_one :
    ∃ fuel walk printed, walkMap oneEntryMemory ⟨0x40, 0, 0, 24, 4096⟩ fuel [] = some walk
      ∧ walk.current.toNat = 4096 + 24
      ∧ walk.requests = [] ++ printed
      ∧ List.Forall₂ PrintsEntry [(4096, oneEntry)] printed
      ∧ walk.reads = [⟨4116, 4⟩, ⟨4100, 8⟩, ⟨4108, 8⟩, ⟨4096, 4⟩] := by
  obtain ⟨fuel, walk, printed, hends, hcurrent, hprinted, hlines, hreads, -⟩ :=
    walk_visits_entries oneEntry_holdsMap []
  exact ⟨fuel, walk, printed, hends, hcurrent, hprinted, hlines, hreads⟩

/-! ### Any content of the memory -/

/-- Where the entries lie: the first one at the address of the map, each next one where the size
field of the one before it says, as long as that is below the end. -/
inductive EntryAt (memory : Memory) (mbi : MultibootInfo) : UInt32 → Prop
  | first (hinside : mbi.mmapAddr < mbi.mmapAddr + mbi.mmapLength) :
      EntryAt memory mbi mbi.mmapAddr
  | next {entry : UInt32} (hentry : EntryAt memory mbi entry)
      (hinside : entry + (read32 memory entry + 4) < mbi.mmapAddr + mbi.mmapLength) :
      EntryAt memory mbi (entry + (read32 memory entry + 4))

def WalkTurn (memory : Memory) (mbi : MultibootInfo) (requests : List Request) : MapWalk → Prop :=
  Turn (beforeEnd (mbi.mmapAddr + mbi.mmapLength)) (walkEntry memory) ⟨mbi.mmapAddr, requests, []⟩

/-- The walk examines the entry at `walk.current`. -/
def Examines (memory : Memory) (mbi : MultibootInfo) (requests : List Request) (walk : MapWalk) :
    Prop :=
  WalkTurn memory mbi requests walk ∧ beforeEnd (mbi.mmapAddr + mbi.mmapLength) walk = true

theorem current_walkEntry (memory : Memory) (walk : MapWalk) :
    (walkEntry memory walk).current = walk.current + (read32 memory walk.current + 4) := rfl

theorem Examines.entryAt {requests : List Request} {walk : MapWalk}
    (hexamines : Examines memory mbi requests walk) : EntryAt memory mbi walk.current := by
  obtain ⟨hturn, htest⟩ := hexamines
  induction hturn with
  | start => exact .first (of_decide_eq_true htest)
  | next _ hbefore ih => exact .next (ih hbefore) (of_decide_eq_true htest)

theorem EntryAt.examined {entry : UInt32} (hentry : EntryAt memory mbi entry)
    (requests : List Request) :
    ∃ walk, Examines memory mbi requests walk ∧ walk.current = entry := by
  induction hentry with
  | first hinside => exact ⟨_, ⟨.start, decide_eq_true hinside⟩, rfl⟩
  | next _ hinside ih =>
      obtain ⟨walk, ⟨hturn, htest⟩, rfl⟩ := ih
      exact ⟨_, ⟨hturn.next htest, decide_eq_true hinside⟩, current_walkEntry memory walk⟩

/-- The walk ends, its pointer moves forward at each turn, and the entries it examines start inside
the map. -/
structure WalkSafe (memory : Memory) (mbi : MultibootInfo) (requests : List Request) : Prop where
  ends : ∃ fuel walk, walkMap memory mbi fuel requests = some walk
  increases : ∀ walk, Examines memory mbi requests walk →
    walk.current < (walkEntry memory walk).current
  inside : ∀ walk, Examines memory mbi requests walk →
    mbi.mmapAddr.toNat ≤ walk.current.toNat
      ∧ walk.current.toNat < mbi.mmapAddr.toNat + mbi.mmapLength.toNat

/-- The size field and its own four bytes come to a stride that is not zero, modulo `2 ^ 32`, and
does not go past the end of the address space. -/
def MovesForward (memory : Memory) (entry : UInt32) : Prop :=
  let stride := ((read32 memory entry).toNat + 4) % 2 ^ 32
  0 < stride ∧ entry.toNat + stride < 2 ^ 32

theorem lt_next_iff (entry size : UInt32) :
    entry < entry + (size + 4)
      ↔ 0 < (size.toNat + 4) % 2 ^ 32 ∧ entry.toNat + (size.toNat + 4) % 2 ^ 32 < 2 ^ 32 := by
  have hentry := entry.toNat_lt
  have hstride : (size + 4).toNat = (size.toNat + 4) % 2 ^ 32 := UInt32.toNat_add size 4
  rw [UInt32.lt_iff_toNat_lt, UInt32.toNat_add, hstride]
  omega

theorem lt_walkEntry_iff (memory : Memory) (walk : MapWalk) :
    walk.current < (walkEntry memory walk).current ↔ MovesForward memory walk.current :=
  lt_next_iff walk.current (read32 memory walk.current)

theorem EntryAt.lt_end {entry : UInt32} (hentry : EntryAt memory mbi entry) :
    entry.toNat < mbi.mmapAddr.toNat + mbi.mmapLength.toNat := by
  have hlt : entry < mbi.mmapAddr + mbi.mmapLength := by
    cases hentry with
    | first hinside => exact hinside
    | next _ hinside => exact hinside
  refine lt_of_lt_of_le (UInt32.lt_iff_toNat_lt.mp hlt) ?_
  rw [UInt32.toNat_add]
  exact Nat.mod_le _ _

theorem EntryAt.start_le {entry : UInt32}
    (hforward : ∀ entry, EntryAt memory mbi entry → MovesForward memory entry)
    (hentry : EntryAt memory mbi entry) : mbi.mmapAddr.toNat ≤ entry.toNat := by
  induction hentry with
  | first => exact le_rfl
  | next hbefore _ ih =>
      have hlt := (lt_next_iff _ _).mpr (hforward _ hbefore)
      exact ih.trans (UInt32.lt_iff_toNat_lt.mp hlt).le

/-- On any memory, the walk is safe exactly when every entry moves it forward. -/
theorem walkSafe_iff (memory : Memory) (mbi : MultibootInfo) (requests : List Request) :
    WalkSafe memory mbi requests
      ↔ ∀ entry, EntryAt memory mbi entry → MovesForward memory entry := by
  constructor
  · intro hsafe entry hentry
    obtain ⟨walk, hexamines, rfl⟩ := hentry.examined requests
    exact (lt_walkEntry_iff memory walk).mp (hsafe.increases walk hexamines)
  · intro hforward
    have hincreases : ∀ walk, Examines memory mbi requests walk →
        walk.current < (walkEntry memory walk).current :=
      fun walk hexamines => (lt_walkEntry_iff memory walk).mpr (hforward _ hexamines.entryAt)
    refine ⟨?_, hincreases, fun walk hexamines =>
      ⟨hexamines.entryAt.start_le hforward, hexamines.entryAt.lt_end⟩⟩
    -- What is left of the map gets smaller.
    refine whileLoop_ends
      (fun walk => (mbi.mmapAddr + mbi.mmapLength).toNat - walk.current.toNat) ?_
    intro walk hturn htest
    have hlt := UInt32.lt_iff_toNat_lt.mp (hincreases walk ⟨hturn, htest⟩)
    have hbefore : walk.current < mbi.mmapAddr + mbi.mmapLength := of_decide_eq_true htest
    have hinside := UInt32.lt_iff_toNat_lt.mp hbefore
    omega

/-- The size field `0xFFFFFFFC` at address 4096 makes the stride zero. -/
def stuckMemory : Memory := fun address => if address = 4096 then 0xFC else 0xFF

theorem walkMap_stuck (requests : List Request) (fuel : Nat) :
    walkMap stuckMemory ⟨0x40, 0, 0, 24, 4096⟩ fuel requests = none := by
  refine whileLoop_diverges (fun walk => walk.current = 4096) rfl ?_ fuel
  rintro ⟨current, requests, reads⟩ hcurrent
  obtain rfl : current = 4096 := hcurrent
  have hstays : (4096 : UInt32) + (read32 stuckMemory 4096 + 4) = 4096 := by decide
  exact ⟨rfl, hstays⟩

theorem walk_stuck :
    (∀ fuel, walkMap stuckMemory ⟨0x40, 0, 0, 24, 4096⟩ fuel [] = none)
      ∧ ¬WalkSafe stuckMemory ⟨0x40, 0, 0, 24, 4096⟩ [] := by
  refine ⟨walkMap_stuck [], fun hsafe => ?_⟩
  obtain ⟨fuel, walk, hends⟩ := hsafe.ends
  rw [walkMap_stuck] at hends
  cases hends

end KernelFromScratch
