import Mathlib.Data.List.Basic

/-!
# Mailboxes

A device with room for one item takes it after some number of accesses. An item written while the
mailbox is full overwrites the one in it.
-/

namespace KernelFromScratch

structure Mailbox (α : Type*) where
  /-- The item in the mailbox. With the number zero, the next access is the last to find it there. -/
  pending : Option (α × Nat)
  taken : List α
  sent : List α

namespace Mailbox

variable {α : Type*} {m : Mailbox α} {item : α} {delay : Nat}

def empty : Mailbox α := ⟨none, [], []⟩

def full (m : Mailbox α) : Bool := m.pending.isSome

/-- How many accesses will find the mailbox full. -/
def remaining (m : Mailbox α) : Nat := m.pending.elim 0 fun entry => entry.2 + 1

/-- The items taken, and the one that will be. -/
def arrived (m : Mailbox α) : List α := m.taken ++ (m.pending.map Prod.fst).toList

def access (m : Mailbox α) : Mailbox α :=
  match m.pending with
  | none => m
  | some (item, 0) => { m with pending := none, taken := m.taken ++ [item] }
  | some (item, left + 1) => { m with pending := some (item, left) }

def write (item : α) (delay : Nat) (m : Mailbox α) : Mailbox α :=
  match delay with
  | 0 => ⟨none, m.taken ++ [item], m.sent ++ [item]⟩
  | left + 1 => ⟨some (item, left), m.taken, m.sent ++ [item]⟩

theorem full_iff (m : Mailbox α) : m.full = true ↔ m.remaining ≠ 0 := by
  obtain ⟨pending, taken, sent⟩ := m
  cases pending <;> simp [full, remaining]

@[simp]
theorem sent_access (m : Mailbox α) : m.access.sent = m.sent := by
  unfold access
  split <;> rfl

@[simp]
theorem arrived_access (m : Mailbox α) : m.access.arrived = m.arrived := by
  obtain ⟨pending, taken, sent⟩ := m
  match pending with
  | none => rfl
  | some (item, 0) => exact List.append_nil _
  | some (item, left + 1) => rfl

@[simp]
theorem remaining_access (m : Mailbox α) : m.access.remaining = m.remaining - 1 := by
  obtain ⟨pending, taken, sent⟩ := m
  match pending with
  | none => rfl
  | some (item, 0) => rfl
  | some (item, left + 1) => rfl

@[simp]
theorem sent_write (item : α) (delay : Nat) (m : Mailbox α) :
    (m.write item delay).sent = m.sent ++ [item] := by
  cases delay <;> rfl

@[simp]
theorem remaining_write (item : α) (delay : Nat) (m : Mailbox α) :
    (m.write item delay).remaining = delay := by
  cases delay <;> rfl

theorem arrived_write (item : α) (delay : Nat) (m : Mailbox α) :
    (m.write item delay).arrived = m.taken ++ [item] := by
  cases delay with
  | zero => exact List.append_nil _
  | succ left => rfl

theorem arrived_write_of_empty (hempty : m.remaining = 0) (item : α) (delay : Nat) :
    (m.write item delay).arrived = m.arrived ++ [item] := by
  obtain ⟨pending, taken, sent⟩ := m
  cases pending with
  | none => rw [arrived_write, arrived, Option.map_none, Option.toList_none, List.append_nil]
  | some entry => cases hempty

/-- Some item was overwritten. -/
def Behind (m : Mailbox α) : Prop := m.arrived.length < m.sent.length

theorem Behind.ne (hbehind : m.Behind) : m.arrived ≠ m.sent := by
  intro hall
  rw [Behind, hall] at hbehind
  exact Nat.lt_irrefl _ hbehind

theorem Behind.access (hbehind : m.Behind) : m.access.Behind := by
  rw [Behind, arrived_access, sent_access]
  exact hbehind

theorem length_arrived_write_le (item : α) (delay : Nat) (m : Mailbox α) :
    (m.write item delay).arrived.length ≤ m.arrived.length + 1 := by
  rw [arrived_write, arrived]
  simp only [List.length_append, List.length_cons, List.length_nil]
  omega

theorem Behind.write (hbehind : m.Behind) (item : α) (delay : Nat) :
    (m.write item delay).Behind := by
  have hle := length_arrived_write_le item delay m
  rw [Behind] at hbehind ⊢
  rw [sent_write, List.length_append, List.length_singleton]
  omega

theorem behind_write_of_full (hall : m.arrived = m.sent) (hfull : m.remaining ≠ 0) (item : α)
    (delay : Nat) : (m.write item delay).Behind := by
  obtain ⟨pending, taken, sent⟩ := m
  cases pending with
  | none => exact absurd rfl hfull
  | some entry =>
      rw [Behind, arrived_write, sent_write, ← hall]
      simp [arrived]

end Mailbox

end KernelFromScratch
