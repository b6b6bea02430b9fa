import Mathlib.Data.List.Basic
import Mathlib.Data.List.Nodup
import Mathlib.Data.List.Pairwise

/-!
# Memory kept by name

The first request for a name takes memory from an allocator and keeps it in a table; every later
request for the name is answered from the table, whatever size it asks for. A refusal is kept
like an address. Under an allocator that gives out no memory twice, different names never share
memory.
-/

namespace OpenTaker.NamedMemory

universe u
variable {κ : Type u}

/-- What was given for a name: an address or a refusal, and the bytes that were asked for. -/
structure Block (κ : Type u) where
  key : κ
  addr : Option Nat
  bytes : Nat

/-- Two stretches of memory do not overlap: one ends where the other begins, or in front of it. -/
def Apart (first firstBytes second secondBytes : Nat) : Prop :=
  first + firstBytes ≤ second ∨ second + secondBytes ≤ first

/-- Two memories are apart from each other, whichever is named first. -/
theorem Apart.symm {first firstBytes second secondBytes : Nat}
    (apart : Apart first firstBytes second secondBytes) :
    Apart second secondBytes first firstBytes := Or.symm apart

/-- Smaller stretches at the same places do not overlap either. -/
theorem Apart.mono {first firstBytes firstLess second secondBytes secondLess : Nat}
    (apart : Apart first firstBytes second secondBytes) (firstFits : firstLess ≤ firstBytes)
    (secondFits : secondLess ≤ secondBytes) : Apart first firstLess second secondLess := by
  unfold Apart at apart ⊢
  omega

/-- The memory of two entries does not overlap, where both have some. -/
def BlocksApart (first second : Block κ) : Prop :=
  ∀ p q, first.addr = some p → second.addr = some q → Apart p first.bytes q second.bytes

/-- No name stands twice, and the memory of different names does not overlap. -/
structure WellPlaced (blocks : List (Block κ)) : Prop where
  distinct : (blocks.map Block.key).Nodup
  apart : blocks.Pairwise BlocksApart

/-- An empty table has no memories that could overlap. -/
theorem wellPlaced_nil : WellPlaced ([] : List (Block κ)) := ⟨List.nodup_nil, List.Pairwise.nil⟩

/-- Memory that none of the entries has, which is what an allocation gives. -/
def Fresh (blocks : List (Block κ)) (addr bytes : Nat) : Prop :=
  ∀ block ∈ blocks, ∀ p, block.addr = some p → Apart p block.bytes addr bytes

/-- An allocator that gives out no memory of the table again. -/
def Sound (alloc : List (Block κ) → Nat → Option Nat) : Prop :=
  ∀ blocks bytes addr, alloc blocks bytes = some addr → Fresh blocks addr bytes

/-- The first address behind all memory of the table. -/
def behind (blocks : List (Block κ)) (start : Nat) : Nat :=
  blocks.foldr (fun block next => max next (block.addr.getD 0 + block.bytes)) start

variable [DecidableEq κ]

/-- The entry of a name, the first one if there were several. -/
def find (blocks : List (Block κ)) (key : κ) : Option (Block κ) :=
  blocks.find? (fun block => block.key = key)

/-- Answer from the table, or take memory and keep the answer. -/
def request (alloc : List (Block κ) → Nat → Option Nat) (blocks : List (Block κ)) (key : κ)
    (bytes : Nat) : Option Nat × List (Block κ) :=
  match find blocks key with
  | some block => (block.addr, blocks)
  | none => (alloc blocks bytes, blocks ++ [⟨key, alloc blocks bytes, bytes⟩])

/-- Nothing is found just if no memory has the name, in which case one is allocated. -/
theorem find_none_iff {blocks : List (Block κ)} {key : κ} :
    find blocks key = none ↔ key ∉ blocks.map Block.key := by
  simp [find]

section Request

variable (alloc : List (Block κ) → Nat → Option Nat) (blocks : List (Block κ)) (key : κ)
  (bytes : Nat)

/-- A name that has an entry keeps it through every request. -/
theorem request_keeps {other : κ} {block : Block κ} (found : find blocks other = some block) :
    find (request alloc blocks key bytes).2 other = some block := by
  unfold request
  split
  · exact found
  · simp only [find] at found ⊢
    rw [List.find?_append, found, Option.some_or]

/-- A request adds no entry for another name, and changes none: it is found as before. -/
theorem request_other {other : κ} (distinct : other ≠ key) :
    find (request alloc blocks key bytes).2 other = find blocks other := by
  unfold request
  split
  · rfl
  · simp only [find, List.find?_append]
    simp [Ne.symm distinct]

/-- What a request has answered stands in the table, with the bytes that the first request for the
name has asked for. -/
theorem request_found :
    ∃ block, find (request alloc blocks key bytes).2 key = some block ∧
      block.addr = (request alloc blocks key bytes).1 ∧
      (find blocks key = some block ∨ find blocks key = none ∧ block.bytes = bytes) := by
  unfold request
  split
  · rename_i block found
    exact ⟨block, found, rfl, .inl found⟩
  · rename_i absent
    refine ⟨⟨key, alloc blocks bytes, bytes⟩, ?_, rfl, .inr ⟨absent, rfl⟩⟩
    simp only [find] at absent ⊢
    rw [List.find?_append, absent]
    simp

/-- A request keeps the table well placed, as a new entry has memory of its own and an old one keeps
what it has. -/
theorem WellPlaced.request {alloc : List (Block κ) → Nat → Option Nat} (sound : Sound alloc)
    {blocks : List (Block κ)} (placed : WellPlaced blocks) (key : κ) (bytes : Nat) :
    WellPlaced (request alloc blocks key bytes).2 := by
  unfold NamedMemory.request
  split
  · exact placed
  · rename_i absent
    refine ⟨?_, ?_⟩
    · rw [List.map_append, List.nodup_append_comm]
      exact List.nodup_cons.mpr ⟨find_none_iff.mp absent, placed.distinct⟩
    · refine List.pairwise_append.mpr ⟨placed.apart, List.pairwise_singleton _ _, ?_⟩
      intro block member new isNew p q at_p at_q
      rw [List.mem_singleton.mp isNew] at at_q ⊢
      exact sound blocks bytes q at_q block member p at_p

end Request

end OpenTaker.NamedMemory
