import Mathlib.Logic.Function.Basic
import Mathlib.Tactic.Common

/-!
# Descriptors and the objects that hold them

A kernel numbers what is open by descriptors and gives a number again once it has been
closed. Objects keep at most one descriptor each and close it by its number, which the kernel
does not check against who opened it. The table notes beside each open descriptor whose it
is: an object's, another party's, or nobody's any more.

An object can let go of a descriptor in two ways: it closes it, or its variable is written over
and the descriptor stays open for good.
-/

namespace OpenTaker.DescriptorTables

universe u v

/-- Whose an open descriptor is: an object's, that of other code, or nobody's any more. -/
inductive Owner (H : Type u) where
  | holder (object : H)
  | outside
  | lost
deriving DecidableEq

/-- The variables of the objects, and the open descriptors. -/
structure Table (H : Type u) (D : Type v) where
  handle : H → Option D
  owner : D → Option (Owner H)

/-- Nothing is held; the descriptors that are open are those of others. -/
def Table.start {H : Type u} {D : Type v} (outside : D → Bool) : Table H D where
  handle := fun _ => none
  owner := fun descriptor => if outside descriptor then some .outside else none

variable {H : Type u} {D : Type v}

namespace Table

variable {table : Table H D} {object other : H} {descriptor : D}

/-- Each object that has a descriptor is the one noted beside it, and the other way. -/
def Sound (table : Table H D) : Prop :=
  ∀ object descriptor, table.handle object = some descriptor ↔
    table.owner descriptor = some (.holder object)

/-- No two objects have one descriptor, because the descriptor has one owner. -/
theorem Sound.injective (sound : table.Sound) (first : table.handle object = some descriptor)
    (second : table.handle other = some descriptor) : object = other := by
  have same := ((sound object descriptor).mp first).symm.trans ((sound other descriptor).mp second)
  cases same
  rfl

/-- The table is sound, and what the other objects and the other parties have is as before. -/
structure Apart (object : H) (before after : Table H D) : Prop where
  sound : after.Sound
  others : ∀ other, other ≠ object → after.handle other = before.handle other
  outside : ∀ descriptor, before.owner descriptor = some .outside →
    after.owner descriptor = some .outside

namespace Apart

/-- A table that does not change is apart from every object, which the refused and the failing calls
of a program are. -/
theorem refl (sound : table.Sound) : Apart object table table := ⟨sound, fun _ _ => rfl, fun _ => id⟩

/-- Two steps of one object in a row touch the others as little as each of them does, so that a call
of several actions is one step. -/
theorem trans {first second third : Table H D} (before : Apart object first second)
    (after : Apart object second third) : Apart object first third where
  sound := after.sound
  others other distinct := (after.others other distinct).trans (before.others other distinct)
  outside descriptor noted := after.outside descriptor (before.outside descriptor noted)

/-- What is noted as another party's is not the object's. -/
theorem not_held (sound : table.Sound) (noted : table.owner descriptor = some .outside) :
    table.handle object ≠ some descriptor := by
  intro held
  rw [(sound object descriptor).mp held] at noted
  cases noted

end Apart

/-! ## Notes -/

section Notes

variable [DecidableEq D]

/-- Write the note of one descriptor, as the kernel opens and closes for others. -/
def mark (table : Table H D) (descriptor : D) (owner : Option (Owner H)) : Table H D :=
  { table with owner := Function.update table.owner descriptor owner }

/-- A note that names no object can be replaced by another such note. -/
theorem Sound.mark (sound : table.Sound) {note : Option (Owner H)}
    (unheld : ∀ holder, table.owner descriptor ≠ some (.holder holder))
    (nobody : ∀ holder, note ≠ some (.holder holder)) : (table.mark descriptor note).Sound := by
  intro holder number
  simp only [Table.mark, Function.update_apply]
  split
  · rename_i equal
    subst equal
    rw [sound holder number]
    simp only [unheld holder, nobody holder]
  · exact sound holder number

end Notes

/-! ## The operations of an object -/

variable [DecidableEq H] [DecidableEq D]

/-- Close what the object holds, by its number, and leave its variable with the value that stands
for none. -/
def release (table : Table H D) (object : H) : Table H D :=
  match table.handle object with
  | none => table
  | some descriptor =>
      { table.mark descriptor none with handle := Function.update table.handle object none }

/-- Write over the variable of the object. Its descriptor stays open, and nobody has its number any
more. -/
def abandon (table : Table H D) (object : H) : Table H D :=
  match table.handle object with
  | none => table
  | some descriptor =>
      { table.mark descriptor (some .lost) with handle := Function.update table.handle object none }

/-- Keep a descriptor in the variable of the object. -/
def give (table : Table H D) (object : H) (descriptor : D) : Table H D :=
  { table.mark descriptor (some (.holder object)) with
    handle := Function.update table.handle object (some descriptor) }

/-- Assign what the kernel has given, or nothing, to the variable of the object. The kernel
gives a number that is not in use. -/
def assign (table : Table H D) (object : H) : Option D → Option (Table H D)
  | none => some (table.abandon object)
  | some descriptor =>
      if (table.owner descriptor).isSome then none
      else some ((table.abandon object).give object descriptor)

/-! ## What each operation leaves -/

/-- What an object releases it does not have any more. The three actions come with such lemmas for
the object, for others and for the owners. -/
@[simp] theorem release_handle_self (table : Table H D) (object : H) :
    (table.release object).handle object = none := by
  rw [release]
  split
  · assumption
  · exact Function.update_self ..

/-- An object that abandons its descriptor has none, although the descriptor stays open. -/
@[simp] theorem abandon_handle_self (table : Table H D) (object : H) :
    (table.abandon object).handle object = none := by
  rw [abandon]
  split
  · assumption
  · exact Function.update_self ..

/-- The object has what it is given, and what it had before is not in its variable any more. -/
@[simp] theorem give_handle_self (table : Table H D) (object : H) (descriptor : D) :
    (table.give object descriptor).handle object = some descriptor := Function.update_self ..

/-- Releasing is an affair of one object: the variables of the others stay as they are. -/
theorem release_handle_other (distinct : other ≠ object) :
    (table.release object).handle other = table.handle other := by
  rw [release]
  split
  · rfl
  · exact Function.update_of_ne distinct ..

/-- So is abandoning, which changes no variable but that of the object. -/
theorem abandon_handle_other (distinct : other ≠ object) :
    (table.abandon object).handle other = table.handle other := by
  rw [abandon]
  split
  · rfl
  · exact Function.update_of_ne distinct ..

/-- And so is giving, by which the descriptor of no other object is written over. -/
theorem give_handle_other (distinct : other ≠ object) :
    (table.give object descriptor).handle other = table.handle other :=
  Function.update_of_ne distinct ..

/-- A descriptor that is not the object's keeps its note. -/
theorem release_owner (apart : table.handle object ≠ some descriptor) :
    (table.release object).owner descriptor = table.owner descriptor := by
  rw [release]
  split
  · rfl
  · rename_i held same
    exact Function.update_of_ne (fun equal => apart (same.trans (congrArg some equal.symm))) ..

/-- Abandoning notes the loss of one descriptor, and leaves the owners of all others. -/
theorem abandon_owner (apart : table.handle object ≠ some descriptor) :
    (table.abandon object).owner descriptor = table.owner descriptor := by
  rw [abandon]
  split
  · rfl
  · rename_i held same
    exact Function.update_of_ne (fun equal => apart (same.trans (congrArg some equal.symm))) ..

/-- Giving notes one owner, for the descriptor that is given. -/
theorem give_owner {given : D} (apart : descriptor ≠ given) :
    (table.give object given).owner descriptor = table.owner descriptor :=
  Function.update_of_ne apart ..

/-- The owner of what was given is the object it was given to, whoever owned the number before. -/
@[simp] theorem give_owner_self (table : Table H D) (object : H) (descriptor : D) :
    (table.give object descriptor).owner descriptor = some (.holder object) :=
  Function.update_self ..

/-! ## Soundness -/

/-- Letting go of a descriptor, whatever is noted then, keeps the table sound. -/
theorem Sound.letGo (sound : table.Sound) (held : table.handle object = some descriptor)
    (note : Option (Owner H)) (nobody : ∀ holder, note ≠ some (.holder holder)) :
    Sound { table.mark descriptor note with handle := Function.update table.handle object none } := by
  intro holder number
  by_cases same : holder = object
  · subst same
    simp only [Table.mark, Function.update_self, Function.update_apply, reduceCtorEq, false_iff]
    split
    · exact nobody holder
    · rename_i apart
      intro owned
      have other := (sound holder number).mpr owned
      rw [held] at other
      exact apart (Option.some.inj other).symm
  · simp only [Table.mark, Function.update_of_ne same, Function.update_apply]
    split
    · rename_i equal
      subst equal
      constructor
      · intro holds
        exact absurd (sound.injective holds held) same
      · intro noted
        exact absurd noted (nobody holder)
    · exact sound holder number

/-- A release keeps variables and owners in agreement, as it clears both sides of one descriptor. -/
theorem Sound.release (sound : table.Sound) (object : H) : (table.release object).Sound := by
  rw [Table.release]
  split
  · exact sound
  · rename_i descriptor held
    exact sound.letGo held none (by simp)

/-- So does an abandonment, which moves the descriptor from the object to the lost ones. -/
theorem Sound.abandon (sound : table.Sound) (object : H) : (table.abandon object).Sound := by
  rw [Table.abandon]
  split
  · exact sound
  · rename_i descriptor held
    exact sound.letGo held (some .lost) (by simp)

/-- An object without a descriptor can be given one that no object has. -/
theorem Sound.give (sound : table.Sound) (free : table.handle object = none)
    (unheld : ∀ holder, table.owner descriptor ≠ some (.holder holder)) :
    (table.give object descriptor).Sound := by
  intro holder number
  by_cases same : holder = object
  · subst same
    rw [give_handle_self]
    by_cases equal : number = descriptor
    · subst equal
      simp
    · rw [give_owner equal]
      constructor
      · intro given
        exact absurd (Option.some.inj given).symm equal
      · intro owned
        rw [(sound holder number).mpr owned] at free
        cases free
  · rw [give_handle_other same]
    by_cases equal : number = descriptor
    · subst equal
      rw [give_owner_self]
      constructor
      · intro holds
        exact absurd ((sound holder number).mp holds) (unheld holder)
      · intro noted
        cases noted
        exact absurd rfl same
    · rw [give_owner equal]
      exact sound holder number

/-! ## What is lost -/

namespace Apart

/-- A release touches nothing of others: it closes the descriptor of its object only. -/
theorem release (sound : table.Sound) (object : H) : Apart object table (table.release object) where
  sound := sound.release object
  others _ distinct := release_handle_other distinct
  outside descriptor noted := by rw [release_owner (not_held sound noted), noted]

/-- An abandonment closes nothing at all, and keeps all owners but that of its own descriptor. -/
theorem abandon (sound : table.Sound) (object : H) : Apart object table (table.abandon object) where
  sound := sound.abandon object
  others _ distinct := abandon_handle_other distinct
  outside descriptor noted := by rw [abandon_owner (not_held sound noted), noted]

/-- A new descriptor may be given to an object that has none. The kernel gives only numbers that
nobody owns. -/
theorem give (sound : table.Sound) (free : table.handle object = none)
    (unused : table.owner descriptor = none) : Apart object table (table.give object descriptor) where
  sound := sound.give free (by simp [unused])
  others _ distinct := give_handle_other distinct
  outside number noted := by
    rw [give_owner, noted]
    rintro rfl
    rw [unused] at noted
    cases noted

end Apart

/-- A number that is not in use stays so when another one is let go. -/
theorem abandon_owner_none (sound : table.Sound) (unused : table.owner descriptor = none) :
    (table.abandon object).owner descriptor = none := by
  rw [abandon_owner, unused]
  intro held
  rw [(sound object descriptor).mp held] at unused
  cases unused

variable {given : Option D} {after : Table H D}

/-- An assignment keeps what all others have, as it writes one variable and one note. -/
theorem Apart.assign (sound : table.Sound) (assigned : table.assign object given = some after) :
    Apart object table after := by
  cases given with
  | none =>
    cases assigned
    exact Apart.abandon sound object
  | some descriptor =>
    simp only [Table.assign] at assigned
    split at assigned
    · cases assigned
    · rename_i free
      cases assigned
      have unused : table.owner descriptor = none := Option.not_isSome_iff_eq_none.mp free
      exact (Apart.abandon sound object).trans (Apart.give (sound.abandon object)
        (abandon_handle_self table object) (abandon_owner_none sound unused))

end Table

end OpenTaker.DescriptorTables
