import OpenTaker.ColumnRegistry

/-!
# Refused registrations

`RegMySelf` keeps the offset of the module and writes columns before it has seen each type.
A call that meets a type that is not valid returns an error and leaves all that it has
written.
-/

namespace OpenTaker

variable {call : RegCall}

/-- A column stands in the table as the call would write it. -/
structure ColumnStored (table : ModuleIndex) (call : RegCall) (i : Nat) : Prop where
  name : strncpy (table.colName i) (call.nameAt i) (columnNameSize (call.nameAt i)) = table.colName i
  type : strncpy (table.colType i) (call.typeChars i) (columnNameSize (call.typeChars i)) = table.colType i
  size : call.sizeAt i = table.colSize i

/-- Writing the first columns changes nothing just if they are there. -/
theorem written_eq_self_iff (table : ModuleIndex) (count : Nat) :
    table.written call count = table ↔ ∀ i < count, ColumnStored table call i := by
  constructor
  · intro same i before
    have names := congrFun (congrArg ModuleIndex.colName same) i
    have types := congrFun (congrArg ModuleIndex.colType same) i
    have sizes := congrFun (congrArg ModuleIndex.colSize same) i
    simp only [ModuleIndex.written, if_pos before] at names types sizes
    exact ⟨names, types, sizes⟩
  · intro stored
    obtain ⟨colCount, colName, colType, colSize⟩ := table
    rw [ModuleIndex.written, ModuleIndex.mk.injEq]
    refine ⟨rfl, funext fun i => ?_, funext fun i => ?_, funext fun i => ?_⟩
    · split
      · exact (stored i (by assumption)).name
      · rfl
    · split
      · exact (stored i (by assumption)).type
      · rfl
    · split
      · exact (stored i (by assumption)).size
      · rfl

namespace ColumnRegistry

variable {registry : ColumnRegistry} {index : Nat}

/-- A module at the offset that it is given. -/
theorem setModuleOffset_eq_self (same : registry.moduleOffset index = registry.offset) :
    registry.setModuleOffset index = registry := by
  have entry : { registry.ring.global.moduleInfo index with offset := registry.offset } =
      registry.ring.global.moduleInfo index := by
    rw [← same]
    rfl
  rw [setModuleOffset, Ring.setModuleInfo, entry, Function.update_eq_self]

/-- The module's offset is the next free one, as it is entered before the columns are looked at. -/
theorem setModuleOffset_offset (registry : ColumnRegistry) (index : Nat) :
    (registry.setModuleOffset index).moduleOffset index = registry.offset := by
  simp only [setModuleOffset, moduleOffset, setModuleInfo_self]

/-- A call that is refused leaves nothing behind: it is refused before it writes anything,
or the columns in front of the first bad type are in the table already, nothing has been
registered behind them and their sizes add up to nothing. -/
inductive LeavesNothing (registry : ColumnRegistry) (call : RegCall) : Prop where
  | early (refused : RefusedEarly registry call)
  | stored (index bad : Nat) (found : findModule registry.ring.global call.name = some index)
      (first : FirstInvalid call bad) (nothing : registry.offset = 0)
      (columns : ∀ i < bad, ColumnStored (registry.moduleIndex index) call i)
      (sizes : Int.bmod (call.sizeUpTo bad) 4294967296 = 0)

/-- What a call has written before the first bad type is nothing just if the table had it. -/
theorem addColumns_eq_self_iff (unregistered : registry.moduleOffset index = 0) (bad : Nat) :
    (registry.setModuleOffset index).addColumns call index bad = registry ↔
      registry.offset = 0 ∧ (∀ i < bad, ColumnStored (registry.moduleIndex index) call i) ∧
        Int.bmod (call.sizeUpTo bad) 4294967296 = 0 := by
  have tables := addColumns_moduleIndex call (registry.setModuleOffset index) index bad
  constructor
  · intro same
    have ring : (registry.setModuleOffset index).ring = registry.ring := by
      rw [← addColumns_ring call (registry.setModuleOffset index) index bad, same]
    have nothing : registry.offset = 0 := by
      rw [← setModuleOffset_offset registry index, moduleOffset, ring]
      exact unregistered
    refine ⟨nothing, ?_, ?_⟩
    · rw [same] at tables
      have table := congrFun tables index
      rw [Function.update_self] at table
      exact (written_eq_self_iff _ bad).mp table.symm
    · have sum := addColumns_offset call (registry.setModuleOffset index) index
        (by rw [setModuleOffset, nothing]; rfl) bad
      rw [same, setModuleOffset, nothing, Int.zero_add] at sum
      exact sum.symm
  · rintro ⟨nothing, columns, sizes⟩
    have unmoved := setModuleOffset_eq_self (unregistered.trans nothing.symm)
    rw [unmoved] at tables ⊢
    have ring := addColumns_ring call registry index bad
    have sum := addColumns_offset call registry index (by rw [nothing]; rfl) bad
    rw [nothing, Int.zero_add, sizes, ← nothing] at sum
    rw [(written_eq_self_iff _ bad).mpr columns, Function.update_eq_self] at tables
    cases after : registry.addColumns call index bad with
    | mk afterRing afterOffset afterIndex =>
      rw [after] at ring sum tables
      cases registry
      cases ring
      cases sum
      cases tables
      rfl

/-- **Refused registrations.** A call that returns an error changes nothing just if it leaves
nothing behind: it is refused in front of the loop, or the columns in front of the first bad type
were in the table already and add no size. -/
theorem rejected_unchanged_iff (registry : ColumnRegistry) (call : RegCall)
    (rejected : (registry.regMySelf call).code < 0) :
    (registry.regMySelf call).registry = registry ↔ LeavesNothing registry call := by
  by_cases admitted : RefusedEarly registry call
  · exact ⟨fun _ => .early admitted, fun _ => (regMySelf_early admitted).2⟩
  cases found : findModule registry.ring.global call.name with
  | none => exact absurd (.inr (.inl found)) admitted
  | some index =>
    by_cases unregistered : registry.moduleOffset index = 0
    · rcases allValid_or_firstInvalid call with valid | ⟨bad, first⟩
      · rw [regMySelf_valid admitted found unregistered valid] at rejected
        exact absurd rejected (by simp)
      · rw [regMySelf_invalid admitted found unregistered first]
        rw [addColumns_eq_self_iff unregistered]
        constructor
        · rintro ⟨nothing, columns, sizes⟩
          exact .stored index bad found first nothing columns sizes
        · rintro (refused | ⟨other, otherBad, otherFound, otherFirst, nothing, columns, sizes⟩)
          · exact absurd refused admitted
          · obtain rfl := Option.some.inj (found.symm.trans otherFound)
            obtain rfl := first.unique otherFirst
            exact ⟨nothing, columns, sizes⟩
    · rw [regMySelf_registered admitted found unregistered] at rejected
      exact absurd rejected (by simp)

/-- A module that has attached to a ring, with no columns registered yet. -/
def attached : ColumnRegistry := zero.initRing smallCall

/-- `int`, the name of a type that is accepted. -/
def intType : CString := ⟨[105, 110, 116], by simp⟩

/-- Two columns of four bytes, the second of a type that is not supported. -/
def secondInvalid : RegCall where
  name := some nameA
  colNum := 2
  colName := some fun _ => nameA
  colType := some fun i => some (if i = 0 then intType else nameA)
  colSize := some fun _ => 4
  asksOffset := false

/-- Both sides of the equivalence for a second call with an invalid type: the columns were written
before it was refused. -/
theorem rejected_unchanged_iff_second :
    (attached.regMySelf secondInvalid).registry = attached ↔ LeavesNothing attached secondInvalid :=
  rejected_unchanged_iff attached secondInvalid (by decide)

/-- The call is refused, and the first column stays in the registry with its size. -/
theorem rejected_adds_size : ¬ ∀ (labels : List RegStep) (registry : ColumnRegistry),
    Runs.run step zero labels = some registry → ∀ call, (registry.regMySelf call).code < 0 →
      (registry.regMySelf call).registry = registry := by
  intro everywhere
  have same := everywhere [.initRing smallCall] attached rfl secondInvalid (by decide)
  have offset : (attached.regMySelf secondInvalid).registry.offset = 4 := by decide
  rw [same] at offset
  revert offset
  decide

end ColumnRegistry

end OpenTaker
