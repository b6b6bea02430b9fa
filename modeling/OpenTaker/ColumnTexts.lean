import OpenTaker.ColumnRegistry
import OpenTaker.CStrings
import OpenTaker.Runs
import Mathlib.Data.List.TakeWhile

/-!
# The registered columns as they are read

`GetModuleIndex` copies the entries of the column tables. Their names and types are arrays
of a fixed size which `RegMySelf` writes with `strncpy` of no more characters than the text
has, so no terminator is written: what is read is the new text with the end of a longer
older one behind it. The last byte of an array is never written, and the arrays of a fresh
header are zero, so every array holds a string.

An entry stays as it was written until the header is cleared or a call writes the columns of the
same module again.
-/

namespace OpenTaker

open CStrings

/-! ## Strings in arrays -/

/-- A string in an array of a fixed size, with zeros behind it. -/
def padded (size : Nat) (chars : List UInt8) : List UInt8 :=
  chars ++ List.replicate (size - chars.length) 0

/-- The characters fit into an array with a terminator. -/
structure FitsIn (size : Nat) (chars : List UInt8) : Prop where
  short : chars.length < size
  noZero : ∀ char ∈ chars, char ≠ 0

/-- A text written over an older one, which keeps the end of a longer one. -/
def overlaid (text old : List UInt8) : List UInt8 := text ++ old.drop text.length

section Arrays

variable {size count : Nat} {chars text old : List UInt8}

/-- What is read of an array is the string it holds. -/
theorem cString_padded (fits : FitsIn size chars) : cString (padded size chars) = chars := by
  obtain ⟨rest, room⟩ : ∃ rest, size - chars.length = rest + 1 :=
    ⟨size - chars.length - 1, by have := fits.short; omega⟩
  have whole : cString chars = chars := by
    rw [cString, List.takeWhile_eq_self_iff]
    simpa using fits.noZero
  rw [padded, room, List.replicate_succ, cString_append_zero, whole]

/-- A text written over an older one fits when both did, as the longer of the two decides where it
ends. -/
theorem FitsIn.overlaid (fits : FitsIn size text) (older : FitsIn size old) :
    FitsIn size (overlaid text old) where
  short := by
    have short := fits.short
    have olderShort := older.short
    rw [OpenTaker.overlaid, List.length_append, List.length_drop]
    omega
  noZero char member := by
    rcases List.mem_append.mp member with new | kept
    · exact fits.noZero char new
    · exact older.noZero char (List.mem_of_mem_drop kept)

/-- `strncpy` of as many characters as the text has writes the text over the older one. -/
theorem strncpy_padded (short : text.length < size) (older : old.length < size) :
    strncpy (padded size old) text text.length = padded size (overlaid text old) := by
  rw [strncpy, padded, padded, overlaid, List.take_length, List.append_assoc, List.drop_append,
    List.drop_replicate]
  congr 3
  rw [List.length_append, List.length_drop]
  omega

/-- The empty text fits in every array that has a byte for the terminator. -/
theorem fitsIn_nil (positive : 0 < size) : FitsIn size [] := ⟨positive, by simp⟩

end Arrays

/-- The characters of a column's name or type that are kept. -/
def columnText (chars : List UInt8) : List UInt8 := chars.take (columnNameSize chars)

/-- The part of a name that is copied fits in its array, because the copy is cut to the array's size
less one. -/
theorem columnText_fits {chars : List UInt8} (noZero : ∀ char ∈ chars, char ≠ 0) :
    FitsIn maxColumnName (columnText chars) where
  short := by
    rw [columnText, List.length_take, columnNameSize, maxColumnName]
    omega
  noZero char member := noZero char (List.mem_of_mem_take member)

/-- What `RegMySelf` does to the array of a name or a type. -/
theorem strncpy_columnText {chars old : List UInt8} (noZero : ∀ char ∈ chars, char ≠ 0)
    (older : FitsIn maxColumnName old) :
    strncpy (padded maxColumnName old) chars (columnNameSize chars) =
      padded maxColumnName (overlaid (columnText chars) old) := by
  have length : (columnText chars).length = columnNameSize chars := by
    rw [columnText, List.length_take]
    exact Nat.min_eq_left (Nat.min_le_right _ _)
  have same := strncpy_padded (columnText_fits noZero).short older.short
  rw [length, strncpy, ← length, List.take_length] at same
  rw [strncpy, ← columnText, ← length, same]

/-- The name of a column comes from a C string, or is empty behind the last name, so that it has no
terminator inside. -/
theorem RegCall.nameAt_noZero (call : RegCall) (i : Nat) : ∀ char ∈ call.nameAt i, char ≠ 0 := by
  intro char member
  cases names : call.colName with
  | none => simp [RegCall.nameAt, names] at member
  | some texts =>
    simp only [RegCall.nameAt, names, Option.map_some, Option.getD_some] at member
    exact (texts i).noZero char member

/-- The name of a type comes from a C string as well. -/
theorem RegCall.typeChars_noZero (call : RegCall) (i : Nat) : ∀ char ∈ call.typeChars i, char ≠ 0 := by
  intro char member
  cases type : call.typeAt i with
  | none => simp [RegCall.typeChars, type] at member
  | some text =>
    simp only [RegCall.typeChars, type, Option.map_some, Option.getD_some] at member
    exact text.noZero char member

/-! ## The entries -/

/-- One entry that `GetModuleIndex` gives: the module's name and its columns. -/
structure ModuleIndexEntry where
  moduleName : List UInt8
  columns : ModuleIndex

namespace ModuleIndex

variable (table : ModuleIndex) (i : Nat)

/-- The name of a column as a reader sees it. -/
def nameText : List UInt8 := cString (table.colName i)

/-- The type of a column as a reader sees it. -/
def typeText : List UInt8 := cString (table.colType i)

/-- Each array holds a string that fits in it, with zeros behind it up to the end of the array. -/
structure Textual (table : ModuleIndex) : Prop where
  names : ∀ i, ∃ chars, FitsIn maxColumnName chars ∧ table.colName i = padded maxColumnName chars
  types : ∀ i, ∃ chars, FitsIn maxColumnName chars ∧ table.colType i = padded maxColumnName chars

variable {table}

/-- A table of zero bytes shows empty texts everywhere, so that the run begins with arrays that hold
strings. -/
theorem zero_textual : zero.Textual where
  names _ := ⟨[], fitsIn_nil (by decide), rfl⟩
  types _ := ⟨[], fitsIn_nil (by decide), rfl⟩

/-- Writing columns leaves strings, as every text is copied with fewer bytes than its array has. -/
theorem Textual.written (textual : table.Textual) (call : RegCall) (count : Nat) :
    (table.written call count).Textual where
  names i := by
    obtain ⟨old, fits, same⟩ := textual.names i
    simp only [ModuleIndex.written]
    split
    · exact ⟨_, (columnText_fits (call.nameAt_noZero i)).overlaid fits,
        same ▸ strncpy_columnText (call.nameAt_noZero i) fits⟩
    · exact ⟨old, fits, same⟩
  types i := by
    obtain ⟨old, fits, same⟩ := textual.types i
    simp only [ModuleIndex.written]
    split
    · exact ⟨_, (columnText_fits (call.typeChars_noZero i)).overlaid fits,
        same ▸ strncpy_columnText (call.typeChars_noZero i) fits⟩
    · exact ⟨old, fits, same⟩

/-- A column that is written reads as its text over the older one. -/
theorem Textual.nameText_written (textual : table.Textual) (call : RegCall) {count : Nat}
    (inside : i < count) :
    (table.written call count).nameText i =
      overlaid (columnText (call.nameAt i)) (table.nameText i) := by
  obtain ⟨old, fits, same⟩ := textual.names i
  have noZero := call.nameAt_noZero i
  simp only [nameText, ModuleIndex.written, if_pos inside, same]
  rw [strncpy_columnText noZero fits, cString_padded ((columnText_fits noZero).overlaid fits),
    cString_padded fits]

/-- The type of a column after the call: its first characters over what stood there. -/
theorem Textual.typeText_written (textual : table.Textual) (call : RegCall) {count : Nat}
    (inside : i < count) :
    (table.written call count).typeText i =
      overlaid (columnText (call.typeChars i)) (table.typeText i) := by
  obtain ⟨old, fits, same⟩ := textual.types i
  have noZero := call.typeChars_noZero i
  simp only [typeText, ModuleIndex.written, if_pos inside, same]
  rw [strncpy_columnText noZero fits, cString_padded ((columnText_fits noZero).overlaid fits),
    cString_padded fits]

end ModuleIndex

namespace ColumnRegistry

/-- `GetModuleIndex`: the entries that it appends, one for each registered module, with its name and
its columns. -/
def getModuleIndex (registry : ColumnRegistry) : List ModuleIndexEntry :=
  (List.range registry.ring.global.index).map fun i =>
    ⟨registry.ring.global.moduleIndexName i, registry.moduleIndex i⟩

/-- `InitRing` would register a module behind the last entry of the table. -/
def overfills (call : InitCall) (ring : Ring) : Bool :=
  match call.moduleName with
  | none => false
  | some name =>
      (findModule (openRing call ring).global (some name)).isNone &&
        decide (maxModuleCount ≤ (openRing call ring).global.index)

/-- Perform one call that stays inside the table. A call of `InitRing` for a 21st module writes
behind it and is no step. -/
def tableStep (registry : ColumnRegistry) : RegStep → Option ColumnRegistry
  | .initRing call => if overfills call registry.ring then none else some (registry.initRing call)
  | .regMySelf call => some (registry.regMySelf call).registry

/-- The call clears the header, because it resets the ring or finds no module registered. -/
def Clears (registry : ColumnRegistry) (call : InitCall) : Prop :=
  (call.create .global sizeofGlobal).isSome = true ∧ clearsHeader call registry.ring = true

/-- The call leaves the columns of a module alone: it does not clear the header, and it is for
another module or for one that has an offset. -/
def LeavesColumns (index : Nat) (registry : ColumnRegistry) : RegStep → Prop
  | .initRing call => ¬ registry.Clears call
  | .regMySelf call =>
      findModule registry.ring.global call.name ≠ some index ∨ registry.moduleOffset index ≠ 0

/-- All arrays of the registry hold strings, which is so from the start and stays so. -/
def AllTextual (registry : ColumnRegistry) : Prop := ∀ index, (registry.moduleIndex index).Textual

variable {registry next : ColumnRegistry} {call : RegCall} {index : Nat} {label : RegStep}

/-- `RegMySelf` writes the first columns of one module that has no offset, and perhaps their
number, or no column at all. -/
theorem regMySelf_moduleIndex (registry : ColumnRegistry) (call : RegCall) :
    (registry.regMySelf call).registry.moduleIndex = registry.moduleIndex ∨
      ∃ index count colCount, findModule registry.ring.global call.name = some index ∧
        registry.moduleOffset index = 0 ∧
        (registry.regMySelf call).registry.moduleIndex = Function.update registry.moduleIndex index
          { (registry.moduleIndex index).written call count with colCount := colCount } := by
  by_cases early : RefusedEarly registry call
  · exact .inl (by rw [(regMySelf_early early).2])
  have known : findModule registry.ring.global call.name ≠ none := fun unknown =>
    early (.inr (.inl unknown))
  obtain ⟨index, found⟩ := Option.ne_none_iff_exists'.mp known
  by_cases unregistered : registry.moduleOffset index = 0
  · refine .inr ⟨index, ?_⟩
    rcases allValid_or_firstInvalid call with valid | ⟨bad, first⟩
    · refine ⟨call.colNum.toNat, Int.bmod call.colNum 256, found, unregistered, ?_⟩
      rw [regMySelf_valid early found unregistered valid]
      simp only [setColCount, addColumns_moduleIndex, setModuleOffset, Function.update_self,
        Function.update_idem]
    · refine ⟨bad, (registry.moduleIndex index).colCount, found, unregistered, ?_⟩
      rw [regMySelf_invalid early found unregistered first]
      simp only [addColumns_moduleIndex, setModuleOffset]
      rfl
  · exact .inl (by rw [regMySelf_registered early found unregistered])

/-- `InitRing` clears the columns of all modules where it clears the header of the ring, and keeps
them all elsewhere. -/
theorem initRing_moduleIndex (registry : ColumnRegistry) (call : InitCall) :
    (registry.initRing call).moduleIndex =
      if (call.create .global sizeofGlobal).isSome && clearsHeader call registry.ring then
        fun _ => ModuleIndex.zero
      else registry.moduleIndex := by
  rw [initRing]
  split <;> rfl

/-- In a registry of zero bytes every table shows texts. -/
theorem allTextual_zero : zero.AllTextual := fun _ => ModuleIndex.zero_textual

/-- Every call leaves strings in all arrays, as one byte less is copied than the array has, and the
last one stays zero. -/
theorem AllTextual.step (textual : registry.AllTextual)
    (stepped : registry.tableStep label = some next) : next.AllTextual := by
  cases label with
  | initRing call =>
    simp only [tableStep] at stepped
    split at stepped
    · cases stepped
    · cases stepped
      intro index
      rw [initRing_moduleIndex]
      split
      · exact ModuleIndex.zero_textual
      · exact textual index
  | regMySelf call =>
    cases stepped
    intro other
    rcases regMySelf_moduleIndex registry call with kept | ⟨index, count, colCount, -, -, written⟩
    · rw [kept]
      exact textual other
    · rw [written]
      by_cases same : other = index
      · subst same
        rw [Function.update_self]
        have columns := (textual other).written call count
        exact ⟨columns.names, columns.types⟩
      · rw [Function.update_of_ne same]
        exact textual other

/-- A call that leaves the columns of a module leaves its entry. -/
theorem LeavesColumns.step (leaves : LeavesColumns index registry label)
    (stepped : registry.tableStep label = some next) :
    next.moduleIndex index = registry.moduleIndex index := by
  cases label with
  | initRing call =>
    simp only [tableStep] at stepped
    split at stepped
    · cases stepped
    · cases stepped
      rw [initRing_moduleIndex, if_neg]
      rw [Bool.and_eq_true]
      exact leaves
  | regMySelf call =>
    cases stepped
    rcases regMySelf_moduleIndex registry call with kept | ⟨other, count, colCount, found, offset, written⟩
    · rw [kept]
    · rw [written, Function.update_of_ne]
      rintro rfl
      exact leaves.elim (fun another => another found) fun registered => registered offset

/-- A call that answers the id of a module without an offset has written all its columns. -/
theorem regMySelf_accepted (accepted : (registry.regMySelf call).code = index)
    (unregistered : registry.moduleOffset index = 0) :
    (registry.regMySelf call).registry.moduleIndex index =
      { (registry.moduleIndex index).written call call.colNum.toNat with
        colCount := Int.bmod call.colNum 256 } := by
  have admitted : ¬ RefusedEarly registry call := fun early => by
    have refused := (regMySelf_early early).1
    omega
  have known : findModule registry.ring.global call.name ≠ none := fun unknown =>
    admitted (.inr (.inl unknown))
  obtain ⟨other, found⟩ := Option.ne_none_iff_exists'.mp known
  by_cases otherOffset : registry.moduleOffset other = 0
  · rcases allValid_or_firstInvalid call with valid | ⟨bad, first⟩
    · have result := regMySelf_valid admitted found otherOffset valid
      have same : other = index := by
        rw [result] at accepted
        exact Int.ofNat_inj.mp accepted
      subst same
      rw [result]
      simp only [setColCount, addColumns_moduleIndex, setModuleOffset, Function.update_self]
    · rw [regMySelf_invalid admitted found otherOffset first] at accepted
      simp only at accepted
      omega
  · rw [regMySelf_registered admitted found otherOffset] at accepted
    have same : other = index := Int.ofNat_inj.mp accepted
    exact absurd unregistered (same ▸ otherOffset)

/-- The number of columns of an accepted call is kept as it is. -/
theorem colCount_accepted (accepted : (registry.regMySelf call).code = index)
    (counted : 0 ≤ call.colNum) : Int.bmod call.colNum 256 = call.colNum := by
  have admitted : ¬ RefusedEarly registry call := fun early => by
    have refused := (regMySelf_early early).1
    omega
  have few : call.colNum ≤ maxColumnCount := by
    by_contra many
    exact admitted (.inr (.inr (.inl (Int.not_le.mp many))))
  rw [maxColumnCount] at few
  apply Int.bmod_eq_of_le <;> omega

/-- What a reader sees of the columns of a call: their number, their names and types written
over what stood there, and their sizes. -/
structure ShowsColumns (call : RegCall) (older shown : ModuleIndex) : Prop where
  count : shown.colCount = call.colNum
  names : ∀ i < call.colNum.toNat,
    shown.nameText i = overlaid (columnText (call.nameAt i)) (older.nameText i)
  types : ∀ i < call.colNum.toNat,
    shown.typeText i = overlaid (columnText (call.typeChars i)) (older.typeText i)
  sizes : ∀ i < call.colNum.toNat, shown.colSize i = call.sizeAt i

/-- In every run of calls, when `RegMySelf` has answered the id of a module that had no offset,
its entry among those that `GetModuleIndex` gives shows the columns of the call, until the
header is cleared or columns of the module are written again. -/
theorem columns_read_back (before after : List RegStep) (middle final : ColumnRegistry)
    (call : RegCall) (index : Nat) (ran : Runs.run tableStep zero before = some middle)
    (accepted : (middle.regMySelf call).code = index) (unregistered : middle.moduleOffset index = 0)
    (counted : 0 ≤ call.colNum)
    (left : Runs.Meets tableStep (LeavesColumns index) (middle.regMySelf call).registry after)
    (continued : Runs.run tableStep (middle.regMySelf call).registry after = some final)
    (inside : index < final.ring.global.index) :
    ∃ entry, final.getModuleIndex[index]? = some entry ∧
      ShowsColumns call (middle.moduleIndex index) entry.columns := by
  have textual := Runs.run_invariant tableStep AllTextual
    (fun _ _ _ textual stepped => textual.step stepped) zero middle before allTextual_zero ran
  have kept := Runs.run_invariant_meets tableStep (LeavesColumns index)
    (fun registry => registry.moduleIndex index = (middle.regMySelf call).registry.moduleIndex index)
    (fun _ _ _ same leaves stepped => (leaves.step stepped).trans same)
    (middle.regMySelf call).registry final after rfl left continued
  refine ⟨⟨final.ring.global.moduleIndexName index, final.moduleIndex index⟩, ?_, ?_⟩
  · simp [getModuleIndex, inside]
  · rw [kept, regMySelf_accepted accepted unregistered]
    exact {
      count := colCount_accepted accepted counted
      names := fun i inside => (textual index).nameText_written i call inside
      types := fun i inside => (textual index).typeText_written i call inside
      sizes := fun i inside => if_pos inside }

/-- A name of 25 characters, of which 20 are kept. -/
def longColumn : CString := ⟨List.replicate 25 67, ne_zero_of_all rfl⟩

/-- The type of the example's column, one of those that the check accepts. -/
def integerType : CString := ⟨[105, 110, 116], ne_zero_of_all rfl⟩

/-- One column of four bytes with a name that is cut. -/
def cutColumn (module : CString) : RegCall where
  name := some module
  colNum := 1
  colName := some fun _ => longColumn
  colType := some fun _ => some integerType
  colSize := some fun _ => 4
  asksOffset := false

/-- A module registers a column whose name is cut to twenty characters; then another one
attaches and registers a column of its own. -/
theorem columns_read_back_cut :
    let middle := zero.initRing smallCall
    let final := (((middle.regMySelf (cutColumn nameA)).registry.initRing (namedCall secondName)).regMySelf
      (cutColumn secondName)).registry
    ∃ entry, final.getModuleIndex[0]? = some entry ∧ entry.columns.colCount = 1 ∧
      entry.columns.nameText 0 = List.replicate 20 67 := by
  intro middle final
  obtain ⟨entry, found, shown⟩ := columns_read_back [.initRing smallCall]
    [.initRing (namedCall secondName), .regMySelf (cutColumn secondName)] middle final
    (cutColumn nameA) 0 rfl (by decide) (by decide) (by decide)
    ⟨fun clears => absurd clears.2 (by decide), fun next stepped => by
      cases stepped
      exact ⟨.inl (by decide), fun _ _ => trivial⟩⟩ rfl (by decide)
  refine ⟨entry, found, shown.count, ?_⟩
  rw [shown.names 0 (by decide)]
  decide

end ColumnRegistry

end OpenTaker
