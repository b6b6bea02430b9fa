import OpenTaker.ModuleTable
import Mathlib.Algebra.BigOperators.Group.Finset.Basic
import Mathlib.Data.Nat.Find

/-!
# The registry of columns

A module registers the columns of its extended meta with `RegMySelf`. The header keeps for
each module its columns and the offset of its first one, which is what the modules before it
have added up in `g_offset`. The types are checked in the loop that writes the columns.

The array of names holds strings, and the array of types may hold NULL. `g_offset` is an
`int`, and an addition that leaves its range wraps.
-/

namespace OpenTaker

/-- `MAX_COLUMN_COUNT`: a module has so many columns at most, for which its entry has room. -/
def maxColumnCount : Int := 20

/-- The size of a column name, its terminator included. -/
def maxColumnName : Nat := 21

/-- `ModuleIndex_t`, without the module name that is kept with the header. -/
structure ModuleIndex where
  colCount : Int
  colName : Nat → List UInt8
  colType : Nat → List UInt8
  colSize : Nat → Int

/-- An entry of zero bytes, as the shared memory starts: no columns, and empty texts. -/
def ModuleIndex.zero : ModuleIndex where
  colCount := 0
  colName := fun _ => List.replicate maxColumnName 0
  colType := fun _ => List.replicate maxColumnName 0
  colSize := fun _ => 0

/-- How many characters of a column name or type are copied. -/
def columnNameSize (chars : List UInt8) : Nat := min (maxColumnName - 1) chars.length

/-- Write one column: its name, its type and its size. Texts are copied without a terminator over
what stood there. -/
def ModuleIndex.setColumn (table : ModuleIndex) (i : Nat) (name type : List UInt8) (size : Int) :
    ModuleIndex :=
  { table with
    colName := Function.update table.colName i (strncpy (table.colName i) name (columnNameSize name))
    colType := Function.update table.colType i (strncpy (table.colType i) type (columnNameSize type))
    colSize := Function.update table.colSize i size }

/-- The shared memory of a ring with its columns. -/
structure ColumnRegistry where
  ring : Ring
  /-- `g_offset`. -/
  offset : Int
  moduleIndex : Nat → ModuleIndex

/-! ## CheckColumnType -/

/-- `tolower` on the letters of ASCII, as the comparison of type names uses it. -/
def toLower (char : UInt8) : UInt8 := if 65 ≤ char ∧ char ≤ 90 then char + 32 else char

/-- Whether `stricmp` of two strings gives zero, that is whether they are equal but for the case of
their letters. -/
def stricmpZero (left right : List UInt8) : Bool := left.map toLower == right.map toLower

/-- `int`, `integer`, `text` and `numeric`: the types that a column may have, in any case of their
letters. -/
def columnTypes : List (List UInt8) :=
  [[105, 110, 116], [105, 110, 116, 101, 103, 101, 114], [116, 101, 120, 116],
    [110, 117, 109, 101, 114, 105, 99]]

/-- `CheckColumnType`: the name of a type is compared with each of the known ones. -/
def checkColumnType : Option CString → Bool
  | none => false
  | some colType => columnTypes.any (stricmpZero colType.chars)

/-! ## RegMySelf -/

/-- The arguments of one call of `RegMySelf`, with NULL for each pointer that may be missing. -/
structure RegCall where
  name : Option CString
  colNum : Int
  colName : Option (Nat → CString)
  colType : Option (Nat → Option CString)
  colSize : Option (Nat → Int)
  /-- `_offset` is not NULL. -/
  asksOffset : Bool

namespace RegCall

variable (call : RegCall) (i : Nat)

/-- One of the arrays is NULL, for which a call with columns is refused at once. -/
def missing : Bool := call.colName.isNone || call.colType.isNone || call.colSize.isNone

/-- `_colName[i]`, the name of a column as the caller gives it. -/
def nameAt : List UInt8 := (call.colName.map fun names => (names i).chars).getD []

/-- `_colType[i]`, the name of the type of a column, where the array and the entry are both there. -/
def typeAt : Option CString := call.colType.bind (· i)

/-- The characters of the type's name, or none behind the last one given. -/
def typeChars : List UInt8 := ((call.typeAt i).map CString.chars).getD []

/-- `_colSize[i]`, which is signed in the source, so that a negative size can be asked for. -/
def sizeAt : Int := (call.colSize.map (· i)).getD 0

end RegCall

/-- What `RegMySelf` returns, what it writes to `_offset`, and the memory it leaves. -/
structure RegResult where
  code : Int
  offset : Option Int
  registry : ColumnRegistry

namespace ColumnRegistry

/-- Memory as it is first mapped: no module, no column, and the next offset at zero. -/
def zero : ColumnRegistry where
  ring := Ring.zero
  offset := 0
  moduleIndex := fun _ => ModuleIndex.zero

/-- `IsRingReady`: whether the ring has been started, which is read off the number of its slots. -/
def isRingReady (registry : ColumnRegistry) : Bool := registry.ring.global.metaCount != 0

/-- The offset of a module, where zero means that it has none or that it is the first. -/
def moduleOffset (registry : ColumnRegistry) (index : Nat) : Int :=
  (registry.ring.global.moduleInfo index).offset

/-- Keep `g_offset` as the offset of a module. This comes before the columns are looked at, and is
not undone. -/
def setModuleOffset (registry : ColumnRegistry) (index : Nat) : ColumnRegistry :=
  { registry with
    ring := registry.ring.setModuleInfo index
      { registry.ring.global.moduleInfo index with offset := registry.offset } }

/-- Write one column of the call and add its size to `g_offset`. -/
def addColumn (registry : ColumnRegistry) (call : RegCall) (index i : Nat) : ColumnRegistry :=
  { registry with
    offset := Int.bmod (registry.offset + call.sizeAt i) 4294967296
    moduleIndex := Function.update registry.moduleIndex index
      ((registry.moduleIndex index).setColumn i (call.nameAt i) (call.typeChars i) (call.sizeAt i)) }

/-- The loop over the columns from one on. It ends at a type that is not valid. -/
def regColumns (call : RegCall) (index : Nat) : Nat → Nat → ColumnRegistry → Bool × ColumnRegistry
  | 0, _, registry => (true, registry)
  | remaining + 1, i, registry =>
      if checkColumnType (call.typeAt i) then
        regColumns call index remaining (i + 1) (registry.addColumn call index i)
      else (false, registry)

/-- Keep the number of columns of a module, which is stored in a `char` and wraps around outside of
its range. -/
def setColCount (registry : ColumnRegistry) (index : Nat) (colNum : Int) : ColumnRegistry :=
  { registry with
    moduleIndex := Function.update registry.moduleIndex index
      { registry.moduleIndex index with colCount := Int.bmod colNum 256 } }

/-- `RegMySelf`: register the columns of a module that is known and has no offset yet, and answer
its id. -/
def regMySelf (registry : ColumnRegistry) (call : RegCall) : RegResult :=
  if registry.isRingReady = true ∧ 0 < call.colNum then ⟨-1, none, registry⟩
  else
    match findModule registry.ring.global call.name with
    | none => ⟨-1, none, registry⟩
    | some index =>
        if maxColumnCount < call.colNum ∨ (0 < call.colNum ∧ call.missing = true) then
          ⟨-2, none, registry⟩
        else if registry.moduleOffset index ≠ 0 then
          ⟨index, if call.asksOffset then some (registry.moduleOffset index) else none, registry⟩
        else
          match regColumns call index call.colNum.toNat 0 (registry.setModuleOffset index) with
          | (false, after) => ⟨-2, none, after⟩
          | (true, after) => ⟨index, none, after.setColCount index call.colNum⟩

/-- `InitRing` on the ring, which may clear the header; with it go the column tables and the next
offset. -/
def initRing (registry : ColumnRegistry) (call : InitCall) : ColumnRegistry :=
  if (call.create .global sizeofGlobal).isSome && clearsHeader call registry.ring then
    { zero with ring := (OpenTaker.initRing call registry.ring).2 }
  else { registry with ring := (OpenTaker.initRing call registry.ring).2 }

end ColumnRegistry

/-- A call on the ring before it is started. -/
inductive RegStep where
  | initRing (call : InitCall)
  | regMySelf (call : RegCall)

namespace ColumnRegistry

/-- Perform one call. Both calls are possible in every state, and a refused one leaves its traces in
the registry. -/
def step (registry : ColumnRegistry) : RegStep → Option ColumnRegistry
  | .initRing call => some (registry.initRing call)
  | .regMySelf call => some (registry.regMySelf call).registry

end ColumnRegistry

/-! ## The loop -/

/-- The columns of a module with the first ones of a call written over them. -/
def ModuleIndex.written (table : ModuleIndex) (call : RegCall) (count : Nat) : ModuleIndex where
  colCount := table.colCount
  colName i :=
    if i < count then strncpy (table.colName i) (call.nameAt i) (columnNameSize (call.nameAt i))
    else table.colName i
  colType i :=
    if i < count then strncpy (table.colType i) (call.typeChars i) (columnNameSize (call.typeChars i))
    else table.colType i
  colSize i := if i < count then call.sizeAt i else table.colSize i

/-- The sizes of the first columns of a call. -/
def RegCall.sizeUpTo (call : RegCall) (count : Nat) : Int := ∑ i ∈ Finset.range count, call.sizeAt i

variable {call : RegCall}

/-- A call without columns writes none of them: the table of the module stays as it is. -/
theorem ModuleIndex.written_zero (table : ModuleIndex) : table.written call 0 = table := by
  simp only [written, Nat.not_lt_zero, if_false]

/-- One more column is written behind those before it, as the loop goes on from left to right. -/
theorem ModuleIndex.setColumn_written (table : ModuleIndex) (count : Nat) :
    (table.written call count).setColumn count (call.nameAt count) (call.typeChars count) (call.sizeAt count) =
      table.written call (count + 1) := by
  have column : ∀ {β : Type} (old new : Nat → β),
      Function.update (fun i => if i < count then new i else old i) count (new count) =
        fun i => if i < count + 1 then new i else old i := by
    intro β old new
    funext i
    rw [Function.update_apply]
    by_cases same : i = count
    · rw [if_pos same, if_pos (by omega), same]
    · rw [if_neg same]
      by_cases before : i < count
      · rw [if_pos before, if_pos (by omega)]
      · rw [if_neg before, if_neg (by omega)]
  simp only [setColumn, written, Nat.lt_irrefl, if_false]
  rw [ModuleIndex.mk.injEq]
  refine ⟨rfl, ?_, ?_, ?_⟩
  · exact column table.colName fun i =>
      strncpy (table.colName i) (call.nameAt i) (columnNameSize (call.nameAt i))
  · exact column table.colType fun i =>
      strncpy (table.colType i) (call.typeChars i) (columnNameSize (call.typeChars i))
  · exact column table.colSize call.sizeAt

namespace ColumnRegistry

variable {registry : ColumnRegistry} {index : Nat}

/-- The first columns of a call have been written. -/
def addColumns (registry : ColumnRegistry) (call : RegCall) (index : Nat) : Nat → ColumnRegistry
  | 0 => registry
  | count + 1 => (registry.addColumns call index count).addColumn call index count

section Loop

variable (registry call index)

/-- Adding columns writes the table of the columns and not the ring. -/
theorem addColumns_ring (count : Nat) : (registry.addColumns call index count).ring = registry.ring := by
  induction count with
  | zero => rfl
  | succ count inductionHypothesis => exact inductionHypothesis

/-- The columns of the module alone have been written over. -/
theorem addColumns_moduleIndex (count : Nat) :
    (registry.addColumns call index count).moduleIndex =
      Function.update registry.moduleIndex index ((registry.moduleIndex index).written call count) := by
  induction count with
  | zero => rw [ModuleIndex.written_zero, Function.update_eq_self, addColumns]
  | succ count inductionHypothesis =>
    rw [addColumns, addColumn, inductionHypothesis, Function.update_self, Function.update_idem,
      ModuleIndex.setColumn_written]

/-- And `g_offset` has been moved by the sizes of these columns, in 32 bits as the code adds them. -/
theorem addColumns_offset (inRange : Int.bmod registry.offset 4294967296 = registry.offset) (count : Nat) :
    (registry.addColumns call index count).offset =
      Int.bmod (registry.offset + call.sizeUpTo count) 4294967296 := by
  induction count with
  | zero => rw [RegCall.sizeUpTo, Finset.sum_range_zero, Int.add_zero, inRange, addColumns]
  | succ count inductionHypothesis =>
    rw [addColumns, addColumn, inductionHypothesis, Int.bmod_add_bmod, RegCall.sizeUpTo, RegCall.sizeUpTo,
      Finset.sum_range_succ, Int.add_assoc]

/-- The loop over valid types writes each column in turn and ends with success, having moved
`g_offset` by all sizes. -/
theorem regColumns_valid (remaining i : Nat)
    (valid : ∀ column, i ≤ column → column < i + remaining → checkColumnType (call.typeAt column) = true) :
    regColumns call index remaining i (registry.addColumns call index i) =
      (true, registry.addColumns call index (i + remaining)) := by
  induction remaining generalizing i with
  | zero => rfl
  | succ remaining inductionHypothesis =>
    rw [regColumns, if_pos (valid i (Nat.le_refl i) (by omega))]
    have further := inductionHypothesis (i + 1) fun column after before =>
      valid column (by omega) (by omega)
    rw [addColumns] at further
    rw [further, show i + 1 + remaining = i + (remaining + 1) by omega]

/-- The loop ends at the first type that is not valid, with the columns before it written. -/
theorem regColumns_invalid {bad : Nat} (remaining i : Nat) (reached : i ≤ bad) (inside : bad < i + remaining)
    (invalid : checkColumnType (call.typeAt bad) = false)
    (valid : ∀ column, i ≤ column → column < bad → checkColumnType (call.typeAt column) = true) :
    regColumns call index remaining i (registry.addColumns call index i) =
      (false, registry.addColumns call index bad) := by
  induction remaining generalizing i with
  | zero => omega
  | succ remaining inductionHypothesis =>
    rw [regColumns]
    by_cases here : i = bad
    · rw [here, if_neg (by rw [invalid]; exact Bool.false_ne_true)]
    · rw [if_pos (valid i (Nat.le_refl i) (by omega))]
      have further := inductionHypothesis (i + 1) (by omega) (by omega) fun column after before =>
        valid column (by omega) before
      rwa [addColumns] at further

end Loop

/-! ## What a call does -/

/-- The call is refused before anything is written: the ring is ready, the module is unknown, there
are too many columns, or an array is missing. -/
def RefusedEarly (registry : ColumnRegistry) (call : RegCall) : Prop :=
  registry.isRingReady = true ∧ 0 < call.colNum ∨ findModule registry.ring.global call.name = none ∨
    maxColumnCount < call.colNum ∨ 0 < call.colNum ∧ call.missing = true

/-- The columns of the call are all valid, so that the loop goes through to the last one. -/
def AllValid (call : RegCall) : Prop :=
  ∀ column < call.colNum.toNat, checkColumnType (call.typeAt column) = true

/-- The first type that is not valid: the columns in front of it are written before the call is
refused. -/
structure FirstInvalid (call : RegCall) (bad : Nat) : Prop where
  inside : bad < call.colNum.toNat
  invalid : checkColumnType (call.typeAt bad) = false
  valid : ∀ column < bad, checkColumnType (call.typeAt column) = true

/-- There is only one first invalid column, so that the place where the loop stops is determined. -/
theorem FirstInvalid.unique {bad other : Nat} (first : FirstInvalid call bad)
    (again : FirstInvalid call other) : bad = other := by
  have notBefore : ¬ bad < other := fun before =>
    Bool.false_ne_true (first.invalid.symm.trans (again.valid bad before))
  have notBehind : ¬ other < bad := fun before =>
    Bool.false_ne_true (again.invalid.symm.trans (first.valid other before))
  omega

/-- The types are all valid, or one of them is the first that is not. -/
theorem allValid_or_firstInvalid (call : RegCall) : AllValid call ∨ ∃ bad, FirstInvalid call bad := by
  by_cases valid : AllValid call
  · exact .inl valid
  · simp only [AllValid, not_forall, Bool.not_eq_true] at valid
    have some : ∃ bad, bad < call.colNum.toNat ∧ checkColumnType (call.typeAt bad) = false := by
      obtain ⟨bad, inside, invalid⟩ := valid
      exact ⟨bad, inside, invalid⟩
    obtain ⟨inside, invalid⟩ := Nat.find_spec some
    refine .inr ⟨Nat.find some, inside, invalid, fun column before => ?_⟩
    by_contra isInvalid
    rw [Bool.not_eq_true] at isInvalid
    exact Nat.find_min some before ⟨by omega, isInvalid⟩

/-- A call that is refused early has written nothing: the tests in front of the loop fail. -/
theorem regMySelf_early (early : RefusedEarly registry call) :
    (registry.regMySelf call).code < 0 ∧ (registry.regMySelf call).registry = registry := by
  rw [regMySelf]
  split
  · exact ⟨(by decide : (-1 : Int) < 0), rfl⟩
  rename_i notReady
  split
  · exact ⟨(by decide : (-1 : Int) < 0), rfl⟩
  rename_i found
  rcases early with ready | unknown | refused
  · exact absurd ready notReady
  · rw [found] at unknown
    cases unknown
  · rw [if_pos refused]
    exact ⟨(by decide : (-2 : Int) < 0), rfl⟩

section Accepted

variable (admitted : ¬ RefusedEarly registry call)
  (found : findModule registry.ring.global call.name = some index)

include admitted found

/-- A module that has an offset keeps everything: the call gives this offset back and looks at no
column. -/
theorem regMySelf_registered (registered : registry.moduleOffset index ≠ 0) :
    registry.regMySelf call =
      ⟨index, if call.asksOffset then some (registry.moduleOffset index) else none, registry⟩ := by
  simp only [RefusedEarly, not_or] at admitted
  obtain ⟨notReady, -, few⟩ := admitted
  simp only [regMySelf, if_neg notReady, found, if_neg (not_or.mpr few), if_pos registered]

/-- The other calls run the loop over the columns, which writes as it tests. -/
theorem regMySelf_loop (unregistered : registry.moduleOffset index = 0) :
    registry.regMySelf call =
      match regColumns call index call.colNum.toNat 0 (registry.setModuleOffset index) with
      | (false, after) => ⟨-2, none, after⟩
      | (true, after) => ⟨index, none, after.setColCount index call.colNum⟩ := by
  simp only [RefusedEarly, not_or] at admitted
  obtain ⟨notReady, -, few⟩ := admitted
  simp only [regMySelf, if_neg notReady, found, if_neg (not_or.mpr few), unregistered, ne_eq,
    not_true_eq_false, if_false]

/-- With valid types the call writes all columns of a module that has no offset, and their number
behind them. -/
theorem regMySelf_valid (unregistered : registry.moduleOffset index = 0) (valid : AllValid call) :
    registry.regMySelf call = ⟨index, none, ((registry.setModuleOffset index).addColumns call index
      call.colNum.toNat).setColCount index call.colNum⟩ := by
  have loop := regColumns_valid call (registry.setModuleOffset index) index
    call.colNum.toNat 0 fun column _ before => valid column (by omega)
  rw [Nat.zero_add, addColumns] at loop
  rw [regMySelf_loop admitted found unregistered, loop]

/-- Otherwise the loop stops in the middle, with the columns in front of the invalid one already
written. -/
theorem regMySelf_invalid (unregistered : registry.moduleOffset index = 0) {bad : Nat}
    (first : FirstInvalid call bad) :
    registry.regMySelf call = ⟨-2, none, (registry.setModuleOffset index).addColumns call index bad⟩ := by
  have inside := first.inside
  have loop := regColumns_invalid call (registry.setModuleOffset index) index
    call.colNum.toNat 0 (Nat.zero_le bad) (by omega) first.invalid fun column _ => first.valid column
  rw [addColumns] at loop
  rw [regMySelf_loop admitted found unregistered, loop]

end Accepted

end ColumnRegistry

end OpenTaker
