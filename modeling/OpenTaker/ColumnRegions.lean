import OpenTaker.RefusedRegistrations
import OpenTaker.RegionTilings
import Mathlib.Algebra.Order.BigOperators.Group.Finset

/-!
# The regions of the columns

The columns of a module lie in the extended meta from the offset of the module on. The only
trace of a registration is that this offset is not zero, and the first module that registers
columns gets the offset zero: when it restarts and registers again, it is put behind all the
others.
-/

namespace OpenTaker

open RegionTilings

/-- The size of the columns of a module as the registry counts it: the sizes of all columns that it
has registered, added up. -/
def ModuleIndex.columnsSize (table : ModuleIndex) : Int :=
  ∑ i ∈ Finset.range table.colCount.toNat, table.colSize i

namespace ColumnRegistry

/-- The regions of the modules are disjoint, and together they are what `g_offset` counts. -/
def Tiled (registry : ColumnRegistry) : Prop :=
  Tiles registry.moduleOffset (fun id => (registry.moduleIndex id).columnsSize) registry.offset

/-- A call of a registered module, with columns of valid types and sizes. -/
structure ValidCall (registry : ColumnRegistry) (call : RegCall) : Prop where
  registered : findModule registry.ring.global call.name ≠ none
  few : 0 ≤ call.colNum ∧ call.colNum ≤ maxColumnCount
  present : 0 < call.colNum → call.missing = false
  types : AllValid call
  sizes : ∀ i < call.colNum.toNat, 0 ≤ call.sizeAt i ∧ call.sizeAt i < 2 ^ 31

/-- The calls before the ring is started that are considered. -/
def InDomain (registry : ColumnRegistry) : RegStep → Prop
  | .initRing _ => True
  | .regMySelf call => ValidCall registry call

/-- A call for a module that has registered columns returns the same id and offset, and
changes nothing. -/
def Idempotent (registry : ColumnRegistry) : RegStep → Prop
  | .initRing _ => True
  | .regMySelf call => ∀ index, findModule registry.ring.global call.name = some index →
      (registry.moduleIndex index).colCount ≠ 0 →
        registry.regMySelf call =
          ⟨index, if call.asksOffset then some (registry.moduleOffset index) else none, registry⟩

/-- The step does what is expected of it: a second registration gives the offset of the first, and
the regions still tile the row. -/
def Faithful (registry : ColumnRegistry) (label : RegStep) : Prop :=
  registry.Idempotent label ∧ ∀ next, registry.step label = some next → next.Tiled

/-- The call repeats, without asking for the offset, the columns of a module that stands at
zero with nothing behind it. -/
structure Repeats (registry : ColumnRegistry) (call : RegCall) (index : Nat) : Prop where
  unasked : call.asksOffset = false
  nothing : registry.offset = 0
  count : call.colNum = (registry.moduleIndex index).colCount
  columns : ∀ i < call.colNum.toNat, ColumnStored (registry.moduleIndex index) call i
  sizes : call.sizeUpTo call.colNum.toNat = 0

/-- The module has an offset that is not zero; or it has no columns, and `g_offset` has room
for those of the call; or the call repeats columns of no size. -/
def Recognised (registry : ColumnRegistry) : RegStep → Prop
  | .initRing _ => True
  | .regMySelf call => ∀ index, findModule registry.ring.global call.name = some index →
      registry.moduleOffset index ≠ 0 ∨
        ((registry.moduleIndex index).colCount = 0 ∧
          registry.offset + call.sizeUpTo call.colNum.toNat < 2 ^ 31) ∨
        registry.Repeats call index

/-- What holds while all calls are recognised: the regions tile the row, the sum stays in an int,
and the ring has not been started. -/
structure Kept (registry : ColumnRegistry) : Prop where
  tiled : registry.Tiled
  nonnegative : 0 ≤ registry.offset
  small : registry.offset < 2 ^ 31
  notReady : registry.ring.global.metaCount = 0

variable {registry : ColumnRegistry} {call : RegCall} {index : Nat}

/-! ## InitRing -/

/-- The ring is as ready as before, and each module has the offset it had. -/
structure OffsetsKept (ring next : Ring) : Prop where
  metaCount : next.global.metaCount = ring.global.metaCount
  offsets : ∀ id, (next.global.moduleInfo id).offset = (ring.global.moduleInfo id).offset

namespace OffsetsKept

/-- No offset has changed where nothing has: the relation that the steps of `InitRing` are to keep
is reflexive. -/
theorem refl (ring : Ring) : OffsetsKept ring ring := ⟨rfl, fun _ => rfl⟩

/-- Steps that keep the offsets can follow each other, as an attach does with its three mappings. -/
theorem trans {first second third : Ring} (before : OffsetsKept first second)
    (after : OffsetsKept second third) : OffsetsKept first third where
  metaCount := after.metaCount.trans before.metaCount
  offsets id := (after.offsets id).trans (before.offsets id)

/-- An entry is written with the offset that it had. -/
theorem setModuleInfo {ring : Ring} {id : Nat} {modInfo : ModuleInfo}
    (same : modInfo.offset = (ring.global.moduleInfo id).offset) :
    OffsetsKept ring (ring.setModuleInfo id modInfo) where
  metaCount := rfl
  offsets other := by
    simp only [Ring.setModuleInfo, Function.update_apply]
    split
    · rename_i isId
      rw [isId, same]
    · rfl

/-- The mapping of the block memory writes a view of the module and clears the memory, and no offset
is there. -/
theorem mapBlockView (call : InitCall) (name : CString) (index : Nat) (ring : Ring) :
    OffsetsKept ring (mapBlockView call name index ring).2 := by
  have named : OffsetsKept ring (ring.setModuleInfo index { ring.global.moduleInfo index with
      moduleName := strncpy (ring.global.moduleInfo index).moduleName name.chars (nameSize name) }) :=
    setModuleInfo rfl
  rw [OpenTaker.mapBlockView]
  split
  · exact named
  · exact named.trans (setModuleInfo rfl)

/-- The mapping of the meta memory keeps the offsets as well. -/
theorem mapMetaView (call : InitCall) (index : Nat) (ring : Ring) :
    OffsetsKept ring (mapMetaView call index ring).2 := by
  rw [OpenTaker.mapMetaView]
  split
  · exact refl ring
  · have cleared : OffsetsKept ring (if index = 0 then ring.clearMetaPool else ring) := by
      split <;> exact ⟨rfl, fun _ => rfl⟩
    exact cleared.trans (setModuleInfo rfl)

/-- And so does mapping the view of the meta blocks, which allocates a memory and writes nothing of
the registry. -/
theorem mapMetaBlkView (call : InitCall) (index : Nat) (ring : Ring) :
    OffsetsKept ring (mapMetaBlkView call index ring).2 := by
  rw [OpenTaker.mapMetaBlkView]
  split
  · exact refl ring
  · have cleared : OffsetsKept ring (if index = 0 then ring.clearMetaBlks else ring) := by
      split <;> exact ⟨rfl, fun _ => rfl⟩
    exact cleared.trans (setModuleInfo rfl)

/-- Attaching keeps the offsets, as far as it gets: a call that fails half way has written a name
and a size, but no offset. -/
theorem attachModule (call : InitCall) (name : CString) (index : Nat) (created : Bool) (ring : Ring) :
    OffsetsKept ring (attachModule call name index created ring).2 := by
  have first := mapBlockView call name index ring
  simp only [OpenTaker.attachModule]
  generalize OpenTaker.mapBlockView call name index ring = stage at first
  obtain ⟨_ | _, afterBlock⟩ := stage
  · exact first
  have second := first.trans (mapMetaView call index afterBlock)
  simp only
  generalize OpenTaker.mapMetaView call index afterBlock = stage at second
  obtain ⟨_ | _, afterMeta⟩ := stage
  · exact second
  have third := second.trans (mapMetaBlkView call index afterMeta)
  simp only
  generalize OpenTaker.mapMetaBlkView call index afterMeta = stage at third
  obtain ⟨_ | _, afterBlk⟩ := stage
  · exact third
  · exact third.trans ⟨rfl, fun _ => rfl⟩

end OffsetsKept

/-- A call keeps what the header has after it was cleared or not. -/
theorem offsetsKept_initRing {call : InitCall} (ring : Ring)
    (header : (call.create .global sizeofGlobal).isSome = true) :
    OffsetsKept (openRing call ring) (OpenTaker.initRing call ring).2 := by
  obtain ⟨address, given⟩ := Option.isSome_iff_exists.mp header
  simp only [OpenTaker.initRing, given]
  split
  · exact OffsetsKept.refl _
  · split
    · exact OffsetsKept.attachModule ..
    · exact OffsetsKept.attachModule ..

/-- A header that has been cleared does not count slots, so that the ring is not ready and
registrations are let in. -/
theorem openRing_notReady {call : InitCall} {ring : Ring} (notReady : ring.global.metaCount = 0) :
    (openRing call ring).global.metaCount = 0 := by
  simp only [openRing]
  split
  · split <;> rfl
  · split
    · rfl
    · exact notReady

/-- Without columns nothing can overlap, and there is room for all offsets. -/
theorem kept_zero : Kept zero where
  tiled := tiles_of_empty fun _ => rfl
  nonnegative := Int.le_refl 0
  small := by decide
  notReady := rfl

/-- `InitRing` clears the columns of all modules or keeps them all, and in both cases the regions
still tile the row. -/
theorem Kept.initRing (kept : Kept registry) (call : InitCall) : Kept (registry.initRing call) := by
  rw [ColumnRegistry.initRing]
  by_cases header : (call.create .global sizeofGlobal).isSome = true
  · have offsets := offsetsKept_initRing registry.ring header
    have notReady := offsets.metaCount.trans (openRing_notReady kept.notReady)
    rw [header, Bool.true_and]
    split
    · rename_i clears
      exact ⟨tiles_of_empty fun _ => rfl, Int.le_refl 0, (by decide : (0 : Int) < 2 ^ 31), notReady⟩
    · rename_i keeps
      rw [openRing_of_not_clears (Bool.eq_false_iff.mpr keeps)] at offsets
      have same : moduleOffset { registry with ring := (OpenTaker.initRing call registry.ring).2 } =
          registry.moduleOffset := funext offsets.offsets
      refine ⟨?_, kept.nonnegative, kept.small, notReady⟩
      rw [Tiled, same]
      exact kept.tiled
  · have refused : OpenTaker.initRing call registry.ring = (none, registry.ring) := by
      rw [Bool.not_eq_true, Option.isSome_eq_false_iff, Option.isNone_iff_eq_none] at header
      simp only [OpenTaker.initRing, header]
    rw [Bool.eq_false_iff.mpr header, Bool.false_and, if_neg Bool.false_ne_true, refused]
    exact kept

/-! ## RegMySelf -/

/-- Before the ring is started a valid call is not refused. -/
theorem ValidCall.admitted (valid : ValidCall registry call)
    (notReady : registry.ring.global.metaCount = 0) : ¬ RefusedEarly registry call := by
  rintro (⟨ready, -⟩ | unknown | many | ⟨columns, missing⟩)
  · rw [isRingReady, notReady] at ready
    cases ready
  · exact valid.registered unknown
  · have few := valid.few.2
    omega
  · rw [valid.present columns] at missing
    cases missing

/-- The sizes of a valid call are not negative, so that their sum is not. -/
theorem ValidCall.sizeUpTo_nonnegative (valid : ValidCall registry call) :
    0 ≤ call.sizeUpTo call.colNum.toNat :=
  Finset.sum_nonneg fun i member => (valid.sizes i (Finset.mem_range.mp member)).1

/-- The number of columns of a valid call fits into a `char`, in which the registry keeps it. -/
theorem ValidCall.colCount (valid : ValidCall registry call) : Int.bmod call.colNum 256 = call.colNum := by
  have few := valid.few
  rw [maxColumnCount] at few
  apply Int.bmod_eq_of_le
  · omega
  · omega

/-- What a call leaves behind that writes its columns: the offset of the module, the columns one by
one, and their number. -/
def registered (registry : ColumnRegistry) (call : RegCall) (index : Nat) : ColumnRegistry :=
  ((registry.setModuleOffset index).addColumns call index call.colNum.toNat).setColCount index call.colNum

/-- The module is put where `g_offset` was when the call came, which is the end of the row of those
in front of it. -/
theorem registered_moduleOffset (registry : ColumnRegistry) (call : RegCall) (index : Nat) :
    (registry.registered call index).moduleOffset =
      Function.update registry.moduleOffset index registry.offset := by
  funext id
  have ring : (registry.registered call index).ring = (registry.setModuleOffset index).ring :=
    addColumns_ring call _ index call.colNum.toNat
  simp only [moduleOffset, ring, setModuleOffset, Ring.setModuleInfo, Function.update_apply]
  split <;> rfl

/-- Its columns are those of the call, and the others have theirs. -/
theorem registered_moduleIndex (registry : ColumnRegistry) (call : RegCall) (index : Nat) :
    (registry.registered call index).moduleIndex = Function.update registry.moduleIndex index
      { (registry.moduleIndex index).written call call.colNum.toNat with
        colCount := Int.bmod call.colNum 256 } := by
  have tables := addColumns_moduleIndex call (registry.setModuleOffset index) index
    call.colNum.toNat
  rw [registered, setColCount, tables, Function.update_self, Function.update_idem]
  rfl

/-- Registering columns changes the sizes of one module only. -/
theorem registered_columnsSize (valid : ValidCall registry call) (index : Nat) :
    (fun id => ((registry.registered call index).moduleIndex id).columnsSize) =
      Function.update (fun id => (registry.moduleIndex id).columnsSize) index
        (call.sizeUpTo call.colNum.toNat) := by
  funext id
  rw [registered_moduleIndex, Function.update_apply, Function.update_apply]
  split
  · rw [ModuleIndex.columnsSize, valid.colCount, RegCall.sizeUpTo]
    refine Finset.sum_congr rfl fun i member => ?_
    simp only [ModuleIndex.written, if_pos (Finset.mem_range.mp member)]
  · rfl

/-- What `g_offset` is after a registration: the sum, as a signed number of 32 bits. -/
theorem registered_offset (call : RegCall) (index : Nat)
    (inRange : Int.bmod registry.offset 4294967296 = registry.offset) :
    (registry.registered call index).offset =
      Int.bmod (registry.offset + call.sizeUpTo call.colNum.toNat) 4294967296 :=
  addColumns_offset call (registry.setModuleOffset index) index inRange call.colNum.toNat

/-- Nothing changes just if the call repeats what is there. -/
theorem registered_eq_self_iff (kept : Kept registry) (valid : ValidCall registry call)
    (unregistered : registry.moduleOffset index = 0) :
    registry.registered call index = registry ↔
      registry.offset = 0 ∧ call.colNum = (registry.moduleIndex index).colCount ∧
        (∀ i < call.colNum.toNat, ColumnStored (registry.moduleIndex index) call i) ∧
          call.sizeUpTo call.colNum.toNat = 0 := by
  have tables := registered_moduleIndex registry call index
  constructor
  · intro same
    rw [same] at tables
    have table := congrFun tables index
    rw [Function.update_self, valid.colCount] at table
    have count : (registry.moduleIndex index).colCount = call.colNum := congrArg ModuleIndex.colCount table
    have columns : (registry.moduleIndex index).written call call.colNum.toNat =
        registry.moduleIndex index := by
      rw [← count] at table ⊢
      exact table.symm
    have nothing : registry.offset = 0 := by
      have offsets := congrFun (registered_moduleOffset registry call index) index
      rw [same, Function.update_self, unregistered] at offsets
      exact offsets.symm
    refine ⟨nothing, count.symm, (written_eq_self_iff _ _).mp columns, ?_⟩
    -- The columns are those of the call, and a module at zero has no place for them.
    have sizes := congrFun (registered_columnsSize valid index) index
    rw [same, Function.update_self] at sizes
    have empty := kept.tiled.size_le unregistered
    simp only [sizes, nothing] at empty
    have nonnegative := valid.sizeUpTo_nonnegative
    omega
  · rintro ⟨nothing, count, columns, sizes⟩
    have written := (addColumns_eq_self_iff unregistered call.colNum.toNat).mpr
      ⟨nothing, columns, by rw [sizes]; rfl⟩
    rw [registered, written, setColCount, valid.colCount, count, Function.update_eq_self]

/-- A call for a module that has an offset. -/
theorem regMySelf_of_offset (kept : Kept registry) (valid : ValidCall registry call)
    (found : findModule registry.ring.global call.name = some index)
    (hasOffset : registry.moduleOffset index ≠ 0) :
    registry.regMySelf call =
      ⟨index, if call.asksOffset then some (registry.moduleOffset index) else none, registry⟩ :=
  regMySelf_registered (valid.admitted kept.notReady) found hasOffset

/-- A call for a module that has no offset yet writes all its columns and moves `g_offset` on by
their sizes. -/
theorem regMySelf_of_zero (kept : Kept registry) (valid : ValidCall registry call)
    (found : findModule registry.ring.global call.name = some index)
    (unregistered : registry.moduleOffset index = 0) :
    registry.regMySelf call = ⟨index, none, registry.registered call index⟩ :=
  regMySelf_valid (valid.admitted kept.notReady) found unregistered valid.types

/-- What stands in an `int` is its own remainder in the signed range, so that sums are cut only
where they leave it. -/
theorem bmod_of_int {value : Int} (lower : 0 ≤ value) (upper : value < 2 ^ 31) :
    Int.bmod value 4294967296 = value := by
  apply Int.bmod_eq_of_le
  · omega
  · omega

/-- The columns of a module that has none are put behind the others, if there is room. -/
theorem tiled_registered_iff (kept : Kept registry) (valid : ValidCall registry call)
    (empty : (registry.moduleIndex index).colCount = 0) :
    (registry.registered call index).Tiled ↔
      registry.offset + call.sizeUpTo call.colNum.toNat < 2 ^ 31 := by
  have nonnegative := kept.nonnegative
  have grows := valid.sizeUpTo_nonnegative
  have noSize : (registry.moduleIndex index).columnsSize = 0 := by
    rw [ModuleIndex.columnsSize, empty, Int.toNat_zero, Finset.sum_range_zero]
  have appended := kept.tiled.append noSize nonnegative grows
  have inRange := bmod_of_int nonnegative kept.small
  rw [Tiled, registered_moduleOffset, registered_columnsSize valid, registered_offset call index inRange]
  constructor
  · intro tiled
    by_contra large
    have total := appended.total_eq tiled (by omega)
    have wrapped := @Int.bmod_lt (registry.offset + call.sizeUpTo call.colNum.toNat)
      4294967296 (by decide)
    omega
  · intro room
    rwa [bmod_of_int (by omega) room]

/-- A second registration at zero goes unnoticed just if it repeats the first. -/
theorem repeated_iff (kept : Kept registry) (valid : ValidCall registry call)
    (unregistered : registry.moduleOffset index = 0) :
    (RegResult.mk index none (registry.registered call index) =
      ⟨index, if call.asksOffset then some (registry.moduleOffset index) else none, registry⟩) ↔
        registry.Repeats call index := by
  rw [RegResult.mk.injEq, registered_eq_self_iff kept valid unregistered]
  constructor
  · rintro ⟨-, unasked, nothing, count, columns, sizes⟩
    cases asks : call.asksOffset with
    | true =>
      rw [asks] at unasked
      cases unasked
    | false => exact ⟨asks, nothing, count, columns, sizes⟩
  · rintro ⟨unasked, nothing, count, columns, sizes⟩
    rw [unasked]
    exact ⟨rfl, rfl, nothing, count, columns, sizes⟩

/-- A step does what is expected just if its call is recognised. -/
theorem faithful_iff (registry : ColumnRegistry) (label : RegStep) (kept : Kept registry)
    (valid : InDomain registry label) : registry.Faithful label ↔ registry.Recognised label := by
  cases label with
  | initRing call =>
    refine iff_of_true ⟨trivial, ?_⟩ trivial
    rintro next ⟨⟩
    exact (kept.initRing call).tiled
  | regMySelf call =>
    obtain ⟨index, found⟩ := Option.ne_none_iff_exists'.mp valid.registered
    simp only [Faithful, Idempotent, Recognised, found, Option.some.injEq, forall_eq', step]
    by_cases hasOffset : registry.moduleOffset index = 0
    · rw [regMySelf_of_zero kept valid found hasOffset]
      by_cases empty : (registry.moduleIndex index).colCount = 0
      · -- A first registration is to keep the regions apart.
        rw [tiled_registered_iff kept valid empty]
        constructor
        · exact fun faithful => .inr (.inl ⟨empty, faithful.2⟩)
        · rintro (offset | ⟨-, room⟩ | repeats)
          · exact absurd hasOffset offset
          · exact ⟨fun columns => absurd empty columns, room⟩
          · refine ⟨fun columns => absurd empty columns, ?_⟩
            rw [repeats.nothing, repeats.sizes]
            decide
      · constructor
        · exact fun faithful => .inr (.inr ((repeated_iff kept valid hasOffset).mp (faithful.1 empty)))
        · rintro (offset | ⟨none, -⟩ | repeats)
          · exact absurd hasOffset offset
          · exact absurd none empty
          · have same := (repeated_iff kept valid hasOffset).mpr repeats
            refine ⟨fun _ => same, ?_⟩
            rw [(RegResult.mk.inj same).2.2]
            exact kept.tiled
    · have called := regMySelf_of_offset kept valid found hasOffset
      refine iff_of_true ⟨fun _ => called, ?_⟩ (.inl hasOffset)
      rw [called]
      exact kept.tiled

/-- A step that is recognised keeps all that holds. -/
theorem Kept.step {next : ColumnRegistry} {label : RegStep} (kept : Kept registry)
    (valid : InDomain registry label) (recognised : registry.Recognised label)
    (stepped : registry.step label = some next) : Kept next := by
  have tiled := ((faithful_iff registry label kept valid).mpr recognised).2 next stepped
  cases label with
  | initRing call =>
    cases stepped
    exact kept.initRing call
  | regMySelf call =>
    cases stepped
    obtain ⟨index, found⟩ := Option.ne_none_iff_exists'.mp valid.registered
    by_cases hasOffset : registry.moduleOffset index = 0
    · rw [regMySelf_of_zero kept valid found hasOffset] at tiled ⊢
      have nonnegative := kept.nonnegative
      have grows := valid.sizeUpTo_nonnegative
      have room : registry.offset + call.sizeUpTo call.colNum.toNat < 2 ^ 31 := by
        rcases recognised index found with offset | ⟨-, room⟩ | repeats
        · exact absurd hasOffset offset
        · exact room
        · rw [repeats.nothing, repeats.sizes]
          decide
      have offset := registered_offset call index (bmod_of_int nonnegative kept.small)
      rw [bmod_of_int (by omega) room] at offset
      have notReady : (registry.registered call index).ring.global.metaCount = 0 := by
        have ring : (registry.registered call index).ring = (registry.setModuleOffset index).ring :=
          addColumns_ring call _ index call.colNum.toNat
        rw [ring]
        exact kept.notReady
      have lower : 0 ≤ (registry.registered call index).offset := by omega
      have upper : (registry.registered call index).offset < 2 ^ 31 := by omega
      exact ⟨tiled, lower, upper, notReady⟩
    · rw [regMySelf_of_offset kept valid found hasOffset]
      exact kept

/-- **The regions.** In every run of valid registrations each step does what is expected of it
exactly when each call is recognised. The condition looks at the registry in front of the call, and
never at what the call computes. -/
theorem registrations_iff (labels : List RegStep) (valid : Runs.Meets step InDomain zero labels) :
    Runs.Meets step Faithful zero labels ↔ Runs.Meets step Recognised zero labels :=
  Runs.meets_iff_meets step InDomain Faithful Recognised Kept
    (fun registry label kept inDomain => faithful_iff registry label kept inDomain)
    (fun _ _ _ kept inDomain recognised stepped => kept.step inDomain recognised stepped)
    zero labels kept_zero valid

/-- One column of four bytes, the call that the example registers twice. -/
def oneColumn : RegCall where
  name := some nameA
  colNum := 1
  colName := some fun _ => nameA
  colType := some fun _ => some intType
  colSize := some fun _ => 4
  asksOffset := true

/-- A call with a single column of a known type is valid, wherever its module stands. -/
theorem oneColumn_valid {registry : ColumnRegistry}
    (known : findModule registry.ring.global (some nameA) ≠ none) : ValidCall registry oneColumn where
  registered := known
  few := by decide
  present _ := rfl
  types column _ := by
    change columnTypes.any (stricmpZero [105, 110, 116]) = true
    decide
  sizes i _ := by
    change 0 ≤ (4 : Int) ∧ (4 : Int) < 2 ^ 31
    decide

/-- A module attaches, registers its column, and registers again after a restart. -/
def restarted : List RegStep := [.initRing smallCall, .regMySelf oneColumn, .regMySelf oneColumn]

/-- The run with a module that registers again is inside of the domain. -/
theorem restarted_valid : Runs.Meets step InDomain zero restarted := by
  refine ⟨trivial, ?_⟩
  rintro _ ⟨⟩
  refine ⟨oneColumn_valid (by decide), ?_⟩
  rintro _ ⟨⟩
  exact ⟨oneColumn_valid (by decide), fun _ _ => trivial⟩

/-- Both sides of the equivalence for that run, of which the second call is the one that is not
recognised. -/
theorem registrations_iff_restarted :
    Runs.Meets step Faithful zero restarted ↔ Runs.Meets step Recognised zero restarted :=
  registrations_iff restarted restarted_valid

/-- The second registration moves the module and `g_offset`. The module stands at offset zero, which
the source takes for not registered. -/
theorem restart_moves_columns : ¬ ∀ labels, Runs.Meets step InDomain zero labels →
    Runs.Meets step Faithful zero labels := by
  intro everywhere
  have faithful := everywhere restarted restarted_valid
  have again := ((faithful.2 _ rfl).2 _ rfl).1.1 0 (by decide) (by decide)
  have offset := congrArg (fun result => result.registry.offset) again
  revert offset
  decide

end ColumnRegistry

end OpenTaker
