import OpenTaker.RingMemory

/-!
# What the modules of a process see

A view of a module is the address that `CreateBlockMemory` keeps for that memory of its ring.
Setting up a ring only adds entries to the map, so the views of every ring stay right; and as long
as a ring is always sized with the same arguments, what was allocated for it holds what its header
says.
-/

namespace OpenTaker

open NamedMemory

/-! ## Views and sizes -/

/-- The address at which a module sees a memory of its ring; the header is seen through the
handler. -/
def ModuleInfo.view (modInfo : ModuleInfo) : Region → Option Nat
  | .global => none
  | .block => modInfo.blockViewStart
  | .metaPool => modInfo.metaViewStart
  | .metaBlk => modInfo.metaBlkViewStart

/-- The size `InitRing` asks for, for each of the memories; the header has a fixed one. -/
def Global.request (global : Global) : Region → Nat
  | .global => sizeofGlobal
  | .block => u64 (global.blockSize + pageSize)
  | .metaPool => global.metaPoolSize
  | .metaBlk => metaBlockSize global

/-- Two headers with the same sizes, of which the views may differ. -/
structure SameSizes (global next : Global) : Prop where
  blockSize : next.blockSize = global.blockSize
  poolSize : next.metaPoolSize = global.metaPoolSize
  blockCount : next.metaBlkCount = global.metaBlkCount

namespace SameSizes

variable {global next last : Global}

/-- A header has the sizes it has, as a step that writes none of them leaves them. -/
theorem refl : SameSizes global global := ⟨rfl, rfl, rfl⟩

/-- Steps that keep the sizes can follow each other. -/
theorem trans (first : SameSizes global next) (second : SameSizes next last) :
    SameSizes global last :=
  ⟨second.blockSize.trans first.blockSize, second.poolSize.trans first.poolSize,
    second.blockCount.trans first.blockCount⟩

/-- What a module asks the allocator for depends on the sizes alone. -/
theorem request (same : SameSizes global next) (region : Region) :
    next.request region = global.request region := by
  cases region <;> simp [Global.request, metaBlockSize, same.blockSize, same.poolSize,
    same.blockCount]

end SameSizes

/-- An attach keeps the sizes, because it writes one entry of the table and the count. -/
theorem SameExcept.sameSizes {index : Nat} {ring next : Ring}
    (same : SameExcept index ring next) : SameSizes ring.global next.global where
  blockSize := by rw [same.header]
  poolSize := same.poolSize
  blockCount := same.blockCount

/-- One memory of a ring is mapped, or is refused: views appear only there. -/
structure MapsView (region : Region) (addr : Option Nat) (ring next : Ring) : Prop where
  sizes : SameSizes ring.global next.global
  registered : next.global.index = ring.global.index
  views : ∀ id other seen, (next.global.moduleInfo id).view other = some seen →
    (ring.global.moduleInfo id).view other = some seen ∨ other = region ∧ addr = some seen

section MapsView

variable (call : InitCall) (name : CString) (index : Nat) (ring : Ring)

/-- Steps that write one entry need to be looked at there only. -/
theorem SameExcept.mapsView {index : Nat} {ring next : Ring} {region : Region}
    {addr : Option Nat} (same : SameExcept index ring next)
    (views : ∀ other seen, (next.global.moduleInfo index).view other = some seen →
      (ring.global.moduleInfo index).view other = some seen ∨ other = region ∧ addr = some seen) :
    MapsView region addr ring next where
  sizes := same.sameSizes
  registered := same.registered
  views id other seen isSeen := by
    by_cases here : id = index
    · subst here
      exact views other seen isSeen
    · rw [same.others id here] at isSeen
      exact .inl isSeen

/-- The first mapping of an attach asks for the block memory, with a page of room behind it, and
writes its address or fails. -/
theorem mapBlockView_maps :
    MapsView .block (call.create .block (u64 (ring.global.blockSize + pageSize))) ring
      (mapBlockView call name index ring).2 := by
  refine (mapBlockView_spec call name index ring).1.mapsView ?_
  intro other seen isSeen
  cases answer : call.create .block (u64 (ring.global.blockSize + pageSize)) with
  | none =>
    simp only [mapBlockView, answer, setModuleInfo_self] at isSeen
    exact .inl (by cases other <;> exact isSeen)
  | some addr =>
    simp only [mapBlockView, answer, setModuleInfo_self] at isSeen
    cases other with
    | block => exact .inr ⟨rfl, isSeen⟩
    | global | metaPool | metaBlk => exact .inl isSeen

/-- The second mapping of an attach asks for the meta memory, as much of it as the header says, and
writes its address or fails. -/
theorem mapMetaView_maps :
    MapsView .metaPool (call.create .metaPool ring.global.metaPoolSize) ring
      (mapMetaView call index ring).2 := by
  refine (mapMetaView_spec call index ring).1.mapsView ?_
  intro other seen isSeen
  cases answer : call.create .metaPool ring.global.metaPoolSize with
  | none =>
    simp only [mapMetaView, answer] at isSeen
    exact .inl isSeen
  | some addr =>
    have global : (if index = 0 then ring.clearMetaPool else ring).global = ring.global := by
      split <;> rfl
    simp only [mapMetaView, answer, setModuleInfo_self, global] at isSeen
    cases other with
    | metaPool => exact .inr ⟨rfl, isSeen⟩
    | global | block | metaBlk => exact .inl isSeen

/-- The third one asks for the meta blocks, with the 32-bit size that the source computes. -/
theorem mapMetaBlkView_maps :
    MapsView .metaBlk (call.create .metaBlk (metaBlockSize ring.global)) ring
      (mapMetaBlkView call index ring).2 := by
  refine (mapMetaBlkView_spec call index ring).1.mapsView ?_
  intro other seen isSeen
  cases answer : call.create .metaBlk (metaBlockSize ring.global) with
  | none =>
    simp only [mapMetaBlkView, answer] at isSeen
    exact .inl isSeen
  | some addr =>
    have global : (if index = 0 then ring.clearMetaBlks else ring).global = ring.global := by
      split <;> rfl
    simp only [mapMetaBlkView, answer, setModuleInfo_self, global] at isSeen
    cases other with
    | metaBlk => exact .inr ⟨rfl, isSeen⟩
    | global | block | metaPool => exact .inl isSeen

end MapsView

/-! ## Headers -/

/-- The arguments a ring is sized with, which the first call of `InitRing` gives. -/
structure RingSizes where
  blockSize : Nat
  capacity : Nat

/-- The header `InitRing` writes for these arguments, which every process that attaches later finds. -/
def RingSizes.global (sizes : RingSizes) : Global := initGlobal sizes.blockSize sizes.capacity

/-- A header is cleared, and no module is registered, or it has the sizes of its ring. -/
inductive SizedAs (sizes : RingSizes) (global : Global) : Prop where
  | cleared (noModule : global.index = 0) (zeros : SameSizes Global.zero global) :
      SizedAs sizes global
  | sized (same : SameSizes sizes.global global) : SizedAs sizes global

end OpenTaker
