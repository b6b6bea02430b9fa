import OpenTaker.NamedMemory
import OpenTaker.RingSizing

/-!
# The memory of the rings of a process

`CreateBlockMemory` keeps a map from names to addresses and takes memory only for a name it has
not seen; it returns before the code for System V shared memory. A ring is known by the name of
its header, and three more names are made from that one. `InitRing` here is the call of a process
with many rings: it asks the map, and what it asks is decided by what it has written so far.
-/

namespace OpenTaker

open NamedMemory

/-! ## CreateBlockMemory -/

/-- The entries of `s_addrMap`, with the bytes that were allocated. -/
abbrev AddrMap := List (Block (List UInt8))

/-- The bytes `CreateBlockMemory` allocates for a size: whole pages, and one more when the size is
already whole pages. -/
def allocSize (size : Nat) : Nat := u64 ((size / pageSize + 1) * pageSize)

/-- `CreateBlockMemory` of `main_linux.hxx`, with `aligned_alloc` as it answers here. -/
def createBlockMemory (alloc : AddrMap → Nat → Option Nat) (addrMap : AddrMap)
    (name : List UInt8) (size : Nat) : Option Nat × AddrMap :=
  request alloc addrMap name (allocSize size)

/-- `SHARE_MEM_GLOBAL_NAME`, "VP_Global_SM", the ring of a call that names none. -/
def shareMemGlobalName : List UInt8 := [86, 80, 95, 71, 108, 111, 98, 97, 108, 95, 83, 77]

/-- What `InitRing` appends to the name of the ring: nothing, "_BlockSM", "_BlockSM_MetaSM" and
"_MetaBlockSM". -/
def Region.suffix : Region → List UInt8
  | .global => []
  | .block => [95, 66, 108, 111, 99, 107, 83, 77]
  | .metaPool => [95, 66, 108, 111, 99, 107, 83, 77, 95, 77, 101, 116, 97, 83, 77]
  | .metaBlk => [95, 77, 101, 116, 97, 66, 108, 111, 99, 107, 83, 77]

/-- The name under which a memory of a ring is kept. -/
def shareName (name : List UInt8) (region : Region) : List UInt8 := name ++ region.suffix

/-- No ring has the name of another ring's memory. -/
def Separate (names : List UInt8 → Prop) : Prop :=
  ∀ name other, names name → names other → ∀ region, region ≠ .global →
    name ≠ shareName other region

/-- The suffixes of two different memories besides the header end differently. -/
theorem suffix_ends {region second : Region} (notHeader : region ≠ .global)
    (secondNotHeader : second ≠ .global) {name other : List UInt8}
    (same : shareName name region = shareName other second) : region = second := by
  have ends := congrArg List.reverse same
  simp only [shareName, List.reverse_append] at ends
  cases region <;> cases second <;> first | rfl | contradiction | simp [Region.suffix] at ends

/-- Then every memory has a name of its own. -/
theorem Separate.shareName_inj {names : List UInt8 → Prop} (separate : Separate names)
    {name other : List UInt8} (used : names name) (usedOther : names other)
    {region second : Region} (same : shareName name region = shareName other second) :
    name = other ∧ region = second := by
  have sameRegion : region = second := by
    by_cases header : region = .global
    · subst header
      by_contra different
      exact separate name other used usedOther second (Ne.symm different)
        ((List.append_nil name).symm.trans same)
    · by_cases secondHeader : second = .global
      · subst secondHeader
        exact absurd (same.trans (List.append_nil other)).symm
          (separate other name usedOther used region header)
      · exact suffix_ends header secondHeader same
  subst sameRegion
  exact ⟨List.append_cancel_right same, rfl⟩

/-! ## A process and its rings -/

/-- The rings of a process, each in the memory that is kept under its name. -/
structure RingProcess where
  addrMap : AddrMap
  rings : List UInt8 → Ring

/-- The arguments of one call of `InitRing`; the allocator may answer differently in every call. -/
structure RingCall where
  alloc : AddrMap → Nat → Option Nat
  globalName : Option CString
  moduleName : Option CString
  blockSize : Nat
  capacity : Nat
  reset : Bool

namespace RingCall

variable (call : RingCall)

/-- The name of the ring: NULL asks for the default. -/
def ringName : List UInt8 := (call.globalName.map CString.chars).getD shareMemGlobalName

/-- The call with the address `CreateBlockMemory` has given at one place. -/
def given (addr : Option Nat) : InitCall where
  create := fun _ _ => addr
  moduleName := call.moduleName
  blockSize := call.blockSize
  capacity := call.capacity
  reset := call.reset

/-- Ask `CreateBlockMemory` for one of the memories of the ring. -/
def create (region : Region) (size : Nat) (addrMap : AddrMap) : Option Nat × AddrMap :=
  createBlockMemory call.alloc addrMap (shareName call.ringName region) size

/-- The last part of `InitRing`: map the three memories, each after what the one before has
written. -/
def attach (name : CString) (index : Nat) (created : Bool) (ring : Ring) (addrMap : AddrMap) :
    Option Nat × Ring × AddrMap :=
  let (addr, addrMap) := call.create .block (u64 (ring.global.blockSize + pageSize)) addrMap
  match mapBlockView (call.given addr) name index ring with
  | (false, ring) => (none, ring, addrMap)
  | (true, ring) =>
    let (addr, addrMap) := call.create .metaPool ring.global.metaPoolSize addrMap
    match mapMetaView (call.given addr) index ring with
    | (false, ring) => (none, ring, addrMap)
    | (true, ring) =>
      let (addr, addrMap) := call.create .metaBlk (metaBlockSize ring.global) addrMap
      match mapMetaBlkView (call.given addr) index ring with
      | (false, ring) => (none, ring, addrMap)
      | (true, ring) => (some index, countModule name index created ring, addrMap)

end RingCall

namespace RingProcess

/-- Write the ring of a name, with the rings of other names as they are. -/
def setRing (process : RingProcess) (addrMap : AddrMap) (name : List UInt8) (ring : Ring) :
    RingProcess :=
  { addrMap := addrMap, rings := Function.update process.rings name ring }

/-- The handler of a ring: where its header is, once it is mapped. -/
def handler (process : RingProcess) (name : List UInt8) : Option Nat :=
  (find process.addrMap (shareName name .global)).bind Block.addr

/-- `InitRing` in a process with many rings; `none` is the error code -1. -/
def initRing (process : RingProcess) (call : RingCall) : Option Nat × RingProcess :=
  match call.create .global sizeofGlobal process.addrMap with
  | (none, addrMap) => (none, { process with addrMap := addrMap })
  | (some addr, addrMap) =>
    let ring := openRing (call.given (some addr)) (process.rings call.ringName)
    match call.moduleName with
    | none => (some 0, process.setRing addrMap call.ringName ring)
    | some name =>
      let (id, ring, addrMap) :=
        match findModule ring.global (some name) with
        | some index => call.attach name index false ring addrMap
        | none => call.attach name ring.global.index true ring addrMap
      (id, process.setRing addrMap call.ringName ring)

end RingProcess

/-! ## Calls on an opened ring -/

/-- A call that a module makes with the handler of its ring. -/
inductive RingUse where
  | resetTheRing
  | stopRing
  | startWork
  | getEmptyMetaBlk
  | publish (position size : Nat)
  | move2NextMetaBlk (id count : Nat)
  | freeFullMetaBlk (position : Nat)

/-- What the call writes in its ring; it maps no memory. -/
def RingUse.apply (ring : Ring) : RingUse → Ring
  | .resetTheRing => { ring with global := Global.zero }
  | .stopRing => { ring with global := { ring.global with stopped := true } }
  | .startWork => (OpenTaker.startWork ring).getD ring
  | .getEmptyMetaBlk => (OpenTaker.getEmptyMetaBlk ring).2
  | .publish position size => publishMetaBlk ring position size
  | .move2NextMetaBlk id count => (OpenTaker.move2NextMetaBlk ring id count).2
  | .freeFullMetaBlk position => OpenTaker.freeFullMetaBlk ring position

/-- A step of the process: any ring of it is set up or used. -/
inductive RingProcess.Step where
  | init (call : RingCall)
  | use (name : List UInt8) (use : RingUse)

/-- A ring is used through its handler, so it is opened first. -/
def RingProcess.step (process : RingProcess) : RingProcess.Step → Option RingProcess
  | .init call => some (process.initRing call).2
  | .use name use =>
      if (process.handler name).isSome then
        some (process.setRing process.addrMap name (use.apply (process.rings name)))
      else none

end OpenTaker
