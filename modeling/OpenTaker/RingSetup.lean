import OpenTaker.Runs
import OpenTaker.PacketRing
import Mathlib.Tactic.Common

/-!
# Attaching to a ring and starting it

`InitRing` runs the same code for the process that creates the ring, for a module
that joins and for a module that restarts. It maps the shared memory in four
steps and gives up at the first that fails, keeping what it has written so far.
`StartWork` fixes the meta size and turns the slot count into a mask.

The shared memory itself comes from `CreateBlockMemory`, which is a parameter: a
call answers with an address or with NULL. Sizes are computed with the widths of
the source; `2 << size2` is an `int` shift, which x86-64 performs modulo 2^32
with the shift count modulo 32.
-/

namespace OpenTaker

/-! ## Names -/

/-- A C string: characters without a zero among them. -/
structure CString where
  chars : List UInt8
  noZero : ∀ char ∈ chars, char ≠ 0

/-- The names of the shared memories are given by their characters, none of which is the terminator.
One test for the whole list. -/
theorem ne_zero_of_all {chars : List UInt8} (nonzero : chars.all (· != 0) = true) :
    ∀ char ∈ chars, char ≠ 0 := by
  simpa using nonzero

/-- A name of one character, for the runs on fixed inputs. -/
def nameA : CString := ⟨[65], by simp⟩

/-- Another name of one character, which begins with none of the other's. -/
def secondName : CString := ⟨[66], ne_zero_of_all rfl⟩

/-- Whether `strncmp` of two zero-terminated strings gives zero, that is whether they agree up to
the count or to a terminator. -/
def strncmpZero : Nat → List UInt8 → List UInt8 → Bool
  | 0, _, _ => true
  | count + 1, left, right =>
      left.headD 0 == right.headD 0 &&
        (left.headD 0 == 0 || strncmpZero count left.tail right.tail)

/-- `strncpy` of no more characters than the source has: no terminator is added
and the rest of the destination stays. -/
def strncpy (destination source : List UInt8) (count : Nat) : List UInt8 :=
  source.take count ++ destination.drop count

/-- The characters of a name that are compared and copied. -/
def nameSize (name : CString) : Nat := min (maxModuleName - 1) name.chars.length

/-- The scan of `FindModule`: it stops at the first entry without a block view. -/
def findModuleFrom (global : Global) (name : CString) : Nat → Nat → Option Nat
  | 0, _ => none
  | remaining + 1, i =>
      if (global.moduleInfo i).blockViewStart = none then none
      else if strncmpZero (nameSize name) (global.moduleInfo i).moduleName name.chars then some i
      else findModuleFrom global name remaining (i + 1)

/-- `FindModule`: the first registered module whose name begins with the given one. `none` is -1. -/
def findModule (global : Global) (name : Option CString) : Option Nat :=
  name.bind (fun name => findModuleFrom global name maxModuleCount 0)

/-- `GetMyID`: the id by name, and -1 where there is none. -/
def getMyID (ring : Ring) (name : Option CString) : Option Nat := findModule ring.global name

/-! ## Sizes -/

/-- The loop of `Log2`. A `u_int64` is halved to zero in at most 64 rounds. -/
def log2Loop : Nat → Nat → Nat → Nat
  | 0, _, count => count
  | fuel + 1, remain, count =>
      if remain / 2 = 0 then count else log2Loop fuel (remain / 2) (count + 1)

/-- `Log2`: the loop that shifts a number to the right until it is zero. -/
def log2 (value : Nat) : Nat := log2Loop 64 value 0

/-- The `int` shift `value << count`, which uses five bits of the count on the machine. -/
def shiftLeftInt (value count : Nat) : Int := i32 (u32 (value * 2 ^ (count % 32)))

/-- The `u_int64` that an `int` is converted to, by which a negative one becomes very large. -/
def u64OfInt (value : Int) : Nat := (value % 2 ^ 64).toNat

/-- `AVERAGE_PACKET_SIZE`, by which a block size is turned into a number of slots. -/
def averagePacketSize : Nat := 100

/-- The local `metaCount` of `InitRing`, converted from a signed `int` to 64 bits. -/
def initMetaCount (blockSize : Nat) : Nat :=
  u64OfInt (shiftLeftInt 2 (log2 (blockSize / averagePacketSize)))

/-- The capacity `InitRing` keeps: zero asks for the default. -/
def initCapacity (capacity : Nat) : Nat := if capacity ≠ 0 then capacity else defMetablockCapacity

/-- The `g_metaBlkCount` of `InitRing`, rounded up in 64 bits and kept in 32. -/
def initMetaBlkCount (blockSize capacity : Nat) : Nat :=
  u32 (u64 (u64Pred (initMetaCount blockSize) / initCapacity capacity + 1))

/-- The header that the first process writes, from the two arguments that size the ring. -/
def initGlobal (blockSize capacity : Nat) : Global :=
  { Global.zero with
    blockSize := blockSize
    metaPoolSize := u64 (initMetaCount blockSize * sizeofPacketMeta)
    metaBlkCapacity := initCapacity capacity
    metaBlkCount := initMetaBlkCount blockSize capacity }

/-! ## InitRing -/

/-- The shared memories of one ring: its header, its blocks, its slots and its meta blocks. -/
inductive Region where
  | global
  | block
  | metaPool
  | metaBlk
deriving DecidableEq

/-- `CreateBlockMemory`: the address given for a request, or NULL. -/
abbrev CreateBlockMemory := Region → Nat → Option Nat

/-- An allocator that refuses the sizes no allocation can have. -/
def grantPossible : CreateBlockMemory := fun _ size => if size < 2 ^ 63 then some 0 else none

/-- The arguments of one call of `InitRing` and the answers it gets. -/
structure InitCall where
  create : CreateBlockMemory
  moduleName : Option CString
  blockSize : Nat
  capacity : Nat
  reset : Bool

/-- `sizeof(Global_t)`: 96 bytes of counters and mutex, 20 module entries of 56
bytes and 20 index entries of 944. -/
def sizeofGlobal : Nat := 20096

/-- Clear the meta slots that lie inside of the meta pool, and leave what stands behind it. -/
def Ring.clearMetaPool (ring : Ring) : Ring :=
  { ring with packetMeta := fun slot =>
      if (slot + 1) * sizeofPacketMeta ≤ ring.global.metaPoolSize then PacketMeta.zero
      else ring.packetMeta slot }

/-- Clear the meta blocks inside the mapped block array. -/
def Ring.clearMetaBlks (ring : Ring) : Ring :=
  { ring with metaBlk := fun position =>
      if blockInside ring.global.metaBlkCount position then PktMetaBlk.zero
      else ring.metaBlk position }

/-- The part of `InitRing` before a module is registered: map the header, reset
it on request and, in the first process, compute the sizes. -/
def openRing (call : InitCall) (ring : Ring) : Ring :=
  let ring := if call.reset then { ring with global := Global.zero } else ring
  if ring.global.index = 0 ∧ call.blockSize ≠ 0 then
    { ring with global := initGlobal call.blockSize call.capacity }
  else ring

/-- Write the name and map the block view of entry `index`. -/
def mapBlockView (call : InitCall) (name : CString) (index : Nat) (ring : Ring) :
    Bool × Ring :=
  let named := ring.setModuleInfo index
    { ring.global.moduleInfo index with
      moduleName := strncpy (ring.global.moduleInfo index).moduleName name.chars (nameSize name) }
  match call.create .block (u64 (ring.global.blockSize + pageSize)) with
  | none => (false, named)
  | some addr =>
      (true, named.setModuleInfo index
        { named.global.moduleInfo index with blockViewStart := some addr })

/-- Map the meta view, clearing the slots for module 0, and rewind `packetPtr`. -/
def mapMetaView (call : InitCall) (index : Nat) (ring : Ring) : Bool × Ring :=
  match call.create .metaPool ring.global.metaPoolSize with
  | none => (false, ring)
  | some addr =>
      let cleared := if index = 0 then ring.clearMetaPool else ring
      (true, cleared.setModuleInfo index
        { cleared.global.moduleInfo index with metaViewStart := some addr, packetPtr := 0 })

/-- Map the block array, clearing the blocks for module 0, and rewind `blkPtr`. -/
def mapMetaBlkView (call : InitCall) (index : Nat) (ring : Ring) : Bool × Ring :=
  match call.create .metaBlk (metaBlockSize ring.global) with
  | none => (false, ring)
  | some addr =>
      let cleared := if index = 0 then ring.clearMetaBlks else ring
      (true, cleared.setModuleInfo index
        { cleared.global.moduleInfo index with metaBlkViewStart := some addr, blkPtr := 0 })

/-- Keep the name in `g_moduleIndex` and count a new module. -/
def countModule (name : CString) (index : Nat) (created : Bool) (ring : Ring) : Ring :=
  { ring with global :=
    { ring.global with
      moduleIndexName := Function.update ring.global.moduleIndexName index
        (strncpy (ring.global.moduleIndexName index) name.chars (nameSize name))
      index := if created then ring.global.index + 1 else ring.global.index } }

/-- Register or attach a module under an index: its three memories are mapped one after the other,
up to the first that fails. -/
def attachModule (call : InitCall) (name : CString) (index : Nat) (created : Bool) (ring : Ring) :
    Option Nat × Ring :=
  match mapBlockView call name index ring with
  | (false, ring) => (none, ring)
  | (true, ring) =>
    match mapMetaView call index ring with
    | (false, ring) => (none, ring)
    | (true, ring) =>
      match mapMetaBlkView call index ring with
      | (false, ring) => (none, ring)
      | (true, ring) => (some index, countModule name index created ring)

/-- `InitRing`; `none` is the error code -1. Without a module name only the header is mapped, and 0
is returned. -/
def initRing (call : InitCall) (ring : Ring) : Option Nat × Ring :=
  match call.create .global sizeofGlobal with
  | none => (none, ring)
  | some _ =>
    let ring := openRing call ring
    match call.moduleName with
    | none => (some 0, ring)
    | some name =>
      match findModule ring.global (some name) with
      | some index => attachModule call name index false ring
      | none => attachModule call name ring.global.index true ring

/-! ## StartWork -/

/-- Write `g_metaSize` and `g_metaCount`, as `StartWork` does. A count makes the ring ready. -/
def Ring.setMetaCount (ring : Ring) (metaSize metaCount : Nat) : Ring :=
  { ring with global := { ring.global with metaSize := metaSize, metaCount := metaCount } }

section SetMetaCount

variable (ring : Ring) (metaSize metaCount : Nat)

/-- `StartWork` writes two fields of the header. The lemmas say which, so that the other fields need
no unfolding. -/
@[simp] theorem setMetaCount_metaSize :
    (ring.setMetaCount metaSize metaCount).global.metaSize = metaSize := rfl

/-- The capacity of a meta block stays as it was sized. -/
@[simp] theorem setMetaCount_capacity :
    (ring.setMetaCount metaSize metaCount).global.metaBlkCapacity =
      ring.global.metaBlkCapacity := rfl

/-- The number that is stored for the slots is the one computed by `StartWork`. -/
@[simp] theorem setMetaCount_metaCount :
    (ring.setMetaCount metaSize metaCount).global.metaCount = metaCount := rfl

/-- The number of meta blocks comes from the sizing and is not computed again. -/
@[simp] theorem setMetaCount_blockCount :
    (ring.setMetaCount metaSize metaCount).global.metaBlkCount = ring.global.metaBlkCount := rfl

/-- The size of the meta memory stays, although the slots may be larger than it was sized for. -/
@[simp] theorem setMetaCount_poolSize :
    (ring.setMetaCount metaSize metaCount).global.metaPoolSize = ring.global.metaPoolSize := rfl

/-- The offset of the columns stays, which modules have registered by then. -/
@[simp] theorem setMetaCount_offset :
    (ring.setMetaCount metaSize metaCount).global.offset = ring.global.offset := rfl

end SetMetaCount

/-- `StartWork`; `none` is the error code -1, for a ring that has no block size or no module. -/
def startWork (ring : Ring) : Option Ring :=
  if ring.global.blockSize = 0 ∨ ring.global.index = 0 then none
  else
    let metaSize := u32 (sizeofPacketMeta + ring.global.offset)
    some (ring.setMetaCount metaSize (u32 (u64Pred (ring.global.metaPoolSize / metaSize))))

/-- What the assertions of `StartWork` require. The source writes the modulus as
`(2 ^ 10)`, which is an exclusive or in C. -/
def startWorkAsserts (global : Global) : Bool :=
  global.offset == 0 && u32 (global.metaCount + 1) % (2 ^^^ 10) == 0

/-- `StartWork` needs a module and changes only the meta size and count. -/
theorem startWork_some {ring next : Ring} (works : startWork ring = some next) :
    1 ≤ ring.global.index ∧
      ∃ metaSize metaCount, next = ring.setMetaCount metaSize metaCount := by
  simp only [startWork] at works
  split at works
  · cases works
  · rename_i ready
    exact ⟨by omega, _, _, (Option.some.inj works).symm⟩

/-! ## Rings that have only been set up -/

/-- One successful `InitRing`, with whatever allocator it was given; a failed one is refused. -/
def setupStep (ring : Ring) (call : InitCall) : Option Ring :=
  match initRing call ring with
  | (some _, next) => some next
  | (none, _) => none

/-- Nothing has been claimed or moved yet: the registered modules are mapped and
stand at zero, and no other entry has a block view. -/
structure SetUp (ring : Ring) : Prop where
  mapped : ∀ id < ring.global.index, (ring.global.moduleInfo id).mapped = true
  cursorZero : ∀ id < ring.global.index, ring.blkPtr id = 0
  packetZero : ∀ id < ring.global.index, (ring.global.moduleInfo id).packetPtr = 0
  unused : ∀ id, ring.global.index ≤ id → (ring.global.moduleInfo id).blockViewStart = none
  tailZero : ring.global.tailMetaBlk = 0
  tailPacketZero : ring.global.tailPacket = 0
  cleared : ∀ position, ring.metaBlk position = PktMetaBlk.zero

/-- A ring of zero bytes is set up: no module is registered, no block claimed, and all cursors are
at zero. -/
theorem setUp_zero : SetUp Ring.zero where
  mapped id inside := absurd inside (Nat.not_lt_zero id)
  cursorZero id inside := absurd inside (Nat.not_lt_zero id)
  packetZero id inside := absurd inside (Nat.not_lt_zero id)
  unused _ _ := rfl
  tailZero := rfl
  tailPacketZero := rfl
  cleared _ := rfl

/-- `StartWork` touches neither views nor cursors, so that the ring stays set up. -/
theorem SetUp.setMetaCount {ring : Ring} (setUp : SetUp ring) (metaSize metaCount : Nat) :
    SetUp (ring.setMetaCount metaSize metaCount) where
  mapped := setUp.mapped
  cursorZero := setUp.cursorZero
  packetZero := setUp.packetZero
  unused := setUp.unused
  tailZero := setUp.tailZero
  tailPacketZero := setUp.tailPacketZero
  cleared := setUp.cleared

/-- A found entry has a block view, by induction on the scan. -/
theorem findModuleFrom_mapped (global : Global) (name : CString) (remaining start index : Nat)
    (found : findModuleFrom global name remaining start = some index) :
    (global.moduleInfo index).blockViewStart ≠ none := by
  induction remaining generalizing start with
  | zero => simp [findModuleFrom] at found
  | succ remaining inductionHypothesis =>
    simp only [findModuleFrom] at found
    split at found
    · cases found
    · rename_i present
      split at found
      · cases found
        exact present
      · exact inductionHypothesis (start + 1) found

/-- In a ring that has only been set up, a found module is a registered one. -/
theorem SetUp.found_registered {ring : Ring} (setUp : SetUp ring) (name : CString) (index : Nat)
    (found : findModule ring.global (some name) = some index) : index < ring.global.index := by
  have present := findModuleFrom_mapped ring.global name maxModuleCount 0 index found
  by_contra outside
  exact present (setUp.unused index (Nat.le_of_not_lt outside))

/-- Opening a ring that has only been set up keeps it so, reset or not. -/
theorem SetUp.openRing {ring : Ring} (setUp : SetUp ring) (call : InitCall) :
    SetUp (openRing call ring) := by
  have zeroed : ∀ global : Global, global.index = 0 → global.tailMetaBlk = 0 →
      global.tailPacket = 0 → (∀ id, (global.moduleInfo id).blockViewStart = none) →
      SetUp { ring with global := global } := by
    intro global noModule noTail noPacket noView
    exact {
      mapped := fun id inside => absurd inside (by simp [noModule])
      cursorZero := fun id inside => absurd inside (by simp [noModule])
      packetZero := fun id inside => absurd inside (by simp [noModule])
      unused := fun id _ => noView id
      tailZero := noTail
      tailPacketZero := noPacket
      cleared := setUp.cleared }
  simp only [OpenTaker.openRing]
  by_cases reset : call.reset = true
  · simp only [reset, ↓reduceIte]
    split
    · exact zeroed _ rfl rfl rfl (fun _ => rfl)
    · exact zeroed _ rfl rfl rfl (fun _ => rfl)
  · simp only [reset, Bool.false_eq_true, ↓reduceIte]
    split
    · exact zeroed _ rfl rfl rfl (fun _ => rfl)
    · exact setUp

/-! ## What attaching writes -/

/-- Only the entry `index` of the module table differs; no block has been filled. -/
structure SameExcept (index : Nat) (ring next : Ring) : Prop where
  others : ∀ other, other ≠ index → next.global.moduleInfo other = ring.global.moduleInfo other
  /-- Outside of the module table the header is the same. -/
  header : next.global = { ring.global with moduleInfo := next.global.moduleInfo }
  cleared : ∀ position, ring.metaBlk position = PktMetaBlk.zero →
    next.metaBlk position = PktMetaBlk.zero

namespace SameExcept

variable {index : Nat} {ring next first second third : Ring}

/-- The tail is not the business of an attach: what other modules claim meanwhile stays claimed. -/
theorem tail (same : SameExcept index ring next) :
    next.global.tailMetaBlk = ring.global.tailMetaBlk := by
  rw [same.header]

/-- The number of meta blocks is as it was sized, whichever module attaches. -/
theorem blockCount (same : SameExcept index ring next) :
    next.global.metaBlkCount = ring.global.metaBlkCount := by
  rw [same.header]

/-- So is the size of the meta memory, by which the new module maps it. -/
theorem poolSize (same : SameExcept index ring next) :
    next.global.metaPoolSize = ring.global.metaPoolSize := by
  rw [same.header]

/-- The number of modules is raised only at the end of an attach, after all mappings have succeeded. -/
theorem registered (same : SameExcept index ring next) :
    next.global.index = ring.global.index := by
  rw [same.header]

/-- Nothing has changed but one module, where nothing has changed. -/
theorem refl : SameExcept index ring ring := ⟨fun _ _ => rfl, rfl, fun _ wasZero => wasZero⟩

/-- Steps for one module add up: an attach is a row of them. -/
theorem trans (before : SameExcept index first second) (after : SameExcept index second third) :
    SameExcept index first third where
  others other distinct := (after.others other distinct).trans (before.others other distinct)
  header := by
    rw [after.header, before.header]
  cleared position wasZero := after.cleared position (before.cleared position wasZero)

end SameExcept

/-- Writing an entry of the module table is such a step. -/
theorem setModuleInfo_sameExcept (ring : Ring) (index : Nat) (modInfo : ModuleInfo) :
    SameExcept index ring (ring.setModuleInfo index modInfo) where
  others other distinct := by simp [Ring.setModuleInfo, distinct]
  header := rfl
  cleared _ wasZero := wasZero

/-- So is clearing the meta memory, which the first module does to make it hot. -/
theorem clearMetaPool_sameExcept (ring : Ring) (index : Nat) :
    SameExcept index ring ring.clearMetaPool where
  others _ _ := rfl
  header := rfl
  cleared _ wasZero := wasZero

/-- And so is clearing the meta blocks, which the header does not show. -/
theorem clearMetaBlks_sameExcept (ring : Ring) (index : Nat) :
    SameExcept index ring ring.clearMetaBlks where
  others _ _ := rfl
  header := rfl
  cleared position wasZero := by simp [Ring.clearMetaBlks, wasZero]

/-- The entry of a module reads back as it was written. -/
@[simp] theorem setModuleInfo_self (ring : Ring) (index : Nat) (modInfo : ModuleInfo) :
    (ring.setModuleInfo index modInfo).global.moduleInfo index = modInfo := by
  simp [Ring.setModuleInfo]

/-- The first step writes the name and, when it succeeds, the block view; the
cursors of the entry stay. -/
theorem mapBlockView_spec (call : InitCall) (name : CString) (index : Nat) (ring : Ring) :
    SameExcept index ring (mapBlockView call name index ring).2 ∧
      (mapBlockView call name index ring).2.blkPtr index = ring.blkPtr index ∧
      ((mapBlockView call name index ring).2.global.moduleInfo index).packetPtr =
        (ring.global.moduleInfo index).packetPtr ∧
      ((mapBlockView call name index ring).1 = true →
        ((mapBlockView call name index ring).2.global.moduleInfo index).blockViewStart.isSome = true) ∧
      (mapBlockView call name index ring).1 =
        (call.create .block (u64 (ring.global.blockSize + pageSize))).isSome := by
  have named := setModuleInfo_sameExcept ring index
    { ring.global.moduleInfo index with
      moduleName := strncpy (ring.global.moduleInfo index).moduleName name.chars (nameSize name) }
  cases answer : call.create .block (u64 (ring.global.blockSize + pageSize)) with
  | none =>
    simp only [mapBlockView, answer]
    exact ⟨named, by simp [Ring.blkPtr], by simp, by simp, rfl⟩
  | some addr =>
    simp only [mapBlockView, answer]
    exact ⟨named.trans (setModuleInfo_sameExcept _ index _), by simp [Ring.blkPtr], by simp,
      by simp, rfl⟩

/-- The second step, when it succeeds, maps the meta view and rewinds `packetPtr`. -/
theorem mapMetaView_spec (call : InitCall) (index : Nat) (ring : Ring) :
    SameExcept index ring (mapMetaView call index ring).2 ∧
      (mapMetaView call index ring).2.blkPtr index = ring.blkPtr index ∧
      ((mapMetaView call index ring).2.global.moduleInfo index).blockViewStart =
        (ring.global.moduleInfo index).blockViewStart ∧
      ((mapMetaView call index ring).2.global.moduleInfo index).packetPtr =
        (if (mapMetaView call index ring).1 then 0
         else (ring.global.moduleInfo index).packetPtr) ∧
      ((mapMetaView call index ring).1 = true →
        ((mapMetaView call index ring).2.global.moduleInfo index).metaViewStart.isSome = true) ∧
      (mapMetaView call index ring).1 =
        (call.create .metaPool ring.global.metaPoolSize).isSome := by
  have self : SameExcept index ring ring := SameExcept.refl
  have cleared : SameExcept index ring (if index = 0 then ring.clearMetaPool else ring) := by
    split
    · exact clearMetaPool_sameExcept ring index
    · exact self
  have global : (if index = 0 then ring.clearMetaPool else ring).global = ring.global := by
    split <;> rfl
  cases answer : call.create .metaPool ring.global.metaPoolSize with
  | none =>
    simp only [mapMetaView, answer]
    exact ⟨self, by simp⟩
  | some addr =>
    simp only [mapMetaView, answer]
    exact ⟨cleared.trans (setModuleInfo_sameExcept _ index _), by simp [Ring.blkPtr, global],
      by simp [global], by simp, by simp, rfl⟩

/-- The third step, when it succeeds, maps the block array and rewinds `blkPtr`. -/
theorem mapMetaBlkView_spec (call : InitCall) (index : Nat) (ring : Ring) :
    SameExcept index ring (mapMetaBlkView call index ring).2 ∧
      (mapMetaBlkView call index ring).2.blkPtr index =
        (if (mapMetaBlkView call index ring).1 then 0 else ring.blkPtr index) ∧
      ((mapMetaBlkView call index ring).2.global.moduleInfo index).packetPtr =
        (ring.global.moduleInfo index).packetPtr ∧
      ((mapMetaBlkView call index ring).2.global.moduleInfo index).mapped =
        (ring.global.moduleInfo index).mapped ∧
      (mapMetaBlkView call index ring).1 =
        (call.create .metaBlk (metaBlockSize ring.global)).isSome := by
  have self : SameExcept index ring ring := SameExcept.refl
  have cleared : SameExcept index ring (if index = 0 then ring.clearMetaBlks else ring) := by
    split
    · exact clearMetaBlks_sameExcept ring index
    · exact self
  have global : (if index = 0 then ring.clearMetaBlks else ring).global = ring.global := by
    split <;> rfl
  cases answer : call.create .metaBlk (metaBlockSize ring.global) with
  | none =>
    simp only [mapMetaBlkView, answer]
    exact ⟨self, by simp⟩
  | some addr =>
    simp only [mapMetaBlkView, answer]
    exact ⟨cleared.trans (setModuleInfo_sameExcept _ index _), by simp [Ring.blkPtr],
      by simp [global], by simp [ModuleInfo.mapped, global], rfl⟩

/-- What a completed attachment has written: the entry is mapped and rewound, the
module may have been counted, and no block has been filled. -/
structure AttachDone (call : InitCall) (index : Nat) (created : Bool) (ring next : Ring) : Prop where
  granted : (call.create .metaPool ring.global.metaPoolSize).isSome = true
  mapped : (next.global.moduleInfo index).mapped = true
  rewound : next.blkPtr index = 0
  packetZero : (next.global.moduleInfo index).packetPtr = 0
  others : ∀ other, other ≠ index → next.global.moduleInfo other = ring.global.moduleInfo other
  counted : next.global.index = if created then ring.global.index + 1 else ring.global.index
  /-- Outside of the module table and count the header is the same. -/
  header : next.global =
    { ring.global with
      moduleInfo := next.global.moduleInfo
      moduleIndexName := next.global.moduleIndexName
      index := next.global.index }
  cleared : ∀ position, ring.metaBlk position = PktMetaBlk.zero →
    next.metaBlk position = PktMetaBlk.zero

/-- What a completed attach has done: the module has its entry, its three views and a cursor at
zero. The failures on the way return no id. -/
theorem attachModule_done (call : InitCall) (name : CString) (index id : Nat) (created : Bool)
    (ring next : Ring) (done : attachModule call name index created ring = (some id, next)) :
    id = index ∧ AttachDone call index created ring next := by
  obtain ⟨first, -, -, blockView, -⟩ := mapBlockView_spec call name index ring
  simp only [attachModule] at done
  generalize mapBlockView call name index ring = stage at first blockView done
  obtain ⟨_ | _, afterBlock⟩ := stage
  · cases done
  obtain ⟨second, -, keptBlock, packetZero, metaView, granted⟩ :=
    mapMetaView_spec call index afterBlock
  simp only at done
  generalize mapMetaView call index afterBlock = stage
    at second keptBlock packetZero metaView granted done
  obtain ⟨_ | _, afterMeta⟩ := stage
  · cases done
  obtain ⟨third, rewound, keptPacket, keptViews, -⟩ := mapMetaBlkView_spec call index afterMeta
  simp only at done
  generalize mapMetaBlkView call index afterMeta = stage at third rewound keptPacket keptViews done
  obtain ⟨_ | _, afterBlk⟩ := stage
  · cases done
  have whole := (first.trans second).trans third
  simp only [Prod.mk.injEq, Option.some.injEq] at done
  obtain ⟨rfl, rfl⟩ := done
  have bothViews : (afterMeta.global.moduleInfo index).mapped = true := by
    have blockPresent : (afterMeta.global.moduleInfo index).blockViewStart.isSome = true :=
      (congrArg Option.isSome keptBlock).trans (blockView rfl)
    simpa only [ModuleInfo.mapped, blockPresent, Bool.true_and] using metaView rfl
  rw [first.poolSize] at granted
  refine ⟨rfl, granted.symm, keptViews.trans bothViews, rewound, keptPacket.trans packetZero, whole.others, ?_,
    ?_, whole.cleared⟩
  · rw [← whole.registered]
    rfl
  · simp only [countModule]
    rw [whole.header]

/-- What a successful `InitRing` has done with the ring it opened: nothing when no
name was given, else the named module is attached again or registered as the next one. -/
inductive InitDone (call : InitCall) (opened : Ring) : Nat → Ring → Prop where
  | opens (unnamed : call.moduleName = none) : InitDone call opened 0 opened
  | attaches {name : CString} {index : Nat} {next : Ring} (named : call.moduleName = some name)
      (found : findModule opened.global (some name) = some index)
      (done : AttachDone call index false opened next) : InitDone call opened index next
  | registers {name : CString} {next : Ring} (named : call.moduleName = some name)
      (absent : findModule opened.global (some name) = none)
      (done : AttachDone call opened.global.index true opened next) :
      InitDone call opened opened.global.index next

/-- What a completed `InitRing` has done, with the sizing of the ring in front of the attach. -/
theorem initRing_done (call : InitCall) (ring next : Ring) (id : Nat)
    (done : initRing call ring = (some id, next)) : InitDone call (openRing call ring) id next := by
  simp only [initRing] at done
  cases header : call.create .global sizeofGlobal with
  | none => simp [header] at done
  | some addr =>
    simp only [header] at done
    cases named : call.moduleName with
    | none =>
      simp only [named, Prod.mk.injEq, Option.some.injEq] at done
      obtain ⟨rfl, rfl⟩ := done
      exact .opens named
    | some name =>
      simp only [named] at done
      split at done
      · rename_i index found
        obtain ⟨rfl, attached⟩ := attachModule_done call name index id false _ next done
        exact .attaches named found attached
      · rename_i absent
        obtain ⟨rfl, attached⟩ := attachModule_done call name _ id true _ next done
        exact .registers named absent attached

/-- Attaching a registered module again, or registering the next one, keeps a ring
that has only been set up so. -/
theorem SetUp.attached {call : InitCall} {index : Nat} {created : Bool} {opened next : Ring}
    (setUp : SetUp opened) (done : AttachDone call index created opened next)
    (again : created = false → index < opened.global.index)
    (fresh : created = true → index = opened.global.index) : SetUp next := by
  have counted := done.counted
  have grows : opened.global.index ≤ next.global.index := by
    rw [counted]
    split <;> omega
  have inside : index < next.global.index := by
    rw [counted]
    cases created with
    | false => simpa using again rfl
    | true => simp [fresh rfl]
  have registered : ∀ other, other < next.global.index → other ≠ index →
      other < opened.global.index := by
    intro other bound distinct
    rw [counted] at bound
    cases created with
    | false => simpa using bound
    | true =>
      have last := fresh rfl
      simp only [↓reduceIte] at bound
      omega
  constructor
  case mapped =>
    intro other bound
    by_cases same : other = index
    · rw [same, done.mapped]
    · rw [done.others other same]
      exact setUp.mapped other (registered other bound same)
  case cursorZero =>
    intro other bound
    by_cases same : other = index
    · rw [same, done.rewound]
    · rw [Ring.blkPtr, done.others other same]
      exact setUp.cursorZero other (registered other bound same)
  case packetZero =>
    intro other bound
    by_cases same : other = index
    · rw [same, done.packetZero]
    · rw [done.others other same]
      exact setUp.packetZero other (registered other bound same)
  case unused =>
    intro other bound
    rw [done.others other (by omega)]
    exact setUp.unused other (Nat.le_trans grows bound)
  case tailZero =>
    rw [done.header]
    exact setUp.tailZero
  case tailPacketZero =>
    rw [done.header]
    exact setUp.tailPacketZero
  case cleared => exact fun position => done.cleared position (setUp.cleared position)

/-- A successful setup step is a successful `InitRing`, whose parts are then known one by one. -/
theorem setupStep_done {ring next : Ring} {call : InitCall}
    (stepped : setupStep ring call = some next) :
    ∃ id, InitDone call (openRing call ring) id next := by
  simp only [setupStep] at stepped
  split at stepped
  · rename_i id after result
    cases stepped
    exact ⟨id, initRing_done call ring next id result⟩
  · cases stepped

/-- A successful `InitRing` keeps a ring that has only been set up so. -/
theorem setUp_step (ring : Ring) (call : InitCall) (next : Ring) (setUp : SetUp ring)
    (stepped : setupStep ring call = some next) : SetUp next := by
  have opened := setUp.openRing call
  obtain ⟨id, done⟩ := setupStep_done stepped
  cases done with
  | opens unnamed => exact opened
  | attaches named found done =>
    exact opened.attached done (fun _ => opened.found_registered _ id found)
      (fun impossible => by cases impossible)
  | registers named absent done =>
    exact opened.attached done (fun impossible => by cases impossible) (fun _ => rfl)

/-- Any number of successful calls of `InitRing` on fresh memory leaves a ring
that has only been set up. -/
theorem setUp_run (calls : List InitCall) (final : Ring)
    (ran : Runs.run setupStep Ring.zero calls = some final) : SetUp final :=
  Runs.run_invariant setupStep SetUp
    (fun ring call next setUp stepped => setUp_step ring call next setUp stepped)
    Ring.zero final calls setUp_zero ran

end OpenTaker
