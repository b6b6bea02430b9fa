import OpenTaker.RingOrder

/-!
# The packet cursors

Beside the meta blocks, the ring has a second pair of positions that count single
packets: `g_tailPacket`, a free running counter that is masked when it is used,
and the `packetPtr` of each module, which is masked when it is stored. The
operations here are taken whole; the block positions do not depend on them.
-/

namespace OpenTaker

open CursorPipeline

/-- The packet cursor of a module, which stands beside its block cursor. -/
def Ring.packetPtr (ring : Ring) (id : Nat) : Nat := (ring.global.moduleInfo id).packetPtr

/-- Write the packet cursor of a module, and nothing else of its entry. -/
def Ring.setPacketPtr (ring : Ring) (id position : Nat) : Ring :=
  ring.setModuleInfo id { ring.global.moduleInfo id with packetPtr := position }

/-- Write `g_tailPacket`, which counts on without a mask, unlike the cursors of the modules. -/
def Ring.setTailPacket (ring : Ring) (position : Nat) : Ring :=
  { ring with global := { ring.global with tailPacket := position } }

/-- Give a meta record its packet length, by which a slot is known to be filled. -/
def PacketMeta.setPktLen (record : PacketMeta) (pktLen : Nat) : PacketMeta :=
  { record with basicAttr := { record.basicAttr with pktLen := pktLen } }

/-- Write the packet length of a meta slot, which is the last field that a producer writes. -/
def Ring.setPktLen (ring : Ring) (slot pktLen : Nat) : Ring :=
  { ring with
    packetMeta := Function.update ring.packetMeta slot ((ring.packetMeta slot).setPktLen pktLen) }

/-- The meta slot at a packet position. The product is taken in 32 bits. -/
def metaSlot (ring : Ring) (position : Nat) : Nat :=
  u32 (ring.global.metaSize * position) / sizeofPacketMeta

/-- `GetNextMetaSpace` with `_wait = false`: the position of the slot, or `none` for
NULL. The tail has moved even when the slot turns out to be in use. -/
def getNextMetaSpace (ring : Ring) : Option Nat × Ring :=
  let global := ring.global
  let nextPos := u32 ((global.tailPacket &&& global.metaCount) + 1) &&& global.metaCount
  if nextPos = ring.packetPtr 0 then (none, ring)
  else
    let taken := ring.setTailPacket (u32 (global.tailPacket + 1))
    let tailPos := global.tailPacket &&& global.metaCount
    if (ring.packetMeta (metaSlot ring tailPos)).basicAttr.pktLen ≠ 0 then (none, taken)
    else (some tailPos, taken)

/-- The stored packet position a module may advance to. -/
def limPacketPtr (ring : Ring) (id : Nat) : Nat :=
  if id = 1 ∨ id = depModId ring.global id then ring.global.tailPacket &&& ring.global.metaCount
  else ring.packetPtr (depModId ring.global id)

/-- `MoveToNextPacket` for a count that is not negative: a move behind the limit is refused, and the
new cursor is masked. -/
def moveToNextPacket (ring : Ring) (id count : Nat) : Int × Ring :=
  if ¬ (ring.global.moduleInfo id).mapped then (-2, ring)
  else
    let curPtr := ring.packetPtr id
    let lim := limPacketPtr ring id
    let lim := if lim < curPtr then u32 (lim + getMetaCount ring) else lim
    if u32 (curPtr + count) ≤ lim then
      let moved := u32 (curPtr + count) &&& ring.global.metaCount
      (i32 moved, ring.setPacketPtr id moved)
    else (-3, ring)

section Updates

variable (ring : Ring) (id other position : Nat)

/-- The packet cursor reads back as it was set. -/
@[simp] theorem setPacketPtr_self : (ring.setPacketPtr id position).packetPtr id = position := by
  simp [Ring.setPacketPtr, Ring.setModuleInfo, Ring.packetPtr]

/-- The packet cursors of the other modules stay, as a module writes none but its own. -/
theorem setPacketPtr_other (distinct : other ≠ id) :
    (ring.setPacketPtr id position).packetPtr other = ring.packetPtr other := by
  simp [Ring.setPacketPtr, Ring.setModuleInfo, Ring.packetPtr, distinct]

/-- Moving a packet cursor moves no block cursor: the two are different fields of the entry. -/
@[simp] theorem setPacketPtr_blkPtr :
    (ring.setPacketPtr id position).blkPtr other = ring.blkPtr other := by
  by_cases same : other = id
  · subst same
    simp [Ring.setPacketPtr, Ring.setModuleInfo, Ring.blkPtr]
  · simp [Ring.setPacketPtr, Ring.setModuleInfo, Ring.blkPtr, same]

/-- A packet cursor is no view, so that modules are mapped as before. -/
@[simp] theorem setPacketPtr_mapped :
    ((ring.setPacketPtr id position).global.moduleInfo other).mapped =
      (ring.global.moduleInfo other).mapped := by
  by_cases same : other = id
  · subst same
    simp [Ring.setPacketPtr, Ring.setModuleInfo, ModuleInfo.mapped]
  · simp [Ring.setPacketPtr, Ring.setModuleInfo, same]

end Updates

namespace Represents

variable {modules blocks : Nat} {ring : Ring} {cursors : Cursors}

/-- Packet cursors and block cursors are different fields: the blocks of the ring are represented as
before. -/
theorem setPacketPtr (represents : Represents modules blocks ring cursors) (id position : Nat) :
    Represents modules blocks (ring.setPacketPtr id position) cursors where
  registered := represents.registered
  blockCount := represents.blockCount
  narrow := represents.narrow
  mapped other inside := by simpa using represents.mapped other inside
  stored other inside := by simpa using represents.stored other inside
  storedTail := represents.storedTail
  ordered := represents.ordered

/-- So are they when the tail of the packets moves. -/
theorem setTailPacket (represents : Represents modules blocks ring cursors) (position : Nat) :
    Represents modules blocks (ring.setTailPacket position) cursors where
  registered := represents.registered
  blockCount := represents.blockCount
  narrow := represents.narrow
  mapped := represents.mapped
  stored := represents.stored
  storedTail := represents.storedTail
  ordered := represents.ordered

/-- Taking a packet slot leaves the block positions alone. -/
theorem getNextMetaSpace (represents : Represents modules blocks ring cursors) :
    Represents modules blocks (OpenTaker.getNextMetaSpace ring).2 cursors := by
  simp only [OpenTaker.getNextMetaSpace]
  split
  · exact represents
  · split <;> exact represents.setTailPacket _

/-- So does moving over packets, which writes a packet cursor only. -/
theorem moveToNextPacket (represents : Represents modules blocks ring cursors) (id count : Nat) :
    Represents modules blocks (OpenTaker.moveToNextPacket ring id count).2 cursors := by
  simp only [OpenTaker.moveToNextPacket]
  split
  · exact represents
  · split
    · split
      · exact represents.setPacketPtr id _
      · exact represents
    · split
      · exact represents.setPacketPtr id _
      · exact represents

end Represents

end OpenTaker
