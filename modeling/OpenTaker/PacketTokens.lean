import OpenTaker.SignalMemory
import OpenTaker.DecodeBasic
import Mathlib.Data.List.Forall2

/-!
# Tokens of the processing pipeline

Behind the ring, `PacketRay` hands tokens from task to task. The collector enters in a token
the block it was handed and, for each packet of the block, where its meta slot and its data
are. The basic processing decodes every packet into its slot. A task of an application hands
the block to its object, packet by packet if the object asks for packets, and only packets
that pass `checkPacket`.

A token is used again for later blocks. Its list of packets is never shortened, so that it
may have entries of earlier blocks behind those of its own. What an application does is
outside of the library; kept here are the calls it gets. It leaves tokens and slots as they
are.

The decoder does not stop at the end of a packet. What it reads behind it, of a truncated frame or
of a signal that has no packet, is whatever memory holds there at that moment, and is given with
each processing. A packet that is decoded from its own bytes does not depend on it.
-/

namespace OpenTaker

/-- `NS_PER_SECOND`, by which the time of a packet is turned into seconds. -/
def nsPerSecond : Nat := 1000000000

/-- `sizeof(packet_header_t)`, the bytes in front of the data of a packet. -/
def sizeofPacketHeader : Nat := 16

/-- `APP_COMMAND_CHECK_STAT`, the bit of a token's flag that asks for the counters. -/
def appCommandCheckStat : Nat := 1

/-- `PacketToken`. The data is an address and the meta a byte offset of the meta view; `none`
is NULL. -/
structure PacketToken where
  data : Option Nat
  metaInfo : Option Nat
  flag : Nat
deriving DecidableEq

/-- An entry that `resize` adds: no data, no slot, no flag. -/
def PacketToken.zero : PacketToken := ⟨none, none, 0⟩

/-- `BlockToken`: the block by its position in the ring, and an entry for each packet. -/
structure BlockToken where
  pMetaBlk : Option Nat
  flag : Nat
  packetTokens : List PacketToken
deriving DecidableEq

/-- A token of a new pool, which has had no block yet. -/
def BlockToken.zero : BlockToken := ⟨none, 0, []⟩

/-- `GetPacketData`: the address behind the packet's header, or `none` for NULL. -/
def getPacketData (ring : Ring) (id : Nat) (type : PacketType) (metaInfo : PacketMeta) : Option Nat :=
  if metaInfo.headerAddr = 2 ^ 64 - 1 then none
  else
    match type with
    | .napatech => some (u64 (metaInfo.headerAddr + sizeofPacketHeader))
    | _ =>
        (getModuleInfo ring id).bind fun modInfo =>
          modInfo.blockViewStart.map fun start =>
            u64 (start + metaInfo.headerAddr + sizeofPacketHeader)

/-! ## Collecting a block -/

/-- The entry of one packet; `none` when `assert(packet)` fails. -/
def packetToken (ring : Ring) (id : Nat) (block : PktMetaBlk) (index : Nat) : Option PacketToken :=
  (getMetaInBlk ring id block index).map fun offset =>
    ⟨getPacketData ring id block.type (ring.metaAt offset), some offset, 0⟩

/-- The loop over the packets of a block, for so many of them from an index on. -/
def fillTokens (ring : Ring) (id : Nat) (block : PktMetaBlk) :
    Nat → Nat → List PacketToken → Option (List PacketToken)
  | 0, _, tokens => some tokens
  | count + 1, index, tokens =>
      (packetToken ring id block index).bind fun token =>
        fillTokens ring id block count (index + 1) (tokens.set index token)

/-- `packetTokens.resize(curPackets)`, made only when the list is shorter, so that it never shrinks
and its old entries stay. -/
def resizeTokens (tokens : List PacketToken) (curPackets : Nat) : List PacketToken :=
  if tokens.length < curPackets then
    tokens ++ List.replicate (curPackets - tokens.length) PacketToken.zero
  else tokens

/-- What the collector enters in a token for the block at a position. -/
def collectBlock (ring : Ring) (id position : Nat) (token : BlockToken) : Option BlockToken :=
  let block := ring.metaBlk position
  (fillTokens ring id block block.size 0 (resizeTokens token.packetTokens block.size)).map
    fun tokens => ⟨some position, 0, tokens⟩

/-! ## Basic processing -/

/-- `ProcessPacketBasic` on a slot; `none` when it leaves the bytes it is given, or never ends. -/
def basicRecord (data : Option (List UInt8)) (metaInfo : PacketMeta) : Option PacketMeta :=
  match processPacketBasic data (some metaInfo) with
  | .ok (_, decoded) => decoded
  | .error _ => none

/-- The call for one packet. The bytes of the packet that its data points to are kept by its slot, and
those behind them are as they are at the call. -/
def basicProcessPacket (packets behind : Nat → List UInt8) (ring : Ring) (token : PacketToken) :
    Option Ring :=
  match token.metaInfo with
  | none => some ring
  | some offset =>
      (basicRecord (token.data.map fun _ => packets offset ++ behind offset) (ring.metaAt offset)).map
        (ring.setMetaAt offset)

/-- The loop of `CBasicProcessTask`, for so many packets from an index on; `none` for an
entry that the token does not have. -/
def basicProcess (packets behind : Nat → List UInt8) (tokens : List PacketToken) :
    Nat → Nat → Ring → Option Ring
  | 0, _, ring => some ring
  | count + 1, index, ring =>
      tokens[index]?.bind fun token =>
        (basicProcessPacket packets behind ring token).bind
          (basicProcess packets behind tokens count (index + 1))

/-- `CBasicProcessTask::operator()`. It drops what the decoder returns, and goes on with the next
packet. -/
def basicProcessTask (packets behind : Nat → List UInt8) (ring : Ring) (token : BlockToken) :
    Option Ring :=
  match token.pMetaBlk with
  | none => some ring
  | some position => basicProcess packets behind token.packetTokens (ring.metaBlk position).size 0 ring

/-! ## Applications -/

/-- The calls of a `CAPPObj` that an application implements. -/
inductive AppCall where
  /-- `outputCounter(now, false)`. -/
  | outputCounter (now : Nat)
  /-- `doProcessPacket_`, with the meta its token points to. -/
  | processPacket (data : Nat) (metaInfo : PacketMeta)
  /-- `doProcessBlockStart_`. -/
  | blockStart
  /-- `doProcessBlockStop_`. -/
  | blockStop
  /-- `doProcessBlock_`. -/
  | block
deriving DecidableEq

/-- The fields that `checkPacket` tests, all of which must be there before an application sees the
packet. -/
def checkAttr (attr : PacketBasicAttr) : Bool :=
  attr.ts != 0 && attr.pktLen != 0 && attr.srcIP != 0 && attr.dstIP != 0 && attr.srcIP != attr.dstIP

/-- `CAPPObj::processPacket`: nothing is called for a packet that does not pass `checkPacket`. -/
def processPacket (ring : Ring) (token : PacketToken) : List AppCall :=
  match token.metaInfo, token.data with
  | some offset, some data =>
      let metaInfo := ring.metaAt offset
      if checkAttr metaInfo.basicAttr then
        (if token.flag &&& appCommandCheckStat ≠ 0 then
          [.outputCounter (metaInfo.basicAttr.ts / nsPerSecond)] else []) ++
          [.processPacket data metaInfo]
      else []
  | _, _ => []

/-- The loop of `processBlock`, for so many packets from an index on. -/
def processPackets (ring : Ring) (tokens : List PacketToken) : Nat → Nat → Option (List AppCall)
  | 0, _ => some []
  | count + 1, index =>
      tokens[index]?.bind fun token =>
        (processPackets ring tokens count (index + 1)).map (processPacket ring token ++ ·)

/-- A task of an application: whether its filter is serial, and `m_needProcessPacket`. -/
structure AppTask where
  isSerial : Bool
  needProcessPacket : Bool
deriving DecidableEq

/-- `CAPPObj::processBlock` of the block at a position: the calls to the application, packet by
packet or for the whole block. -/
def processBlock (app : AppTask) (ring : Ring) (position : Nat) (tokens : List PacketToken) :
    Option (List AppCall) :=
  if app.needProcessPacket then
    (processPackets ring tokens (ring.metaBlk position).size 0).map fun calls =>
      .blockStart :: calls ++ [.blockStop]
  else some [.block]

/-- `CAppTask::operator()`: hand the block of a token to an application, in the calls that are kept
here. -/
def appTask (app : AppTask) (ring : Ring) (token : BlockToken) : Option (List AppCall) :=
  match token.pMetaBlk with
  | none => some []
  | some position => processBlock app ring position token.packetTokens

/-! ## Tasks -/

/-- The tasks between the collector and the return task. Who adds them is not part of the
library. -/
inductive PipelineTask where
  | basic (isSerial : Bool)
  | app (task : AppTask)
deriving DecidableEq

/-- `isMustSerial` of a task, by which its filter is added to the pipeline as serial or parallel. -/
def PipelineTask.isSerial : PipelineTask → Bool
  | .basic isSerial => isSerial
  | .app task => task.isSerial

/-- Only the basic processing decodes. How often a block is decoded is counted by this. -/
def PipelineTask.isBasic : PipelineTask → Bool
  | .basic _ => true
  | .app _ => false

/-- A task on a token: the ring after it, and the calls of an application. -/
def runTask (task : PipelineTask) (packets behind : Nat → List UInt8) (ring : Ring) (token : BlockToken) :
    Option (Ring × Option (List AppCall)) :=
  match task with
  | .basic _ => (basicProcessTask packets behind ring token).map fun after => (after, none)
  | .app app => (appTask app ring token).map fun calls => (ring, some calls)

/-! ## What the loops compute -/

/-- A packet as a published block has it: its meta, and the bytes its data points to. -/
abbrev Packet := PacketMeta × List UInt8

/-- What a block was published with: its type, and for each packet the meta and the bytes captured. -/
structure BlockPackets where
  type : PacketType
  packets : List Packet

/-- The data pointer of a packet, for a block view that starts at an address. -/
def packetData (start : Nat) (type : PacketType) (metaInfo : PacketMeta) : Option Nat :=
  if metaInfo.headerAddr = 2 ^ 64 - 1 then none
  else
    match type with
    | .napatech => some (u64 (metaInfo.headerAddr + sizeofPacketHeader))
    | _ => some (u64 (start + metaInfo.headerAddr + sizeofPacketHeader))

/-- The data pointer of a slot depends on where the module has mapped the blocks, and not on the
ring otherwise. -/
theorem getPacketData_eq {ring : Ring} {id start : Nat} {modInfo : ModuleInfo}
    (valid : getModuleInfo ring id = some modInfo) (mapped : modInfo.blockViewStart = some start)
    (type : PacketType) (metaInfo : PacketMeta) :
    getPacketData ring id type metaInfo = packetData start type metaInfo := by
  simp only [getPacketData, packetData, valid, mapped, Option.bind_some, Option.map_some]

/-- The bytes that the decoder is given for a packet, with those behind it; `none` for a NULL pointer. -/
def basicData (start : Nat) (type : PacketType) (packet : Packet) (behind : List UInt8) :
    Option (List UInt8) :=
  (packetData start type packet.1).map fun _ => packet.2 ++ behind

/-- What may be in the meta of a packet that was decoded so many times. Each time it was decoded in
place, with other bytes behind it perhaps. -/
def Decoded (start : Nat) (type : PacketType) (packet : Packet) : Nat → PacketMeta → Prop
  | 0, record => record = packet.1
  | times + 1, record => ∃ before behind, Decoded start type packet times before ∧
      basicRecord (basicData start type packet behind) before = some record

/-- The meta of a packet after it was decoded so many times from its own bytes; `none` after a read
beyond them. -/
def recordAfter (start : Nat) (type : PacketType) (packet : Packet) : Nat → Option PacketMeta
  | 0 => some packet.1
  | times + 1 => (recordAfter start type packet times).bind (basicRecord (basicData start type packet []))

/-- What was decoded from the bytes of the packet is the same with more bytes behind it. -/
theorem basicRecord_append {start : Nat} {type : PacketType} {packet : Packet} {before record : PacketMeta}
    (decoded : basicRecord (basicData start type packet []) before = some record) (behind : List UInt8) :
    basicRecord (basicData start type packet behind) before = some record := by
  simp only [basicData, List.append_nil] at decoded ⊢
  cases data : packetData start type packet.1 with
  | none =>
    rw [data] at decoded
    exact decoded
  | some addr =>
    rw [data] at decoded
    simp only [basicRecord, Option.map_some, processPacketBasic] at decoded ⊢
    cases result : decodePacket packet.2 before with
    | error fault =>
      rw [result] at decoded
      cases decoded
    | ok made =>
      rw [result] at decoded
      rw [decodePacket_extends packet.2 behind before made result]
      exact decoded

/-- So the meta of a packet that is never read beyond its end depends on the packet alone. -/
theorem decoded_iff {start : Nat} {type : PacketType} {packet : Packet} {times : Nat}
    {record other : PacketMeta} (inside : recordAfter start type packet times = some record) :
    Decoded start type packet times other ↔ other = record := by
  induction times generalizing record other with
  | zero =>
    obtain rfl := Option.some.inj inside
    exact Iff.rfl
  | succ times inductionHypothesis =>
    obtain ⟨before, isBefore, decodes⟩ := Option.bind_eq_some_iff.mp inside
    constructor
    · rintro ⟨previous, behind, decoded, made⟩
      rw [(inductionHypothesis isBefore).mp decoded, basicRecord_append decodes behind] at made
      exact (Option.some.inj made).symm
    · rintro rfl
      exact ⟨before, [], (inductionHypothesis isBefore).mpr rfl, decodes⟩

/-- The calls an application gets for a packet, given its data pointer and its meta. -/
def packetCalls (data : Option Nat) (metaInfo : PacketMeta) : List AppCall :=
  match data with
  | some data => if checkAttr metaInfo.basicAttr then [.processPacket data metaInfo] else []
  | none => []

/-- The calls an application gets for a block, given the metas of its packets. -/
def blockCalls (app : AppTask) (start : Nat) (type : PacketType) (packets : List Packet)
    (metas : List PacketMeta) : List AppCall :=
  if app.needProcessPacket then
    .blockStart ::
      ((packets.zip metas).flatMap fun (packet, metaInfo) =>
        packetCalls (packetData start type packet.1) metaInfo) ++ [.blockStop]
  else [.block]

/-- The calls an application may get for a block whose packets were decoded so many times. -/
def BlockCalls (app : AppTask) (start : Nat) (sent : BlockPackets) (times : Nat) (calls : List AppCall) :
    Prop :=
  ∃ metas, List.Forall₂ (fun packet record => Decoded start sent.type packet times record) sent.packets metas ∧
    calls = blockCalls app start sent.type sent.packets metas

/-- Where no packet of the block is read beyond its end, there is one answer. -/
theorem blockCalls_iff {app : AppTask} {start times : Nat} {sent : BlockPackets} {records : List PacketMeta}
    {calls : List AppCall}
    (inside : List.Forall₂ (fun packet record => recordAfter start sent.type packet times = some record)
      sent.packets records) :
    BlockCalls app start sent times calls ↔ calls = blockCalls app start sent.type sent.packets records := by
  have unique (metas : List PacketMeta) :
      List.Forall₂ (fun packet record => Decoded start sent.type packet times record) sent.packets metas ↔
        metas = records := by
    generalize sent.packets = packets at inside
    induction inside generalizing metas with
    | nil => exact List.forall₂_nil_left_iff
    | cons one _ inductionHypothesis =>
      rw [List.forall₂_cons_left_iff]
      constructor
      · rintro ⟨other, rest, decoded, further, rfl⟩
        rw [(decoded_iff one).mp decoded, (inductionHypothesis rest).mp further]
      · rintro rfl
        exact ⟨_, _, (decoded_iff one).mpr rfl, (inductionHypothesis _).mpr rfl, rfl⟩
  simp only [BlockCalls, unique, exists_eq_left]

/-- The entries of a token that are in use: for each packet its data, its slot, and no flag. -/
def inUse (start capacity position : Nat) (type : PacketType) (packets : List Packet) :
    List PacketToken :=
  packets.mapIdx fun index packet =>
    ⟨packetData start type packet.1, some (slotAt capacity position index), 0⟩

/-- A token has an entry in use for each packet of its block. -/
@[simp] theorem inUse_length (start capacity position : Nat) (type : PacketType)
    (packets : List Packet) : (inUse start capacity position type packets).length = packets.length := by
  simp [inUse]

/-- The entry of a packet in a token. The entries behind, of earlier blocks, do not matter for it. -/
theorem inUse_get (start capacity position : Nat) (type : PacketType) (packets : List Packet)
    (rest : List PacketToken) (index : Nat) (inside : index < packets.length) :
    (inUse start capacity position type packets ++ rest)[index]? =
      some ⟨packetData start type packets[index].1, some (slotAt capacity position index), 0⟩ := by
  rw [List.getElem?_append_left (by simpa using inside)]
  simp [inUse, inside]

/-- The slots of one block are different: writing one meta leaves the others. -/
theorem metaAt_setMetaAt_index (ring : Ring) (capacity position index other : Nat)
    (record : PacketMeta) (different : other ≠ index) :
    (ring.setMetaAt (slotAt capacity position index) record).metaAt (slotAt capacity position other) =
      ring.metaAt (slotAt capacity position other) := by
  apply metaAt_setMetaAt_slotAt
  simp only [slotAt, sizeofPacketMeta]
  omega

/-- The loop of the collector replaces the entries of the block's packets. -/
theorem fillTokens_eq (ring : Ring) (id : Nat) (block : PktMetaBlk) (entry : Nat → PacketToken)
    (count index : Nat) (tokens : List PacketToken) (room : index + count ≤ tokens.length)
    (entries : ∀ offset < count, packetToken ring id block (index + offset) =
      some (entry (index + offset))) :
    fillTokens ring id block count index tokens =
      some (tokens.take index ++ (List.range' index count).map entry ++
        tokens.drop (index + count)) := by
  induction count generalizing index tokens with
  | zero => simp [fillTokens]
  | succ count inductionHypothesis =>
    have now := entries 0 (by omega)
    rw [Nat.add_zero] at now
    have later : ∀ offset < count, packetToken ring id block (index + 1 + offset) =
        some (entry (index + 1 + offset)) := by
      intro offset inside
      have following := entries (offset + 1) (by omega)
      rwa [← Nat.add_assoc, Nat.add_right_comm] at following
    rw [fillTokens, now, Option.bind_some,
      inductionHypothesis (index + 1) _ (by rw [List.length_set]; omega) later]
    congr 1
    have here : index < tokens.length := by omega
    have front : (tokens.set index (entry index)).take (index + 1) =
        tokens.take index ++ [entry index] := by
      rw [List.take_succ_eq_append_getElem (by simpa using here), List.take_set_of_le (Nat.le_refl _)]
      simp
    rw [front, List.drop_set_of_lt (by omega), List.range'_succ, List.map_cons]
    have total : index + 1 + count = index + (count + 1) := by omega
    rw [total]
    simp

/-- The loop of an application goes over the packets of the block. -/
theorem processPackets_eq (ring : Ring) (tokens : List PacketToken) (entry : Nat → PacketToken)
    (count index : Nat)
    (entries : ∀ offset < count, tokens[index + offset]? = some (entry (index + offset))) :
    processPackets ring tokens count index =
      some ((List.range' index count).flatMap fun place => processPacket ring (entry place)) := by
  induction count generalizing index with
  | zero => rfl
  | succ count inductionHypothesis =>
    have now := entries 0 (by omega)
    rw [Nat.add_zero] at now
    have later : ∀ offset < count, tokens[index + 1 + offset]? = some (entry (index + 1 + offset)) := by
      intro offset inside
      have following := entries (offset + 1) (by omega)
      rwa [← Nat.add_assoc, Nat.add_right_comm] at following
    rw [processPackets, now, Option.bind_some, inductionHypothesis (index + 1) later,
      List.range'_succ, List.flatMap_cons, Option.map_some]

/-- The block at a position holds what was sent, each of its packets decoded so many times. The bytes of
the packets are never written, only their metas. -/
structure Holding (start capacity position : Nat) (sent : BlockPackets) (times : Nat) (ring : Ring)
    (packets : Nat → List UInt8) : Prop where
  size : (ring.metaBlk position).size = sent.packets.length
  type : (ring.metaBlk position).type = sent.type
  metas : ∀ index (inside : index < sent.packets.length),
    Decoded start sent.type sent.packets[index] times (ring.metaAt (slotAt capacity position index))
  bytes : ∀ index (inside : index < sent.packets.length),
    packets (slotAt capacity position index) = sent.packets[index].2

/-- The token of a block, whatever its list of packets has behind those of the block. -/
def blockToken (start capacity position : Nat) (sent : BlockPackets) (rest : List PacketToken) : BlockToken :=
  ⟨some position, 0, inUse start capacity position sent.type sent.packets ++ rest⟩

namespace Holding

variable {start capacity position times : Nat} {sent : BlockPackets} {ring : Ring}
  {packets : Nat → List UInt8}

/-- A block holds the same while its slots and its fields are the same. -/
theorem kept (holding : Holding start capacity position sent times ring packets) {after : Ring}
    {packetsThen : Nat → List UInt8}
    (size : (after.metaBlk position).size = (ring.metaBlk position).size)
    (type : (after.metaBlk position).type = (ring.metaBlk position).type)
    (metas : ∀ index < sent.packets.length, after.metaAt (slotAt capacity position index) =
      ring.metaAt (slotAt capacity position index))
    (bytes : ∀ index < sent.packets.length, packetsThen (slotAt capacity position index) =
      packets (slotAt capacity position index)) :
    Holding start capacity position sent times after packetsThen where
  size := size.trans holding.size
  type := type.trans holding.type
  metas index inside := by
    rw [metas index inside]
    exact holding.metas index inside
  bytes index inside := by rw [bytes index inside, holding.bytes index inside]

/-- The collector enters the packets of a block in front of what the token has left over. -/
theorem collectBlock_eq (holding : Holding start capacity position sent 0 ring packets) {id : Nat}
    {modInfo : ModuleInfo} (valid : getModuleInfo ring id = some modInfo)
    (mapped : modInfo.blockViewStart = some start)
    (slots : ∀ index < sent.packets.length,
      getMetaInBlk ring id (ring.metaBlk position) index = some (slotAt capacity position index))
    (token : BlockToken) :
    collectBlock ring id position token = some (blockToken start capacity position sent
      ((resizeTokens token.packetTokens sent.packets.length).drop sent.packets.length)) := by
  have whole : sent.packets.length ≤ (resizeTokens token.packetTokens sent.packets.length).length := by
    simp only [resizeTokens]
    split
    · simp only [List.length_append, List.length_replicate]
      omega
    · omega
  have entries : ∀ offset < sent.packets.length,
      packetToken ring id (ring.metaBlk position) (0 + offset) =
        some (((inUse start capacity position sent.type sent.packets)[0 + offset]?).getD .zero) := by
    intro offset inside
    have isRaw : ring.metaAt (slotAt capacity position offset) = sent.packets[offset].1 :=
      holding.metas offset inside
    rw [Nat.zero_add, packetToken, slots offset inside, Option.map_some, holding.type, isRaw,
      getPacketData_eq valid mapped]
    simp [inUse, inside]
  have filled := fillTokens_eq ring id (ring.metaBlk position)
    (fun index => ((inUse start capacity position sent.type sent.packets)[index]?).getD .zero)
    sent.packets.length 0 _ (by rw [Nat.zero_add]; exact whole) entries
  have front : (List.range' 0 sent.packets.length).map
      (fun index => ((inUse start capacity position sent.type sent.packets)[index]?).getD .zero) =
        inUse start capacity position sent.type sent.packets := by
    apply List.ext_getElem
    · simp
    · intro index left right
      have inside : index < sent.packets.length := by simpa using right
      simp [inUse, inside]
  rw [front, List.take_zero, List.nil_append, Nat.zero_add] at filled
  simp only [collectBlock, holding.size, filled, Option.map_some, blockToken]

/-- The entries of a token point to the packets of its block. -/
theorem entry (rest : List PacketToken) (index : Nat) (inside : index < sent.packets.length) :
    (blockToken start capacity position sent rest).packetTokens[index]? =
      some ⟨packetData start sent.type sent.packets[index].1, some (slotAt capacity position index),
        0⟩ :=
  inUse_get start capacity position sent.type sent.packets rest index inside

/-- Decoding the packet at an index writes what the decoder makes of its meta into its slot. -/
theorem decode_iff {behind : Nat → List UInt8} {after : Ring} (index : Nat)
    (inside : index < sent.packets.length)
    (bytes : packets (slotAt capacity position index) = sent.packets[index].2) :
    basicProcessPacket packets behind ring ⟨packetData start sent.type sent.packets[index].1,
        some (slotAt capacity position index), 0⟩ = some after ↔
      ∃ record, basicRecord (basicData start sent.type sent.packets[index]
            (behind (slotAt capacity position index)))
          (ring.metaAt (slotAt capacity position index)) = some record ∧
        ring.setMetaAt (slotAt capacity position index) record = after := by
  simp only [basicProcessPacket, Option.map_eq_some_iff, basicData, bytes]

end Holding

/-- Only slots of the block at a position have been written. -/
structure DecodesAt (capacity position count : Nat) (before after : Ring) : Prop where
  global : after.global = before.global
  metaBlk : after.metaBlk = before.metaBlk
  metas : ∀ offset, (∀ index < count, slotAt capacity position index / sizeofPacketMeta ≠
    offset / sizeofPacketMeta) → after.metaAt offset = before.metaAt offset

/-- Decoding nothing changes nothing, which is the start of the loop over the packets. -/
theorem DecodesAt.refl (capacity position count : Nat) (ring : Ring) :
    DecodesAt capacity position count ring ring := ⟨rfl, rfl, fun _ _ => rfl⟩

/-- Decodings of the same slots add up, from one turn of the loop to the next. -/
theorem DecodesAt.trans {capacity position count : Nat} {before middle after : Ring}
    (first : DecodesAt capacity position count before middle)
    (second : DecodesAt capacity position count middle after) :
    DecodesAt capacity position count before after where
  global := second.global.trans first.global
  metaBlk := second.metaBlk.trans first.metaBlk
  metas offset apart := (second.metas offset apart).trans (first.metas offset apart)

/-- Decoding one slot of a block is a change of that slot and of no other. -/
theorem DecodesAt.setMetaAt {capacity position count index : Nat} (ring : Ring) (record : PacketMeta)
    (inside : index < count) :
    DecodesAt capacity position count ring
      (ring.setMetaAt (slotAt capacity position index) record) where
  global := rfl
  metaBlk := rfl
  metas _ apart := Function.update_of_ne (Ne.symm (apart index inside)) _ _

section Loop

variable {start capacity position times : Nat} {sent : BlockPackets}
  {packets : Nat → List UInt8}

/-- The packets before an index are decoded once more often than those from it on. -/
def DecodedTo (start capacity position : Nat) (sent : BlockPackets) (times index : Nat) (ring : Ring) :
    Prop :=
  ∀ place (inside : place < sent.packets.length),
    Decoded start sent.type sent.packets[place] (if place < index then times + 1 else times)
      (ring.metaAt (slotAt capacity position place))

/-- Decoding the packet at the index moves it on. -/
theorem DecodedTo.next {index : Nat} {ring : Ring} {record : PacketMeta}
    (decodedTo : DecodedTo start capacity position sent times index ring)
    (inside : index < sent.packets.length)
    (decoded : Decoded start sent.type sent.packets[index] (times + 1) record) :
    DecodedTo start capacity position sent times (index + 1)
      (ring.setMetaAt (slotAt capacity position index) record) := by
  intro place within
  by_cases same : place = index
  · subst same
    rw [metaAt_setMetaAt, if_pos (Nat.lt_succ_self place)]
    exact decoded
  · have order : place < index + 1 ↔ place < index := by omega
    rw [metaAt_setMetaAt_index _ _ _ _ _ _ same]
    simp only [order]
    exact decodedTo place within

/-- The loop of the basic processing decodes every packet from its index on. -/
theorem basicProcess_spec {behind : Nat → List UInt8} (rest : List PacketToken)
    (bytes : ∀ index (inside : index < sent.packets.length),
      packets (slotAt capacity position index) = sent.packets[index].2)
    (count index : Nat) (total : index + count = sent.packets.length) (ring after : Ring)
    (decodedTo : DecodedTo start capacity position sent times index ring)
    (ran : basicProcess packets behind (blockToken start capacity position sent rest).packetTokens count
      index ring = some after) :
    DecodedTo start capacity position sent times sent.packets.length after ∧
      DecodesAt capacity position sent.packets.length ring after := by
  induction count generalizing index ring with
  | zero =>
    obtain rfl : ring = after := Option.some.inj ran
    obtain rfl : index = sent.packets.length := total
    exact ⟨decodedTo, .refl _ _ _ _⟩
  | succ count inductionHypothesis =>
    have inside : index < sent.packets.length := by omega
    have isRecord := decodedTo index inside
    rw [if_neg (Nat.lt_irrefl index)] at isRecord
    rw [basicProcess, Holding.entry rest index inside, Option.bind_some,
      Option.bind_eq_some_iff] at ran
    obtain ⟨next, decodes, remaining⟩ := ran
    obtain ⟨record, decoded, rfl⟩ := (Holding.decode_iff index inside (bytes index inside)).mp decodes
    obtain ⟨finished, writes⟩ := inductionHypothesis (index + 1) (by omega) _
      (decodedTo.next inside ⟨_, _, isRecord, decoded⟩) remaining
    exact ⟨finished, (DecodesAt.setMetaAt ring record inside).trans writes⟩

/-- It goes through when no packet is read beyond its end, whatever is behind the packets. -/
theorem basicProcess_isSome (behind : Nat → List UInt8) (rest : List PacketToken)
    (bytes : ∀ index (inside : index < sent.packets.length),
      packets (slotAt capacity position index) = sent.packets[index].2)
    (decodable : ∀ packet ∈ sent.packets, (recordAfter start sent.type packet (times + 1)).isSome)
    (count index : Nat) (total : index + count = sent.packets.length) (ring : Ring)
    (decodedTo : DecodedTo start capacity position sent times index ring) :
    (basicProcess packets behind (blockToken start capacity position sent rest).packetTokens count index
      ring).isSome := by
  induction count generalizing index ring with
  | zero => rfl
  | succ count inductionHypothesis =>
    have inside : index < sent.packets.length := by omega
    have isRecord := decodedTo index inside
    rw [if_neg (Nat.lt_irrefl index)] at isRecord
    obtain ⟨record, decoded⟩ :=
      Option.isSome_iff_exists.mp (decodable sent.packets[index] (List.getElem_mem inside))
    obtain ⟨before, isBefore, made⟩ := Option.bind_eq_some_iff.mp decoded
    rw [← (decoded_iff isBefore).mp isRecord] at made
    have further := basicRecord_append made (behind (slotAt capacity position index))
    have decodes := (Holding.decode_iff index inside (bytes index inside)).mpr ⟨record, further, rfl⟩
    rw [basicProcess, Holding.entry rest index inside, Option.bind_some, decodes, Option.bind_some]
    exact inductionHypothesis (index + 1) (by omega) _ (decodedTo.next inside ⟨_, _, isRecord, further⟩)

end Loop

namespace Holding

variable {start capacity position times : Nat} {sent : BlockPackets} {ring : Ring}
  {packets : Nat → List UInt8}

/-- Before the loop starts, every slot of the block holds its packet decoded so many times. -/
theorem decodedTo (holding : Holding start capacity position sent times ring packets) :
    DecodedTo start capacity position sent times 0 ring := holding.metas

/-- The basic processing decodes the packets of its block, and writes no other slot. -/
theorem basicProcessTask_spec (holding : Holding start capacity position sent times ring packets)
    {behind : Nat → List UInt8} (rest : List PacketToken) {after : Ring}
    (ran : basicProcessTask packets behind ring (blockToken start capacity position sent rest) = some after) :
    Holding start capacity position sent (times + 1) after packets ∧
      DecodesAt capacity position sent.packets.length ring after := by
  simp only [basicProcessTask, blockToken, holding.size] at ran
  obtain ⟨decoded, writes⟩ := basicProcess_spec rest holding.bytes sent.packets.length 0
    (Nat.zero_add _) ring after holding.decodedTo ran
  refine ⟨⟨?_, ?_, fun index inside => ?_, holding.bytes⟩, writes⟩
  · rw [writes.metaBlk, holding.size]
  · rw [writes.metaBlk, holding.type]
  · have isRecord := decoded index inside
    rwa [if_pos inside] at isRecord

/-- A basic processing is a step when no packet of the block is read beyond its end, whatever is
behind the packets. -/
theorem basicProcessTask_isSome (holding : Holding start capacity position sent times ring packets)
    (behind : Nat → List UInt8) (rest : List PacketToken)
    (decodable : ∀ packet ∈ sent.packets, (recordAfter start sent.type packet (times + 1)).isSome) :
    (basicProcessTask packets behind ring (blockToken start capacity position sent rest)).isSome := by
  simp only [basicProcessTask, blockToken, holding.size]
  exact basicProcess_isSome behind rest holding.bytes decodable sent.packets.length 0 (Nat.zero_add _) ring
    holding.decodedTo

/-- The flag of an entry is clear, so that its counters are not output. -/
theorem processPacket_eq (ring : Ring) (data : Option Nat) (offset : Nat) :
    processPacket ring ⟨data, some offset, 0⟩ = packetCalls data (ring.metaAt offset) := by
  cases data with
  | none => rfl
  | some data => simp [processPacket, packetCalls]

/-- The metas in the first slots of a block, as a reader of the ring finds them. -/
def slotMetas (ring : Ring) (capacity position count : Nat) : List PacketMeta :=
  (List.range count).map fun index => ring.metaAt (slotAt capacity position index)

/-- They are what the packets of the block were decoded to. -/
theorem slotMetas_decoded (holding : Holding start capacity position sent times ring packets) :
    List.Forall₂ (fun packet record => Decoded start sent.type packet times record) sent.packets
      (slotMetas ring capacity position sent.packets.length) := by
  rw [List.forall₂_iff_get]
  refine ⟨by simp [slotMetas], fun index inside _ => ?_⟩
  simp only [slotMetas, List.get_eq_getElem, List.getElem_map, List.getElem_range]
  exact holding.metas index inside

/-- What a task of an application calls for a block: the loop over the entries is one over the packets and
the metas in their slots. -/
theorem appTask_eq (holding : Holding start capacity position sent times ring packets)
    (rest : List PacketToken) (app : AppTask) :
    appTask app ring (blockToken start capacity position sent rest) =
      some (blockCalls app start sent.type sent.packets
        (slotMetas ring capacity position sent.packets.length)) := by
  simp only [appTask, blockToken, processBlock, blockCalls]
  split
  · have entries : ∀ offset < sent.packets.length,
        (blockToken start capacity position sent rest).packetTokens[0 + offset]? =
          some (((inUse start capacity position sent.type sent.packets)[0 + offset]?).getD .zero) := by
      intro offset inside
      rw [Nat.zero_add, entry rest offset inside]
      simp [inUse, inside]
    have processed := processPackets_eq ring _
      (fun index => ((inUse start capacity position sent.type sent.packets)[index]?).getD .zero)
      sent.packets.length 0 entries
    have called : (List.range' 0 sent.packets.length).flatMap (fun place => processPacket ring
        (((inUse start capacity position sent.type sent.packets)[place]?).getD .zero)) =
          (sent.packets.zip (slotMetas ring capacity position sent.packets.length)).flatMap
            fun (packet, metaInfo) => packetCalls (packetData start sent.type packet.1) metaInfo := by
      rw [List.flatMap_def, List.flatMap_def]
      congr 1
      apply List.ext_getElem
      · simp [slotMetas]
      · intro index left right
        have inside : index < sent.packets.length := by simpa using left
        simp [inUse, inside, slotMetas, processPacket_eq]
    rw [called] at processed
    rw [holding.size]
    simp only [blockToken] at processed
    rw [processed, Option.map_some]
  · rfl

/-- So they are calls that follow from what was sent. -/
theorem appTask_calls (holding : Holding start capacity position sent times ring packets)
    (rest : List PacketToken) (app : AppTask) :
    ∃ calls, appTask app ring (blockToken start capacity position sent rest) = some calls ∧
      BlockCalls app start sent times calls :=
  ⟨_, holding.appTask_eq rest app, _, holding.slotMetas_decoded, rfl⟩

end Holding

end OpenTaker
