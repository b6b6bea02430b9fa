import OpenTaker.ByteReads
import OpenTaker.NtpFractions

/-!
# NTP packets

`GetNTPTime` sends a request and receives the reply into the same buffer, of 384 bytes. How many
bytes came is not looked at. The words of the reply are read and swapped. Its first four bytes
are read as signed characters and swapped as words, so that what is stored is their sign.
-/

namespace OpenTaker.NtpPackets

open ByteReads NtpFractions

/-- `NtpTime_t`: seconds since 1900, and the fraction in units of `2 ^ -32` seconds. -/
structure NtpTime where
  coarse : UInt32
  fine : UInt32
deriving DecidableEq

/-- `NtpPacket`: the fields of a reply as the source stores them. -/
structure NtpPacket where
  leapVerMode : UInt8
  startum : UInt8
  poll : Int8
  precision : Int8
  rootDelay : Int32
  rootDispersion : Int32
  referenceIdentifier : Int32
  referenceTimestamp : NtpTime
  originageTimestamp : NtpTime
  receiveTimestamp : NtpTime
  transmitTimestamp : NtpTime
deriving DecidableEq

/-! ## The request -/

/-- `JAN_1970`: the seconds from 1900, where the time of the network begins, to 1970. -/
def jan1970 : UInt32 := 0x83aa7e80

/-- The first word of a request: no leap warning, the version, mode 3, stratum 0, poll 4 and precision -6. -/
def header (version : UInt32) : UInt32 :=
  ((0 : UInt32) <<< 30) ||| (version <<< 27) ||| ((3 : UInt32) <<< 24) ||| ((0 : UInt32) <<< 16) |||
    ((4 : UInt32) <<< 8) ||| (0xfa : UInt32)

/-- `ConstructPacket`, at a time in seconds: the 48 bytes of a request, for the versions from 1 to
4. -/
def constructPacket (version timer : Int) : Option (List UInt8) :=
  if version < 1 ∨ 4 < version then none
  else some (be32 (header (UInt32.ofInt version)) ++ be32 ((1 : UInt32) <<< 16) ++ be32 ((1 : UInt32) <<< 16) ++
    List.replicate 28 0 ++ be32 (UInt32.ofInt (jan1970.toNat + timer)) ++ be32 (UInt32.ofInt (ntpFrac timer)))

/-- `data`, as it is sent: the bytes of the request in a buffer of 384, and zeros for a version that
is refused. -/
def request (version timer : Int) : List UInt8 :=
  match constructPacket version timer with
  | some packet => packet ++ List.replicate 336 0
  | none => List.replicate 384 0

/-! ## The reply -/

/-- `ntohl(data[i])`: the sign of a character is extended before the bytes are swapped. -/
def ntohlChar (data : List UInt8) (offset : Nat) : UInt32 :=
  let char := byteAt data offset
  UInt32.ofNat (ntohl (if char < 128 then char else char + 4294967040))

/-- `ntohl(*(int*)&data[i])`: the word at an offset, as a little-endian machine reads it, with its
bytes exchanged. -/
def ntohlInt (data : List UInt8) (offset : Nat) : UInt32 := UInt32.ofNat (ntohl (wordAt data offset))

/-- The fields that are stored, each of them made from its place in the reply by one of the two
readers. -/
def decode (data : List UInt8) : NtpPacket where
  leapVerMode := (ntohlChar data 0).toUInt8
  startum := (ntohlChar data 1).toUInt8
  poll := (ntohlChar data 2).toUInt8.toInt8
  precision := (ntohlChar data 3).toUInt8.toInt8
  rootDelay := (ntohlInt data 4).toInt32
  rootDispersion := (ntohlInt data 8).toInt32
  referenceIdentifier := (ntohlInt data 12).toInt32
  referenceTimestamp := ⟨ntohlInt data 16, ntohlInt data 20⟩
  originageTimestamp := ⟨ntohlInt data 24, ntohlInt data 28⟩
  receiveTimestamp := ⟨ntohlInt data 32, ntohlInt data 36⟩
  transmitTimestamp := ⟨ntohlInt data 40, ntohlInt data 44⟩

/-- What the kernel answers to `sendto`, `select` and `recvfrom`. -/
structure Answers where
  sent : Int
  selected : Int
  /-- The datagram that came, if `recvfrom` does not fail. -/
  received : Option (List UInt8)
deriving DecidableEq

/-- `GetNTPTime`: the result and what is in `_ntpTime` behind it, which is written only where a
reply has come. -/
def getNtpTime (version timer : Int) (answers : Answers) (ntpTime : NtpPacket) : Int × NtpPacket :=
  let data := request version timer
  if answers.sent < 0 then (-1, ntpTime)
  else if 0 < answers.selected then
    match answers.received with
    | none => (-1, ntpTime)
    | some reply => (0, decode (reply.take 384 ++ data.drop reply.length))
  else (-1, ntpTime)

/-- `SetLocalTimeFromNTP`: the seconds and microseconds that `settimeofday` is given. -/
def setLocalTimeFromNtp (packet : NtpPacket) : UInt32 × UInt32 :=
  (packet.transmitTimestamp.coarse - jan1970, usec packet.transmitTimestamp.fine)

/-! ## The format -/

/-- The big-endian value of four bytes, by which the words of a reply are meant. -/
def beAt (bytes : List UInt8) (offset : Nat) : UInt32 :=
  UInt32.ofNat (16777216 * byteAt bytes offset + 65536 * byteAt bytes (offset + 1) +
    256 * byteAt bytes (offset + 2) + byteAt bytes (offset + 3))

/-- The first four bytes of a reply stand in their fields, the last two of them with a sign. -/
structure BytesDecoded (reply : List UInt8) (packet : NtpPacket) : Prop where
  leapVerMode : packet.leapVerMode = reply.getD 0 0
  startum : packet.startum = reply.getD 1 0
  poll : packet.poll = (reply.getD 2 0).toInt8
  precision : packet.precision = (reply.getD 3 0).toInt8

/-- The words behind them stand in their fields, in the order of the machine. -/
structure WordsDecoded (reply : List UInt8) (packet : NtpPacket) : Prop where
  rootDelay : packet.rootDelay = (beAt reply 4).toInt32
  rootDispersion : packet.rootDispersion = (beAt reply 8).toInt32
  referenceIdentifier : packet.referenceIdentifier = (beAt reply 12).toInt32
  referenceTimestamp : packet.referenceTimestamp = ⟨beAt reply 16, beAt reply 20⟩
  originageTimestamp : packet.originageTimestamp = ⟨beAt reply 24, beAt reply 28⟩
  receiveTimestamp : packet.receiveTimestamp = ⟨beAt reply 32, beAt reply 36⟩
  transmitTimestamp : packet.transmitTimestamp = ⟨beAt reply 40, beAt reply 44⟩

/-- A call that returns 0 has received a whole packet and stored its fields. -/
def Decodes (answers : Answers) (result : Int × NtpPacket) : Prop :=
  result.1 = 0 → ∃ reply, answers.received = some reply ∧ 48 ≤ reply.length ∧
    BytesDecoded reply result.2 ∧ WordsDecoded reply result.2

/-- A packet has the version, the mode, the poll and the precision of a request. -/
structure Echoes (version : Int) (packet : NtpPacket) : Prop where
  version : packet.leapVerMode.toNat / 8 % 8 = version
  mode : packet.leapVerMode.toNat % 8 = 3
  poll : packet.poll = 4
  precision : packet.precision = -6

variable {bytes reply : List UInt8} {offset : Nat}

/-- The buffer is full, whatever the version is: all of it is sent, also what the protocol does not
know. -/
theorem request_length (version timer : Int) : (request version timer).length = 384 := by
  rw [request, constructPacket]
  split
  · rename_i packet built
    rw [Option.ite_none_left_eq_some, Option.some.injEq] at built
    obtain ⟨-, rfl⟩ := built
    simp only [List.length_append, be32_length, List.length_replicate]
  · rw [List.length_replicate]

/-! ## Words -/

/-- What is read as a byte is below 256. -/
theorem byteAt_lt (bytes : List UInt8) (offset : Nat) : byteAt bytes offset < 256 := UInt8.toNat_lt _

/-- A word that is read and swapped is the big-endian value. -/
theorem ntohlInt_eq (bytes : List UInt8) (offset : Nat) : ntohlInt bytes offset = beAt bytes offset := by
  have first := byteAt_lt bytes offset
  have second := byteAt_lt bytes (offset + 1)
  have third := byteAt_lt bytes (offset + 2)
  have fourth := byteAt_lt bytes (offset + 3)
  rw [ntohlInt, beAt, wordAt, halfAt, halfAt, ntohl, ntohs, ntohs,
    show offset + 2 + 1 = offset + 3 from rfl]
  congr 1
  omega

/-- Two strings have the same first bytes, as many as a packet has. -/
def SamePacket (first second : List UInt8) : Prop := ∀ offset < 48, byteAt first offset = byteAt second offset

/-- The buffer begins with the reply, if that is a whole packet. -/
theorem samePacket (whole : 48 ≤ reply.length) (rest : List UInt8) :
    SamePacket (reply.take 384 ++ rest) reply := by
  intro offset inside
  rw [byteAt, byteAt, List.getD_eq_getElem?_getD, List.getD_eq_getElem?_getD, List.getElem?_append_left
    (by rw [List.length_take]; omega), List.getElem?_take_of_lt (by omega)]

/-- The words of a whole packet are always stored right. -/
theorem wordsDecoded (same : SamePacket bytes reply) : WordsDecoded reply (decode bytes) := by
  have word {offset : Nat} (inside : offset + 4 ≤ 48) : ntohlInt bytes offset = beAt reply offset := by
    rw [ntohlInt_eq, beAt, beAt, same _ (by omega), same _ (by omega), same _ (by omega), same _ (by omega)]
  have time {offset : Nat} (inside : offset + 8 ≤ 48) :
      (⟨ntohlInt bytes offset, ntohlInt bytes (offset + 4)⟩ : NtpTime) =
        ⟨beAt reply offset, beAt reply (offset + 4)⟩ := by
    rw [word (by omega), word (by omega)]
  exact ⟨congrArg _ (word (by decide)), congrArg _ (word (by decide)), congrArg _ (word (by decide)),
    time (by decide), time (by decide), time (by decide), time (by decide)⟩

/-! ## Bytes -/

/-- The lowest byte of a swapped word is the highest of the word. -/
theorem ntohl_mod (value : Nat) : ntohl value % 256 = value / 16777216 % 256 := by
  have lower : ntohs (value / 65536) % 256 = value / 16777216 % 256 := by
    rw [ntohs, Nat.div_div_eq_div_mul]
    omega
  rw [ntohl]
  omega

/-- What is stored of a character is its sign. -/
theorem ntohlChar_toUInt8 (data : List UInt8) (offset : Nat) :
    (ntohlChar data offset).toUInt8 = if byteAt data offset < 128 then 0 else 255 := by
  have bound := byteAt_lt data offset
  have stored (value : Nat) : (UInt32.ofNat (ntohl value)).toUInt8.toNat = value / 16777216 % 256 := by
    rw [UInt32.toNat_toUInt8, UInt32.toNat_ofNat', ← ntohl_mod]
    omega
  apply UInt8.toNat_inj.mp
  rw [ntohlChar, stored]
  split
  · change _ = 0
    omega
  · change _ = 255
    omega

/-- Only the two bytes that are their own sign are stored right. -/
theorem ntohlChar_eq_iff (same : byteAt bytes offset = byteAt reply offset) :
    (ntohlChar bytes offset).toUInt8 = reply.getD offset 0 ↔
      byteAt reply offset = 0 ∨ byteAt reply offset = 255 := by
  have bound := byteAt_lt reply offset
  rw [ntohlChar_toUInt8, same, ← UInt8.toNat_inj]
  change _ = byteAt reply offset ↔ _
  split
  · change 0 = byteAt reply offset ↔ _
    omega
  · change 255 = byteAt reply offset ↔ _
    omega

/-- The conversion to a signed byte loses nothing, so that bytes which are told apart stay apart. -/
theorem toInt8_inj {first second : UInt8} (same : first.toInt8 = second.toInt8) : first = second :=
  congrArg Int8.toUInt8 same

/-- The bytes of a whole packet are stored right just if each is its own sign. -/
theorem bytesDecoded_iff (same : SamePacket bytes reply) :
    BytesDecoded reply (decode bytes) ↔
      ∀ offset < 4, byteAt reply offset = 0 ∨ byteAt reply offset = 255 := by
  constructor
  · rintro ⟨leapVerMode, startum, poll, precision⟩ offset inside
    rw [← ntohlChar_eq_iff (same offset (by omega))]
    match offset with
    | 0 => exact leapVerMode
    | 1 => exact startum
    | 2 => exact toInt8_inj poll
    | 3 => exact toInt8_inj precision
  · intro signs
    have stored {offset : Nat} (inside : offset < 4) :
        (ntohlChar bytes offset).toUInt8 = reply.getD offset 0 :=
      (ntohlChar_eq_iff (same offset (by omega))).mpr (signs offset inside)
    exact ⟨stored (by decide), stored (by decide), congrArg _ (stored (by decide)),
      congrArg _ (stored (by decide))⟩

/-- A mode is 0 or 7 where it comes from a sign. -/
theorem not_echoes (version : Int) (data : List UInt8) : ¬ Echoes version (decode data) := by
  intro echoes
  have mode := echoes.mode
  simp only [decode, ntohlChar_toUInt8] at mode
  split at mode
  · exact absurd mode (by decide)
  · exact absurd mode (by decide)

/-! ## Calls -/

/-- The request cannot be sent, or no reply comes in time, or it cannot be received. -/
def Refused (answers : Answers) : Prop := answers.sent < 0 ∨ answers.selected ≤ 0 ∨ answers.received = none

/-- Whether the answers of the network end the call in front of a reply can be decided. -/
instance {answers : Answers} : Decidable (Refused answers) := inferInstanceAs (Decidable (_ ∨ _ ∨ _))

/-- A call returns 0 for every reply, however short. -/
theorem getNtpTime_eq (version timer : Int) (answers : Answers) (ntpTime : NtpPacket) :
    (Refused answers ∧ (getNtpTime version timer answers ntpTime).1 = -1) ∨
    (¬ Refused answers ∧ ∃ reply, answers.received = some reply ∧ getNtpTime version timer answers ntpTime =
      (0, decode (reply.take 384 ++ (request version timer).drop reply.length))) := by
  rw [getNtpTime, Refused]
  split
  · rename_i failed
    exact Or.inl ⟨Or.inl failed, rfl⟩
  · rename_i sent
    split
    · rename_i ready
      cases received : answers.received with
      | none => exact Or.inl ⟨Or.inr (Or.inr rfl), rfl⟩
      | some reply =>
        refine Or.inr ⟨?_, reply, rfl, rfl⟩
        rintro (failed | late | impossible)
        · exact sent failed
        · omega
        · cases impossible
    · rename_i late
      exact Or.inl ⟨Or.inr (Or.inl (by omega)), rfl⟩

/-- A reply is decoded just if it is a whole packet whose first four bytes are their own signs. No request
is such a packet. -/
theorem getNtpTime_decodes_iff (version timer : Int) (answers : Answers) (ntpTime : NtpPacket) :
    (Decodes answers (getNtpTime version timer answers ntpTime) ↔
      Refused answers ∨ ∃ reply, answers.received = some reply ∧ 48 ≤ reply.length ∧
        ∀ offset < 4, byteAt reply offset = 0 ∨ byteAt reply offset = 255) ∧
    (1 ≤ version → version ≤ 4 →
      ∃ packet, constructPacket version timer = some packet ∧ ¬ Echoes version (decode packet)) := by
  constructor
  · rw [Decodes]
    rcases getNtpTime_eq version timer answers ntpTime with
      ⟨refused, failed⟩ | ⟨answered, reply, received, result⟩
    · refine iff_of_true (fun zero => ?_) (Or.inl refused)
      rw [failed] at zero
      cases zero
    · rw [or_iff_right answered, result]
      constructor
      · intro decodes
        obtain ⟨other, isOther, whole, bytes, -⟩ := decodes rfl
        obtain rfl := Option.some.inj (received.symm.trans isOther)
        exact ⟨reply, received, whole, (bytesDecoded_iff (samePacket whole _)).mp bytes⟩
      · rintro ⟨other, isOther, whole, signs⟩ -
        obtain rfl := Option.some.inj (received.symm.trans isOther)
        have same := samePacket whole ((request version timer).drop reply.length)
        exact ⟨reply, received, whole, (bytesDecoded_iff same).mpr signs, wordsDecoded same⟩
  · intro lower upper
    refine ⟨_, if_neg (by omega), not_echoes version _⟩

/-- The version and the mode of an ordinary reply are lost: the byte is widened to four before its
bytes are exchanged, and its place is zero then. -/
theorem reply_misread :
    ¬ ((∀ version timer answers ntpTime, Decodes answers (getNtpTime version timer answers ntpTime)) ∧
      ∀ version timer, 1 ≤ version → version ≤ 4 →
        ∃ packet, constructPacket version timer = some packet ∧ Echoes version (decode packet)) := by
  rintro ⟨decodes, -⟩
  obtain ⟨reply, received, -, bytes, -⟩ := decodes 4 0 ⟨48, 1, some (0x24 :: List.replicate 47 0)⟩
    (decode []) rfl
  obtain rfl := Option.some.inj received
  exact absurd bytes.leapVerMode (by decide)

/-- The time that is set is a valid one. -/
theorem setLocalTimeFromNtp_valid (packet : NtpPacket) : (setLocalTimeFromNtp packet).2.toNat ≤ 999999 :=
  usec_le packet.transmitTimestamp.fine

end OpenTaker.NtpPackets
