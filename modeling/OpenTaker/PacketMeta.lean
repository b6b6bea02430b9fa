import Mathlib.Algebra.Group.Nat.Defs
import Mathlib.Algebra.Group.Int.Defs

/-!
# The per-packet meta record

`PacketMeta_t` is the fixed-size record the ring keeps for each captured packet.
Capturing fills the capture fields, the decoder fills the rest. Fields keep the
source's names. Integer fields hold natural numbers below their width; one-bit
TCP flags are Booleans, and the one-bit `protocol` and `version` keep the
numbers the source's comments explain.
-/

namespace OpenTaker

/-- `PacketBasicAttr_t`: what is reported of a packet, and what the applications test. -/
structure PacketBasicAttr where
  ts : Nat
  seq : Nat
  /-- For IPv6 the sum of the last two 32-bit words. -/
  srcIP : Nat
  dstIP : Nat
  srcPort : Nat
  dstPort : Nat
  offset : Nat
  wireLen : Nat
  pktLen : Nat
  appType : Nat
  /-- 0 is TCP and 1 is UDP. -/
  protocol : Nat
  /-- 0 is IPv4 and 1 is IPv6. -/
  version : Nat
  flagSYN : Bool
  flagACK : Bool
  flagFIN : Bool
  flagRST : Bool
  flagPUSH : Bool
  flagURT : Bool
  portNum : Nat
deriving DecidableEq, Repr

/-- `PacketMeta_t`: a slot of the meta memory. The bytes of the packet stand elsewhere, behind
`headerAddr`. -/
structure PacketMeta where
  headerAddr : Nat
  hashValue : Nat
  layer5payloadLen : Nat
  layer3Offset : Nat
  layer4Offset : Nat
  layer5Offset : Nat
  basicAttr : PacketBasicAttr
deriving DecidableEq, Repr

/-- `sizeof(PacketMeta_t)`: 24 bytes in front of `basicAttr`, which takes 40. -/
def sizeofPacketMeta : Nat := 64

namespace PacketBasicAttr

/-- A record of zero bytes, as a cleared slot has it. -/
def zero : PacketBasicAttr where
  ts := 0
  seq := 0
  srcIP := 0
  dstIP := 0
  srcPort := 0
  dstPort := 0
  offset := 0
  wireLen := 0
  pktLen := 0
  appType := 0
  protocol := 0
  version := 0
  flagSYN := false
  flagACK := false
  flagFIN := false
  flagRST := false
  flagPUSH := false
  flagURT := false
  portNum := 0

/-- `isIp`: a packet was decoded as IP when it has a source address, so that 0.0.0.0 does not count
as one. -/
def isIp (attr : PacketBasicAttr) : Bool := attr.srcIP != 0

/-- `isTcpUdp`: it has a source port, so that port zero does not count as one. -/
def isTcpUdp (attr : PacketBasicAttr) : Bool := attr.srcPort != 0

/-- `isTcp`: among those with ports the protocol field decides. -/
def isTcp (attr : PacketBasicAttr) : Bool := attr.isTcpUdp && attr.protocol == 0

/-- `isUdp`: all others with ports, whatever their protocol field says. -/
def isUdp (attr : PacketBasicAttr) : Bool := attr.isTcpUdp && attr.protocol != 0

/-- `isIpv4`: among the IP packets the version field decides. -/
def isIpv4 (attr : PacketBasicAttr) : Bool := attr.isIp && attr.version == 0

end PacketBasicAttr

/-- A slot of zero bytes, as the meta memory starts. -/
def PacketMeta.zero : PacketMeta where
  headerAddr := 0
  hashValue := 0
  layer5payloadLen := 0
  layer3Offset := 0
  layer4Offset := 0
  layer5Offset := 0
  basicAttr := PacketBasicAttr.zero

/-- The meta of a packet of which so many bytes have just been captured. -/
def PacketMeta.captured (pktLen : Nat) : PacketMeta :=
  { PacketMeta.zero with basicAttr := { PacketBasicAttr.zero with pktLen := pktLen } }

end OpenTaker
