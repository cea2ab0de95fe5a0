import Mathlib.Data.List.Basic
import Mathlib.Tactic.Common

/-! # Packets

The network-layer packet of `packet.hpp`/`packet.cpp` and the checks of
`RuntimeManager::sendPkt`.  A `Packet` carries the proof that it passes `Packet::isValid`, as
the throwing constructor guarantees; `Packet.make` is that constructor.

A C++ `int` is an `Int` here.  Signed overflow has no defined result in the source, so every
execution the source gives a meaning to is an execution of the model; a byte of the wire is the
value modulo `256` (`toByte`), and four bytes read back are taken modulo `2^32` into the signed
range (`readBigEndian32`). -/

namespace NetBridge

/-! ### Bytes -/

/-- `static_cast<std::uint8_t>(v)`. -/
def toByte (v : Int) : UInt8 := UInt8.ofNat (v % 256).toNat

/-- The four bytes of `v`, most significant first (`>>` is an arithmetic shift). -/
def writeBigEndian32 (v : Int) : List UInt8 :=
  [toByte (v / 16777216), toByte (v / 65536), toByte (v / 256), toByte v]

/-- The `std::int32_t` whose bytes are `a b c d`, most significant first. -/
def readBigEndian32 (a b c d : UInt8) : Int :=
  Int.bmod (a.toNat * 16777216 + b.toNat * 65536 + c.toNat * 256 + d.toNat) 4294967296

/-- `v` is a value of a 32-bit `int`. -/
def InInt32 (v : Int) : Prop := -2147483648 ≤ v ∧ v ≤ 2147483647

instance (v : Int) : Decidable (InInt32 v) := inferInstanceAs (Decidable (_ ∧ _))

/-- The value that is left of `v` in 32 bits. -/
def wrap32 (v : Int) : Int := Int.bmod v 4294967296

theorem inInt32_wrap32 (v : Int) : InInt32 (wrap32 v) := by
  unfold InInt32 wrap32
  simp only [Int.bmod]
  omega

theorem wrap32_of_inInt32 {v : Int} (h : InInt32 v) : wrap32 v = v := by
  obtain ⟨h0, h1⟩ := h
  unfold wrap32
  simp only [Int.bmod]
  omega

/-- What is just above the range becomes negative. -/
theorem wrap32_of_lt {v : Int} (h : 2147483647 < v) (h' : v ≤ 4294967295) :
    wrap32 v = v - 4294967296 := by
  unfold wrap32
  simp only [Int.bmod]
  omega

theorem toByte_toNat (v : Int) : ((toByte v).toNat : Int) = v % 256 := by
  have h0 : 0 ≤ v % 256 := Int.emod_nonneg v (by decide)
  have h1 : v % 256 < 256 := Int.emod_lt_of_pos v (by decide)
  rw [toByte, UInt8.toNat_ofNat', Nat.mod_eq_of_lt (by omega)]
  omega

theorem toByte_eq_of_emod {v : Int} {b : UInt8} (h : v % 256 = b.toNat) : toByte v = b := by
  apply UInt8.toNat_inj.mp
  have e := toByte_toNat v
  omega

theorem toByte_natCast_toNat (b : UInt8) : toByte (b.toNat : Int) = b := by
  have hb := b.toNat_lt
  apply toByte_eq_of_emod
  omega

theorem toByte_toNat_of_range {v : Int} (h0 : 0 ≤ v) (h1 : v ≤ 255) :
    ((toByte v).toNat : Int) = v := by
  rw [toByte_toNat]
  exact Int.emod_eq_of_lt h0 (by omega)

/-- Writing and reading a 32-bit value is the identity. -/
theorem readBigEndian32_write {v : Int} (h : InInt32 v) :
    readBigEndian32 (toByte (v / 16777216)) (toByte (v / 65536)) (toByte (v / 256)) (toByte v) =
      v := by
  obtain ⟨h0, h1⟩ := h
  have e : v / 16777216 % 256 * 16777216 + v / 65536 % 256 * 65536 + v / 256 % 256 * 256 + v % 256 =
      v % 4294967296 := by omega
  unfold readBigEndian32
  simp only [toByte_toNat, e, Int.bmod]
  omega

theorem writeBigEndian32_read (a b c d : UInt8) :
    writeBigEndian32 (readBigEndian32 a b c d) = [a, b, c, d] := by
  have ha := a.toNat_lt
  have hb := b.toNat_lt
  have hc := c.toNat_lt
  have hd := d.toNat_lt
  -- the value modulo `2^32` is the unsigned number, whatever its sign
  have hv : readBigEndian32 a b c d % 4294967296 =
      a.toNat * 16777216 + b.toNat * 65536 + c.toNat * 256 + d.toNat := by
    unfold readBigEndian32
    simp only [Int.bmod]
    omega
  generalize readBigEndian32 a b c d = v at hv
  unfold writeBigEndian32
  simp only [List.cons.injEq, and_true]
  refine ⟨?_, ?_, ?_, ?_⟩ <;> apply toByte_eq_of_emod <;> omega

theorem inInt32_readBigEndian32 (a b c d : UInt8) : InInt32 (readBigEndian32 a b c d) := by
  unfold InInt32 readBigEndian32
  simp only [Int.bmod]
  omega

/-! ### Protocol numbers -/

namespace Protocol

def PING_PKT : Int := 0
def PING_REPLY_PKT : Int := 1
def LINK_INFO_PKT : Int := 2
def NAME_PKT : Int := 3
def TRANSPORT_PKT : Int := 4

def isValid (protocol : Int) : Bool :=
  protocol == PING_PKT || protocol == PING_REPLY_PKT || protocol == LINK_INFO_PKT ||
    protocol == NAME_PKT || protocol == TRANSPORT_PKT

end Protocol

/-! ### The packet -/

namespace Packet

def BROADCAST_ADDRESS : Int := 255
def MAX_ADDRESS : Int := 255
def HEADER_SIZE : Int := 9
def MAX_PACKET_SIZE : Int := 128
def MAX_PAYLOAD_SIZE : Int := MAX_PACKET_SIZE - HEADER_SIZE
def MAX_TTL : Int := 15

def validAddress (addr : Int) : Bool := decide (addr ≤ MAX_ADDRESS) && decide (0 ≤ addr)

/-- The static `Packet::isValid`. -/
def isValid (dest src ttl protocol size : Int) : Bool :=
  decide (dest ≤ MAX_ADDRESS) && decide (0 ≤ dest) && validAddress src &&
    Protocol.isValid protocol && decide (ttl ≤ MAX_TTL) && decide (0 ≤ ttl) &&
    decide (size ≤ MAX_PACKET_SIZE)

end Packet

/-- A packet that the constructor has accepted. -/
structure Packet where
  dest : Int
  src : Int
  ttl : Int
  protocol : Int
  seq : Int
  payload : List UInt8
  valid : Packet.isValid dest src ttl protocol (payload.length + Packet.HEADER_SIZE) = true
deriving DecidableEq

namespace Packet

/-- The constructor, which throws on invalid arguments. -/
def make (dest src ttl protocol seq : Int) (payload : List UInt8) : Except String Packet :=
  if h : isValid dest src ttl protocol (payload.length + HEADER_SIZE) = true then
    .ok ⟨dest, src, ttl, protocol, seq, payload, h⟩
  else .error "Arguments passed to constructor of Packet are invalid"

/-- `isValidToSend`: the packet is valid and its TTL is positive. -/
def isValidToSend (p : Packet) : Bool :=
  isValid p.dest p.src p.ttl p.protocol (p.payload.length + HEADER_SIZE) && decide (0 < p.ttl)

def pack (p : Packet) : List UInt8 :=
  [toByte p.dest, toByte p.src, toByte p.ttl, toByte p.protocol,
    toByte (p.payload.length + HEADER_SIZE)] ++ writeBigEndian32 p.seq ++ p.payload

/-- `unpack`: a string shorter than the header, a wrong length byte and arguments the constructor
refuses give `none`. -/
def unpack : List UInt8 → Option Packet
  | dest :: src :: ttl :: protocol :: packetLength :: a :: b :: c :: d :: payload =>
      if HEADER_SIZE + payload.length ≠ packetLength.toNat then none
      else (make dest.toNat src.toNat ttl.toNat protocol.toNat (readBigEndian32 a b c d)
        payload).toOption
  | _ => none

theorem validAddress_iff {addr : Int} : validAddress addr = true ↔ 0 ≤ addr ∧ addr ≤ 255 := by
  simp only [validAddress, Bool.and_eq_true, decide_eq_true_eq]
  rw [MAX_ADDRESS]
  omega

theorem isValid_iff {dest src ttl protocol size : Int} :
    isValid dest src ttl protocol size = true ↔
      (0 ≤ dest ∧ dest ≤ 255) ∧ (0 ≤ src ∧ src ≤ 255) ∧ Protocol.isValid protocol = true ∧
        (0 ≤ ttl ∧ ttl ≤ 15) ∧ size ≤ 128 := by
  simp only [isValid, validAddress, Bool.and_eq_true, decide_eq_true_eq]
  simp only [MAX_ADDRESS, MAX_TTL, MAX_PACKET_SIZE]
  constructor
  · rintro ⟨⟨⟨⟨⟨⟨h1, h2⟩, h3, h4⟩, h5⟩, h6⟩, h7⟩, h8⟩
    exact ⟨⟨h2, h1⟩, ⟨h4, h3⟩, h5, ⟨h7, h6⟩, h8⟩
  · rintro ⟨⟨h2, h1⟩, ⟨h4, h3⟩, h5, ⟨h7, h6⟩, h8⟩
    exact ⟨⟨⟨⟨⟨⟨h1, h2⟩, h3, h4⟩, h5⟩, h6⟩, h7⟩, h8⟩

theorem protocol_range {protocol : Int} (h : Protocol.isValid protocol = true) :
    0 ≤ protocol ∧ protocol ≤ 4 := by
  simp only [Protocol.isValid, Protocol.PING_PKT, Protocol.PING_REPLY_PKT, Protocol.LINK_INFO_PKT,
    Protocol.NAME_PKT, Protocol.TRANSPORT_PKT, Bool.or_eq_true, beq_iff_eq] at h
  omega

/-- **Packet round trip.** -/
theorem unpack_pack (p : Packet) (hseq : InInt32 p.seq) : unpack p.pack = some p := by
  obtain ⟨hdest, hsrc, hproto, httl, hsize⟩ := isValid_iff.mp p.valid
  obtain ⟨hp0, hp4⟩ := protocol_range hproto
  have hlen : ((toByte (p.payload.length + HEADER_SIZE)).toNat : Int) =
      p.payload.length + HEADER_SIZE :=
    toByte_toNat_of_range (by unfold HEADER_SIZE; omega) (by omega)
  have hcond : ¬ (HEADER_SIZE + (p.payload.length : Int) ≠
      ((toByte (p.payload.length + HEADER_SIZE)).toNat : Int)) := by
    rw [hlen]; omega
  simp only [pack, writeBigEndian32, List.cons_append, List.nil_append, unpack, if_neg hcond]
  rw [toByte_toNat_of_range hdest.1 hdest.2, toByte_toNat_of_range hsrc.1 hsrc.2,
    toByte_toNat_of_range httl.1 (by omega), toByte_toNat_of_range hp0 (by omega),
    readBigEndian32_write hseq]
  simp only [make, dif_pos p.valid]
  rfl

theorem pack_length (p : Packet) : (p.pack.length : Int) = p.payload.length + HEADER_SIZE := by
  simp only [pack, writeBigEndian32, List.length_append, List.length_cons, List.length_nil,
    HEADER_SIZE]
  omega

/-- Only an encoding is accepted, and the packet it gives encodes to it. -/
theorem pack_of_unpack {b : List UInt8} {p : Packet} (h : unpack b = some p) :
    p.pack = b ∧ InInt32 p.seq := by
  unfold unpack at h
  split at h
  case h_2 => cases h
  case h_1 dest src ttl protocol packetLength a b c d payload =>
    split at h
    · cases h
    · rename_i hlen
      unfold make at h
      split at h
      · obtain rfl := Option.some.inj h
        refine ⟨?_, by dsimp only; exact inInt32_readBigEndian32 a b c d⟩
        have hlength : toByte (payload.length + HEADER_SIZE) = packetLength := by
          rw [Int.add_comm, not_not.mp hlen]
          exact toByte_natCast_toNat packetLength
        simp only [pack, toByte_natCast_toNat, hlength, writeBigEndian32_read, List.cons_append,
          List.nil_append]
      · cases h

end Packet

/-! ### Handing a packet to the runtime -/

namespace RuntimeManager

/-- The validation of `RuntimeManager::sendPkt`, which every subclass runs first. -/
def sendPkt (src dest : Int) (pkt : List UInt8) : Except String Unit :=
  if (pkt.length : Int) > Packet.MAX_PACKET_SIZE ∨ Packet.validAddress dest = false ∨
      Packet.validAddress src = false then
    .error "Invalid pkt or address in sendPkt"
  else
    match Packet.unpack pkt with
    | some p => if p.isValidToSend then .ok () else .error "Invalid pkt content or TTL in sendPkt"
    | none => .error "Invalid pkt content or TTL in sendPkt"

theorem sendPkt_pack (p : Packet) (hseq : InInt32 p.seq) (httl : 0 < p.ttl) :
    sendPkt p.src p.dest p.pack = .ok () := by
  obtain ⟨hdest, hsrc, _, _, hsize⟩ := Packet.isValid_iff.mp p.valid
  have hlen := p.pack_length
  have hgood : ¬ ((p.pack.length : Int) > Packet.MAX_PACKET_SIZE ∨
      Packet.validAddress p.dest = false ∨ Packet.validAddress p.src = false) := by
    rw [hlen]
    simp only [Packet.validAddress, Bool.and_eq_false_iff, decide_eq_false_iff_not]
    simp only [Packet.MAX_ADDRESS, Packet.MAX_PACKET_SIZE]
    omega
  have hsend : p.isValidToSend = true := by
    simp [Packet.isValidToSend, p.valid, httl]
  simp only [sendPkt, if_neg hgood, Packet.unpack_pack p hseq, hsend, if_true]

end RuntimeManager

end NetBridge
