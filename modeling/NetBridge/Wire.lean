import NetBridge.Transport

/-! # The formats on the wire

The two formats that travel inside a datagram, `Packet` and `Transport`, are exact: decoding
inverts encoding and only encodings are accepted.  `EmulatorPacket` is the envelope that the
emulator puts around a packet (`emulator_packet.hpp`/`emulator_packet.cpp`); its decoder ignores
bytes after the length it announces, so it is inverted on encodings only. -/

namespace NetBridge

/-- A packet or a segment is recovered from its bytes, every accepted string is the encoding of
the value it gives, and so the strings accepted are the encodings of 32-bit values. -/
theorem wire_formats_bijective :
    (∀ p : Packet, InInt32 p.seq → Packet.unpack p.pack = some p) ∧
    (∀ t : Transport, InInt32 t.window → InInt32 t.seqNum → Transport.unpack t.pack = some t) ∧
    (∀ (b : List UInt8) (p : Packet), Packet.unpack b = some p → p.pack = b) ∧
    (∀ (b : List UInt8) (t : Transport), Transport.unpack b = some t → t.pack = b) ∧
    (∀ b : List UInt8, (∃ p, Packet.unpack b = some p) ↔ ∃ p : Packet, InInt32 p.seq ∧ p.pack = b) ∧
    (∀ b : List UInt8, (∃ t, Transport.unpack b = some t) ↔
      ∃ t : Transport, InInt32 t.window ∧ InInt32 t.seqNum ∧ t.pack = b) := by
  refine ⟨Packet.unpack_pack, Transport.unpack_pack, fun b p h => (Packet.pack_of_unpack h).1,
    fun b t h => (Transport.pack_of_unpack h).1, fun b => ⟨?_, ?_⟩, fun b => ⟨?_, ?_⟩⟩
  · rintro ⟨p, h⟩
    obtain ⟨hb, hseq⟩ := Packet.pack_of_unpack h
    exact ⟨p, hseq, hb⟩
  · rintro ⟨p, hseq, rfl⟩
    exact ⟨p, p.unpack_pack hseq⟩
  · rintro ⟨t, h⟩
    obtain ⟨hb, hwindow, hseq⟩ := Transport.pack_of_unpack h
    exact ⟨t, hwindow, hseq, hb⟩
  · rintro ⟨t, hwindow, hseq, rfl⟩
    exact ⟨t, t.unpack_pack hwindow hseq⟩

/-! ### The envelope of the emulator -/

namespace EmulatorPacket

def HEADER_SIZE : Int := 3
def MAX_PACKET_SIZE : Int := Packet.MAX_PACKET_SIZE + HEADER_SIZE

end EmulatorPacket

/-- An envelope that the constructor has accepted. -/
structure EmulatorPacket where
  destAddr : Int
  srcAddr : Int
  payload : List UInt8
  fits : EmulatorPacket.HEADER_SIZE + payload.length ≤ EmulatorPacket.MAX_PACKET_SIZE
deriving DecidableEq

namespace EmulatorPacket

/-- The constructor, which throws when the payload is too long. -/
def make (destAddr srcAddr : Int) (payload : List UInt8) : Except String EmulatorPacket :=
  if h : HEADER_SIZE + payload.length ≤ MAX_PACKET_SIZE then .ok ⟨destAddr, srcAddr, payload, h⟩
  else .error "Payload is too big"

def pack (p : EmulatorPacket) : List UInt8 :=
  [toByte p.destAddr, toByte p.srcAddr, toByte (HEADER_SIZE + p.payload.length)] ++ p.payload

/-- `unpack`: what follows the announced length is ignored. -/
def unpack : List UInt8 → Option EmulatorPacket
  | destAddr :: srcAddr :: packetLength :: rest =>
      let payloadLen : Int := packetLength.toNat - HEADER_SIZE
      if payloadLen < 0 ∨ HEADER_SIZE + payloadLen > HEADER_SIZE + rest.length then none
      else (make destAddr.toNat srcAddr.toNat (rest.take payloadLen.toNat)).toOption
  | _ => none

theorem unpack_pack (p : EmulatorPacket) (hdest : 0 ≤ p.destAddr ∧ p.destAddr ≤ 255)
    (hsrc : 0 ≤ p.srcAddr ∧ p.srcAddr ≤ 255) : unpack p.pack = some p := by
  have hfits : HEADER_SIZE + (p.payload.length : Int) ≤ 131 := p.fits
  have hlen : ((toByte (HEADER_SIZE + p.payload.length)).toNat : Int) =
      HEADER_SIZE + p.payload.length :=
    toByte_toNat_of_range (by unfold HEADER_SIZE; omega) (by omega)
  have hrest : ((toByte (HEADER_SIZE + p.payload.length)).toNat : Int) - HEADER_SIZE =
      p.payload.length := by
    rw [hlen]
    omega
  simp only [pack, List.cons_append, List.nil_append, unpack, hrest]
  rw [if_neg (by omega), Int.toNat_natCast, List.take_length,
    toByte_toNat_of_range hdest.1 hdest.2, toByte_toNat_of_range hsrc.1 hsrc.2]
  simp only [make, dif_pos p.fits]
  rfl

theorem make_packet (destAddr srcAddr : Int) (p : Packet) :
    ∃ e : EmulatorPacket, make destAddr srcAddr p.pack = .ok e ∧ e.destAddr = destAddr ∧
      e.srcAddr = srcAddr ∧ e.payload = p.pack := by
  have hfits : HEADER_SIZE + (p.pack.length : Int) ≤ MAX_PACKET_SIZE := by
    have hsize := (Packet.isValid_iff.mp p.valid).2.2.2.2
    have hlen := p.pack_length
    simp only [MAX_PACKET_SIZE, HEADER_SIZE, Packet.MAX_PACKET_SIZE]
    omega
  exact ⟨⟨destAddr, srcAddr, p.pack, hfits⟩, dif_pos hfits, rfl, rfl, rfl⟩

end EmulatorPacket

end NetBridge
