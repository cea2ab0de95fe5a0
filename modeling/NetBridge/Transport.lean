import NetBridge.Packet

/-! # Transport segments

The segment of `transport.hpp`/`transport.cpp`.  A `Transport` carries the proof that it passes
the checks of the throwing constructor, `Transport.make`.  The integer type codes of the source
are the constructors of `SegType`; `SegType.code` and `SegType.ofCode` are the numbers on the
wire. -/

namespace NetBridge

/-- The four segment types. -/
inductive SegType where
  | SYN
  | ACK
  | FIN
  | DATA
deriving DecidableEq, Repr

namespace SegType

def code : SegType → Int
  | SYN => 0
  | ACK => 1
  | FIN => 2
  | DATA => 3

/-- The type with a given code, if the code is in the range the constructor checks. -/
def ofCode (type : Int) : Option SegType :=
  if type = 0 then some SYN
  else if type = 1 then some ACK
  else if type = 2 then some FIN
  else if type = 3 then some DATA
  else none

@[simp] theorem ofCode_code (ty : SegType) : ofCode ty.code = some ty := by
  cases ty <;> rfl

theorem code_range (ty : SegType) : 0 ≤ ty.code ∧ ty.code ≤ 3 := by
  cases ty <;> decide

theorem code_of_ofCode {type : Int} {ty : SegType} (h : ofCode type = some ty) : ty.code = type := by
  unfold ofCode at h
  repeat' split at h
  all_goals first | (obtain rfl := Option.some.inj h; subst_vars; rfl) | cases h

end SegType

namespace Transport

def MAX_PACKET_SIZE : Int := Packet.MAX_PAYLOAD_SIZE
def HEADER_SIZE : Int := 12
def MAX_PAYLOAD_SIZE : Int := MAX_PACKET_SIZE - HEADER_SIZE
def MAX_PORT_NUM : Int := 255

theorem MAX_PAYLOAD_SIZE_eq : MAX_PAYLOAD_SIZE = 107 := rfl

theorem MAX_PORT_NUM_eq : MAX_PORT_NUM = 255 := rfl

/-- The ports and the payload size that the constructor accepts. -/
def Legal (srcPort destPort : Int) (payload : List UInt8) : Prop :=
  (0 ≤ srcPort ∧ srcPort ≤ MAX_PORT_NUM) ∧ (0 ≤ destPort ∧ destPort ≤ MAX_PORT_NUM) ∧
    (payload.length : Int) ≤ MAX_PAYLOAD_SIZE

instance (srcPort destPort : Int) (payload : List UInt8) :
    Decidable (Legal srcPort destPort payload) :=
  inferInstanceAs (Decidable (_ ∧ _))

end Transport

/-- A segment that the constructor has accepted. -/
structure Transport where
  srcPort : Int
  destPort : Int
  type : SegType
  window : Int
  seqNum : Int
  payload : List UInt8
  legal : Transport.Legal srcPort destPort payload
deriving DecidableEq

namespace Transport

/-- The constructor, which throws on illegal arguments. -/
def make (srcPort destPort type window seqNum : Int) (payload : List UInt8) :
    Except String Transport :=
  if h : Legal srcPort destPort payload then
    match SegType.ofCode type with
    | some ty => .ok ⟨srcPort, destPort, ty, window, seqNum, payload, h⟩
    | none => .error "Illegal arguments given to Transport packet"
  else .error "Illegal arguments given to Transport packet"

def pack (t : Transport) : List UInt8 :=
  [toByte t.srcPort, toByte t.destPort, toByte t.type.code] ++ writeBigEndian32 t.window ++
    writeBigEndian32 t.seqNum ++ [toByte (HEADER_SIZE + t.payload.length)] ++ t.payload

/-- `unpack`: a string shorter than the header, a wrong length byte and arguments the constructor
refuses give `none`. -/
def unpack : List UInt8 → Option Transport
  | srcPort :: destPort :: type :: a :: b :: c :: d :: e :: f :: g :: h :: packetLength ::
      payload =>
      if (packetLength.toNat : Int) - HEADER_SIZE < 0 ∨
          (packetLength.toNat : Int) ≠ HEADER_SIZE + payload.length then none
      else (make srcPort.toNat destPort.toNat type.toNat (readBigEndian32 a b c d)
        (readBigEndian32 e f g h) payload).toOption
  | _ => none

theorem make_of_legal {srcPort destPort : Int} {payload : List UInt8}
    (h : Legal srcPort destPort payload) (ty : SegType) (window seqNum : Int) :
    make srcPort destPort ty.code window seqNum payload =
      .ok ⟨srcPort, destPort, ty, window, seqNum, payload, h⟩ := by
  simp only [make, dif_pos h, SegType.ofCode_code]

theorem make_of_not_legal {srcPort destPort : Int} {payload : List UInt8}
    (h : ¬ Legal srcPort destPort payload) (type window seqNum : Int) :
    make srcPort destPort type window seqNum payload =
      .error "Illegal arguments given to Transport packet" := by
  simp only [make, dif_neg h]

theorem pack_length (t : Transport) : (t.pack.length : Int) = HEADER_SIZE + t.payload.length := by
  simp only [pack, writeBigEndian32, List.length_append, List.length_cons, List.length_nil,
    HEADER_SIZE]
  omega

/-- **Segment round trip.** -/
theorem unpack_pack (t : Transport) (hwindow : InInt32 t.window) (hseq : InInt32 t.seqNum) :
    unpack t.pack = some t := by
  obtain ⟨⟨hs0, hs1⟩, ⟨hd0, hd1⟩, hsize⟩ := t.legal
  rw [MAX_PORT_NUM_eq] at hs1 hd1
  rw [MAX_PAYLOAD_SIZE_eq] at hsize
  obtain ⟨hc0, hc3⟩ := t.type.code_range
  have hlen : ((toByte (HEADER_SIZE + t.payload.length)).toNat : Int) =
      HEADER_SIZE + t.payload.length :=
    toByte_toNat_of_range (by unfold HEADER_SIZE; omega) (by unfold HEADER_SIZE; omega)
  have hcond : ¬ (((toByte (HEADER_SIZE + t.payload.length)).toNat : Int) - HEADER_SIZE < 0 ∨
      ((toByte (HEADER_SIZE + t.payload.length)).toNat : Int) ≠
        HEADER_SIZE + t.payload.length) := by
    rw [hlen]
    omega
  simp only [pack, writeBigEndian32, List.cons_append, List.nil_append, unpack, if_neg hcond]
  rw [toByte_toNat_of_range hs0 hs1, toByte_toNat_of_range hd0 hd1,
    toByte_toNat_of_range hc0 (by omega), readBigEndian32_write hwindow,
    readBigEndian32_write hseq, make_of_legal t.legal]
  rfl

/-- Only an encoding is accepted, and the segment it gives encodes to it. -/
theorem pack_of_unpack {b : List UInt8} {t : Transport} (h : unpack b = some t) :
    t.pack = b ∧ InInt32 t.window ∧ InInt32 t.seqNum := by
  unfold unpack at h
  split at h
  case h_2 => cases h
  case h_1 srcPort destPort type a b c d e f g i packetLength payload =>
    split at h
    · cases h
    · rename_i hlen
      unfold make at h
      split at h
      · split at h
        · rename_i ty hty
          obtain rfl := Option.some.inj h
          refine ⟨?_, by dsimp only; exact inInt32_readBigEndian32 a b c d,
            by dsimp only; exact inInt32_readBigEndian32 e f g i⟩
          have hlength : toByte (HEADER_SIZE + payload.length) = packetLength := by
            rw [← not_not.mp (not_or.mp hlen).2]
            exact toByte_natCast_toNat packetLength
          simp only [pack, SegType.code_of_ofCode hty, toByte_natCast_toNat, hlength,
            writeBigEndian32_read, List.cons_append, List.nil_append]
        · cases h
      · cases h

end Transport

end NetBridge
