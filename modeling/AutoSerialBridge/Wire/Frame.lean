import AutoSerialBridge.Wire.Protocol
import Mathlib

/-!
# Auto Serial Bridge — frames

The encoders of the ROS side: `PacketHandler::pack` and `ReliableSender::inject_trailing_seq`,
both as the code builds the byte vector. `frame` is the layout they share with the generated
`send_<Msg>` functions of the MCU,

  `H1 H2 id len payload… checksum`,

and `pack_eq_frame`, `injectTrailingSeq_pack` say that this is what they produce: injecting the
sequence byte into a packed frame is packing the payload with the byte appended.
-/

namespace AutoSerialBridge

/-- A received packet. -/
structure Packet where
  id : UInt8
  payload : List UInt8
deriving DecidableEq, Repr

/-- `Packet::as<T>` for a struct of `size` bytes: the bytes copied, or `T()` on a size mismatch. -/
def Packet.as (pkt : Packet) (size : Nat) : List UInt8 :=
  if pkt.payload.length ≠ size then List.replicate size 0 else pkt.payload

variable (p : Protocol)

/-- The common frame layout. -/
def frame (id : UInt8) (payload : List UInt8) : List UInt8 :=
  p.frameHeader1 :: p.frameHeader2 :: id :: UInt8.ofNat payload.length :: payload ++
    [calculateChecksum p.checksumAlgo (id :: UInt8.ofNat payload.length :: payload)]

/-- `PacketHandler::pack`. -/
def pack (id : UInt8) (data : List UInt8) : List UInt8 :=
  let packet := [p.frameHeader1, p.frameHeader2, id, UInt8.ofNat data.length]
  let packet := packet ++ data
  packet ++ [calculateChecksum p.checksumAlgo (packet.drop 2)]

/-- `ReliableSender::inject_trailing_seq`. -/
def injectTrailingSeq (frame : List UInt8) (seq : UInt8) : List UInt8 :=
  if frame.length < 5 then frame
  else
    let frame := frame.modify 3 (· + 1)
    let frame := frame.insertIdx (frame.length - 1) seq
    frame.set (frame.length - 1)
      (calculateChecksum p.checksumAlgo ((frame.drop 2).take (frame.length - 3)))

-- ---------------------------------------------------------------------------
-- Both encoders produce the common layout
-- ---------------------------------------------------------------------------

@[simp] theorem frame_length (id : UInt8) (payload : List UInt8) :
    (frame p id payload).length = payload.length + 5 := by
  simp [frame]

theorem pack_eq_frame (id : UInt8) (data : List UInt8) : pack p id data = frame p id data := by
  simp [pack, frame]

@[simp] theorem pack_length (id : UInt8) (data : List UInt8) :
    (pack p id data).length = data.length + 5 := by
  rw [pack_eq_frame, frame_length]

/-- `frame.insert(frame.end() - 1, seq)`. -/
theorem insertIdx_before_last (body : List UInt8) (cs seq : UInt8) :
    (body ++ [cs]).insertIdx ((body ++ [cs]).length - 1) seq = body ++ [seq] ++ [cs] := by
  rw [List.length_append, List.length_singleton, Nat.add_sub_cancel]
  induction body with
  | nil => rfl
  | cons b body ih => simpa using ih

/-- Injecting a sequence byte into a packed frame is packing the payload with the byte appended:
the length byte and the checksum are brought up to date. -/
theorem injectTrailingSeq_pack (id : UInt8) (data : List UInt8) (seq : UInt8) :
    injectTrailingSeq p (pack p id data) seq = frame p id (data ++ [seq]) := by
  have hlen : ¬ (pack p id data).length < 5 := by
    rw [pack_length]
    omega
  have hmod : (pack p id data).modify 3 (· + 1) =
      (p.frameHeader1 :: p.frameHeader2 :: id :: (UInt8.ofNat data.length + 1) :: data) ++
        [calculateChecksum p.checksumAlgo (id :: UInt8.ofNat data.length :: data)] := by
    rw [pack_eq_frame]
    rfl
  have hbyte : UInt8.ofNat data.length + 1 = UInt8.ofNat (data ++ [seq]).length := by
    rw [List.length_append, List.length_singleton, UInt8.ofNat_add]
    rfl
  rw [injectTrailingSeq, if_neg hlen, hmod]
  simp only [insertIdx_before_last, hbyte]
  -- the checksum is taken over everything but the two header bytes and the old checksum
  have htake : ∀ cs : UInt8, (data ++ [seq, cs]).take (data.length + 1) = data ++ [seq] := by
    intro cs
    rw [show data ++ [seq, cs] = (data ++ [seq]) ++ [cs] by simp]
    exact List.take_left' (by simp)
  simp [frame, htake]

end AutoSerialBridge
