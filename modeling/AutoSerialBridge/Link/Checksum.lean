import AutoSerialBridge.Mcu.Parser
import AutoSerialBridge.Wire.Checksum
import AutoSerialBridge.Wire.PacketHandler

/-!
# Auto Serial Bridge — checksums

The checksum is computed in three places: over a buffer (`calculate_checksum` of both ends), over the
ring (`calculate_checksum_from_ring`) and byte by byte (`rx_checksum` of the MCU).
`checksums_detect_corruption` says that they agree, and what a comparison never lets through.
-/

namespace AutoSerialBridge

open Lib Polynomial

/-- A body and its checksum with one byte replaced fail the comparison. -/
def DetectsByte (algo : ChecksumAlgo) : Prop :=
  ∀ (body body' : List UInt8) (c' v : UInt8) (i : Nat)
    (hi : i < (body ++ [calculateChecksum algo body]).length),
    (body ++ [calculateChecksum algo body])[i] ≠ v →
    body' ++ [c'] = (body ++ [calculateChecksum algo body]).set i v →
    calculateChecksum algo body' ≠ c'

/-- A body and its checksum with the bits of a pattern flipped fail the comparison. -/
def DetectsFlip (algo : ChecksumAlgo) (pattern : List UInt8) : Prop :=
  ∀ (body body' : List UInt8) (c' : UInt8), pattern.length = body.length + 1 →
    body' ++ [c'] = (body ++ [calculateChecksum algo body]).zipWith (· ^^^ ·) pattern →
    calculateChecksum algo body' ≠ c'

/-- The ring computation over cells that hold the body. -/
def RingAgrees (algo : ChecksumAlgo) (body : List UInt8) : Prop :=
  ∀ (h : PacketHandler) (start : UInt64),
    (∀ (i : Nat) (hi : i < body.length),
      h.cell ((start + UInt64.ofNat i) &&& h.mask) = body[i]) →
    h.calculateChecksumFromRing algo start body.length = calculateChecksum algo body

/-- The C computation over a buffer, and the running checksum when the body has been fed to the
parser. -/
def McuAgrees (p : Protocol) (body : List UInt8) : Prop :=
  Mcu.calculateChecksum p body = calculateChecksum p.checksumAlgo body ∧
    ∀ (s : Mcu) (id len : UInt8) (data : List UInt8), s.rxState = .waitId →
      body = id :: len :: data → data.length = len.toNat → len.toNat ≤ s.rxBuffer.length →
      (Mcu.feedAll p s body).1.rxState = .waitCrc ∧
        (Mcu.feedAll p s body).1.rxChecksum = calculateChecksum p.checksumAlgo body

theorem ringAgrees (algo : ChecksumAlgo) (body : List UInt8) : RingAgrees algo body := by
  intro h start hcells
  have hreads : (List.range body.length).map
      (fun i => h.cell ((start + UInt64.ofNat i) &&& h.mask)) = body := by
    refine List.ext_getElem (by simp) fun i h₁ h₂ => ?_
    rw [List.getElem_map, List.getElem_range]
    exact hcells i h₂
  unfold PacketHandler.calculateChecksumFromRing calculateChecksum
  conv => rhs; rw [← hreads]
  rw [List.foldl_map]

theorem mcuAgrees (p : Protocol) (body : List UInt8) : McuAgrees p body := by
  refine ⟨Mcu.calculateChecksum_eq p body, ?_⟩
  rintro s id len data hs rfl hlen hle
  obtain ⟨s', hrun, hstate, -, -, -, hck⟩ := Mcu.feedAll_body (p := p) id hs hlen hle
  rw [hrun]
  exact ⟨hstate, hck⟩

/-- **Checksums detect localized corruption**, for bodies of any length: SUM8, XOR8 and CRC8 notice
one replaced byte; CRC8 is the division by `X ^ 8 + X ^ 5 + X ^ 4 + 1` and notices every burst of at
most eight bits and every odd number of flipped bits; and the three computations agree. -/
theorem checksums_detect_corruption :
    (∀ algo, algo ≠ ChecksumAlgo.none → DetectsByte algo) ∧
    (∀ body, lowBits 8 (calculateChecksum .crc8 body).toNat =
      (ofBytes body * X ^ 8) %ₘ (X ^ 8 + X ^ 5 + X ^ 4 + 1)) ∧
    (∀ pattern, IsBurst pattern ∨ IsOdd pattern → DetectsFlip .crc8 pattern) ∧
    (∀ algo body, RingAgrees algo body) ∧
    (∀ p body, McuAgrees p body) := by
  refine ⟨?_, calculateChecksum_crc8, ?_, ringAgrees, mcuAgrees⟩
  · intro algo halgo body body' c' v i hi hv h
    exact calculateChecksum_set halgo hi hv h
  · intro pattern hpattern body body' c' hlen h
    exact calculateChecksum_flip hlen hpattern h

end AutoSerialBridge
