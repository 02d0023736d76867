import AutoSerialBridge.Codegen.Target
import AutoSerialBridge.Mcu.RoundTrip

/-!
# Auto Serial Bridge — ROS to MCU, for deployed protocols

The encoders of the ROS side against the generated parser of the MCU, for every accepted
configuration. The generated `rx_buffer` has the size of the largest wire payload by the generator's
table, so the round trip needs what the table cannot promise for the system messages:
`Protocol.Fits`.
-/

namespace AutoSerialBridge

/-- **ROS to MCU.** With the protocol of an accepted configuration, every stream of messages in
quiet noise is received as sent, exactly when every compiled message fits the payload limit. -/
theorem Deployed.roundTrips_iff_fits {t : CTarget} {hash : ProtocolHashInput → UInt32} {raw : Yaml}
    {p : Protocol} (h : Deployed t hash raw p) : RoundTrips p ↔ p.Fits :=
  roundTrips_iff h.wellFormed

theorem roundTrips_demo : RoundTrips demoProtocol :=
  (Deployed.roundTrips_iff_fits deployed_demo).mpr demo_fits

/-- With `uint32_t` mapped to `uint64_t` the MCU never takes a `Heartbeat`. -/
theorem not_roundTrips_remapped :
    Deployed lp64 (fun _ => 0x8A582110) remappedConfig remappedProtocol ∧
      ¬ RoundTrips remappedProtocol :=
  ⟨deployed_remapped, fun h => remapped_not_fits ((roundTrips_iff deployed_remapped.wellFormed).mp h)⟩

end AutoSerialBridge
