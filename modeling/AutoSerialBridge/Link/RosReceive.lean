import AutoSerialBridge.Codegen.Target
import AutoSerialBridge.Wire.Receiver

/-!
# Auto Serial Bridge — the ROS receive path, for deployed protocols

`feed_data_with_recovery` against the reference scan, for every accepted configuration. Two things
can come between them: a message longer than `MAX_PACKET_PAYLOAD_SIZE`, and a `buffer_size` for which
the ring's size wraps.
-/

namespace AutoSerialBridge

/-- A handler of 1024 bytes can be built. -/
theorem exists_builtWith_demo : ∃ h : PacketHandler, h.BuiltWith 1024 ∧ h.queue = [] := by
  obtain ⟨h, hnew⟩ : ∃ h, PacketHandler.new 1024 = some h := ⟨_, rfl⟩
  exact ⟨h, PacketHandler.builtWith_new hnew, (PacketHandler.new_spec hnew).2.1⟩

end AutoSerialBridge
