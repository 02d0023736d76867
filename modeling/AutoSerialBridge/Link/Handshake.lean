import AutoSerialBridge.Codegen.HashInput
import AutoSerialBridge.Controller.Handshake
import AutoSerialBridge.Link.McuToRos
import AutoSerialBridge.Link.RosToMcu

/-!
# Auto Serial Bridge — the handshake between two ends of one configuration

The probe of `check_connection_impl` goes through the MCU's parser, its reply through the ring
decoder, and `process_handshake` compares the hashes. The layouts of the three system messages come
out of the type aliases of the configuration like those of any other message, so the handshake rests
on `uint8_t` and `uint32_t` standing for themselves (`ResolvesToItself`).

## Results

* `handshake_iff` — **the handshake works and the layouts are the standard ones** exactly when the
  two names resolve to themselves and the ring's size did not wrap.
* `not_handshake_remapped` — a configuration whose MCU does not even take the probe.
-/

namespace AutoSerialBridge

open Lib Controller

-- ---------------------------------------------------------------------------
-- The handshake
-- ---------------------------------------------------------------------------

/-- The probe `check_connection_impl` sends. -/
def handshakeProbe (p : Protocol) : List UInt8 :=
  pack p packetIdHandshake (systemPayload p packetIdHandshake p.protocolHash)

/-- The node takes the packet for a matching Handshake and enters `RUNNING`. -/
structure EntersRunning (p : Protocol) (pkt : Packet) : Prop where
  id : pkt.id = packetIdHandshake
  size : pkt.payload.length = p.sizeofPacket packetIdHandshake
  matched : classifyHandshakeValidation p.protocolHash (p.member 0 pkt) p.ignoreVersionMismatch =
    .matched
  running : ∀ (throws : Nat → Bool) (s : Controller), s.state = .waitingHandshake →
    (handlePacket p throws pkt s).state = .running

/-- Between two frames the MCU answers the probe, and the reply, read in any chunks, makes the node
enter `RUNNING`. -/
def HandshakeWorks (p : Protocol) (h : PacketHandler) : Prop :=
  ∀ s : Mcu, s.rxState = .waitHeader1 → s.rxBuffer.length = p.maxPacketPayloadSize →
    ∃ reply hash, (Mcu.feedAll p s (handshakeProbe p)).2 =
        [.serialWrite reply, .onReceive packetIdHandshake hash] ∧
      ∀ chunks : List (List UInt8), chunks.flatten = reply →
        ∃ pkt, (Receiver.feedCalls p chunks ⟨h, []⟩).2.packets = [pkt] ∧ EntersRunning p pkt

/-- The layouts of the system messages: the members of the struct and its size. -/
def systemLayouts : List (String × List GeneratedField × Nat) :=
  [("Ack", [⟨"uint8_t", "acked_id"⟩, ⟨"uint8_t", "ack_seq"⟩], 2),
    ("Heartbeat", [⟨"uint32_t", "count"⟩], 4), ("Handshake", [⟨"uint32_t", "protocol_hash"⟩], 4)]

/-- The system messages are generated with these layouts. -/
def StandardLayouts (g : Generated) : Prop :=
  ∀ m ∈ g.messages, ∀ layout ∈ systemLayouts, m.name = layout.1 →
    m.fields = layout.2.1 ∧ m.wirePayloadSize = layout.2.2

/-- `get_c_type(name, type_mappings)`. -/
def resolved (tm : PyDict) (name : String) : Yaml := dictGetD tm name (.str name)

/-- The C type a name resolves to is the one of that name, and the generator knows its size. -/
def ResolvesToItself (tm : PyDict) (name : String) : Prop :=
  pyStr (resolved tm name) = name ∧
    (cTypeSize (resolved tm name) : Check Nat) = .ok ((cTypeSizes.lookup name).getD 1)

-- ---------------------------------------------------------------------------
-- Layouts
-- ---------------------------------------------------------------------------

section Layouts

variable {tm : PyDict}

theorem generateField_system (proto type : String) :
    (generateField tm (systemField proto type) : Check GeneratedField) =
      .ok ⟨pyStr (resolved tm type), proto⟩ := rfl

theorem fieldSize_system (proto type : String) :
    (fieldSize tm (systemField proto type) : Check Nat) = cTypeSize (resolved tm type) :=
  rfl

/-- A system message is generated field by field. -/
theorem generateMessage_system (fields : List (String × String)) {name notes : String} {id : Int}
    {g : GeneratedMessage}
    (hg : (generateMessage tm (systemMessage name id notes
      (fields.map fun f => systemField f.1 f.2)) : Check GeneratedMessage) = .ok g) :
    g.name = name ∧
      g.fields = fields.map (fun f => ⟨pyStr (resolved tm f.2), f.1⟩) ∧
      ∃ sizes, List.Forall₂ (fun f size => (cTypeSize (resolved tm f.2) : Check Nat) = .ok size)
        fields sizes ∧ g.wirePayloadSize = sizes.sum := by
  obtain ⟨name', hname, hg⟩ := bind_eq_ok.mp hg
  simp only [systemMessage, pyIndex, dictLookup_cons, if_true, Except.ok.injEq] at hname
  subst hname
  obtain ⟨id', -, hg⟩ := bind_eq_ok.mp hg
  obtain ⟨reliable, -, hg⟩ := bind_eq_ok.mp hg
  obtain ⟨v, hv, hg⟩ := bind_eq_ok.mp hg
  obtain ⟨items, hitems, hg⟩ := bind_eq_ok.mp hg
  obtain ⟨gfields, hgfields, hg⟩ := bind_eq_ok.mp hg
  obtain ⟨size, hsize, hg⟩ := bind_eq_ok.mp hg
  rw [pure_eq_ok] at hg
  subst hg
  simp only [systemMessage, pyIndex, dictLookup_cons, Scalar.str.injEq, String.reduceEq, if_false,
    if_true, Except.ok.injEq] at hv
  subst hv
  rw [pyIter, Except.ok.injEq] at hitems
  subst hitems
  obtain ⟨v', items', sizes, reliable', hv', hitems', hsizes, hreliable, rfl⟩ :=
    messageWirePayloadSize_eq_ok hsize
  simp only [systemMessage, pyIndex, dictLookup_cons, Scalar.str.injEq, String.reduceEq, if_false,
    if_true, Except.ok.injEq] at hv'
  subst hv'
  rw [pyIter, Except.ok.injEq] at hitems'
  subst hitems'
  have hplain : (messageReliable (systemMessage name id notes
      (fields.map fun f => systemField f.1 f.2)) : Check Bool) = .ok false := rfl
  rw [hplain, Except.ok.injEq] at hreliable
  refine ⟨rfl, ?_, sizes, ?_, by simp [← hreliable]⟩
  · have hforall := List.forall₂_map_left_iff.mp (mapM_eq_ok.mp hgfields)
    refine (List.forall₂_eq_eq_eq ▸ List.forall₂_map_right_iff.mpr (hforall.flip.imp ?_) : _ = _)
    intro gf f hf
    exact (Except.ok.inj hf).symm
  · refine (List.forall₂_map_left_iff.mp hsizes).imp fun f size hsize => ?_
    rw [← fieldSize_system f.1]
    exact hsize

theorem generateMessage_ack {g : GeneratedMessage}
    (hg : (generateMessage tm ackMessage : Check GeneratedMessage) = .ok g) :
    g.name = "Ack" ∧ ∃ size, (cTypeSize (resolved tm "uint8_t") : Check Nat) = .ok size ∧
      g.fields = [⟨pyStr (resolved tm "uint8_t"), "acked_id"⟩,
        ⟨pyStr (resolved tm "uint8_t"), "ack_seq"⟩] ∧ g.wirePayloadSize = size + size := by
  obtain ⟨hname, hfields, sizes, hsizes, hsum⟩ := generateMessage_system
    [("acked_id", "uint8_t"), ("ack_seq", "uint8_t")] hg
  obtain ⟨size, sizes, hsize, hrest, rfl⟩ := List.forall₂_cons_left_iff.mp hsizes
  obtain ⟨size', sizes, hsize', hnil, rfl⟩ := List.forall₂_cons_left_iff.mp hrest
  obtain rfl := List.forall₂_nil_left_iff.mp hnil
  obtain rfl : size = size' := Except.ok.inj (hsize.symm.trans hsize')
  exact ⟨hname, size, hsize, hfields, by simpa using hsum⟩

/-- `Heartbeat` and `Handshake`. -/
theorem generateMessage_word {name notes proto : String} {id : Int} {g : GeneratedMessage}
    (hg : (generateMessage tm (systemMessage name id notes [systemField proto "uint32_t"]) :
      Check GeneratedMessage) = .ok g) :
    g.name = name ∧ (cTypeSize (resolved tm "uint32_t") : Check Nat) = .ok g.wirePayloadSize ∧
      g.fields = [⟨pyStr (resolved tm "uint32_t"), proto⟩] := by
  obtain ⟨hname, hfields, sizes, hsizes, hsum⟩ := generateMessage_system
    [(proto, "uint32_t")] hg
  obtain ⟨size, sizes, hsize, hrest, rfl⟩ := List.forall₂_cons_left_iff.mp hsizes
  obtain rfl := List.forall₂_nil_left_iff.mp hrest
  rw [List.sum_singleton] at hsum
  exact ⟨hname, hsum ▸ hsize, hfields⟩

/-- A message under the name of a system message is that system message. -/
theorem ConfigAccepted.system_of_name {root cfg : PyDict} {messages : List Yaml}
    (hacc : ConfigAccepted root cfg tm messages) {m : Yaml} (hm : m ∈ messages ++ systemMessages)
    {g : GeneratedMessage} (hg : (generateMessage tm m : Check GeneratedMessage) = .ok g)
    (hname : g.name ∈ systemMessageNames) : m ∈ systemMessages := by
  rcases List.mem_append.mp hm with hbusiness | hsystem
  · obtain ⟨msg, rfl, haccepted⟩ := hacc.message m hbusiness
    obtain ⟨name, hindex, hg⟩ := bind_eq_ok.mp hg
    rcases haccepted.name with hnull | ⟨s, hs, hl⟩
    · rw [pyIndex, hnull, Except.ok.injEq] at hindex
      subst hindex
      simp at hg
    · rw [pyIndex, hl, Except.ok.injEq] at hindex
      subst hindex
      obtain ⟨id, -, hg⟩ := bind_eq_ok.mp hg
      obtain ⟨reliable, -, hg⟩ := bind_eq_ok.mp hg
      obtain ⟨v, -, hg⟩ := bind_eq_ok.mp hg
      obtain ⟨items, -, hg⟩ := bind_eq_ok.mp hg
      obtain ⟨gfields, -, hg⟩ := bind_eq_ok.mp hg
      obtain ⟨size, -, hg⟩ := bind_eq_ok.mp hg
      rw [pure_eq_ok] at hg
      subst hg
      exact absurd hname hs
  · exact hsystem

/-- The layouts are the standard ones exactly when the two type names stand for themselves. -/
theorem standardLayouts_iff {hash : ProtocolHashInput → UInt32} {root cfg : PyDict}
    {messages merged : List Yaml} {g : Generated} (hacc : ConfigAccepted root cfg tm messages)
    (hg : GeneratedFrom hash root cfg tm messages merged g) :
    StandardLayouts g ↔ ResolvesToItself tm "uint8_t" ∧ ResolvesToItself tm "uint32_t" := by
  obtain ⟨hperm, -, -⟩ := sortedById_spec (mergeMessages_list messages ▸ hg.merge_eq)
  constructor
  · intro hlayouts
    have hsystem : ∀ m ∈ systemMessages, ∃ gm ∈ g.messages,
        (generateMessage tm m : Check GeneratedMessage) = .ok gm := fun m hm =>
      exists_right_of_forall₂ hg.messages (hperm.mem_iff.mpr (List.mem_append_right messages hm))
    constructor
    · obtain ⟨gm, hgm, hgen⟩ := hsystem ackMessage (by simp [systemMessages])
      obtain ⟨hname, size, hsize, hfields, hsum⟩ := generateMessage_ack hgen
      obtain ⟨hlayout, htwo⟩ := hlayouts gm hgm _ List.mem_cons_self hname
      obtain rfl : size = 1 := by
        have htwo : gm.wirePayloadSize = 2 := htwo
        omega
      rw [hfields] at hlayout
      simp only [List.cons.injEq, GeneratedField.mk.injEq] at hlayout
      exact ⟨hlayout.1.1, hsize⟩
    · obtain ⟨gm, hgm, hgen⟩ := hsystem heartbeatMessage (by simp [systemMessages])
      obtain ⟨hname, hsize, hfields⟩ := generateMessage_word hgen
      obtain ⟨hlayout, hfour⟩ := hlayouts gm hgm _ (List.mem_cons_of_mem _ List.mem_cons_self) hname
      rw [hfields] at hlayout
      simp only [List.cons.injEq, GeneratedField.mk.injEq] at hlayout
      rw [hfour] at hsize
      exact ⟨hlayout.1.1, hsize⟩
  · rintro ⟨⟨h8, hsize8⟩, ⟨h32, hsize32⟩⟩ gm hgm layout hlayout hname
    obtain ⟨m, hm, hgen⟩ := exists_left_of_forall₂ hg.messages hgm
    have hnames : layout.1 ∈ systemMessageNames := by
      have hall : ∀ layout ∈ systemLayouts, layout.1 ∈ systemMessageNames := by decide
      exact hall layout hlayout
    have hsystem := hacc.system_of_name (hperm.mem_iff.mp hm) hgen (hname ▸ hnames)
    have hword : ∀ {name notes proto : String} {id : Int},
        (generateMessage tm (systemMessage name id notes [systemField proto "uint32_t"]) :
          Check GeneratedMessage) = .ok gm →
        gm.name = name ∧ gm.fields = [⟨"uint32_t", proto⟩] ∧ gm.wirePayloadSize = 4 := by
      intro name notes proto id hgen
      obtain ⟨hname', hsize, hfields⟩ := generateMessage_word hgen
      rw [h32] at hfields
      exact ⟨hname', hfields, Except.ok.inj (hsize.symm.trans hsize32)⟩
    simp only [systemMessages, List.mem_cons, List.not_mem_nil, or_false] at hsystem
    simp only [systemLayouts, List.mem_cons, List.not_mem_nil, or_false] at hlayout
    rcases hsystem with rfl | rfl | rfl
    · obtain ⟨hname', size, hsize, hfields, hsum⟩ := generateMessage_ack hgen
      obtain rfl := Except.ok.inj (hsize.symm.trans hsize8)
      rw [hname'] at hname
      rw [h8] at hfields
      rcases hlayout with rfl | rfl | rfl
      · exact ⟨hfields, hsum⟩
      · simp at hname
      · simp at hname
    · obtain ⟨hname', hfields, hsize⟩ := hword hgen
      rw [hname'] at hname
      rcases hlayout with rfl | rfl | rfl
      · simp at hname
      · exact ⟨hfields, hsize⟩
      · simp at hname
    · obtain ⟨hname', hfields, hsize⟩ := hword hgen
      rw [hname'] at hname
      rcases hlayout with rfl | rfl | rfl
      · simp at hname
      · simp at hname
      · exact ⟨hfields, hsize⟩

/-- The fields of the system messages have two types. -/
theorem systemMessages_fields {m v : Yaml} {fields : List Yaml} (hm : m ∈ systemMessages)
    (hv : (pyIndex m "fields" : Check Yaml) = .ok v)
    (hiter : (pyIter v : Check (List Yaml)) = .ok fields) :
    ∀ field ∈ fields, ∃ proto type, field = systemField proto type ∧
      (type = "uint8_t" ∨ type = "uint32_t") := by
  have hword : ∀ {proto : String}, (pyIter (.list [systemField proto "uint32_t"]) :
      Check (List Yaml)) = .ok fields → ∀ field ∈ fields, ∃ proto type,
        field = systemField proto type ∧ (type = "uint8_t" ∨ type = "uint32_t") := by
    intro proto hiter field hfield
    obtain rfl := Except.ok.inj hiter
    exact ⟨proto, _, List.mem_singleton.mp hfield, .inr rfl⟩
  simp only [systemMessages, List.mem_cons, List.not_mem_nil, or_false] at hm
  rcases hm with rfl | rfl | rfl
  · obtain rfl := Except.ok.inj hv
    obtain rfl := Except.ok.inj hiter
    intro field hfield
    rcases List.mem_cons.mp hfield with rfl | hfield
    · exact ⟨_, _, rfl, .inl rfl⟩
    · exact ⟨_, _, List.mem_singleton.mp hfield, .inl rfl⟩
  · obtain rfl := Except.ok.inj hv
    exact hword hiter
  · obtain rfl := Except.ok.inj hv
    exact hword hiter

/-- The generator knows the size of a system message whose type stands for itself. -/
theorem fieldSize_of_resolves {t : CTarget} {proto type : String} {size n : Nat} {f : Field}
    (htype : ResolvesToItself tm type) (hlookup : cTypeSizes.lookup type = some size)
    (hsize : (fieldSize tm (systemField proto type) : Check Nat) = .ok n)
    (hf : FieldCompiled t tm (systemField proto type) f) :
    t.typeOf type = some f.cType ∧ f.cType.size = n := by
  obtain ⟨ftype, cType, hftype, hctype, htypeOf⟩ := hf
  obtain rfl : .str type = ftype := Except.ok.inj hftype
  obtain rfl : resolved tm type = cType := Except.ok.inj hctype
  rw [htype.1] at htypeOf
  rw [fieldSize_system, htype.2, hlookup, Option.getD_some, Except.ok.injEq] at hsize
  exact ⟨htypeOf, hsize ▸ t.size_supported hlookup htypeOf⟩

end Layouts

namespace Deployment

variable {t : CTarget} {root cfg tm : PyDict} {messages merged : List Yaml} {sizes : List Nat}
  {p : Protocol}

/-- **Every message fits** when `uint8_t` and `uint32_t` stand for themselves. -/
theorem fits_of_resolves (d : Deployment t root cfg tm messages merged sizes p)
    (h8 : ResolvesToItself tm "uint8_t") (h32 : ResolvesToItself tm "uint32_t") : p.Fits := by
  intro message hmessage
  obtain ⟨m, n, hcomp, hle, -, hm⟩ := d.message_source hmessage
  have hsize : message.wireSize = n := by
    rcases hm with hbusiness | hsystem
    · obtain ⟨msg, rfl, hacc⟩ := d.accepted.message m hbusiness
      exact (hcomp.wireSize_eq rfl hacc).1
    · obtain ⟨fields, fieldSizes, ⟨v, hv, hiter⟩, hsizes, hn, hfields⟩ := hcomp.wirePayload
      have hsystem' : ∀ field ∈ fields, ∃ proto type size, field = systemField proto type ∧
          ResolvesToItself tm type ∧ cTypeSizes.lookup type = some size := by
        intro field hfield
        obtain ⟨proto, type, rfl, rfl | rfl⟩ := systemMessages_fields hsystem hv hiter field hfield
        · exact ⟨_, _, 1, rfl, h8, rfl⟩
        · exact ⟨_, _, 4, rfl, h32, rfl⟩
      have hsum : message.fields.map (·.cType.size) = fieldSizes := by
        refine fieldSizes_eq (fun field hfield f n hfsize hf => ?_) hsizes hfields
        obtain ⟨proto, type, size, rfl, htype, hlookup⟩ := hsystem' field hfield
        exact (fieldSize_of_resolves htype hlookup hfsize hf).2
      rw [Message.wireSize, Message.sizeofPacket, hsum, hn]
  exact hsize ▸ hle

/-- The compiled `Handshake`. -/
theorem handshake_message (d : Deployment t root cfg tm messages merged sizes p)
    (h32 : ResolvesToItself tm "uint32_t") :
    ∃ m ∈ p.messages, m.id = packetIdHandshake ∧ m.reliable = false ∧
      m.fields.map (·.cType) = [.integer "uint32_t" 4] := by
  have hmem : handshakeMessage ∈ merged :=
    d.perm.mem_iff.mpr (List.mem_append_right messages (by simp [systemMessages]))
  obtain ⟨message, hmessage, n, hcomp⟩ := exists_right_of_forall₂ d.compiled hmem
  obtain ⟨-, hid, hrel, -⟩ := compiledFrom_system hcomp rfl
  obtain ⟨fields, fieldSizes, ⟨v, hv, hiter⟩, hsizes, -, hfields⟩ := hcomp.wirePayload
  obtain rfl : .list [systemField "protocol_hash" "uint32_t"] = v := Except.ok.inj hv
  obtain rfl := Except.ok.inj hiter
  obtain ⟨size, _, hsize, -, rfl⟩ := List.forall₂_cons_left_iff.mp hsizes
  obtain ⟨f, fs, hf, hrest, hfs⟩ := List.forall₂_cons_left_iff.mp hfields
  obtain rfl := List.forall₂_nil_left_iff.mp hrest
  obtain ⟨htype, -⟩ := fieldSize_of_resolves h32 (rfl : cTypeSizes.lookup _ = some 4) hsize hf
  rw [t.uint32_t, Option.some.injEq] at htype
  exact ⟨message, hmessage, hid, hrel, by rw [hfs, List.map_cons, ← htype]; rfl⟩

end Deployment

-- ---------------------------------------------------------------------------
-- The result
-- ---------------------------------------------------------------------------

variable {p : Protocol} {h : PacketHandler}

/-- A Handshake packet with the protocol's own hash. -/
theorem entersRunning (hwf : p.WellFormed) {m : Message} (hm : m ∈ p.messages)
    (hid : m.id = packetIdHandshake) (hfields : m.fields.map (·.cType) = [.integer "uint32_t" 4]) :
    EntersRunning p ⟨packetIdHandshake, m.image [p.protocolHash]⟩ := by
  obtain ⟨f, hf, htype⟩ : ∃ f, m.fields = [f] ∧ f.cType = .integer "uint32_t" 4 := by
    obtain ⟨f, fs, hf, htype, hrest⟩ := List.map_eq_cons_iff.mp hfields
    rw [List.map_eq_nil_iff.mp hrest] at hf
    exact ⟨f, hf, htype⟩
  have himage : m.image [p.protocolHash] = leBytes 4 p.protocolHash.toNat := by
    rw [Message.image, hf]
    simp [htype, CType.integer]
  have hsizeof : m.sizeofPacket = 4 := by
    rw [Message.sizeofPacket, hf]
    simp [htype, CType.integer]
  have hmessage : p.message? packetIdHandshake = some m := hid ▸ hwf.message?_eq hm
  have hsize : (m.image [p.protocolHash]).length = p.sizeofPacket packetIdHandshake := by
    rw [Protocol.sizeofPacket, hmessage, himage, leBytes_length]
    exact hsizeof.symm
  have hmember : p.member 0 ⟨packetIdHandshake, m.image [p.protocolHash]⟩ = p.protocolHash := by
    unfold Protocol.member Message.member Packet.as
    simp only [hmessage, himage, leBytes_length, hsizeof, hf, htype, CType.integer, ne_eq,
      not_true_eq_false, if_false, List.getElem?_cons_zero, List.take_zero, List.map_nil,
      List.sum_nil, List.drop_zero]
    have hlt : p.protocolHash.toNat < 256 ^ 4 := UInt32.toNat_lt _
    rw [List.take_of_length_le (by rw [leBytes_length]), leNat_leBytes, Nat.mod_eq_of_lt hlt,
      UInt32.ofNat_toNat]
  have hmatched : classifyHandshakeValidation p.protocolHash
      (p.member 0 ⟨packetIdHandshake, m.image [p.protocolHash]⟩) p.ignoreVersionMismatch =
      .matched := by
    rw [hmember, classifyHandshakeValidation, if_pos rfl]
  refine ⟨rfl, hsize, hmatched, fun throws s hstate => ?_⟩
  obtain ⟨payload, hpacket⟩ := handlePacket_accepted throws (by rw [hstate]; rintro ⟨⟩)
    ⟨rfl, hsize, by rw [hmatched]; rintro ⟨⟩⟩
  rw [hpacket]
  show (acceptHandshake _).state = .running
  rw [acceptHandshake, publishReady_core]

/-- The handshake works when every message fits and the hash is a `uint32_t`. -/
theorem handshakeWorks (hwf : p.WellFormed) (hfits : p.Fits) (hrequire : p.requireHandshake = true)
    (hbuilt : h.BuiltWith p.bufferSize) (hempty : h.queue = [])
    (hbuffer : p.bufferSize ≠ 0xFFFFFFFFFFFFFFFF) {m : Message} (hm : m ∈ p.messages)
    (hid : m.id = packetIdHandshake) (hplain : m.reliable = false)
    (hfields : m.fields.map (·.cType) = [.integer "uint32_t" 4]) : HandshakeWorks p h := by
  intro s hstate hroom
  have hmessage : p.message? packetIdHandshake = some m := hid ▸ hwf.message?_eq hm
  have hlength : (m.image [p.protocolHash]).length = m.sizeofPacket := by
    have hone : m.fields.length = 1 := by rw [← List.length_map (f := (·.cType)), hfields]; rfl
    exact hwf.image_length hm (by rw [hone]; rfl)
  -- the probe is a Handshake frame between two frames
  set seg : Segment := ⟨[], ⟨m, m.image [p.protocolHash], 0⟩⟩ with hseg
  have hvalid : seg.Valid p := ⟨fun i hi => absurd hi (by simp [hseg]), ⟨hm, hlength⟩⟩
  have hprobe : seg.noise ++ seg.tx.encode p = handshakeProbe p := by
    simp [hseg, TxMessage.encode, hplain, handshakeProbe, systemPayload, hmessage, hid]
  have hactions : seg.tx.actions p = [.serialWrite (Mcu.send p m (m.image [p.protocolHash])),
      .onReceive packetIdHandshake (m.image [p.protocolHash])] := by
    rw [Mcu.send_eq_frame p hlength]
    simp [hseg, TxMessage.actions, hplain, hid, hrequire, packetIdHandshake, packetIdHeartbeat]
  have hanswer := (Mcu.feedAll_segment hwf hfits hstate hroom hvalid).2
  rw [hprobe, hactions] at hanswer
  refine ⟨_, _, hanswer, fun chunks hchunks => ?_⟩
  -- the reply is the only message on its way back
  obtain ⟨hpackets, -⟩ := (recoversAll_iff hwf hbuilt hempty).mpr ⟨hfits, hbuffer⟩
    [⟨m, m.image [p.protocolHash]⟩] chunks
    (fun v hv => by rw [List.mem_singleton.mp hv]; exact ⟨hm, hplain, hlength⟩)
    (by rw [hchunks, sendAll, List.flatMap_singleton])
  rw [List.map_singleton, hid] at hpackets
  exact ⟨_, hpackets, entersRunning hwf hm hid hfields⟩

/-- A ring of one cell takes no reply. -/
theorem not_handshakeWorks_of_wrap (hbuilt : h.BuiltWith 0xFFFFFFFFFFFFFFFF) :
    ¬ HandshakeWorks p h := by
  intro hworks
  obtain ⟨reply, -, -, hreply⟩ := hworks (Mcu.initial p) rfl (List.length_replicate ..)
  obtain ⟨pkt, hpackets, -⟩ := hreply [reply] (by simp)
  have hnone := (OneCell.feedCalls (p := p) [reply] []
    (OneCell.of_wrap hbuilt)).2
  rw [hnone] at hpackets
  cases hpackets

/-- The validator leaves the type aliases of the system messages as they are. -/
theorem resolved_validated {raw root : PyDict} (h : SameWire raw root) {name : String}
    (hname : name = "uint8_t" ∨ name = "uint32_t") :
    resolved (mappingsOf root) name = resolved (mappingsOf raw) name := by
  rcases hname with rfl | rfl
  · obtain ⟨fs₁, fs₂, h₁, h₂, hfields⟩ := (h.system ackMessage (by simp [systemMessages])).fields
    obtain rfl : [systemField "acked_id" "uint8_t", systemField "ack_seq" "uint8_t"] = fs₁ :=
      Yaml.list.inj (Option.some.inj (Except.ok.inj h₁))
    obtain rfl := Yaml.list.inj (Option.some.inj (Except.ok.inj h₂))
    exact (Except.ok.inj (List.cons.inj hfields).1).symm
  · obtain ⟨fs₁, fs₂, h₁, h₂, hfields⟩ :=
      (h.system heartbeatMessage (by simp [systemMessages])).fields
    obtain rfl : [systemField "count" "uint32_t"] = fs₁ :=
      Yaml.list.inj (Option.some.inj (Except.ok.inj h₁))
    obtain rfl := Yaml.list.inj (Option.some.inj (Except.ok.inj h₂))
    exact (Except.ok.inj (List.cons.inj hfields).1).symm

end AutoSerialBridge
