import DtlsClient.Properties.Buffers

/-!
# Memory that nobody has written to

Two clients receive the same datagrams, but find different bytes in the memory they allocate.  As long
as no declared length reaches past the end of what was received, they do and send the same.
-/

open Library

namespace DtlsClient

open ClientHandshakeHandler FragmentedHandshake TLSStruct

/-! ## Where memory can show -/

instance (buf : Bytes) (spec : TypeSpecs.StructSpec) (offset : Nat) :
    Decidable (Inside buf spec offset) :=
  inferInstanceAs (Decidable (_ ∨ _))

/-- The records of a datagram, as far as the parser gets. -/
def RecordsInside (buf : Bytes) : Nat → Nat → Prop
  | 0, _ => True
  | fuel + 1, offset =>
      offset < buf.length → Inside buf DTLSCiphertext.spec offset ∧
        ∀ readBytes ∈ span false buf DTLSCiphertext.spec offset,
          RecordsInside buf fuel (offset + readBytes)

instance decideRecordsInside (buf : Bytes) :
    (fuel offset : Nat) → Decidable (RecordsInside buf fuel offset)
  | 0, _ => .isTrue trivial
  | fuel + 1, offset =>
      have := decideRecordsInside buf fuel
      inferInstanceAs (Decidable (offset < buf.length → _ ∧
        ∀ readBytes ∈ span false buf DTLSCiphertext.spec offset,
          RecordsInside buf fuel (offset + readBytes)))

/-- The fields of a whole message. -/
def BodyInside (whole : FragmentedHandshake) : Prop :=
  ∀ msgClass ∈ HandshakeMessages whole.msgType, Inside whole.fragment msgClass.spec 0

instance (whole : FragmentedHandshake) : Decidable (BodyInside whole) :=
  inferInstanceAs (Decidable (∀ msgClass ∈ HandshakeMessages whole.msgType, _))

/-- The fragment in a handshake record, and the fields of the message it completes. -/
def FragmentInside (fragments : List FragmentedHandshake) (data : Bytes) : Prop :=
  Inside data FragmentedHandshake.spec 0 ∧
    ∀ fragment ∈ (FragmentedHandshake.fromBuffer zeros data).toOption,
      ∀ whole ∈ completed fragments fragment, BodyInside whole

instance (fragments : List FragmentedHandshake) (data : Bytes) :
    Decidable (FragmentInside fragments data) :=
  inferInstanceAs (Decidable (_ ∧ _))

/-- A step in which every declared length stays inside what was received. -/
def ReadsInside : Config × Action → Prop
  | (c, .datagram _ _ udpMsg _) => c.takesDatagram = true → RecordsInside udpMsg udpMsg.length 0
  | (c, .next) => ∀ d ∈ c.pending.head?, d.msg.type = .handshake →
      FragmentInside c.socket.handshakeHandler.incompleteMessages d.msg.data
  | _ => True

instance : DecidablePred ReadsInside
  | (_, .datagram _ _ _ _) => inferInstanceAs (Decidable (_ → _))
  | (c, .next) => inferInstanceAs (Decidable (∀ d ∈ c.pending.head?, _ → _))
  | (_, .callback _) => .isTrue trivial
  | (_, .handshakeTimeout) => .isTrue trivial
  | (_, .udpClose) => .isTrue trivial
  | (_, .udpError _) => .isTrue trivial
  | (_, .send _) => .isTrue trivial
  | (_, .close) => .isTrue trivial
  | (_, .sendAlert _) => .isTrue trivial

/-- The same action, whatever the memory holds. -/
inductive Action.SameInput : Action → Action → Prop
  | datagram (memory memory' : Nat → Memory) (messageMemory messageMemory' : Nat → MessageMemory)
      (udpMsg : Bytes) (rinfo : RemoteInfo) :
      SameInput (.datagram memory messageMemory udpMsg rinfo)
        (.datagram memory' messageMemory' udpMsg rinfo)
  | same (a : Action) : SameInput a a

/-! ## Records -/

theorem fromBuffer_same {buf : Bytes} {offset : Nat} (h : Inside buf DTLSCiphertext.spec offset)
    (memory memory' : Nat → Memory) :
    DTLSCiphertext.fromBuffer memory buf offset = DTLSCiphertext.fromBuffer memory' buf offset := by
  unfold DTLSCiphertext.fromBuffer
  rw [(deserialize_same_iff buf DTLSCiphertext.spec offset).mpr h memory memory']

theorem span_of_fromBuffer {memory : Nat → Memory} {buf : Bytes} {offset readBytes : Nat}
    {p : DTLSCiphertext} (h : DTLSCiphertext.fromBuffer memory buf offset = .ok (p, readBytes)) :
    span false buf DTLSCiphertext.spec offset = some readBytes := by
  unfold DTLSCiphertext.fromBuffer at h
  rcases bind_eq_ok.mp h with ⟨r, hr, h⟩
  rcases bind_eq_ok.mp h with ⟨p', _, h⟩
  have hread : r.2 = readBytes := (Prod.mk.inj (Except.ok.inj h)).2
  have hparses := deserialize_parses buf DTLSCiphertext.spec offset
  rcases hparses.exists_ok ((hparses.ok_iff memory).mp ⟨r, hr⟩) memory with ⟨value, n, hspan, hok⟩
  have hspan : span false buf DTLSCiphertext.spec offset = some n := hspan
  rw [hspan, ← hread, Except.ok.inj (hr.symm.trans hok)]

theorem parsePackets_same (memory memory' : Nat → Memory) {buf : Bytes} {fuel offset : Nat}
    (h : RecordsInside buf fuel offset) :
    RecordLayer.parsePackets memory buf fuel offset =
      RecordLayer.parsePackets memory' buf fuel offset := by
  induction fuel generalizing offset with
  | zero => rfl
  | succ fuel ih =>
      unfold RecordLayer.parsePackets
      by_cases hin : offset < buf.length
      · rcases h hin with ⟨hinside, hrest⟩
        rw [if_pos hin, if_pos hin, fromBuffer_same hinside memory memory']
        cases hparsed : DTLSCiphertext.fromBuffer memory' buf offset with
        | error e => rfl
        | ok r => 
            simp only
            rw [ih (hrest r.2 (span_of_fromBuffer hparsed))]
      · rw [if_neg hin, if_neg hin]

theorem receive_same (crypto : Crypto) (memory memory' : Nat → Memory) {udpMsg : Bytes}
    (h : RecordsInside udpMsg udpMsg.length 0) (rl : RecordLayer) :
    rl.receive crypto memory udpMsg = rl.receive crypto memory' udpMsg := by
  unfold RecordLayer.receive RecordLayer.packets
  rw [parsePackets_same memory memory' h]

/-! ## Handshake messages -/

theorem fromFragment_same {whole : FragmentedHandshake} (h : BodyInside whole)
    (memory memory' : Nat → Memory) :
    Handshake.fromFragment memory whole = Handshake.fromFragment memory' whole := by
  unfold Handshake.fromFragment
  cases hclass : HandshakeMessages whole.msgType with
  | none => rfl
  | some msgClass =>
      simp only
      rw [(deserialize_same_iff _ _ _).mpr (h msgClass hclass) memory memory']

theorem storeMessage_same (memory memory' : MessageMemory) {msg : FragmentedHandshake}
    {h : ClientHandshakeHandler}
    (hinside : ∀ whole, completed h.incompleteMessages msg = some whole → BodyInside whole) :
    storeMessage memory msg h = storeMessage memory' msg h := by
  rw [storeMessage_eq, storeMessage_eq]
  cases hcompleted : completed h.incompleteMessages msg with
  | none => rfl
  | some whole =>
      simp only
      rw [fromFragment_same (hinside whole hcompleted) memory.body memory'.body]

theorem handleMessage_same (opts : Options) (crypto : Crypto) (memory memory' : MessageMemory)
    {msg : Message} (rinfo : RemoteInfo) {s : Socket}
    (h : msg.type = .handshake → FragmentInside s.handshakeHandler.incompleteMessages msg.data) :
    Socket.handleMessage opts crypto memory msg rinfo s =
      Socket.handleMessage opts crypto memory' msg rinfo s := by
  rcases msg with ⟨type, data⟩
  cases type with
  | handshake =>
      rcases h rfl with ⟨hinside, hbody⟩
      have hparse : ∀ memory, FragmentedHandshake.fromBuffer memory data =
          FragmentedHandshake.fromBuffer zeros data := by
        intro memory
        unfold FragmentedHandshake.fromBuffer
        rw [(deserialize_same_iff _ _ _).mpr hinside memory zeros]
      unfold Socket.handleMessage
      simp only [hparse]
      cases hfragment : FragmentedHandshake.fromBuffer zeros data with
      | error e => rfl
      | ok fragment =>
          simp only
          unfold Socket.processIncomingMessage Socket.callHandler
            ClientHandshakeHandler.processIncomingMessage
          apply bind_congr_at
          apply onPart_congr_at
          apply bind_congr_at
          have hmem : fragment ∈ (FragmentedHandshake.fromBuffer zeros data).toOption := by
            rw [hfragment]
            rfl
          exact storeMessage_same memory memory' fun whole hwhole =>
            hbody fragment hmem whole hwhole
  | _ => rfl

/-! ## Two runs -/

namespace Config

/-- What waits to be processed, without the memory that its processing finds. -/
def inputs (c : Config) : List (Message × RemoteInfo) := c.pending.map fun d => (d.msg, d.rinfo)

/-- Equal up to that memory. -/
structure SameUpToMemory (c c' : Config) : Prop where
  socket : c.socket = c'.socket
  inputs : c.inputs = c'.inputs

theorem SameUpToMemory.takesDatagram {c c' : Config} (h : SameUpToMemory c c') :
    c.takesDatagram = c'.takesDatagram := by
  have hempty : c.pending.isEmpty = c'.pending.isEmpty := by
    have hinputs := congrArg List.isEmpty h.inputs
    unfold Config.inputs at hinputs
    rw [List.isEmpty_map, List.isEmpty_map] at hinputs
    exact hinputs
  unfold Config.takesDatagram
  rw [h.socket, hempty]

theorem inputs_deliveries (messageMemory messageMemory' : Nat → MessageMemory) (rinfo : RemoteInfo)
    (messages : List Message) :
    (deliveries messageMemory rinfo messages).map (fun d => (d.msg, d.rinfo)) =
      (deliveries messageMemory' rinfo messages).map fun d => (d.msg, d.rinfo) := by
  unfold deliveries
  rw [List.map_map, List.map_map]
  rfl

theorem SameUpToMemory.receiveDatagram {c c' : Config} (h : SameUpToMemory c c') (crypto : Crypto)
    (memory memory' : Nat → Memory) (messageMemory messageMemory' : Nat → MessageMemory)
    {udpMsg : Bytes} (rinfo : RemoteInfo)
    (hinside : c.takesDatagram = true → RecordsInside udpMsg udpMsg.length 0) :
    SameUpToMemory (c.receiveDatagram crypto memory messageMemory udpMsg rinfo)
      (c'.receiveDatagram crypto memory' messageMemory' udpMsg rinfo) := by
  unfold Config.receiveDatagram
  by_cases htakes : c.takesDatagram = true
  · have hrl : c'.recordLayer = c.recordLayer := congrArg Socket.recordLayer h.socket.symm
    rw [if_pos htakes, if_pos (h.takesDatagram ▸ htakes), hrl,
      receive_same crypto memory' memory (hinside htakes)]
    constructor
    · show Socket.setRecordLayer c.socket _ = Socket.setRecordLayer c'.socket _
      rw [h.socket]
    · exact inputs_deliveries messageMemory messageMemory' rinfo _
  · rw [if_neg htakes, if_neg (h.takesDatagram ▸ htakes)]
    exact h

theorem SameUpToMemory.handleNext {c c' : Config} (h : SameUpToMemory c c') (opts : Options)
    (crypto : Crypto)
    (hinside : ∀ d ∈ c.pending.head?, d.msg.type = .handshake →
      FragmentInside c.socket.handshakeHandler.incompleteMessages d.msg.data) :
    SameUpToMemory (c.handleNext opts crypto) (c'.handleNext opts crypto) := by
  rcases c with ⟨s, pending⟩
  rcases c' with ⟨s', pending'⟩
  have hsocket : s = s' := h.socket
  have hinputs : pending.map (fun d => (d.msg, d.rinfo)) = pending'.map fun d => (d.msg, d.rinfo) :=
    h.inputs
  subst hsocket
  cases pending with
  | nil =>
      rw [List.map_nil, eq_comm, List.map_eq_nil_iff] at hinputs
      subst hinputs
      exact ⟨rfl, rfl⟩
  | cons d pending =>
      cases pending' with
      | nil => cases hinputs
      | cons d' pending' =>
          rw [List.map_cons, List.map_cons] at hinputs
          rcases List.cons.inj hinputs with ⟨hhead, hrest⟩
          rcases Prod.mk.inj hhead with ⟨hmsg, hrinfo⟩
          have hsame := handleMessage_same opts crypto d'.memory d.memory d.rinfo
            (hinside d (by simp))
          unfold Config.handleNext
          simp only
          rw [← hmsg, ← hrinfo, hsame]
          cases Socket.handleMessage opts crypto d.memory d.msg d.rinfo s with
          | ok _ s1 => exact ⟨rfl, hrest⟩
          | error e s1 => exact ⟨rfl, rfl⟩

end Config

theorem step_same (opts : Options) (crypto : Crypto) {c c' : Config} {a a' : Action}
    (h : c.SameUpToMemory c') (ha : a.SameInput a') (hinside : ReadsInside (c, a)) :
    (step opts crypto c a).SameUpToMemory (step opts crypto c' a') := by
  cases ha with
  | datagram memory memory' messageMemory messageMemory' udpMsg rinfo =>
      exact h.receiveDatagram crypto memory memory' messageMemory messageMemory' rinfo hinside
  | same =>
      cases a with
      | datagram memory messageMemory udpMsg rinfo =>
          exact h.receiveDatagram crypto memory memory messageMemory messageMemory rinfo hinside
      | next => exact h.handleNext opts crypto hinside
      | _ =>
          constructor
          · unfold step
            rw [h.socket]
          · exact h.inputs

/-- What the parser returns is the same for all contents of the memory exactly if no declared length reaches
past the end of the received bytes, and each of its buffers is a part of these then.  As long as that holds
of all steps, what a client does and sends is the same for any two contents of the memory. -/
theorem sent_independent (opts : Options) (crypto : Crypto) (random : Random) :
    (∀ (buf : Bytes) (spec : TypeSpecs.StructSpec) (offset : Nat),
      ((∀ memory memory', deserialize memory buf spec offset = deserialize memory' buf spec offset) ↔
        Inside buf spec offset) ∧
      (Inside buf spec offset → ∀ memory value readBytes,
        deserialize memory buf spec offset = .ok (value, readBytes) →
        ∀ bytes ∈ buffersOf spec value, bytes <:+: buf)) ∧
    ∀ actions actions' : List Action, List.Forall₂ Action.SameInput actions actions' →
      (∀ t ∈ (client opts crypto random).trace actions, ReadsInside t) →
      ((client opts crypto random).run actions).socket =
        ((client opts crypto random).run actions').socket := by
  constructor
  · intro buf spec offset
    exact ⟨deserialize_same_iff buf spec offset, fun hinside _ _ _ h => deserialize_within hinside h⟩
  · intro actions actions' hactions hinside
    have hsame := (client opts crypto random).run_related (R := Config.SameUpToMemory) ⟨rfl, rfl⟩
      (fun c c' a a' h ha hinside => step_same opts crypto h ha hinside) hactions hinside
    exact hsame.socket

theorem sent_independent_sample :
    (∀ t ∈ (client Sample.opts Sample.crypto Sample.random).trace Sample.completeHandshake,
        ReadsInside t) ∧
      (Sample.run Sample.completeHandshake).socket =
        (Sample.run [Sample.datagram Sample.serverFlight 1, .next, .next,
          Sample.datagram Sample.finishedFlight 1, .next, .next]).socket := by
  have hinside : ∀ t ∈ (client Sample.opts Sample.crypto Sample.random).trace
      Sample.completeHandshake, ReadsInside t := by decide +kernel
  constructor
  · exact hinside
  · apply (sent_independent Sample.opts Sample.crypto Sample.random).2 _ _ _ hinside
    exact .cons (.datagram ..) (.cons (.same _) (.cons (.same _)
      (.cons (.datagram ..) (.cons (.same _) (.cons (.same _) .nil)))))

/-- A HelloVerifyRequest whose cookie declares five bytes and has none: the second ClientHello carries five
bytes of the memory. -/
theorem sent_independent_truncatedCookie :
    ¬∀ actions actions' : List Action, List.Forall₂ Action.SameInput actions actions' →
      (Sample.run actions).recordLayer.udpSocket = (Sample.run actions').recordLayer.udpSocket := by
  intro hsame
  let request := Sample.record .handshake 0 0 (Sample.handshake .helloVerifyRequest 0 [254, 253, 5])
  have hsent := hsame [Sample.datagram request 0, .next] [Sample.datagram request 1, .next]
    (.cons (.datagram ..) (.cons (.same .next) .nil))
  revert hsent
  decide +kernel

end DtlsClient
