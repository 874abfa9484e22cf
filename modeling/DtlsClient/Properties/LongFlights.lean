import DtlsClient.Properties.Finishing
import DtlsClient.Properties.MTU

/-!
# Flights that get too long

A client answers a HelloVerifyRequest with all its cipher suites and a cookie of any length, and a
ServerHelloDone with its identity.  These two flights decide which options objects keep the limit.
-/

open Library

namespace DtlsClient

open FlightState

/-! ## A client that waits for the server's first flight -/

/-- Of the server's first flight the client has stored these messages. -/
structure AwaitsServer (opts : Options) (crypto : Crypto) (random : Random)
    (stored : IndexMap Handshake) (s : Socket) : Prop where
  inv : ClientInv crypto s
  standing : s.standing = Standing.initial opts random
  buffers : s.buffers = (-1, [], stored)
  readEpochNr : s.recordLayer.readEpochNr = 0
  clientRandom : (s.recordLayer.connState 1).clientRandom = some random.serialize

/-- Nothing has arrived yet. -/
structure Started (opts : Options) (crypto : Crypto) (random : Random) (s : Socket) : Prop where
  awaits : AwaitsServer opts crypto random .empty s
  isClosed : s.isClosed = false
  window : s.recordLayer.window 0 = .reset
  clear : (s.recordLayer.connState 0).ReadInTheClear

section Waiting

variable {opts : Options} {crypto : Crypto} {random : Random}

-- The first flight leaves the buffers, the windows and the random as they are.
theorem client_undisturbed (opts : Options) (crypto : Crypto) (random : Random) :
    (client opts crypto random).init.socket.buffers = (-1, [], .empty) ∧
      (client opts crypto random).init.socket.isClosed = false ∧
      (client opts crypto random).init.socket.recordLayer.window 0 = .reset ∧
      ((client opts crypto random).init.socket.recordLayer.connState 1).clientRandom =
        some random.serialize := by
  apply client_sends (P := fun s : Socket => s.buffers = (-1, [], .empty) ∧ s.isClosed = false ∧
    s.recordLayer.window 0 = .reset ∧
    (s.recordLayer.connState 1).clientRandom = some random.serialize)
  intro f hello hf hhello
  have hepochs := FlightState.listening_epochs crypto random
  have hmsg : hello.msgType ≠ .finished := by rw [hhello]; exact HandshakeType.noConfusion
  have hbuffer : f.bufferedOutgoingMessages = [] := by rw [hf]; rfl
  rw [← hf] at hepochs
  apply (sendFlight_result hepochs hbuffer hmsg _).mono
  · rintro _ f' ⟨fragments, datagram, rl', _, hok, hsent, rfl⟩
    have hwindow : rl'.window = f.recordLayer.window :=
      (RecordLayer.processOutgoingMessages_window crypto _ _).of_ok hok
    have hrandom : (rl'.connState 1).clientRandom = some random.serialize := by
      rw [hsent.connState 1, hf]
      rfl
    rw [hf] at hwindow
    exact ⟨rfl, rfl, congrFun hwindow 0, hrandom⟩
  · exact fun _ _ h => h

theorem client_started (opts : Options) (crypto : Crypto) (random : Random) :
    Started opts crypto random (client opts crypto random).init.socket := by
  have hclear := run_readsEpoch0InTheClear opts crypto random []
  have hstanding := client_standing opts crypto random
  rcases client_init opts crypto random with ⟨s, hinit, hinv, hread, _⟩
  have hstarted := client_undisturbed opts crypto random
  rw [Machine.run, List.foldl_nil] at hclear
  rw [hinit] at hclear hstanding hstarted ⊢
  rcases hstarted with ⟨hbuffers, hclosed, hwindow, hrandom⟩
  exact ⟨⟨hinv, hstanding, hbuffers, hread, hrandom⟩, hclosed, hwindow, hclear⟩

-- Records of epoch 0 that the fresh window does not refuse.
theorem Started.messages {s : Socket} (h : Started opts crypto random s) {records : List Record}
    (hrecords : ∀ r ∈ records, r.packet.epoch = 0 ∧
      AntiReplayWindow.reset.mayReceive r.packet.sequenceNumber = true) :
    s.recordLayer.messages crypto records =
      records.map fun r => ⟨r.packet.type, r.packet.fragment⟩ := by
  induction records with
  | nil => rfl
  | cons r records ih =>
      rcases hrecords r List.mem_cons_self with ⟨hepoch, hmay⟩
      have hadmits : s.recordLayer.admits r.packet = true := by
        have hlt := s.recordLayer.nextEpochNr_lt_length
        have hwindow : (s.recordLayer.epoch 0).antiReplayWindow = .reset := h.window
        unfold RecordLayer.admits
        rw [hepoch, h.awaits.readEpochNr, if_neg (by omega), if_neg (Nat.lt_irrefl 0), hwindow]
        exact hmay
      have hdecipher : s.recordLayer.decipherPacket crypto r.packet = some r.packet := by
        apply RecordLayer.decipherPacket_clear
        rw [hepoch]
        exact h.clear
      have hfirst := RecordLayer.messages_singleton crypto hadmits hdecipher
      have happend := RecordLayer.messages_append crypto s.recordLayer [r] records
      rw [List.singleton_append] at happend
      rw [happend, hfirst, ih fun r' hr' => hrecords r' (List.mem_cons_of_mem _ hr')]
      rfl

theorem AwaitsServer.receive {stored : IndexMap Handshake} {s : Socket}
    (h : AwaitsServer opts crypto random stored s) (memory : Nat → Memory) (udpMsg : Bytes) :
    AwaitsServer opts crypto random stored
      (s.setRecordLayer (s.recordLayer.receive crypto memory udpMsg).2) where
  inv := h.inv.receive memory udpMsg
  standing := (FlightState.standing_withRecordLayer _ (RecordLayer.receive_writeEpochNr ..)
    (RecordLayer.parameters_receive ..)).trans h.standing
  buffers := h.buffers
  readEpochNr := (RecordLayer.receive_readEpochNr ..).trans h.readEpochNr
  clientRandom := by
    show ((s.recordLayer.receive crypto memory udpMsg).2.connState 1).clientRandom = _
    rw [RecordLayer.connState_receive]
    split
    · exact h.clientRandom
    · exact h.clientRandom

-- The datagram is received, and its messages wait for the loop.
theorem Started.step_datagram {s : Socket} (h : Started opts crypto random s)
    (memory : Nat → Memory) (messageMemory : Nat → MessageMemory) (rinfo : RemoteInfo)
    {records : List Record} (hrecords : ∀ r ∈ records, r.packet.epoch = 0 ∧
      AntiReplayWindow.reset.mayReceive r.packet.sequenceNumber = true) :
    ∃ s', step opts crypto ⟨s, []⟩
        (.datagram memory messageMemory (Record.datagram records) rinfo) =
          ⟨s', Config.deliveries messageMemory rinfo
            (records.map fun r => ⟨r.packet.type, r.packet.fragment⟩)⟩ ∧
      AwaitsServer opts crypto random .empty s' := by
  refine ⟨_, ?_, h.awaits.receive memory (Record.datagram records)⟩
  show Config.receiveDatagram crypto memory messageMemory _ rinfo ⟨s, []⟩ = _
  rw [Config.receiveDatagram, Config.takesDatagram, h.isClosed, ← h.messages hrecords,
    ← RecordLayer.receive_messages crypto memory records s.recordLayer]
  rfl

theorem run_datagram (opts : Options) (crypto : Crypto) (random : Random) (memory : Nat → Memory)
    (messageMemory : Nat → MessageMemory) (rinfo : RemoteInfo) {records : List Record}
    (hrecords : ∀ r ∈ records, r.packet.epoch = 0 ∧
      AntiReplayWindow.reset.mayReceive r.packet.sequenceNumber = true) :
    ∃ s, (client opts crypto random).run
        [.datagram memory messageMemory (Record.datagram records) rinfo] =
          ⟨s, Config.deliveries messageMemory rinfo
            (records.map fun r => ⟨r.packet.type, r.packet.fragment⟩)⟩ ∧
      AwaitsServer opts crypto random .empty s := by
  have hstarted := client_started opts crypto random
  rcases client_init opts crypto random with ⟨s, hinit, _⟩
  rw [hinit] at hstarted
  rcases hstarted.step_datagram memory messageMemory rinfo hrecords with ⟨s', hstep, hawaits⟩
  refine ⟨s', ?_, hawaits⟩
  rw [Machine.run, List.foldl_cons, List.foldl_nil, hinit]
  exact hstep

/-- The record is a whole handshake message of epoch 0. -/
structure Carries (memory : MessageMemory) (r : Record) (fragment : FragmentedHandshake)
    (message : Handshake) : Prop where
  admitted : r.packet.epoch = 0 ∧
    AntiReplayWindow.reset.mayReceive r.packet.sequenceNumber = true
  type : r.packet.type = .handshake
  read : FragmentedHandshake.fromBuffer memory.fragment r.packet.fragment = .ok fragment
  whole : fragment.isFragmented = false
  parsed : Handshake.fromFragment memory.body fragment = .ok message

-- The message of a record as it waits for the loop.
def Carries.delivery (memory : MessageMemory) (rinfo : RemoteInfo) (r : Record) : Delivery :=
  ⟨memory, ⟨r.packet.type, r.packet.fragment⟩, rinfo⟩

variable {stored : IndexMap Handshake} {s : Socket} {memory : MessageMemory} {r : Record}
  {fragment : FragmentedHandshake} {message : Handshake}

theorem Carries.flight_cons (hr : Carries memory r fragment message) (s : Socket)
    (rinfo : RemoteInfo) (pending : List Delivery) :
    Config.flight ⟨s, Carries.delivery memory rinfo r :: pending⟩ .next =
      s.handshakeHandler.flightOf (.message memory fragment) := by
  unfold Config.flight Delivery.flight Carries.delivery
  simp only [List.head?_cons, Option.bind_some, hr.type, hr.read]

-- A message that is not fragmented completes what is stored, or not.
theorem AwaitsServer.flight_eq (h : AwaitsServer opts crypto random stored s)
    (hr : Carries memory r fragment message) (rinfo : RemoteInfo) (pending : List Delivery) :
    Config.flight ⟨s, Carries.delivery memory rinfo r :: pending⟩ .next =
      ({ s.handshakeHandler with
        completeMessages := stored.set fragment.messageSeq message }).completeFlight := by
  have hstored : s.handshakeHandler.completeMessages = stored :=
    (Prod.mk.inj (Prod.mk.inj h.buffers).2).2
  rw [hr.flight_cons, ClientHandshakeHandler.flightOf,
    ClientHandshakeHandler.storeMessage_complete hr.whole hr.parsed, hstored]
  simp only [ClientHandshakeHandler.flightIn]

theorem AwaitsServer.flight_iff (h : AwaitsServer opts crypto random stored s)
    (hr : Carries memory r fragment message) {rinfo : RemoteInfo} {pending : List Delivery}
    {messages : List Handshake} {lastMsg : Handshake} :
    Config.flight ⟨s, Carries.delivery memory rinfo r :: pending⟩ .next = some (messages, lastMsg) ↔
      ClientHandshakeHandler.uninterrupted (-1) (stored.set fragment.messageSeq message).keys = true ∧
      (stored.set fragment.messageSeq message).values = messages ∧
      (stored.set fragment.messageSeq message).last? = some lastMsg ∧
      lastMsg.msgType ∈ [HandshakeType.serverHelloDone, .helloVerifyRequest] := by
  have hlast : s.handshakeHandler.lastProcessedSeqNum = -1 := (Prod.mk.inj h.buffers).1
  have hexpected : s.handshakeHandler.expectedResponses =
      some [.serverHelloDone, .helloVerifyRequest] :=
    congrArg Standing.expectedResponses h.standing
  rw [h.flight_eq hr, ClientHandshakeHandler.completeFlight_eq_some]
  simp only [hlast, hexpected, Option.some.injEq, exists_eq_left']

theorem AwaitsServer.step_stores (h : AwaitsServer opts crypto random stored s)
    (hr : Carries memory r fragment message) {rinfo : RemoteInfo} {pending : List Delivery}
    (hnone : Config.flight ⟨s, Carries.delivery memory rinfo r :: pending⟩ .next = none) :
    ∃ s', step opts crypto ⟨s, Carries.delivery memory rinfo r :: pending⟩ .next = ⟨s', pending⟩ ∧
      AwaitsServer opts crypto random (stored.set fragment.messageSeq message) s' := by
  have hstored : s.handshakeHandler.completeMessages = stored :=
    (Prod.mk.inj (Prod.mk.inj h.buffers).2).2
  have hstore := @ClientHandshakeHandler.storeMessage_complete memory _ _ s.handshakeHandler hr.whole
    hr.parsed
  rw [hstored] at hstore
  rw [hr.flight_cons] at hnone
  have hends : Ends (Socket.handleMessage opts crypto memory ⟨r.packet.type, r.packet.fragment⟩ rinfo)
      s (fun _ s' => s' = { s with handshakeHandler := s.handshakeHandler.stored memory fragment })
      (fun _ _ => False) := by
    unfold Socket.handleMessage
    simp only [hr.type, hr.read]
    apply ((Socket.processIncomingMessage_stored opts h.inv.finishedCalls hnone).and
      (Socket.processIncomingMessage_ends opts memory fragment h.inv)).mono
    · exact fun _ _ h => h.1
    · rintro _ _ ⟨_, ⟨_, hthrown⟩, _⟩
      rw [hstore] at hthrown
      cases hthrown
  rcases hends.exists_ok with ⟨_, s', hok, hs'⟩
  have hstep : step opts crypto ⟨s, Carries.delivery memory rinfo r :: pending⟩ .next =
      ⟨s', pending⟩ := by
    show Config.handleNext opts crypto ⟨s, Carries.delivery memory rinfo r :: pending⟩ = _
    unfold Config.handleNext Carries.delivery
    simp only [hok]
  have hinv := step_inv opts (c := ⟨s, Carries.delivery memory rinfo r :: pending⟩) h.inv .next
  rw [hstep] at hinv
  rw [ClientHandshakeHandler.stored_of_ok hstore] at hs'
  have hbuffers : s'.buffers = (-1, [], stored.set fragment.messageSeq message) := by
    have hsame : s'.buffers = (s.buffers.1, s.buffers.2.1, stored.set fragment.messageSeq message) := by
      rw [hs']
      rfl
    rw [hsame, h.buffers]
  refine ⟨s', hstep, hinv, ?_, hbuffers, ?_, ?_⟩
  · rw [hs']
    exact h.standing
  · rw [hs']
    exact h.readEpochNr
  · rw [hs']
    exact h.clientRandom

/-! ## Two runs -/

/-- The first message alone completes a flight. -/
theorem client_flight_one (opts : Options) (crypto : Crypto) (random : Random)
    (hr : Carries memory r fragment message) (hseq : fragment.messageSeq = 0)
    (hexpected : message.msgType ∈ [HandshakeType.serverHelloDone, .helloVerifyRequest]) :
    ∃ actions s pending, (client opts crypto random).run actions = ⟨s, pending⟩ ∧
      AwaitsServer opts crypto random .empty s ∧
      Config.flight ⟨s, pending⟩ .next = some ([message], message) := by
  rcases run_datagram opts crypto random (fun _ _ => 0) (fun _ => memory) Sample.rinfo
    (List.forall_mem_singleton.mpr hr.admitted) with ⟨s, hrun, hawaits⟩
  refine ⟨_, s, [Carries.delivery memory Sample.rinfo r], hrun, hawaits,
    (hawaits.flight_iff hr).mpr ?_⟩
  rw [hseq]
  exact ⟨rfl, rfl, rfl, hexpected⟩

/-- The second of two messages does. -/
theorem client_flight_two (opts : Options) (crypto : Crypto) (random : Random) {r' : Record}
    {fragment' : FragmentedHandshake} {message' : Handshake}
    (hr : Carries memory r fragment message) (hseq : fragment.messageSeq = 0)
    (hother : message.msgType ∉ [HandshakeType.serverHelloDone, .helloVerifyRequest])
    (hr' : Carries memory r' fragment' message') (hseq' : fragment'.messageSeq = 1)
    (hexpected : message'.msgType ∈ [HandshakeType.serverHelloDone, .helloVerifyRequest]) :
    ∃ actions s pending, (client opts crypto random).run actions = ⟨s, pending⟩ ∧
      AwaitsServer opts crypto random (IndexMap.empty.set 0 message) s ∧
      Config.flight ⟨s, pending⟩ .next = some ([message, message'], message') := by
  have hrecords : ∀ q ∈ [r, r'], q.packet.epoch = 0 ∧
      AntiReplayWindow.reset.mayReceive q.packet.sequenceNumber = true := by
    intro q hq
    rcases List.mem_pair.mp hq with rfl | rfl
    · exact hr.admitted
    · exact hr'.admitted
  rcases run_datagram opts crypto random (fun _ _ => 0) (fun _ => memory) Sample.rinfo hrecords with
    ⟨s, hrun, hawaits⟩
  have hnone : Config.flight ⟨s, Carries.delivery memory Sample.rinfo r ::
      [Carries.delivery memory Sample.rinfo r']⟩ .next = none := by
    rw [Option.eq_none_iff_forall_ne_some]
    rintro ⟨messages, lastMsg⟩ hflight
    rcases (hawaits.flight_iff hr).mp hflight with ⟨_, _, hlast, hmem⟩
    rw [hseq] at hlast
    rw [← Option.some.inj hlast] at hmem
    exact hother hmem
  rcases hawaits.step_stores hr hnone with ⟨s', hstep', hawaits'⟩
  rw [hseq] at hawaits'
  have hnext := (client opts crypto random).run_concat [.datagram (fun _ _ => 0) (fun _ => memory)
    (Record.datagram [r, r']) Sample.rinfo] .next
  rw [hrun] at hnext
  refine ⟨_, s', [Carries.delivery memory Sample.rinfo r'], hnext.trans hstep', hawaits',
    (hawaits'.flight_iff hr').mpr ?_⟩
  · rw [hseq']
    exact ⟨rfl, rfl, rfl, hexpected⟩

end Waiting

/-! ## What the server sends in them -/

namespace Sample

/-- A HelloVerifyRequest with the longest cookie there is. -/
def longCookie : FragmentedHandshake :=
  ⟨.helloVerifyRequest, 258, 0, 0, [254, 253, 255] ++ List.replicate 255 0⟩

def longCookieRequest : HelloVerifyRequest := ⟨⟨some 254, some 253⟩, List.replicate 255 0⟩

def longCookieMessage : Handshake := ⟨0, .helloVerifyRequest longCookieRequest⟩

def longCookieRecord : Record where
  header := (record .handshake 0 0 longCookie.serialize).take 13
  fragment := longCookie.serialize
  header_length := by decide
  complete := by decide +kernel

theorem carries_longCookie : Carries (memory 0) longCookieRecord longCookie longCookieMessage where
  admitted := by decide
  type := by decide
  read := by decide +kernel
  whole := by decide +kernel
  parsed := by decide +kernel

/-- A ServerHello that chooses `TLS_PSK_WITH_AES_256_CBC_SHA384`. -/
def sha384Hello : FragmentedHandshake :=
  ⟨.serverHello, 38, 0, 0, [254, 253] ++ List.replicate 32 0 ++ [0, 0x00, 0xAF, 0]⟩

def sha384ServerHello : ServerHello :=
  ⟨⟨some 254, some 253⟩, ⟨some 0, List.replicate 28 0⟩, [], some 0x00AF, some 0, []⟩

def sha384HelloMessage : Handshake := ⟨0, .serverHello sha384ServerHello⟩

def sha384HelloRecord : Record where
  header := (record .handshake 0 0 sha384Hello.serialize).take 13
  fragment := sha384Hello.serialize
  header_length := by decide
  complete := by decide

theorem carries_sha384Hello :
    Carries (memory 0) sha384HelloRecord sha384Hello sha384HelloMessage where
  admitted := by decide
  type := by decide
  read := by decide
  whole := rfl
  parsed := by decide

theorem sha384_selected : CipherSuites.byId sha384ServerHello.cipherSuite =
    some CipherSuites.TLS_PSK_WITH_AES_256_CBC_SHA384 := by decide

def serverHelloDone : Handshake := ⟨1, .serverHelloDone⟩

def serverHelloDoneRecord : Record where
  header := (record .handshake 0 1 serverHelloDoneMessage.serialize).take 13
  fragment := serverHelloDoneMessage.serialize
  header_length := by decide
  complete := by decide

theorem carries_serverHelloDone :
    Carries (memory 0) serverHelloDoneRecord serverHelloDoneMessage serverHelloDone where
  admitted := by decide
  type := by decide
  read := by decide
  whole := rfl
  parsed := by decide

end Sample

/-! ## The limit in all runs -/

/-- What the client starts with and what it sends in any later step is within the limit, but for
application data: every flight of every run is. -/
def RespectsMTU (opts : Options) (crypto : Crypto) (random : Random) : Prop :=
  SendsWithinMTU [] (client opts crypto random).init.recordLayer.udpSocket ∧
  ∀ actions a, (∀ data, a ≠ .send data) →
    SendsWithinMTU ((client opts crypto random).run actions).recordLayer.udpSocket
      (step opts crypto ((client opts crypto random).run actions) a).recordLayer.udpSocket

section Limit

variable {opts : Options} {crypto : Crypto} {random : Random} (hcrypto : crypto.KeepsLengths)
  (hrandom : random.randomBytes.length = 28)

include hcrypto hrandom in
theorem respectsMTU_of_le (hciphers : (opts.ciphers.map List.length).getD 11 ≤ 466)
    (hidentity : ∀ identity psk, opts.psk.head? = some (identity, psk) → identity.length ≤ 1102) :
    RespectsMTU opts crypto random := by
  constructor
  · apply (init_sends hcrypto hrandom).withinMTU
    simp only [List.map_cons, List.map_nil, List.sum_cons, List.sum_nil]
    omega
  · intro actions a hdata
    exact step_withinMTU hcrypto hrandom hciphers hidentity (run_inv opts crypto random actions)
      (run_offersHello opts crypto random actions)
      (run_kept (ClientHandshakeHandler.keptByMessages_shortCookies opts crypto) random actions) hdata

include hcrypto in
-- The answer to a flight of the server keeps the limit as well.
theorem RespectsMTU.sum_le (h : RespectsMTU opts crypto random) {actions : List Action}
    {messages : List Handshake} {lastMsg : Handshake} {lengths : List Nat}
    (hflight : ((client opts crypto random).run actions).flight .next = some (messages, lastMsg))
    (hsends : SendsRecords ((client opts crypto random).run actions).recordLayer.udpSocket
      (((client opts crypto random).run actions).socket.handshakeHandler.toFlightState.answered opts
        crypto messages lastMsg).recordLayer.udpSocket lengths) :
    (lengths.map (13 + ·)).sum ≤ 1252 := by
  have hafter := handleNext_withinMTU hcrypto opts (run_inv opts crypto random actions)
  rw [hflight] at hafter
  rcases hsends.length_eq with ⟨datagram, hbefore, hlength⟩
  rcases hafter with ⟨alerts, hafter, _⟩
  rcases h.2 actions .next (fun _ => Action.noConfusion) with ⟨sent, hsent, hlimit⟩
  have hafter : (step opts crypto ((client opts crypto random).run actions) .next).recordLayer.udpSocket =
      _ := hafter
  rw [hafter, FlightState.behind, hbefore, List.append_assoc] at hsent
  rw [← hlength]
  apply (hlimit datagram ?_).1
  rw [← List.append_cancel_left hsent]
  exact List.mem_cons_self

include hcrypto hrandom in
theorem RespectsMTU.ciphers_le (h : RespectsMTU opts crypto random) :
    (opts.ciphers.map List.length).getD 11 ≤ 466 := by
  rcases client_flight_one opts crypto random Sample.carries_longCookie rfl
    (List.mem_cons_of_mem _ List.mem_cons_self) with ⟨actions, s, pending, hrun, hawaits, hflight⟩
  have hinv := beforeFlight_inv [Sample.longCookieMessage] Sample.longCookieMessage hawaits.inv.flight
  have hwrite : s.recordLayer.writeEpochNr = 0 := congrArg Standing.writeEpochNr hawaits.standing
  have hlast : s.handshakeHandler.lastFlight =
      [⟨0, .clientHello (ClientHandshakeHandler.clientHello opts random)⟩] :=
    congrArg Standing.lastFlight hawaits.standing
  have hcookie : Sample.longCookieRequest.cookie.length = 255 := List.length_replicate
  have hsends : SendsRecords s.recordLayer.udpSocket
      (s.handshakeHandler.toFlightState.answered opts crypto [Sample.longCookieMessage]
        Sample.longCookieMessage).recordLayer.udpSocket
      [12 + min 1240 (40 + 255 + 2 * (opts.ciphers.map List.length).getD 11)] := by
    rw [answered, ClientHandshakeHandler.afterFlight_recordLayer, ← hcookie]
    apply Ends.finalState (P := fun f' : FlightState =>
      SendsRecords s.recordLayer.udpSocket f'.recordLayer.udpSocket _)
    apply (handleHelloVerifyRequest_sends hcrypto hrandom hinv hwrite rfl hlast).mono
    · exact fun _ _ h => h
    · exact fun _ _ h => h.elim
  rw [← hrun] at hflight
  have hsum := h.sum_le hcrypto hflight (by rw [hrun]; exact hsends)
  simp only [List.map_cons, List.map_nil, List.sum_cons, List.sum_nil] at hsum
  omega

include hcrypto in
theorem RespectsMTU.identity_le (h : RespectsMTU opts crypto random) {identity psk : Bytes}
    (hhead : opts.psk.head? = some (identity, psk)) : identity.length ≤ 1102 := by
  rcases client_flight_two opts crypto random Sample.carries_sha384Hello rfl (by decide)
    Sample.carries_serverHelloDone rfl List.mem_cons_self with
    ⟨actions, s, pending, hrun, hawaits, hflight⟩
  have hinv := beforeFlight_inv [Sample.sha384HelloMessage, Sample.serverHelloDone]
    Sample.serverHelloDone hawaits.inv.flight
  have hwrite : s.recordLayer.writeEpochNr = 0 := congrArg Standing.writeEpochNr hawaits.standing
  have hnext : s.recordLayer.nextEpochNr = 1 := by
    rw [RecordLayer.nextEpochNr, hwrite, hawaits.readEpochNr]
    rfl
  have hsends : SendsRecords s.recordLayer.udpSocket
      (s.handshakeHandler.toFlightState.answered opts crypto
        [Sample.sha384HelloMessage, Sample.serverHelloDone]
        Sample.serverHelloDone).recordLayer.udpSocket [12 + min 1240 (2 + identity.length), 1,
      CipherSuites.TLS_PSK_WITH_AES_256_CBC_SHA384.sealedLength 24] := by
    rw [answered, ClientHandshakeHandler.afterFlight_recordLayer]
    apply Ends.finalState (P := fun f' : FlightState =>
      SendsRecords s.recordLayer.udpSocket f'.recordLayer.udpSocket _)
    apply (@handleServerHelloDoneFlight_sends _ _ hcrypto _ _ _ _ 0 1 _ _ _ hinv rfl hnext hwrite
      hawaits.clientRandom Sample.sha384_selected rfl rfl hhead).mono
    · exact fun _ _ h => h
    · exact fun _ _ h => h.elim
  rw [← hrun] at hflight
  have hsum := h.sum_le hcrypto hflight (by rw [hrun]; exact hsends)
  have hsealed : CipherSuites.TLS_PSK_WITH_AES_256_CBC_SHA384.sealedLength 24 = 96 := by decide
  simp only [List.map_cons, List.map_nil, List.sum_cons, List.sum_nil, hsealed] at hsum
  omega

end Limit

/-- Every flight of every run keeps the limit if and only if the options object has at most 466 cipher
suites, and its first identity at most 1102 bytes. -/
theorem respectsMTU_iff (opts : Options) {crypto : Crypto} {random : Random}
    (hcrypto : crypto.KeepsLengths) (hrandom : random.randomBytes.length = 28) :
    RespectsMTU opts crypto random ↔
      (∀ ciphers, opts.ciphers = some ciphers → ciphers.length ≤ 466) ∧
      ∀ identity psk, opts.psk.head? = some (identity, psk) → identity.length ≤ 1102 := by
  have hciphers : (∀ ciphers, opts.ciphers = some ciphers → ciphers.length ≤ 466) ↔
      (opts.ciphers.map List.length).getD 11 ≤ 466 := by
    cases opts.ciphers with
    | none => simp
    | some ciphers => simp
  rw [hciphers]
  constructor
  · exact fun h => ⟨h.ciphers_le hcrypto hrandom, fun _ _ => h.identity_le hcrypto⟩
  · exact fun h => respectsMTU_of_le hcrypto hrandom h.1 h.2

theorem respectsMTU_iff_sample : RespectsMTU Sample.opts Sample.aes Sample.random := by
  have hciphers : ∀ ciphers, Sample.opts.ciphers = some ciphers → ciphers.length ≤ 466 := by
    intro ciphers hsome
    cases hsome
  have hidentity : ∀ identity psk, Sample.opts.psk.head? = some (identity, psk) →
      identity.length ≤ 1102 := by
    intro identity psk hhead
    rw [← (Prod.mk.inj (Option.some.inj hhead)).1]
    decide
  exact (respectsMTU_iff Sample.opts Sample.aes_keepsLengths rfl).mpr ⟨hciphers, hidentity⟩

def Sample.longIdentity : Options := { psk := [(List.replicate 1300 0x61, [0x62])] }

/-- The identity fills the first record up to 1240 bytes behind two headers, and the flight has two more
records. -/
theorem respectsMTU_longIdentity :
    ¬RespectsMTU Sample.longIdentity Sample.crypto Sample.random := by
  have hbefore : ((client Sample.longIdentity Sample.crypto Sample.random).run
      [Sample.datagram Sample.serverFlight, .next]).recordLayer.udpSocket.map List.length = [87] := by
    decide +kernel
  have hafter : (step Sample.longIdentity Sample.crypto ((client Sample.longIdentity Sample.crypto
      Sample.random).run [Sample.datagram Sample.serverFlight, .next])
        .next).recordLayer.udpSocket.map List.length = [87, 1332] := by decide +kernel
  intro h
  rcases h.2 [Sample.datagram Sample.serverFlight, .next] .next (fun _ => Action.noConfusion) with
    ⟨sent, hsent, hlimit⟩
  rw [hsent, List.map_append, hbefore] at hafter
  have hlengths : sent.map List.length = [1332] := List.append_cancel_left hafter
  have hlong : 1332 ∈ sent.map List.length := by
    rw [hlengths]
    exact List.mem_cons_self
  rcases List.mem_map.mp hlong with ⟨datagram, hmem, hlength⟩
  have hle := (hlimit datagram hmem).1
  rw [hlength] at hle
  exact absurd hle (by decide)

end DtlsClient
