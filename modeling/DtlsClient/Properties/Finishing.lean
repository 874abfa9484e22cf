import DtlsClient.Properties.Authenticity
import DtlsClient.Properties.Codec
import DtlsClient.Properties.EpochKeys
import DtlsClient.Properties.FlightSteps
import DtlsClient.Properties.Packing
import DtlsClient.Properties.Records

/-!
# The server's Finished and ChangeCipherSpec

The server's last flight consists of two records of different epochs, and application data may come
before, between and after them.  A Finished message is checked with the secrets of the epoch that is
read when it is processed, so that it has to come after the ChangeCipherSpec.
-/

open Library

namespace DtlsClient

open FlightState

/-! ## Finished messages -/

-- The verify data is the whole body.
theorem Handshake.fromFragment_finished (memory : Nat → Memory) (seq : Nat) (data : Bytes) :
    fromFragment memory (Handshake.toFragment ⟨seq, .finished data⟩) = .ok ⟨seq, .finished data⟩ := by
  have hclass : HandshakeMessages (Handshake.msgType ⟨seq, .finished data⟩) ≠ none :=
    Option.some_ne_none _
  have hunbound : ∀ length ∈ (none : Option Nat), length ≤ data.length := by
    intro length hlength
    cases hlength
  have hunbound' : ∀ length ∈ (none : Option Nat), data.length ≤ length := by
    intro length hlength
    cases hlength
  exact fromFragment_wellFormed memory hclass ⟨⟨hunbound, hunbound'⟩, trivial⟩

namespace ClientHandshakeHandler

-- A Finished flight whose verify data is right is reported without an error.
theorem answered_finished (opts : Options) {crypto : Crypto} {messages : List Handshake}
    {lastMsg : Handshake} {seq : Nat} {received : Bytes} {h : ClientHandshakeHandler}
    (hfin : lastMsg.msgType = .finished)
    (hlast : messages.getLast? = some ⟨seq, .finished received⟩)
    (hverifies : Verifies crypto h.recordLayer.currentReadEpoch.connectionState
      (h.transcript messages) received) :
    (h.toFlightState.answered opts crypto messages lastMsg).finishedCalls =
      h.finishedCalls ++ [⟨none, none⟩] := by
  rcases hverifies with ⟨suite, prf, masterSecret, hsuite, hprf, hmaster, hreceived⟩
  have htranscript : (beforeFlight messages lastMsg h.toFlightState).allHandshakeData =
      h.transcript messages := by
    unfold beforeFlight transcript
    rw [if_pos hfin, List.map_map]
    rfl
  have hread : (beforeFlight messages lastMsg h.toFlightState).recordLayer = h.recordLayer := rfl
  have hends : Ends (handle opts crypto .finished messages)
      (beforeFlight messages lastMsg h.toFlightState)
      (fun _ f => f.finishedCalls = h.finishedCalls ++ [⟨none, none⟩]) (fun _ _ => False) := by
    unfold handle handleFinished computeVerifyData finishedCallback verifyData
    simp only [hlast, ends_bind, ends_get, hread, hsuite, hprf, hmaster, ends_pure, ends_modify,
      htranscript, hreceived, if_true]
    rfl
  rcases hends.exists_ok with ⟨_, f, hok, hcalls⟩
  unfold answered
  rw [hfin, hok]
  rw [afterFlight, if_pos hfin]
  exact hcalls

end ClientHandshakeHandler

namespace Socket

variable {crypto : Crypto} {s : Socket}

/-- A message that verifies the server's Finished flight reports the handshake as done. -/
theorem processIncomingMessage_verified (opts : Options) {memory : MessageMemory}
    {msg : FragmentedHandshake} (hinv : ClientInv crypto s)
    (hverified : VerifiedFinished crypto memory msg s) :
    Ends (processIncomingMessage opts crypto memory msg) s
      (fun _ s' => s'.handshakeFinished = true) (fun _ _ => False) := by
  rcases hverified.verified with
    ⟨h1, messages, lastMsg, seq, received, hstore, hflight, hlast, hverifies⟩
  have hsame : h1.toFlightState = s.handshakeHandler.toFlightState :=
    (ClientHandshakeHandler.storeMessage_ends memory msg s.handshakeHandler).of_ok hstore
  have hmsg : lastMsg = ⟨seq, .finished received⟩ := Option.some.inj
    ((ClientHandshakeHandler.completeFlight_getLast hflight).symm.trans hlast)
  have hfin : lastMsg.msgType = .finished := by rw [hmsg]; rfl
  have hcalls := @ClientHandshakeHandler.answered_finished opts crypto messages lastMsg seq received
    s.handshakeHandler hfin hlast hverifies
  rw [hinv.finishedCalls, List.nil_append, ← hsame] at hcalls
  rcases ClientHandshakeHandler.completeFlight_expected hflight with ⟨expected, hexpected, hmem⟩
  have hinv1 : Inv crypto h1.toFlightState := hsame ▸ hinv.flight
  have hreturns := @ClientHandshakeHandler.handleFlight_ends crypto opts messages lastMsg h1
    expected hinv1 hexpected hmem
  have hhandler : Ends (ClientHandshakeHandler.processIncomingMessage opts crypto memory msg)
      s.handshakeHandler (fun _ h => h.finishedCalls = [⟨none, none⟩]) (fun _ _ => False) := by
    unfold ClientHandshakeHandler.processIncomingMessage
    rw [ends_bind, ends_of_eq_ok hstore, if_pos rfl, ends_bind, ends_get, hflight]
    have hfinal := ClientHandshakeHandler.finalState_handleFlight opts crypto messages lastMsg h1
    rcases hreturns.exists_ok with ⟨_, h2, hok, _⟩
    rw [finalState, hok] at hfinal
    have hfinal : h2 = _ := hfinal
    rw [ends_of_eq_ok hok, hfinal]
    exact hcalls
  unfold processIncomingMessage callHandler
  rw [ends_bind, ends_onPart]
  apply hhandler.mono
  · intro _ h hh
    simp only [ends_bind, ends_get, ends_onPart, ends_modify]
    rw [hh]
    rfl
  · exact fun _ _ h => h

end Socket

/-! ## Datagrams as lists of records -/

namespace RecordLayer

/-- The messages that `receive` returns of these records. -/
def messages (crypto : Crypto) (rl : RecordLayer) (records : List Record) : List Message :=
  (((records.map Record.packet).filter rl.admits).filterMap (rl.decipherPacket crypto)).map
    fun p => ⟨p.type, p.fragment⟩

theorem receive_messages (crypto : Crypto) (memory : Nat → Memory) (records : List Record)
    (rl : RecordLayer) :
    (rl.receive crypto memory (Record.datagram records)).1 = rl.messages crypto records := by
  rw [receive_eq, accepted, admitted, Record.packets_datagram]
  rfl

theorem messages_append (crypto : Crypto) (rl : RecordLayer) (front back : List Record) :
    rl.messages crypto (front ++ back) = rl.messages crypto front ++ rl.messages crypto back := by
  unfold messages
  rw [List.map_append, List.filter_append, List.filterMap_append, List.map_append]

theorem messages_length (crypto : Crypto) (rl : RecordLayer) (records : List Record) :
    (rl.messages crypto records).length ≤ records.length := by
  unfold messages
  rw [List.length_map]
  calc (List.filterMap _ _).length ≤ ((records.map Record.packet).filter rl.admits).length :=
        List.length_filterMap_le ..
    _ ≤ (records.map Record.packet).length := List.length_filter_le ..
    _ = records.length := List.length_map ..

theorem messages_singleton (crypto : Crypto) {rl : RecordLayer} {r : Record} {p : DTLSCompressed}
    (hadmits : rl.admits r.packet = true) (hdecipher : rl.decipherPacket crypto r.packet = some p) :
    rl.messages crypto [r] = [⟨p.type, p.fragment⟩] := by
  unfold messages
  rw [List.map_singleton, List.filter_cons_of_pos hadmits, List.filter_nil,
    List.filterMap_cons_some hdecipher]
  rfl

-- The types of the messages are those of their records.
theorem messages_types (crypto : Crypto) (rl : RecordLayer) (records : List Record) :
    ((rl.messages crypto records).map Message.type).Sublist
      (records.map fun r => r.packet.type) := by
  induction records with
  | nil => exact List.Sublist.refl _
  | cons r records ih =>
      have hcons : rl.messages crypto (r :: records) =
          rl.messages crypto [r] ++ rl.messages crypto records :=
        messages_append crypto rl [r] records
      have hfirst : ((rl.messages crypto [r]).map Message.type).Sublist [r.packet.type] := by
        unfold messages
        by_cases hadmits : rl.admits r.packet = true
        · rw [List.map_singleton, List.filter_cons_of_pos hadmits, List.filter_nil]
          cases hdecipher : rl.decipherPacket crypto r.packet with
          | none =>
              rw [List.filterMap_cons_none hdecipher]
              exact List.nil_sublist _
          | some p =>
              rw [List.filterMap_cons_some hdecipher]
              show [p.type].Sublist [r.packet.type]
              rw [(decipherPacket_header hdecipher).1]
        · rw [List.map_singleton, List.filter_cons_of_neg hadmits]
          exact List.nil_sublist _
      rw [hcons, List.map_append]
      exact hfirst.append ih

end RecordLayer

/-- A datagram that arrives, with what the memory holds while it is processed. -/
structure Arrival where
  memory : Nat → Memory
  messageMemory : Nat → MessageMemory
  records : List Record
  rinfo : RemoteInfo

-- It is received, and the loop of `udp_onMessage` goes through its messages.
def Arrival.actions (d : Arrival) : List Action :=
  .datagram d.memory d.messageMemory (Record.datagram d.records) d.rinfo ::
    List.replicate d.records.length .next

/-- What a datagram does to a socket; a closed one does not listen any more. -/
def Socket.arrive (opts : Options) (crypto : Crypto) (s : Socket) (d : Arrival) : Socket :=
  if s.isClosed then s
  else finalState (udpOnMessage opts crypto d.memory d.messageMemory (Record.datagram d.records)
    d.rinfo) s

theorem foldl_next (opts : Options) (crypto : Crypto) (s : Socket) (n : Nat) :
    (List.replicate n Action.next).foldl (step opts crypto) ⟨s, []⟩ = ⟨s, []⟩ := by
  induction n with
  | zero => rfl
  | succ n ih => exact ih

theorem foldl_arrival (opts : Options) (crypto : Crypto) (s : Socket) (d : Arrival) :
    d.actions.foldl (step opts crypto) ⟨s, []⟩ = ⟨s.arrive opts crypto d, []⟩ := by
  unfold Arrival.actions Socket.arrive
  by_cases hclosed : s.isClosed = true
  · have hsame : step opts crypto ⟨s, []⟩
        (.datagram d.memory d.messageMemory (Record.datagram d.records) d.rinfo) = ⟨s, []⟩ := by
      show Config.receiveDatagram crypto d.memory d.messageMemory _ d.rinfo ⟨s, []⟩ = _
      rw [Config.receiveDatagram, Config.takesDatagram, hclosed]
      rfl
    rw [List.foldl_cons, hsame, foldl_next, if_pos hclosed]
  · rw [Bool.not_eq_true] at hclosed
    have hrun := udpOnMessage_eq_run opts crypto d.memory d.messageMemory
      (Record.datagram d.records) d.rinfo s hclosed
    rw [RecordLayer.receive_messages] at hrun
    have hle := RecordLayer.messages_length crypto s.recordLayer d.records
    rw [hclosed, if_neg Bool.false_ne_true,
      ← Nat.add_sub_of_le hle, List.replicate_add, ← List.cons_append, List.foldl_append, hrun,
      foldl_next]

theorem foldl_arrivals (opts : Options) (crypto : Crypto) (arrivals : List Arrival) (s : Socket) :
    (arrivals.flatMap Arrival.actions).foldl (step opts crypto) ⟨s, []⟩ =
      ⟨arrivals.foldl (Socket.arrive opts crypto) s, []⟩ := by
  induction arrivals generalizing s with
  | nil => rfl
  | cons d arrivals ih =>
      rw [List.flatMap_cons, List.foldl_append, foldl_arrival, ih, List.foldl_cons]

/-! ## Waiting for the Finished message -/

/-- In `s` the client still waits for what it has been waiting for in `start`: application data may have
arrived since, and this many times the read epoch was switched. -/
structure Waiting (crypto : Crypto) (start s : Socket) (switches : Nat) : Prop where
  inv : ClientInv crypto s
  isClosed : s.isClosed = false
  handshakeFinished : s.handshakeFinished = false
  handshakeHandler : s.handshakeHandler = start.handshakeHandler.setRecordLayer s.recordLayer
  readEpochNr : s.recordLayer.readEpochNr = start.recordLayer.readEpochNr + switches
  connState : ∀ i, s.recordLayer.connState i = start.recordLayer.connState i ∨
    s.recordLayer.connState i = (start.recordLayer.connState i).withDecipher

/-- A ChangeCipherSpec or application data. -/
def ContentType.isCalm (type : ContentType) : Bool :=
  type = .changeCipherSpec ∨ type = .applicationData

namespace Waiting

variable {crypto : Crypto} {start s : Socket} {switches : Nat}

theorem refl (hinv : ClientInv crypto s) (hopen : s.isClosed = false)
    (hunfinished : s.handshakeFinished = false) : Waiting crypto s s 0 :=
  ⟨hinv, hopen, hunfinished, rfl, rfl, fun _ => .inl rfl⟩

theorem decipher (h : Waiting crypto start s switches) (i : Nat) :
    (s.recordLayer.connState i).decipher = (start.recordLayer.connState i).decipher := by
  rcases h.connState i with hsame | hcreated
  · rw [hsame]
  · rw [hcreated, ConnectionState.decipher_withDecipher]

theorem decipherPacket (h : Waiting crypto start s switches) (p : DTLSCiphertext) :
    s.recordLayer.decipherPacket crypto p = start.recordLayer.decipherPacket crypto p :=
  RecordLayer.decipherPacket_congr (h.decipher p.epoch)

theorem receive (h : Waiting crypto start s switches) (memory : Nat → Memory) (buf : Bytes) :
    Waiting crypto start (s.setRecordLayer (s.recordLayer.receive crypto memory buf).2)
      switches where
  inv := h.inv.receive memory buf
  isClosed := h.isClosed
  handshakeFinished := h.handshakeFinished
  handshakeHandler := by
    show s.handshakeHandler.setRecordLayer (s.recordLayer.receive crypto memory buf).2 = _
    rw [h.handshakeHandler]
    rfl
  readEpochNr := (RecordLayer.receive_readEpochNr ..).trans h.readEpochNr
  connState := by
    intro i
    have hreceived : (s.setRecordLayer (s.recordLayer.receive crypto memory
        buf).2).recordLayer.connState i = if ∃ p ∈ s.recordLayer.admitted memory buf, p.epoch = i then
          (s.recordLayer.connState i).withDecipher else s.recordLayer.connState i :=
      RecordLayer.connState_receive crypto memory buf s.recordLayer i
    rw [hreceived]
    split
    · right
      rcases h.connState i with hsame | hcreated
      · rw [hsame]
      · rw [hcreated, ConnectionState.withDecipher_withDecipher]
    · exact h.connState i

theorem switch (h : Waiting crypto start s switches) :
    Waiting crypto start (s.setRecordLayer s.recordLayer.advanceReadEpoch) (switches + 1) where
  inv := h.inv.advanceReadEpoch
  isClosed := h.isClosed
  handshakeFinished := h.handshakeFinished
  handshakeHandler := by
    show s.handshakeHandler.setRecordLayer s.recordLayer.advanceReadEpoch = _
    rw [h.handshakeHandler]
    rfl
  readEpochNr := by
    show s.recordLayer.readEpochNr + 1 = _
    rw [h.readEpochNr, Nat.add_assoc]
  connState := by
    intro i
    have hswitched : (s.setRecordLayer s.recordLayer.advanceReadEpoch).recordLayer.connState i =
        s.recordLayer.connState i := RecordLayer.connState_advanceReadEpoch s.recordLayer i
    rw [hswitched]
    exact h.connState i

theorem deliver (h : Waiting crypto start s switches) (msg : Message) (rinfo : RemoteInfo) :
    Waiting crypto start (s.deliver msg rinfo) switches := by
  have hinv := Socket.deliver_inv msg rinfo h.inv
  have hstored : s.deliver msg rinfo =
      { s with bufferedMessages := s.bufferedMessages ++ [(msg, rinfo)] } := by
    rw [Socket.deliver, h.handshakeFinished, if_neg Bool.false_ne_true]
  rw [hstored] at hinv ⊢
  exact ⟨hinv, h.isClosed, h.handshakeFinished, h.handshakeHandler, h.readEpochNr, h.connState⟩

-- Application data is stored, and a ChangeCipherSpec switches the read epoch.
theorem handleMessage (opts : Options) {msg : Message} (h : Waiting crypto start s switches)
    (hcalm : msg.type.isCalm = true) (memory : MessageMemory) (rinfo : RemoteInfo) :
    Ends (Socket.handleMessage opts crypto memory msg rinfo) s
      (fun _ s' => Waiting crypto start s'
        (switches + if RecordLayer.isChangeCipherSpec msg then 1 else 0)) (fun _ _ => False) := by
  unfold ContentType.isCalm at hcalm
  unfold RecordLayer.isChangeCipherSpec Socket.handleMessage
  rcases of_decide_eq_true hcalm with hmsg | hmsg
  · rw [hmsg]
    exact h.switch
  · rw [hmsg]
    exact h.deliver msg rinfo

theorem handleMessages (opts : Options) {messages : List (MessageMemory × Message)}
    (h : Waiting crypto start s switches) (hcalm : ∀ m ∈ messages, m.2.type.isCalm = true)
    (rinfo : RemoteInfo) :
    Ends (Socket.handleMessages opts crypto rinfo messages) s
      (fun _ s' => Waiting crypto start s'
        (switches + (messages.map Prod.snd).countP RecordLayer.isChangeCipherSpec))
      (fun _ _ => False) := by
  induction messages generalizing s switches with
  | nil => exact h
  | cons m messages ih =>
      rw [List.forall_mem_cons] at hcalm
      rw [Socket.handleMessages, ends_bind]
      apply (h.handleMessage opts hcalm.1 m.1 rinfo).mono
      · intro _ s1 h1
        have hrest := ih h1 hcalm.2
        rw [List.map_cons, List.countP_cons, Nat.add_comm (List.countP _ _), ← Nat.add_assoc]
        exact hrest
      · exact fun _ _ h => h

end Waiting

namespace Socket

variable {crypto : Crypto} {s : Socket}

-- Afterwards such messages do not change whether the handshake is done.
theorem handleMessages_handshakeFinished (opts : Options) (crypto : Crypto) (rinfo : RemoteInfo)
    {messages : List (MessageMemory × Message)} (hcalm : ∀ m ∈ messages, m.2.type.isCalm = true)
    (s : Socket) :
    Ends (handleMessages opts crypto rinfo messages) s
      (fun _ s' => s'.handshakeFinished = s.handshakeFinished)
      (fun _ s' => s'.handshakeFinished = s.handshakeFinished) := by
  induction messages generalizing s with
  | nil => rfl
  | cons m messages ih =>
      rw [List.forall_mem_cons] at hcalm
      have hfirst : Ends (handleMessage opts crypto m.1 m.2 rinfo) s
          (fun _ s' => s'.handshakeFinished = s.handshakeFinished) (fun _ _ => False) := by
        unfold handleMessage
        rcases of_decide_eq_true hcalm.1 with hmsg | hmsg
        · rw [hmsg]
          rfl
        · rw [hmsg]
          exact (deliver_handler m.2 rinfo s).2
      rw [handleMessages, ends_bind]
      apply hfirst.mono
      · intro _ s1 h1
        apply (ih hcalm.2 s1).mono
        · exact fun _ _ h2 => h2.trans h1
        · exact fun _ _ h2 => h2.trans h1
      · exact fun _ _ h => h.elim

theorem handleMessages_append (opts : Options) (crypto : Crypto) (rinfo : RemoteInfo)
    (front back : List (MessageMemory × Message)) :
    handleMessages opts crypto rinfo (front ++ back) = (do
      handleMessages opts crypto rinfo front
      handleMessages opts crypto rinfo back) := by
  induction front with
  | nil => rfl
  | cons m front ih =>
      rw [List.cons_append, handleMessages, handleMessages, ih, bind_assoc]

end Socket

/-! ## Epoch 0 -/

-- Without a decipher of its own a state is read with its suite.
theorem ConnectionState.readInTheClear {c : ConnectionState} {suite : CipherSuite}
    (hsuite : c.cipherSuite = some suite) (hnull : suite.cipherType = .null)
    (hcached : ∀ d, c.cachedDecipher = some d → d.suite.cipherType = .null) :
    c.ReadInTheClear := by
  cases hd : c.cachedDecipher with
  | some d =>
      refine ⟨d, ?_, hcached d hd⟩
      rw [decipher, hd]
      rfl
  | none =>
      refine ⟨⟨suite, c.keyMaterial, c.entity⟩, ?_, hnull⟩
      rw [decipher, hd, specify, hsuite]
      rfl

/-- The decipher of epoch 0 is that of the NULL suite, in every state of every run. -/
theorem run_readsEpoch0InTheClear (opts : Options) (crypto : Crypto) (random : Random)
    (actions : List Action) :
    (((client opts crypto random).run actions).recordLayer.connState 0).ReadInTheClear := by
  have hclear : ∀ c : Config, ClientInv crypto c.socket →
      (∀ d, (c.recordLayer.connState 0).cachedDecipher = some d → d.suite.cipherType = .null) →
      (c.recordLayer.connState 0).ReadInTheClear := fun c hinv =>
    ConnectionState.readInTheClear ((hinv.epochs.epoch 0).clear rfl) rfl
  have hboth := (client opts crypto random).invariant
    (P := fun c => ClientInv crypto c.socket ∧ (c.recordLayer.connState 0).ReadInTheClear) ?_ ?_
    actions
  · exact hboth.2
  · rcases client_init opts crypto random with ⟨s, hinit, hinv, _, hcached, _⟩
    rw [hinit]
    refine ⟨hinv, hclear ⟨s, []⟩ hinv fun d hd => ?_⟩
    have hd : (s.recordLayer.connState 0).cachedDecipher = some d := hd
    rw [hcached 0] at hd
    cases hd
  · intro c a hpre
    rcases hpre with ⟨hinv, hbefore⟩
    have hinv' := step_inv opts hinv a
    refine ⟨hinv', ?_⟩
    rcases step_cachedDecipher opts (t := (c, a)) hinv 0 with ⟨_, hcreated⟩ | ⟨_, hsame⟩
    · rcases hbefore with ⟨d, hd, hdnull⟩
      refine ⟨d, ?_, hdnull⟩
      show ((step opts crypto c a).recordLayer.connState 0).decipher = some d
      rw [hcreated, ConnectionState.decipher_withDecipher]
      exact hd
    · apply hclear _ hinv'
      intro d hd
      have hd : (c.recordLayer.connState 0).cachedDecipher = some d := hsame.symm.trans hd
      rcases hbefore with ⟨d', hd', hdnull⟩
      unfold ConnectionState.decipher at hd'
      rw [hd] at hd'
      have heq : d = d' := Option.some.inj hd'
      rw [heq]
      exact hdnull

/-! ## The Finished message arrives -/

/-- Stored with what is there already, the Finished message completes a flight, and the verify data that
this flight ends with is the server's under the keys of epoch 1. -/
def Concludes (crypto : Crypto) (s : Socket) (finished : Handshake) : Prop :=
  ∃ messages lastMsg seq received,
    ClientHandshakeHandler.completeFlight { s.handshakeHandler with
      completeMessages := s.handshakeHandler.completeMessages.set finished.messageSeq finished } =
        some (messages, lastMsg) ∧
    messages.getLast? = some ⟨seq, .finished received⟩ ∧
    Verifies crypto (s.recordLayer.connState 1) (s.handshakeHandler.transcript messages) received

/-- The server's Finished message: its verify data is right, and no other message waits to be handled. -/
structure IsServerFinished (crypto : Crypto) (s : Socket) (finished : Handshake) : Prop where
  body : ∃ verifyData, finished.body = .finished verifyData ∧
    Verifies crypto (s.recordLayer.connState 1) s.handshakeHandler.allHandshakeData verifyData
  messageSeq : (finished.messageSeq : Int) = s.handshakeHandler.lastProcessedSeqNum + 1
  completeMessages : s.handshakeHandler.completeMessages = .empty

theorem IsServerFinished.concludes {crypto : Crypto} {s : Socket} {finished : Handshake}
    (h : IsServerFinished crypto s finished)
    (hexpected : s.handshakeHandler.expectedResponses = some [.finished]) :
    Concludes crypto s finished := by
  rcases h.body with ⟨verifyData, hbody, hverifies⟩
  have hmsg : finished = ⟨finished.messageSeq, .finished verifyData⟩ := by rw [← hbody]
  have htype : finished.msgType ∈ [HandshakeType.finished] := by
    rw [hmsg]
    exact List.mem_singleton.mpr rfl
  have huninterrupted : ClientHandshakeHandler.uninterrupted
      s.handshakeHandler.lastProcessedSeqNum [finished.messageSeq] = true :=
    (ClientHandshakeHandler.uninterrupted_iff h.messageSeq.symm).mpr ⟨1, rfl⟩
  refine ⟨[finished], finished, finished.messageSeq, verifyData, ?_, ?_, ?_⟩
  · rw [h.completeMessages]
    exact ClientHandshakeHandler.completeFlight_eq_some.mpr
      ⟨huninterrupted, rfl, rfl, _, hexpected, htype⟩
  · rw [← hmsg]
    rfl
  · have htranscript : s.handshakeHandler.transcript [finished] =
        s.handshakeHandler.allHandshakeData := List.append_nil _
    rw [htranscript]
    exact hverifies

-- The NULL suite has no PRF to compute verify data with.
theorem not_verifies_clear {crypto : Crypto} {c : ConnectionState} {transcript : List Bytes}
    {received : Bytes} (hclear : c.cipherSuite = some CipherSuites.TLS_NULL_WITH_NULL_NULL) :
    ¬Verifies crypto c transcript received := by
  intro hverifies
  rcases hverifies with ⟨suite, prf, _, hsuite, hprf, _⟩
  rw [hclear] at hsuite
  rw [← Option.some.inj hsuite] at hprf
  cases hprf

namespace Waiting

variable {crypto : Crypto} {start s : Socket} {switches : Nat}

theorem secrets (h : Waiting crypto start s switches) (i : Nat) :
    (s.recordLayer.connState i).cipherSuite = (start.recordLayer.connState i).cipherSuite ∧
      (s.recordLayer.connState i).masterSecret = (start.recordLayer.connState i).masterSecret := by
  rcases h.connState i with hsame | hcreated
  · rw [hsame]
    exact ⟨rfl, rfl⟩
  · rw [hcreated]
    exact ⟨rfl, rfl⟩

theorem verifies_iff (h : Waiting crypto start s switches)
    (hread : start.recordLayer.readEpochNr = 0) (hswitches : switches ≤ 1)
    {transcript : List Bytes} {received : Bytes} :
    Verifies crypto s.recordLayer.currentReadEpoch.connectionState transcript received ↔
      switches = 1 ∧ Verifies crypto (start.recordLayer.connState 1) transcript received := by
  have hepoch := h.readEpochNr
  rw [hread, Nat.zero_add] at hepoch
  show Verifies crypto (s.recordLayer.connState s.recordLayer.readEpochNr) _ _ ↔ _
  rw [hepoch]
  by_cases hone : switches = 1
  · have hsame : Verifies crypto (s.recordLayer.connState 1) transcript received ↔
        Verifies crypto (start.recordLayer.connState 1) transcript received := by
      unfold Verifies
      rw [(h.secrets 1).1, (h.secrets 1).2]
    rw [hone, hsame]
    exact ⟨fun hv => ⟨rfl, hv⟩, fun hv => hv.2⟩
  · have hzero : switches = 0 := by omega
    rw [hzero]
    constructor
    · exact fun hv => absurd hv (not_verifies_clear ((h.inv.epochs.epoch 0).clear rfl))
    · exact fun hv => absurd hv.1 (by decide)

theorem verifiedFinished_iff {finished : Handshake} {seq : Nat} {data : Bytes}
    (h : Waiting crypto start s switches) (hread : start.recordLayer.readEpochNr = 0)
    (hswitches : switches ≤ 1)
    (hexpected : start.handshakeHandler.expectedResponses = some [.finished])
    (hfinished : finished = ⟨seq, .finished data⟩) (memory : MessageMemory) :
    VerifiedFinished crypto memory finished.toFragment s ↔
      switches = 1 ∧ Concludes crypto start finished := by
  have hawaits := h.inv.flight.awaits
  have hexpected' : s.handshakeHandler.expectedResponses = some [.finished] := by
    rw [h.handshakeHandler]
    exact hexpected
  rw [hexpected'] at hawaits
  have hstore : ClientHandshakeHandler.storeMessage memory finished.toFragment s.handshakeHandler =
      .ok true { s.handshakeHandler with
        completeMessages :=
          s.handshakeHandler.completeMessages.set finished.messageSeq finished } := by
    rw [hfinished]
    exact ClientHandshakeHandler.storeMessage_complete
      (by simp [FragmentedHandshake.isFragmented, Handshake.toFragment])
      (Handshake.fromFragment_finished _ _ _)
  -- what was stored, and the transcript, are those of the start
  have hflight : ClientHandshakeHandler.completeFlight { s.handshakeHandler with
      completeMessages := s.handshakeHandler.completeMessages.set finished.messageSeq finished } =
      ClientHandshakeHandler.completeFlight { start.handshakeHandler with
        completeMessages :=
          start.handshakeHandler.completeMessages.set finished.messageSeq finished } := by
    rw [h.handshakeHandler]
    rfl
  have htranscript : s.handshakeHandler.transcript = start.handshakeHandler.transcript := by
    rw [h.handshakeHandler]
    rfl
  constructor
  · intro hverified
    rcases hverified.verified with
      ⟨h1, messages, lastMsg, seq, received, hstored, hcomplete, hlast, hverifies⟩
    rw [hstore] at hstored
    have hstored : _ = h1 := (EStateM.Result.ok.inj hstored).2
    rw [← hstored, hflight] at hcomplete
    rw [h.verifies_iff hread hswitches, htranscript] at hverifies
    exact ⟨hverifies.1, messages, lastMsg, seq, received, hcomplete, hlast, hverifies.2⟩
  · intro hconcludes
    rcases hconcludes with
      ⟨hone, messages, lastMsg, seq, received, hcomplete, hlast, hverifies⟩
    cases hawaits with
    | finished hwrite hsent =>
        refine ⟨hwrite, hsent, _, messages, lastMsg, seq, received, hstore, ?_, hlast, ?_⟩
        · rw [hflight]
          exact hcomplete
        · rw [h.verifies_iff hread hswitches, htranscript]
          exact ⟨hone, hverifies⟩

/-- The Finished message ends the handshake if and only if the read epoch was switched before. -/
theorem finished_iff (opts : Options) {finished : Handshake} {seq : Nat} {data : Bytes}
    (h : Waiting crypto start s switches) (hread : start.recordLayer.readEpochNr = 0)
    (hswitches : switches ≤ 1)
    (hexpected : start.handshakeHandler.expectedResponses = some [.finished])
    (hfinished : finished = ⟨seq, .finished data⟩) (memory : MessageMemory) :
    (finalState (Socket.processIncomingMessage opts crypto memory finished.toFragment)
      s).handshakeFinished = true ↔ switches = 1 ∧ Concludes crypto start finished := by
  rw [← h.verifiedFinished_iff hread hswitches hexpected hfinished memory]
  constructor
  · intro hdone
    have hends := Socket.processIncomingMessage_ends opts memory finished.toFragment h.inv
    rw [finalState] at hdone
    have hmoves : ∀ s', Moves crypto s s' → s'.handshakeFinished = true → False := by
      intro s' hmove hdone
      rw [hmove.handshakeFinished, h.handshakeFinished] at hdone
      cases hdone
    cases hres : Socket.processIncomingMessage opts crypto memory finished.toFragment s with
    | ok _ s' =>
        rw [hres] at hdone
        rcases hends.of_ok hres with hmove | hfinishes
        · exact (hmoves s' hmove hdone).elim
        · exact hfinishes.verified
    | error e s' =>
        rw [hres] at hdone
        exact (hmoves s' (hends.of_error hres).2 hdone).elim
  · intro hverified
    rcases (Socket.processIncomingMessage_verified opts h.inv hverified).exists_ok with
      ⟨_, s', hok, hdone⟩
    rw [finalState, hok]
    exact hdone

end Waiting

/-! ## Datagrams arrive -/

-- The messages of a datagram with the memory that each of them finds.
def Arrival.load (d : Arrival) (messages : List Message) : List (MessageMemory × Message) :=
  messages.zipIdx.map fun (msg, i) => (d.messageMemory i, msg)

theorem Arrival.map_load (d : Arrival) (messages : List Message) :
    (d.load messages).map Prod.snd = messages := by
  unfold load
  rw [List.map_map]
  exact List.zipIdx_map_fst 0 messages

theorem calm_loaded {loaded : List (MessageMemory × Message)} {messages : List Message}
    (hloaded : loaded.map Prod.snd = messages) (hcalm : ∀ m ∈ messages, m.type.isCalm = true) :
    ∀ m ∈ loaded, m.2.type.isCalm = true := by
  intro m hm
  apply hcalm
  rw [← hloaded]
  exact List.mem_map_of_mem hm

theorem Arrival.load_split (d : Arrival) (front back : List Message) (msg : Message) :
    ∃ before memory after, d.load (front ++ msg :: back) = before ++ (memory, msg) :: after ∧
      before.map Prod.snd = front ∧ after.map Prod.snd = back := by
  rcases List.map_eq_append_iff.mp (d.map_load (front ++ msg :: back)) with
    ⟨before, rest, hload, hbefore, hrest⟩
  rcases List.map_eq_cons_iff.mp hrest with ⟨⟨memory, msg'⟩, after, rfl, hmsg, hafter⟩
  have hmsg : msg' = msg := hmsg
  rw [hmsg] at hload
  exact ⟨before, memory, after, hload, hbefore, hafter⟩

namespace RecordLayer

variable {crypto : Crypto} {rl : RecordLayer} {records : List Record}

theorem calm_messages (hcalm : ∀ r ∈ records, r.packet.type.isCalm = true) :
    ∀ m ∈ rl.messages crypto records, m.type.isCalm = true := by
  intro m hm
  have htype : m.type ∈ records.map fun r => r.packet.type :=
    (messages_types crypto rl records).subset (List.mem_map_of_mem hm)
  rcases List.mem_map.mp htype with ⟨r, hr, hsame⟩
  rw [← hsame]
  exact hcalm r hr

theorem countP_messages_le :
    (rl.messages crypto records).countP isChangeCipherSpec ≤
      records.countP fun r => r.packet.type = .changeCipherSpec := by
  have hle := (messages_types crypto rl records).countP_le (p := fun type =>
    decide (type = ContentType.changeCipherSpec))
  rw [List.countP_map, List.countP_map] at hle
  exact hle

-- The only ChangeCipherSpec is among the messages if and only if it is admitted.
theorem countP_messages_pos_iff {ccs : Record} {p : DTLSCompressed}
    (htype : ccs.packet.type = .changeCipherSpec)
    (hdecipher : rl.decipherPacket crypto ccs.packet = some p)
    (honly : ∀ r ∈ records, r.packet.type = .changeCipherSpec → r = ccs) :
    0 < (rl.messages crypto records).countP isChangeCipherSpec ↔
      ccs ∈ records ∧ rl.admits ccs.packet = true := by
  constructor
  · intro hpos
    rcases List.countP_pos_iff.mp hpos with ⟨m, hm, hccs⟩
    rcases List.mem_map.mp hm with ⟨q, hq, rfl⟩
    rcases List.mem_filterMap.mp hq with ⟨packet, hpacket, hdeciphered⟩
    rcases List.mem_filter.mp hpacket with ⟨hin, hadmits⟩
    rcases List.mem_map.mp hin with ⟨r, hr, rfl⟩
    have hsame : r.packet.type = .changeCipherSpec := by
      rw [← (decipherPacket_header hdeciphered).1]
      exact of_decide_eq_true hccs
    rw [← honly r hr hsame]
    exact ⟨hr, hadmits⟩
  · intro h
    rcases List.append_of_mem h.1 with ⟨front, back, rfl⟩
    have hsplit : rl.messages crypto (front ++ ccs :: back) =
        rl.messages crypto front ++ (rl.messages crypto [ccs] ++ rl.messages crypto back) := by
      rw [← List.singleton_append, messages_append, messages_append]
    rw [hsplit, messages_singleton crypto h.2 hdecipher, List.countP_pos_iff]
    refine ⟨⟨p.type, p.fragment⟩, by simp, ?_⟩
    show decide (p.type = .changeCipherSpec) = true
    rw [(decipherPacket_header hdecipher).1, htype]
    rfl

end RecordLayer

namespace Socket

variable {crypto : Crypto}

theorem arrive_eq (opts : Options) {s : Socket} (hopen : s.isClosed = false) (d : Arrival) :
    s.arrive opts crypto d = finalState
      (handleMessages opts crypto d.rinfo (d.load (s.recordLayer.messages crypto d.records)))
      (s.setRecordLayer
        (s.recordLayer.receive crypto d.memory (Record.datagram d.records)).2) := by
  rw [arrive, hopen, if_neg Bool.false_ne_true, ← RecordLayer.receive_messages crypto d.memory]
  rfl

-- Without a handshake message a datagram does not end the handshake.
theorem arrive_handshakeFinished (opts : Options) (s : Socket) {d : Arrival}
    (hcalm : ∀ m ∈ s.recordLayer.messages crypto d.records, m.type.isCalm = true) :
    (s.arrive opts crypto d).handshakeFinished = s.handshakeFinished := by
  by_cases hclosed : s.isClosed = true
  · rw [arrive, if_pos hclosed]
  · rw [Bool.not_eq_true] at hclosed
    rw [arrive_eq opts hclosed]
    exact Ends.finalState (P := fun s' : Socket => s'.handshakeFinished = s.handshakeFinished)
      (handleMessages_handshakeFinished opts crypto d.rinfo
        (calm_loaded (d.map_load _) hcalm) _)

theorem arrivals_handshakeFinished (opts : Options) {arrivals : List Arrival}
    (hcalm : ∀ d ∈ arrivals, ∀ r ∈ d.records, r.packet.type.isCalm = true) (s : Socket) :
    (arrivals.foldl (arrive opts crypto) s).handshakeFinished = s.handshakeFinished := by
  induction arrivals generalizing s with
  | nil => rfl
  | cons d arrivals ih =>
      rw [List.forall_mem_cons] at hcalm
      rw [List.foldl_cons, ih hcalm.2,
        arrive_handshakeFinished opts s (RecordLayer.calm_messages hcalm.1)]

end Socket

namespace Waiting

variable {crypto : Crypto} {start s : Socket} {switches : Nat}

theorem arrive (h : Waiting crypto start s switches) (opts : Options) {d : Arrival}
    (hcalm : ∀ r ∈ d.records, r.packet.type.isCalm = true) :
    Waiting crypto start (s.arrive opts crypto d)
      (switches + (s.recordLayer.messages crypto d.records).countP
        RecordLayer.isChangeCipherSpec) := by
  have hhandled := (h.receive d.memory (Record.datagram d.records)).handleMessages opts
    (calm_loaded (d.map_load (s.recordLayer.messages crypto d.records))
      (RecordLayer.calm_messages hcalm)) d.rinfo
  rw [Arrival.map_load] at hhandled
  rcases hhandled.exists_ok with ⟨_, s', hok, hwaiting⟩
  rw [Socket.arrive_eq opts h.isClosed, finalState, hok]
  exact hwaiting

/-- Over a row of datagrams the read epoch is switched at most once for each ChangeCipherSpec, and at
least once if and only if the only one there is comes and is admitted. -/
theorem arrivals (opts : Options) {arrivals : List Arrival} {ccs : Record} {p : DTLSCompressed}
    (htype : ccs.packet.type = .changeCipherSpec)
    (hdecipher : start.recordLayer.decipherPacket crypto ccs.packet = some p)
    (hcalm : ∀ d ∈ arrivals, ∀ r ∈ d.records, r.packet.type.isCalm = true)
    (honly : ∀ d ∈ arrivals, ∀ r ∈ d.records, r.packet.type = .changeCipherSpec → r = ccs)
    (h : Waiting crypto start s switches) :
    ∃ more, Waiting crypto start (arrivals.foldl (Socket.arrive opts crypto) s) (switches + more) ∧
      more ≤ ((arrivals.flatMap Arrival.records).countP fun r =>
        r.packet.type = .changeCipherSpec) ∧
      (0 < more ↔ ∃ before d after, arrivals = before ++ d :: after ∧ ccs ∈ d.records ∧
        (before.foldl (Socket.arrive opts crypto) s).recordLayer.admits ccs.packet = true) := by
  induction arrivals generalizing s switches with
  | nil =>
      refine ⟨0, h, Nat.zero_le _, fun hpos => absurd hpos (Nat.lt_irrefl 0), fun hadmitted => ?_⟩
      rcases hadmitted with ⟨before, d, after, hsplit, _⟩
      cases (List.append_eq_nil_iff.mp hsplit.symm).2
  | cons d arrivals ih =>
      rw [List.forall_mem_cons] at hcalm honly
      rcases ih hcalm.2 honly.2 (h.arrive opts hcalm.1) with ⟨more, hwaiting, hle, hpos⟩
      rw [Nat.add_assoc] at hwaiting
      have hhere := @RecordLayer.countP_messages_le crypto s.recordLayer d.records
      have hfirst := RecordLayer.countP_messages_pos_iff htype
        ((h.decipherPacket ccs.packet).trans hdecipher) honly.1
      refine ⟨_, hwaiting, ?_, fun hsome => ?_, fun hadmitted => ?_⟩
      · rw [List.flatMap_cons, List.countP_append]
        omega
      · -- in the first datagram or behind it
        rcases Nat.add_pos_iff_pos_or_pos.mp hsome with hsome | hsome
        · exact ⟨[], d, arrivals, rfl, (hfirst.mp hsome).1, (hfirst.mp hsome).2⟩
        · rcases hpos.mp hsome with ⟨before, d', after, hsplit, hmem, hadmits⟩
          exact ⟨d :: before, d', after, by rw [hsplit, List.cons_append], hmem, hadmits⟩
      · rcases hadmitted with ⟨before, d', after, hsplit, hmem, hadmits⟩
        cases before with
        | nil =>
            rw [← (List.cons.inj hsplit).1] at hmem
            have hsome := hfirst.mpr ⟨hmem, hadmits⟩
            omega
        | cons d0 before =>
            rcases List.cons.inj hsplit with ⟨rfl, hrest⟩
            have hsome := hpos.mpr ⟨before, d', after, hrest, hmem, hadmits⟩
            omega

/-- The datagram with the Finished message. -/
theorem arrive_finished (opts : Options) {d : Arrival} {front back : List Record} {fin : Record}
    {p : DTLSCompressed} {finished : Handshake} {seq : Nat} {data : Bytes}
    (h : Waiting crypto start s switches) (hread : start.recordLayer.readEpochNr = 0)
    (hexpected : start.handshakeHandler.expectedResponses = some [.finished])
    (hrecords : d.records = front ++ fin :: back)
    (hfront : ∀ r ∈ front, r.packet.type.isCalm = true)
    (hback : ∀ r ∈ back, r.packet.type.isCalm = true)
    (hadmits : s.recordLayer.admits fin.packet = true)
    (hdecipher : start.recordLayer.decipherPacket crypto fin.packet = some p)
    (htype : p.type = .handshake) (hcontent : p.fragment = finished.toFragment.serialize)
    (hfinished : finished = ⟨seq, .finished data⟩) (hfits : finished.toFragment.Fits)
    (hswitches : switches + (s.recordLayer.messages crypto front).countP
      RecordLayer.isChangeCipherSpec ≤ 1) :
    (s.arrive opts crypto d).handshakeFinished = true ↔
      switches + (s.recordLayer.messages crypto front).countP RecordLayer.isChangeCipherSpec = 1 ∧
        Concludes crypto start finished := by
  have hmessages : s.recordLayer.messages crypto d.records =
      s.recordLayer.messages crypto front ++
        ⟨p.type, p.fragment⟩ :: s.recordLayer.messages crypto back := by
    have hfin := RecordLayer.messages_singleton crypto hadmits
      ((h.decipherPacket fin.packet).trans hdecipher)
    rw [hrecords, ← List.singleton_append, RecordLayer.messages_append,
      RecordLayer.messages_append, hfin, List.singleton_append]
  -- the loop handles what is in front of the Finished message, the message, and what is behind it
  rcases d.load_split (s.recordLayer.messages crypto front)
    (s.recordLayer.messages crypto back) ⟨p.type, p.fragment⟩ with
    ⟨before, memory, after, hloaded, hbefore, hafter⟩
  have hcalmBefore := calm_loaded hbefore (RecordLayer.calm_messages hfront)
  have hcalmAfter := calm_loaded hafter (RecordLayer.calm_messages hback)
  have hhandled := (h.receive d.memory (Record.datagram d.records)).handleMessages opts hcalmBefore
    d.rinfo
  rw [hbefore] at hhandled
  rcases hhandled.exists_ok with ⟨_, s1, hok, h1⟩
  have hiff := h1.finished_iff opts hread hswitches hexpected hfinished memory
  rw [← hiff, Socket.arrive_eq opts h.isClosed, hmessages, hloaded, Socket.handleMessages_append,
    finalState_bind, hok]
  show (finalState (Socket.handleMessage opts crypto memory ⟨p.type, p.fragment⟩ d.rinfo >>=
    fun _ => Socket.handleMessages opts crypto d.rinfo after) s1).handshakeFinished = true ↔ _
  rw [htype, hcontent, Socket.handleMessage_serialize opts crypto memory hfits, finalState_bind,
    finalState]
  cases hres : Socket.processIncomingMessage opts crypto memory finished.toFragment s1 with
  | error e s2 => rfl
  | ok _ s2 =>
      have hsame := Ends.finalState (P := fun s' : Socket =>
        s'.handshakeFinished = s2.handshakeFinished)
        (Socket.handleMessages_handshakeFinished opts crypto d.rinfo hcalmAfter s2)
      simp only
      rw [hsame]

end Waiting

theorem run_arrivals (opts : Options) (crypto : Crypto) (random : Random) {actions : List Action}
    (hidle : ((client opts crypto random).run actions).pending = []) (arrivals : List Arrival) :
    (client opts crypto random).run (actions ++ arrivals.flatMap Arrival.actions) =
      ⟨arrivals.foldl (Socket.arrive opts crypto) ((client opts crypto random).run actions).socket,
        []⟩ := by
  have hstart : (client opts crypto random).run actions =
      ⟨((client opts crypto random).run actions).socket, []⟩ := by rw [← hidle]
  rw [← foldl_arrivals, ← hstart, Machine.run, List.foldl_append]
  rfl

/-! ## Both records, in either order -/

/-- The record is admitted in the state in which its datagram arrives. -/
def AdmittedOnArrival (opts : Options) (crypto : Crypto) (start : Socket) (arrivals : List Arrival)
    (r : Record) : Prop :=
  ∀ before d after, arrivals = before ++ d :: after → r ∈ d.records →
    (before.foldl (Socket.arrive opts crypto) start).recordLayer.admits r.packet = true

-- The only record with a property arrives once.
theorem admittedOnArrival_iff {opts : Options} {crypto : Crypto} {start : Socket}
    {arrivals before after : List Arrival} {d : Arrival} {r : Record} {p : Record → Bool}
    (hone : (arrivals.flatMap Arrival.records).countP p = 1) (hp : p r = true)
    (hplace : arrivals = before ++ d :: after) (hmem : r ∈ d.records) :
    AdmittedOnArrival opts crypto start arrivals r ↔
      (before.foldl (Socket.arrive opts crypto) start).recordLayer.admits r.packet = true := by
  constructor
  · intro h
    exact h before d after hplace hmem
  · intro hadmits before' d' after' hplace' hmem'
    have hpos := List.countP_pos_iff.mpr ⟨r, hmem, hp⟩
    have hpos' := List.countP_pos_iff.mpr ⟨r, hmem', hp⟩
    rcases split_unique hone hplace hplace' hpos hpos' with ⟨rfl, _⟩
    exact hadmits

/-- Where the record of the Finished message is, and what is around it. -/
structure Around (arrivals before after : List Arrival) (d : Arrival) (front back : List Record)
    (fin : Record) : Prop where
  place : arrivals = before ++ d :: after
  split : d.records = front ++ fin :: back

namespace Around

variable {arrivals before after : List Arrival} {d : Arrival} {front back : List Record}
  {fin : Record}

theorem whole (h : Around arrivals before after d front back fin) :
    arrivals.flatMap Arrival.records = (before.flatMap Arrival.records ++ front) ++
      fin :: (back ++ after.flatMap Arrival.records) := by
  rw [h.place, List.flatMap_append, List.flatMap_cons, h.split]
  simp only [List.append_assoc, List.cons_append]

theorem others (h : Around arrivals before after d front back fin) {ccs : Record}
    {data : List Record}
    (hrecords : (arrivals.flatMap Arrival.records).Perm (ccs :: fin :: data)) :
    ((before.flatMap Arrival.records ++ front) ++
      (back ++ after.flatMap Arrival.records)).Perm (ccs :: data) := by
  rw [h.whole] at hrecords
  exact (List.perm_middle.symm.trans (hrecords.trans (List.Perm.swap fin ccs data))).cons_inv

-- What comes in front of it is admitted in an earlier datagram or in its own one.
theorem admitted_iff (h : Around arrivals before after d front back fin) {opts : Options}
    {crypto : Crypto} {start : Socket} {r : Record} {p : Record → Bool}
    (hone : (arrivals.flatMap Arrival.records).countP p = 1) (hp : p r = true) :
    r ∈ before.flatMap Arrival.records ++ front ∧
        AdmittedOnArrival opts crypto start arrivals r ↔
      (∃ before' d' after', before = before' ++ d' :: after' ∧ r ∈ d'.records ∧
        (before'.foldl (Socket.arrive opts crypto) start).recordLayer.admits r.packet = true) ∨
      r ∈ front ∧
        (before.foldl (Socket.arrive opts crypto) start).recordLayer.admits r.packet = true := by
  have hinside : ∀ {before' d' after'}, before = before' ++ d' :: after' →
      arrivals = before' ++ d' :: (after' ++ d :: after) := by
    intro before' d' after' hbefore
    rw [h.place, hbefore, List.append_assoc, List.cons_append]
  have hhere : r ∈ front → r ∈ d.records := by
    intro hmem
    rw [h.split]
    exact List.mem_append_left _ hmem
  constructor
  · intro hboth
    rcases hboth with ⟨hmem, hadmitted⟩
    rcases List.mem_append.mp hmem with hmem | hmem
    · left
      rcases List.mem_flatMap.mp hmem with ⟨d', hd', hmem⟩
      rcases List.append_of_mem hd' with ⟨before', after', hbefore⟩
      exact ⟨before', d', after', hbefore, hmem, hadmitted before' d' _ (hinside hbefore) hmem⟩
    · right
      exact ⟨hmem, hadmitted before d after h.place (hhere hmem)⟩
  · intro hcases
    rcases hcases with ⟨before', d', after', hbefore, hmem, hadmits⟩ | ⟨hmem, hadmits⟩
    · have hd' : d' ∈ before := by
        rw [hbefore]
        exact List.mem_append_right _ List.mem_cons_self
      exact ⟨List.mem_append_left _ (List.mem_flatMap.mpr ⟨d', hd', hmem⟩),
        (admittedOnArrival_iff hone hp (hinside hbefore) hmem).mpr hadmits⟩
    · exact ⟨List.mem_append_right _ hmem,
        (admittedOnArrival_iff hone hp h.place (hhere hmem)).mpr hadmits⟩

end Around

/-- What the server sends to finish the handshake, and application data of the new epoch. -/
structure LastFlight (crypto : Crypto) (rl : RecordLayer) (ccs fin : Record) (data : List Record)
    (finished : Handshake) : Prop where
  changeCipherSpec : ccs.packet.type = .changeCipherSpec ∧ ccs.packet.epoch = 0
  handshake : fin.packet.type = .handshake ∧ fin.packet.epoch = 1
  /-- under the client's decipher of epoch 1 the record holds the Finished message -/
  protects : ∃ p, rl.decipherPacket crypto fin.packet = some p ∧
    p.fragment = finished.toFragment.serialize
  body : ∃ seq verifyData, finished = ⟨seq, .finished verifyData⟩
  fits : finished.toFragment.Fits
  applicationData : ∀ r ∈ data, r.packet.type = .applicationData ∧ r.packet.epoch = 1

namespace LastFlight

variable {crypto : Crypto} {rl : RecordLayer} {ccs fin : Record} {data records : List Record}
  {finished : Handshake}

theorem calm (h : LastFlight crypto rl ccs fin data finished)
    (hrecords : records.Perm (ccs :: data)) :
    ∀ r ∈ records, r.packet.type.isCalm = true := by
  intro r hr
  rcases List.mem_cons.mp (hrecords.subset hr) with rfl | hr
  · rw [h.changeCipherSpec.1]
    rfl
  · rw [(h.applicationData r hr).1]
    rfl

theorem only (h : LastFlight crypto rl ccs fin data finished) (hrecords : records.Perm (ccs :: data))
    {r : Record} (hr : r ∈ records) (htype : r.packet.type = .changeCipherSpec) : r = ccs := by
  rcases List.mem_cons.mp (hrecords.subset hr) with heq | hdata
  · exact heq
  · rw [(h.applicationData r hdata).1] at htype
    cases htype

theorem countP (h : LastFlight crypto rl ccs fin data finished)
    (hrecords : records.Perm (ccs :: fin :: data)) :
    (records.countP fun r => r.packet.type = .changeCipherSpec) = 1 ∧
      (records.countP fun r => r.packet.type = .handshake) = 1 := by
  have hdata : ∀ type, type ≠ ContentType.applicationData →
      (data.countP fun r => decide (r.packet.type = type)) = 0 := by
    intro type hne
    rw [List.countP_eq_zero]
    intro r hr
    rw [(h.applicationData r hr).1, decide_eq_true_eq]
    exact hne.symm
  constructor
  · rw [hrecords.countP_eq, List.countP_cons_of_pos (by simp [h.changeCipherSpec.1]),
      List.countP_cons_of_neg (by simp [h.handshake.1]), hdata _ (by decide)]
  · rw [hrecords.countP_eq, List.countP_cons_of_neg (by simp [h.changeCipherSpec.1]),
      List.countP_cons_of_pos (by simp [h.handshake.1]), hdata _ (by decide)]

theorem changeCipherSpec_ne (h : LastFlight crypto rl ccs fin data finished) : ccs ≠ fin := by
  intro hsame
  have htype := h.changeCipherSpec.1
  rw [hsame, h.handshake.1] at htype
  cases htype

/-- In front of the Finished message the ChangeCipherSpec switches the read epoch if it comes and is
admitted, and nothing else does. -/
theorem switches (opts : Options) {start : Socket} {arrivals before after : List Arrival}
    {d : Arrival} {front back : List Record}
    (h : LastFlight crypto start.recordLayer ccs fin data finished)
    (hwaiting : Waiting crypto start start 0)
    (hclear : (start.recordLayer.connState 0).ReadInTheClear)
    (hrecords : (arrivals.flatMap Arrival.records).Perm (ccs :: fin :: data))
    (haround : Around arrivals before after d front back fin) :
    ∃ switches, Waiting crypto start (before.foldl (Socket.arrive opts crypto) start) switches ∧
      switches + ((before.foldl (Socket.arrive opts crypto) start).recordLayer.messages crypto
        front).countP RecordLayer.isChangeCipherSpec ≤ 1 ∧
      (switches + ((before.foldl (Socket.arrive opts crypto) start).recordLayer.messages crypto
          front).countP RecordLayer.isChangeCipherSpec = 1 ↔
        ccs ∈ before.flatMap Arrival.records ++ front ∧
          AdmittedOnArrival opts crypto start arrivals ccs) := by
  have hccs : start.recordLayer.decipherPacket crypto ccs.packet = some ccs.packet := by
    apply RecordLayer.decipherPacket_clear
    rw [h.changeCipherSpec.2]
    exact hclear
  have hothers := haround.others hrecords
  have hbefore : ∀ d ∈ before, ∀ r ∈ d.records, r ∈ (before.flatMap Arrival.records ++ front) ++
      (back ++ after.flatMap Arrival.records) := fun d hd r hr =>
    List.mem_append_left _ (List.mem_append_left _ (List.mem_flatMap.mpr ⟨d, hd, hr⟩))
  have hfront : ∀ r ∈ front, r ∈ (before.flatMap Arrival.records ++ front) ++
      (back ++ after.flatMap Arrival.records) := fun r hr =>
    List.mem_append_left _ (List.mem_append_right _ hr)
  rcases Waiting.arrivals opts h.changeCipherSpec.1 hccs
    (fun d hd r hr => h.calm hothers r (hbefore d hd r hr))
    (fun d hd r hr => h.only hothers (hbefore d hd r hr)) hwaiting with
    ⟨switches, h1, hle, hpos⟩
  rw [Nat.zero_add] at h1
  have hposFront := RecordLayer.countP_messages_pos_iff h.changeCipherSpec.1
    ((h1.decipherPacket ccs.packet).trans hccs) fun r hr => h.only hothers (hfront r hr)
  have hleFront := @RecordLayer.countP_messages_le crypto
    (before.foldl (Socket.arrive opts crypto) start).recordLayer front
  have hcount := (h.countP hrecords).1
  have hle' : ((before.flatMap Arrival.records).countP fun r =>
      r.packet.type = .changeCipherSpec) +
      (front.countP fun r => r.packet.type = .changeCipherSpec) ≤ 1 := by
    rw [haround.whole, List.countP_append, List.countP_append] at hcount
    omega
  refine ⟨switches, h1, by omega, ?_⟩
  rw [haround.admitted_iff hcount (decide_eq_true h.changeCipherSpec.1), ← hpos, ← hposFront]
  omega

end LastFlight

namespace Sample

def changeCipherSpec : Record where
  header := (record .changeCipherSpec 0 2 [1]).take 13
  fragment := [1]
  header_length := by decide
  complete := by decide

def finished : Handshake := ⟨2, .finished (List.replicate 12 0)⟩

def finishedRecord : Record where
  header := (record .handshake 1 0 (sealed finished.toFragment.serialize)).take 13
  fragment := sealed finished.toFragment.serialize
  header_length := by decide
  complete := by decide

def arrival (records : List Record) : Arrival := ⟨fun _ _ => 0, fun _ => memory 0, records, rinfo⟩

theorem lastFlight : LastFlight crypto
    ((client opts crypto random).run keyExchange).recordLayer changeCipherSpec finishedRecord []
    finished where
  changeCipherSpec := by decide
  handshake := by decide
  protects := ⟨{ finishedRecord.packet with fragment := finished.toFragment.serialize },
    by decide +kernel, rfl⟩
  body := ⟨2, List.replicate 12 0, rfl⟩
  fits := ⟨by decide, by decide, by decide, by decide, by decide⟩
  applicationData := fun _ hr => absurd hr List.not_mem_nil

end Sample

end DtlsClient
