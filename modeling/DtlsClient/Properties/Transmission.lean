import DtlsClient.Properties.Writing

/-!
# What a client transmits in a run

Every datagram of a run is a flight of the handshake, an alert or application data.  The records are
numbered without a gap, the handshake messages too, and the handshake never sends a flight twice.
-/

open Library

namespace DtlsClient

namespace FlightState.Phase

/-- A way through the handshake that ends in this phase, with the flights that were sent on it. -/
inductive Reached : Phase → List (List HandshakeType) → Prop
  | start : Reached helloSent [[.clientHello]]
  | move {phase phase' : Phase} {sent more : List (List HandshakeType)} (h : Reached phase sent)
      (hedge : Edge phase more phase') : Reached phase' (sent ++ more)

/-- The flights up to the Finished flight: one ClientHello or two. -/
def hellos : List (List (List HandshakeType)) := [[[.clientHello]], [[.clientHello], [.clientHello]]]

/-- What has been sent when a phase is reached. -/
def sentIn : Phase → List (List (List HandshakeType))
  | helloSent => [[[.clientHello]]]
  | cookieSent => [[[.clientHello], [.clientHello]]]
  | finishedSent => hellos.map (· ++ [[.clientKeyExchange, .finished]])
  | ended => hellos ++ hellos.map (· ++ [[.clientKeyExchange, .finished]])

theorem Reached.mem_sentIn {phase : Phase} {sent : List (List HandshakeType)}
    (h : Reached phase sent) : sent ∈ sentIn phase := by
  induction h with
  | start => exact List.mem_singleton_self _
  | @move phase phase' sent more _ hedge ih =>
      cases hedge with
      | cookie =>
          rw [List.mem_singleton.mp ih]
          exact List.mem_singleton_self _
      | answer hphase =>
          rcases hphase with rfl | rfl
          · rw [List.mem_singleton.mp ih]
            decide
          · rw [List.mem_singleton.mp ih]
            decide
      | finish hphase =>
          rw [List.append_nil]
          have hsub : ∀ p : Phase, p ≠ ended → ∀ kinds ∈ sentIn p, kinds ∈ sentIn ended := by
            intro p
            cases p <;> decide
          exact hsub phase hphase sent ih

end FlightState.Phase

/-- What a client has sent when it is in the state `c`: the records on the wire, and what they are
about. -/
structure Transmitted (crypto : Crypto) (c : Config) (log : List (List DTLSCompressed))
    (sendings : List Sending) (accepted : List Bytes) : Prop where
  wire : RecordLayer.Wire crypto c.recordLayer log
  messages : log.map (·.map RecordLayer.asMessage) = sendings.map Sending.messages
  data : sendings.filterMap Sending.data? = accepted
  dataEpoch : ∀ p ∈ log.flatten, p.type = .applicationData → p.epoch = 1
  lastSentSeqNum : c.socket.handshakeHandler.lastSentSeqNum + 1 =
    (sendings.flatMap Sending.handshakes).length
  numbers : (sendings.flatMap Sending.handshakes).map (·.messageSeq) =
    List.range (sendings.flatMap Sending.handshakes).length
  phase : FlightState.Phase.Reached (.awaiting c.socket.handshakeHandler.expectedResponses)
    (sendings.filterMap Sending.kind?)

/-- The application data among messages. -/
def dataOf (messages : List Message) : List Bytes :=
  messages.filterMap fun m => if m.type = .applicationData then some m.data else none

theorem mem_dataOf {messages : List Message} {m : Message} (hm : m ∈ messages)
    (htype : m.type = .applicationData) : m.data ∈ dataOf messages := by
  rw [dataOf, List.mem_filterMap]
  exact ⟨m, hm, if_pos htype⟩

namespace Sending

theorem dataOf_messages (sending : Sending) : dataOf sending.messages = sending.data?.toList := by
  cases sending with
  | flight handshakes =>
      unfold dataOf messages data?
      rw [Option.toList_none, List.filterMap_eq_nil_iff]
      intro m hm
      rcases List.mem_flatMap.mp hm with ⟨handshake, _, hm⟩
      rcases List.mem_append.mp hm with hm | hm
      · split at hm
        · rw [List.mem_singleton.mp hm]
          rfl
        · cases hm
      · rcases List.mem_map.mp hm with ⟨_, _, rfl⟩
        rfl
  | alert a => rfl
  | data bytes => rfl

-- Application data is not sent in a flight or as an alert.
theorem dataOf_sendings (sendings : List Sending) :
    dataOf (sendings.map messages).flatten = sendings.filterMap data? := by
  induction sendings with
  | nil => rfl
  | cons sending sendings ih =>
      have happend : dataOf (sending.messages ++ (sendings.map messages).flatten) =
          dataOf sending.messages ++ dataOf (sendings.map messages).flatten := List.filterMap_append
      rw [List.map_cons, List.flatten_cons, happend, dataOf_messages, ih]
      cases hdata : sending.data? with
      | none => rw [List.filterMap_cons_none hdata, Option.toList_none, List.nil_append]
      | some bytes => rw [List.filterMap_cons_some hdata, Option.toList_some, List.singleton_append]

end Sending

-- Data is only accepted once the client writes in epoch 1.
theorem acceptedData_write {crypto : Crypto} {t : Config × Action} {data : Bytes}
    (hinv : ClientInv crypto t.1.socket) (hdata : data ∈ acceptedData crypto t) :
    t.1.recordLayer.writeEpochNr = 1 := by
  rcases t with ⟨c, a⟩
  cases a with
  | send bytes =>
      by_contra hwrite
      have hunfinished : c.socket.handshakeFinished = false := by
        by_contra hfinished
        rw [Bool.not_eq_false] at hfinished
        exact hwrite (hinv.finished hfinished).1
      have hthrows : Ends (Socket.send crypto bytes) c.socket (fun _ _ => False) (fun _ _ => True) := by
        unfold Socket.send
        rw [ends_bind, ends_get]
        by_cases hclosed : c.socket.isClosed = true
        · rw [if_pos hclosed]
          trivial
        · rw [if_neg hclosed, ends_bind, ends_get, hunfinished]
          trivial
      simp [acceptedData, not_returns hthrows] at hdata
  | _ => cases hdata

/-- A step carries on what was transmitted. -/
theorem Transmitted.step (opts : Options) {crypto : Crypto} {c : Config}
    {log : List (List DTLSCompressed)} {sendings : List Sending} {accepted : List Bytes}
    (h : Transmitted crypto c log sendings accepted) (hinv : ClientInv crypto c.socket) (a : Action) :
    ∃ more moreSendings, Transmitted crypto (DtlsClient.step opts crypto c a) (log ++ more)
        (sendings ++ moreSendings) (accepted ++ acceptedData crypto (c, a)) ∧
      StepSends crypto (c, a) (DtlsClient.step opts crypto c a) moreSendings ∧
      ∀ p ∈ more.flatten, c.recordLayer.writeEpochNr ≤ p.epoch := by
  rcases step_sends opts a hinv with ⟨moreSendings, hstep⟩
  rcases hstep.sends.writes.wire h.wire with ⟨more, hwire, hmessages, hepoch⟩
  have hle := (step_inv opts hinv a).epochs.writeEpochNr
  have hlast : (DtlsClient.step opts crypto c a).socket.handshakeHandler.lastSentSeqNum =
      c.socket.handshakeHandler.lastSentSeqNum + _ := hstep.sends.lastSentSeqNum
  have hbefore := h.lastSentSeqNum
  refine ⟨more, moreSendings, ⟨hwire, ?_, ?_, ?_, ?_, ?_, ?_⟩, hstep, hepoch⟩
  · rw [List.map_append, List.map_append, h.messages, hmessages]
  · rw [List.filterMap_append, h.data, hstep.data]
  · intro p hp htype
    rw [List.flatten_append, List.mem_append] at hp
    rcases hp with hp | hp
    · exact h.dataEpoch p hp htype
    · -- the data was accepted in this step, in epoch 1
      have hmem : RecordLayer.asMessage p ∈ (moreSendings.map Sending.messages).flatten := by
        rw [← hmessages, ← List.map_flatten]
        exact List.mem_map_of_mem hp
      have hdata := mem_dataOf hmem htype
      rw [Sending.dataOf_sendings, hstep.data] at hdata
      have hwrite : c.recordLayer.writeEpochNr = 1 :=
        acceptedData_write (t := (c, a)) hinv hdata
      have hlow : c.recordLayer.writeEpochNr ≤ p.epoch := hepoch p hp
      have hhigh := (hwire.logged.mem_issued (p := p)
        (by rw [List.flatten_append]; exact List.mem_append_right _ hp)).1
      have hhigh : p.epoch ≤ (DtlsClient.step opts crypto c a).recordLayer.writeEpochNr := hhigh
      have hle : (DtlsClient.step opts crypto c a).recordLayer.writeEpochNr ≤ 1 := hle
      omega
  · rw [hlast, List.flatMap_append, List.length_append]
    omega
  · have hshift : ∀ i : Nat, (c.socket.handshakeHandler.lastSentSeqNum + 1 + i).toNat =
        (sendings.flatMap Sending.handshakes).length + i := by
      intro i
      omega
    rw [List.flatMap_append, List.map_append, h.numbers, hstep.sends.numbers, List.length_append,
      List.range_add]
    simp only [hshift]
  · rw [List.filterMap_append]
    rcases hstep.phase with ⟨hnone, hsame⟩ | hedge
    · rw [hnone, List.append_nil, hsame]
      exact h.phase
    · exact h.phase.move hedge

/-- What a client starts with: its ClientHello. -/
theorem init_transmitted (opts : Options) (crypto : Crypto) (random : Random) :
    ∃ log sendings, Transmitted crypto (client opts crypto random).init log sendings [] := by
  have hinit : (client opts crypto random).init = ⟨(client opts crypto random).init.socket, []⟩ := by
    rw [client]
  rw [hinit]
  apply client_sends (P := fun s : Socket => ∃ log sendings, Transmitted crypto ⟨s, []⟩ log sendings [])
  intro f hello hf hhello
  have hepochs := FlightState.listening_epochs crypto random
  have hbuffer : f.bufferedOutgoingMessages = [] := by rw [hf]; rfl
  have hseq : f.lastSentSeqNum = -1 := by rw [hf]; rfl
  have hquiet : RecordLayer.WritesNothing .new f.recordLayer := by
    rw [hf]
    refine ⟨rfl, rfl, RecordLayer.numbers_updateConnectionState _ _ _, fun i hi => ?_⟩
    exact FlightState.specify_updateNextEpoch _ hi
  have hmsg : hello.msgType ≠ .finished := by rw [hhello]; exact HandshakeType.noConfusion
  have hkind : hello.msgType = .clientHello := by rw [hhello]; rfl
  rw [← hf] at hepochs
  apply (FlightState.sendFlight_sends_one hepochs hbuffer hmsg _).mono
  · rintro _ f' ⟨hsends, hexpected⟩
    have hwrites : RecordLayer.Writes crypto .new _ f'.recordLayer :=
      (RecordLayer.Writes.nothing hquiet).trans hsends.writes
    rcases hwrites.wire (.new crypto) with ⟨log, hwire, hmessages, _⟩
    refine ⟨log, [.flight [f.numbered hello]], hwire, hmessages, rfl, ?_, ?_, ?_, ?_⟩
    · intro p hp htype
      have hmem : RecordLayer.asMessage p ∈
          ([Sending.flight [f.numbered hello]].map Sending.messages).flatten := by
        have hmessages : log.map (·.map RecordLayer.asMessage) =
          [Sending.flight [f.numbered hello]].map Sending.messages := hmessages
        rw [← hmessages, ← List.map_flatten]
        exact List.mem_map_of_mem hp
      have hdata := mem_dataOf hmem htype
      rw [Sending.dataOf_sendings] at hdata
      cases hdata
    · have hlast := hsends.lastSentSeqNum
      rw [hseq] at hlast
      show f'.lastSentSeqNum + 1 = 1
      rw [hlast]
      rfl
    · rw [hsends.numbers, hseq]
      rfl
    · show FlightState.Phase.Reached (.awaiting f'.expectedResponses) [[hello.msgType]]
      rw [hexpected, hkind]
      exact .start
  · exact fun _ _ h => h

theorem run_transmitted (opts : Options) (crypto : Crypto) (random : Random) (actions : List Action) :
    ∃ log sendings, Transmitted crypto ((client opts crypto random).run actions) log sendings
      (((client opts crypto random).trace actions).flatMap (acceptedData crypto)) := by
  apply (client opts crypto random).run_induction (P := fun actions c => ∃ log sendings,
    Transmitted crypto c log sendings
      (((client opts crypto random).trace actions).flatMap (acceptedData crypto)))
  · exact init_transmitted opts crypto random
  · rintro actions a ⟨log, sendings, h⟩
    rcases h.step opts (run_inv opts crypto random actions) a with
      ⟨more, moreSendings, hnext, _⟩
    rw [(client opts crypto random).trace_concat, List.flatMap_append, List.flatMap_singleton]
    exact ⟨_, _, hnext⟩

/-! ## The wire -/

/-- The application data on the wire is what `send` accepted, in this order and nothing else, and all of
it is protected with the keys that were negotiated for epoch 1. -/
theorem wire_carriesAcceptedData (opts : Options) (crypto : Crypto) (random : Random)
    (actions : List Action) :
    let rl := ((client opts crypto random).run actions).recordLayer
    ∃ log : List (List DTLSCompressed), List.Forall₂ (rl.WrittenAs crypto) log rl.udpSocket ∧
      dataOf (log.flatten.map RecordLayer.asMessage) =
        ((client opts crypto random).trace actions).flatMap (acceptedData crypto) ∧
      ∀ p ∈ log.flatten, p.type = .applicationData →
        p.epoch = 1 ∧ (rl.connState 1).Keyed crypto := by
  rcases run_transmitted opts crypto random actions with ⟨log, sendings, h⟩
  have hinv := run_inv opts crypto random actions
  refine ⟨log, h.wire.datagrams, ?_, fun p hp htype => ?_⟩
  · rw [List.map_flatten, h.messages, Sending.dataOf_sendings, h.data]
  · have hepoch := h.dataEpoch p hp htype
    have hwrite := (h.wire.logged.mem_issued hp).1
    have hle := hinv.epochs.writeEpochNr
    have hone : ((client opts crypto random).run actions).socket.recordLayer.writeEpochNr = 1 := by
      have hwrite : p.epoch ≤
        ((client opts crypto random).run actions).socket.recordLayer.writeEpochNr := hwrite
      omega
    refine ⟨hepoch, ((hinv.epochs.epoch 1).negotiated ?_).keyed⟩
    rw [hone]
    rfl

/-- The handshake messages of a run are numbered from 0 on.  They are sent in flights, each of which is one
datagram: a ClientHello, perhaps a second one, and perhaps a Finished flight, which of them is known from
the responses that are expected.  No flight is ever sent twice. -/
theorem handshake_flightsOnce (opts : Options) (crypto : Crypto) (random : Random)
    (actions : List Action) :
    let s := ((client opts crypto random).run actions).socket
    ∃ (log : List (List DTLSCompressed)) (sendings : List Sending),
      List.Forall₂ (s.recordLayer.WrittenAs crypto) log s.recordLayer.udpSocket ∧
      log.map (·.map RecordLayer.asMessage) = sendings.map Sending.messages ∧
      (sendings.flatMap Sending.handshakes).map (·.messageSeq) =
        List.range (s.handshakeHandler.lastSentSeqNum + 1).toNat ∧
      sendings.filterMap Sending.kind? ∈
        FlightState.Phase.sentIn (.awaiting s.handshakeHandler.expectedResponses) := by
  rcases run_transmitted opts crypto random actions with ⟨log, sendings, h⟩
  refine ⟨log, sendings, h.wire.datagrams, h.messages, ?_, h.phase.mem_sentIn⟩
  rw [h.numbers, h.lastSentSeqNum]
  rfl

end DtlsClient
