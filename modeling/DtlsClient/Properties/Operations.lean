import DtlsClient.Library.Along
import DtlsClient.Properties.Replay
import DtlsClient.Properties.Invariant

/-!
# The record layer under a client

Whatever a client does, it changes its record layer by the operations of the record layer's own machine.
A datagram is one operation that receives it; everything else receives nothing.  Only the workaround for
the IKEA gateway is no such operation.
-/

open Library Relation

namespace DtlsClient

namespace RecordLayer

def Operation.receives : Operation → Bool
  | .receive _ _ => true
  | _ => false

/-- One operation that receives nothing. -/
def Operates (crypto : Crypto) (rl rl' : RecordLayer) : Prop :=
  ∃ op : Operation, op.receives = false ∧ rl.perform crypto op = rl'

theorem operates {crypto : Crypto} {rl : RecordLayer} (op : Operation) (hop : op.receives = false) :
    ReflTransGen (Operates crypto) rl (rl.perform crypto op) :=
  .single ⟨op, hop, rfl⟩

-- The operations between two states, first to last.
theorem exists_operations {crypto : Crypto} {rl rl' : RecordLayer}
    (h : ReflTransGen (Operates crypto) rl rl') :
    ∃ operations : List Operation, (∀ op ∈ operations, op.receives = false) ∧
      operations.foldl (perform crypto) rl = rl' := by
  induction h with
  | refl => exact ⟨[], fun _ hop => absurd hop List.not_mem_nil, rfl⟩
  | tail _ hstep ih =>
      rcases ih with ⟨operations, hquiet, rfl⟩
      rcases hstep with ⟨op, hop, rfl⟩
      refine ⟨operations ++ [op], ?_, List.foldl_append⟩
      rw [List.forall_mem_append, List.forall_mem_singleton]
      exact ⟨hquiet, hop⟩

-- What sending leaves behind is what the operation leaves behind, whichever way it ends.
theorem along_send (crypto : Crypto) (msg : Message) :
    Along (Operates crypto) id (RecordLayer.send crypto msg) := fun _ =>
  ends_of_finalState (ReflTransGen.single ⟨.send msg, rfl, rfl⟩)

theorem along_sendFlight (crypto : Crypto) (messages : List Message) :
    Along (Operates crypto) id (RecordLayer.sendFlight crypto messages) := fun _ =>
  ends_of_finalState (ReflTransGen.single ⟨.sendFlight messages, rfl, rfl⟩)

end RecordLayer

namespace FlightState

open RecordLayer

variable {opts : Options} {crypto : Crypto}

/-- The program uses the record layer. -/
abbrev Uses (crypto : Crypto) {α : Type} (x : FlightM α) : Prop :=
  Along (Operates crypto) FlightState.recordLayer x

theorem uses_updateNextEpoch (f : FlightState → ConnectionState → ConnectionState) :
    Uses crypto (modify fun s => updateNextEpoch (f s) s) :=
  along_modify fun s => operates (.updateConnectionState s.recordLayer.nextEpochNr (f s)) rfl

theorem uses_finishedCallback (alert : Option Alert) (err : Option JsError) :
    Uses crypto (finishedCallback alert err) :=
  along_modify_eq fun _ => rfl

theorem uses_bufferHandshakeData (messages : List FragmentedHandshake) :
    Uses crypto (bufferHandshakeData messages) :=
  along_modify_eq fun _ => rfl

theorem uses_sendFlightBegin : Uses crypto sendFlightBegin := along_modify_eq fun _ => rfl

theorem uses_bufferOutgoing (messages : List Message) : Uses crypto (bufferOutgoing messages) :=
  along_modify_eq fun _ => rfl

theorem uses_processHandshake (retransmit : Bool) (handshake : Handshake) :
    Uses crypto (processHandshake retransmit handshake) := by
  unfold processHandshake
  refine along_when (uses_bufferOutgoing _) fun _ => ?_
  refine along_when (along_modify_eq fun _ => rfl) fun _ => ?_
  refine Along.bind along_get fun _ => ?_
  refine Along.bind (along_modify_eq fun _ => rfl) fun _ => ?_
  refine along_when (uses_bufferHandshakeData _) fun _ => ?_
  split
  · exact along_throw _
  · exact uses_bufferOutgoing _

theorem uses_sendFlightProcessPartial (flight : List Handshake) :
    Uses crypto (sendFlightProcessPartial flight) := by
  unfold sendFlightProcessPartial
  refine Along.bind along_get fun _ => ?_
  refine along_when (along_throw _) fun _ => ?_
  exact along_forM (uses_processHandshake false) flight

theorem uses_sendFlightFinish (expectedResponses : List HandshakeType) :
    Uses crypto (sendFlightFinish crypto expectedResponses) := by
  unfold sendFlightFinish
  refine Along.bind (along_modify_eq fun _ => rfl) fun _ => ?_
  refine Along.bind along_get fun f => ?_
  refine Along.bind ?_ fun _ => along_modify_eq fun _ => rfl
  exact (along_sendFlight crypto f.bufferedOutgoingMessages).onPart (fun _ => rfl) fun _ _ => rfl

theorem uses_sendFlight (flight : List Handshake) (expectedResponses : List HandshakeType) :
    Uses crypto (sendFlight crypto flight expectedResponses) :=
  uses_sendFlightBegin.bind fun _ => (uses_sendFlightProcessPartial flight).bind fun _ =>
    uses_sendFlightFinish expectedResponses

theorem uses_computeVerifyData (handshakeMessages : Bytes) (source : ConnectionEnd) :
    Uses crypto (computeVerifyData crypto handshakeMessages source) := by
  unfold computeVerifyData
  refine Along.bind along_get fun f => ?_
  dsimp only
  split
  · exact along_pure _
  · exact along_throw _

theorem uses_handleHelloVerifyRequest (hreset : opts.resetAntiReplayWindowBeforeServerHello = false)
    (messages : List Handshake) : Uses crypto (handleHelloVerifyRequest opts crypto messages) := by
  unfold handleHelloVerifyRequest
  refine Along.bind along_get fun f => ?_
  split
  · rw [hreset]
    exact uses_sendFlight _ _
  · exact along_throw _

theorem uses_handleServerHello (hello : ServerHello) : Uses crypto (handleServerHello hello) := by
  unfold handleServerHello
  refine Along.bind (uses_updateNextEpoch fun _ _ => _) fun _ => along_modify fun f => ?_
  apply ReflTransGen.trans
  · exact operates (.updateConnectionState f.recordLayer.writeEpochNr fun c =>
      { c with protocolVersion := hello.serverVersion }) rfl
  · exact operates (.updateConnectionState (f.recordLayer.writeEpochNr + 1) fun c =>
      { c with protocolVersion := hello.serverVersion }) rfl

theorem uses_handleServerKeyExchange (rawData : Bytes) :
    Uses crypto (handleServerKeyExchange rawData) := by
  unfold handleServerKeyExchange
  refine Along.bind along_get fun f => ?_
  split
  · exact along_throw _
  · split
    · split
      · exact along_throw _
      · exact along_pure ()
    · exact along_pure ()

theorem uses_installKeys (psk : Bytes) : Uses crypto (installKeys crypto psk) := by
  unfold installKeys
  refine Along.bind along_get fun f => ?_
  split
  · exact along_throw _
  · exact uses_updateNextEpoch fun _ _ => _

theorem uses_sendFinishedFlight (identity : Bytes) :
    Uses crypto (sendFinishedFlight crypto identity) := by
  unfold sendFinishedFlight
  refine Along.bind uses_sendFlightBegin fun _ => ?_
  refine Along.bind (uses_sendFlightProcessPartial _) fun _ => ?_
  refine Along.bind along_get fun f => ?_
  refine Along.bind (uses_computeVerifyData _ _) fun _ => ?_
  refine Along.bind (uses_sendFlightProcessPartial _) fun _ => ?_
  exact uses_sendFlightFinish _

theorem uses_handleServerHelloDone : Uses crypto (handleServerHelloDone opts crypto) := by
  unfold handleServerHelloDone
  refine Along.bind along_get fun f => ?_
  split
  · exact along_throw _
  · split
    · split
      · exact along_throw _
      · refine Along.bind (uses_installKeys _) fun _ => ?_
        exact (uses_sendFinishedFlight _).bind fun _ => along_pure true
    · exact (uses_finishedCallback _ _).bind fun _ => along_pure false

theorem uses_handleServerHelloDoneFlight (messages : List Handshake) :
    Uses crypto (handleServerHelloDoneFlight opts crypto messages) := by
  induction messages with
  | nil => exact along_pure ()
  | cons msg messages ih =>
      have hrest : ∀ goOn : Bool,
          Uses crypto (if goOn then handleServerHelloDoneFlight opts crypto messages else pure ()) := by
        intro goOn
        cases goOn with
        | true => exact ih
        | false => exact along_pure ()
      unfold handleServerHelloDoneFlight
      split
      · exact (uses_handleServerHello _).bind fun _ => (along_pure true).bind hrest
      · exact (uses_handleServerKeyExchange _).bind fun _ => (along_pure true).bind hrest
      · exact uses_handleServerHelloDone.bind hrest
      · exact (along_pure true).bind hrest

theorem uses_handleFinished (messages : List Handshake) :
    Uses crypto (handleFinished crypto messages) := by
  unfold handleFinished
  split
  · refine Along.bind along_get fun f => ?_
    refine Along.bind (uses_computeVerifyData _ _) fun _ => ?_
    refine Along.bind (along_modify_eq fun _ => rfl) fun _ => ?_
    split
    · exact uses_finishedCallback _ _
    · exact uses_finishedCallback _ _
  · exact along_throw _

theorem uses_handle (hreset : opts.resetAntiReplayWindowBeforeServerHello = false)
    (type : HandshakeType) (messages : List Handshake) :
    Uses crypto (handle opts crypto type messages) := by
  cases type with
  | helloVerifyRequest => exact uses_handleHelloVerifyRequest hreset messages
  | serverHelloDone => exact uses_handleServerHelloDoneFlight messages
  | finished => exact uses_handleFinished messages
  | _ => exact along_throw _

end FlightState

namespace ClientHandshakeHandler

open RecordLayer FlightState

variable {opts : Options} {crypto : Crypto}

abbrev Uses (crypto : Crypto) {α : Type} (x : HandlerM α) : Prop :=
  Along (Operates crypto) (fun h : ClientHandshakeHandler => h.recordLayer) x

theorem uses_callFlight {α : Type} {x : FlightM α} (hx : FlightState.Uses crypto x) :
    Uses crypto (callFlight x) :=
  hx.onPart (fun _ => rfl) fun _ _ => rfl

theorem uses_storeMessage (memory : MessageMemory) (msg : FragmentedHandshake) :
    Uses crypto (storeMessage memory msg) := by
  unfold storeMessage
  split
  · refine Along.bind (along_modify_eq fun _ => rfl) fun _ => ?_
    unfold tryAssembleFragments
    refine Along.bind along_get fun h => ?_
    dsimp only
    split
    · exact along_throw _
    · exact along_pure false
    · exact Along.bind (along_modify_eq fun _ => rfl) fun _ => along_pure true
  · split
    · exact along_throw _
    · exact Along.bind (along_modify_eq fun _ => rfl) fun _ => along_pure true

-- The handler of the flight is run apart, since its exceptions are caught.
theorem uses_handleFlight (hreset : opts.resetAntiReplayWindowBeforeServerHello = false)
    (messages : List Handshake) (lastMsg : Handshake) :
    Uses crypto (handleFlight opts crypto messages lastMsg) := by
  unfold handleFlight
  refine Along.bind (along_modify_eq fun _ => rfl) fun _ => ?_
  refine Along.bind (uses_callFlight (uses_bufferHandshakeData _)) fun _ => ?_
  intro h
  rw [ends_bind, ends_get]
  have hhandle : FlightState.Uses crypto (handle opts crypto lastMsg.msgType messages) :=
    uses_handle hreset lastMsg.msgType messages
  cases hres : handle opts crypto lastMsg.msgType messages h.toFlightState with
  | ok _ f =>
      have hused := (hhandle h.toFlightState).of_ok hres
      simp only
      rw [ends_bind, ends_modify]
      split
      · exact hused
      · exact hused
  | error e f =>
      have hused := (hhandle h.toFlightState).of_error hres
      simp only
      rw [ends_bind, ends_modify]
      exact hused

theorem uses_processIncomingMessage (hreset : opts.resetAntiReplayWindowBeforeServerHello = false)
    (memory : MessageMemory) (msg : FragmentedHandshake) :
    Uses crypto (processIncomingMessage opts crypto memory msg) := by
  unfold processIncomingMessage
  refine Along.bind (uses_storeMessage memory msg) fun complete => ?_
  split
  · refine Along.bind along_get fun h => ?_
    split
    · exact uses_handleFlight hreset _ _
    · exact along_pure ()
  · exact along_pure ()

theorem uses_renegotiate (random : Random) : Uses crypto (renegotiate opts crypto random) := by
  unfold renegotiate
  exact uses_callFlight ((uses_updateNextEpoch fun _ _ => _).bind fun _ => uses_sendFlight _ _)

end ClientHandshakeHandler

namespace Socket

open RecordLayer

variable {opts : Options} {crypto : Crypto}

abbrev Uses (crypto : Crypto) {α : Type} (x : SocketM α) : Prop :=
  Along (Operates crypto) Socket.recordLayer x

theorem uses_callHandler {α : Type} {x : HandlerM α} (hx : ClientHandshakeHandler.Uses crypto x) :
    Uses crypto (callHandler x) :=
  hx.onPart (fun _ => rfl) fun _ _ => rfl

theorem killConnection_recordLayer (err : Option JsError) (s : Socket) :
    (s.killConnection err).recordLayer = s.recordLayer := by
  unfold killConnection
  split
  · rfl
  · cases err <;> rfl

theorem nextStep_recordLayer (err : Option JsError) (s : Socket) :
    (s.nextStep err).recordLayer = s.recordLayer := by
  cases err with
  | none => rfl
  | some e => exact killConnection_recordLayer (some e) s

section Sending

variable {S : RecordLayer → RecordLayer → Prop}

theorem along_callRecordLayer {α : Type} {x : EStateM JsError RecordLayer α} (hx : Along S id x) :
    Along S Socket.recordLayer (callRecordLayer x) :=
  hx.onPart (fun _ => rfl) fun _ _ => rfl

theorem along_sendAlert (alert : Alert) (callback : Option SendCallback)
    (hsend : Along S id (RecordLayer.send crypto ⟨.alert, alert.serialize⟩)) :
    Along S Socket.recordLayer (sendAlert crypto alert callback) :=
  (along_callRecordLayer hsend).bind fun _ => along_modify_eq fun _ => rfl

theorem along_sendData {data : Bytes}
    (hsend : Along S id (RecordLayer.send crypto ⟨.applicationData, data⟩)) :
    Along S Socket.recordLayer (send crypto data) := by
  unfold send
  refine Along.bind along_get fun s => ?_
  refine along_when (along_throw _) fun _ => ?_
  refine Along.bind along_get fun s => ?_
  refine along_when (along_throw _) fun _ => ?_
  exact along_callRecordLayer hsend

end Sending

theorem uses_finishedCallback (call : FinishedCall) : Uses crypto (finishedCallback crypto call) := by
  unfold finishedCallback
  split
  · exact along_sendAlert _ _ (along_send crypto _)
  · exact along_modify_eq (nextStep_recordLayer call.err)

theorem uses_processIncomingMessage (hreset : opts.resetAntiReplayWindowBeforeServerHello = false)
    (memory : MessageMemory) (handshake : FragmentedHandshake) :
    Uses crypto (processIncomingMessage opts crypto memory handshake) := by
  unfold processIncomingMessage
  refine Along.bind (uses_callHandler
    (ClientHandshakeHandler.uses_processIncomingMessage hreset memory handshake)) fun _ => ?_
  refine Along.bind along_get fun s => ?_
  refine Along.bind (uses_callHandler (along_modify_eq fun _ => rfl)) fun _ => ?_
  exact along_forM uses_finishedCallback _

theorem uses_handleMessage (hreset : opts.resetAntiReplayWindowBeforeServerHello = false)
    (memory : MessageMemory) (msg : Message) (rinfo : RemoteInfo) :
    Uses crypto (handleMessage opts crypto memory msg rinfo) := by
  unfold handleMessage
  split
  · split
    · exact along_throw _
    · exact uses_processIncomingMessage hreset memory _
  · exact along_modify fun s => operates .advanceReadEpoch rfl
  · dsimp only
    split
    · exact along_modify_eq (killConnection_recordLayer _)
    · split
      · exact along_sendAlert _ _ (along_send crypto _)
      · exact along_pure ()
  · apply along_modify_eq
    intro s
    split
    · rfl
    · rfl
  · exact along_pure ()

theorem uses_udpOnListening (random : Random) : Uses crypto (udpOnListening opts crypto random) :=
  uses_callHandler (ClientHandshakeHandler.uses_renegotiate random)

end Socket

/-! ## Runs -/

open RecordLayer

/-- What the record layer receives in a step: a datagram that is taken, in the state it is taken in. -/
def received (t : Config × Action) : Option (RecordLayer × Operation) :=
  match t.2 with
  | .datagram memory _ udpMsg _ =>
      if t.1.takesDatagram then some (t.1.recordLayer, .receive memory udpMsg) else none
  | _ => none

theorem received_takes {c : Config} {memory : Nat → Memory} {messageMemory : Nat → MessageMemory}
    {udpMsg : Bytes} {rinfo : RemoteInfo} (h : c.takesDatagram = true) :
    received (c, .datagram memory messageMemory udpMsg rinfo) =
      some (c.recordLayer, .receive memory udpMsg) := by
  unfold received
  simp only
  rw [if_pos h]

theorem received_some {c : Config} {a : Action} {r : RecordLayer × Operation}
    (h : received (c, a) = some r) :
    ∃ memory messageMemory udpMsg rinfo, a = .datagram memory messageMemory udpMsg rinfo ∧
      c.takesDatagram = true ∧ r = (c.recordLayer, .receive memory udpMsg) := by
  cases a with
  | datagram memory messageMemory udpMsg rinfo =>
      unfold received at h
      simp only at h
      split at h
      · rename_i htakes
        exact ⟨memory, messageMemory, udpMsg, rinfo, rfl, htakes, (Option.some.inj h).symm⟩
      · cases h
  | _ => cases h

section Steps

variable {opts : Options} (crypto : Crypto)

/-- Whatever is neither a datagram that is taken nor a round of the loop only sends. -/
theorem step_along {S : RecordLayer → RecordLayer → Prop} {c : Config} {a : Action}
    (hsend : ∀ msg : Message, msg.type ≠ .changeCipherSpec → Along S id (RecordLayer.send crypto msg))
    (hnext : ReflTransGen S c.recordLayer (c.handleNext opts crypto).recordLayer)
    (ha : received (c, a) = none) :
    ReflTransGen S c.recordLayer (step opts crypto c a).recordLayer := by
  have hsame : ∀ s : Socket, s.recordLayer = c.recordLayer →
      ReflTransGen S c.recordLayer s.recordLayer := fun s hs => by rw [hs]
  have halert : ∀ alert : Alert, Along S id (RecordLayer.send crypto ⟨.alert, alert.serialize⟩) :=
    fun alert => hsend _ nofun
  cases a with
  | datagram memory messageMemory udpMsg rinfo =>
      have htakes : ¬c.takesDatagram = true := by
        intro htakes
        rw [received_takes htakes] at ha
        cases ha
      show ReflTransGen _ _ (c.receiveDatagram crypto memory messageMemory udpMsg rinfo).recordLayer
      unfold Config.receiveDatagram
      rw [if_neg htakes]
  | next => exact hnext
  | callback i =>
      apply hsame
      show (Config.runCallback i c.socket).recordLayer = _
      unfold Config.runCallback
      split
      · rfl
      · rename_i callback _
        cases callback with
        | nextStep err => exact Socket.nextStep_recordLayer err _
        | closeUdp => rfl
  | handshakeTimeout =>
      apply hsame
      show c.socket.expectHandshake.recordLayer = _
      unfold Socket.expectHandshake
      split
      · exact Socket.killConnection_recordLayer _ _
      · rfl
  | udpClose =>
      apply hsame
      show c.socket.udpOnClose.recordLayer = _
      unfold Socket.udpOnClose
      split
      · rfl
      · rfl
  | udpError e => exact hsame _ (Socket.killConnection_recordLayer _ _)
  | send data => exact (Socket.along_sendData (hsend _ nofun)).finalState c.socket
  | close => exact (Socket.along_sendAlert _ _ (halert _)).finalState c.socket
  | sendAlert alert => exact (Socket.along_sendAlert _ none (halert _)).finalState c.socket

/-- Whatever is no datagram that is taken receives nothing. -/
theorem step_operates (hreset : opts.resetAntiReplayWindowBeforeServerHello = false) {c : Config}
    {a : Action} (ha : received (c, a) = none) :
    ReflTransGen (Operates crypto) c.recordLayer (step opts crypto c a).recordLayer := by
  apply step_along crypto (fun msg _ => along_send crypto msg) _ ha
  unfold Config.handleNext
  cases c.pending with
  | nil => exact .refl
  | cons d pending =>
      have huses : Socket.Uses crypto (Socket.handleMessage opts crypto d.memory d.msg d.rinfo) :=
        Socket.uses_handleMessage hreset d.memory d.msg d.rinfo
      simp only
      cases hres : Socket.handleMessage opts crypto d.memory d.msg d.rinfo c.socket with
      | ok _ s => exact (huses c.socket).of_ok hres
      | error e s => exact (huses c.socket).of_error hres

-- Operations that receive nothing leave no trace of that kind.
theorem filter_trace_quiet {rl : RecordLayer} {operations : List Operation}
    (hquiet : ∀ op ∈ operations, op.receives = false) :
    ((machine crypto).traceFrom rl operations).filter (·.2.receives) = [] := by
  induction operations generalizing rl with
  | nil => rfl
  | cons op operations ih =>
      rw [List.forall_mem_cons] at hquiet
      rw [Machine.traceFrom, List.filter_cons, hquiet.1]
      exact ih hquiet.2

/-- One step of a client is some operations of its record layer, of which those that receive are the
datagram that is taken. -/
theorem step_operations (hreset : opts.resetAntiReplayWindowBeforeServerHello = false) (c : Config)
    (a : Action) :
    ∃ operations : List Operation,
      operations.foldl (perform crypto) c.recordLayer = (step opts crypto c a).recordLayer ∧
      ((machine crypto).traceFrom c.recordLayer operations).filter (·.2.receives) =
        (received (c, a)).toList := by
  cases ha : received (c, a) with
  | none =>
      rcases exists_operations (step_operates crypto hreset ha) with
        ⟨operations, hquiet, hlast⟩
      exact ⟨operations, hlast, filter_trace_quiet crypto hquiet⟩
  | some t =>
      rcases received_some ha with ⟨memory, messageMemory, udpMsg, rinfo, rfl, htakes, rfl⟩
      refine ⟨[.receive memory udpMsg], ?_, rfl⟩
      show _ = (c.receiveDatagram crypto memory messageMemory udpMsg rinfo).recordLayer
      unfold Config.receiveDatagram
      rw [if_pos htakes]
      rfl

/-- A client uses its record layer: in every run it is in a state of a run of the record layer's machine,
which receives the datagrams that the client takes, in the same states, and no others. -/
theorem run_operations (hreset : opts.resetAntiReplayWindowBeforeServerHello = false)
    (random : Random) (actions : List Action) :
    ∃ operations : List Operation,
      (machine crypto).run operations = ((client opts crypto random).run actions).recordLayer ∧
      ((machine crypto).trace operations).filter (·.2.receives) =
        ((client opts crypto random).trace actions).filterMap received := by
  apply (client opts crypto random).run_induction (P := fun actions c => ∃ operations : List Operation,
    (machine crypto).run operations = c.recordLayer ∧
    ((machine crypto).trace operations).filter (·.2.receives) =
      ((client opts crypto random).trace actions).filterMap received)
  · have hstart : ReflTransGen (Operates crypto) RecordLayer.new
        (client opts crypto random).init.socket.recordLayer :=
      client_starts (P := fun s => ReflTransGen (Operates crypto) RecordLayer.new s.recordLayer)
        (Socket.uses_udpOnListening random .new)
    rcases exists_operations hstart with ⟨operations, hquiet, hlast⟩
    exact ⟨operations, hlast, filter_trace_quiet crypto hquiet⟩
  · rintro actions a ⟨operations, hrun, htrace⟩
    rcases step_operations crypto hreset ((client opts crypto random).run actions) a with
      ⟨more, hlast, hreceived⟩
    refine ⟨operations ++ more, ?_, ?_⟩
    · rw [← hrun] at hlast
      rw [Machine.run, List.foldl_append]
      exact hlast
    · have hstate : operations.foldl (machine crypto).step (machine crypto).init =
          ((client opts crypto random).run actions).recordLayer := hrun
      rw [Machine.trace, Machine.traceFrom_append, List.filter_append, hstate, hreceived,
        Machine.trace_concat, List.filterMap_append]
      exact congrArg₂ (· ++ ·) htrace rfl

variable {crypto}

-- What holds of the datagrams that are taken and of all that receives nothing.
theorem forall_trace {P : RecordLayer × Operation → Prop} {operations : List Operation}
    {trace : List (Config × Action)}
    (htrace : ((machine crypto).trace operations).filter (·.2.receives) = trace.filterMap received)
    (hquiet : ∀ rl op, Operation.receives op = false → P (rl, op))
    (hreceived : ∀ t ∈ trace, ∀ r ∈ received t, P r) : ∀ t ∈ (machine crypto).trace operations, P t := by
  intro t ht
  cases hreceives : t.2.receives with
  | false => exact hquiet t.1 t.2 hreceives
  | true =>
      have hmem : t ∈ ((machine crypto).trace operations).filter (·.2.receives) :=
        List.mem_filter.mpr ⟨ht, hreceives⟩
      rw [htrace] at hmem
      rcases List.mem_filterMap.mp hmem with ⟨t', ht', hr⟩
      exact hreceived t' ht' t (Option.mem_def.mpr hr)

end Steps

end DtlsClient
