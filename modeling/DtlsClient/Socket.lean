import DtlsClient.DTLS.HandshakeHandler

/-!
# `dtls.ts`

`Socket`: the callbacks of the UDP socket, the timers, and the methods an application calls.  The
socket and the handshake handler hold the same record layer; the one copy is the handler's.
-/

open Library

namespace DtlsClient

/-- `dgram.RemoteInfo`, which the socket passes on unread. -/
structure RemoteInfo where
  address : String
  port : Nat
deriving DecidableEq, Repr

inductive SocketEvent where
  | connected
  | message (data : Bytes) (rinfo : RemoteInfo)
  | error (e : JsError)
  | close
deriving DecidableEq, Repr

/-- A callback that waits for the UDP socket to have sent an alert. -/
inductive SendCallback where
  /-- `nextStep` of the handshake callback -/
  | nextStep (err : Option JsError)
  /-- that of `Socket.close` -/
  | closeUdp
deriving DecidableEq, Repr

structure Socket where
  handshakeHandler : ClientHandshakeHandler
  handshakeFinished : Bool
  /-- messages that arrived while handshaking -/
  bufferedMessages : List (Message × RemoteInfo)
  isClosed : Bool
  pendingCallbacks : List SendCallback
  /-- the events that were emitted, first to last -/
  events : List SocketEvent

abbrev SocketM := EStateM JsError Socket

namespace Socket

def recordLayer (s : Socket) : RecordLayer := s.handshakeHandler.recordLayer

def setRecordLayer (s : Socket) (rl : RecordLayer) : Socket :=
  { s with
    handshakeHandler :=
      { s.handshakeHandler with
        toFlightState := { s.handshakeHandler.toFlightState with recordLayer := rl } } }

def callRecordLayer {α : Type} (x : EStateM JsError RecordLayer α) : SocketM α :=
  onPart recordLayer setRecordLayer x

def callHandler {α : Type} (x : HandlerM α) : SocketM α :=
  onPart (·.handshakeHandler) (fun s h => { s with handshakeHandler := h }) x

def emit (event : SocketEvent) (s : Socket) : Socket := { s with events := s.events ++ [event] }

/-- Kills the underlying UDP connection and emits an error if necessary.  Closing also removes the
listeners of the UDP socket, so that no datagram is delivered any more. -/
def killConnection (err : Option JsError) (s : Socket) : Socket :=
  if s.isClosed then s
  else
    let s := { s with isClosed := true }
    match err with
    | some e => s.emit (.error e)
    | none => s

def sendAlert (crypto : Crypto) (alert : Alert) (callback : Option SendCallback) : SocketM Unit := do
  callRecordLayer (RecordLayer.send crypto ⟨.alert, alert.serialize⟩)
  modify fun s => { s with pendingCallbacks := s.pendingCallbacks ++ callback.toList }

/-- `nextStep`: an error terminates the connection, otherwise the handshake is done and the buffered
messages are emitted. -/
def nextStep (err : Option JsError) (s : Socket) : Socket :=
  match err with
  | some e => s.killConnection (some e)
  | none =>
      let s := { s with handshakeFinished := true }.emit .connected
      { s with
        events := s.events ++ s.bufferedMessages.map fun m => .message m.1.data m.2
        bufferedMessages := [] }

def finishedCallback (crypto : Crypto) (call : FinishedCall) : SocketM Unit :=
  match call.alert with
  | some alert => sendAlert crypto alert (some (.nextStep call.err))
  | none => modify (nextStep call.err)

/-- `handshakeHandler.processIncomingMessage(handshake)`, with the callbacks it makes. -/
def processIncomingMessage (opts : Options) (crypto : Crypto) (memory : MessageMemory)
    (handshake : FragmentedHandshake) : SocketM Unit := do
  callHandler (ClientHandshakeHandler.processIncomingMessage opts crypto memory handshake)
  let calls := (← get).handshakeHandler.finishedCalls
  callHandler (modify fun h => { h with finishedCalls := [] })
  calls.forM (finishedCallback crypto)

/-- Closes the connection: the UDP socket is closed once the alert is sent. -/
def close (crypto : Crypto) : SocketM Unit :=
  sendAlert crypto ⟨AlertLevel.warning, AlertDescription.closeNotify⟩ (some .closeUdp)

/-- The body of the loop of `udp_onMessage` over the received messages. -/
def handleMessage (opts : Options) (crypto : Crypto) (memory : MessageMemory) (msg : Message)
    (rinfo : RemoteInfo) : SocketM Unit := do
  match msg.type with
  | .handshake =>
      match FragmentedHandshake.fromBuffer memory.fragment msg.data with
      | .error e => throw e
      | .ok handshake => processIncomingMessage opts crypto memory handshake
  | .changeCipherSpec =>
      modify fun s => s.setRecordLayer s.recordLayer.advanceReadEpoch
  | .alert =>
      let alert := Alert.fromBuffer msg.data
      if alert.level = AlertLevel.fatal then
        modify (killConnection (some (.error
          ("received fatal alert: " ++ AlertDescription.name alert.description))))
      else if alert.level = AlertLevel.warning ∧
          alert.description = AlertDescription.closeNotify then
        close crypto
  | .applicationData =>
      modify fun s =>
        if s.handshakeFinished then s.emit (.message msg.data rinfo)
        else { s with bufferedMessages := s.bufferedMessages ++ [(msg, rinfo)] }
  | .other _ => pure ()

/-- The loop of `udp_onMessage`; each message comes with the memory its processing finds. -/
def handleMessages (opts : Options) (crypto : Crypto) (rinfo : RemoteInfo) :
    List (MessageMemory × Message) → SocketM Unit
  | [] => pure ()
  | (memory, msg) :: messages => do
      handleMessage opts crypto memory msg rinfo
      handleMessages opts crypto rinfo messages

-- `recordLayer.receive(udpMsg)`.
def receive (crypto : Crypto) (memory : Nat → Memory) (udpMsg : Bytes) : SocketM (List Message) :=
  modifyGet fun s =>
    let (messages, rl) := s.recordLayer.receive crypto memory udpMsg
    (messages, s.setRecordLayer rl)

def udpOnMessage (opts : Options) (crypto : Crypto) (memory : Nat → Memory)
    (messageMemory : Nat → MessageMemory) (udpMsg : Bytes) (rinfo : RemoteInfo) : SocketM Unit := do
  let messages ← receive crypto memory udpMsg
  handleMessages opts crypto rinfo
    (messages.zipIdx.map fun (msg, i) => (messageMemory i, msg))

/-- `Socket.send`; throws where the socket does not accept the data. -/
def send (crypto : Crypto) (data : Bytes) : SocketM Unit := do
  if (← get).isClosed then throw (.error "The socket is closed. Cannot send data.")
  if !(← get).handshakeFinished then
    throw (.error "DTLS handshake is not finished yet. Cannot send data.")
  callRecordLayer (RecordLayer.send crypto ⟨.applicationData, data⟩)

def udpOnClose (s : Socket) : Socket :=
  if s.isClosed then s else { s with isClosed := true }.emit .close

def expectHandshake (s : Socket) : Socket :=
  if !s.isClosed && !s.handshakeFinished then
    s.killConnection (some (.error "The DTLS handshake timed out"))
  else s

def runCallback (callback : SendCallback) (s : Socket) : Socket :=
  match callback with
  | .nextStep err => s.nextStep err
  -- the UDP socket answers with its `close` event
  | .closeUdp => s

/-- The socket before the handshake handler has sent anything. -/
def new : Socket where
  handshakeHandler := .reset .new
  handshakeFinished := false
  bufferedMessages := []
  isClosed := false
  pendingCallbacks := []
  events := []

/-- `udp_onListening`, with the randomness drawn for the ClientHello. -/
def udpOnListening (opts : Options) (crypto : Crypto) (random : Random) : SocketM Unit :=
  callHandler (ClientHandshakeHandler.renegotiate opts crypto random)

end Socket

end DtlsClient
