import DtlsClient.DTLS.Handshake
import DtlsClient.Library.Exceptions
import DtlsClient.Library.IndexMap

/-!
# `DTLS/HandshakeHandler`

`ClientHandshakeHandler`.  `FlightState` holds what the flight handlers and the sending of flights
work on, the record layer included; the handler adds the buffers for received messages.  The code
runs in `EStateM`, where an exception leaves the changes made before it in place.
-/

open Library

namespace DtlsClient

abbrev CipherSuites.Key := { suite : CipherSuite // suite ∈ CipherSuites.values }

structure Options where
  /-- identities and keys as the bytes they are encoded to, in the order of `Object.keys` -/
  psk : List (Bytes × Bytes)
  ciphers : Option (List CipherSuites.Key) := none
  resetAntiReplayWindowBeforeServerHello : Bool := false

/-- The arguments of a call of `finishedCallback`. -/
structure FinishedCall where
  alert : Option Alert
  err : Option JsError
deriving DecidableEq, Repr

/-- What `Buffer.allocUnsafe` finds while one handshake message is processed. -/
structure MessageMemory where
  fragment : Nat → Memory
  reassembled : Memory
  body : Nat → Memory

structure FlightState where
  recordLayer : RecordLayer
  isHandshaking : Bool
  lastSentSeqNum : Int
  lastFlight : List Handshake
  expectedResponses : Option (List HandshakeType)
  allHandshakeData : List Bytes
  bufferedOutgoingMessages : List Message
  sendFlightBeginWasCalled : Bool
  /-- The calls of `finishedCallback`, first to last.  The callback is the last thing a flight
  handler does, so that the socket can answer it when `processIncomingMessage` returns. -/
  finishedCalls : List FinishedCall
deriving DecidableEq, Repr

structure ClientHandshakeHandler extends FlightState where
  lastProcessedSeqNum : Int
  incompleteMessages : List FragmentedHandshake
  completeMessages : IndexMap Handshake

abbrev FlightM := EStateM JsError FlightState

namespace FlightState

def callRecordLayer {α : Type} (x : EStateM JsError RecordLayer α) : FlightM α :=
  onPart (·.recordLayer) (fun s rl => { s with recordLayer := rl }) x

def updateNextEpoch (f : ConnectionState → ConnectionState) (s : FlightState) : FlightState :=
  { s with recordLayer := s.recordLayer.updateConnectionState s.recordLayer.nextEpochNr f }

def finishedCallback (alert : Option Alert) (err : Option JsError) : FlightM Unit :=
  modify fun s => { s with finishedCalls := s.finishedCalls ++ [⟨alert, err⟩] }

/-! ## Sending flights -/

def bufferHandshakeData (messages : List FragmentedHandshake) : FlightM Unit :=
  modify fun s =>
    { s with allHandshakeData := s.allHandshakeData ++ messages.map (·.serialize) }

def needsToHashMessage (message : Handshake) : Bool :=
  match message.body with
  | .helloVerifyRequest _ => false
  | .helloRequest => false
  -- client hello without cookie
  | .clientHello hello => hello.cookie.length > 0
  | _ => true

def sendFlightBegin : FlightM Unit :=
  modify fun s => { s with sendFlightBeginWasCalled := true, lastFlight := [] }

def bufferOutgoing (messages : List Message) : FlightM Unit :=
  modify fun s => { s with bufferedOutgoingMessages := s.bufferedOutgoingMessages ++ messages }

/-- The body of the loop of `sendFlight_processPartial`, which also puts the message into
`lastFlight`. -/
def processHandshake (retransmit : Bool) (handshake : Handshake) : FlightM Unit := do
  -- before finished messages, ALWAYS send a ChangeCipherSpec
  if handshake.msgType = .finished then
    bufferOutgoing [⟨.changeCipherSpec, ChangeCipherSpec.serialize⟩]
  -- for first-time messages, increment the sequence number
  if !retransmit then modify fun s => { s with lastSentSeqNum := s.lastSentSeqNum + 1 }
  let messageSeq := (← get).lastSentSeqNum.toNat
  let handshake := if retransmit then handshake else { handshake with messageSeq := messageSeq }
  modify fun s => { s with lastFlight := s.lastFlight ++ [handshake] }
  let fragment := handshake.toFragment
  -- for first-time messages, buffer the data for verification purposes
  if !retransmit && needsToHashMessage handshake then bufferHandshakeData [fragment]
  match fragment.split with
  | .error e => throw e
  | .ok fragments => bufferOutgoing (fragments.map fun f => ⟨.handshake, f.serialize⟩)

def sendFlightProcessPartial (flight : List Handshake) (retransmit : Bool := false) : FlightM Unit := do
  if !(← get).sendFlightBeginWasCalled then
    throw (.error "Need to call sendFlight_beginPartial() before using this function")
  flight.forM (processHandshake retransmit)

def sendFlightFinish (crypto : Crypto) (expectedResponses : List HandshakeType) : FlightM Unit := do
  modify fun s => { s with expectedResponses := some expectedResponses }
  callRecordLayer (RecordLayer.sendFlight crypto (← get).bufferedOutgoingMessages)
  modify fun s => { s with bufferedOutgoingMessages := [], sendFlightBeginWasCalled := false }

def sendFlight (crypto : Crypto) (flight : List Handshake)
    (expectedResponses : List HandshakeType) : FlightM Unit := do
  sendFlightBegin
  sendFlightProcessPartial flight
  sendFlightFinish crypto expectedResponses

/-! ## The flight handlers -/

/-- `computeVerifyData`, from the connection state of the epoch it picks. -/
def verifyData (crypto : Crypto) (connState : ConnectionState) (source : ConnectionEnd)
    (handshakeMessages : Bytes) : Except JsError Bytes :=
  let label := match source with
    | .server => ascii "server finished"
    | .client => ascii "client finished"
  match connState.cipherSuite with
  | none => .error .typeError
  | some suite =>
      match suite.prfAlgorithm, connState.masterSecret with
      | some prf, some masterSecret =>
          .ok (PRF crypto prf masterSecret label (crypto.hash prf handshakeMessages)
            suite.verifyDataLength)
      | _, _ => .error .typeError

def computeVerifyData (crypto : Crypto) (handshakeMessages : Bytes) (source : ConnectionEnd) :
    FlightM Bytes := do
  let rl := (← get).recordLayer
  let connState := match source with
    | .client => rl.nextWriteEpoch.connectionState
    | .server => rl.currentReadEpoch.connectionState
  match verifyData crypto connState source handshakeMessages with
  | .ok verifyData => return verifyData
  | .error e => throw e

def handleHelloVerifyRequest (opts : Options) (crypto : Crypto) (messages : List Handshake) :
    FlightM Unit := do
  match messages.getLast?, (← get).lastFlight.head? with
  | some ⟨_, .helloVerifyRequest hvr⟩, some ⟨messageSeq, .clientHello hello⟩ =>
      -- work around a bug in the IKEA gateway v1.15.x
      if opts.resetAntiReplayWindowBeforeServerHello then
        modify fun s =>
          { s with
            recordLayer := s.recordLayer.updateEpoch s.recordLayer.readEpochNr fun e =>
              { e with antiReplayWindow := .reset } }
      -- add the cookie to the client hello and send it again
      sendFlight crypto [⟨messageSeq, .clientHello { hello with cookie := hvr.cookie }⟩]
        [.serverHelloDone]
  | _, _ => throw .typeError

def handleServerHello (hello : ServerHello) : FlightM Unit := do
  modify (updateNextEpoch fun c =>
    { c with
      serverRandom := some hello.random.serialize
      cipherSuite := CipherSuites.byId hello.cipherSuite
      compressionAlgorithm := hello.compressionMethod })
  modify fun s =>
    let setVersion (c : ConnectionState) := { c with protocolVersion := hello.serverVersion }
    { s with
      recordLayer := (s.recordLayer.updateConnectionState s.recordLayer.writeEpochNr setVersion)
        |>.updateConnectionState (s.recordLayer.writeEpochNr + 1) setVersion }

/-- Only parses the identity hint of a PSK key exchange, and does nothing with it: what the memory
held before does not matter. -/
def handleServerKeyExchange (rawData : Bytes) : FlightM Unit := do
  match (← get).recordLayer.nextEpoch.connectionState.cipherSuite with
  | none => throw .typeError
  | some suite =>
      if suite.keyExchange = some .psk then
        match TLSStruct.deserialize (fun _ _ => 0) rawData ServerKeyExchange_PSK.spec 0 with
        | .error e => throw e
        | .ok _ => pure ()

-- `connectionState.computeMasterSecret(preMasterSecret)` of the next epoch.
def installKeys (crypto : Crypto) (psk : Bytes) : FlightM Unit := do
  match (← get).recordLayer.nextEpoch.connectionState.computeMasterSecret crypto (.ofPsk psk) with
  | .error e => throw e
  | .ok connState => modify (updateNextEpoch fun _ => connState)

/-- Builds and sends the flight of ClientKeyExchange, ChangeCipherSpec and Finished. -/
def sendFinishedFlight (crypto : Crypto) (identity : Bytes) : FlightM Unit := do
  -- in order to build the finished message, we need to process the partial flight so far
  sendFlightBegin
  sendFlightProcessPartial [⟨0, .clientKeyExchange (ClientKeyExchange_PSK.serialize identity)⟩]
  let verifyData ← computeVerifyData crypto (← get).allHandshakeData.flatten .client
  sendFlightProcessPartial [⟨0, .finished verifyData⟩]
  sendFlightFinish crypto [.finished]

/-- The key exchange algorithm as it appears in the error text. -/
def keyExchangeName : Option KeyExchangeAlgorithm → String
  | none => "null"
  | some algorithm => algorithm.name

/-- The case of ServerHelloDone itself; `false` where the handler returns from its loop. -/
def handleServerHelloDone (opts : Options) (crypto : Crypto) : FlightM Bool := do
  match (← get).recordLayer.nextEpoch.connectionState.cipherSuite with
  | none => throw .typeError
  | some suite =>
      if suite.keyExchange = some .psk then
        match opts.psk.head? with
        | none => throw .typeError
        | some (identity, psk) => do
            installKeys crypto psk
            sendFinishedFlight crypto identity
            return true
      else
        finishedCallback (some ⟨AlertLevel.fatal, AlertDescription.handshakeFailure⟩)
          (some (.error (keyExchangeName suite.keyExchange ++ " key exchange not implemented")))
        return false

def handleServerHelloDoneFlight (opts : Options) (crypto : Crypto) : List Handshake → FlightM Unit
  | [] => pure ()
  | msg :: messages => do
      let goOn ← match msg.body with
        | .serverHello hello => do
            handleServerHello hello
            pure true
        | .serverKeyExchange rawData => do
            handleServerKeyExchange rawData
            pure true
        | .serverHelloDone => handleServerHelloDone opts crypto
        | _ => pure true
      if goOn then handleServerHelloDoneFlight opts crypto messages

def handleFinished (crypto : Crypto) (messages : List Handshake) : FlightM Unit := do
  match messages.getLast? with
  | some ⟨_, .finished verifyData⟩ => do
      let expectedVerifyData ←
        computeVerifyData crypto (← get).allHandshakeData.flatten .server
      modify fun s => { s with isHandshaking := false }
      if verifyData = expectedVerifyData then
        finishedCallback none none
      else
        finishedCallback (some ⟨AlertLevel.fatal, AlertDescription.decryptError⟩)
          (some (.error "DTLS handshake failed"))
  | _ => throw .typeError

-- `this.handle[type](messages)`.
def handle (opts : Options) (crypto : Crypto) (type : HandshakeType) (messages : List Handshake) :
    FlightM Unit :=
  match type with
  | .helloVerifyRequest => handleHelloVerifyRequest opts crypto messages
  | .serverHelloDone => handleServerHelloDoneFlight opts crypto messages
  | .finished => handleFinished crypto messages
  | _ => throw .typeError

end FlightState

/-! ## Receiving messages -/

abbrev HandlerM := EStateM JsError ClientHandshakeHandler

namespace ClientHandshakeHandler

open FlightState

def callFlight {α : Type} (x : FlightM α) : HandlerM α :=
  onPart (·.toFlightState) (fun h s => { h with toFlightState := s }) x

/-- The fragments are removed by identity: all those of this message. -/
def tryAssembleFragments (memory : MessageMemory) (reference : FragmentedHandshake) :
    HandlerM Bool := do
  let allFragments :=
    FragmentedHandshake.findAllFragments (← get).incompleteMessages reference
  let assembled : Except JsError (Option Handshake) := do
    if ← FragmentedHandshake.isComplete allFragments then
      let reassembled ← FragmentedHandshake.reassemble memory.reassembled allFragments
      return some (← Handshake.fromFragment memory.body reassembled)
    else return none
  match assembled with
  | .error e => throw e
  | .ok none => return false
  | .ok (some message) => do
      modify fun h =>
        { h with
          completeMessages := h.completeMessages.set message.messageSeq message
          incompleteMessages := h.incompleteMessages.filter fun f => !f.sameMessage reference }
      return true

/-- The first part of `processIncomingMessage`: remembers the message; `true` where a message has
become complete. -/
def storeMessage (memory : MessageMemory) (msg : FragmentedHandshake) : HandlerM Bool := do
  if msg.isFragmented then
    modify fun h => { h with incompleteMessages := h.incompleteMessages ++ [msg] }
    tryAssembleFragments memory msg
  else
    match Handshake.fromFragment memory.body msg with
    | .error e => throw e
    | .ok message => do
        modify fun h =>
          { h with completeMessages := h.completeMessages.set msg.messageSeq message }
        return true

/-- The sequence numbers follow each other without interruption, from the one after `previous`. -/
def uninterrupted (previous : Int) : List Nat → Bool
  | [] => true
  | seqNum :: seqNums => (seqNum : Int) = previous + 1 ∧ uninterrupted seqNum seqNums

/-- The middle part of `processIncomingMessage`: the messages of a flight that is complete and
expected, with the last of them. -/
def completeFlight (h : ClientHandshakeHandler) : Option (List Handshake × Handshake) :=
  if uninterrupted h.lastProcessedSeqNum h.completeMessages.keys then
    match h.completeMessages.last?, h.expectedResponses with
    | some lastMsg, some expectedResponses =>
        if lastMsg.msgType ∈ expectedResponses then some (h.completeMessages.values, lastMsg)
        else none
    | _, _ => none
  else none

/-- The last part of `processIncomingMessage`: calls the handler of the flight. -/
def handleFlight (opts : Options) (crypto : Crypto) (messages : List Handshake)
    (lastMsg : Handshake) : HandlerM Unit := do
  modify fun h =>
    { h with
      expectedResponses := none
      lastProcessedSeqNum := lastMsg.messageSeq
      completeMessages := .empty }
  -- for the finished flight, only buffer the finished message AFTER handling it
  let hashed := if lastMsg.msgType = .finished then messages.dropLast else messages
  callFlight (bufferHandshakeData ((hashed.filter needsToHashMessage).map (·.toFragment)))
  match handle opts crypto lastMsg.msgType messages (← get).toFlightState with
  | .ok () s => do
      modify fun h => { h with toFlightState := s }
      if lastMsg.msgType = .finished then
        callFlight (bufferHandshakeData [lastMsg.toFragment])
  | .error e s => do
      modify fun h => { h with toFlightState := { s with isHandshaking := false } }
      callFlight (finishedCallback none (some e))

def processIncomingMessage (opts : Options) (crypto : Crypto) (memory : MessageMemory)
    (msg : FragmentedHandshake) : HandlerM Unit := do
  if ← storeMessage memory msg then
    match (← get).completeFlight with
    | some (messages, lastMsg) => handleFlight opts crypto messages lastMsg
    | none => pure ()

/-! ## Starting the handshake -/

def defaultCiphers : List CipherSuite :=
  [CipherSuites.TLS_PSK_WITH_3DES_EDE_CBC_SHA,
   CipherSuites.TLS_PSK_WITH_AES_128_CBC_SHA,
   CipherSuites.TLS_PSK_WITH_AES_256_CBC_SHA,
   CipherSuites.TLS_PSK_WITH_AES_128_CBC_SHA256,
   CipherSuites.TLS_PSK_WITH_AES_256_CBC_SHA384,
   CipherSuites.TLS_PSK_WITH_AES_128_GCM_SHA256,
   CipherSuites.TLS_PSK_WITH_AES_256_GCM_SHA384,
   CipherSuites.TLS_PSK_WITH_AES_128_CCM,
   CipherSuites.TLS_PSK_WITH_AES_256_CCM,
   CipherSuites.TLS_PSK_WITH_AES_128_CCM_8,
   CipherSuites.TLS_PSK_WITH_AES_256_CCM_8]

/-- The ClientHello of `renegotiate`; `(~1, ~2)` is DTLSv1.2. -/
def clientHello (opts : Options) (random : Random) : ClientHello where
  clientVersion := ⟨some (-2), some (-3)⟩
  random := random
  sessionId := []
  cookie := []
  cipherSuites :=
    ((opts.ciphers.map fun keys => keys.map Subtype.val).getD defaultCiphers).map fun cs =>
      some (cs.id : Int)
  compressionMethods := [CompressionMethod.null]
  extensions := []

/-- The fields as `renegotiate` resets them on a fresh object. -/
def reset (recordLayer : RecordLayer) : ClientHandshakeHandler where
  recordLayer := recordLayer
  isHandshaking := true
  lastSentSeqNum := -1
  lastFlight := []
  expectedResponses := some []
  allHandshakeData := []
  bufferedOutgoingMessages := []
  sendFlightBeginWasCalled := false
  finishedCalls := []
  lastProcessedSeqNum := -1
  incompleteMessages := []
  completeMessages := .empty

/-- The first part of `renegotiate`, on any object; a fresh one is as `reset` has it. -/
def resetVariables (h : ClientHandshakeHandler) : ClientHandshakeHandler :=
  { h with
    isHandshaking := true
    lastProcessedSeqNum := -1
    lastSentSeqNum := -1
    incompleteMessages := []
    completeMessages := .empty
    expectedResponses := some []
    allHandshakeData := [] }

example (recordLayer : RecordLayer) : (reset recordLayer).resetVariables = reset recordLayer := rfl

-- `renegotiate`, which the constructor calls.
def renegotiate (opts : Options) (crypto : Crypto) (random : Random) : HandlerM Unit :=
  callFlight do
    -- remember this for crypto stuff
    modify (updateNextEpoch fun c => { c with clientRandom := some random.serialize })
    sendFlight crypto [⟨0, .clientHello (clientHello opts random)⟩]
      [.serverHelloDone, .helloVerifyRequest]

end ClientHandshakeHandler

end DtlsClient
