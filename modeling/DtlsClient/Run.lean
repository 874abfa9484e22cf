import DtlsClient.Library.Machine
import DtlsClient.Socket

/-!
# Runs of a client

A run takes one callback after the other, in any order: datagrams with any content from any sender,
timers, the callbacks of the UDP socket, and the calls an application makes.  The loop of
`udp_onMessage` is cut into one action for each message, so that the states between two messages are
states of the run as well.  An application may call the socket from an event listener, so that its
calls are possible between two messages too.
-/

open Library

namespace DtlsClient

/-- A message that `receive` returned and the loop of `udp_onMessage` has not reached yet. -/
structure Delivery where
  memory : MessageMemory
  msg : Message
  rinfo : RemoteInfo

structure Config where
  socket : Socket
  pending : List Delivery

inductive Action where
  | datagram (memory : Nat → Memory) (messageMemory : Nat → MessageMemory) (udpMsg : Bytes)
      (rinfo : RemoteInfo)
  /-- the next round of the loop of `udp_onMessage` -/
  | next
  /-- the UDP socket calls back after having sent an alert -/
  | callback (i : Nat)
  | handshakeTimeout
  | udpClose
  | udpError (e : JsError)
  | send (data : Bytes)
  | close
  | sendAlert (alert : Alert)

namespace Config

def recordLayer (c : Config) : RecordLayer := c.socket.recordLayer

/-- A datagram is only taken while the socket listens, and not before the last one is done with. -/
def takesDatagram (c : Config) : Bool := !c.socket.isClosed && c.pending.isEmpty

-- The records of the datagram that a step receives, as far as they pass the filter.
def receivedRecords (c : Config) : Action → List DTLSCiphertext
  | .datagram memory _ udpMsg _ =>
      if c.takesDatagram then (RecordLayer.packets memory udpMsg).filter c.recordLayer.admits else []
  | _ => []

def deliveries (messageMemory : Nat → MessageMemory) (rinfo : RemoteInfo)
    (messages : List Message) : List Delivery :=
  messages.zipIdx.map fun (msg, i) => ⟨messageMemory i, msg, rinfo⟩

def receiveDatagram (crypto : Crypto) (memory : Nat → Memory)
    (messageMemory : Nat → MessageMemory) (udpMsg : Bytes) (rinfo : RemoteInfo) (c : Config) :
    Config :=
  if c.takesDatagram then
    let (messages, rl) := c.recordLayer.receive crypto memory udpMsg
    ⟨c.socket.setRecordLayer rl, deliveries messageMemory rinfo messages⟩
  else c

/-- An exception leaves the loop, and with it the rest of the datagram is lost. -/
def handleNext (opts : Options) (crypto : Crypto) (c : Config) : Config :=
  match c.pending with
  | [] => c
  | d :: pending =>
      match Socket.handleMessage opts crypto d.memory d.msg d.rinfo c.socket with
      | .ok () s => ⟨s, pending⟩
      | .error _ s => ⟨s, []⟩

def runCallback (i : Nat) (s : Socket) : Socket :=
  match s.pendingCallbacks[i]? with
  | none => s
  | some callback =>
      Socket.runCallback callback { s with pendingCallbacks := s.pendingCallbacks.eraseIdx i }

end Config

open Config in
/-- An action that is not possible in a state leaves it as it is. -/
def step (opts : Options) (crypto : Crypto) (c : Config) : Action → Config
  | .datagram memory messageMemory udpMsg rinfo =>
      c.receiveDatagram crypto memory messageMemory udpMsg rinfo
  | .next => c.handleNext opts crypto
  | .callback i => { c with socket := runCallback i c.socket }
  | .handshakeTimeout => { c with socket := c.socket.expectHandshake }
  | .udpClose => { c with socket := c.socket.udpOnClose }
  | .udpError e => { c with socket := c.socket.killConnection (some e) }
  | .send data => { c with socket := finalState (Socket.send crypto data) c.socket }
  | .close => { c with socket := finalState (Socket.close crypto) c.socket }
  | .sendAlert alert =>
      { c with socket := finalState (Socket.sendAlert crypto alert none) c.socket }

/-- A client from `udp_onListening` on, with the randomness drawn for its ClientHello. -/
def client (opts : Options) (crypto : Crypto) (random : Random) : Machine Config Action where
  init := ⟨finalState (Socket.udpOnListening opts crypto random) .new, []⟩
  step := step opts crypto

/-! ## `udp_onMessage` as a run -/

theorem handleMessages_eq_run (opts : Options) (crypto : Crypto)
    (rinfo : RemoteInfo) (deliveries : List Delivery) (hrinfo : ∀ d ∈ deliveries, d.rinfo = rinfo)
    (s : Socket) :
    (List.replicate deliveries.length Action.next).foldl (step opts crypto) ⟨s, deliveries⟩ =
      ⟨finalState (Socket.handleMessages opts crypto rinfo
        (deliveries.map fun d => (d.memory, d.msg))) s, []⟩ := by
  have hstuck : ∀ n s', (List.replicate n Action.next).foldl (step opts crypto) ⟨s', []⟩ =
      ⟨s', []⟩ := by
    intro n s'
    induction n with
    | zero => rfl
    | succ n ih => exact ih
  induction deliveries generalizing s with
  | nil => rfl
  | cons d deliveries ih =>
      rcases d with ⟨memory, msg, rinfo'⟩
      have heq : rinfo' = rinfo := hrinfo _ List.mem_cons_self
      subst heq
      have hrest : ∀ d ∈ deliveries, d.rinfo = rinfo' :=
        fun d hd => hrinfo d (List.mem_cons_of_mem _ hd)
      rw [List.length_cons, List.replicate_succ, List.foldl_cons, List.map_cons]
      have hnext : step opts crypto ⟨s, ⟨memory, msg, rinfo'⟩ :: deliveries⟩ .next =
          match Socket.handleMessage opts crypto memory msg rinfo' s with
          | .ok () s' => ⟨s', deliveries⟩
          | .error _ s' => ⟨s', []⟩ := rfl
      rw [hnext, Socket.handleMessages, finalState_bind]
      cases hmsg : Socket.handleMessage opts crypto memory msg rinfo' s with
      | ok a s' => exact ih hrest s'
      | error e s' => exact hstuck _ s'

/-- One call of `udp_onMessage` is the action for its datagram, followed by as many rounds of the loop
as `receive` returned messages. -/
theorem udpOnMessage_eq_run (opts : Options) (crypto : Crypto) (memory : Nat → Memory)
    (messageMemory : Nat → MessageMemory) (udpMsg : Bytes) (rinfo : RemoteInfo) (s : Socket)
    (hopen : s.isClosed = false) :
    (.datagram memory messageMemory udpMsg rinfo ::
        List.replicate (s.recordLayer.receive crypto memory udpMsg).1.length Action.next).foldl
      (step opts crypto) ⟨s, []⟩ =
      ⟨finalState (Socket.udpOnMessage opts crypto memory messageMemory udpMsg rinfo) s, []⟩ := by
  have hstep : step opts crypto ⟨s, []⟩ (.datagram memory messageMemory udpMsg rinfo) =
      ⟨s.setRecordLayer (s.recordLayer.receive crypto memory udpMsg).2,
        Config.deliveries messageMemory rinfo (s.recordLayer.receive crypto memory udpMsg).1⟩ := by
    show Config.receiveDatagram crypto memory messageMemory udpMsg rinfo ⟨s, []⟩ = _
    rw [Config.receiveDatagram, Config.takesDatagram, hopen]
    rfl
  have hlen : (s.recordLayer.receive crypto memory udpMsg).1.length =
      (Config.deliveries messageMemory rinfo (s.recordLayer.receive crypto memory udpMsg).1).length
      := by
    rw [Config.deliveries, List.length_map, List.length_zipIdx]
  rw [List.foldl_cons, hstep, hlen, handleMessages_eq_run opts crypto rinfo]
  · rw [Config.deliveries, List.map_map]
    rfl
  · intro d hd
    rcases List.mem_map.mp hd with ⟨m, _, rfl⟩
    rfl

/-! ## A complete handshake

The inputs of one run that gets through: the primitives are as simple as their lengths allow, and the
server chooses `TLS_PSK_WITH_AES_128_CCM_8` without a HelloVerifyRequest. -/

namespace Sample

def crypto : Crypto where
  hash _ _ := []
  hmac algorithm _ _ := List.replicate algorithm.keyAndHashLength 0
  hmac_length _ _ _ := List.length_replicate ..
  encryptCBC _ _ _ plaintext := plaintext
  decryptCBC _ _ _ ciphertext := some ciphertext
  encryptAEAD _ _ _ plaintext _ authTagLength := ⟨plaintext, List.replicate authTagLength 0⟩
  decryptAEAD _ _ _ ciphertext _ _ := some ⟨ciphertext, true⟩
  randomBytes _ _ length := List.replicate length 0

def opts : Options := { psk := [([0x61], [0x62])] }

def random : Random := ⟨some 0, List.replicate 28 0⟩

def rinfo : RemoteInfo := ⟨"127.0.0.1", 5684⟩

def memory (b : UInt8) : MessageMemory := ⟨fun _ _ => b, fun _ => b, fun _ _ => b⟩

def datagram (udpMsg : Bytes) (b : UInt8 := 0) : Action :=
  .datagram (fun _ _ => b) (fun _ => memory b) udpMsg rinfo

def record (type : ContentType) (epoch sequenceNumber : Nat) (fragment : Bytes) : Bytes :=
  DTLSCiphertext.serialize ⟨type, ⟨some 254, some 253⟩, epoch, sequenceNumber, fragment⟩

def handshake (msgType : HandshakeType) (messageSeq : Nat) (body : Bytes) : Bytes :=
  FragmentedHandshake.serialize ⟨msgType, body.length, messageSeq, 0, body⟩

/-- A fragment as the server protects it: nonce, ciphertext and tag. -/
def sealed (fragment : Bytes) : Bytes := List.replicate 8 0 ++ fragment ++ List.replicate 8 0

def serverHello : Bytes := [254, 253] ++ List.replicate 32 0 ++ [0, 0xC0, 0xA8, 0]

def serverFlight : Bytes :=
  record .handshake 0 0 (handshake .serverHello 0 serverHello) ++
    record .handshake 0 1 (handshake .serverHelloDone 1 [])

def finishedFlight : Bytes :=
  record .changeCipherSpec 0 2 [1] ++
    record .handshake 1 0 (sealed (handshake .finished 2 (List.replicate 12 0)))

def serverHelloMessage : FragmentedHandshake :=
  ⟨.serverHello, serverHello.length, 0, 0, serverHello⟩

def serverHelloParsed : Handshake where
  messageSeq := 0
  body := .serverHello
    ⟨⟨some 254, some 253⟩, ⟨some 0, List.replicate 28 0⟩, [], some 0xC0A8, some 0, []⟩

def serverHelloDoneMessage : FragmentedHandshake := ⟨.serverHelloDone, 0, 1, 0, []⟩

def keyExchange : List Action := [datagram serverFlight, .next, .next]

def completeHandshake : List Action := keyExchange ++ [datagram finishedFlight, .next, .next]

def run (actions : List Action) : Config := (client opts crypto random).run actions

example : (run completeHandshake).socket.events = [.connected] := by decide +kernel

end Sample

end DtlsClient
