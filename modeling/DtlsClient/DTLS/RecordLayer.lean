import DtlsClient.TLS.ConnectionState
import DtlsClient.TLS.AntiReplayWindow
import Mathlib.Tactic.Common

/-!
# `DTLS/RecordLayer`

Epochs, sending and receiving of records.  The UDP socket is the list of the datagrams it was given.
-/

open Library

namespace DtlsClient

structure Epoch where
  index : Nat
  connectionState : ConnectionState
  /-- `-1` before the first record -/
  writeSequenceNumber : Int
  antiReplayWindow : AntiReplayWindow
deriving DecidableEq, Repr

def createEpoch (index : Nat) : Epoch := ⟨index, .new, -1, .reset⟩

/-- There is always an epoch after the later of the read and the write epoch, and none beyond it. -/
structure RecordLayer where
  /-- what was handed to `udpSocket.send`, first to last -/
  udpSocket : List Bytes
  epochs : List Epoch
  readEpochNr : Nat
  writeEpochNr : Nat
  epochs_length : epochs.length = max readEpochNr writeEpochNr + 2
deriving DecidableEq, Repr

namespace RecordLayer

def new : RecordLayer where
  udpSocket := []
  epochs := [createEpoch 0, createEpoch 1]
  readEpochNr := 0
  writeEpochNr := 0
  epochs_length := rfl

/-- `epochs[i]`; every getter below asks for an epoch that exists, by `epochs_length`. -/
def epoch (rl : RecordLayer) (i : Nat) : Epoch := rl.epochs.getD i (createEpoch i)

def nextEpochNr (rl : RecordLayer) : Nat := max rl.readEpochNr rl.writeEpochNr + 1

def currentReadEpoch (rl : RecordLayer) : Epoch := rl.epoch rl.readEpochNr
def nextReadEpoch (rl : RecordLayer) : Epoch := rl.epoch (rl.readEpochNr + 1)
def currentWriteEpoch (rl : RecordLayer) : Epoch := rl.epoch rl.writeEpochNr
def nextWriteEpoch (rl : RecordLayer) : Epoch := rl.epoch (rl.writeEpochNr + 1)
def nextEpoch (rl : RecordLayer) : Epoch := rl.epoch rl.nextEpochNr

def updateEpoch (i : Nat) (f : Epoch → Epoch) (rl : RecordLayer) : RecordLayer where
  udpSocket := rl.udpSocket
  epochs := rl.epochs.modify i f
  readEpochNr := rl.readEpochNr
  writeEpochNr := rl.writeEpochNr
  epochs_length := by rw [List.length_modify]; exact rl.epochs_length

def updateConnectionState (i : Nat) (f : ConnectionState → ConnectionState) :
    RecordLayer → RecordLayer :=
  updateEpoch i fun e => { e with connectionState := f e.connectionState }

/-- Where `ensureNextEpoch` finds no pending epoch it creates one. -/
def ensureNextEpoch (epochs : List Epoch) (nextEpochNr : Nat) : List Epoch :=
  if epochs.length ≤ nextEpochNr then epochs ++ [createEpoch nextEpochNr] else epochs

def advanceReadEpoch (rl : RecordLayer) : RecordLayer where
  udpSocket := rl.udpSocket
  epochs := ensureNextEpoch rl.epochs (max (rl.readEpochNr + 1) rl.writeEpochNr + 1)
  readEpochNr := rl.readEpochNr + 1
  writeEpochNr := rl.writeEpochNr
  epochs_length := by
    have h := rl.epochs_length
    unfold ensureNextEpoch
    split
    · rw [List.length_append, List.length_singleton]; omega
    · omega

def advanceWriteEpoch (rl : RecordLayer) : RecordLayer where
  udpSocket := rl.udpSocket
  epochs := ensureNextEpoch rl.epochs (max rl.readEpochNr (rl.writeEpochNr + 1) + 1)
  readEpochNr := rl.readEpochNr
  writeEpochNr := rl.writeEpochNr + 1
  epochs_length := by
    have h := rl.epochs_length
    unfold ensureNextEpoch
    split
    · rw [List.length_append, List.length_singleton]; omega
    · omega

def udpSend (buf : Bytes) (rl : RecordLayer) : RecordLayer :=
  { rl with udpSocket := rl.udpSocket ++ [buf] }

/-! ## Sending -/

/-- `processOutgoingMessage`.  The connection state always has a protocol version, so that the
fallback to `DTLSVersion` is never taken. -/
def processOutgoingMessage (crypto : Crypto) (msg : Message) : EStateM JsError RecordLayer Bytes := do
  let epochNr := (← get).writeEpochNr
  -- sequence number increased by 1
  modify (updateEpoch epochNr fun e => { e with writeSequenceNumber := e.writeSequenceNumber + 1 })
  let epoch := (← get).epoch epochNr
  let packet : DTLSPlaintext :=
    ⟨msg.type, epoch.connectionState.protocolVersion, epochNr, epoch.writeSequenceNumber.toNat,
      msg.data⟩
  let packet := DTLSCompressed.compress packet id
  let buf ← match epoch.connectionState.cipherSuite with
    | none => throw .typeError
    | some suite =>
        if suite.cipherType = .null then pure packet.serialize
        else
          match epoch.connectionState.cipher with
          | none => throw .typeError
          | some delegate => do
              modify (updateConnectionState epochNr .withCipher)
              match delegate.cipher crypto packet with
              | .ok packet => pure packet.serialize
              | .error e => throw e
  -- advance the write epoch, so we use the new params for sending the next messages
  if msg.type = .changeCipherSpec then modify advanceWriteEpoch
  return buf

def send (crypto : Crypto) (msg : Message) : EStateM JsError RecordLayer Unit := do
  let buf ← processOutgoingMessage crypto msg
  modify (udpSend buf)

def processOutgoingMessages (crypto : Crypto) : List Message → EStateM JsError RecordLayer Bytes
  | [] => pure []
  | msg :: messages => do
      let buf ← processOutgoingMessage crypto msg
      let bufs ← processOutgoingMessages crypto messages
      return buf ++ bufs

def sendFlight (crypto : Crypto) (messages : List Message) : EStateM JsError RecordLayer Unit := do
  let buf ← processOutgoingMessages crypto messages
  modify (udpSend buf)

/-! ## Receiving -/

/-- The parse loop of `receive` from `offset` on.  A record takes at least its header of 13 bytes,
so that as many rounds as the datagram has bytes are enough. -/
def parsePackets (memory : Nat → Memory) (buf : Bytes) : Nat → Nat → List DTLSCiphertext
  | 0, _ => []
  | fuel + 1, offset =>
      if offset < buf.length then
        match DTLSCiphertext.fromBuffer memory buf offset with
        | .error _ => []
        | .ok (packet, readBytes) =>
            if readBytes = 0 then []
            else packet :: parsePackets memory buf fuel (offset + readBytes)
      else []

def packets (memory : Nat → Memory) (buf : Bytes) : List DTLSCiphertext :=
  parsePackets memory buf buf.length 0

/-- The filter of `receive`: a known epoch, not an old one, and a sequence number that the epoch's
window does not refuse.  Records from the upcoming epoch pass. -/
def admits (rl : RecordLayer) (p : DTLSCiphertext) : Bool :=
  if rl.epochs.length ≤ p.epoch then false
  else if p.epoch < rl.readEpochNr then false
  else (rl.epoch p.epoch).antiReplayWindow.mayReceive p.sequenceNumber

/-- `connectionState.Decipher(p)`; `none` where the getter or the decipher throws. -/
def decipherPacket (crypto : Crypto) (rl : RecordLayer) (p : DTLSCiphertext) :
    Option DTLSCompressed :=
  (rl.epoch p.epoch).connectionState.decipher.bind fun d => (d.decipher crypto p).toOption

/-- Deciphers the records one after the other, which creates the deciphers that were not there yet.
A record whose decipher throws is left out. -/
def decipherPackets (crypto : Crypto) :
    List DTLSCiphertext → RecordLayer → List DTLSCompressed × RecordLayer
  | [], rl => ([], rl)
  | p :: packets, rl =>
      let result := rl.decipherPacket crypto p
      let (rest, rl') :=
        decipherPackets crypto packets (rl.updateConnectionState p.epoch .withDecipher)
      (result.toList ++ rest, rl')

def markAsReceived (rl : RecordLayer) (p : DTLSPlaintext) : RecordLayer :=
  rl.updateEpoch p.epoch fun e =>
    { e with antiReplayWindow := e.antiReplayWindow.markAsReceived p.sequenceNumber }

def receive (crypto : Crypto) (memory : Nat → Memory) (buf : Bytes) (rl : RecordLayer) :
    List Message × RecordLayer :=
  let (deciphered, rl') := decipherPackets crypto ((packets memory buf).filter rl.admits) rl
  let plaintexts := deciphered.map fun p => p.decompress id
  (plaintexts.map fun p => ⟨p.type, p.fragment⟩, plaintexts.foldl markAsReceived rl')

def MTU : Nat := 1280
def MTU_OVERHEAD : Nat := 20 + 8
def MAX_PAYLOAD_SIZE : Nat := MTU - MTU_OVERHEAD

end RecordLayer

end DtlsClient
