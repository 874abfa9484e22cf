import DtlsClient.DTLS.HandshakeHandler
import DtlsClient.Properties.Keys

/-!
# The flights

What the flight handlers do to the record layer, to the transcript and to the responses that are
expected next.
-/

open Library

namespace DtlsClient

/-! ## Splitting -/

-- The loop of `split` ends after the first fragment.
theorem FragmentedHandshake.split_eq (f : FragmentedHandshake) {max : Nat} (hmax : 0 < max) :
    f.split max = .ok (if f.fragment = [] then []
      else [⟨f.msgType, f.fragment.length, f.messageSeq, 0, f.fragment.take max⟩]) := by
  have hdone : ∀ fuel start x, splitLoop f max fuel start [x] = .ok [x] := by
    intro fuel start x
    cases fuel <;> simp [splitLoop]
  unfold split
  cases hlen : f.fragment.length with
  | zero =>
      rw [if_pos (List.length_eq_zero_iff.mp hlen)]
      rfl
  | succ n =>
      have hne : f.fragment ≠ [] := by
        intro hnil
        rw [hnil] at hlen
        cases hlen
      rw [splitLoop, if_pos ⟨rfl, by omega⟩, if_neg hne]
      simp only [Nat.zero_add, List.drop_zero, List.length_take, Nat.sub_zero]
      rw [if_neg (by omega), List.nil_append, hdone, ← hlen, ← List.take_eq_take_min]

-- It never throws: a fragment that is cut off has at least one byte.
theorem FragmentedHandshake.split_ok (f : FragmentedHandshake) :
    ∃ fragments, f.split = .ok fragments := by
  have hmax : 0 < RecordLayer.MAX_PAYLOAD_SIZE - headerLength := by decide
  exact ⟨_, f.split_eq hmax⟩

/-! ## Sending the messages of a flight -/

/-- Only the cached cipher differs. -/
def ConnectionState.OnlyCipher (c c' : ConnectionState) : Prop :=
  c' = { c with cachedCipher := c'.cachedCipher }

theorem ConnectionState.OnlyCipher.trans {c c' c'' : ConnectionState} (h : c.OnlyCipher c')
    (h' : c'.OnlyCipher c'') : c.OnlyCipher c'' := by
  unfold OnlyCipher at *
  rw [h', h]

namespace RecordLayer

def isChangeCipherSpec (msg : Message) : Bool := msg.type = .changeCipherSpec

/-- What sending the messages of a flight, or a single one, does to the record layer. -/
structure SentMessages (crypto : Crypto) (keyed : Bool) (messages : List Message)
    (rl rl' : RecordLayer) : Prop where
  inv : EpochsInv crypto keyed rl'
  readEpochNr : rl'.readEpochNr = rl.readEpochNr
  writeEpochNr : rl'.writeEpochNr = rl.writeEpochNr + messages.countP isChangeCipherSpec
  udpSocket : rl'.udpSocket = rl.udpSocket
  connState : ∀ i, (rl.connState i).OnlyCipher (rl'.connState i)

/-- At most one ChangeCipherSpec is among the messages, and only before the first switch. -/
def MaySend (keyed : Bool) (messages : List Message) (rl : RecordLayer) : Prop :=
  rl.writeEpochNr + messages.countP isChangeCipherSpec ≤ 1 ∧
    (0 < messages.countP isChangeCipherSpec → keyed = true)

theorem maySend_of_countP_eq_zero {keyed : Bool} {messages : List Message} {rl : RecordLayer}
    (hcount : messages.countP isChangeCipherSpec = 0) (hle : rl.writeEpochNr ≤ 1) :
    MaySend keyed messages rl :=
  ⟨by omega, fun hpos => by omega⟩

theorem processOutgoingMessage_sent {crypto : Crypto} {keyed : Bool} {msg : Message}
    {rl : RecordLayer} (hinv : EpochsInv crypto keyed rl) (hmay : MaySend keyed [msg] rl) :
    Ends (processOutgoingMessage crypto msg) rl
      (fun _ rl' => SentMessages crypto keyed [msg] rl rl') (fun _ _ => False) := by
  refine (processOutgoingMessage_ends crypto msg rl hinv.ready).mono (fun buf rl' hout => ?_)
    fun _ _ h => h
  have hcount : [msg].countP isChangeCipherSpec = if msg.type = .changeCipherSpec then 1 else 0 := by
    rw [List.countP_singleton, isChangeCipherSpec]
    simp only [decide_eq_true_eq]
  rcases hmay with ⟨hle, hkeyed⟩
  rw [hcount] at hle hkeyed
  refine ⟨hinv.outgoing hout fun hccs => ?_, hout.readEpochNr, ?_, hout.udpSocket, fun i => ?_⟩
  · rw [if_pos hccs] at hle hkeyed
    exact ⟨by omega, hkeyed Nat.one_pos⟩
  · rw [hout.writeEpochNr, hcount]
    split <;> rfl
  · rcases hout.connState i with h | ⟨_, h, _⟩ <;> rw [h] <;> rfl

theorem processOutgoingMessages_sent {crypto : Crypto} {keyed : Bool} {messages : List Message}
    {rl : RecordLayer} (hinv : EpochsInv crypto keyed rl) (hmay : MaySend keyed messages rl) :
    Ends (processOutgoingMessages crypto messages) rl
      (fun _ rl' => SentMessages crypto keyed messages rl rl') (fun _ _ => False) := by
  induction messages generalizing rl with
  | nil => exact ⟨hinv, rfl, rfl, rfl, fun _ => rfl⟩
  | cons msg messages ih =>
      have hcount : (msg :: messages).countP isChangeCipherSpec =
          [msg].countP isChangeCipherSpec + messages.countP isChangeCipherSpec := by
        rw [← List.singleton_append, List.countP_append]
      rcases hmay with ⟨hle, hkeyed⟩
      rw [hcount] at hle hkeyed
      rw [processOutgoingMessages, ends_bind]
      have hmsg : MaySend keyed [msg] rl := ⟨by omega, fun h => hkeyed (by omega)⟩
      have hfirst := processOutgoingMessage_sent hinv hmsg
      refine hfirst.mono (fun buf rl1 h1 => ?_) fun _ _ h => h
      rw [ends_bind]
      have hrest := ih h1.inv ⟨by rw [h1.writeEpochNr]; omega, fun h => hkeyed (by omega)⟩
      refine hrest.mono (fun bufs rl2 h2 => ?_) fun _ _ h => h
      refine ⟨h2.inv, h2.readEpochNr.trans h1.readEpochNr, ?_, h2.udpSocket.trans h1.udpSocket,
        fun i => (h1.connState i).trans (h2.connState i)⟩
      rw [h2.writeEpochNr, h1.writeEpochNr, hcount]
      omega

end RecordLayer

namespace FlightState

/-- The datagram part of a handshake message: its fragments, and a ChangeCipherSpec before Finished. -/
def outgoingMessages (handshake : Handshake) (fragments : List FragmentedHandshake) :
    List Message :=
  (if handshake.msgType = .finished then [⟨.changeCipherSpec, ChangeCipherSpec.serialize⟩] else []) ++
    fragments.map fun f => ⟨.handshake, f.serialize⟩

def numbered (f : FlightState) (handshake : Handshake) : Handshake :=
  { handshake with messageSeq := (f.lastSentSeqNum + 1).toNat }

-- The state after a handshake message is buffered for the first time.
def withMessage (f : FlightState) (handshake : Handshake) (fragments : List FragmentedHandshake) :
    FlightState :=
  { f with
    lastSentSeqNum := f.lastSentSeqNum + 1
    lastFlight := f.lastFlight ++ [handshake]
    allHandshakeData := f.allHandshakeData ++
      if needsToHashMessage handshake then [handshake.toFragment.serialize] else []
    bufferedOutgoingMessages := f.bufferedOutgoingMessages ++ outgoingMessages handshake fragments }

theorem processHandshake_ends (handshake : Handshake) (f : FlightState) :
    Ends (processHandshake false handshake) f
      (fun _ f' => ∃ fragments, (f.numbered handshake).toFragment.split = .ok fragments ∧
        f' = f.withMessage (f.numbered handshake) fragments) (fun _ _ => False) := by
  rcases (f.numbered handshake).toFragment.split_ok with ⟨fragments, hsplit⟩
  have hnumbered : (⟨(f.lastSentSeqNum + 1).toNat, handshake.body⟩ : Handshake) =
      f.numbered handshake := rfl
  have htype : (f.numbered handshake).msgType = handshake.msgType := rfl
  unfold processHandshake bufferOutgoing bufferHandshakeData
  by_cases hfin : handshake.msgType = .finished <;>
  by_cases hhash : needsToHashMessage (f.numbered handshake) = true <;>
  · simp only [hfin, hhash, hsplit, hnumbered, if_true, if_false, Bool.not_false, Bool.true_and,
      Bool.false_eq_true, ends_bind, ends_modify, ends_get]
    refine ⟨fragments, rfl, ?_⟩
    simp only [withMessage, outgoingMessages, htype, hfin, hhash, if_true, if_false,
      Bool.false_eq_true, List.append_assoc, List.append_nil, List.nil_append, List.map_cons,
      List.map_nil]

theorem sendFlightProcessPartial_ends (handshake : Handshake) (f : FlightState)
    (hbegin : f.sendFlightBeginWasCalled = true) :
    Ends (sendFlightProcessPartial [handshake]) f
      (fun _ f' => ∃ fragments, (f.numbered handshake).toFragment.split = .ok fragments ∧
        f' = f.withMessage (f.numbered handshake) fragments) (fun _ _ => False) := by
  unfold sendFlightProcessPartial
  simp only [ends_bind, ends_get, hbegin, Bool.not_true, Bool.false_eq_true, if_false, List.forM_eq_forM,
    List.forM_cons, List.forM_nil, ends_pure]
  exact processHandshake_ends handshake f

-- The state after a flight is sent as `datagram`.
def withFlight (f : FlightState) (expectedResponses : List HandshakeType) (datagram : Bytes)
    (rl : RecordLayer) : FlightState :=
  { f with
    expectedResponses := some expectedResponses
    recordLayer := rl.udpSend datagram
    bufferedOutgoingMessages := []
    sendFlightBeginWasCalled := false }

theorem sendFlightFinish_ends {crypto : Crypto} (keyed : Bool) {f : FlightState}
    (hinv : EpochsInv crypto keyed f.recordLayer)
    (hmay : RecordLayer.MaySend keyed f.bufferedOutgoingMessages f.recordLayer)
    (expectedResponses : List HandshakeType) :
    Ends (sendFlightFinish crypto expectedResponses) f
      (fun _ f' => ∃ datagram rl',
        RecordLayer.processOutgoingMessages crypto f.bufferedOutgoingMessages f.recordLayer =
          .ok datagram rl' ∧
        RecordLayer.SentMessages crypto keyed f.bufferedOutgoingMessages f.recordLayer rl' ∧
        f' = f.withFlight expectedResponses datagram rl') (fun _ _ => False) := by
  rcases (RecordLayer.processOutgoingMessages_sent hinv hmay).exists_ok with
    ⟨datagram, rl', hok, hsent⟩
  unfold sendFlightFinish callRecordLayer RecordLayer.sendFlight
  simp only [ends_bind, ends_get, ends_modify, ends_onPart, ends_of_eq_ok hok]
  exact ⟨datagram, rl', hok, hsent, rfl⟩

/-! ## What is waited for -/

/-- The datagram is the client's flight of ClientKeyExchange, ChangeCipherSpec and Finished. -/
structure IsFinishedFlight (crypto : Crypto) (keyExchange finished : Handshake)
    (datagram : Bytes) : Prop where
  keyExchange_type : keyExchange.msgType = .clientKeyExchange
  finished_type : finished.msgType = .finished
  sent : ∃ fragments fragments' rl rl', keyExchange.toFragment.split = .ok fragments ∧
    finished.toFragment.split = .ok fragments' ∧
    RecordLayer.processOutgoingMessages crypto
      ((fragments.map fun f => ⟨.handshake, f.serialize⟩) ++
        ⟨.changeCipherSpec, ChangeCipherSpec.serialize⟩ ::
        fragments'.map fun f => ⟨.handshake, f.serialize⟩) rl = .ok datagram rl'

/-- That flight was sent, and its Finished message is part of the transcript. -/
def FinishedFlightSent (crypto : Crypto) (f : FlightState) : Prop :=
  ∃ keyExchange finished datagram, IsFinishedFlight crypto keyExchange finished datagram ∧
    datagram ∈ f.recordLayer.udpSocket ∧ finished.toFragment.serialize ∈ f.allHandshakeData

/-- What is known of the state while these responses are expected. -/
inductive Awaits (crypto : Crypto) (f : FlightState) : Option (List HandshakeType) → Prop
  | hello (seq : Nat) (hello : ClientHello) (hwrite : f.recordLayer.writeEpochNr = 0)
      (hclear : (f.recordLayer.connState 1).cipherSuite =
        some CipherSuites.TLS_NULL_WITH_NULL_NULL)
      (hflight : f.lastFlight = [⟨seq, .clientHello hello⟩]) :
      Awaits crypto f (some [.serverHelloDone, .helloVerifyRequest])
  | cookie (hwrite : f.recordLayer.writeEpochNr = 0)
      (hclear : (f.recordLayer.connState 1).cipherSuite =
        some CipherSuites.TLS_NULL_WITH_NULL_NULL) :
      Awaits crypto f (some [.serverHelloDone])
  | finished (hwrite : f.recordLayer.writeEpochNr = 1) (hsent : FinishedFlightSent crypto f) :
      Awaits crypto f (some [.finished])
  | nothing : Awaits crypto f none

/-- Epoch 1 is keyed exactly when the client writes in it. -/
def keyed (f : FlightState) : Bool := f.recordLayer.writeEpochNr == 1

structure Inv (crypto : Crypto) (f : FlightState) : Prop where
  epochs : EpochsInv crypto f.keyed f.recordLayer
  buffer : f.bufferedOutgoingMessages = []
  awaits : Awaits crypto f f.expectedResponses

/-- From one state to a later one the read epoch stays, the write epoch moves on at most once, and
only together with the read epoch's successor; no decipher is created. -/
structure Progress (f f' : FlightState) : Prop where
  readEpochNr : f'.recordLayer.readEpochNr = f.recordLayer.readEpochNr
  writeEpochNr : f'.recordLayer.writeEpochNr = f.recordLayer.writeEpochNr ∨
    f.recordLayer.readEpochNr = 0 ∧ f.recordLayer.writeEpochNr = 0 ∧
      f'.recordLayer.writeEpochNr = 1
  cachedDecipher : ∀ i, (f'.recordLayer.connState i).cachedDecipher =
    (f.recordLayer.connState i).cachedDecipher

theorem Progress.refl (f : FlightState) : Progress f f := ⟨rfl, .inl rfl, fun _ => rfl⟩

theorem Progress.trans {f f' f'' : FlightState} (h : Progress f f') (h' : Progress f' f'') :
    Progress f f'' where
  readEpochNr := h'.readEpochNr.trans h.readEpochNr
  writeEpochNr := by
    have hr := h.readEpochNr
    have hw := h.writeEpochNr
    have hw' := h'.writeEpochNr
    omega
  cachedDecipher := fun i => (h'.cachedDecipher i).trans (h.cachedDecipher i)

-- What is awaited depends on the write epoch, the suite of epoch 1, the last flight, and what was
-- sent and hashed.
theorem Awaits.congr {crypto : Crypto} {f f' : FlightState}
    {expected : Option (List HandshakeType)} (h : Awaits crypto f expected)
    (hwrite : f'.recordLayer.writeEpochNr = f.recordLayer.writeEpochNr)
    (hsuite : (f'.recordLayer.connState 1).cipherSuite = (f.recordLayer.connState 1).cipherSuite)
    (hudp : f.recordLayer.udpSocket ⊆ f'.recordLayer.udpSocket)
    (hflight : f'.lastFlight = f.lastFlight) (hdata : f.allHandshakeData ⊆ f'.allHandshakeData) :
    Awaits crypto f' expected := by
  cases h with
  | hello seq hello hw hclear hlast =>
      exact .hello seq hello (hwrite.trans hw) (hsuite.trans hclear) (hflight.trans hlast)
  | cookie hw hclear => exact .cookie (hwrite.trans hw) (hsuite.trans hclear)
  | finished hw hsent =>
      rcases hsent with ⟨keyExchange, finished, datagram, his, hmem, hfin⟩
      exact .finished (hwrite.trans hw)
        ⟨keyExchange, finished, datagram, his, hudp hmem, hdata hfin⟩
  | nothing => exact .nothing

theorem Inv.withRecordLayer {crypto : Crypto} {f : FlightState} {rl : RecordLayer}
    (h : Inv crypto f) (hepochs : EpochsInv crypto f.keyed rl)
    (hwrite : rl.writeEpochNr = f.recordLayer.writeEpochNr)
    (hsuite : (rl.connState 1).cipherSuite = (f.recordLayer.connState 1).cipherSuite)
    (hudp : f.recordLayer.udpSocket ⊆ rl.udpSocket) :
    Inv crypto { f with recordLayer := rl } where
  epochs := by
    show EpochsInv crypto (rl.writeEpochNr == 1) rl
    rw [hwrite]
    exact hepochs
  buffer := h.buffer
  awaits := h.awaits.congr hwrite hsuite hudp rfl (List.Subset.refl _)

/-! ## Sending a flight of one message -/

theorem countP_handshakes (fragments : List FragmentedHandshake) :
    (fragments.map fun f => (⟨.handshake, f.serialize⟩ : Message)).countP
      RecordLayer.isChangeCipherSpec = 0 := by
  rw [List.countP_map, List.countP_eq_zero]
  intro f _
  exact Bool.false_ne_true

theorem outgoingMessages_countP {handshake : Handshake} (hmsg : handshake.msgType ≠ .finished)
    (fragments : List FragmentedHandshake) :
    (outgoingMessages handshake fragments).countP RecordLayer.isChangeCipherSpec = 0 := by
  rw [outgoingMessages, if_neg hmsg, List.nil_append, countP_handshakes]

theorem progress_withFlight {crypto : Crypto} {f f' : FlightState} {keyed : Bool}
    {messages : List Message} {rl' : RecordLayer} {datagram : Bytes}
    (hsent : RecordLayer.SentMessages crypto keyed messages f.recordLayer rl')
    (hrl : f'.recordLayer = rl'.udpSend datagram)
    (hcount : messages.countP RecordLayer.isChangeCipherSpec = 0) : Progress f f' where
  readEpochNr := by rw [hrl]; exact hsent.readEpochNr
  writeEpochNr := by
    rw [hrl]
    exact .inl (by rw [← Nat.add_zero f.recordLayer.writeEpochNr, ← hcount]; exact hsent.writeEpochNr)
  cachedDecipher := by
    intro i
    rw [hrl, RecordLayer.connState_udpSend, hsent.connState i]

/-- A flight of one message that is not Finished. -/
structure SentFlight (crypto : Crypto) (handshake : Handshake)
    (expectedResponses : List HandshakeType) (f f' : FlightState) : Prop where
  epochs : EpochsInv crypto f'.keyed f'.recordLayer
  buffer : f'.bufferedOutgoingMessages = []
  expectedResponses : f'.expectedResponses = some expectedResponses
  lastFlight : f'.lastFlight = [f.numbered handshake]
  writeEpochNr : f'.recordLayer.writeEpochNr = f.recordLayer.writeEpochNr
  cipherSuite : ∀ i, (f'.recordLayer.connState i).cipherSuite =
    (f.recordLayer.connState i).cipherSuite
  progress : Progress f f'
  finishedCalls : f'.finishedCalls = f.finishedCalls

/-- The state after the flight is sent. -/
theorem sendFlight_result {crypto : Crypto} {f : FlightState} {handshake : Handshake}
    (hepochs : EpochsInv crypto f.keyed f.recordLayer) (hbuffer : f.bufferedOutgoingMessages = [])
    (hmsg : handshake.msgType ≠ .finished) (expectedResponses : List HandshakeType) :
    Ends (sendFlight crypto [handshake] expectedResponses) f
      (fun _ f' => ∃ fragments datagram rl', (f.numbered handshake).toFragment.split = .ok fragments ∧
        RecordLayer.processOutgoingMessages crypto
          (outgoingMessages (f.numbered handshake) fragments) f.recordLayer = .ok datagram rl' ∧
        RecordLayer.SentMessages crypto f.keyed
          (outgoingMessages (f.numbered handshake) fragments) f.recordLayer rl' ∧
        f' = ({ f with sendFlightBeginWasCalled := true, lastFlight := [] }.withMessage
          (f.numbered handshake) fragments).withFlight expectedResponses datagram rl')
      (fun _ _ => False) := by
  unfold sendFlight sendFlightBegin
  simp only [ends_bind, ends_modify]
  refine (sendFlightProcessPartial_ends handshake _ rfl).mono (fun _ f1 h1 => ?_) fun _ _ h => h
  rcases h1 with ⟨fragments, hsplit, rfl⟩
  have hcount := @outgoingMessages_countP (f.numbered handshake) hmsg fragments
  show Ends _ ({ f with sendFlightBeginWasCalled := true, lastFlight := [] }.withMessage
    (f.numbered handshake) fragments) _ _
  generalize hf1 : ({ f with sendFlightBeginWasCalled := true, lastFlight := [] } : FlightState).withMessage
    (f.numbered handshake) fragments = f1
  have hmessages : f1.bufferedOutgoingMessages =
      outgoingMessages (f.numbered handshake) fragments := by
    rw [← hf1]
    show f.bufferedOutgoingMessages ++ _ = _
    rw [hbuffer, List.nil_append]
  have hrl : f1.recordLayer = f.recordLayer := by
    rw [← hf1]
    rfl
  have hepochs1 : EpochsInv crypto f.keyed f1.recordLayer := hrl ▸ hepochs
  have hmay : RecordLayer.MaySend f.keyed f1.bufferedOutgoingMessages f1.recordLayer :=
    RecordLayer.maySend_of_countP_eq_zero (hmessages ▸ hcount) hepochs1.writeEpochNr
  have hfinish := sendFlightFinish_ends f.keyed hepochs1 hmay expectedResponses
  rw [hmessages, hrl] at hfinish
  refine hfinish.mono (fun _ f2 h2 => ?_) fun _ _ h => h
  rcases h2 with ⟨datagram, rl', hok, hsent, rfl⟩
  refine ⟨fragments, datagram, rl', hsplit, hok, hsent, ?_⟩
  rw [← hf1]

theorem sendFlight_ends {crypto : Crypto} {f : FlightState} {handshake : Handshake}
    (hepochs : EpochsInv crypto f.keyed f.recordLayer) (hbuffer : f.bufferedOutgoingMessages = [])
    (hmsg : handshake.msgType ≠ .finished) (expectedResponses : List HandshakeType) :
    Ends (sendFlight crypto [handshake] expectedResponses) f
      (fun _ => SentFlight crypto handshake expectedResponses f) (fun _ _ => False) := by
  refine (sendFlight_result hepochs hbuffer hmsg expectedResponses).mono (fun _ f2 h2 => ?_)
    fun _ _ h => h
  rcases h2 with ⟨fragments, datagram, rl', _, _, hsent, rfl⟩
  have hcount := @outgoingMessages_countP (f.numbered handshake) hmsg fragments
  have hwrite : rl'.writeEpochNr = f.recordLayer.writeEpochNr := by
    rw [hsent.writeEpochNr, hcount, Nat.add_zero]
  have hkeyed : (rl'.writeEpochNr == 1) = f.keyed := by rw [hwrite, keyed]
  refine ⟨?_, rfl, rfl, rfl, hwrite, ?_, progress_withFlight hsent rfl hcount, rfl⟩
  · show EpochsInv crypto (rl'.writeEpochNr == 1) (rl'.udpSend datagram)
    rw [hkeyed]
    exact hsent.inv.congr (fun _ => rfl) rfl
  · intro i
    show (rl'.connState i).cipherSuite = _
    rw [hsent.connState i]

end FlightState

end DtlsClient
