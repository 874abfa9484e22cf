import DtlsClient.Properties.Flights

/-!
# The flight handlers

Every handler keeps the invariant of the flights, whether it returns or throws, and none but that of
the Finished flight reports a handshake as done.
-/

open Library

namespace DtlsClient

namespace FlightState

variable {crypto : Crypto} {f f' : FlightState}

/-- What a handler guarantees, also when it throws; if it calls back, it reports an error. -/
structure Handled (crypto : Crypto) (f f' : FlightState) : Prop where
  inv : Inv crypto f'
  progress : Progress f f'
  finishedCalls : ∃ calls, f'.finishedCalls = f.finishedCalls ++ calls ∧
    ∀ call ∈ calls, call.err ≠ none

theorem Handled.refl (h : Inv crypto f) : Handled crypto f f :=
  ⟨h, .refl f, [], (List.append_nil _).symm, nofun⟩

theorem Handled.trans {f'' : FlightState} (h : Handled crypto f f') (h' : Handled crypto f' f'') :
    Handled crypto f f'' where
  inv := h'.inv
  progress := h.progress.trans h'.progress
  finishedCalls := by
    rcases h.finishedCalls with ⟨calls, hcalls, hfail⟩
    rcases h'.finishedCalls with ⟨calls', hcalls', hfail'⟩
    refine ⟨calls ++ calls', by rw [hcalls', hcalls, List.append_assoc], fun call hcall => ?_⟩
    rcases List.mem_append.mp hcall with hmem | hmem
    · exact hfail call hmem
    · exact hfail' call hmem

def withData (f : FlightState) (data : List Bytes) : FlightState :=
  { f with allHandshakeData := f.allHandshakeData ++ data }

theorem Inv.withData (h : Inv crypto f) (data : List Bytes) : Inv crypto (f.withData data) :=
  ⟨h.epochs, h.buffer, h.awaits.congr rfl rfl (List.Subset.refl _) rfl (List.subset_append_left _ _)⟩

theorem Progress.withData (h : Progress f f') (data : List Bytes) :
    Progress f (f'.withData data) :=
  h.trans ⟨rfl, .inl rfl, fun _ => rfl⟩

theorem Handled.of_eq (hinv : Inv crypto f') (hprogress : Progress f f')
    (hcalls : f'.finishedCalls = f.finishedCalls) : Handled crypto f f' :=
  ⟨hinv, hprogress, [], by rw [hcalls, List.append_nil], nofun⟩

-- The flag and the calls that were made are not what the invariant is about.
theorem Inv.withCall (h : Inv crypto f) (isHandshaking : Bool) (call : FinishedCall) :
    Inv crypto { f with
      isHandshaking := isHandshaking
      finishedCalls := f.finishedCalls ++ [call] } where
  epochs := h.epochs
  buffer := h.buffer
  awaits := h.awaits.congr rfl rfl (List.Subset.refl _) rfl (List.Subset.refl _)

theorem Handled.report (hinv : Inv crypto f) (isHandshaking : Bool) (alert : Option Alert)
    (err : JsError) :
    Handled crypto f { f with
      isHandshaking := isHandshaking
      finishedCalls := f.finishedCalls ++ [⟨alert, some err⟩] } where
  inv := hinv.withCall isHandshaking _
  progress := ⟨rfl, .inl rfl, fun _ => rfl⟩
  finishedCalls := by
    refine ⟨[⟨alert, some err⟩], rfl, fun call hcall => ?_⟩
    rw [List.mem_singleton.mp hcall]
    exact Option.some_ne_none err

/-! ## HelloVerifyRequest -/

-- The state after the window of the read epoch is reset.
def resetWindow (f : FlightState) : FlightState :=
  { f with
    recordLayer := f.recordLayer.updateEpoch f.recordLayer.readEpochNr fun e =>
      { e with antiReplayWindow := .reset } }

theorem connState_resetWindow (f : FlightState) (i : Nat) :
    f.resetWindow.recordLayer.connState i = f.recordLayer.connState i :=
  RecordLayer.connState_updateEpoch _ _ i fun _ => rfl

theorem progress_resetWindow (f : FlightState) : Progress f f.resetWindow :=
  ⟨rfl, .inl rfl, fun i => by rw [connState_resetWindow]⟩

theorem cookieFlight_ends {seq : Nat} {hello : ClientHello}
    (hepochs : EpochsInv crypto f.keyed f.recordLayer) (hbuffer : f.bufferedOutgoingMessages = [])
    (hwrite : f.recordLayer.writeEpochNr = 0)
    (hclear : (f.recordLayer.connState 1).cipherSuite = some CipherSuites.TLS_NULL_WITH_NULL_NULL) :
    Ends (sendFlight crypto [⟨seq, .clientHello hello⟩] [.serverHelloDone]) f
      (fun _ f' => Handled crypto f f') (fun _ _ => False) := by
  have hne : (⟨seq, .clientHello hello⟩ : Handshake).msgType ≠ .finished := nofun
  refine (sendFlight_ends hepochs hbuffer hne _).mono (fun _ f' h => ?_) fun _ _ h => h
  refine .of_eq ⟨h.epochs, h.buffer, ?_⟩ h.progress h.finishedCalls
  rw [h.expectedResponses]
  exact .cookie (h.writeEpochNr.trans hwrite) ((h.cipherSuite 1).trans hclear)

theorem handleHelloVerifyRequest_ends (opts : Options) (messages : List Handshake)
    (hinv : Inv crypto f) (hwrite : f.recordLayer.writeEpochNr = 0)
    (hclear : (f.recordLayer.connState 1).cipherSuite = some CipherSuites.TLS_NULL_WITH_NULL_NULL) :
    Ends (handleHelloVerifyRequest opts crypto messages) f
      (fun _ f' => Handled crypto f f') (fun _ f' => f' = f) := by
  unfold handleHelloVerifyRequest
  rw [ends_bind, ends_get]
  split
  · split
    · rw [ends_bind, ends_modify]
      show Ends _ f.resetWindow _ _
      have hepochs : EpochsInv crypto f.keyed f.resetWindow.recordLayer :=
        hinv.epochs.congr f.connState_resetWindow rfl
      have hclear' : (f.resetWindow.recordLayer.connState 1).cipherSuite =
          some CipherSuites.TLS_NULL_WITH_NULL_NULL := by
        rw [connState_resetWindow]
        exact hclear
      refine (cookieFlight_ends (f := f.resetWindow) hepochs hinv.buffer hwrite hclear').mono
        (fun _ f' h => ?_) fun _ _ h => h.elim
      exact ⟨h.inv, f.progress_resetWindow.trans h.progress, h.finishedCalls⟩
    · exact (cookieFlight_ends hinv.epochs hinv.buffer hwrite hclear).mono (fun _ _ h => h)
        fun _ _ h => h.elim
  · rfl

/-! ## ServerHello, ServerKeyExchange and ServerHelloDone -/

/-- Between the messages of a ServerHelloDone flight nothing is expected, or Finished is. -/
def InFlight (f : FlightState) : Prop :=
  f.expectedResponses = none ∨ f.expectedResponses = some [.finished]

-- What a ServerHello does to the record layer.
def withServerHello (hello : ServerHello) (rl : RecordLayer) : RecordLayer :=
  let setVersion (c : ConnectionState) := { c with protocolVersion := hello.serverVersion }
  ((rl.updateConnectionState rl.nextEpochNr fun c =>
      { c with
        serverRandom := some hello.random.serialize
        cipherSuite := CipherSuites.byId hello.cipherSuite
        compressionAlgorithm := hello.compressionMethod }).updateConnectionState rl.writeEpochNr
    setVersion).updateConnectionState (rl.writeEpochNr + 1) setVersion

theorem handleServerHello_eq (hello : ServerHello) (f : FlightState) :
    handleServerHello hello f =
      .ok () { f with recordLayer := withServerHello hello f.recordLayer } := rfl

theorem handleServerHello_ends (hello : ServerHello) (hinv : Inv crypto f) (hflight : f.InFlight) :
    Ends (handleServerHello hello) f
      (fun _ f' => Handled crypto f f' ∧ f'.InFlight) (fun _ _ => False) := by
  rw [ends_of_eq_ok (handleServerHello_eq hello f)]
  have hepochs : EpochsInv crypto f.keyed (withServerHello hello f.recordLayer) := by
    -- the epoch after the later one is neither epoch 0 nor the one that is keyed
    have hnext : f.recordLayer.nextEpochNr ≠ 0 ∧
        (f.keyed && f.recordLayer.nextEpochNr == 1) = false := by
      unfold keyed RecordLayer.nextEpochNr
      simp only [Bool.and_eq_false_iff, beq_eq_false_iff_ne]
      omega
    unfold withServerHello
    refine EpochsInv.updateConnectionState ?_ _ fun h => h.setVersion _
    refine EpochsInv.updateConnectionState ?_ _ fun h => h.setVersion _
    refine hinv.epochs.updateConnectionState _ fun h => ?_
    rw [hnext.2] at h ⊢
    exact h.setServerHello hnext.1 hello
  refine ⟨.of_eq ⟨hepochs, hinv.buffer, ?_⟩ ⟨rfl, .inl rfl, fun i => ?_⟩ rfl, hflight⟩
  · rcases hflight with hnone | hfin
    · show Awaits crypto _ f.expectedResponses
      rw [hnone]
      exact .nothing
    · show Awaits crypto _ f.expectedResponses
      have hawaits := hinv.awaits
      rw [hfin] at hawaits ⊢
      cases hawaits with
      | finished hwrite hsent => exact .finished hwrite hsent
  · refine (RecordLayer.cachedDecipher_updateConnectionState _ _ i ?_).trans
      ((RecordLayer.cachedDecipher_updateConnectionState _ _ i ?_).trans
        (RecordLayer.cachedDecipher_updateConnectionState _ _ i ?_))
    all_goals exact fun _ => rfl

theorem handleServerKeyExchange_ends (rawData : Bytes) :
    Ends (handleServerKeyExchange rawData) f (fun _ f' => f' = f) (fun _ f' => f' = f) := by
  unfold handleServerKeyExchange
  rw [ends_bind, ends_get]
  split
  · rfl
  · split
    · split
      · rfl
      · rfl
    · rfl

-- With keys the verify data can be computed.
theorem verifyData_ok {c : ConnectionState} (h : c.Keyed crypto) (source : ConnectionEnd)
    (handshakeMessages : Bytes) :
    ∃ data, verifyData crypto c source handshakeMessages = .ok data := by
  rcases h.exists with ⟨suite, prf, masterSecret, _, hsuite, _, hprf, hmaster, _⟩
  unfold verifyData
  rw [hsuite]
  simp only [hprf, hmaster]
  exact ⟨_, rfl⟩

-- The state in which the client has just derived its keys.
theorem epochsInv_derived {rl : RecordLayer} {c : ConnectionState}
    (hinv : EpochsInv crypto false rl) (hc : EpochInv crypto 1 true c) (hnext : rl.nextEpochNr = 1) :
    EpochsInv crypto true (rl.updateConnectionState rl.nextEpochNr fun _ => c) where
  epoch := by
    intro i
    have hlt := rl.nextEpochNr_lt_length
    rw [hnext] at hlt ⊢
    by_cases hi : i = 1
    · subst hi
      rw [RecordLayer.connState_updateConnectionState_self hlt]
      exact hc
    · rw [RecordLayer.connState_updateConnectionState_ne rl hi]
      have h := hinv.epoch i
      rw [Bool.false_and] at h
      rw [beq_eq_false_iff_ne.mpr hi, Bool.and_false]
      exact h
  writeEpochNr := hinv.writeEpochNr
  keyed_of_write := fun _ => rfl

/-- Between `f` and `f'` the keys went into epoch 1, which both directions switch to next. -/
structure KeysInstalled (crypto : Crypto) (f f' : FlightState) : Prop where
  readEpochNr : f.recordLayer.readEpochNr = 0
  writeEpochNr : f.recordLayer.writeEpochNr = 0
  epochs : EpochsInv crypto true f'.recordLayer
  cachedDecipher : ∀ i, (f'.recordLayer.connState i).cachedDecipher =
    (f.recordLayer.connState i).cachedDecipher
  parameters : f'.recordLayer.parameters = f.recordLayer.parameters
  changes : ∃ rl, f' = { f with recordLayer := rl } ∧ rl.readEpochNr = 0 ∧ rl.writeEpochNr = 0 ∧
    rl.udpSocket = f.recordLayer.udpSocket

-- Where the keys cannot be derived nothing changes.
theorem installKeys_ends (psk : Bytes) (hinv : Inv crypto f) {suite : CipherSuite}
    (hsuite : f.recordLayer.nextEpoch.connectionState.cipherSuite = some suite)
    (hpsk : suite.keyExchange = some .psk) :
    Ends (installKeys crypto psk) f (fun _ => KeysInstalled crypto f)
      (fun e f' => f' = f ∧ f.recordLayer.nextEpoch.connectionState.computeMasterSecret crypto
        (.ofPsk psk) = .error e) := by
  have hfalse : (f.keyed && f.recordLayer.nextEpochNr == 1) = false := by
    unfold keyed RecordLayer.nextEpochNr
    simp only [Bool.and_eq_false_iff, beq_eq_false_iff_ne]
    omega
  have hepoch := hinv.epochs.epoch f.recordLayer.nextEpochNr
  rw [hfalse] at hepoch
  unfold installKeys
  rw [ends_bind, ends_get]
  split
  · rename_i e herror
    exact ⟨rfl, herror⟩
  · rename_i c hok
    rcases hepoch.computeMasterSecret hsuite hpsk hok with ⟨hnext, hc⟩
    have hzero : f.recordLayer.readEpochNr = 0 ∧ f.recordLayer.writeEpochNr = 0 := by
      unfold RecordLayer.nextEpochNr at hnext
      omega
    have hkeyed : f.keyed = false := by rw [keyed, hzero.2]; rfl
    rw [ends_modify]
    -- the epoch gets a master secret and keys, and no other field of any epoch changes
    have hsame : ∀ i, ((f.recordLayer.updateConnectionState f.recordLayer.nextEpochNr
          fun _ => c).connState i).cachedDecipher = (f.recordLayer.connState i).cachedDecipher ∧
        ((f.recordLayer.updateConnectionState f.recordLayer.nextEpochNr
          fun _ => c).connState i).parameters = (f.recordLayer.connState i).parameters := by
      intro i
      rcases f.recordLayer.connState_updateConnectionState_cases f.recordLayer.nextEpochNr i
        (fun _ => c) with h | ⟨rfl, h⟩
      · rw [h]
        exact ⟨rfl, rfl⟩
      · rw [h]
        rcases ConnectionState.computeMasterSecret_ok hok with
          ⟨_, _, _, _, _, _, _, _, _, _, rfl⟩
        exact ⟨rfl, rfl⟩
    exact ⟨hzero.1, hzero.2, epochsInv_derived (hkeyed ▸ hinv.epochs) (hnext ▸ hc) hnext,
      fun i => (hsame i).1, funext fun i => (hsame i).2, _, rfl, hzero.1, hzero.2, rfl⟩

theorem needsToHashMessage_finished {m : Handshake} (h : m.msgType = .finished) :
    needsToHashMessage m = true := by
  rcases m with ⟨seq, body⟩
  cases body <;> first | rfl | cases h

-- ChangeCipherSpec stands between the two messages of the flight, and nowhere else in it.
theorem outgoingMessages_flight {keyExchange finished : Handshake}
    (hke : keyExchange.msgType ≠ .finished) (hfin : finished.msgType = .finished)
    (fragments fragments' : List FragmentedHandshake) :
    outgoingMessages keyExchange fragments ++ outgoingMessages finished fragments' =
      (fragments.map fun f => ⟨.handshake, f.serialize⟩) ++
        ⟨.changeCipherSpec, ChangeCipherSpec.serialize⟩ ::
        fragments'.map fun f => ⟨.handshake, f.serialize⟩ := by
  rw [outgoingMessages, outgoingMessages, if_neg hke, if_pos hfin]
  rfl

theorem countP_flight (fragments fragments' : List FragmentedHandshake) :
    List.countP RecordLayer.isChangeCipherSpec
      ((fragments.map fun f => ⟨.handshake, f.serialize⟩) ++
        ⟨.changeCipherSpec, ChangeCipherSpec.serialize⟩ ::
        fragments'.map fun f => ⟨.handshake, f.serialize⟩) = 1 := by
  rw [List.countP_append, List.countP_cons_of_pos rfl, countP_handshakes, countP_handshakes]

theorem allHandshakeData_withMessage {message : Handshake} (hhash : needsToHashMessage message = true)
    (fragments : List FragmentedHandshake) :
    (f.withMessage message fragments).allHandshakeData =
      f.allHandshakeData ++ [message.toFragment.serialize] := by
  unfold withMessage
  rw [hhash]
  rfl

-- Once that flight is sent, epoch 1 is written and the server's Finished is awaited.
theorem inv_finishedFlight {keyExchange finished : Handshake} {messages : List Message}
    {datagram : Bytes} {rl : RecordLayer}
    (hsent : RecordLayer.SentMessages crypto true messages f.recordLayer rl)
    (hwrite : rl.writeEpochNr = 1) (his : IsFinishedFlight crypto keyExchange finished datagram)
    (hdata : finished.toFragment.serialize ∈ f.allHandshakeData) :
    Inv crypto (f.withFlight [.finished] datagram rl) where
  epochs := by
    have hkeyed : (f.withFlight [.finished] datagram rl).keyed = true := by
      show (rl.writeEpochNr == 1) = true
      rw [hwrite]
      rfl
    rw [hkeyed]
    exact hsent.inv.congr (fun _ => rfl) rfl
  buffer := rfl
  awaits := .finished hwrite
    ⟨keyExchange, finished, datagram, his, List.mem_append_right _ List.mem_cons_self, hdata⟩

/-- The flight that was sent: its verify data is computed with the secrets of `c` over the transcript
up to the ClientKeyExchange, and both messages go into the transcript. -/
structure ClientFinished (crypto : Crypto) (c : ConnectionState) (before after sent : List Bytes)
    (keyExchange finished : Handshake) : Prop where
  flight : ∃ datagram ∈ sent, IsFinishedFlight crypto keyExchange finished datagram
  allHandshakeData : after =
    before ++ [keyExchange.toFragment.serialize, finished.toFragment.serialize]
  verifyData : ∃ data, finished.body = .finished data ∧
    FlightState.verifyData crypto c .client
      (before ++ [keyExchange.toFragment.serialize]).flatten = .ok data

/-- What sending the flight of ClientKeyExchange, ChangeCipherSpec and Finished does. -/
structure SentFinished (crypto : Crypto) (f f' : FlightState) : Prop where
  inv : Inv crypto f'
  expectedResponses : f'.expectedResponses = some [.finished]
  finishedCalls : f'.finishedCalls = f.finishedCalls
  readEpochNr : f'.recordLayer.readEpochNr = f.recordLayer.readEpochNr
  writeEpochNr : f'.recordLayer.writeEpochNr = 1
  connState : ∀ i, (f.recordLayer.connState i).OnlyCipher (f'.recordLayer.connState i)
  finished : ∃ keyExchange finished, ClientFinished crypto (f.recordLayer.connState 1)
    f.allHandshakeData f'.allHandshakeData f'.recordLayer.udpSocket keyExchange finished

/-- The messages of that flight, and the fragments they are sent in. -/
structure FinishedFlight (crypto : Crypto) (identity : Bytes) (f : FlightState)
    (keyExchange finished : Handshake) (fragments fragments' : List FragmentedHandshake) : Prop where
  keyExchange_body : keyExchange.body =
    .clientKeyExchange (ClientKeyExchange_PSK.serialize identity)
  keyExchange_split : keyExchange.toFragment.split = .ok fragments
  verifyData : ∃ data, finished.body = .finished data ∧
    FlightState.verifyData crypto (f.recordLayer.connState 1) .client
      (f.allHandshakeData ++ [keyExchange.toFragment.serialize]).flatten = .ok data
  finished_split : finished.toFragment.split = .ok fragments'

theorem FinishedFlight.keyExchange_type {identity : Bytes} {keyExchange finished : Handshake}
    {fragments fragments' : List FragmentedHandshake}
    (h : FinishedFlight crypto identity f keyExchange finished fragments fragments') :
    keyExchange.msgType = .clientKeyExchange := by
  rw [Handshake.msgType, h.keyExchange_body]
  rfl

theorem FinishedFlight.finished_type {identity : Bytes} {keyExchange finished : Handshake}
    {fragments fragments' : List FragmentedHandshake}
    (h : FinishedFlight crypto identity f keyExchange finished fragments fragments') :
    finished.msgType = .finished := by
  rcases h.verifyData with ⟨data, hbody, _⟩
  rw [Handshake.msgType, hbody]
  rfl

-- The state in which the flight is buffered, before it goes out.
def withFinishedFlight (f : FlightState) (keyExchange finished : Handshake)
    (fragments fragments' : List FragmentedHandshake) : FlightState :=
  (({ f with sendFlightBeginWasCalled := true, lastFlight := [] } : FlightState).withMessage
    keyExchange fragments).withMessage finished fragments'

theorem withFinishedFlight_messages (hbuffer : f.bufferedOutgoingMessages = [])
    (keyExchange finished : Handshake) (fragments fragments' : List FragmentedHandshake) :
    (f.withFinishedFlight keyExchange finished fragments fragments').bufferedOutgoingMessages =
      outgoingMessages keyExchange fragments ++ outgoingMessages finished fragments' := by
  show f.bufferedOutgoingMessages ++ _ ++ _ = _
  rw [hbuffer, List.nil_append]

-- Both messages of the flight are hashed.
theorem FinishedFlight.allHandshakeData {identity : Bytes} {keyExchange finished : Handshake}
    {fragments fragments' : List FragmentedHandshake}
    (h : FinishedFlight crypto identity f keyExchange finished fragments fragments') :
    (f.withFinishedFlight keyExchange finished fragments fragments').allHandshakeData =
      f.allHandshakeData ++ [keyExchange.toFragment.serialize, finished.toFragment.serialize] := by
  have hke : needsToHashMessage keyExchange = true := by
    unfold needsToHashMessage
    rw [h.keyExchange_body]
  rw [withFinishedFlight,
    allHandshakeData_withMessage (needsToHashMessage_finished h.finished_type),
    allHandshakeData_withMessage hke, List.append_assoc]
  rfl

/-- The state after the flight is sent. -/
theorem sendFinishedFlight_result (identity : Bytes) (hepochs : EpochsInv crypto true f.recordLayer)
    (hwrite : f.recordLayer.writeEpochNr = 0) (hbuffer : f.bufferedOutgoingMessages = []) :
    Ends (sendFinishedFlight crypto identity) f
      (fun _ f' => ∃ keyExchange finished fragments fragments' datagram rl',
        FinishedFlight crypto identity f keyExchange finished fragments fragments' ∧
        RecordLayer.processOutgoingMessages crypto
          (outgoingMessages keyExchange fragments ++ outgoingMessages finished fragments')
          f.recordLayer = .ok datagram rl' ∧
        RecordLayer.SentMessages crypto true
          (outgoingMessages keyExchange fragments ++ outgoingMessages finished fragments')
          f.recordLayer rl' ∧
        f' = (f.withFinishedFlight keyExchange finished fragments fragments').withFlight [.finished]
          datagram rl')
      (fun _ _ => False) := by
  unfold sendFinishedFlight sendFlightBegin computeVerifyData
  simp only [ends_bind, ends_modify, ends_get]
  refine (sendFlightProcessPartial_ends _ _ rfl).mono (fun _ f1 h1 => ?_) fun _ _ h => h
  generalize hf0 : ({ f with sendFlightBeginWasCalled := true, lastFlight := [] } : FlightState) = f0
    at h1
  rcases h1 with ⟨fragments, hsplit, hf1⟩
  generalize hke : f0.numbered ⟨0, .clientKeyExchange (ClientKeyExchange_PSK.serialize identity)⟩ =
    keyExchange at hsplit hf1
  have hbody : keyExchange.body = .clientKeyExchange (ClientKeyExchange_PSK.serialize identity) := by
    rw [← hke]
    rfl
  have hrl1 : f1.recordLayer = f.recordLayer := by rw [hf1, ← hf0]; rfl
  have hhashed1 : f1.allHandshakeData =
      f.allHandshakeData ++ [keyExchange.toFragment.serialize] := by
    rw [hf1, allHandshakeData_withMessage (by rw [← hke]; rfl), ← hf0]
  -- the verify data is computed with the keys of the epoch that is written next
  rcases verifyData_ok ((hepochs.epoch 1).negotiated rfl).keyed .client
    f1.allHandshakeData.flatten with ⟨data, hdata⟩
  have hnext : f1.recordLayer.nextWriteEpoch.connectionState = f.recordLayer.connState 1 := by
    rw [hrl1, RecordLayer.nextWriteEpoch, hwrite]
    rfl
  simp only [hnext, hdata, ends_pure]
  refine (sendFlightProcessPartial_ends _ f1 (by rw [hf1, ← hf0]; rfl)).mono (fun _ f2 h2 => ?_)
    fun _ _ h => h
  rcases h2 with ⟨fragments', hsplit', hf2⟩
  generalize hfin : f1.numbered ⟨0, .finished data⟩ = finished at hsplit' hf2
  rw [hhashed1] at hdata
  have hflight : FinishedFlight crypto identity f keyExchange finished fragments fragments' :=
    ⟨hbody, hsplit, ⟨data, by rw [← hfin]; rfl, hdata⟩, hsplit'⟩
  have hf2 : f2 = f.withFinishedFlight keyExchange finished fragments fragments' := by
    rw [hf2, hf1, ← hf0]
    rfl
  have hbuffer2 := withFinishedFlight_messages hbuffer keyExchange finished fragments fragments'
  have hrl2 : f2.recordLayer = f.recordLayer := by rw [hf2]; rfl
  rw [← hf2] at hbuffer2
  have hke : keyExchange.msgType ≠ .finished := by
    rw [hflight.keyExchange_type]
    decide
  have hcount : f2.bufferedOutgoingMessages.countP RecordLayer.isChangeCipherSpec = 1 := by
    rw [hbuffer2, outgoingMessages_flight hke hflight.finished_type, countP_flight]
  have hmay : RecordLayer.MaySend true f2.bufferedOutgoingMessages f2.recordLayer :=
    ⟨by rw [hrl2, hwrite, hcount], fun _ => rfl⟩
  have hfinish := sendFlightFinish_ends true (hrl2.symm ▸ hepochs) hmay [.finished]
  rw [hbuffer2, hrl2] at hfinish
  refine hfinish.mono (fun _ f3 h3 => ?_) fun _ _ h => h
  rcases h3 with ⟨datagram, rl', hok, hsent, rfl⟩
  refine ⟨keyExchange, finished, fragments, fragments', datagram, rl', hflight, hok, hsent, ?_⟩
  rw [hf2]

theorem sendFinishedFlight_ends (identity : Bytes) (hepochs : EpochsInv crypto true f.recordLayer)
    (hwrite : f.recordLayer.writeEpochNr = 0) (hbuffer : f.bufferedOutgoingMessages = []) :
    Ends (sendFinishedFlight crypto identity) f
      (fun _ => SentFinished crypto f) (fun _ _ => False) := by
  apply (sendFinishedFlight_result identity hepochs hwrite hbuffer).mono
  · intro _ f' h
    rcases h with ⟨keyExchange, finished, fragments, fragments', datagram, rl', hflight, hok, hsent, rfl⟩
    have hke : keyExchange.msgType ≠ .finished := by
      rw [hflight.keyExchange_type]
      decide
    rw [outgoingMessages_flight hke hflight.finished_type] at hok hsent
    have hwrite' : rl'.writeEpochNr = 1 := by
      rw [hsent.writeEpochNr, hwrite, countP_flight]
    have his : IsFinishedFlight crypto keyExchange finished datagram :=
      ⟨hflight.keyExchange_type, hflight.finished_type, fragments, fragments', f.recordLayer, rl',
        hflight.keyExchange_split, hflight.finished_split, hok⟩
    have hmem : finished.toFragment.serialize ∈
        (f.withFinishedFlight keyExchange finished fragments fragments').allHandshakeData := by
      rw [hflight.allHandshakeData]
      simp
    exact ⟨inv_finishedFlight hsent hwrite' his hmem, rfl, rfl, hsent.readEpochNr, hwrite',
      hsent.connState, keyExchange, finished,
      ⟨datagram, List.mem_append_right _ List.mem_cons_self, his⟩, hflight.allHandshakeData,
      hflight.verifyData⟩
  · exact fun _ _ h => h

/-- With a PSK suite the keys are installed and the client's Finished flight is sent. -/
structure Answers (crypto : Crypto) (f f' : FlightState) : Prop where
  psk : ∃ suite, f.recordLayer.nextEpoch.connectionState.cipherSuite = some suite ∧
    suite.keyExchange = some .psk
  answered : ∃ f1, KeysInstalled crypto f f1 ∧ SentFinished crypto f1 f'

/-- With any other suite the handshake is reported as failed. -/
structure Refuses (f f' : FlightState) : Prop where
  suite : ∀ suite, f.recordLayer.nextEpoch.connectionState.cipherSuite = some suite →
    suite.keyExchange ≠ some .psk
  reports : ∃ alert e, f' = { f with finishedCalls := f.finishedCalls ++ [⟨alert, some e⟩] }

theorem handleServerHelloDone_answers (opts : Options) (hinv : Inv crypto f) :
    Ends (handleServerHelloDone opts crypto) f
      (fun goOn f' => goOn = true ∧ Answers crypto f f' ∨ goOn = false ∧ Refuses f f')
      (fun _ f' => f' = f) := by
  unfold handleServerHelloDone
  rw [ends_bind, ends_get]
  split
  · rfl
  · rename_i suite hsuite
    split
    · rename_i hpsk
      split
      · rfl
      · rename_i identity psk hhead
        rw [ends_bind]
        refine (installKeys_ends psk hinv hsuite hpsk).mono (fun _ f1 h1 => ?_) fun _ _ h => h.1
        rcases h1.changes with ⟨rl, rfl, _, hwrite', _⟩
        rw [ends_bind]
        refine (sendFinishedFlight_ends identity h1.epochs hwrite' hinv.buffer).mono
          (fun _ f2 h2 => ?_) fun _ _ h => h.elim
        exact .inl ⟨rfl, ⟨suite, hsuite, hpsk⟩, _, h1, h2⟩
    · rename_i hpsk
      rw [ends_bind]
      refine .inr ⟨rfl, fun suite' hsuite' => ?_, _, _, rfl⟩
      rw [hsuite] at hsuite'
      rw [← Option.some.inj hsuite']
      exact hpsk

theorem Answers.handled {f' : FlightState} (h : Answers crypto f f') :
    Handled crypto f f' ∧ f'.InFlight := by
  rcases h.answered with ⟨f1, hkeys, hsent⟩
  rcases hkeys.changes with ⟨rl, rfl, hread, _, _⟩
  refine ⟨.of_eq hsent.inv ⟨?_, .inr ⟨hkeys.readEpochNr, hkeys.writeEpochNr, hsent.writeEpochNr⟩,
    fun i => ?_⟩ hsent.finishedCalls, .inr hsent.expectedResponses⟩
  · rw [hsent.readEpochNr, hkeys.readEpochNr]
    exact hread
  · rw [hsent.connState i, ← hkeys.cachedDecipher i]

theorem handleServerHelloDone_ends (opts : Options) (hinv : Inv crypto f) (hflight : f.InFlight) :
    Ends (handleServerHelloDone opts crypto) f
      (fun _ f' => Handled crypto f f' ∧ f'.InFlight) (fun _ f' => f' = f) := by
  refine (handleServerHelloDone_answers opts hinv).mono (fun _ f' h => ?_) fun _ _ h => h
  rcases h with ⟨_, hanswers⟩ | ⟨_, hrefuses⟩
  · exact hanswers.handled
  · rcases hrefuses.reports with ⟨alert, e, rfl⟩
    exact ⟨.report hinv f.isHandshaking alert e, hflight⟩

theorem handleServerHelloDoneFlight_ends (opts : Options) (messages : List Handshake)
    (hinv : Inv crypto f) (hflight : f.InFlight) :
    Ends (handleServerHelloDoneFlight opts crypto messages) f
      (fun _ => Handled crypto f) (fun _ => Handled crypto f) := by
  induction messages generalizing f with
  | nil => exact .refl hinv
  | cons msg messages ih =>
      have hrest : ∀ (goOn : Bool) f1, Handled crypto f f1 ∧ f1.InFlight →
          Ends (if goOn then handleServerHelloDoneFlight opts crypto messages else pure ()) f1
            (fun _ => Handled crypto f) (fun _ => Handled crypto f) := by
        rintro goOn f1 ⟨h1, hflight1⟩
        cases goOn with
        | false => exact h1
        | true =>
            exact (ih h1.inv hflight1).mono (fun _ _ h => h1.trans h) fun _ _ h => h1.trans h
      have hsame : ∀ f1, f1 = f → Handled crypto f f1 := by
        rintro _ rfl
        exact .refl hinv
      rw [handleServerHelloDoneFlight]
      cases hbody : msg.body with
      | serverHello hello =>
          simp only [pure_bind]
          rw [ends_bind]
          exact (handleServerHello_ends hello hinv hflight).mono (fun _ f1 h1 => hrest true f1 h1)
            fun _ _ h => h.elim
      | serverKeyExchange rawData =>
          simp only [pure_bind]
          rw [ends_bind]
          refine (handleServerKeyExchange_ends rawData).mono (fun _ f1 h1 => ?_)
            fun _ f1 h1 => hsame f1 h1
          exact hrest true f1 ⟨hsame f1 h1, h1 ▸ hflight⟩
      | serverHelloDone =>
          rw [ends_bind]
          exact (handleServerHelloDone_ends opts hinv hflight).mono hrest fun _ f1 h1 => hsame f1 h1
      | _ => exact hrest true f ⟨.refl hinv, hflight⟩

/-! ## Finished -/

/-- The received verify data is the server's, under these secrets and for this transcript. -/
def Verifies (crypto : Crypto) (c : ConnectionState) (transcript : List Bytes)
    (received : Bytes) : Prop :=
  ∃ suite prf masterSecret, c.cipherSuite = some suite ∧ suite.prfAlgorithm = some prf ∧
    c.masterSecret = some masterSecret ∧
    received = PRF crypto prf masterSecret (ascii "server finished")
      (crypto.hash prf transcript.flatten) suite.verifyDataLength

theorem verifies_of_verifyData {c : ConnectionState} {transcript : List Bytes} {data : Bytes}
    (h : verifyData crypto c .server transcript.flatten = .ok data) :
    Verifies crypto c transcript data := by
  unfold verifyData at h
  simp only at h
  split at h
  · cases h
  · rename_i suite hsuite
    split at h
    · rename_i prf masterSecret hprf hmaster
      exact ⟨suite, prf, masterSecret, hsuite, hprf, hmaster, (Except.ok.inj h).symm⟩
    · cases h

/-- The handshake is reported as done: the last message is a Finished whose verify data is right. -/
structure Confirmed (crypto : Crypto) (transcript : List Bytes) (messages : List Handshake)
    (f f' : FlightState) : Prop where
  inv : Inv crypto f'
  progress : Progress f f'
  expectedResponses : f'.expectedResponses = none
  finishedCalls : f'.finishedCalls = f.finishedCalls ++ [⟨none, none⟩]
  verified : ∃ seq received, messages.getLast? = some ⟨seq, .finished received⟩ ∧
    Verifies crypto f.recordLayer.currentReadEpoch.connectionState transcript received

theorem handleFinished_ends (messages : List Handshake) (hinv : Inv crypto f)
    (hexpected : f.expectedResponses = none) :
    Ends (handleFinished crypto messages) f
      (fun _ f' => Handled crypto f f' ∨ Confirmed crypto f.allHandshakeData messages f f')
      (fun _ f' => f' = f) := by
  unfold handleFinished computeVerifyData finishedCallback
  split
  · rename_i seq received hlast
    simp only [ends_bind, ends_get]
    cases hdata : verifyData crypto f.recordLayer.currentReadEpoch.connectionState .server
        f.allHandshakeData.flatten with
    | error e => rfl
    | ok data =>
        simp only [ends_pure, ends_modify]
        split
        · rename_i heq
          right
          exact ⟨hinv.withCall _ _, ⟨rfl, .inl rfl, fun _ => rfl⟩, hexpected, rfl,
            seq, received, hlast, heq ▸ verifies_of_verifyData hdata⟩
        · left
          exact .report hinv _ _ _
  · rfl

/-! ## The table of the handlers -/

/-- A handler is only called for a response that is expected. -/
theorem handle_ends (opts : Options) {type : HandshakeType} {expected : List HandshakeType}
    (messages : List Handshake) (hinv : Inv crypto f) (hnone : f.expectedResponses = none)
    (hawaits : Awaits crypto f (some expected)) (hmem : type ∈ expected) :
    Ends (handle opts crypto type messages) f
      (fun _ f' => Handled crypto f f' ∨ type = .finished ∧ f.recordLayer.writeEpochNr = 1 ∧
        FinishedFlightSent crypto f ∧ Confirmed crypto f.allHandshakeData messages f f')
      (fun _ => Handled crypto f) := by
  have hsame : ∀ f', f' = f → Handled crypto f f' := by
    rintro _ rfl
    exact .refl hinv
  have hdone : Ends (handle opts crypto .serverHelloDone messages) f
      (fun _ => Handled crypto f) (fun _ => Handled crypto f) :=
    handleServerHelloDoneFlight_ends opts messages hinv (.inl hnone)
  cases hawaits with
  | hello seq hello hwrite hclear hflight =>
      rcases List.mem_cons.mp hmem with rfl | hmem
      · exact hdone.mono (fun _ _ h => .inl h) fun _ _ h => h
      · rcases List.mem_singleton.mp hmem with rfl
        exact (handleHelloVerifyRequest_ends opts messages hinv hwrite hclear).mono
          (fun _ _ h => .inl h) fun _ f' h => hsame f' h
  | cookie hwrite hclear =>
      rcases List.mem_singleton.mp hmem with rfl
      exact hdone.mono (fun _ _ h => .inl h) fun _ _ h => h
  | finished hwrite hsent =>
      rcases List.mem_singleton.mp hmem with rfl
      refine (handleFinished_ends messages hinv hnone).mono (fun _ f' h => ?_)
        fun _ f' h => hsame f' h
      rcases h with h | h
      · exact .inl h
      · exact .inr ⟨rfl, hwrite, hsent, h⟩

/-! ## The handler of a flight -/

-- The state in which the handler of a flight is called.
def startFlight (f : FlightState) (hashed : List Bytes) : FlightState :=
  { f with
    expectedResponses := none
    allHandshakeData := f.allHandshakeData ++ hashed }

theorem Awaits.startFlight {expected : Option (List HandshakeType)} (h : Awaits crypto f expected)
    (hashed : List Bytes) : Awaits crypto (f.startFlight hashed) expected :=
  h.congr rfl rfl (List.Subset.refl _) rfl (List.subset_append_left _ _)

theorem Handled.startFlight (hinv : Inv crypto f) (hashed : List Bytes) :
    Handled crypto f (f.startFlight hashed) :=
  .of_eq ⟨hinv.epochs, hinv.buffer, .nothing⟩ ⟨rfl, .inl rfl, fun _ => rfl⟩ rfl

theorem Awaits.finishedFlightSent {expected : List HandshakeType}
    (h : Awaits crypto f (some expected)) (hwrite : f.recordLayer.writeEpochNr = 1) :
    FinishedFlightSent crypto f := by
  cases h with
  | hello seq hello hwrite' => omega
  | cookie hwrite' => omega
  | finished hwrite' hsent => exact hsent

end FlightState

namespace ClientHandshakeHandler

open FlightState

variable {crypto : Crypto}

/-- The transcript that the last message of a Finished flight is checked against. -/
def transcript (h : ClientHandshakeHandler) (messages : List Handshake) : List Bytes :=
  h.allHandshakeData ++
    ((messages.dropLast.filter needsToHashMessage).map (·.toFragment)).map (·.serialize)

theorem handleFlight_ends (opts : Options) {messages : List Handshake} {lastMsg : Handshake}
    {h : ClientHandshakeHandler} {expected : List HandshakeType} (hinv : Inv crypto h.toFlightState)
    (hexpected : h.expectedResponses = some expected) (hmem : lastMsg.msgType ∈ expected) :
    Ends (handleFlight opts crypto messages lastMsg) h
      (fun _ h' => Handled crypto h.toFlightState h'.toFlightState ∨
        h.recordLayer.writeEpochNr = 1 ∧ FinishedFlightSent crypto h.toFlightState ∧
          Confirmed crypto (h.transcript messages) messages h.toFlightState h'.toFlightState)
      (fun _ _ => False) := by
  have hawaits := hinv.awaits
  rw [hexpected] at hawaits
  unfold handleFlight bufferHandshakeData finishedCallback callFlight
  simp only [ends_bind, ends_modify, ends_get, ends_onPart]
  generalize hhashed : List.map (fun f : FragmentedHandshake => f.serialize) _ = hashed
  generalize hf : ({ h.toFlightState with
    expectedResponses := none
    allHandshakeData := h.allHandshakeData ++ hashed } : FlightState) = f
  have hf : h.toFlightState.startFlight hashed = f := hf
  have hrl : f.recordLayer = h.recordLayer := by rw [← hf, startFlight]
  have hnone : f.expectedResponses = none := by rw [← hf, startFlight]
  have hstart : Handled crypto h.toFlightState f := hf ▸ Handled.startFlight hinv hashed
  have hhandle :=
    handle_ends opts messages hstart.inv hnone (hf ▸ hawaits.startFlight hashed) hmem
  cases hres : handle opts crypto lastMsg.msgType messages f with
  | ok a f' =>
      have h' := hhandle.of_ok hres
      simp only [ends_bind, ends_modify]
      by_cases hfin : lastMsg.msgType = .finished
      · rw [if_pos hfin]
        rcases h' with h' | ⟨_, hwrite, hsent, h'⟩
        · left
          exact hstart.trans ⟨h'.inv.withData _, h'.progress.withData _, h'.finishedCalls⟩
        · right
          have hdata : f.allHandshakeData = h.transcript messages := by
            rw [if_pos hfin] at hhashed
            rw [← hf, transcript, startFlight, hhashed]
          rw [hrl] at hwrite
          rcases h'.verified with ⟨seq, received, hmsg, hverifies⟩
          refine ⟨hwrite, hawaits.finishedFlightSent hwrite, h'.inv.withData _,
            hstart.progress.trans (h'.progress.withData _), h'.expectedResponses, ?_, seq, received,
            hmsg, ?_⟩
          · rw [← hf] at h'
            exact h'.finishedCalls
          · rw [hdata, hrl] at hverifies
            exact hverifies
      · rw [if_neg hfin]
        rcases h' with h' | ⟨hfin', _⟩
        · exact .inl (hstart.trans h')
        · exact absurd hfin' hfin
  | error e f' =>
      have h' := hhandle.of_error hres
      exact .inl (hstart.trans (h'.trans (.report h'.inv _ _ _)))

end ClientHandshakeHandler

end DtlsClient
