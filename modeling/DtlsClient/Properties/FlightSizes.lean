import DtlsClient.Properties.Sending
import DtlsClient.Properties.ServerFlight

/-!
# How long the flights get

The datagram of a flight, record by record: the header of 13 bytes, and the fragment as its epoch
protects it.
-/

open Library

namespace DtlsClient

/-! ## Records and datagrams -/

namespace Record

-- Whatever a fragment holds, it goes into a record if its length fits the header.
theorem exists_serialize (p : DTLSCiphertext) (hlength : p.fragment.length < 2 ^ 16) :
    ∃ r : Record, r.bytes = p.serialize ∧ r.fragment.length = p.fragment.length := by
  let front := numberToBuffer (some p.type.toNat) 8 ++ (numberToBuffer p.version.major 8 ++
    (numberToBuffer p.version.minor 8 ++ (numberToBuffer (some p.epoch) 16 ++
    numberToBuffer (some p.sequenceNumber) 48)))
  have hcomplete := @bufferToNumber_field front [] 16 11 _ hlength (by simp [front])
  rw [List.append_nil] at hcomplete
  refine ⟨⟨front ++ numberToBuffer (some p.fragment.length) 16, p.fragment, by simp [front],
    hcomplete⟩, ?_, rfl⟩
  show (_ ++ (_ ++ (_ ++ (_ ++ _)))) ++ _ ++ _ = _ ++ ((_ ++ (_ ++ [])) ++ (_ ++ (_ ++ ((_ ++ _) ++ []))))
  simp only [List.append_assoc, List.append_nil]
  rfl

theorem datagram_length (records : List Record) :
    (datagram records).length = (records.map fun r => 13 + r.fragment.length).sum := by
  unfold datagram
  rw [List.length_flatten, List.map_map]
  congr 2
  funext r
  exact r.bytes_length

theorem bytes_length_le {records : List Record} {r : Record} (hr : r ∈ records) :
    r.bytes.length ≤ (datagram records).length := by
  rw [datagram_length, bytes_length]
  exact List.single_le_sum (fun _ _ => Nat.zero_le _) _ (List.mem_map_of_mem hr)

end Record

/-- One more datagram was sent: records whose fragments have these lengths. -/
def SendsRecords (before after : List Bytes) (lengths : List Nat) : Prop :=
  ∃ records : List Record, after = before ++ [Record.datagram records] ∧
    records.map (·.fragment.length) = lengths

namespace RecordLayer

variable {crypto : Crypto} {rl : RecordLayer}

-- A message goes out in one record, whose fragment is as long as the suite of the epoch makes it.
theorem processOutgoingMessage_sealed (hcrypto : crypto.KeepsLengths) {msg : Message}
    {suite : CipherSuite} (hinstalled : (rl.connState rl.writeEpochNr).Installed)
    (hsuite : (rl.connState rl.writeEpochNr).cipherSuite = some suite)
    (hlength : suite.sealedLength msg.data.length < 2 ^ 16) :
    Ends (processOutgoingMessage crypto msg) rl
      (fun buf rl' => Sent msg rl rl' ∧ ∃ r : Record, buf = r.bytes ∧
        r.fragment.length = suite.sealedLength msg.data.length) (fun _ _ => False) := by
  apply (processOutgoingMessage_record crypto msg hinstalled).mono
  · rintro buf rl' ⟨hsent, sent, rfl, hprotects⟩
    rcases hprotects.fragment hcrypto with ⟨suite', fragment, hsuite', rfl, hfragment⟩
    rw [hsuite] at hsuite'
    rcases Option.some.inj hsuite' with rfl
    have hdata : fragment.length = suite.sealedLength msg.data.length := hfragment
    rcases Record.exists_serialize { rl.outgoingPacket msg with fragment := fragment }
      (hdata ▸ hlength) with ⟨r, hbytes, hr⟩
    exact ⟨hsent, r, hbytes.symm, hr.trans hdata⟩
  · exact fun _ _ h => h

theorem send_sealed (hcrypto : crypto.KeepsLengths) {msg : Message} {suite : CipherSuite}
    (hinstalled : (rl.connState rl.writeEpochNr).Installed)
    (hsuite : (rl.connState rl.writeEpochNr).cipherSuite = some suite)
    (hlength : suite.sealedLength msg.data.length < 2 ^ 16) :
    Ends (send crypto msg) rl
      (fun _ rl' => SendsRecords rl.udpSocket rl'.udpSocket [suite.sealedLength msg.data.length])
      (fun _ _ => False) := by
  unfold send
  rw [ends_bind]
  apply (processOutgoingMessage_sealed hcrypto hinstalled hsuite hlength).mono
  · rintro buf rl' ⟨hsent, r, rfl, hr⟩
    refine ⟨[r], ?_, by rw [List.map_singleton, hr]⟩
    show rl'.udpSocket ++ [r.bytes] = _
    rw [hsent.udpSocket, Record.datagram, List.map_singleton, List.flatten_singleton]
  · exact fun _ _ h => h

theorem Sent.cipherSuite {msg : Message} {rl' : RecordLayer} (h : Sent msg rl rl') (i : Nat) :
    (rl'.connState i).cipherSuite = (rl.connState i).cipherSuite := by
  rcases h.connState i with hsame | hcipher
  · rw [hsame]
  · rw [hcipher]
    rfl

/-- Sending the messages makes records whose fragments have these lengths. -/
def SealsAs (crypto : Crypto) (messages : List Message) (rl : RecordLayer) (lengths : List Nat) :
    Prop :=
  Ends (processOutgoingMessages crypto messages) rl
    (fun buf _ => ∃ records : List Record, buf = Record.datagram records ∧
      records.map (·.fragment.length) = lengths) (fun _ _ => False)

theorem sealsAs_nil : SealsAs crypto [] rl [] := ⟨[], rfl, rfl⟩

-- The first message goes out in the write epoch, the others from the state it leaves.
theorem sealsAs_cons (hcrypto : crypto.KeepsLengths) {msg : Message} {messages : List Message}
    {suite : CipherSuite} {lengths : List Nat}
    (hinstalled : (rl.connState rl.writeEpochNr).Installed)
    (hsuite : (rl.connState rl.writeEpochNr).cipherSuite = some suite)
    (hlength : suite.sealedLength msg.data.length < 2 ^ 16)
    (hrest : ∀ rl', Sent msg rl rl' → SealsAs crypto messages rl' lengths) :
    SealsAs crypto (msg :: messages) rl (suite.sealedLength msg.data.length :: lengths) := by
  unfold SealsAs
  rw [processOutgoingMessages, ends_bind]
  apply (processOutgoingMessage_sealed hcrypto hinstalled hsuite hlength).mono
  · rintro buf rl' ⟨hsent, r, rfl, hr⟩
    rw [ends_bind]
    apply (hrest rl' hsent).mono
    · rintro bufs _ ⟨records, rfl, hrecords⟩
      exact ⟨r :: records, rfl, by rw [List.map_cons, hrecords, hr]⟩
    · exact fun _ _ h => h
  · exact fun _ _ h => h

end RecordLayer

/-! ## Handshake messages -/

-- The one fragment of a message, with its header.
theorem Handshake.split_length {m : Handshake} {fragments : List FragmentedHandshake}
    (hsplit : m.toFragment.split = .ok fragments) (hbody : m.body.serialize ≠ []) :
    ∃ fragment, fragments = [fragment] ∧
      fragment.serialize.length = 12 + min 1240 m.body.serialize.length := by
  have hmax : 0 < RecordLayer.MAX_PAYLOAD_SIZE - FragmentedHandshake.headerLength := by decide
  have hfragments := (m.toFragment.split_eq hmax).symm.trans hsplit
  have hne : ¬m.toFragment.fragment = [] := hbody
  rw [if_neg hne] at hfragments
  refine ⟨_, (Except.ok.inj hfragments).symm, ?_⟩
  rw [FragmentedHandshake.serialize_length, List.length_take]
  rfl

theorem flatten_numbers_length (values : List Num) (size : Nat) :
    ((values.map fun v => numberToBuffer v size).flatten).length = size / 8 * values.length := by
  simp [List.length_flatten, Function.comp_def, Nat.mul_comm]

-- What the ClientHello of an options object takes.
theorem clientHello_length (opts : Options) {random : Random} (cookie : Bytes)
    (hrandom : random.randomBytes.length = 28) :
    (HandshakeBody.clientHello
        { ClientHandshakeHandler.clientHello opts random with cookie := cookie }).serialize.length =
      40 + cookie.length + 2 * (ClientHandshakeHandler.clientHello opts random).cipherSuites.length
    := by
  generalize hsuites : (ClientHandshakeHandler.clientHello opts random).cipherSuites = suites
  have hvector : Vector.serialize (fun v => numberToBuffer v 16) 2 (2 ^ 16 - 2) false suites =
      numberToBuffer (some (suites.map fun v => numberToBuffer v 16).flatten.length) 16 ++
        (suites.map fun v => numberToBuffer v 16).flatten :=
    Vector.serialize_written (by decide) fun h => Bool.false_ne_true h.2
  have hserialize : (HandshakeBody.clientHello
      { ClientHandshakeHandler.clientHello opts random with cookie := cookie }).serialize =
      (numberToBuffer (some (-2)) 8 ++ (numberToBuffer (some (-3)) 8 ++ [])) ++
        ((numberToBuffer random.gmtUnixTime 32 ++ (random.randomBytes ++ [])) ++
        ((numberToBuffer (some 0) 8 ++ []) ++ ((numberToBuffer (some cookie.length) 8 ++ cookie) ++
        (Vector.serialize (fun v => numberToBuffer v 16) 2 (2 ^ 16 - 2) false suites ++
        ((numberToBuffer (some 1) 8 ++ (numberToBuffer CompressionMethod.null 8 ++ [])) ++
          ([] ++ [])))))) := by
    rw [← hsuites]
    rfl
  rw [hserialize, hvector]
  simp only [List.length_append, numberToBuffer_length, flatten_numbers_length, hrandom,
    List.length_nil]
  omega

theorem keyExchange_length (identity : Bytes) :
    (HandshakeBody.clientKeyExchange
      (ClientKeyExchange_PSK.serialize identity)).serialize.length = 2 + identity.length := by
  show (((numberToBuffer (some identity.length) 16 ++ identity) ++ []) ++ []).length = _
  simp only [List.append_nil, List.length_append, numberToBuffer_length]

theorem finished_length (verifyData : Bytes) :
    (HandshakeBody.finished verifyData).serialize.length = verifyData.length := by
  show (verifyData ++ []).length = _
  rw [List.append_nil]

-- In epoch 0 nothing is encrypted.
theorem EpochsInv.clear_of_write {crypto : Crypto} {keyed : Bool} {rl : RecordLayer}
    (h : EpochsInv crypto keyed rl) (hwrite : rl.writeEpochNr = 0) :
    (rl.connState rl.writeEpochNr).Installed ∧
      (rl.connState rl.writeEpochNr).cipherSuite = some CipherSuites.TLS_NULL_WITH_NULL_NULL :=
  ⟨h.installed, (h.epoch rl.writeEpochNr).clear hwrite⟩

namespace FlightState

variable {crypto : Crypto} {f : FlightState}

theorem sendsRecords_withFlight {messages : List Message} {lengths : List Nat} {datagram : Bytes}
    {keyed : Bool} {f1 : FlightState} {rl' : RecordLayer}
    (hseals : RecordLayer.SealsAs crypto messages f.recordLayer lengths)
    (hok : RecordLayer.processOutgoingMessages crypto messages f.recordLayer = .ok datagram rl')
    (hsent : RecordLayer.SentMessages crypto keyed messages f.recordLayer rl')
    (expectedResponses : List HandshakeType) :
    SendsRecords f.recordLayer.udpSocket
      (f1.withFlight expectedResponses datagram rl').recordLayer.udpSocket lengths := by
  rcases hseals.of_ok hok with ⟨records, rfl, hrecords⟩
  refine ⟨records, ?_, hrecords⟩
  show rl'.udpSocket ++ _ = _
  rw [hsent.udpSocket]

-- In the clear a flight of one message is one record.
theorem sendFlight_sends (hcrypto : crypto.KeepsLengths) {handshake : Handshake}
    (hepochs : EpochsInv crypto f.keyed f.recordLayer) (hbuffer : f.bufferedOutgoingMessages = [])
    (hwrite : f.recordLayer.writeEpochNr = 0) (hmsg : handshake.msgType ≠ .finished)
    (hbody : handshake.body.serialize ≠ []) (expectedResponses : List HandshakeType) :
    Ends (sendFlight crypto [handshake] expectedResponses) f
      (fun _ f' => SendsRecords f.recordLayer.udpSocket f'.recordLayer.udpSocket
        [12 + min 1240 handshake.body.serialize.length]) (fun _ _ => False) := by
  apply (sendFlight_result hepochs hbuffer hmsg expectedResponses).mono
  · intro _ f' h
    rcases h with ⟨fragments, datagram, rl', hsplit, hok, hsent, rfl⟩
    rcases Handshake.split_length hsplit hbody with ⟨fragment, rfl, hlength⟩
    have hmessages : outgoingMessages (f.numbered handshake) [fragment] =
        [⟨.handshake, fragment.serialize⟩] := by
      rw [outgoingMessages, if_neg (show (f.numbered handshake).msgType ≠ .finished from hmsg)]
      rfl
    rw [hmessages] at hok hsent
    rcases hepochs.clear_of_write hwrite with ⟨hinstalled, hsuite⟩
    have hbytes : fragment.serialize.length = 12 + min 1240 handshake.body.serialize.length := hlength
    rw [← hbytes]
    refine sendsRecords_withFlight ?_ hok hsent expectedResponses
    apply RecordLayer.sealsAs_cons hcrypto hinstalled hsuite
    · show fragment.serialize.length < 2 ^ 16
      omega
    · exact fun _ _ => RecordLayer.sealsAs_nil
  · exact fun _ _ h => h

theorem verifyData_length {c : ConnectionState} {suite : CipherSuite} {source : ConnectionEnd}
    {handshakeMessages data : Bytes} (hsuite : c.cipherSuite = some suite)
    (hdata : verifyData crypto c source handshakeMessages = .ok data) :
    data.length = suite.verifyDataLength := by
  unfold verifyData at hdata
  rw [hsuite] at hdata
  simp only at hdata
  split at hdata
  · rw [← Except.ok.inj hdata]
    exact PRF.P_length crypto _ _ _ _
  · cases hdata

-- The records of that flight: two in epoch 0, and the last one in epoch 1.
theorem sealsAs_finishedFlight (hcrypto : crypto.KeepsLengths) {suite : CipherSuite}
    {rl : RecordLayer} {fragment fragment' : FragmentedHandshake} (hepochs : EpochsInv crypto true rl)
    (hwrite : rl.writeEpochNr = 0) (hsuite : (rl.connState 1).cipherSuite = some suite)
    (hlength : fragment.serialize.length < 2 ^ 16)
    (hlength' : suite.sealedLength fragment'.serialize.length < 2 ^ 16) :
    RecordLayer.SealsAs crypto
      [⟨.handshake, fragment.serialize⟩, ⟨.changeCipherSpec, ChangeCipherSpec.serialize⟩,
        ⟨.handshake, fragment'.serialize⟩] rl
      [fragment.serialize.length, 1, suite.sealedLength fragment'.serialize.length] := by
  rcases hepochs.clear_of_write hwrite with ⟨hinstalled, hclear⟩
  refine RecordLayer.sealsAs_cons hcrypto hinstalled hclear hlength fun rl1 h1 => ?_
  have hwrite1 : rl1.writeEpochNr = rl.writeEpochNr := h1.writeEpochNr
  have hinstalled1 := (h1.connState_cases rl.writeEpochNr).1 hinstalled
  have hclear1 := (h1.cipherSuite rl.writeEpochNr).trans hclear
  rw [← hwrite1] at hinstalled1 hclear1
  have hone : 1 < 2 ^ 16 := by decide
  refine RecordLayer.sealsAs_cons hcrypto hinstalled1 hclear1 hone fun rl2 h2 => ?_
  have hwrite2 : rl2.writeEpochNr = 1 := by
    rw [h2.writeEpochNr, hwrite1, hwrite]
    rfl
  have hinstalled2 : (rl2.connState rl2.writeEpochNr).Installed := by
    rw [hwrite2]
    exact (h2.connState_cases 1).1 ((h1.connState_cases 1).1 ((hepochs.epoch 1).negotiated rfl).installed)
  have hsuite2 : (rl2.connState rl2.writeEpochNr).cipherSuite = some suite := by
    rw [hwrite2, h2.cipherSuite, h1.cipherSuite, hsuite]
  exact RecordLayer.sealsAs_cons hcrypto hinstalled2 hsuite2 hlength'
    fun _ _ => RecordLayer.sealsAs_nil

-- ClientKeyExchange and ChangeCipherSpec go out in the clear, Finished under the negotiated suite.
theorem sendFinishedFlight_sends (hcrypto : crypto.KeepsLengths) (identity : Bytes)
    {suite : CipherSuite} (hepochs : EpochsInv crypto true f.recordLayer)
    (hwrite : f.recordLayer.writeEpochNr = 0) (hbuffer : f.bufferedOutgoingMessages = [])
    (hsuite : (f.recordLayer.connState 1).cipherSuite = some suite)
    (hverify : suite.verifyDataLength = 12) :
    Ends (sendFinishedFlight crypto identity) f
      (fun _ f' => SendsRecords f.recordLayer.udpSocket f'.recordLayer.udpSocket
        [12 + min 1240 (2 + identity.length), 1, suite.sealedLength 24]) (fun _ _ => False) := by
  apply (sendFinishedFlight_result identity hepochs hwrite hbuffer).mono
  · intro _ f' h
    rcases h with ⟨keyExchange, finished, fragments, fragments', datagram, rl', hflight, hok, hsent, rfl⟩
    have hke : keyExchange.msgType ≠ .finished := by
      rw [hflight.keyExchange_type]
      decide
    have hbody : keyExchange.body.serialize.length = 2 + identity.length := by
      rw [hflight.keyExchange_body, keyExchange_length]
    have hbody' : finished.body.serialize.length = 12 := by
      rcases hflight.verifyData with ⟨data, hdata, hverifyData⟩
      rw [hdata, finished_length, verifyData_length hsuite hverifyData, hverify]
    rcases Handshake.split_length hflight.keyExchange_split (List.ne_nil_of_length_pos (by omega)) with
      ⟨fragment, rfl, hlength⟩
    rcases Handshake.split_length hflight.finished_split (List.ne_nil_of_length_pos (by omega)) with
      ⟨fragment', rfl, hlength'⟩
    rw [outgoingMessages_flight hke hflight.finished_type] at hok hsent
    refine sendsRecords_withFlight ?_ hok hsent [.finished]
    rw [hbody'] at hlength'
    rw [hbody] at hlength
    have hlength' : fragment'.serialize.length = 24 := hlength'
    have hsealed := suite.sealedLength_le 24
    rw [← hlength, ← hlength']
    rw [← hlength'] at hsealed
    exact sealsAs_finishedFlight hcrypto hepochs hwrite hsuite (by omega) (by omega)
  · exact fun _ _ h => h

/-! ## The flights of the handlers -/

theorem cipherSuites_length (opts : Options) (random : Random) :
    (ClientHandshakeHandler.clientHello opts random).cipherSuites.length =
      (opts.ciphers.map List.length).getD 11 := by
  unfold ClientHandshakeHandler.clientHello
  cases opts.ciphers with
  | none => rfl
  | some ciphers => simp

-- A ClientHello is one record in the clear.
theorem helloFlight_sends (hcrypto : crypto.KeepsLengths) {random : Random}
    (hrandom : random.randomBytes.length = 28) (opts : Options) (seq : Nat) (cookie : Bytes)
    (hepochs : EpochsInv crypto f.keyed f.recordLayer)
    (hbuffer : f.bufferedOutgoingMessages = []) (hwrite : f.recordLayer.writeEpochNr = 0)
    (expectedResponses : List HandshakeType) :
    Ends (sendFlight crypto [⟨seq, .clientHello
        { ClientHandshakeHandler.clientHello opts random with cookie := cookie }⟩] expectedResponses) f
      (fun _ f' => SendsRecords f.recordLayer.udpSocket f'.recordLayer.udpSocket
        [12 + min 1240 (40 + cookie.length + 2 * (opts.ciphers.map List.length).getD 11)])
      (fun _ _ => False) := by
  have hlength := clientHello_length opts cookie hrandom
  rw [cipherSuites_length] at hlength
  have hbody : (HandshakeBody.clientHello
      { ClientHandshakeHandler.clientHello opts random with cookie := cookie }).serialize ≠ [] := by
    apply List.ne_nil_of_length_pos
    omega
  rw [← hlength]
  exact sendFlight_sends hcrypto hepochs hbuffer hwrite HandshakeType.noConfusion hbody expectedResponses

-- The table has no suite under which the Finished message gets longer than 96 bytes.
theorem psk_sealedLength {suite : CipherSuite} (hmem : suite ∈ CipherSuites.values)
    (hpsk : suite.keyExchange = some .psk) :
    suite.verifyDataLength = 12 ∧ suite.sealedLength 24 ≤ 96 := by
  have hall : ∀ s ∈ CipherSuites.values, s.keyExchange = some .psk →
      s.verifyDataLength = 12 ∧ s.sealedLength 24 ≤ 96 := by decide +kernel
  exact hall suite hmem hpsk

theorem handleHelloVerifyRequest_sends (hcrypto : crypto.KeepsLengths) {opts : Options}
    {random : Random} (hrandom : random.randomBytes.length = 28) {messages : List Handshake}
    {seq seq' : Nat} {request : HelloVerifyRequest} (hinv : Inv crypto f)
    (hwrite : f.recordLayer.writeEpochNr = 0)
    (hlast : messages.getLast? = some ⟨seq, .helloVerifyRequest request⟩)
    (hflight : f.lastFlight =
      [⟨seq', .clientHello (ClientHandshakeHandler.clientHello opts random)⟩]) :
    Ends (handleHelloVerifyRequest opts crypto messages) f
      (fun _ f' => SendsRecords f.recordLayer.udpSocket f'.recordLayer.udpSocket
        [12 + min 1240 (40 + request.cookie.length + 2 * (opts.ciphers.map List.length).getD 11)])
      (fun _ _ => False) := by
  unfold handleHelloVerifyRequest
  rw [ends_bind, ends_get, hlast, hflight]
  simp only [List.head?_cons]
  split
  · rw [ends_bind, ends_modify]
    have hepochs : EpochsInv crypto f.keyed f.resetWindow.recordLayer :=
      hinv.epochs.congr f.connState_resetWindow rfl
    exact @helloFlight_sends _ f.resetWindow hcrypto _ hrandom opts _ _ hepochs hinv.buffer hwrite _
  · exact helloFlight_sends hcrypto hrandom opts _ _ hinv.epochs hinv.buffer hwrite _

/-- Behind a ServerHelloDone nothing is sent if the keys cannot be derived. -/
theorem answerWithPsk_sends (hcrypto : crypto.KeepsLengths) (identity psk : Bytes)
    {suite : CipherSuite} (hinv : Inv crypto f)
    (hsuite : f.recordLayer.nextEpoch.connectionState.cipherSuite = some suite)
    (hpsk : suite.keyExchange = some .psk) :
    Ends (do
        installKeys crypto psk
        sendFinishedFlight crypto identity
        return true) f
      (fun _ f' => SendsRecords f.recordLayer.udpSocket f'.recordLayer.udpSocket
        [12 + min 1240 (2 + identity.length), 1, suite.sealedLength 24])
      (fun e f' => f' = f ∧ f.recordLayer.nextEpoch.connectionState.computeMasterSecret crypto
        (.ofPsk psk) = .error e) := by
  rw [ends_bind]
  apply (installKeys_ends psk hinv hsuite hpsk).mono
  · intro _ f1 hkeys
    rcases hkeys.changes with ⟨rl, rfl, _, hwrite, hudp⟩
    have hnext : f.recordLayer.nextEpochNr = 1 := by
      rw [RecordLayer.nextEpochNr, hkeys.readEpochNr, hkeys.writeEpochNr]
      rfl
    have hsuite1 : (rl.connState 1).cipherSuite = some suite := by
      rw [← hsuite, RecordLayer.nextEpoch, hnext]
      exact congrArg Parameters.cipherSuite (congrFun hkeys.parameters 1)
    have hverify := (psk_sealedLength ((hkeys.epochs.epoch 1).suite_mem suite hsuite1) hpsk).1
    rw [ends_bind]
    apply (sendFinishedFlight_sends hcrypto identity hkeys.epochs hwrite hinv.buffer hsuite1
      hverify).mono
    · intro _ f2 hsends
      show SendsRecords f.recordLayer.udpSocket _ _
      rw [← hudp]
      exact hsends
    · exact fun _ _ h => h.elim
  · exact fun _ _ h => h

-- Both randoms are there, and the suite is one of the table with a PRF.
theorem handleServerHelloDoneFlight_sends (hcrypto : crypto.KeepsLengths) {opts : Options}
    {identity psk clientRandom : Bytes} {seq seq' : Nat} {hello : ServerHello} {suite : CipherSuite}
    {prf : HashAlgorithm} (hinv : Inv crypto f) (hnone : f.expectedResponses = none)
    (hnext : f.recordLayer.nextEpochNr = 1) (hwrite : f.recordLayer.writeEpochNr = 0)
    (hclient : (f.recordLayer.connState 1).clientRandom = some clientRandom)
    (hsuite : CipherSuites.byId hello.cipherSuite = some suite)
    (hpsk : suite.keyExchange = some .psk) (hprf : suite.prfAlgorithm = some prf)
    (hhead : opts.psk.head? = some (identity, psk)) :
    Ends (handleServerHelloDoneFlight opts crypto
        [⟨seq, .serverHello hello⟩, ⟨seq', .serverHelloDone⟩]) f
      (fun _ f' => SendsRecords f.recordLayer.udpSocket f'.recordLayer.udpSocket
        [12 + min 1240 (2 + identity.length), 1, suite.sealedLength 24]) (fun _ _ => False) := by
  have hinv1 := ((handleServerHello_ends hello hinv (.inl hnone)).of_ok
    (handleServerHello_eq hello f)).1.inv
  have hstate : (withServerHello hello f.recordLayer).nextEpoch.connectionState = _ :=
    (congrArg (withServerHello hello f.recordLayer).connState hnext).trans
      (connState_withServerHello_first hello hnext hwrite)
  have hsuite1 : (withServerHello hello f.recordLayer).nextEpoch.connectionState.cipherSuite =
      some suite := by
    rw [hstate]
    exact hsuite
  rw [handleServerHelloDoneFlight]
  simp only [pure_bind]
  rw [ends_bind, ends_of_eq_ok (handleServerHello_eq hello f)]
  simp only [if_true]
  rw [handleServerHelloDoneFlight, ends_bind]
  unfold handleServerHelloDone
  rw [ends_bind, ends_get]
  simp only [hsuite1, if_pos hpsk, hhead]
  apply (answerWithPsk_sends hcrypto identity psk hinv1 hsuite1 hpsk).mono
  · intro goOn f' hsends
    cases goOn with
    | false => exact hsends
    | true => exact hsends
  · rintro e f' ⟨_, herror⟩
    rw [hstate, ConnectionState.computeMasterSecret] at herror
    simp only [hsuite, hprf, hclient, ConnectionState.concatRandoms] at herror
    cases herror

end FlightState

end DtlsClient
