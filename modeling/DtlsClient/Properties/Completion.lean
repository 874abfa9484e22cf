import DtlsClient.Properties.Arriving
import DtlsClient.Properties.Channel
import DtlsClient.Properties.KeyExchange

/-!
# A server that follows the protocol

It asks for a cookie, selects a PSK suite and finishes with verify data over the messages as they were sent.
Its messages may come in any pieces.  The client answers with the keys of the session, and the handshake
completes.
-/

open Library

namespace DtlsClient

open ClientHandshakeHandler

/-! ## HelloVerifyRequest -/

theorem ConnectionState.OnlyCipher.decipher {c c' : ConnectionState} (h : c.OnlyCipher c') :
    c'.decipher = c.decipher := by
  rw [h]
  rfl

theorem ConnectionState.OnlyCipher.readInTheClear {c c' : ConnectionState} (h : c.OnlyCipher c')
    (hclear : c.ReadInTheClear) : c'.ReadInTheClear := by
  rcases hclear with ⟨d, hd, hnull⟩
  exact ⟨d, h.decipher.trans hd, hnull⟩

-- With the NULL suite only a cached decipher could read otherwise.
theorem ConnectionState.ReadInTheClear.of_cachedDecipher {c c' : ConnectionState}
    (h : c.ReadInTheClear) (hnull : c'.cipherSuite = some CipherSuites.TLS_NULL_WITH_NULL_NULL)
    (hcached : c'.cachedDecipher = c.cachedDecipher) : c'.ReadInTheClear := by
  apply readInTheClear hnull rfl
  intro d hd
  rcases h with ⟨d', hd', hnull'⟩
  unfold decipher at hd'
  rw [← hcached, hd] at hd'
  rw [Option.some.inj hd']
  exact hnull'

namespace FlightState

variable {crypto : Crypto} {f f' : FlightState}

/-- The ClientHello has been sent again, as `hello`, and goes into the transcript. -/
structure Greeted (crypto : Crypto) (hello : Handshake) (f f' : FlightState) : Prop where
  inv : Inv crypto f'
  expectedResponses : f'.expectedResponses = some [.serverHelloDone]
  finishedCalls : f'.finishedCalls = f.finishedCalls
  readEpochNr : f'.recordLayer.readEpochNr = f.recordLayer.readEpochNr
  connState : ∀ i, (f.recordLayer.connState i).OnlyCipher (f'.recordLayer.connState i)
  sends : Sends crypto f [.flight [hello]] f'
  allHandshakeData : f'.allHandshakeData = f.allHandshakeData ++ [hello.toFragment.serialize]

-- Sending it.
theorem sendFlight_greeted {hello : Handshake} (hinv : Inv crypto f)
    (hwrite : f.recordLayer.writeEpochNr = 0)
    (hclear : (f.recordLayer.connState 1).cipherSuite = some CipherSuites.TLS_NULL_WITH_NULL_NULL)
    (htype : hello.msgType ≠ .finished) (hhash : needsToHashMessage hello = true) :
    Ends (sendFlight crypto [hello] [.serverHelloDone]) f
      (fun _ => Greeted crypto (f.numbered hello) f) (fun _ _ => False) := by
  apply (((sendFlight_result hinv.epochs hinv.buffer htype _).and
    (sendFlight_sends_one hinv.epochs hinv.buffer htype _)).and
    (sendFlight_ends hinv.epochs hinv.buffer htype _)).mono
  · rintro _ f' ⟨⟨⟨fragments, datagram, rl', _, _, hsent, rfl⟩, hsends⟩, hflight⟩
    refine ⟨⟨hflight.epochs, hflight.buffer, ?_⟩, rfl, rfl, hsent.readEpochNr, hsent.connState, hsends.1,
      ?_⟩
    · rw [hflight.expectedResponses]
      exact .cookie (hflight.writeEpochNr.trans hwrite) ((hflight.cipherSuite 1).trans hclear)
    · have hhash : needsToHashMessage (f.numbered hello) = true := hhash
      exact allHandshakeData_withMessage (f := { f with
        sendFlightBeginWasCalled := true
        lastFlight := [] }) hhash fragments
  · exact fun _ _ h => h.2

-- The windows do not matter.
theorem Greeted.of_resetWindow {hello : Handshake} (h : Greeted crypto hello f.resetWindow f') :
    Greeted crypto hello f f' where
  inv := h.inv
  expectedResponses := h.expectedResponses
  finishedCalls := h.finishedCalls
  readEpochNr := h.readEpochNr
  connState := fun i => connState_resetWindow f i ▸ h.connState i
  sends := (Sends.nothing (writesNothing_resetWindow f) rfl).trans h.sends
  allHandshakeData := h.allHandshakeData

theorem Inv.resetWindow (h : Inv crypto f) : Inv crypto f.resetWindow where
  epochs := h.epochs.congr (connState_resetWindow f) rfl
  buffer := h.buffer
  awaits := h.awaits.congr rfl (by rw [connState_resetWindow]) (List.Subset.refl _) rfl
    (List.Subset.refl _)

/-- The handler of a HelloVerifyRequest with a cookie. -/
theorem handleHelloVerifyRequest_greeted (opts : Options) {messages : List Handshake}
    {seq messageSeq : Nat} {request : HelloVerifyRequest} {hello : ClientHello} (hinv : Inv crypto f)
    (hwrite : f.recordLayer.writeEpochNr = 0)
    (hclear : (f.recordLayer.connState 1).cipherSuite = some CipherSuites.TLS_NULL_WITH_NULL_NULL)
    (hlast : messages.getLast? = some ⟨seq, .helloVerifyRequest request⟩)
    (hflight : f.lastFlight.head? = some ⟨messageSeq, .clientHello hello⟩)
    (hcookie : request.cookie ≠ []) :
    Ends (handleHelloVerifyRequest opts crypto messages) f
      (fun _ => Greeted crypto
        (f.numbered ⟨messageSeq, .clientHello { hello with cookie := request.cookie }⟩) f)
      (fun _ _ => False) := by
  have hhash : needsToHashMessage ⟨messageSeq, .clientHello { hello with cookie := request.cookie }⟩ =
      true := decide_eq_true (List.length_pos_iff.mpr hcookie)
  unfold handleHelloVerifyRequest
  rw [ends_bind, ends_get, hlast, hflight]
  simp only
  generalize hsame : (⟨messageSeq, .clientHello { hello with cookie := request.cookie }⟩ : Handshake) =
    message at hhash ⊢
  have htype : message.msgType ≠ .finished := by
    rw [← hsame]
    exact HandshakeType.noConfusion
  split
  · rw [ends_bind, ends_modify]
    show Ends _ f.resetWindow _ _
    have hclear' : (f.resetWindow.recordLayer.connState 1).cipherSuite =
        some CipherSuites.TLS_NULL_WITH_NULL_NULL := by
      rw [connState_resetWindow]
      exact hclear
    apply (sendFlight_greeted hinv.resetWindow hwrite hclear' htype hhash).mono
    · exact fun _ _ h => h.of_resetWindow
    · exact fun _ _ h => h
  · exact sendFlight_greeted hinv hwrite hclear htype hhash

/-- What becomes of the handshake when the request has arrived. -/
theorem answered_greeted (opts : Options) {verify : Handshake} {request : HelloVerifyRequest}
    {messageSeq : Nat} {hello : ClientHello} (hinv : Inv crypto f)
    (hwrite : f.recordLayer.writeEpochNr = 0)
    (hclear : (f.recordLayer.connState 1).cipherSuite = some CipherSuites.TLS_NULL_WITH_NULL_NULL)
    (hverify : verify.body = .helloVerifyRequest request)
    (hflight : f.lastFlight.head? = some ⟨messageSeq, .clientHello hello⟩)
    (hcookie : request.cookie ≠ []) :
    Greeted crypto (f.numbered ⟨messageSeq, .clientHello { hello with cookie := request.cookie }⟩)
      (f.startFlight []) (f.answered opts crypto [verify] verify) := by
  have hmsg : verify = ⟨verify.messageSeq, .helloVerifyRequest request⟩ := by rw [← hverify]
  have htype : verify.msgType = .helloVerifyRequest := by rw [hmsg]; rfl
  have hbefore : ClientHandshakeHandler.beforeFlight [verify] verify f = f.startFlight [] := by
    unfold ClientHandshakeHandler.beforeFlight startFlight
    rw [hmsg]
    rfl
  have hends : Ends (handle opts crypto verify.msgType [verify]) (f.startFlight [])
      (fun _ => Greeted crypto
        (f.numbered ⟨messageSeq, .clientHello { hello with cookie := request.cookie }⟩)
        (f.startFlight [])) (fun _ _ => False) := by
    rw [htype]
    have hlast : [verify].getLast? = some ⟨verify.messageSeq, .helloVerifyRequest request⟩ :=
      congrArg some hmsg
    exact handleHelloVerifyRequest_greeted opts (Handled.startFlight hinv []).inv hwrite hclear hlast
      hflight hcookie
  rcases hends.exists_ok with ⟨_, f', hok, hgreeted⟩
  have hanswered : f.answered opts crypto [verify] verify = f' := by
    unfold FlightState.answered
    rw [hbefore, hok, ClientHandshakeHandler.afterFlight, htype]
    rfl
  rw [hanswered]
  exact hgreeted

end FlightState

/-! ## The client with its cookie -/

/-- The ClientHello with the cookie that was asked for. -/
def cookieHello (opts : Options) (random : Random) (cookie : Bytes) : Handshake :=
  ⟨1, .clientHello { clientHello opts random with cookie := cookie }⟩

theorem client_lastSentSeqNum (opts : Options) (crypto : Crypto) (random : Random) :
    (client opts crypto random).init.socket.handshakeHandler.lastSentSeqNum = 0 := by
  apply client_sends (P := fun s : Socket => s.handshakeHandler.lastSentSeqNum = 0)
  intro f hello hf hhello
  have hepochs := FlightState.listening_epochs crypto random
  have hmsg : hello.msgType ≠ .finished := by rw [hhello]; exact HandshakeType.noConfusion
  have hbuffer : f.bufferedOutgoingMessages = [] := by rw [hf]; rfl
  rw [← hf] at hepochs
  apply (FlightState.sendFlight_result hepochs hbuffer hmsg _).mono
  · rintro _ f' ⟨fragments, datagram, rl', _, _, _, rfl⟩
    show f.lastSentSeqNum + 1 = 0
    rw [hf]
    rfl
  · exact fun _ _ h => h

/-- The client has sent this ClientHello and waits for the server's flight; nothing of epoch 1 was
read. -/
structure Greets (crypto : Crypto) (clientRandom : Bytes) (hello : Handshake) (s : Socket) : Prop where
  inv : ClientInv crypto s
  isClosed : s.isClosed = false
  clear : (s.recordLayer.connState 0).ReadInTheClear
  awaits : FlightState.AwaitsKeyExchange crypto clientRandom s.handshakeHandler.toFlightState
  expectedResponses : s.handshakeHandler.expectedResponses = some [.serverHelloDone]
  buffers : s.buffers = (0, [], .empty)
  cachedDecipher : (s.recordLayer.connState 1).cachedDecipher = none
  lastSentSeqNum : s.handshakeHandler.lastSentSeqNum = 1
  allHandshakeData : s.handshakeHandler.allHandshakeData = [hello.toFragment.serialize]

theorem client_greets (opts : Options) (crypto : Crypto) (random : Random) {verify : Sent}
    {request : HelloVerifyRequest} {arrivals : List Arrival}
    (hverify : verify.message.body = .helloVerifyRequest request) (hseq : verify.seqNum = 0)
    (hcookie : request.cookie ≠ [])
    (harrives : FlightArrives opts crypto (client opts crypto random).init.socket [verify] arrivals) :
    Greets crypto random.serialize (cookieHello opts random request.cookie)
      (arrivals.foldl (Socket.arrive opts crypto) (client opts crypto random).init.socket) ∧
    FlightState.Sends crypto (client opts crypto random).init.socket.handshakeHandler.toFlightState
      [.flight [cookieHello opts random request.cookie]]
      (arrivals.foldl (Socket.arrive opts crypto)
        (client opts crypto random).init.socket).handshakeHandler.toFlightState := by
  have hstarted := client_started opts crypto random
  have hnumber := client_lastSentSeqNum opts crypto random
  have hfresh : ((client opts crypto random).init.socket.recordLayer.connState 1).cachedDecipher =
      none := by
    rcases client_init opts crypto random with ⟨s, hinit, _, _, hcached, _⟩
    rw [hinit]
    exact hcached 1
  generalize (client opts crypto random).init.socket = s at *
  have hinv := hstarted.awaits.inv
  have hstanding := hstarted.awaits.standing
  have hbuffers := hstarted.awaits.buffers
  have hexpected : s.handshakeHandler.expectedResponses =
      some [.serverHelloDone, .helloVerifyRequest] := congrArg Standing.expectedResponses hstanding
  have hlastFlight : s.handshakeHandler.lastFlight.head? =
      some ⟨0, .clientHello (clientHello opts random)⟩ :=
    congrArg List.head? (congrArg Standing.lastFlight hstanding)
  have hdata : s.handshakeHandler.allHandshakeData = [] :=
    congrArg Standing.allHandshakeData hstanding
  have hawaits : FlightState.AwaitsKeyExchange crypto random.serialize
      s.handshakeHandler.toFlightState :=
    ⟨hinv.flight, ⟨_, hexpected, List.mem_cons_self⟩, hstarted.awaits.readEpochNr,
      hstarted.awaits.clientRandom⟩
  have hgreeted : ∀ rl, RecordLayer.Heard s.recordLayer rl →
      FlightState.Inv crypto (s.handshakeHandler.setRecordLayer rl).toFlightState →
      FlightState.Greeted crypto (cookieHello opts random request.cookie)
        ((s.handshakeHandler.setRecordLayer rl).toFlightState.startFlight [])
        ((s.handshakeHandler.setRecordLayer rl).toFlightState.answered opts crypto [verify.message]
          verify.message) := by
    intro rl hheard hinv'
    have hwrite : rl.writeEpochNr = 0 := hheard.silent.writeEpochNr.trans hawaits.writeEpochNr.1
    have hclear : (rl.connState 1).cipherSuite = some CipherSuites.TLS_NULL_WITH_NULL_NULL := by
      rw [hheard.later 1 Nat.one_ne_zero]
      exact hawaits.writeEpochNr.2
    have hanswered := FlightState.answered_greeted opts hinv' hwrite hclear hverify hlastFlight hcookie
    have hsame : (s.handshakeHandler.setRecordLayer rl).toFlightState.numbered
        ⟨0, .clientHello { clientHello opts random with cookie := request.cookie }⟩ =
          cookieHello opts random request.cookie := by
      show (⟨(s.handshakeHandler.lastSentSeqNum + 1).toNat, _⟩ : Handshake) = _
      rw [hnumber]
      rfl
    rw [hsame] at hanswered
    exact hanswered
  have hexpects : s.handshakeHandler.Expects [] verify := by
    refine ⟨⟨0, ?_, ?_⟩, _, hexpected, ?_, fun m hm => absurd hm List.not_mem_nil⟩
    · rw [(Prod.mk.inj hbuffers).1]
      rfl
    · show [verify.seqNum] = [0]
      rw [hseq]
    · rw [Handshake.msgType, hverify]
      exact List.mem_cons_of_mem _ List.mem_cons_self
  have hquiet : ReportsNothing opts crypto (([] ++ [verify] : List Sent).map (·.message)) verify.message s := by
    intro rl hheard hinv'
    exact (hgreeted rl hheard hinv').finishedCalls.trans hinv.finishedCalls
  have harrives : FlightArrives opts crypto s ([] ++ [verify]) arrivals := harrives
  have hcompletes := harrives.completes hinv hexpects hstarted.clear
    (Prod.mk.inj (Prod.mk.inj hbuffers).2).1 (Prod.mk.inj (Prod.mk.inj hbuffers).2).2
    hstarted.isClosed hquiet
  rcases hcompletes.answered with ⟨rl, hheard, hinv', hflight, hbuffers', hopen⟩
  have h := hgreeted rl hheard hinv'
  generalize arrivals.foldl (Socket.arrive opts crypto) s = s' at *
  have hflight : s'.handshakeHandler.toFlightState =
    (s.handshakeHandler.setRecordLayer rl).toFlightState.answered opts crypto [verify.message]
      verify.message := hflight
  rw [← hflight] at h
  have hconn : ∀ i, (rl.connState i).OnlyCipher (s'.recordLayer.connState i) := h.connState
  have hread : s'.recordLayer.readEpochNr = 0 :=
    h.readEpochNr.trans (hheard.readEpochNr.trans hawaits.readEpochNr)
  have hone : rl.connState 1 = s.recordLayer.connState 1 := hheard.later 1 Nat.one_ne_zero
  have hsilent : FlightState.Sends crypto s.handshakeHandler.toFlightState []
      ((s.handshakeHandler.setRecordLayer rl).toFlightState.startFlight []) :=
    .nothing hheard.silent rfl
  have hsends := hsilent.trans h.sends
  refine ⟨⟨hcompletes.inv, hopen.trans hstarted.isClosed, (hconn 0).readInTheClear hheard.clear,
    ⟨hcompletes.inv.flight, ⟨_, h.expectedResponses, List.mem_cons_self⟩, hread, ?_⟩,
    h.expectedResponses, ?_, ?_, ?_, ?_⟩, hsends⟩
  · show (s'.recordLayer.connState 1).clientRandom = _
    rw [hconn 1, hone]
    exact hawaits.clientRandom
  · have hnumber : verify.message.messageSeq = 0 := by
      rw [Handshake.fromFragment_messageSeq (verify.parses zeros)]
      exact hseq
    rw [hbuffers', hnumber]
    rfl
  · rw [hconn 1, hone]
    exact hfresh
  · have hnext := hsends.lastSentSeqNum
    rw [hnumber] at hnext
    exact hnext
  · have hall := h.allHandshakeData
    have hnil : ((s.handshakeHandler.setRecordLayer rl).toFlightState.startFlight
        []).allHandshakeData = [] := by
      show s.handshakeHandler.allHandshakeData ++ [] = []
      rw [hdata, List.append_nil]
    rw [hnil, List.nil_append] at hall
    exact hall

/-! ## The client with its keys -/

/-- The client has the secrets of the session and waits for the server's Finished message. -/
structure HasKeys (crypto : Crypto) (session : Session) (transcript : List Bytes) (lastSeqNum : Nat)
    (s : Socket) : Prop where
  inv : ClientInv crypto s
  isClosed : s.isClosed = false
  clear : (s.recordLayer.connState 0).ReadInTheClear
  readEpochNr : s.recordLayer.readEpochNr = 0
  writeEpochNr : s.recordLayer.writeEpochNr = 1
  expectedResponses : s.handshakeHandler.expectedResponses = some [.finished]
  buffers : s.buffers = ((lastSeqNum : Int), [], IndexMap.empty)
  agrees : session.Agrees crypto (s.recordLayer.connState 1)
  decipher : (s.recordLayer.connState 1).decipher =
    some ⟨session.suite, some (session.keyMaterial crypto), .client⟩
  allHandshakeData : s.handshakeHandler.allHandshakeData = transcript

theorem Session.Agrees.specify {crypto : Crypto} {session : Session} {c : ConnectionState}
    (h : session.Agrees crypto c) (hentity : c.entity = .client) :
    c.specify = some ⟨session.suite, some (session.keyMaterial crypto), .client⟩ := by
  unfold ConnectionState.specify
  rw [h.cipherSuite, h.keyMaterial, hentity]
  rfl

-- What has not been used yet is created from what both ends agree on.
theorem Session.Agrees.decipher {crypto : Crypto} {session : Session} {c : ConnectionState}
    (h : session.Agrees crypto c) (hentity : c.entity = .client) (hcached : c.cachedDecipher = none) :
    c.decipher = some ⟨session.suite, some (session.keyMaterial crypto), .client⟩ := by
  unfold ConnectionState.decipher
  rw [hcached]
  exact h.specify hentity

/-- The transcript when the server's flight has arrived. -/
def serverTranscript (hello : Handshake) (messages : List Handshake) : List Bytes :=
  hello.toFragment.serialize :: FlightState.hashedFlight messages

/-- The transcript when the client has answered. -/
def Session.clientTranscript (crypto : Crypto) (session : Session) (identity : Bytes)
    (transcript : List Bytes) : List Bytes :=
  transcript ++ (session.clientFlight crypto identity 1 transcript).map fun h => h.toFragment.serialize

theorem Greets.answered {opts : Options} {crypto : Crypto} {session : Session} {identity : Bytes}
    {hello : Handshake} {s : Socket} {init : List Sent} {final : Sent} {arrivals : List Arrival}
    (h : Greets crypto session.clientRandom hello s)
    (hpsk : opts.psk.head? = some (identity, session.psk))
    (hoffers : FlightState.Offers session (init.map (·.message)))
    (hdone : final.message.body = .serverHelloDone)
    (hnumbers : (init ++ [final]).map Sent.seqNum = List.range' 1 (init.length + 1))
    (harrives : FlightArrives opts crypto s (init ++ [final]) arrivals) :
    HasKeys crypto session (session.clientTranscript crypto identity
        (serverTranscript hello ((init ++ [final]).map (·.message)))) (init.length + 1)
      (arrivals.foldl (Socket.arrive opts crypto) s) ∧
    FlightState.Sends crypto s.handshakeHandler.toFlightState
      [.flight (session.clientFlight crypto identity 1
        (serverTranscript hello ((init ++ [final]).map (·.message))))]
      (arrivals.foldl (Socket.arrive opts crypto) s).handshakeHandler.toFlightState := by
  have hexpects : s.handshakeHandler.Expects init final := by
    refine ⟨⟨1, ?_, hnumbers⟩, _, h.expectedResponses, ?_, ?_⟩
    · rw [(Prod.mk.inj h.buffers).1]
      rfl
    · rw [Handshake.msgType, hdone]
      exact List.mem_cons_self
    · intro m hm hmem
      exact hoffers.noServerHelloDone m.message (List.mem_map_of_mem hm) (List.mem_singleton.mp hmem)
  have hmessages : (init ++ [final]).map (·.message) = init.map (·.message) ++ [final.message] := by
    rw [List.map_append]
    rfl
  have hexchanged : ∀ rl, RecordLayer.Heard s.recordLayer rl →
      FlightState.Inv crypto (s.handshakeHandler.setRecordLayer rl).toFlightState →
      FlightState.KeysExchanged crypto session identity
        ((s.handshakeHandler.setRecordLayer rl).toFlightState.startFlight
          (FlightState.hashedFlight ((init ++ [final]).map (·.message))))
        ((s.handshakeHandler.setRecordLayer rl).toFlightState.answered opts crypto
          ((init ++ [final]).map (·.message)) final.message) := by
    intro rl hheard hinv
    have hawaits : FlightState.AwaitsKeyExchange crypto session.clientRandom
        (s.handshakeHandler.setRecordLayer rl).toFlightState := by
      refine ⟨hinv, h.awaits.expectedResponses, hheard.readEpochNr.trans h.awaits.readEpochNr, ?_⟩
      show (rl.connState 1).clientRandom = _
      rw [hheard.later 1 Nat.one_ne_zero]
      exact h.awaits.clientRandom
    rw [hmessages]
    exact hawaits.answered hpsk hoffers hdone
  have hquiet : ReportsNothing opts crypto ((init ++ [final]).map (·.message)) final.message s := by
    intro rl hheard hinv
    exact (hexchanged rl hheard hinv).finishedCalls.trans h.inv.finishedCalls
  have hcompletes := harrives.completes h.inv hexpects h.clear (Prod.mk.inj (Prod.mk.inj h.buffers).2).1
    (Prod.mk.inj (Prod.mk.inj h.buffers).2).2 h.isClosed hquiet
  rcases hcompletes.answered with ⟨rl, hheard, hinv, hflight, hbuffers, hopen⟩
  have hkeys := hexchanged rl hheard hinv
  generalize arrivals.foldl (Socket.arrive opts crypto) s = s' at *
  rw [← hflight] at hkeys
  -- the state in which the handler is called
  generalize hbefore : (s.handshakeHandler.setRecordLayer rl).toFlightState.startFlight
    (FlightState.hashedFlight ((init ++ [final]).map (·.message))) = f at hkeys
  have hrl : f.recordLayer = rl := by rw [← hbefore]; rfl
  have hseq : f.lastSentSeqNum = 1 := by
    rw [← hbefore]
    exact h.lastSentSeqNum
  have hdata : f.allHandshakeData = serverTranscript hello ((init ++ [final]).map (·.message)) := by
    rw [← hbefore]
    show s.handshakeHandler.allHandshakeData ++ _ = _
    rw [h.allHandshakeData]
    rfl
  have hsilent : FlightState.Sends crypto s.handshakeHandler.toFlightState [] f := by
    rw [← hbefore]
    exact .nothing hheard.silent rfl
  have hsends := hsilent.trans hkeys.sends
  have hall := hkeys.allHandshakeData
  have hcached : ∀ i, (s'.recordLayer.connState i).cachedDecipher =
      (rl.connState i).cachedDecipher := by
    rw [← hrl]
    exact hkeys.cachedDecipher
  have hepochs := hcompletes.inv.epochs
  rw [hseq, hdata] at hsends hall
  refine ⟨⟨hcompletes.inv, hopen.trans h.isClosed, ?_, hkeys.readEpochNr, hkeys.writeEpochNr,
    hkeys.expectedResponses, ?_, hkeys.agrees, ?_, hall⟩, hsends⟩
  · exact hheard.clear.of_cachedDecipher ((hepochs.epoch 0).clear rfl) (hcached 0)
  · have hlast : final.message.messageSeq = init.length + 1 := by
      rw [Handshake.fromFragment_messageSeq (final.parses zeros)]
      rw [List.range'_1_concat, List.map_append] at hnumbers
      have hfinal := List.singleton_inj.mp (List.append_inj_right' hnumbers rfl)
      have hfinal : final.whole.messageSeq = 1 + init.length := hfinal
      rw [hfinal, Nat.add_comm]
    rw [hbuffers, hlast]
  · apply hkeys.agrees.decipher (hepochs.epoch 1).entity
    show (s'.recordLayer.connState 1).cachedDecipher = none
    rw [hcached 1, hheard.later 1 Nat.one_ne_zero]
    exact h.cachedDecipher

/-! ## The server's last flight -/

/-- The server's last two records: its ChangeCipherSpec, and its Finished message under the keys of the
session. -/
structure Session.Finishes (crypto : Crypto) (session : Session) (finished : Handshake)
    (ccs fin : Record) : Prop where
  changeCipherSpec : ccs.packet.type = .changeCipherSpec ∧ ccs.packet.epoch = 0
  sealed : ∃ version number, session.suite.cipher crypto
    ⟨.handshake, version, 1, number, finished.toFragment.serialize⟩ (some (session.keyMaterial crypto))
    .server = .ok fin.packet
  fits : finished.toFragment.Fits

/-- The records arrive in this order, in one datagram or two, and are admitted when they come. -/
structure LastArrives (opts : Options) (crypto : Crypto) (start : Socket) (ccs fin : Record)
    (arrivals : List Arrival) : Prop where
  records : arrivals.flatMap Arrival.records = [ccs, fin]
  admitted : ∀ r ∈ [ccs, fin], AdmittedOnArrival opts crypto start arrivals r

-- The client reads the record with the same keys.
theorem HasKeys.lastFlight {crypto : Crypto} {session : Session} {transcript : List Bytes}
    {lastSeqNum messageSeq : Nat} {s : Socket} {ccs fin : Record}
    (h : HasKeys crypto session transcript lastSeqNum s)
    (hinverts : crypto.Inverts session.suite (session.keyMaterial crypto))
    (hfinishes : session.Finishes crypto (session.serverFinished crypto messageSeq transcript) ccs fin) :
    LastFlight crypto s.recordLayer ccs fin [] (session.serverFinished crypto messageSeq transcript) := by
  rcases hfinishes.sealed with ⟨version, number, hsealed⟩
  rcases CipherSuite.cipher_header hsealed with ⟨fragment, hheader⟩
  have hinverted : Delegate.Inverted crypto
      ⟨session.suite, some (session.keyMaterial crypto), .server⟩ := by
    intro keys hkeys
    rw [← Option.some.inj hkeys]
    exact hinverts
  have hread := Delegate.decipher_mirror hinverted hsealed
  refine ⟨hfinishes.changeCipherSpec, ?_, ⟨⟨.handshake, version, 1, number, _⟩, ?_, rfl⟩,
    ⟨messageSeq, _, rfl⟩, hfinishes.fits, fun _ hr => absurd hr List.not_mem_nil⟩
  · rw [hheader]
    exact ⟨rfl, rfl⟩
  · have hepoch : fin.packet.epoch = 1 := by rw [hheader]
    show (s.recordLayer.connState fin.packet.epoch).decipher.bind _ = _
    rw [hepoch, h.decipher]
    have hread : Delegate.decipher crypto
        ⟨session.suite, some (session.keyMaterial crypto), .client⟩ fin.packet = _ := hread
    rw [Option.bind_some, hread]
    rfl

theorem HasKeys.finished {opts : Options} {crypto : Crypto} {session : Session}
    {transcript : List Bytes} {lastSeqNum : Nat} {s : Socket} {ccs fin : Record}
    {arrivals : List Arrival} (h : HasKeys crypto session transcript lastSeqNum s)
    (hinverts : crypto.Inverts session.suite (session.keyMaterial crypto))
    (hfinishes : session.Finishes crypto
      (session.serverFinished crypto (lastSeqNum + 1) transcript) ccs fin)
    (hlast : LastArrives opts crypto s ccs fin arrivals) :
    (arrivals.foldl (Socket.arrive opts crypto) s).handshakeFinished = true := by
  have hflight := h.lastFlight hinverts hfinishes
  have hunfinished : s.handshakeFinished = false := by
    by_contra hdone
    rw [Bool.not_eq_false] at hdone
    have hnone := (h.inv.finished hdone).2
    rw [h.expectedResponses] at hnone
    cases hnone
  have hconcludes : Concludes crypto s (session.serverFinished crypto (lastSeqNum + 1) transcript) := by
    refine IsServerFinished.concludes ⟨⟨_, rfl, ?_⟩, ?_, ?_⟩ h.expectedResponses
    · rw [h.allHandshakeData]
      exact h.agrees.verifies transcript
    · rw [(Prod.mk.inj h.buffers).1]
      rfl
    · exact (Prod.mk.inj (Prod.mk.inj h.buffers).2).2
  -- where the two records are
  have hmem : fin ∈ arrivals.flatMap Arrival.records := by
    rw [hlast.records]
    exact List.mem_cons_of_mem _ List.mem_cons_self
  rcases List.mem_flatMap.mp hmem with ⟨d, hd, hfin⟩
  rcases List.append_of_mem hd with ⟨before, after, hplace⟩
  rcases List.append_of_mem hfin with ⟨front, back, hsplit⟩
  have haround : Around arrivals before after d front back fin := ⟨hplace, hsplit⟩
  have hrecords : (arrivals.flatMap Arrival.records).Perm [ccs, fin] := by rw [hlast.records]
  have hwhole := haround.whole
  rw [hlast.records] at hwhole
  have hsides : before.flatMap Arrival.records ++ front = [ccs] ∧
      back ++ after.flatMap Arrival.records = [] := by
    generalize before.flatMap Arrival.records ++ front = left at hwhole ⊢
    generalize back ++ after.flatMap Arrival.records = right at hwhole ⊢
    cases left with
    | nil => exact absurd (List.cons.inj hwhole).1 hflight.changeCipherSpec_ne
    | cons r left =>
        rcases List.cons.inj hwhole with ⟨rfl, hrest⟩
        cases left with
        | nil => exact ⟨rfl, (List.cons.inj hrest).2.symm⟩
        | cons r' left =>
            have hlength := congrArg List.length hrest
            simp at hlength
  rcases hflight.switches opts (.refl h.inv h.isClosed hunfinished) h.clear hrecords haround with
    ⟨switches, hwaiting, hle, hswitched⟩
  have hone := hswitched.mpr ⟨by rw [hsides.1]; exact List.mem_cons_self,
    hlast.admitted ccs List.mem_cons_self⟩
  have hadmits := hlast.admitted fin (List.mem_cons_of_mem _ List.mem_cons_self) before d after hplace
    hfin
  have hfront : ∀ r ∈ front, r.packet.type.isCalm = true := by
    intro r hr
    have hccs : r ∈ before.flatMap Arrival.records ++ front := List.mem_append_right _ hr
    rw [hsides.1] at hccs
    rw [List.mem_singleton.mp hccs, hflight.changeCipherSpec.1]
    rfl
  rcases List.append_eq_nil_iff.mp hsides.2 with ⟨hback, hafter⟩
  rcases hflight.protects with ⟨p, hdecipher, hcontent⟩
  have htype : p.type = .handshake :=
    (RecordLayer.decipherPacket_header hdecipher).1.trans hflight.handshake.1
  have hdone := (hwaiting.arrive_finished opts h.readEpochNr h.expectedResponses hsplit hfront
    (fun r hr => by rw [hback] at hr; cases hr) hadmits hdecipher htype hcontent rfl hflight.fits
    hle).mpr ⟨hone, hconcludes⟩
  -- nothing comes behind it
  have hlater := @Socket.arrivals_handshakeFinished crypto opts after
    (fun d hd r hr => by
      have hr : r ∈ after.flatMap Arrival.records := List.mem_flatMap.mpr ⟨d, hd, hr⟩
      rw [hafter] at hr
      cases hr)
    ((before.foldl (Socket.arrive opts crypto) s).arrive opts crypto d)
  rw [hplace, List.foldl_append, List.foldl_cons, hlater]
  exact hdone

/-! ## The whole handshake -/

/-- The server's messages: a flight that offers the suite of the session, numbered behind the
HelloVerifyRequest, each encoded as it is encoded again for the transcript. -/
structure ServerFlight (session : Session) (init : List Sent) (final : Sent) : Prop where
  offers : FlightState.Offers session (init.map (·.message))
  done : final.message.body = .serverHelloDone
  numbers : (init ++ [final]).map Sent.seqNum = List.range' 1 (init.length + 1)
  hashed : ∀ m ∈ init ++ [final], FlightState.needsToHashMessage m.message = true ∧
    m.message.toFragment = m.whole

/-- The messages from the second ClientHello to the ServerHelloDone, as they are sent. -/
def sentTranscript (opts : Options) (random : Random) (cookie : Bytes) (sent : List Sent) : List Bytes :=
  (cookieHello opts random cookie).toFragment.serialize :: sent.map fun m => m.whole.serialize

theorem ServerFlight.transcript {session : Session} {init : List Sent} {final : Sent}
    (h : ServerFlight session init final) (opts : Options) (random : Random) (cookie : Bytes) :
    serverTranscript (cookieHello opts random cookie) ((init ++ [final]).map (·.message)) =
      sentTranscript opts random cookie (init ++ [final]) := by
  have hall := h.hashed
  unfold serverTranscript sentTranscript FlightState.hashedFlight
  generalize init ++ [final] = sent at hall
  rw [List.filter_eq_self.mpr, List.map_map]
  · congr 1
    apply List.map_congr_left
    intro m hm
    show m.message.toFragment.serialize = _
    rw [(hall m hm).2]
  · intro message hmessage
    rcases List.mem_map.mp hmessage with ⟨m, hm, rfl⟩
    exact (hall m hm).1

/-- The client after these datagrams. -/
def clientAfter (opts : Options) (crypto : Crypto) (random : Random) (arrivals : List Arrival) : Config :=
  (client opts crypto random).run (arrivals.flatMap Arrival.actions)

theorem clientAfter_pending (opts : Options) (crypto : Crypto) (random : Random)
    (arrivals : List Arrival) : (clientAfter opts crypto random arrivals).pending = [] := by
  have hstart : ((client opts crypto random).run []).pending = [] := rfl
  have hrun := run_arrivals opts crypto random hstart arrivals
  rw [List.nil_append] at hrun
  rw [clientAfter, hrun]

theorem clientAfter_append (opts : Options) (crypto : Crypto) (random : Random)
    (arrivals more : List Arrival) :
    more.foldl (Socket.arrive opts crypto) (clientAfter opts crypto random arrivals).socket =
      (clientAfter opts crypto random (arrivals ++ more)).socket := by
  have hrun := run_arrivals opts crypto random (clientAfter_pending opts crypto random arrivals) more
  rw [← List.flatMap_append] at hrun
  exact (congrArg Config.socket hrun).symm

theorem clientAfter_foldl (opts : Options) (crypto : Crypto) (random : Random)
    (arrivals more : List Arrival) :
    (more.flatMap Arrival.actions).foldl (step opts crypto) (clientAfter opts crypto random arrivals) =
      clientAfter opts crypto random (arrivals ++ more) := by
  unfold clientAfter
  rw [List.flatMap_append, Machine.run, Machine.run, List.foldl_append]
  rfl

-- The two randoms, the suite and the PSK have been exchanged.
theorem client_hasKeys (opts : Options) {crypto : Crypto} (random : Random) {identity : Bytes}
    {session : Session} {request : HelloVerifyRequest} {verify final : Sent} {init : List Sent}
    {greeting flight : List Arrival}
    (hpsk : opts.psk.head? = some (identity, session.psk))
    (hrandom : session.clientRandom = random.serialize)
    (hverify : verify.message.body = .helloVerifyRequest request) (hseq : verify.seqNum = 0)
    (hcookie : request.cookie ≠ []) (hserver : ServerFlight session init final)
    (hgreeting : FlightArrives opts crypto (clientAfter opts crypto random []).socket [verify] greeting)
    (hflight : FlightArrives opts crypto (clientAfter opts crypto random greeting).socket
      (init ++ [final]) flight) :
    HasKeys crypto session (session.clientTranscript crypto identity
        (sentTranscript opts random request.cookie (init ++ [final]))) (init.length + 1)
      (clientAfter opts crypto random (greeting ++ flight)).socket ∧
    FlightState.Sends crypto
      (clientAfter opts crypto random []).socket.handshakeHandler.toFlightState
      [.flight [cookieHello opts random request.cookie]]
      (clientAfter opts crypto random greeting).socket.handshakeHandler.toFlightState ∧
    FlightState.Sends crypto
      (clientAfter opts crypto random greeting).socket.handshakeHandler.toFlightState
      [.flight (session.clientFlight crypto identity 1
        (sentTranscript opts random request.cookie (init ++ [final])))]
      (clientAfter opts crypto random (greeting ++ flight)).socket.handshakeHandler.toFlightState := by
  have hgreets := client_greets opts crypto random hverify hseq hcookie hgreeting
  have hstart : (client opts crypto random).init.socket = (clientAfter opts crypto random []).socket := rfl
  rw [hstart, clientAfter_append, List.nil_append, ← hrandom] at hgreets
  have hanswered := hgreets.1.answered hpsk hserver.offers hserver.done hserver.numbers hflight
  rw [hserver.transcript, clientAfter_append] at hanswered
  exact ⟨hanswered.1, hgreets.2, hanswered.2⟩

/-- A server that asks for a cookie, selects a PSK suite and finishes over the messages as they were sent:
the client sends the ClientHello with the cookie and the last flight of the session, and emits `connected`.
From then on epoch 1 is protected with the keys of the session. -/
theorem handshake_completes (opts : Options) {crypto : Crypto} (random : Random) {identity : Bytes}
    {session : Session} {request : HelloVerifyRequest} {verify final : Sent} {init : List Sent}
    {ccs fin : Record} {greeting flight last : List Arrival}
    (hpsk : opts.psk.head? = some (identity, session.psk))
    (hrandom : session.clientRandom = random.serialize)
    (hinverts : crypto.Inverts session.suite (session.keyMaterial crypto))
    (hverify : verify.message.body = .helloVerifyRequest request) (hseq : verify.seqNum = 0)
    (hcookie : request.cookie ≠ []) (hserver : ServerFlight session init final)
    (hgreeting : FlightArrives opts crypto (clientAfter opts crypto random []).socket [verify] greeting)
    (hflight : FlightArrives opts crypto (clientAfter opts crypto random greeting).socket
      (init ++ [final]) flight)
    (hfinishes : session.Finishes crypto (session.serverFinished crypto (init.length + 2)
      (session.clientTranscript crypto identity
        (sentTranscript opts random request.cookie (init ++ [final])))) ccs fin)
    (hlast : LastArrives opts crypto (clientAfter opts crypto random (greeting ++ flight)).socket ccs fin
      last) :
    FlightState.Sends crypto
      (clientAfter opts crypto random []).socket.handshakeHandler.toFlightState
      [.flight [cookieHello opts random request.cookie]]
      (clientAfter opts crypto random greeting).socket.handshakeHandler.toFlightState ∧
    FlightState.Sends crypto
      (clientAfter opts crypto random greeting).socket.handshakeHandler.toFlightState
      [.flight (session.clientFlight crypto identity 1
        (sentTranscript opts random request.cookie (init ++ [final])))]
      (clientAfter opts crypto random (greeting ++ flight)).socket.handshakeHandler.toFlightState ∧
    (clientAfter opts crypto random (greeting ++ flight ++ last)).socket.handshakeFinished = true ∧
    (clientAfter opts crypto random (greeting ++ flight ++ last)).socket.events.count .connected = 1 ∧
    ∀ later : List Action, ((later.foldl (step opts crypto)
        (clientAfter opts crypto random (greeting ++ flight ++ last))).recordLayer.connState 1).specify =
      some ⟨session.suite, some (session.keyMaterial crypto), .client⟩ := by
  have hanswered := client_hasKeys opts random hpsk hrandom hverify hseq hcookie hserver hgreeting hflight
  have hfinished := hanswered.1.finished hinverts hfinishes hlast
  rw [clientAfter_append] at hfinished
  refine ⟨hanswered.2.1, hanswered.2.2, hfinished, ?_, ?_⟩
  · have hinv : ClientInv crypto (clientAfter opts crypto random (greeting ++ flight ++ last)).socket :=
      run_inv opts crypto random _
    rw [hinv.connected, if_pos hfinished]
  · intro later
    have hkeys := hanswered.1
    generalize hbefore : clientAfter opts crypto random (greeting ++ flight) = c at hkeys
    have hspecify : (c.recordLayer.connState 1).specify =
        some ⟨session.suite, some (session.keyMaterial crypto), .client⟩ :=
      hkeys.agrees.specify (hkeys.inv.epochs.epoch 1).entity
    have hwrite : 1 ≤ c.recordLayer.writeEpochNr := hkeys.writeEpochNr.ge
    rw [← hspecify, ← foldl_specify opts hkeys.inv hwrite (last.flatMap Arrival.actions ++ later),
      ← hbefore, List.foldl_append, clientAfter_foldl]

namespace Sample

/-- What is agreed on in a handshake with the client's PSK. -/
def session : Session where
  suite := CipherSuites.TLS_PSK_WITH_AES_128_CCM_8
  prf := .sha256
  psk := [0x62]
  clientRandom := random.serialize
  serverRandom := List.replicate 32 0
  keyExchange := rfl
  prfAlgorithm := rfl

def request : HelloVerifyRequest := ⟨⟨some 254, some 253⟩, [5]⟩

def sentVerify : Sent where
  whole := ⟨.helloVerifyRequest, 4, 0, 0, [254, 253, 1, 5]⟩
  message := ⟨0, .helloVerifyRequest request⟩
  pieces := [⟨.helloVerifyRequest, 4, 0, 0, [254, 253, 1, 5]⟩]
  totalLength := rfl
  parses memory := (fromFragment_same (by decide) memory zeros).trans (by decide)
  delivered := .whole

def helloAfterRequest : FragmentedHandshake := { serverHelloMessage with messageSeq := 1 }

/-- A ServerHello in two fragments. -/
def sentHelloAfterRequest : Sent where
  whole := helloAfterRequest
  message := { serverHelloParsed with messageSeq := 1 }
  pieces := FragmentedHandshake.fragmentsFrom helloAfterRequest 0 [serverHello.take 2, serverHello.drop 2]
  totalLength := rfl
  parses memory := (fromFragment_same (by decide) memory zeros).trans (by decide)
  delivered := .parts _ (by decide) (by decide) (by decide)

def sentDoneAfterRequest : Sent where
  whole := ⟨.serverHelloDone, 0, 2, 0, []⟩
  message := ⟨2, .serverHelloDone⟩
  pieces := [⟨.serverHelloDone, 0, 2, 0, []⟩]
  totalLength := rfl
  parses _ := rfl
  delivered := .whole

def verifyRecord : Record :=
  .ofPacket ⟨.handshake, ⟨some 254, some 253⟩, 0, 0, sentVerify.whole.serialize⟩
    ⟨by decide, by decide, by decide, by decide⟩

/-- The pieces of the server's flight, in the wrong order. -/
def flightPieces : List FragmentedHandshake :=
  sentDoneAfterRequest.pieces ++ sentHelloAfterRequest.pieces.reverse

def flightRecords : List Record :=
  [.ofPacket ⟨.handshake, ⟨some 254, some 253⟩, 0, 1, flightPieces[0].serialize⟩
      ⟨by decide, by decide, by decide, by decide⟩,
    .ofPacket ⟨.handshake, ⟨some 254, some 253⟩, 0, 2, flightPieces[1].serialize⟩
      ⟨by decide, by decide, by decide, by decide⟩,
    .ofPacket ⟨.handshake, ⟨some 254, some 253⟩, 0, 3, flightPieces[2].serialize⟩
      ⟨by decide, by decide, by decide, by decide⟩]

theorem oneDatagram {start : Socket} {sent : List Sent} {records : List Record}
    {pieces : List FragmentedHandshake} (hperm : pieces.Perm (sent.flatMap Sent.pieces))
    (hholds : List.Forall₂ Record.Holds records pieces) (hne : records ≠ [])
    (hadmits : ∀ r ∈ records, start.recordLayer.admits r.packet = true) :
    FlightArrives opts ccm start sent [arrival records] where
  pieces := ⟨[pieces], by rw [List.flatten_singleton]; exact hperm, .cons hholds .nil⟩
  nonempty d hd := by rw [List.mem_singleton.mp hd]; exact hne
  admitted before d after hsplit r hr := by
    cases before with
    | nil =>
        rw [← (List.cons.inj hsplit).1] at hr
        exact hadmits r hr
    | cons _ before =>
        have hlength := congrArg List.length (List.cons.inj hsplit).2
        simp at hlength

def finishedFlightRecords : Record × Record :=
  (.ofPacket ⟨.changeCipherSpec, ⟨some 254, some 253⟩, 0, 4, [1]⟩
      ⟨by decide, by decide, by decide, by decide⟩,
    .ofPacket serverFinish.sent ⟨by decide, by decide, by decide, by decide⟩)

-- What the run comes to, and what the server computes.
theorem completion_evaluated :
    (∀ r ∈ [verifyRecord], (clientAfter opts ccm random []).socket.recordLayer.admits r.packet =
      true) ∧
    (∀ r ∈ flightRecords, (clientAfter opts ccm random
      [arrival [verifyRecord]]).socket.recordLayer.admits r.packet = true) ∧
    (∀ r ∈ [finishedFlightRecords.1, finishedFlightRecords.2], (clientAfter opts ccm random
      ([arrival [verifyRecord]] ++ [arrival flightRecords])).socket.recordLayer.admits r.packet =
        true) ∧
    session.serverFinished ccm ([sentHelloAfterRequest].length + 2)
      (session.clientTranscript ccm [0x61] (sentTranscript opts random request.cookie
        ([sentHelloAfterRequest] ++ [sentDoneAfterRequest]))) = serverFinished ∧
    session.suite.cipher ccm serverFinish.packet (some (session.keyMaterial ccm)) .server =
      .ok finishedFlightRecords.2.packet := by
  decide +kernel

theorem greets : FlightArrives opts ccm (clientAfter opts ccm random []).socket [sentVerify]
    [arrival [verifyRecord]] := by
  apply oneDatagram (.refl _)
  · exact .cons ⟨by decide, by decide, by decide, by decide, by decide, by decide, by decide, by decide⟩
      .nil
  · exact List.cons_ne_nil _ _
  · exact completion_evaluated.1

theorem offers : FlightArrives opts ccm
    (clientAfter opts ccm random [arrival [verifyRecord]]).socket
    ([sentHelloAfterRequest] ++ [sentDoneAfterRequest]) [arrival flightRecords] := by
  have hperm : flightPieces.Perm
      (([sentHelloAfterRequest] ++ [sentDoneAfterRequest]).flatMap Sent.pieces) := by decide
  apply oneDatagram hperm
  · exact .cons ⟨by decide, by decide, by decide, by decide, by decide, by decide, by decide, by decide⟩
      (.cons ⟨by decide, by decide, by decide, by decide, by decide, by decide, by decide, by decide⟩
      (.cons ⟨by decide, by decide, by decide, by decide, by decide, by decide, by decide, by decide⟩
      .nil))
  · exact List.cons_ne_nil _ _
  · exact completion_evaluated.2.1

theorem finishes : session.Finishes ccm
    (session.serverFinished ccm ([sentHelloAfterRequest].length + 2)
      (session.clientTranscript ccm [0x61] (sentTranscript opts random request.cookie
        ([sentHelloAfterRequest] ++ [sentDoneAfterRequest]))))
    finishedFlightRecords.1 finishedFlightRecords.2 := by
  rcases completion_evaluated with ⟨_, _, _, hfinished, hsealed⟩
  rw [hfinished]
  exact ⟨by decide, ⟨_, _, hsealed⟩, by decide, by decide, by decide, by decide, by decide⟩

theorem serverFlight_follows : ServerFlight session [sentHelloAfterRequest] sentDoneAfterRequest := by
  refine ⟨⟨⟨_, _, [], rfl, ?_, ?_, ?_⟩⟩, rfl, ?_, ?_⟩
  · decide
  · decide
  · exact fun _ hm => absurd hm List.not_mem_nil
  · decide
  · decide

theorem lastArrives : LastArrives opts ccm
    (clientAfter opts ccm random ([arrival [verifyRecord]] ++ [arrival flightRecords])).socket
    finishedFlightRecords.1 finishedFlightRecords.2
    [arrival [finishedFlightRecords.1, finishedFlightRecords.2]] where
  records := rfl
  admitted r hr before d after hsplit _ := by
    cases before with
    | nil => exact completion_evaluated.2.2.1 r hr
    | cons _ before =>
        have hlength := congrArg List.length (List.cons.inj hsplit).2
        simp at hlength

end Sample

theorem handshake_completes_sample :
    let c := clientAfter Sample.opts Sample.ccm Sample.random
      ([Sample.arrival [Sample.verifyRecord]] ++ [Sample.arrival Sample.flightRecords] ++
        [Sample.arrival [Sample.finishedFlightRecords.1, Sample.finishedFlightRecords.2]])
    c.socket.handshakeFinished = true ∧ c.socket.events.count .connected = 1 := by
  have h := handshake_completes Sample.opts Sample.random rfl rfl (Sample.ccm_inverts _ _)
    rfl rfl (by decide : Sample.request.cookie ≠ []) Sample.serverFlight_follows Sample.greets
    Sample.offers Sample.finishes Sample.lastArrives
  exact ⟨h.2.2.1, h.2.2.2.1⟩

end DtlsClient
