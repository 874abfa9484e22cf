import DtlsClient.Properties.ServerFlight
import DtlsClient.Properties.Writing

/-!
# The key exchange

`Session` is what the two ends of a PSK handshake agree on, with the secrets that either end computes.  A
server's flight that selects a PSK suite leaves the client with those of the session, and the client
answers it with the flight that the session determines.
-/

open Library

namespace DtlsClient

/-- The suite, the key and the randoms of a PSK handshake. -/
structure Session where
  suite : CipherSuite
  prf : HashAlgorithm
  psk : Bytes
  clientRandom : Bytes
  serverRandom : Bytes
  keyExchange : suite.keyExchange = some .psk
  prfAlgorithm : suite.prfAlgorithm = some prf

namespace Session

def masterSecret (crypto : Crypto) (s : Session) : Bytes :=
  PRF crypto s.prf (PreMasterSecret.ofPsk s.psk).serialize (ascii "master secret")
    (s.clientRandom ++ s.serverRandom) 48

def keyMaterial (crypto : Crypto) (s : Session) : KeyMaterial :=
  ConnectionState.computeKeyMaterial crypto s.suite s.prf (s.masterSecret crypto)
    (s.serverRandom ++ s.clientRandom)

def finishedLabel : ConnectionEnd → String
  | .server => "server finished"
  | .client => "client finished"

def verifyData (crypto : Crypto) (s : Session) (source : ConnectionEnd) (transcript : List Bytes) :
    Bytes :=
  PRF crypto s.prf (s.masterSecret crypto) (ascii (finishedLabel source))
    (crypto.hash s.prf transcript.flatten) s.suite.verifyDataLength

/-- The client's last flight, whose first message has the number after `lastSeqNum`. -/
def clientFlight (crypto : Crypto) (s : Session) (identity : Bytes) (lastSeqNum : Int)
    (transcript : List Bytes) : List Handshake :=
  let keyExchange : Handshake :=
    ⟨(lastSeqNum + 1).toNat, .clientKeyExchange (ClientKeyExchange_PSK.serialize identity)⟩
  [keyExchange, ⟨(lastSeqNum + 1 + 1).toNat,
    .finished (s.verifyData crypto .client (transcript ++ [keyExchange.toFragment.serialize]))⟩]

/-- The server's answer, over the transcript with the client's Finished message. -/
def serverFinished (crypto : Crypto) (s : Session) (messageSeq : Nat) (transcript : List Bytes) :
    Handshake :=
  ⟨messageSeq, .finished (s.verifyData crypto .server transcript)⟩

/-- A client holds the secrets of the session. -/
structure Agrees (crypto : Crypto) (s : Session) (c : ConnectionState) : Prop where
  cipherSuite : c.cipherSuite = some s.suite
  masterSecret : c.masterSecret = some (s.masterSecret crypto)
  keyMaterial : c.keyMaterial = some (s.keyMaterial crypto)

variable {crypto : Crypto} {s : Session} {c : ConnectionState}

-- What the code computes is what the session says.
theorem Agrees.verifyData (h : s.Agrees crypto c) (source : ConnectionEnd) (transcript : List Bytes) :
    FlightState.verifyData crypto c source transcript.flatten =
      .ok (s.verifyData crypto source transcript) := by
  unfold FlightState.verifyData
  rw [h.cipherSuite]
  simp only [s.prfAlgorithm, h.masterSecret]
  cases source <;> rfl

theorem Agrees.verifies (h : s.Agrees crypto c) (transcript : List Bytes) :
    FlightState.Verifies crypto c transcript (s.verifyData crypto .server transcript) :=
  FlightState.verifies_of_verifyData (h.verifyData .server transcript)

theorem Agrees.onlyCipher {c' : ConnectionState} (h : s.Agrees crypto c) (hsame : c.OnlyCipher c') :
    s.Agrees crypto c' := by
  rw [hsame]
  exact ⟨h.cipherSuite, h.masterSecret, h.keyMaterial⟩

/-- From the suite, the randoms and the key the client derives the secrets of the session. -/
theorem computeMasterSecret (crypto : Crypto) (hsuite : c.cipherSuite = some s.suite)
    (hclient : c.clientRandom = some s.clientRandom)
    (hserver : c.serverRandom = some s.serverRandom) :
    c.computeMasterSecret crypto (.ofPsk s.psk) = .ok { c with
      masterSecret := some (s.masterSecret crypto)
      keyMaterial := some (s.keyMaterial crypto) } := by
  unfold ConnectionState.computeMasterSecret
  rw [hsuite]
  simp only [s.prfAlgorithm, hclient, hserver, ConnectionState.concatRandoms]
  rfl

end Session

/-- A message between ServerHello and ServerHelloDone that lets the key exchange go on. -/
def Handshake.PassesBy (msg : Handshake) : Prop :=
  match msg.body with
  | .serverHello _ => False
  | .serverHelloDone => False
  | .serverKeyExchange rawData => ∃ result,
      TLSStruct.deserialize (fun _ _ => 0) rawData ServerKeyExchange_PSK.spec 0 = .ok result
  | _ => True

namespace FlightState

variable {crypto : Crypto} {session : Session} {f f' : FlightState} {identity : Bytes}

/-! ## The flight that is answered -/

/-- Between the messages of the server's flight: both directions use epoch 0, and epoch 1 has the randoms
of the hellos. -/
structure Exchanging (crypto : Crypto) (clientRandom : Bytes) (current : Option ServerHello)
    (f : FlightState) : Prop extends Selecting crypto current f where
  readEpochNr : f.recordLayer.readEpochNr = 0
  clientRandom : (f.recordLayer.connState 1).clientRandom = some clientRandom
  serverRandom : ∀ hello, current = some hello →
    (f.recordLayer.connState 1).serverRandom = some hello.random.serialize

/-- The server's flight is answered with the flight of the session. -/
structure KeysExchanged (crypto : Crypto) (session : Session) (identity : Bytes) (f f' : FlightState) :
    Prop where
  inv : Inv crypto f'
  expectedResponses : f'.expectedResponses = some [.finished]
  finishedCalls : f'.finishedCalls = f.finishedCalls
  readEpochNr : f'.recordLayer.readEpochNr = 0
  writeEpochNr : f'.recordLayer.writeEpochNr = 1
  agrees : session.Agrees crypto (f'.recordLayer.connState 1)
  cachedDecipher : ∀ i, (f'.recordLayer.connState i).cachedDecipher =
    (f.recordLayer.connState i).cachedDecipher
  sends : Sends crypto f
    [.flight (session.clientFlight crypto identity f.lastSentSeqNum f.allHandshakeData)] f'
  allHandshakeData : f'.allHandshakeData = f.allHandshakeData ++
    (session.clientFlight crypto identity f.lastSentSeqNum f.allHandshakeData).map
      fun h => h.toFragment.serialize

theorem Exchanging.nextEpochNr {clientRandom : Bytes} {current : Option ServerHello}
    (h : Exchanging crypto clientRandom current f) : f.recordLayer.nextEpochNr = 1 := by
  rw [RecordLayer.nextEpochNr, h.readEpochNr, h.writeEpochNr]
  rfl

theorem Exchanging.serverHello {clientRandom : Bytes} {current : Option ServerHello}
    (h : Exchanging crypto clientRandom current f) (hello : ServerHello) :
    Exchanging crypto clientRandom (some hello)
      { f with recordLayer := withServerHello hello f.recordLayer } where
  toSelecting := h.toSelecting.serverHello hello
  readEpochNr := h.readEpochNr
  clientRandom := by
    show ((withServerHello hello f.recordLayer).connState 1).clientRandom = _
    rw [connState_withServerHello_first hello h.nextEpochNr h.writeEpochNr]
    exact h.clientRandom
  serverRandom := by
    intro hello' heq
    rw [← Option.some.inj heq]
    show ((withServerHello hello f.recordLayer).connState 1).serverRandom = _
    rw [connState_withServerHello_first hello h.nextEpochNr h.writeEpochNr]

-- Both messages of the flight have the contents of the session.
theorem FinishedFlight.eq_clientFlight {keyExchange finished : Handshake}
    {fragments fragments' : List FragmentedHandshake} {lastSeqNum : Int}
    (h : FinishedFlight crypto identity f keyExchange finished fragments fragments')
    (hagrees : session.Agrees crypto (f.recordLayer.connState 1))
    (hnumbers : [keyExchange, finished].map (·.messageSeq) =
      [(lastSeqNum + 1).toNat, (lastSeqNum + 1 + 1).toNat]) :
    [keyExchange, finished] =
      session.clientFlight crypto identity lastSeqNum f.allHandshakeData := by
  rcases h.verifyData with ⟨data, hfinished, hdata⟩
  have hkeyExchange := h.keyExchange_body
  rw [List.map_cons, List.map_singleton, List.cons.injEq, List.singleton_inj] at hnumbers
  have hke : keyExchange =
      ⟨(lastSeqNum + 1).toNat, .clientKeyExchange (ClientKeyExchange_PSK.serialize identity)⟩ := by
    rw [← hkeyExchange, ← hnumbers.1]
  rw [hagrees.verifyData, Except.ok.injEq] at hdata
  have hfin : finished = ⟨(lastSeqNum + 1 + 1).toNat, .finished data⟩ := by
    rw [← hfinished, ← hnumbers.2]
  rw [hfin, ← hdata, hke]
  rfl

theorem installKeys_eq {hello : ServerHello}
    (h : Exchanging crypto session.clientRandom (some hello) f)
    (hsuite : CipherSuites.byId hello.cipherSuite = some session.suite)
    (hrandom : hello.random.serialize = session.serverRandom) :
    installKeys crypto session.psk f = .ok () (f.updateNextEpoch fun _ =>
      { f.recordLayer.connState 1 with
        masterSecret := some (session.masterSecret crypto)
        keyMaterial := some (session.keyMaterial crypto) }) := by
  have hnext : f.recordLayer.nextEpoch.connectionState = f.recordLayer.connState 1 := by
    rw [RecordLayer.nextEpoch, h.nextEpochNr]
    rfl
  have hcipher : (f.recordLayer.connState 1).cipherSuite = some session.suite := by
    rw [← hnext, (h.selected hello rfl).1, hsuite]
  have hserver : (f.recordLayer.connState 1).serverRandom = some session.serverRandom := by
    rw [h.serverRandom hello rfl, hrandom]
  have hok := session.computeMasterSecret crypto hcipher h.clientRandom hserver
  rw [← hnext] at hok
  have hends : Ends (installKeys crypto session.psk) f
      (fun _ f' => f' = f.updateNextEpoch fun _ => { f.recordLayer.connState 1 with
        masterSecret := some (session.masterSecret crypto)
        keyMaterial := some (session.keyMaterial crypto) }) (fun _ _ => False) := by
    unfold installKeys
    rw [ends_bind, ends_get, hok, hnext]
    rfl
  rcases hends.exists_ok with ⟨_, f', hinstalled, rfl⟩
  exact hinstalled

/-- The ServerHelloDone of such a flight. -/
theorem Exchanging.answer {hello : ServerHello} {opts : Options}
    (h : Exchanging crypto session.clientRandom (some hello) f)
    (hpsk : opts.psk.head? = some (identity, session.psk))
    (hsuite : CipherSuites.byId hello.cipherSuite = some session.suite)
    (hrandom : hello.random.serialize = session.serverRandom) :
    Ends (handleServerHelloDone opts crypto) f
      (fun goOn f' => goOn = true ∧ KeysExchanged crypto session identity f f')
      (fun _ _ => False) := by
  have hcipher := (h.selected hello rfl).1
  rw [hsuite] at hcipher
  have hinstall := installKeys_eq h hsuite hrandom
  generalize hc : ({ f.recordLayer.connState 1 with
    masterSecret := some (session.masterSecret crypto)
    keyMaterial := some (session.keyMaterial crypto) } : ConnectionState) = c at hinstall
  have hkeys := (installKeys_ends session.psk h.inv hcipher session.keyExchange).of_ok hinstall
  have hsilent := (@installKeys_silent crypto session.psk f).of_ok hinstall
  generalize hf1 : f.updateNextEpoch (fun _ => c) = f1 at hinstall hkeys hsilent
  have hstate : f1.recordLayer.connState 1 = c := by
    have hlt := f.recordLayer.nextEpochNr_lt_length
    rw [h.nextEpochNr] at hlt
    rw [← hf1, updateNextEpoch, h.nextEpochNr]
    exact RecordLayer.connState_updateConnectionState_self hlt _
  have hagrees : session.Agrees crypto (f1.recordLayer.connState 1) := by
    have hsame : c.cipherSuite = (f.recordLayer.connState 1).cipherSuite := by rw [← hc]
    have hnext : f.recordLayer.connState 1 = f.recordLayer.nextEpoch.connectionState := by
      rw [RecordLayer.nextEpoch, h.nextEpochNr]
      rfl
    rw [hstate]
    refine ⟨?_, ?_, ?_⟩
    · rw [hsame, hnext, hcipher]
    · rw [← hc]
    · rw [← hc]
  have hfields : f1.allHandshakeData = f.allHandshakeData ∧ f1.lastSentSeqNum = f.lastSentSeqNum ∧
      f1.finishedCalls = f.finishedCalls ∧ f1.bufferedOutgoingMessages = [] ∧
      f1.recordLayer.readEpochNr = 0 ∧ f1.recordLayer.writeEpochNr = 0 := by
    rw [← hf1]
    exact ⟨rfl, rfl, rfl, h.inv.buffer, h.readEpochNr, h.writeEpochNr⟩
  rcases hfields with ⟨hdata, hseq, hcalls, hbuffer, hread, hwrite⟩
  unfold handleServerHelloDone
  rw [ends_bind, ends_get]
  simp only [hcipher, session.keyExchange, hpsk, if_true]
  rw [ends_bind, ends_of_eq_ok hinstall, ends_bind]
  apply (((sendFinishedFlight_result identity hkeys.epochs hwrite hbuffer).and
    (sendFinishedFlight_numbers identity f1)).and
    (sendFinishedFlight_ends identity hkeys.epochs hwrite hbuffer)).mono
  · rintro _ f' ⟨⟨⟨keyExchange, finished, fragments, fragments', datagram, rl', hflight, hok, hsent, rfl⟩,
      hlast, hnumbers⟩, hfinished⟩
    have hnumbers : [keyExchange, finished].map (·.messageSeq) = _ := hnumbers
    have hsession := hflight.eq_clientFlight hagrees hnumbers
    have hsends := hsilent.1.trans (hflight.sends hkeys.epochs hwrite hok hnumbers)
    have hall := hflight.allHandshakeData
    rw [hseq, hdata] at hsession
    rw [hdata] at hall
    rw [hsession] at hsends
    refine ⟨rfl, hfinished.inv, hfinished.expectedResponses, hfinished.finishedCalls.trans hcalls,
      hfinished.readEpochNr.trans hread, hfinished.writeEpochNr,
      hagrees.onlyCipher (hfinished.connState 1), fun i => ?_, hsends, ?_⟩
    · rw [hfinished.connState i, ← hkeys.cachedDecipher i]
    · rw [← hsession]
      exact hall
  · exact fun _ _ h => h.1.1

theorem handleServerKeyExchange_parses {rawData : Bytes} {suite : CipherSuite}
    (hsuite : f.recordLayer.nextEpoch.connectionState.cipherSuite = some suite)
    (hparses : ∃ result,
      TLSStruct.deserialize (fun _ _ => 0) rawData ServerKeyExchange_PSK.spec 0 = .ok result) :
    handleServerKeyExchange rawData f = .ok () f := by
  rcases hparses with ⟨result, hresult⟩
  have hends : Ends (handleServerKeyExchange rawData) f (fun _ f' => f' = f) (fun _ _ => False) := by
    unfold handleServerKeyExchange
    rw [ends_bind, ends_get]
    simp only [hsuite, hresult]
    split
    · rfl
    · rfl
  rcases hends.exists_ok with ⟨_, f', hok, rfl⟩
  exact hok

-- Behind the ServerHello.
theorem Exchanging.rest {hello : ServerHello} {messages : List Handshake} {done : Handshake}
    {opts : Options}
    (h : Exchanging crypto session.clientRandom (some hello) f)
    (hpsk : opts.psk.head? = some (identity, session.psk))
    (hsuite : CipherSuites.byId hello.cipherSuite = some session.suite)
    (hrandom : hello.random.serialize = session.serverRandom)
    (hmessages : ∀ m ∈ messages, m.PassesBy) (hdone : done.body = .serverHelloDone) :
    Ends (handleServerHelloDoneFlight opts crypto (messages ++ [done])) f
      (fun _ => KeysExchanged crypto session identity f) (fun _ _ => False) := by
  induction messages with
  | nil =>
      rw [List.nil_append, handleServerHelloDoneFlight]
      simp only [hdone]
      rw [ends_bind]
      apply (h.answer hpsk hsuite hrandom).mono
      · rintro _ f' ⟨rfl, hexchanged⟩
        exact hexchanged
      · exact fun _ _ h => h
  | cons msg messages ih =>
      rw [List.forall_mem_cons] at hmessages
      have hrest := ih hmessages.2
      have hpasses := hmessages.1
      unfold Handshake.PassesBy at hpasses
      rw [List.cons_append, handleServerHelloDoneFlight]
      cases hbody : msg.body with
      | serverHello hello' =>
          rw [hbody] at hpasses
          exact hpasses.elim
      | serverHelloDone =>
          rw [hbody] at hpasses
          exact hpasses.elim
      | serverKeyExchange rawData =>
          rw [hbody] at hpasses
          have hcipher := (h.selected hello rfl).1
          rw [hsuite] at hcipher
          simp only [pure_bind]
          rw [ends_bind, ends_of_eq_ok (handleServerKeyExchange_parses hcipher hpasses)]
          exact hrest
      | _ => exact hrest

-- What is between the two states was not sent.
theorem KeysExchanged.of_silent {f1 : FlightState} (h : KeysExchanged crypto session identity f1 f')
    (hsilent : Sends crypto f [] f1) (hdata : f1.allHandshakeData = f.allHandshakeData)
    (hcalls : f1.finishedCalls = f.finishedCalls)
    (hcached : ∀ i, (f1.recordLayer.connState i).cachedDecipher =
      (f.recordLayer.connState i).cachedDecipher) : KeysExchanged crypto session identity f f' := by
  have hseq : f1.lastSentSeqNum = f.lastSentSeqNum :=
    hsilent.lastSentSeqNum.trans (Int.add_zero _)
  have hsends := h.sends
  have hall := h.allHandshakeData
  rw [hseq, hdata] at hsends hall
  exact ⟨h.inv, h.expectedResponses, h.finishedCalls.trans hcalls, h.readEpochNr, h.writeEpochNr,
    h.agrees, fun i => (h.cachedDecipher i).trans (hcached i), hsilent.trans hsends, hall⟩

/-- A server's messages up to its ServerHelloDone: a ServerHello that selects the suite of the session, and
what follows it. -/
structure Offers (session : Session) (messages : List Handshake) : Prop where
  selects : ∃ seq hello rest, messages = ⟨seq, .serverHello hello⟩ :: rest ∧
    CipherSuites.byId hello.cipherSuite = some session.suite ∧
    hello.random.serialize = session.serverRandom ∧ ∀ m ∈ rest, m.PassesBy

theorem Offers.noServerHelloDone {messages : List Handshake} (h : Offers session messages) :
    ∀ m ∈ messages, m.msgType ≠ .serverHelloDone := by
  rcases h.selects with ⟨seq, hello, rest, rfl, _, _, hrest⟩
  intro m hm htype
  rcases List.mem_cons.mp hm with rfl | hm
  · cases htype
  · have hpasses := hrest m hm
    rcases m with ⟨_, body⟩
    cases body with
    | serverHelloDone => exact hpasses
    | _ => cases htype

/-- The handler goes through the flight and answers its ServerHelloDone. -/
theorem Exchanging.flight {current : Option ServerHello} {messages : List Handshake} {done : Handshake}
    {opts : Options} (h : Exchanging crypto session.clientRandom current f)
    (hpsk : opts.psk.head? = some (identity, session.psk)) (hoffers : Offers session messages)
    (hdone : done.body = .serverHelloDone) :
    Ends (handleServerHelloDoneFlight opts crypto (messages ++ [done])) f
      (fun _ => KeysExchanged crypto session identity f) (fun _ _ => False) := by
  rcases hoffers.selects with ⟨seq, hello, rest, rfl, hsuite, hrandom, hrest⟩
  have hhello := h.serverHello hello
  have hhandled := handleServerHello_ends hello h.inv (.inl h.expectedResponses)
  have hcached := (hhandled.of_ok (handleServerHello_eq hello f)).1.progress.cachedDecipher
  rw [List.cons_append, handleServerHelloDoneFlight]
  simp only [pure_bind]
  rw [ends_bind, ends_of_eq_ok (handleServerHello_eq hello f)]
  apply (hhello.rest hpsk hsuite hrandom hrest hdone).mono
  · intro _ f' hexchanged
    exact hexchanged.of_silent (.nothing (writesNothing_withServerHello hello _) rfl) rfl rfl hcached
  · exact fun _ _ h => h

/-! ## The whole answer -/

/-- A state that waits for the server's flight and has read nothing of epoch 1. -/
structure AwaitsKeyExchange (crypto : Crypto) (clientRandom : Bytes) (f : FlightState) : Prop where
  inv : Inv crypto f
  expectedResponses : ∃ expected, f.expectedResponses = some expected ∧
    HandshakeType.serverHelloDone ∈ expected
  readEpochNr : f.recordLayer.readEpochNr = 0
  clientRandom : (f.recordLayer.connState 1).clientRandom = some clientRandom

theorem AwaitsKeyExchange.writeEpochNr {clientRandom : Bytes}
    (h : AwaitsKeyExchange crypto clientRandom f) :
    f.recordLayer.writeEpochNr = 0 ∧
      (f.recordLayer.connState 1).cipherSuite = some CipherSuites.TLS_NULL_WITH_NULL_NULL := by
  rcases h.expectedResponses with ⟨expected, hexpected, hmem⟩
  have hawaits := h.inv.awaits
  rw [hexpected] at hawaits
  cases hawaits with
  | hello seq hello hwrite hclear hflight => exact ⟨hwrite, hclear⟩
  | cookie hwrite hclear => exact ⟨hwrite, hclear⟩
  | finished hwrite hsent => simp at hmem

-- The handler is called in this state.
theorem AwaitsKeyExchange.exchanging {clientRandom : Bytes}
    (h : AwaitsKeyExchange crypto clientRandom f) (hashed : List Bytes) :
    Exchanging crypto clientRandom none (f.startFlight hashed) where
  inv := (Handled.startFlight h.inv hashed).inv
  expectedResponses := rfl
  writeEpochNr := h.writeEpochNr.1
  clear := fun _ => h.writeEpochNr.2
  selected := by
    intro hello heq
    cases heq
  readEpochNr := h.readEpochNr
  clientRandom := h.clientRandom
  serverRandom := by
    intro hello heq
    cases heq

/-- The transcript with the messages of a flight. -/
def hashedFlight (messages : List Handshake) : List Bytes :=
  (messages.filter needsToHashMessage).map fun h => h.toFragment.serialize

/-- Whatever the server's flight has besides, the client answers it as the session demands. -/
theorem AwaitsKeyExchange.answered {messages : List Handshake} {done : Handshake} {opts : Options}
    (h : AwaitsKeyExchange crypto session.clientRandom f)
    (hpsk : opts.psk.head? = some (identity, session.psk)) (hoffers : Offers session messages)
    (hdone : done.body = .serverHelloDone) :
    KeysExchanged crypto session identity (f.startFlight (hashedFlight (messages ++ [done])))
      (f.answered opts crypto (messages ++ [done]) done) := by
  have htype : done.msgType = .serverHelloDone := by
    rw [Handshake.msgType, hdone]
    rfl
  have hbefore : ClientHandshakeHandler.beforeFlight (messages ++ [done]) done f =
      f.startFlight (hashedFlight (messages ++ [done])) := by
    unfold ClientHandshakeHandler.beforeFlight startFlight hashedFlight
    rw [htype]
    rfl
  have hends : Ends (handle opts crypto done.msgType (messages ++ [done]))
      (f.startFlight (hashedFlight (messages ++ [done])))
      (fun _ => KeysExchanged crypto session identity
        (f.startFlight (hashedFlight (messages ++ [done]))))
      (fun _ _ => False) := by
    rw [htype]
    exact (h.exchanging _).flight hpsk hoffers hdone
  rcases hends.exists_ok with ⟨_, f', hok, hexchanged⟩
  have hanswered : f.answered opts crypto (messages ++ [done]) done = f' := by
    unfold FlightState.answered
    rw [hbefore, hok, ClientHandshakeHandler.afterFlight, htype]
    rfl
  rw [hanswered]
  exact hexchanged

end FlightState

end DtlsClient
