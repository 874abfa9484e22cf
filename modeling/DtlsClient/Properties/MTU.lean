import DtlsClient.Properties.FlightSizes
import DtlsClient.Properties.Reencoding

/-!
# Flights and the MTU

`split` keeps a message within `MAX_PAYLOAD_SIZE` before the record gets its header, and a flight is
one datagram whatever its records add up to.  The limit is kept by the options objects with few cipher
suites and a short identity.
-/

open Library

namespace DtlsClient

/-! ## Cookies -/

/-- The cookie of a HelloVerifyRequest has at most 255 bytes. -/
def Handshake.HasShortCookie (m : Handshake) : Prop :=
  ∀ request, m.body = .helloVerifyRequest request → request.cookie.length ≤ 255

theorem HelloVerifyRequest.cookie_length {memory : Nat → Memory} {buf : Bytes} {offset n : Nat}
    {value : HelloVerifyRequest.spec.Val}
    (h : TLSStruct.deserialize memory buf HelloVerifyRequest.spec offset = .ok (value, n)) :
    (HelloVerifyRequest.ofVal value).cookie.length ≤ 255 := by
  rcases value with ⟨version, cookie, _⟩
  show cookie.length ≤ 255
  simp only [HelloVerifyRequest.spec, TLSStruct.deserialize, bind_eq_ok] at h
  rcases h with ⟨⟨_, k⟩, _, ⟨values, _⟩, ⟨⟨cookie', k'⟩, hcookie, _, _, hvalues⟩, hvalue⟩
  have hvalues := (Prod.mk.inj (Except.ok.inj hvalues)).1
  have hvalue := (Prod.mk.inj (Prod.mk.inj (Except.ok.inj hvalue)).1).2
  rw [← hvalues] at hvalue
  rw [← (Prod.mk.inj hvalue).1]
  have hbounds := bufferToNumber_bounds (TLSStruct.deserializeBuffer_ok hcookie).1
  have hsize : 8 * fitToWholeBytes (2 ^ 8 - 1) = 8 := rfl
  rw [hsize] at hbounds
  have hlt : (cookie'.length : Int) < 256 := hbounds.2
  show cookie'.length ≤ 255
  omega

-- The length of a cookie is one byte.
theorem Handshake.fromFragment_cookie {memory : Nat → Memory} {whole : FragmentedHandshake}
    {m : Handshake} (hparsed : Handshake.fromFragment memory whole = .ok m) : m.HasShortCookie := by
  intro request hbody
  unfold Handshake.fromFragment at hparsed
  split at hparsed
  · cases hparsed
  · split at hparsed
    · cases hparsed
    · rename_i msgClass hclass
      rw [bind_eq_ok] at hparsed
      rcases hparsed with ⟨⟨value, n⟩, hvalue, hm⟩
      rw [← Except.ok.inj hm] at hbody
      have hbody : msgClass.ofVal value = .helloVerifyRequest request := hbody
      cases htype : whole.msgType with
      | helloVerifyRequest =>
          rw [htype] at hclass
          cases hclass
          rw [← HandshakeBody.helloVerifyRequest.inj hbody]
          exact HelloVerifyRequest.cookie_length hvalue
      | _ =>
          rw [htype] at hclass
          cases hclass <;> cases hbody

namespace ClientHandshakeHandler

/-- A cookie among the messages that wait for their flight is short. -/
def StoresShortCookies (h : ClientHandshakeHandler) : Prop :=
  ∀ e ∈ h.completeMessages.entries, e.2.HasShortCookie

theorem keptByMessages_shortCookies (opts : Options) (crypto : Crypto) :
    KeptByMessages opts crypto StoresShortCookies :=
  keptByMessages_entries opts crypto fun _ _ _ => Handshake.fromFragment_cookie

theorem flightOf_shortCookie {h : ClientHandshakeHandler} {memory : MessageMemory}
    {msg : FragmentedHandshake} {messages : List Handshake} {lastMsg : Handshake}
    (hstores : h.StoresShortCookies)
    (hflight : h.flightOf (.message memory msg) = some (messages, lastMsg)) :
    lastMsg.HasShortCookie := by
  have hkept := stored_forall (Q := fun e => e.2.HasShortCookie)
    (fun _ _ _ => Handshake.fromFragment_cookie) hstores memory msg
  rcases flightOf_some hflight with ⟨h1, hstored, hcomplete, _⟩
  rw [stored_of_ok hstored] at hkept
  rcases completeFlight_eq_some.mp hcomplete with ⟨_, rfl, _, _⟩
  rcases List.mem_map.mp (List.mem_of_getLast? (completeFlight_getLast hcomplete)) with ⟨e, he, hlast⟩
  rw [← hlast]
  exact hkept e he

end ClientHandshakeHandler

/-! ## The limit -/

/-- The datagram consists of records, and neither it nor one of them is longer than the limit. -/
def WithinMTU (datagram : Bytes) : Prop :=
  datagram.length ≤ RecordLayer.MAX_PAYLOAD_SIZE ∧ ∃ records : List Record,
    datagram = Record.datagram records ∧ ∀ r ∈ records, r.bytes.length ≤ RecordLayer.MAX_PAYLOAD_SIZE

/-- What was sent in addition is within the limit. -/
def SendsWithinMTU (before after : List Bytes) : Prop :=
  ∃ sent, after = before ++ sent ∧ ∀ datagram ∈ sent, WithinMTU datagram

theorem SendsWithinMTU.refl (before : List Bytes) : SendsWithinMTU before before :=
  ⟨[], (List.append_nil before).symm, fun _ hmem => absurd hmem List.not_mem_nil⟩

theorem SendsWithinMTU.trans {before between after : List Bytes} (h : SendsWithinMTU before between)
    (h' : SendsWithinMTU between after) : SendsWithinMTU before after := by
  rcases h with ⟨sent, rfl, hsent⟩
  rcases h' with ⟨sent', rfl, hsent'⟩
  refine ⟨sent ++ sent', List.append_assoc before sent sent', ?_⟩
  intro datagram hmem
  rcases List.mem_append.mp hmem with hmem | hmem
  · exact hsent datagram hmem
  · exact hsent' datagram hmem

theorem SendsRecords.length_eq {before after : List Bytes} {lengths : List Nat}
    (h : SendsRecords before after lengths) : ∃ datagram, after = before ++ [datagram] ∧
      datagram.length = (lengths.map (13 + ·)).sum := by
  rcases h with ⟨records, rfl, rfl⟩
  refine ⟨Record.datagram records, rfl, ?_⟩
  rw [Record.datagram_length, List.map_map]
  rfl

theorem SendsRecords.withinMTU {before after : List Bytes} {lengths : List Nat}
    (h : SendsRecords before after lengths) (hsum : (lengths.map (13 + ·)).sum ≤ 1252) :
    SendsWithinMTU before after := by
  rcases h with ⟨records, rfl, rfl⟩
  have hlength : (Record.datagram records).length ≤ RecordLayer.MAX_PAYLOAD_SIZE := by
    rw [Record.datagram_length]
    rw [List.map_map] at hsum
    exact hsum
  refine ⟨[Record.datagram records], rfl, fun datagram hmem => ?_⟩
  rw [List.mem_singleton.mp hmem]
  exact ⟨hlength, records, rfl, fun r hr => Nat.le_trans (Record.bytes_length_le hr) hlength⟩

-- The handler of a flight is the last to send.
theorem ClientHandshakeHandler.afterFlight_recordLayer (lastMsg : Handshake) (x : FlightM Unit)
    (f : FlightState) : (afterFlight lastMsg (x f)).recordLayer = (finalState x f).recordLayer := by
  unfold afterFlight finalState
  cases x f with
  | ok _ f' =>
      simp only
      split
      · rfl
      · rfl
  | error e f' => rfl

namespace FlightState

variable {crypto : Crypto} {f : FlightState} {opts : Options} {random : Random}

/-- However it ends, what it sends is within the limit. -/
abbrev KeepsWithinMTU {α : Type} (x : FlightM α) (f : FlightState) : Prop :=
  Ends x f (fun _ f' => SendsWithinMTU f.recordLayer.udpSocket f'.recordLayer.udpSocket)
    (fun _ f' => SendsWithinMTU f.recordLayer.udpSocket f'.recordLayer.udpSocket)

section Handlers

variable (hcrypto : crypto.KeepsLengths) (hrandom : random.randomBytes.length = 28)
  (hciphers : (opts.ciphers.map List.length).getD 11 ≤ 466)
  (hidentity : ∀ identity psk, opts.psk.head? = some (identity, psk) → identity.length ≤ 1102)

include hcrypto hrandom hciphers in
theorem handleHelloVerifyRequest_withinMTU {messages : List Handshake} {lastMsg : Handshake}
    {seq : Nat} (hinv : Inv crypto f) (hwrite : f.recordLayer.writeEpochNr = 0)
    (htype : lastMsg.msgType = .helloVerifyRequest) (hlast : messages.getLast? = some lastMsg)
    (hcookie : lastMsg.HasShortCookie)
    (hflight : f.lastFlight = [⟨seq, .clientHello (ClientHandshakeHandler.clientHello opts random)⟩]) :
    KeepsWithinMTU (handleHelloVerifyRequest opts crypto messages) f := by
  rcases lastMsg with ⟨messageSeq, body⟩
  cases body with
  | helloVerifyRequest request =>
      have hshort := hcookie request rfl
      apply (handleHelloVerifyRequest_sends hcrypto hrandom hinv hwrite hlast hflight).mono
      · intro _ f' hsends
        apply hsends.withinMTU
        simp only [List.map_cons, List.map_nil, List.sum_cons, List.sum_nil]
        omega
      · exact fun _ _ h => h.elim
  | _ => cases htype

include hcrypto hidentity in
-- The Finished flight goes out with the keys that were just installed.
theorem handleServerHelloDone_withinMTU (hinv : Inv crypto f) :
    KeepsWithinMTU (handleServerHelloDone opts crypto) f := by
  unfold KeepsWithinMTU handleServerHelloDone
  rw [ends_bind, ends_get]
  split
  · exact .refl _
  · rename_i suite hsuite
    split
    · rename_i hpsk
      split
      · exact .refl _
      · rename_i identity psk hhead
        have hmem := (hinv.epochs.epoch f.recordLayer.nextEpochNr).suite_mem suite hsuite
        have hsealed := (psk_sealedLength hmem hpsk).2
        have hlength := hidentity identity psk hhead
        apply (answerWithPsk_sends hcrypto identity psk hinv hsuite hpsk).mono
        · intro _ f' hsends
          apply hsends.withinMTU
          simp only [List.map_cons, List.map_nil, List.sum_cons, List.sum_nil]
          omega
        · rintro _ f' ⟨rfl, _⟩
          exact .refl _
    · exact .refl _

include hcrypto hidentity in
theorem handleServerHelloDoneFlight_withinMTU (messages : List Handshake) (hinv : Inv crypto f)
    (hflight : f.InFlight) :
    KeepsWithinMTU (handleServerHelloDoneFlight opts crypto messages) f := by
  unfold KeepsWithinMTU
  induction messages generalizing f with
  | nil => exact .refl _
  | cons msg messages ih =>
      have hrest : ∀ (goOn : Bool) f1, (Handled crypto f f1 ∧ f1.InFlight) ∧
            SendsWithinMTU f.recordLayer.udpSocket f1.recordLayer.udpSocket →
          Ends (if goOn then handleServerHelloDoneFlight opts crypto messages else pure ()) f1
            (fun _ f' => SendsWithinMTU f.recordLayer.udpSocket f'.recordLayer.udpSocket)
            (fun _ f' => SendsWithinMTU f.recordLayer.udpSocket f'.recordLayer.udpSocket) := by
        rintro goOn f1 ⟨⟨h1, hflight1⟩, hsends⟩
        cases goOn with
        | false => exact hsends
        | true => exact (ih h1.inv hflight1).mono (fun _ _ h => hsends.trans h) fun _ _ h => hsends.trans h
      have hsame : (Handled crypto f f ∧ f.InFlight) ∧
          SendsWithinMTU f.recordLayer.udpSocket f.recordLayer.udpSocket :=
        ⟨⟨.refl hinv, hflight⟩, .refl _⟩
      rw [handleServerHelloDoneFlight]
      cases hbody : msg.body with
      | serverHello hello =>
          simp only [pure_bind]
          rw [ends_bind, ends_of_eq_ok (handleServerHello_eq hello f)]
          have hhello := handleServerHello_ends hello hinv hflight
          rw [ends_of_eq_ok (handleServerHello_eq hello f)] at hhello
          exact hrest true _ ⟨hhello, .refl _⟩
      | serverKeyExchange rawData =>
          simp only [pure_bind]
          rw [ends_bind]
          apply (handleServerKeyExchange_ends rawData).mono
          · rintro _ f1 rfl
            exact hrest true f1 hsame
          · rintro _ f1 rfl
            exact hsame.2
      | serverHelloDone =>
          rw [ends_bind]
          apply ((handleServerHelloDone_ends opts hinv hflight).and
            (handleServerHelloDone_withinMTU hcrypto hidentity hinv)).mono
          · exact hrest
          · exact fun _ _ h => h.2
      | _ => exact hrest true f hsame

theorem handleFinished_withinMTU (messages : List Handshake) :
    KeepsWithinMTU (handleFinished crypto messages) f := by
  apply (handleFinished_reports messages f).mono
  · rintro _ f' ⟨_, _, rfl⟩
    exact .refl _
  · rintro _ f' rfl
    exact .refl _

include hcrypto hrandom hciphers hidentity in
/-- The handler of a flight that was expected sends nothing that is too long. -/
theorem handle_withinMTU {messages : List Handshake} {lastMsg : Handshake}
    {expected : List HandshakeType} (hinv : Inv crypto f) (hnone : f.expectedResponses = none)
    (hawaits : Awaits crypto f (some expected)) (hmem : lastMsg.msgType ∈ expected)
    (hlast : messages.getLast? = some lastMsg) (hcookie : lastMsg.HasShortCookie)
    (hoffer : .helloVerifyRequest ∈ expected → ∃ seq,
      f.lastFlight = [⟨seq, .clientHello (ClientHandshakeHandler.clientHello opts random)⟩]) :
    KeepsWithinMTU (handle opts crypto lastMsg.msgType messages) f := by
  have hdone : KeepsWithinMTU (handle opts crypto .serverHelloDone messages) f :=
    handleServerHelloDoneFlight_withinMTU hcrypto hidentity messages hinv (.inl hnone)
  cases hawaits with
  | hello seq hello hwrite hclear hflight =>
      rcases List.mem_cons.mp hmem with htype | hmem
      · rw [htype]
        exact hdone
      · rw [List.mem_singleton.mp hmem]
        rcases hoffer (List.mem_cons_of_mem _ List.mem_cons_self) with ⟨seq, hoffer⟩
        exact handleHelloVerifyRequest_withinMTU hcrypto hrandom hciphers hinv hwrite
          (List.mem_singleton.mp hmem) hlast hcookie hoffer
  | cookie hwrite hclear =>
      rw [List.mem_singleton.mp hmem]
      exact hdone
  | finished hwrite hsent =>
      rw [List.mem_singleton.mp hmem]
      exact handleFinished_withinMTU messages

include hcrypto hrandom hciphers hidentity in
theorem answered_withinMTU {messages : List Handshake} {lastMsg : Handshake}
    {expected : List HandshakeType} (hinv : Inv crypto f)
    (hexpected : f.expectedResponses = some expected) (hmem : lastMsg.msgType ∈ expected)
    (hlast : messages.getLast? = some lastMsg) (hcookie : lastMsg.HasShortCookie)
    (hoffer : .helloVerifyRequest ∈ expected → ∃ seq,
      f.lastFlight = [⟨seq, .clientHello (ClientHandshakeHandler.clientHello opts random)⟩]) :
    SendsWithinMTU f.recordLayer.udpSocket
      (f.answered opts crypto messages lastMsg).recordLayer.udpSocket := by
  have hawaits := hinv.awaits
  rw [hexpected] at hawaits
  have hbefore : Awaits crypto (ClientHandshakeHandler.beforeFlight messages lastMsg f)
      (some expected) :=
    hawaits.congr rfl rfl (List.Subset.refl _) rfl (List.subset_append_left _ _)
  have hhandle := handle_withinMTU hcrypto hrandom hciphers hidentity
    (beforeFlight_inv messages lastMsg hinv) rfl hbefore hmem hlast hcookie hoffer
  rw [answered, ClientHandshakeHandler.afterFlight_recordLayer]
  exact Ends.finalState (P := fun f' : FlightState =>
    SendsWithinMTU f.recordLayer.udpSocket f'.recordLayer.udpSocket) hhandle

end Handlers

end FlightState

/-! ## Alerts -/

theorem RecordLayer.sendAlert_withinMTU {crypto : Crypto} {keyed : Bool} {rl : RecordLayer}
    (hcrypto : crypto.KeepsLengths) (hepochs : EpochsInv crypto keyed rl) (alert : Alert) :
    Ends (send crypto ⟨.alert, alert.serialize⟩) rl
      (fun _ rl' => EpochsInv crypto keyed rl' ∧ SendsWithinMTU rl.udpSocket rl'.udpSocket)
      (fun _ _ => False) := by
  have hmsg : (⟨.alert, alert.serialize⟩ : Message).type ≠ .changeCipherSpec := ContentType.noConfusion
  rcases hepochs.installed with ⟨suite, hsuite, _⟩
  have hsealed : suite.sealedLength alert.serialize.length ≤ 98 := suite.sealedLength_le 2
  have hlength : suite.sealedLength alert.serialize.length < 2 ^ 16 := by omega
  apply ((send_ends hepochs hmsg).and
    (@send_sealed _ _ hcrypto ⟨.alert, alert.serialize⟩ _ hepochs.installed hsuite hlength)).mono
  · rintro _ rl' ⟨⟨buf, rl1, _, hsent, rfl⟩, hsends⟩
    refine ⟨hsent.inv.congr (fun _ => rfl) rfl, hsends.withinMTU ?_⟩
    simp only [List.map_cons, List.map_nil, List.sum_cons, List.sum_nil]
    omega
  · exact fun _ _ h => h.1

namespace Socket

variable {crypto : Crypto} {s : Socket}

/-- What is sent after `before` is within the limit, and no epoch lacks its keys. -/
def StaysWithinMTU (crypto : Crypto) (before : List Bytes) (s : Socket) : Prop :=
  (∃ keyed, EpochsInv crypto keyed s.recordLayer) ∧ SendsWithinMTU before s.recordLayer.udpSocket

theorem sendAlert_withinMTU (hcrypto : crypto.KeepsLengths) {before : List Bytes}
    (h : StaysWithinMTU crypto before s) (alert : Alert) (callback : Option SendCallback) :
    Ends (sendAlert crypto alert callback) s (fun _ => StaysWithinMTU crypto before)
      (fun _ _ => False) := by
  rcases h with ⟨⟨keyed, hepochs⟩, hsent⟩
  unfold sendAlert callRecordLayer
  rw [ends_bind, ends_onPart]
  apply (RecordLayer.sendAlert_withinMTU hcrypto hepochs alert).mono
  · rintro _ rl' ⟨hepochs', hsends⟩
    exact ⟨⟨keyed, hepochs'⟩, hsent.trans hsends⟩
  · exact fun _ _ h => h

theorem finishedCallback_withinMTU (hcrypto : crypto.KeepsLengths) {before : List Bytes}
    (h : StaysWithinMTU crypto before s) (call : FinishedCall) :
    Ends (finishedCallback crypto call) s (fun _ => StaysWithinMTU crypto before)
      (fun _ _ => False) := by
  unfold finishedCallback
  cases call.alert with
  | some alert => exact sendAlert_withinMTU hcrypto h alert _
  | none =>
      show StaysWithinMTU crypto before (s.nextStep call.err)
      unfold StaysWithinMTU recordLayer
      rw [nextStep_handler]
      exact h

/-- What follows the handler's flight is within the limit. -/
theorem processIncomingMessage_withinMTU (hcrypto : crypto.KeepsLengths) (opts : Options)
    (memory : MessageMemory) (msg : FragmentedHandshake) (hinv : ClientInv crypto s) :
    Ends (processIncomingMessage opts crypto memory msg) s
      (fun _ => StaysWithinMTU crypto
        (s.handshakeHandler.take opts crypto (.message memory msg)).recordLayer.udpSocket)
      (fun _ => StaysWithinMTU crypto
        (s.handshakeHandler.take opts crypto (.message memory msg)).recordLayer.udpSocket) := by
  have hepochs : ∃ keyed, EpochsInv crypto keyed
      (s.handshakeHandler.take opts crypto (.message memory msg)).recordLayer := by
    apply Ends.finalState (P := fun h : ClientHandshakeHandler =>
      ∃ keyed, EpochsInv crypto keyed h.recordLayer)
    apply (ClientHandshakeHandler.processIncomingMessage_ends opts memory msg hinv.flight).mono
    · rintro _ h (hsame | ⟨_, hhandled | ⟨_, _, _, _, _, _, _, hconfirmed⟩⟩)
      · rw [hsame]
        exact ⟨_, hinv.epochs⟩
      · exact ⟨_, hhandled.inv.epochs⟩
      · exact ⟨_, hconfirmed.inv.epochs⟩
    · rintro _ h ⟨_, hsame⟩
      rw [hsame]
      exact ⟨_, hinv.epochs⟩
  apply processIncomingMessage_keeps (P := StaysWithinMTU crypto
    (s.handshakeHandler.take opts crypto (.message memory msg)).recordLayer.udpSocket) opts rfl
  · exact ⟨hepochs, .refl _⟩
  · exact ⟨hepochs, .refl _⟩
  · intro call _ s' hs'
    exact (finishedCallback_withinMTU hcrypto hs' call).mono (fun _ _ h => h) fun _ _ h => h.elim

-- Any other message leads to one alert at most.
theorem handleMessage_withinMTU (hcrypto : crypto.KeepsLengths) (opts : Options)
    (memory : MessageMemory) {msg : Message} (rinfo : RemoteInfo) (hinv : ClientInv crypto s)
    (hmsg : msg.type ≠ .handshake) :
    Ends (handleMessage opts crypto memory msg rinfo) s
      (fun _ => StaysWithinMTU crypto s.recordLayer.udpSocket)
      (fun _ => StaysWithinMTU crypto s.recordLayer.udpSocket) := by
  have hstart : StaysWithinMTU crypto s.recordLayer.udpSocket s := ⟨⟨_, hinv.epochs⟩, .refl _⟩
  have hhandler : ∀ s' : Socket, s'.handshakeHandler = s.handshakeHandler →
      StaysWithinMTU crypto s.recordLayer.udpSocket s' := by
    intro s' hsame
    unfold StaysWithinMTU recordLayer
    rw [hsame]
    exact hstart
  rcases msg with ⟨type, data⟩
  unfold handleMessage
  cases type with
  | handshake => exact absurd rfl hmsg
  | changeCipherSpec => exact ⟨⟨_, hinv.epochs.advanceReadEpoch⟩, .refl _⟩
  | alert =>
      simp only
      split
      · exact hhandler _ (killConnection_handler _ s)
      · split
        · exact (sendAlert_withinMTU hcrypto hstart _ _).mono (fun _ _ h => h) fun _ _ h => h.elim
        · exact hstart
  | applicationData => exact hhandler _ (deliver_handler ⟨.applicationData, data⟩ rinfo s).1
  | other n => exact hstart

end Socket

/-! ## Runs -/

/-- While a HelloVerifyRequest may still come, the last flight is the ClientHello without a cookie. -/
def OffersHello (opts : Options) (random : Random) (st : Standing) : Prop :=
  ∀ expected, st.expectedResponses = some expected → .helloVerifyRequest ∈ expected →
    ∃ seq, st.lastFlight = [⟨seq, .clientHello (ClientHandshakeHandler.clientHello opts random)⟩]

-- No handler of a flight has the client wait for a HelloVerifyRequest.
theorem FlightState.Advances.expects {crypto : Crypto} {messages : List Handshake}
    {lastMsg : Handshake} {f f' : FlightState} (h : Advances crypto messages lastMsg f f')
    {expected : List HandshakeType} (hexpected : f'.standing.expectedResponses = some expected) :
    .helloVerifyRequest ∉ expected := by
  have hexpected : f'.expectedResponses = some expected := hexpected
  intro hmem
  cases h with
  | cookie seq seq' request hello hlast hflight hwrite hstanding =>
      have hcookie : f'.expectedResponses = some [.serverHelloDone] :=
        congrArg Standing.expectedResponses hstanding
      rw [hcookie] at hexpected
      rw [← Option.some.inj hexpected] at hmem
      cases List.mem_singleton.mp hmem
  | answer hlast hwrite houtcome hreports =>
      cases houtcome with
      | negotiated selected hselected hnegotiated =>
          rw [hnegotiated.expectedResponses] at hexpected
          rw [← Option.some.inj hexpected] at hmem
          cases List.mem_singleton.mp hmem
      | gaveUp hgave =>
          rw [hgave.expectedResponses] at hexpected
          cases hexpected
  | finish hlast hwrite hnone hsame =>
      rw [hnone] at hexpected
      cases hexpected

theorem step_offersHello {opts : Options} {random : Random} {crypto : Crypto} {c : Config}
    (a : Action) (hinv : ClientInv crypto c.socket) (h : OffersHello opts random c.socket.standing) :
    OffersHello opts random (step opts crypto c a).socket.standing := by
  rcases step_advances opts a hinv with ⟨_, hsame⟩ | ⟨_, _, f, _, _, hstanding, hadvances⟩
  · rw [hsame]
    exact h
  · rw [hstanding]
    exact fun _ hexpected hmem => absurd hmem (hadvances.expects hexpected)

theorem run_offersHello (opts : Options) (crypto : Crypto) (random : Random)
    (actions : List Action) :
    OffersHello opts random ((client opts crypto random).run actions).socket.standing := by
  have hboth := (client opts crypto random).invariant
    (P := fun c => ClientInv crypto c.socket ∧ OffersHello opts random c.socket.standing) ?_ ?_ actions
  · exact hboth.2
  · refine ⟨run_inv opts crypto random [], ?_⟩
    rw [client_standing]
    exact fun _ _ _ => ⟨0, rfl⟩
  · intro c a h
    exact ⟨step_inv opts h.1 a, step_offersHello a h.1 h.2⟩

/-! ## Steps -/

-- What answers the server's flight is sent first, and only alerts follow it.
theorem handleNext_withinMTU {crypto : Crypto} (hcrypto : crypto.KeepsLengths) (opts : Options)
    {c : Config} (hinv : ClientInv crypto c.socket) :
    SendsWithinMTU (c.socket.handshakeHandler.toFlightState.behind opts crypto
      (c.flight .next)).recordLayer.udpSocket (c.handleNext opts crypto).recordLayer.udpSocket := by
  apply Config.handleNext_flight (P := fun flight s => SendsWithinMTU
    (c.socket.handshakeHandler.toFlightState.behind opts crypto flight).recordLayer.udpSocket
    s.recordLayer.udpSocket) opts crypto
  · exact .refl _
  · intro memory fragment
    have hends := Socket.processIncomingMessage_withinMTU hcrypto opts memory fragment hinv
    rw [ClientHandshakeHandler.take_flightState] at hends
    exact hends.mono (fun _ _ h => h.2) fun _ _ h => h.2
  · intro d hmsg
    apply (Socket.handleMessage_withinMTU hcrypto opts d.memory d.rinfo hinv hmsg).mono
    · exact fun _ _ h => h.2
    · exact fun _ _ h => h.2

-- The other steps send an alert at most, or the application's data.
theorem step_alerts_withinMTU {crypto : Crypto} (hcrypto : crypto.KeepsLengths) (opts : Options)
    {c : Config} {a : Action} (hinv : ClientInv crypto c.socket) (hnext : a ≠ .next)
    (hdata : ∀ data, a ≠ .send data) :
    SendsWithinMTU c.recordLayer.udpSocket (step opts crypto c a).recordLayer.udpSocket := by
  have hstart : Socket.StaysWithinMTU crypto c.recordLayer.udpSocket c.socket :=
    ⟨⟨_, hinv.epochs⟩, .refl _⟩
  have hsame : ∀ s : Socket, s.handshakeHandler = c.socket.handshakeHandler →
      SendsWithinMTU c.recordLayer.udpSocket s.recordLayer.udpSocket := by
    intro s hhandler
    unfold Socket.recordLayer
    rw [hhandler]
    exact .refl _
  have halert : ∀ alert callback, SendsWithinMTU c.recordLayer.udpSocket
      (finalState (Socket.sendAlert crypto alert callback) c.socket).recordLayer.udpSocket := by
    intro alert callback
    apply Ends.finalState (P := fun s : Socket =>
      SendsWithinMTU c.recordLayer.udpSocket s.recordLayer.udpSocket)
    apply (Socket.sendAlert_withinMTU hcrypto hstart alert callback).mono
    · exact fun _ _ h => h.2
    · exact fun _ _ h => h.elim
  cases a with
  | datagram memory messageMemory udpMsg rinfo =>
      show SendsWithinMTU _ (Config.receiveDatagram crypto memory messageMemory udpMsg rinfo
        c).recordLayer.udpSocket
      unfold Config.receiveDatagram
      split
      · show SendsWithinMTU _ (c.recordLayer.receive crypto memory udpMsg).2.udpSocket
        rw [RecordLayer.receive_udpSocket]
        exact .refl _
      · exact .refl _
  | next => exact absurd rfl hnext
  | callback i => exact hsame _ (Socket.runCallback_handler i c.socket)
  | handshakeTimeout => exact hsame _ (Socket.expectHandshake_handler c.socket)
  | udpClose => exact hsame _ (Socket.udpOnClose_handler c.socket)
  | udpError e => exact hsame _ (Socket.killConnection_handler (some e) c.socket)
  | send data => exact absurd rfl (hdata data)
  | close => exact halert _ _
  | sendAlert alert => exact halert _ _

section Steps

variable {crypto : Crypto} {opts : Options} {random : Random} (hcrypto : crypto.KeepsLengths)
  (hrandom : random.randomBytes.length = 28) (hciphers : (opts.ciphers.map List.length).getD 11 ≤ 466)
  (hidentity : ∀ identity psk, opts.psk.head? = some (identity, psk) → identity.length ≤ 1102)

include hcrypto hrandom hciphers hidentity in
/-- No step sends anything that is too long, but for application data. -/
theorem step_withinMTU {c : Config} {a : Action} (hinv : ClientInv crypto c.socket)
    (hoffers : OffersHello opts random c.socket.standing)
    (hcookies : c.socket.handshakeHandler.StoresShortCookies) (hdata : ∀ data, a ≠ .send data) :
    SendsWithinMTU c.recordLayer.udpSocket (step opts crypto c a).recordLayer.udpSocket := by
  by_cases hnext : a = .next
  · rw [hnext]
    have hsends := handleNext_withinMTU hcrypto opts hinv
    cases hflight : c.flight .next with
    | none =>
        rw [hflight] at hsends
        exact hsends
    | some flight =>
        rcases flight with ⟨messages, lastMsg⟩
        rw [hflight] at hsends
        rcases Config.flight_eq_some hflight with ⟨_, d, _, fragment, _, _, _, hflightOf⟩
        rcases Config.flight_expected hflight with ⟨expected, hexpected, hmem, hlast⟩
        have hcookie := ClientHandshakeHandler.flightOf_shortCookie hcookies hflightOf
        exact (FlightState.answered_withinMTU hcrypto hrandom hciphers hidentity hinv.flight hexpected
          hmem hlast hcookie (hoffers expected hexpected)).trans hsends
  · exact step_alerts_withinMTU hcrypto opts hinv hnext hdata

include hcrypto hrandom in
/-- What a client starts with. -/
theorem init_sends : SendsRecords [] (client opts crypto random).init.recordLayer.udpSocket
    [12 + min 1240 (40 + 2 * (opts.ciphers.map List.length).getD 11)] := by
  apply client_sends (P := fun s : Socket => SendsRecords [] s.recordLayer.udpSocket
    [12 + min 1240 (40 + 2 * (opts.ciphers.map List.length).getD 11)])
  intro f hello hf hhello
  have hepochs := FlightState.listening_epochs crypto random
  have hbuffer : f.bufferedOutgoingMessages = [] := by rw [hf]; rfl
  have hwrite : f.recordLayer.writeEpochNr = 0 := by rw [hf]; rfl
  have hnone : f.recordLayer.udpSocket = [] := by rw [hf]; rfl
  rw [← hf] at hepochs
  have hsends := FlightState.helloFlight_sends hcrypto hrandom opts 0 [] hepochs hbuffer hwrite
    [.serverHelloDone, .helloVerifyRequest]
  rw [hnone] at hsends
  rw [hhello]
  exact hsends

end Steps

end DtlsClient
