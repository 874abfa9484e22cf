import DtlsClient.Properties.Buffers

/-!
# Malformed input

`udp_onMessage` has no `try` around its parser.  An exception escapes from it exactly if a handshake
record is too short for the header of a fragment, or if a message becomes complete whose type is unknown
or whose body breaks off at a place where the parser allocates memory.
-/

open Library

namespace DtlsClient

open ClientHandshakeHandler FragmentedHandshake

/-- What the received messages must be for a client that remembers these fragments.  Each message comes
with the memory its processing finds. -/
def Digestible : List FragmentedHandshake → List (MessageMemory × Message) → Prop
  | _, [] => True
  | fragments, (memory, msg) :: messages =>
      match msg.type with
      | .handshake =>
          headerLength ≤ msg.data.length ∧
            ∀ fragment, FragmentedHandshake.fromBuffer memory.fragment msg.data = .ok fragment →
              (∀ whole, completed fragments fragment = some whole →
                Handshake.readable whole = true) ∧
              Digestible (remaining fragments fragment) messages
      | _ => Digestible fragments messages

namespace Socket

variable {crypto : Crypto} {s : Socket}

theorem incompleteMessages_of_buffers {s' : Socket} {h : ClientHandshakeHandler}
    (hsame : s'.buffers = h.buffers) :
    s'.handshakeHandler.incompleteMessages = h.incompleteMessages :=
  (Prod.mk.inj (Prod.mk.inj hsame).2).1

-- Only a handshake message can throw.
theorem handleMessage_returns (opts : Options) (memory : MessageMemory) {msg : Message}
    (rinfo : RemoteInfo) (hinv : ClientInv crypto s) (hmsg : msg.type ≠ .handshake) :
    Ends (handleMessage opts crypto memory msg rinfo) s
      (fun _ s' => ClientInv crypto s' ∧
        s'.handshakeHandler.incompleteMessages = s.handshakeHandler.incompleteMessages)
      (fun _ _ => False) := by
  have hreturns : Ends (handleMessage opts crypto memory msg rinfo) s
      (fun _ s' => ClientInv crypto s') (fun _ _ => False) := by
    rcases msg with ⟨type, data⟩
    unfold handleMessage
    cases type with
    | handshake => exact absurd rfl hmsg
    | changeCipherSpec => exact hinv.advanceReadEpoch
    | alert =>
        simp only
        split
        · exact hinv.killConnection _
        · split
          · exact (close_ends hinv).mono (fun _ _ h => h.inv) fun _ _ h => h
          · exact hinv
    | applicationData => exact deliver_inv ⟨.applicationData, data⟩ rinfo hinv
    | other n => exact hinv
  apply (hreturns.and (handleMessage_buffers opts crypto memory rinfo s hmsg)).mono
  · exact fun _ s' h => ⟨h.1, incompleteMessages_of_buffers h.2⟩
  · exact fun _ _ h => h.1

/-- A fragment throws exactly if it completes a message that cannot be read. -/
theorem processIncomingMessage_returns (opts : Options) (memory : MessageMemory)
    (msg : FragmentedHandshake) (hinv : ClientInv crypto s) :
    Ends (processIncomingMessage opts crypto memory msg) s
      (fun _ s' => ClientInv crypto s' ∧ s'.handshakeHandler.incompleteMessages =
          remaining s.handshakeHandler.incompleteMessages msg ∧
        ∀ whole, completed s.handshakeHandler.incompleteMessages msg = some whole →
          Handshake.readable whole = true)
      (fun _ _ => ∃ whole, completed s.handshakeHandler.incompleteMessages msg = some whole ∧
        Handshake.readable whole = false) := by
  have hstore := storeMessage_eq memory msg s.handshakeHandler
  -- a message that is stored does not throw any more
  have hstored : ∀ complete h1, storeMessage memory msg s.handshakeHandler = .ok complete h1 →
      Ends (processIncomingMessage opts crypto memory msg) s
        (fun _ s' => ClientInv crypto s' ∧
          s'.handshakeHandler.incompleteMessages = h1.incompleteMessages) (fun _ _ => False) := by
    intro complete h1 hok
    apply ((processIncomingMessage_ends opts memory msg hinv).and
      (processIncomingMessage_buffers opts crypto memory msg s)).mono
    · intro _ s' hends
      constructor
      · rcases hends.1 with hmoves | hfinishes
        · exact hmoves.inv
        · exact hfinishes.inv
      · rw [incompleteMessages_of_buffers hends.2, proceed_incompleteMessages, hok]
    · rintro e s' ⟨⟨⟨h2, hthrown⟩, _⟩, _⟩
      rw [hok] at hthrown
      cases hthrown
  cases hcompleted : completed s.handshakeHandler.incompleteMessages msg with
  | none =>
      rw [hcompleted] at hstore
      apply (hstored _ _ hstore).mono
      · exact fun _ s' hends => ⟨hends.1, hends.2, nofun⟩
      · exact fun _ _ h => h.elim
  | some whole =>
      rw [hcompleted] at hstore
      have hread := Handshake.fromFragment_ok_iff memory.body (completed_whole hcompleted).2
      cases hparsed : Handshake.fromFragment memory.body whole with
      | ok message =>
          simp only [hparsed] at hstore
          have hreadable := hread.mp ⟨message, hparsed⟩
          apply (hstored _ _ hstore).mono
          · intro _ s' hends
            refine ⟨hends.1, hends.2, ?_⟩
            rintro whole' hsome
            rw [← Option.some.inj hsome]
            exact hreadable
          · exact fun _ _ h => h.elim
      | error e =>
          simp only [hparsed] at hstore
          have hunreadable : Handshake.readable whole = false := by
            rw [← Bool.not_eq_true, ← hread, hparsed]
            exact nofun
          unfold processIncomingMessage callHandler ClientHandshakeHandler.processIncomingMessage
          rw [ends_bind, ends_onPart, ends_bind, ends_of_eq_error hstore]
          exact ⟨whole, rfl, hunreadable⟩

-- One round of the loop of `udp_onMessage`.
theorem handleMessage_digests (opts : Options) (memory : MessageMemory) (msg : Message)
    (rinfo : RemoteInfo) (hinv : ClientInv crypto s) :
    Ends (handleMessage opts crypto memory msg rinfo) s
      (fun _ s' => ClientInv crypto s' ∧ ∀ messages,
        (Digestible s.handshakeHandler.incompleteMessages ((memory, msg) :: messages) ↔
          Digestible s'.handshakeHandler.incompleteMessages messages))
      (fun _ _ => ∀ messages,
        ¬Digestible s.handshakeHandler.incompleteMessages ((memory, msg) :: messages)) := by
  rcases msg with ⟨type, data⟩
  by_cases hmsg : type = .handshake
  · cases hmsg
    unfold handleMessage
    simp only
    cases hparsed : FragmentedHandshake.fromBuffer memory.fragment data with
    | error e =>
        have hshort : ¬headerLength ≤ data.length := by
          rw [← fromBuffer_ok_iff memory.fragment, hparsed]
          exact nofun
        exact fun messages hdigestible => hshort hdigestible.1
    | ok fragment =>
        have hlong : headerLength ≤ data.length :=
          (fromBuffer_ok_iff memory.fragment data).mp ⟨fragment, hparsed⟩
        apply (processIncomingMessage_returns opts memory fragment hinv).mono
        · rintro _ s' ⟨hinv', hremaining, hreadable⟩
          refine ⟨hinv', fun messages => ?_⟩
          rw [hremaining]
          constructor
          · exact fun hdigestible => (hdigestible.2 fragment hparsed).2
          · intro hrest
            refine ⟨hlong, fun fragment' hparsed' => ?_⟩
            rw [← Except.ok.inj (hparsed.symm.trans hparsed')]
            exact ⟨hreadable, hrest⟩
        · rintro _ _ ⟨whole, hcompleted, hunreadable⟩ messages hdigestible
          have hreadable := (hdigestible.2 fragment hparsed).1 whole hcompleted
          rw [hunreadable] at hreadable
          cases hreadable
  · apply (handleMessage_returns opts memory rinfo hinv hmsg).mono
    · rintro _ s' ⟨hinv', hsame⟩
      refine ⟨hinv', fun messages => ?_⟩
      rw [hsame]
      cases type with
      | handshake => exact absurd rfl hmsg
      | _ => exact Iff.rfl
    · exact fun _ _ h => h.elim

-- The loop goes through exactly if the messages are digestible.
theorem handleMessages_returns_iff (opts : Options) (rinfo : RemoteInfo)
    (messages : List (MessageMemory × Message)) (hinv : ClientInv crypto s) :
    returns (handleMessages opts crypto rinfo messages) s = true ↔
      Digestible s.handshakeHandler.incompleteMessages messages := by
  induction messages generalizing s with
  | nil => exact ⟨fun _ => trivial, fun _ => rfl⟩
  | cons received messages ih =>
      rcases received with ⟨memory, msg⟩
      have hround := handleMessage_digests opts memory msg rinfo hinv
      unfold handleMessages
      cases hres : handleMessage opts crypto memory msg rinfo s with
      | ok _ s' =>
          rcases hround.of_ok hres with ⟨hinv', hrest⟩
          rw [returns_bind hres, ih hinv', hrest]
      | error e s' =>
          -- the rest of the messages is lost
          have hthrows : Ends (handleMessage opts crypto memory msg rinfo >>= fun _ =>
              handleMessages opts crypto rinfo messages) s (fun _ _ => False) (fun _ _ => True) := by
            rw [ends_bind, ends_of_eq_error hres]
            trivial
          rw [not_returns hthrows]
          constructor
          · intro h
            cases h
          · exact fun hdigestible => absurd hdigestible (hround.of_error hres messages)

end Socket

/-- In every state a client can reach, `udp_onMessage` returns normally exactly if what the record layer
makes of the datagram is digestible. -/
theorem udpOnMessage_returns_iff (opts : Options) (crypto : Crypto) (random : Random)
    (actions : List Action) (memory : Nat → Memory) (messageMemory : Nat → MessageMemory)
    (udpMsg : Bytes) (rinfo : RemoteInfo) :
    let s := ((client opts crypto random).run actions).socket
    returns (Socket.udpOnMessage opts crypto memory messageMemory udpMsg rinfo) s = true ↔
      Digestible s.handshakeHandler.incompleteMessages
        ((s.recordLayer.receive crypto memory udpMsg).1.zipIdx.map fun (msg, i) =>
          (messageMemory i, msg)) := by
  intro s
  have hinv : ClientInv crypto s := run_inv opts crypto random actions
  have hreceived := Socket.handleMessages_returns_iff opts rinfo
    ((s.recordLayer.receive crypto memory udpMsg).1.zipIdx.map fun (msg, i) =>
      (messageMemory i, msg)) (hinv.receive memory udpMsg)
  have hreceive : Socket.receive crypto memory udpMsg s =
      .ok (s.recordLayer.receive crypto memory udpMsg).1
        (s.setRecordLayer (s.recordLayer.receive crypto memory udpMsg).2) := rfl
  unfold Socket.udpOnMessage
  rw [returns_bind hreceive]
  exact hreceived

/-- A record of one byte, where a fragment has a header of twelve. -/
theorem udpOnMessage_returns_truncated :
    (Sample.run []).socket.isClosed = false ∧
      returns (Socket.udpOnMessage Sample.opts Sample.crypto (fun _ _ => 0)
        (fun _ => Sample.memory 0) (Sample.record .handshake 0 0 [0]) Sample.rinfo)
        (Sample.run []).socket = false := by
  decide +kernel

end DtlsClient
