import DtlsClient.Properties.Invariant

/-!
# When a client is connected

The `connected` event comes at most once, and only after the server's Finished was verified.  Data
that an application sends from then on leaves under the keys of the epoch that is written.
-/

open Library

namespace DtlsClient

open FlightState

/-- The step emits `connected`. -/
def EmitsConnected (c c' : Config) : Prop :=
  c.socket.events.count .connected < c'.socket.events.count .connected

/-- Only the step that completes the server's Finished flight emits `connected`. -/
theorem step_finishes (opts : Options) {crypto : Crypto} {c : Config} {a : Action}
    (hinv : ClientInv crypto c.socket) (hemits : EmitsConnected c (step opts crypto c a)) :
    a = .next ∧ ∃ d fragment, c.pending = d :: (step opts crypto c a).pending ∧
      d.msg.type = .handshake ∧
      FragmentedHandshake.fromBuffer d.memory.fragment d.msg.data = .ok fragment ∧
      Finishes crypto d.memory fragment c.socket (step opts crypto c a).socket := by
  -- a step that leaves `handshakeFinished` as it is leaves the count as it is
  have hcount : (step opts crypto c a).socket.handshakeFinished = c.socket.handshakeFinished →
      False := by
    intro hsame
    have hbefore := hinv.connected
    have hafter := (step_inv opts hinv a).connected
    unfold EmitsConnected at hemits
    rw [hsame] at hafter
    rw [hbefore, hafter] at hemits
    exact Nat.lt_irrefl _ hemits
  cases step_cases opts hinv a with
  | receives _ _ _ _ _ _ hnext => exact (hcount (by rw [hnext]; rfl)).elim
  | switches _ _ _ _ _ hnext => exact (hcount (by rw [hnext]; rfl)).elim
  | delivers d _ _ _ _ hnext =>
      apply (hcount _).elim
      rw [hnext]
      exact (Socket.deliver_handler d.msg d.rinfo c.socket).2
  | finishes d fragment haction hpending hmsg hfragment hfinishes =>
      exact ⟨haction, d, fragment, hpending, hmsg, hfragment, hfinishes⟩
  | moves hmoves _ => exact (hcount hmoves.handshakeFinished).elim

/-- `connected` is emitted at most once, and only by the step that processes a Finished message with
the server's verify data, after the client has sent its ClientKeyExchange, ChangeCipherSpec and
Finished. -/
theorem connected_once_verified (opts : Options) (crypto : Crypto) (random : Random)
    (actions : List Action) :
    ((client opts crypto random).run actions).socket.events.count .connected ≤ 1 ∧
      ∀ t ∈ (client opts crypto random).trace actions,
        EmitsConnected t.1 (step opts crypto t.1 t.2) →
        t.2 = .next ∧ ∃ d pending fragment, t.1.pending = d :: pending ∧
          d.msg.type = .handshake ∧
          FragmentedHandshake.fromBuffer d.memory.fragment d.msg.data = .ok fragment ∧
          VerifiedFinished crypto d.memory fragment t.1.socket := by
  constructor
  · rw [(run_inv opts crypto random actions).connected]
    split <;> decide
  · intro t ht hemits
    rcases step_finishes opts (trace_inv ht) hemits with
      ⟨haction, d, fragment, hpending, hmsg, hfragment, hfinishes⟩
    exact ⟨haction, d, _, fragment, hpending, hmsg, hfragment, hfinishes.verified⟩

/-! ## Sending application data -/

/-- What becomes of data that `send` accepts: one record of an epoch that has keys, made by that
epoch's own cipher, is handed to the UDP socket, and nothing else of it is kept. -/
structure SentProtected (crypto : Crypto) (s : Socket) (data : Bytes) (s' : Socket) : Prop where
  writeEpochNr : 1 ≤ s.recordLayer.writeEpochNr
  keyed : (s.recordLayer.connState s.recordLayer.writeEpochNr).Keyed crypto
  sealed : ∃ delegate sent,
    (s.recordLayer.connState s.recordLayer.writeEpochNr).cipher = some delegate ∧
    (s.recordLayer.connState s.recordLayer.writeEpochNr).specify = some delegate ∧
    delegate.cipher crypto (s.recordLayer.outgoingPacket ⟨.applicationData, data⟩) = .ok sent ∧
    s' = s.setRecordLayer (s.recordLayer.afterSealing.udpSend (DTLSCiphertext.serialize sent))

/-- `send` accepts data only while the socket is open and the handshake is done; what the record layer
does then is the whole effect. -/
theorem Socket.send_ends {crypto : Crypto} {s : Socket} (data : Bytes)
    (hinv : ClientInv crypto s) :
    Ends (Socket.send crypto data) s (fun _ => SentProtected crypto s data) (fun _ _ => True) := by
  unfold Socket.send
  rw [ends_bind, ends_get]
  by_cases hclosed : s.isClosed = true
  · rw [if_pos hclosed]
    trivial
  rw [if_neg hclosed, ends_bind, ends_get]
  by_cases hfinished : s.handshakeFinished = true
  · have hwrite : s.recordLayer.writeEpochNr = 1 := (hinv.finished hfinished).1
    have hnegotiated : (s.recordLayer.connState s.recordLayer.writeEpochNr).Negotiated crypto := by
      apply (hinv.epochs.epoch _).negotiated
      rw [hwrite]
      rfl
    rcases hnegotiated.keyed.specify with ⟨suite, keys, hspecify, hnull, hsuite, _⟩
    have hmsg : (⟨.applicationData, data⟩ : Message).type ≠ .changeCipherSpec := nofun
    have hprocess := RecordLayer.processOutgoingMessage_ends crypto ⟨.applicationData, data⟩
      s.recordLayer hinv.epochs.ready
    rw [hfinished]
    show Ends (callRecordLayer (RecordLayer.send crypto ⟨.applicationData, data⟩)) s _ _
    unfold callRecordLayer RecordLayer.send
    rw [ends_onPart, ends_bind]
    apply hprocess.mono
    · intro buf rl' hout
      rcases hout.sealed suite hsuite hnull with ⟨delegate, sent, hcipher, hsent, hbuf⟩
      have hown : (s.recordLayer.connState s.recordLayer.writeEpochNr).specify = some delegate := by
        rw [← hnegotiated.cipher_eq]
        exact hcipher
      rw [ends_modify]
      refine ⟨by omega, hnegotiated.keyed, delegate, sent, hcipher, hown, hsent, ?_⟩
      rw [hout.state suite hsuite hnull hmsg, hbuf]
    · exact fun _ _ h => h.elim
  · rw [Bool.not_eq_true] at hfinished
    rw [hfinished]
    trivial

/-- In every state of every run, data that `send` accepts leaves under the keys of the write epoch. -/
theorem send_protected (opts : Options) (crypto : Crypto) (random : Random)
    (actions : List Action) (data : Bytes)
    (haccepted : returns (Socket.send crypto data)
      ((client opts crypto random).run actions).socket = true) :
    SentProtected crypto ((client opts crypto random).run actions).socket data
      (finalState (Socket.send crypto data) ((client opts crypto random).run actions).socket) := by
  have hinv := run_inv opts crypto random actions
  rcases (Socket.send_ends data hinv).of_returns haccepted with ⟨_, hsent⟩
  exact hsent

-- After the complete handshake one byte is accepted.
theorem send_protected_sample :
    returns (Socket.send Sample.crypto [0x2a]) (Sample.run Sample.completeHandshake).socket = true ∧
      SentProtected Sample.crypto (Sample.run Sample.completeHandshake).socket [0x2a]
        (finalState (Socket.send Sample.crypto [0x2a])
          (Sample.run Sample.completeHandshake).socket) :=
  have haccepted : returns (Socket.send Sample.crypto [0x2a])
      (Sample.run Sample.completeHandshake).socket = true := by decide +kernel
  ⟨haccepted, send_protected Sample.opts Sample.crypto Sample.random Sample.completeHandshake [0x2a]
    haccepted⟩

end DtlsClient
