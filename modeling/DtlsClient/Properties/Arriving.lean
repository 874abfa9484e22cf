import DtlsClient.Properties.Finishing
import DtlsClient.Properties.Reordering
import DtlsClient.Properties.Writing

/-!
# A flight that arrives in datagrams

The pieces of a flight come in any number of datagrams of epoch 0.  When the last one has been taken, the
socket is what the handler of the flight makes of it.
-/

open Library

namespace DtlsClient

open ClientHandshakeHandler

variable {crypto : Crypto} {init : List ClientHandshakeHandler.Sent}
  {final : ClientHandshakeHandler.Sent} {arrived : List FragmentedHandshake} {start s : Socket}

/-- The record holds a piece of a handshake message, in the clear. -/
structure Record.Holds (r : Record) (piece : FragmentedHandshake) : Prop where
  epoch : r.packet.epoch = 0
  type : r.packet.type = .handshake
  fragment : r.packet.fragment = piece.serialize
  fits : piece.Fits

/-- What a record layer is after it has received records of epoch 0 only. -/
structure RecordLayer.Heard (rl rl' : RecordLayer) : Prop where
  readEpochNr : rl'.readEpochNr = rl.readEpochNr
  silent : WritesNothing rl rl'
  clear : (rl'.connState 0).ReadInTheClear
  later : ∀ i, i ≠ 0 → rl'.connState i = rl.connState i

namespace RecordLayer

variable {rl rl' : RecordLayer} {records : List Record}

theorem Heard.refl (hclear : (rl.connState 0).ReadInTheClear) : Heard rl rl :=
  ⟨rfl, .refl rl, hclear, fun _ _ => rfl⟩

theorem Heard.trans {rl'' : RecordLayer} (h : Heard rl rl') (h' : Heard rl' rl'') : Heard rl rl'' :=
  ⟨h'.readEpochNr.trans h.readEpochNr, h.silent.trans h'.silent, h'.clear,
    fun i hi => (h'.later i hi).trans (h.later i hi)⟩

theorem Heard.receive (h : Heard rl rl') (memory : Nat → Memory)
    (hepoch : ∀ r ∈ records, r.packet.epoch = 0) :
    Heard rl (rl'.receive crypto memory (Record.datagram records)).2 := by
  have hadmitted : ∀ p ∈ rl'.admitted memory (Record.datagram records), p.epoch = 0 := by
    intro p hp
    rw [admitted, Record.packets_datagram] at hp
    rcases List.mem_map.mp (List.mem_filter.mp hp).1 with ⟨r, hr, rfl⟩
    exact hepoch r hr
  refine h.trans ⟨receive_readEpochNr .., writesNothing_receive .., ?_, ?_⟩
  · rw [connState_receive]
    split
    · rcases h.clear with ⟨d, hd, hnull⟩
      exact ⟨d, (ConnectionState.decipher_withDecipher _).trans hd, hnull⟩
    · exact h.clear
  · intro i hi
    rw [connState_receive, if_neg]
    rintro ⟨p, hp, rfl⟩
    exact hi (hadmitted p hp)

-- What is admitted is read as it came.
theorem Heard.messages (h : Heard rl rl') (crypto : Crypto) (hepoch : ∀ r ∈ records, r.packet.epoch = 0)
    (hadmits : ∀ r ∈ records, rl'.admits r.packet = true) :
    rl'.messages crypto records = records.map fun r => ⟨r.packet.type, r.packet.fragment⟩ := by
  induction records with
  | nil => rfl
  | cons r records ih =>
      rw [List.forall_mem_cons] at hepoch hadmits
      have hdecipher : rl'.decipherPacket crypto r.packet = some r.packet := by
        apply decipherPacket_clear
        rw [hepoch.1]
        exact h.clear
      have hsplit := messages_append crypto rl' [r] records
      rw [List.singleton_append] at hsplit
      rw [hsplit, messages_singleton crypto hadmits.1 hdecipher, ih hepoch.2 hadmits.2]
      rfl

end RecordLayer

/-! ## One piece -/

-- A message that is stored without an error, and whose flight reports nothing.
theorem Socket.processIncomingMessage_unreported (opts : Options) {memory : MessageMemory}
    {msg : FragmentedHandshake} {complete : Bool} {h : ClientHandshakeHandler}
    (hinv : ClientInv crypto s)
    (hstore : storeMessage memory msg s.handshakeHandler = .ok complete h)
    (hcalls : (s.handshakeHandler.take opts crypto (.message memory msg)).finishedCalls = []) :
    Ends (Socket.processIncomingMessage opts crypto memory msg) s
      (fun _ s' => ClientInv crypto s' ∧ s' = { s with
        handshakeHandler := s.handshakeHandler.take opts crypto (.message memory msg) })
      (fun _ _ => False) := by
  have hends := Socket.processIncomingMessage_ends opts memory msg hinv
  generalize htaken : s.handshakeHandler.take opts crypto (.message memory msg) = h' at hcalls ⊢
  have hkeeps : Ends (Socket.processIncomingMessage opts crypto memory msg) s
      (fun _ s' => s' = { s with handshakeHandler := h' })
      (fun _ s' => s' = { s with handshakeHandler := h' }) := by
    apply Socket.processIncomingMessage_keeps (P := fun s' => s' = { s with handshakeHandler := h' })
      opts htaken
    · rfl
    · rw [← hcalls]
    · intro call hcall
      rw [hcalls] at hcall
      cases hcall
  apply (hends.and hkeeps).mono
  · rintro _ s' ⟨hmoves | hfinishes, hsame⟩
    · exact ⟨hmoves.inv, hsame⟩
    · exact ⟨hfinishes.inv, hsame⟩
  · rintro _ s' ⟨⟨⟨_, hthrown⟩, _⟩, _⟩
    rw [hstore] at hthrown
    cases hthrown

/-- The socket has taken these pieces of a flight, and the last one is still to come. -/
structure Gathers (crypto : Crypto) (sent : List Sent) (arrived : List FragmentedHandshake)
    (start s : Socket) : Prop where
  inv : ClientInv crypto s
  same : s = { start with handshakeHandler := s.handshakeHandler }
  heard : RecordLayer.Heard start.recordLayer s.recordLayer
  collecting : Collecting sent arrived (start.handshakeHandler.setRecordLayer s.recordLayer)
    s.handshakeHandler

/-- What the handler of the flight has made of the socket. -/
structure Completes (opts : Options) (crypto : Crypto) (messages : List Handshake)
    (lastMsg : Handshake) (start s : Socket) : Prop where
  inv : ClientInv crypto s
  handled : ∃ rl, RecordLayer.Heard start.recordLayer rl ∧
    FlightState.Inv crypto (start.handshakeHandler.setRecordLayer rl).toFlightState ∧ s = { start with
      handshakeHandler :=
        handled opts crypto messages lastMsg (start.handshakeHandler.setRecordLayer rl) }

/-- The handler of the flight reports nothing, whatever has been received meanwhile. -/
def ReportsNothing (opts : Options) (crypto : Crypto) (messages : List Handshake) (lastMsg : Handshake)
    (start : Socket) : Prop :=
  ∀ rl, RecordLayer.Heard start.recordLayer rl →
    FlightState.Inv crypto (start.handshakeHandler.setRecordLayer rl).toFlightState →
    (handled opts crypto messages lastMsg
      (start.handshakeHandler.setRecordLayer rl)).finishedCalls = []

theorem ClientHandshakeHandler.Expects.setRecordLayer {h : ClientHandshakeHandler}
    (hexpects : h.Expects init final) (rl : RecordLayer) : (h.setRecordLayer rl).Expects init final :=
  ⟨hexpects.numbers, hexpects.types⟩

namespace Gathers

theorem nothing (hinv : ClientInv crypto s) (hclear : (s.recordLayer.connState 0).ReadInTheClear)
    (hincomplete : s.handshakeHandler.incompleteMessages = [])
    (hcomplete : s.handshakeHandler.completeMessages = .empty) :
    Gathers crypto (init ++ [final]) [] s s :=
  ⟨hinv, rfl, .refl hclear, .nothing hincomplete hcomplete⟩

theorem receive {sent : List Sent} {records : List Record} (h : Gathers crypto sent arrived start s)
    (memory : Nat → Memory) (hepoch : ∀ r ∈ records, r.packet.epoch = 0) :
    Gathers crypto sent arrived start
      (s.setRecordLayer (s.recordLayer.receive crypto memory (Record.datagram records)).2) where
  inv := h.inv.receive memory _
  same := by
    rw [h.same]
    rfl
  heard := h.heard.receive memory hepoch
  collecting := by
    refine ⟨?_, h.collecting.lastProcessedSeqNum, h.collecting.incompleteMessages,
      h.collecting.completeMessages⟩
    exact congrArg (fun f : FlightState => { f with
      recordLayer := (s.recordLayer.receive crypto memory (Record.datagram records)).2 })
      h.collecting.flightState

variable {opts : Options} {m m' : Sent} {piece : FragmentedHandshake}

/-- A piece that is not the last one. -/
theorem more (h : Gathers crypto (init ++ [final]) arrived start s)
    (hexpects : start.handshakeHandler.Expects init final)
    (harrives : Arrives (init ++ [final]) arrived m piece) (memory : MessageMemory)
    (hm' : m' ∈ init ++ [final]) (hmissing : ¬m'.Arrived (arrived ++ [piece])) :
    Ends (Socket.processIncomingMessage opts crypto memory piece) s
      (fun _ => Gathers crypto (init ++ [final]) (arrived ++ [piece]) start) (fun _ _ => False) := by
  rcases h.collecting.store harrives memory with ⟨h1, hstore, _⟩
  rcases h.collecting.take_incomplete opts crypto (hexpects.setRecordLayer _) harrives memory hm'
    hmissing with ⟨_, htaken⟩
  have hcalls : (s.handshakeHandler.take opts crypto (.message memory piece)).finishedCalls = [] := by
    rw [htaken.flightState, ← h.collecting.flightState]
    exact h.inv.finishedCalls
  apply (Socket.processIncomingMessage_unreported opts h.inv hstore hcalls).mono
  · rintro _ s' ⟨hinv, hsame⟩
    have hrl : s'.recordLayer = s.recordLayer := by
      have hflight := htaken.flightState
      rw [← h.collecting.flightState] at hflight
      rw [hsame]
      exact congrArg FlightState.recordLayer hflight
    have hhandler : s'.handshakeHandler =
        s.handshakeHandler.take opts crypto (.message memory piece) := by rw [hsame]
    refine ⟨hinv, ?_, hrl ▸ h.heard, ?_⟩
    · rw [hsame, h.same]
    · rw [hrl, hhandler]
      exact htaken
  · exact fun _ _ h => h

/-- The last piece. -/
theorem last (h : Gathers crypto (init ++ [final]) arrived start s)
    (hexpects : start.handshakeHandler.Expects init final)
    (harrives : Arrives (init ++ [final]) arrived m piece) (memory : MessageMemory)
    (hall : ∀ m ∈ init ++ [final], m.Arrived (arrived ++ [piece]))
    (hquiet : ReportsNothing opts crypto ((init ++ [final]).map (·.message)) final.message start) :
    Ends (Socket.processIncomingMessage opts crypto memory piece) s
      (fun _ => Completes opts crypto ((init ++ [final]).map (·.message)) final.message start)
      (fun _ _ => False) := by
  rcases h.collecting.store harrives memory with ⟨h1, hstore, _⟩
  rcases h.collecting.take_last opts crypto (hexpects.setRecordLayer _) harrives memory hall with
    ⟨_, htaken⟩
  have hflight := h.inv.flight
  rw [h.collecting.flightState] at hflight
  have hcalls : (s.handshakeHandler.take opts crypto (.message memory piece)).finishedCalls = [] := by
    rw [htaken]
    exact hquiet _ h.heard hflight
  apply (Socket.processIncomingMessage_unreported opts h.inv hstore hcalls).mono
  · rintro _ s' ⟨hinv, hsame⟩
    refine ⟨hinv, s.recordLayer, h.heard, hflight, ?_⟩
    rw [hsame, htaken, h.same]
  · exact fun _ _ h => h

end Gathers

/-! ## All of them -/

/-- What the socket has come to while these pieces are still to come. -/
inductive Receives (opts : Options) (crypto : Crypto) (init : List Sent) (final : Sent)
    (start : Socket) : List FragmentedHandshake → Socket → Prop
  | gathers {arrived remaining : List FragmentedHandshake} {s : Socket} (hne : remaining ≠ [])
      (hperm : (arrived ++ remaining).Perm ((init ++ [final]).flatMap Sent.pieces))
      (h : Gathers crypto (init ++ [final]) arrived start s) :
      Receives opts crypto init final start remaining s
  | completes {s : Socket}
      (h : Completes opts crypto ((init ++ [final]).map (·.message)) final.message start s) :
      Receives opts crypto init final start [] s

namespace Receives

variable {opts : Options} {pieces remaining : List FragmentedHandshake}

theorem message {piece : FragmentedHandshake}
    (h : Receives opts crypto init final start (piece :: remaining) s)
    (hexpects : start.handshakeHandler.Expects init final)
    (hquiet : ReportsNothing opts crypto ((init ++ [final]).map (·.message)) final.message start)
    (memory : MessageMemory) :
    Ends (Socket.processIncomingMessage opts crypto memory piece) s
      (fun _ => Receives opts crypto init final start remaining) (fun _ _ => False) := by
  cases h with
  | @gathers arrived _ _ hne hperm h =>
      rw [List.append_cons] at hperm
      have hnodup := hperm.nodup_iff.mpr hexpects.nodup_pieces
      have hknown : ∀ f ∈ arrived ++ [piece] ++ remaining, ∃ m ∈ init ++ [final], f ∈ m.pieces :=
        fun f hf => List.mem_flatMap.mp (hperm.mem_iff.mp hf)
      rcases hknown piece (List.mem_append_left _ (List.mem_append_right _ List.mem_cons_self)) with
        ⟨m, hm, hpiece⟩
      have harrives : Arrives (init ++ [final]) arrived m piece :=
        ⟨hexpects.strict, hm, hpiece,
          fun f hf => hknown f (List.mem_append_left _ (List.mem_append_left _ hf)),
          (List.nodup_append.mp hnodup).1⟩
      cases remaining with
      | nil =>
          have hall : ∀ m ∈ init ++ [final], m.Arrived (arrived ++ [piece]) := by
            intro m hm f hf
            rw [List.append_nil] at hperm
            exact hperm.mem_iff.mpr (List.mem_flatMap.mpr ⟨m, hm, hf⟩)
          apply (h.last hexpects harrives memory hall hquiet).mono
          · exact fun _ _ h => .completes h
          · exact fun _ _ h => h
      | cons next remaining =>
          -- the next piece is missing
          rcases hknown next (List.mem_append_right _ List.mem_cons_self) with ⟨m', hm', hf'⟩
          have hmissing : ¬m'.Arrived (arrived ++ [piece]) := by
            intro harrived
            exact (List.nodup_append.mp hnodup).2.2 next (harrived next hf') next
              List.mem_cons_self rfl
          apply (h.more hexpects harrives memory hm' hmissing).mono
          · exact fun _ _ h => .gathers (List.cons_ne_nil _ _) hperm h
          · exact fun _ _ h => h

theorem messages {loaded : List (MessageMemory × Message)}
    (h : Receives opts crypto init final start (pieces ++ remaining) s)
    (hexpects : start.handshakeHandler.Expects init final)
    (hquiet : ReportsNothing opts crypto ((init ++ [final]).map (·.message)) final.message start)
    (hloaded : List.Forall₂ (fun m piece => m.2 = ⟨.handshake, piece.serialize⟩ ∧ piece.Fits)
      loaded pieces) (rinfo : RemoteInfo) :
    Ends (Socket.handleMessages opts crypto rinfo loaded) s
      (fun _ => Receives opts crypto init final start remaining) (fun _ _ => False) := by
  induction hloaded generalizing s with
  | nil => exact h
  | @cons m piece loaded pieces hm _ ih =>
      rcases m with ⟨memory, msg⟩
      rcases hm with ⟨rfl, hfits⟩
      rw [Socket.handleMessages, ends_bind, Socket.handleMessage_serialize opts crypto memory hfits]
      apply (h.message hexpects hquiet memory).mono
      · exact fun _ _ h => ih h
      · exact fun _ _ h => h

/-- A datagram. -/
theorem arrive {d : Arrival} (h : Receives opts crypto init final start (pieces ++ remaining) s)
    (hexpects : start.handshakeHandler.Expects init final)
    (hquiet : ReportsNothing opts crypto ((init ++ [final]).map (·.message)) final.message start)
    (hopen : start.isClosed = false) (hholds : List.Forall₂ Record.Holds d.records pieces)
    (hne : d.records ≠ []) (hadmits : ∀ r ∈ d.records, s.recordLayer.admits r.packet = true) :
    Receives opts crypto init final start remaining (s.arrive opts crypto d) := by
  have hsome : pieces ++ remaining ≠ [] := by
    intro hnil
    have hlength := hholds.length_eq
    rw [(List.append_eq_nil_iff.mp hnil).1] at hlength
    exact hne (List.eq_nil_of_length_eq_zero hlength)
  generalize hall : pieces ++ remaining = all at h hsome
  cases h with
  | completes h => exact absurd rfl hsome
  | @gathers arrived _ _ _ hperm h =>
      have hepoch : ∀ r ∈ d.records, r.packet.epoch = 0 := by
        intro r hr
        rcases List.forall₂_iff_get.mp hholds with ⟨_, hget⟩
        rcases List.mem_iff_get.mp hr with ⟨i, rfl⟩
        exact (hget i.1 i.2 (hholds.length_eq ▸ i.2)).epoch
      have hmessages := h.heard.messages crypto hepoch hadmits
      have hopen' : s.isClosed = false := by
        rw [h.same]
        exact hopen
      have hloaded : List.Forall₂ (fun m piece => m.2 = ⟨.handshake, piece.serialize⟩ ∧ piece.Fits)
          (d.load (s.recordLayer.messages crypto d.records)) pieces := by
        have hplain : List.Forall₂
            (fun (m : Message) piece => m = ⟨.handshake, piece.serialize⟩ ∧ piece.Fits)
            ((d.load (s.recordLayer.messages crypto d.records)).map Prod.snd) pieces := by
          rw [d.map_load, hmessages, List.forall₂_map_left_iff]
          exact hholds.imp fun r piece hr => ⟨by rw [hr.type, hr.fragment], hr.fits⟩
        exact List.forall₂_map_left_iff.mp hplain
      have hreceived := h.receive d.memory hepoch
      have hstarted : Receives opts crypto init final start (pieces ++ remaining)
          (s.setRecordLayer
            (s.recordLayer.receive crypto d.memory (Record.datagram d.records)).2) := by
        rw [hall]
        exact .gathers hsome hperm hreceived
      rcases (hstarted.messages hexpects hquiet hloaded d.rinfo).exists_ok with ⟨_, s', hok, hdone⟩
      rw [Socket.arrive_eq opts hopen', finalState, hok]
      exact hdone

end Receives

theorem Receives.arrivals {opts : Options} {arrivals : List Arrival}
    {groups : List (List FragmentedHandshake)}
    (h : Receives opts crypto init final start groups.flatten s)
    (hexpects : start.handshakeHandler.Expects init final)
    (hquiet : ReportsNothing opts crypto ((init ++ [final]).map (·.message)) final.message start)
    (hopen : start.isClosed = false)
    (hholds : List.Forall₂ (fun d group => List.Forall₂ Record.Holds d.records group) arrivals groups)
    (hne : ∀ d ∈ arrivals, d.records ≠ [])
    (hadmits : ∀ before d after, arrivals = before ++ d :: after → ∀ r ∈ d.records,
      (before.foldl (Socket.arrive opts crypto) s).recordLayer.admits r.packet = true) :
    Receives opts crypto init final start [] (arrivals.foldl (Socket.arrive opts crypto) s) := by
  induction hholds generalizing s with
  | nil => exact h
  | @cons d group arrivals groups hd _ ih =>
      rw [List.forall_mem_cons] at hne
      have hnext := h.arrive hexpects hquiet hopen hd hne.1 (hadmits [] d arrivals rfl)
      rw [List.foldl_cons]
      apply ih hnext hne.2
      intro before d' after hsplit r hr
      exact hadmits (d :: before) d' after (by rw [hsplit, List.cons_append]) r hr

/-- A flight arrives in these datagrams, in any pieces and in any order: every record holds a piece and is
admitted when it comes. -/
structure FlightArrives (opts : Options) (crypto : Crypto) (start : Socket)
    (sent : List ClientHandshakeHandler.Sent) (arrivals : List Arrival) : Prop where
  pieces : ∃ groups : List (List FragmentedHandshake),
    groups.flatten.Perm (sent.flatMap Sent.pieces) ∧
    List.Forall₂ (fun d group => List.Forall₂ Record.Holds d.records group) arrivals groups
  nonempty : ∀ d ∈ arrivals, d.records ≠ []
  admitted : ∀ before d after, arrivals = before ++ d :: after → ∀ r ∈ d.records,
    (before.foldl (Socket.arrive opts crypto) start).recordLayer.admits r.packet = true

/-- The flight is handled once all of it has arrived, and the socket is what its handler leaves. -/
theorem FlightArrives.completes {opts : Options} {arrivals : List Arrival}
    (h : FlightArrives opts crypto start (init ++ [final]) arrivals) (hinv : ClientInv crypto start)
    (hexpects : start.handshakeHandler.Expects init final)
    (hclear : (start.recordLayer.connState 0).ReadInTheClear)
    (hincomplete : start.handshakeHandler.incompleteMessages = [])
    (hcomplete : start.handshakeHandler.completeMessages = .empty) (hopen : start.isClosed = false)
    (hquiet : ReportsNothing opts crypto ((init ++ [final]).map (·.message)) final.message start) :
    Completes opts crypto ((init ++ [final]).map (·.message)) final.message start
      (arrivals.foldl (Socket.arrive opts crypto) start) := by
  rcases h.pieces with ⟨groups, hperm, hholds⟩
  have hsome : groups.flatten ≠ [] := by
    intro hnil
    rw [hnil] at hperm
    rcases List.exists_mem_of_ne_nil _ final.delivered.ne_nil with ⟨f, hf⟩
    have hmem : f ∈ (init ++ [final]).flatMap Sent.pieces :=
      List.mem_flatMap.mpr ⟨final, List.mem_append_right _ List.mem_cons_self, hf⟩
    exact absurd (hperm.mem_iff.mpr hmem) List.not_mem_nil
  have hstart : Receives opts crypto init final start groups.flatten start :=
    .gathers hsome hperm (.nothing hinv hclear hincomplete hcomplete)
  cases hstart.arrivals hexpects hquiet hopen hholds h.nonempty h.admitted with
  | gathers hne => exact absurd rfl hne
  | completes hdone => exact hdone

-- What is known of the socket then.
theorem Completes.answered {opts : Options} {messages : List Handshake} {lastMsg : Handshake}
    (h : Completes opts crypto messages lastMsg start s) :
    ∃ rl, RecordLayer.Heard start.recordLayer rl ∧
      FlightState.Inv crypto (start.handshakeHandler.setRecordLayer rl).toFlightState ∧
      s.handshakeHandler.toFlightState =
        (start.handshakeHandler.setRecordLayer rl).toFlightState.answered opts crypto messages lastMsg ∧
      s.buffers = ((lastMsg.messageSeq : Int), [], IndexMap.empty) ∧ s.isClosed = start.isClosed := by
  rcases h.handled with ⟨rl, hheard, hinv, hsame⟩
  refine ⟨rl, hheard, hinv, ?_, ?_, ?_⟩
  · rw [hsame]
    rfl
  · rw [hsame]
    rfl
  · rw [hsame]

end DtlsClient
