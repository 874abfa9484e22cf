import DtlsClient.Properties.Completion
import DtlsClient.Properties.EpochKeys
import DtlsClient.Properties.Hearing

/-!
# A session from its start

The handshake completes, and from then on the application gets the data that the server sends.  What the
handshake leaves behind is what the delivery needs: the keys of the session in epoch 1, a read epoch that
was switched once, and a window that has only seen the Finished message.
-/

open Library

namespace DtlsClient

open ClientHandshakeHandler

/-! ## The windows of a run -/

namespace RecordLayer

variable {crypto : Crypto} {rl : RecordLayer} {i next : Nat}

/-- Of epoch `i` only numbers below `next` come through. -/
def TakesBelow (i next : Nat) (r : RecordLayer × Operation) : Prop :=
  match r.2 with
  | .receive memory buf => ∀ q ∈ r.1.admitted memory buf, q.epoch = i → q.sequenceNumber < next
  | _ => True

section Marks

-- What holds of a new window, and is kept by every mark below `next`.
variable {P : AntiReplayWindow → Prop} (hreset : P .reset)
  (hmark : ∀ w n, n < next → P w → P (w.markAsReceived n))

include hmark

theorem foldl_marks_window {records : List DTLSPlaintext} (h : P (rl.window i))
    (hbelow : ∀ q ∈ records, q.epoch = i → q.sequenceNumber < next) :
    P ((records.foldl markAsReceived rl).window i) := by
  induction records generalizing rl with
  | nil => exact h
  | cons q records ih =>
      rw [List.forall_mem_cons] at hbelow
      apply ih _ hbelow.2
      rcases window_markAsReceived_cases rl q i with hsame | ⟨hi, hmarked⟩
      · rw [hsame]
        exact h
      · rw [hmarked]
        exact hmark _ _ (hbelow.1 hi.symm) h

theorem receive_window (h : P (rl.window i)) (memory : Nat → Memory) (buf : Bytes)
    (hbelow : TakesBelow i next (rl, .receive memory buf)) :
    P ((rl.receive crypto memory buf).2.window i) := by
  rw [receive_eq]
  apply foldl_marks_window hmark
  · have hsame := foldl_congr_of_step (g := fun rl => rl.window i)
      (fun rl (p : DTLSCiphertext) => window_updateConnectionState rl p.epoch i .withDecipher)
      (rl.admitted memory buf) rl
    have hsame : RecordLayer.window _ i = rl.window i := hsame
    rw [hsame]
    exact h
  · intro q hq hepoch
    rcases accepted_admitted hq with ⟨p, hp, hsame⟩
    have hsame := Prod.mk.inj hsame
    have hnumber : q.sequenceNumber = p.sequenceNumber := hsame.2
    rw [hnumber]
    exact hbelow p hp (hsame.1.symm.trans hepoch)

include hreset

theorem run_window {operations : List Operation}
    (h : ∀ t ∈ (machine crypto).trace operations, TakesBelow i next t) :
    P (((machine crypto).run operations).window i) := by
  revert h
  apply (machine crypto).run_induction (P := fun operations rl =>
    (∀ t ∈ (machine crypto).trace operations, TakesBelow i next t) → P (rl.window i))
  · intro _
    match i with
    | 0 => exact hreset
    | 1 => exact hreset
    | i + 2 => exact hreset
  · intro operations op ih h
    rw [Machine.forall_trace_concat] at h
    have hbefore := ih h.1
    cases op with
    | receive memory buf => exact receive_window hmark hbefore memory buf h.2
    | _ =>
        show P (((_ : RecordLayer).perform crypto _).window i)
        rw [perform_window crypto _ (fun _ _ h => by cases h)]
        exact hbefore

end Marks

end RecordLayer

open RecordLayer

/-- In every run: a window waits for all numbers above those that came through, and never moves down. -/
theorem client_ascending {opts : Options}
    (hreset : opts.resetAntiReplayWindowBeforeServerHello = false) (crypto : Crypto) (random : Random)
    {actions : List Action} {i next : Nat}
    (h : ∀ t ∈ (client opts crypto random).trace actions, ∀ r ∈ received t, TakesBelow i next r) :
    (((client opts crypto random).run actions).recordLayer.window i).Ascending next ∧
      AntiReplayWindow.reset.ceiling ≤
        (((client opts crypto random).run actions).recordLayer.window i).ceiling := by
  rcases run_operations crypto hreset random actions with ⟨operations, hrun, htrace⟩
  rw [← hrun]
  refine run_window (P := fun w => w.Ascending next ∧ AntiReplayWindow.reset.ceiling ≤ w.ceiling)
    ?_ ?_ (forall_trace htrace ?_ h)
  · exact ⟨AntiReplayWindow.Ascending.reset.mono (Nat.zero_le next), Nat.le_refl _⟩
  · intro w n hn hw
    rw [AntiReplayWindow.markAsReceived_ceiling]
    exact ⟨(hw.1.markAsReceived n).mono (by omega), Nat.le_trans hw.2 (Nat.le_max_left _ _)⟩
  · intro rl op hop
    cases op with
    | receive memory buf => cases hop
    | _ => trivial

/-! ## What protects and reads an epoch -/

-- Nor does what reads an epoch that is written change in any run.
theorem foldl_decipher (opts : Options) {crypto : Crypto} {c : Config} (hinv : ClientInv crypto c.socket)
    {i : Nat} (hi : i ≤ c.recordLayer.writeEpochNr) (later : List Action) :
    ((later.foldl (step opts crypto) c).recordLayer.connState i).decipher =
      (c.recordLayer.connState i).decipher := by
  induction later generalizing c with
  | nil => rfl
  | cons a later ih =>
      rcases step_sends opts a hinv with ⟨sendings, hstep⟩
      have hwrites := hstep.sends.writes
      rw [List.foldl_cons, ih (step_inv opts hinv a) (Nat.le_trans hi hwrites.writeEpochNr_le)]
      rcases step_cachedDecipher opts (t := (c, a)) hinv i with ⟨_, hcreated⟩ | ⟨_, hcached⟩
      · have hcreated : (step opts crypto c a).recordLayer.connState i =
            (c.recordLayer.connState i).withDecipher := hcreated
        rw [hcreated, ConnectionState.decipher_withDecipher]
      · have hcached : ((step opts crypto c a).recordLayer.connState i).cachedDecipher =
            (c.recordLayer.connState i).cachedDecipher := hcached
        have hspecify : ((step opts crypto c a).recordLayer.connState i).specify =
            (c.recordLayer.connState i).specify := hwrites.specify hi
        unfold ConnectionState.decipher
        rw [hcached, hspecify]

/-! ## The read epoch -/

/-- The read epoch once all that is pending has been handled. -/
def Config.switches (c : Config) : Nat :=
  c.recordLayer.readEpochNr + (c.pending.map (·.msg)).countP isChangeCipherSpec

-- Only a datagram brings more switches.
theorem step_switches (opts : Options) {crypto : Crypto} {c : Config} (hinv : ClientInv crypto c.socket)
    (a : Action) :
    (step opts crypto c a).switches ≤ c.switches +
      ((received (c, a)).toList.flatMap (returned crypto)).countP isChangeCipherSpec := by
  have hless : ∀ {c' : Config}, c'.recordLayer.readEpochNr = c.recordLayer.readEpochNr →
      c'.pending.Sublist c.pending → ∀ more, c'.switches ≤ c.switches + more := by
    intro c' hread hsublist more
    have hcount := (hsublist.map (·.msg)).countP_le (p := isChangeCipherSpec)
    unfold Config.switches
    rw [hread]
    exact Nat.le_trans (Nat.add_le_add_left hcount _) (Nat.le_add_right _ more)
  cases step_cases opts hinv a with
  | receives memory messageMemory udpMsg rinfo haction htakes hnext =>
      rw [hnext, haction, received_takes htakes, Option.toList_some, List.flatMap_singleton]
      unfold Config.switches
      rw [map_deliveries]
      show (c.recordLayer.receive crypto memory udpMsg).2.readEpochNr + _ ≤ _
      rw [receive_readEpochNr]
      exact Nat.add_le_add_right (Nat.le_add_right _ _) _
  | switches d pending _ hpending hmsg hnext =>
      have hswitch : isChangeCipherSpec d.msg = true := decide_eq_true hmsg
      rw [hnext]
      unfold Config.switches
      rw [hpending, List.map_cons, List.countP_cons_of_pos hswitch]
      show c.recordLayer.readEpochNr + 1 + (pending.map (·.msg)).countP isChangeCipherSpec ≤ _
      omega
  | delivers d pending _ hpending _ hnext =>
      rw [hnext]
      refine hless ?_ ?_ _
      · show (c.socket.deliver d.msg d.rinfo).handshakeHandler.recordLayer.readEpochNr = _
        rw [(Socket.deliver_handler d.msg d.rinfo c.socket).1]
        rfl
      · rw [hpending]
        exact List.sublist_cons_self d pending
  | finishes d _ _ hpending _ _ hfinishes =>
      have hsublist : (step opts crypto c a).pending.Sublist c.pending := by
        rw [hpending]
        exact List.sublist_cons_self d _
      exact hless hfinishes.progress.readEpochNr hsublist _
  | moves hmoves hsublist => exact hless hmoves.progress.readEpochNr hsublist _

theorem foldl_switches (opts : Options) {crypto : Crypto} (random : Random) {c : Config}
    (hinv : ClientInv crypto c.socket) (actions : List Action) :
    (actions.foldl (step opts crypto) c).switches ≤ c.switches +
      ((((client opts crypto random).traceFrom c actions).filterMap received).flatMap
        (returned crypto)).countP isChangeCipherSpec := by
  induction actions generalizing c with
  | nil => exact Nat.le_add_right _ _
  | cons a actions ih =>
      have hfirst := step_switches opts hinv a
      have hrest := ih (step_inv opts hinv a)
      rw [Machine.traceFrom, List.foldl_cons]
      cases ha : received (c, a) with
      | none =>
          rw [ha] at hfirst
          rw [List.filterMap_cons_none ha]
          exact Nat.le_trans hrest (Nat.add_le_add_right hfirst _)
      | some r =>
          rw [ha, Option.toList_some, List.flatMap_singleton] at hfirst
          rw [List.filterMap_cons_some ha, List.flatMap_cons, List.countP_append, ← Nat.add_assoc]
          exact Nat.le_trans hrest (Nat.add_le_add_right hfirst _)

/-! ## What arrives -/

section Arrivals

variable (opts : Options) (crypto : Crypto) (random : Random)

theorem received_nexts (c : Config) (n : Nat) :
    ((client opts crypto random).traceFrom c (List.replicate n .next)).filterMap received = [] := by
  induction n generalizing c with
  | zero => rfl
  | succ n ih =>
      rw [List.replicate_succ, Machine.traceFrom, List.filterMap_cons_none rfl]
      exact ih _

-- The messages that are returned are of the types of the records.
theorem returned_types (c : Config) (arrivals : List Arrival) :
    ((((client opts crypto random).traceFrom c (arrivals.flatMap Arrival.actions)).filterMap
      received).flatMap (returned crypto) |>.map Message.type).Sublist
      ((arrivals.flatMap Arrival.records).map fun r => r.packet.type) := by
  induction arrivals generalizing c with
  | nil => exact .refl _
  | cons d arrivals ih =>
      rw [List.flatMap_cons, Machine.traceFrom_append, List.filterMap_append, List.flatMap_append,
        List.map_append, List.flatMap_cons, List.map_append]
      refine .append ?_ (ih _)
      rw [Arrival.actions, Machine.traceFrom]
      by_cases htakes : c.takesDatagram = true
      · rw [List.filterMap_cons_some (received_takes htakes), received_nexts, List.flatMap_singleton]
        show ((c.recordLayer.receive crypto d.memory (Record.datagram d.records)).1.map _).Sublist _
        rw [receive_messages]
        exact messages_types crypto c.recordLayer d.records
      · have hnone : received (c, .datagram d.memory d.messageMemory (Record.datagram d.records)
            d.rinfo) = none := if_neg htakes
        rw [List.filterMap_cons_none hnone, received_nexts]
        exact List.nil_sublist _

variable {opts crypto random}

-- What comes through is one of the records that arrive.
theorem admitted_arrived {arrivals : List Arrival} {t : Config × Action}
    (ht : t ∈ (client opts crypto random).trace (arrivals.flatMap Arrival.actions))
    {r : RecordLayer × Operation} (hr : received t = some r) :
    ∃ memory buf, r.2 = .receive memory buf ∧
      ∀ q ∈ r.1.admitted memory buf, ∃ d ∈ arrivals, ∃ s ∈ d.records, q = s.packet := by
  rcases t with ⟨c, a⟩
  rcases received_some hr with ⟨memory, messageMemory, udpMsg, rinfo, rfl, _, rfl⟩
  refine ⟨memory, udpMsg, rfl, fun q hq => ?_⟩
  rcases (client opts crypto random).mem_trace ht with ⟨before, after, hactions, _⟩
  have hmem : Action.datagram memory messageMemory udpMsg rinfo ∈
      arrivals.flatMap Arrival.actions := by
    rw [hactions]
    exact List.mem_append_right _ List.mem_cons_self
  rcases List.mem_flatMap.mp hmem with ⟨d, hd, hd'⟩
  refine ⟨d, hd, ?_⟩
  rcases List.mem_cons.mp hd' with hfirst | hnext
  · cases hfirst
    have hq := (List.mem_filter.mp hq).1
    rw [Record.packets_datagram] at hq
    rcases List.mem_map.mp hq with ⟨s, hs, rfl⟩
    exact ⟨s, hs, rfl⟩
  · cases List.eq_of_mem_replicate hnext

end Arrivals

theorem dataOf_eq_nil {messages : List Message} (h : ∀ m ∈ messages, m.type ≠ .applicationData) :
    dataOf messages = [] :=
  List.filterMap_eq_nil_iff.mpr fun m hm => if_neg (h m hm)

/-! ## From the handshake to the data -/

section Sessions

variable {opts : Options} {crypto : Crypto} {random : Random} {session : Session}

theorem FlightArrives.epoch {start : Socket} {sent : List Sent} {arrivals : List Arrival}
    (h : FlightArrives opts crypto start sent arrivals) :
    ∀ d ∈ arrivals, ∀ r ∈ d.records, r.packet.epoch = 0 ∧ r.packet.type = .handshake := by
  rcases h.pieces with ⟨groups, _, hholds⟩
  have hall : ∀ {records : List Record} {pieces : List FragmentedHandshake},
      List.Forall₂ Record.Holds records pieces →
      ∀ r ∈ records, r.packet.epoch = 0 ∧ r.packet.type = .handshake := by
    intro records pieces hrecords
    exact ((List.forall₂_and_left ..).mp
      (hrecords.imp fun r piece hr => ⟨⟨hr.epoch, hr.type⟩, hr⟩)).1
  exact ((List.forall₂_and_left ..).mp (hholds.imp fun d group hd => ⟨hall hd, hd⟩)).1

theorem Session.Finishes.handshake {finished : Handshake} {ccs fin : Record}
    (h : session.Finishes crypto finished ccs fin) : fin.packet.type = .handshake := by
  rcases h.sealed with ⟨version, number, hsealed⟩
  rcases CipherSuite.cipher_header hsealed with ⟨fragment, hheader⟩
  rw [hheader]

section LastFlight

variable {finished : Handshake} {ccs fin : Record} {before last : List Arrival}

-- The only record of epoch 1 is the Finished message.
theorem LastArrives.ascending (hreset : opts.resetAntiReplayWindowBeforeServerHello = false)
    (hlast : LastArrives opts crypto (clientAfter opts crypto random before).socket ccs fin last)
    (hfinishes : session.Finishes crypto finished ccs fin)
    (hbefore : ∀ d ∈ before, ∀ r ∈ d.records, r.packet.epoch = 0) :
    ((clientAfter opts crypto random (before ++ last)).recordLayer.window 1).Ascending
        (fin.packet.sequenceNumber + 1) ∧
      AntiReplayWindow.reset.ceiling ≤
        ((clientAfter opts crypto random (before ++ last)).recordLayer.window 1).ceiling := by
  apply client_ascending hreset
  intro t ht r hr
  rcases admitted_arrived ht hr with ⟨memory, buf, hop, hadmitted⟩
  unfold TakesBelow
  rw [hop]
  intro q hq hepoch
  rcases hadmitted q hq with ⟨d, hd, s, hs, rfl⟩
  rcases List.mem_append.mp hd with hd | hd
  · rw [hbefore d hd s hs] at hepoch
    cases hepoch
  · have hmem : s ∈ last.flatMap Arrival.records := List.mem_flatMap.mpr ⟨d, hd, hs⟩
    rw [hlast.records] at hmem
    rcases List.mem_cons.mp hmem with rfl | hmem
    · rw [hfinishes.changeCipherSpec.2] at hepoch
      cases hepoch
    · rw [List.mem_singleton.mp hmem]
      exact Nat.lt_succ_self _

-- One ChangeCipherSpec arrives.
theorem LastArrives.readEpochNr_le
    (hlast : LastArrives opts crypto (clientAfter opts crypto random before).socket ccs fin last)
    (hfinishes : session.Finishes crypto finished ccs fin)
    (hread : (clientAfter opts crypto random before).recordLayer.readEpochNr = 0) :
    (clientAfter opts crypto random (before ++ last)).recordLayer.readEpochNr ≤ 1 := by
  have hinv : ClientInv crypto (clientAfter opts crypto random before).socket :=
    run_inv opts crypto random _
  have hcount := foldl_switches opts random hinv (last.flatMap Arrival.actions)
  have hstart : (clientAfter opts crypto random before).switches = 0 := by
    unfold Config.switches
    rw [clientAfter_pending]
    exact hread
  rw [clientAfter_foldl, hstart, Nat.zero_add] at hcount
  have htypes := (returned_types opts crypto random (clientAfter opts crypto random before)
    last).countP_le (p := fun type => decide (type = ContentType.changeCipherSpec))
  have hone : ([ccs, fin].map fun r => r.packet.type).countP
      (fun type => decide (type = ContentType.changeCipherSpec)) ≤ 1 := by
    rw [List.map_cons, List.map_singleton, hfinishes.changeCipherSpec.1, hfinishes.handshake]
    exact Nat.le_refl 1
  rw [hlast.records, List.countP_map] at htypes
  exact Nat.le_trans (Nat.le_add_right _ _) (Nat.le_trans hcount (Nat.le_trans htypes hone))

end LastFlight

/-- The client that has its keys listens to the server once the last flight has arrived. -/
theorem HasKeys.listens (hreset : opts.resetAntiReplayWindowBeforeServerHello = false)
    {transcript : List Bytes} {lastSeqNum : Nat} {ccs fin : Record} {before last : List Arrival}
    {server : RecordLayer}
    (h : HasKeys crypto session transcript lastSeqNum (clientAfter opts crypto random before).socket)
    (hinverts : crypto.Inverts session.suite (session.keyMaterial crypto))
    (hfinishes : session.Finishes crypto
      (session.serverFinished crypto (lastSeqNum + 1) transcript) ccs fin)
    (hlast : LastArrives opts crypto (clientAfter opts crypto random before).socket ccs fin last)
    (hbefore : ∀ d ∈ before, ∀ r ∈ d.records, r.packet.epoch = 0)
    (hserver : (server.connState 1).specify =
      some ⟨session.suite, some (session.keyMaterial crypto), .server⟩) :
    Listens crypto server (clientAfter opts crypto random (before ++ last))
      (fin.packet.sequenceNumber + 1) := by
  have hread := hlast.readEpochNr_le hfinishes h.readEpochNr
  refine ⟨run_inv opts crypto random _, ?_, ?_,
    ⟨?_, hread, ?_, (hlast.ascending hreset hfinishes hbefore).1⟩⟩
  · rw [← clientAfter_append]
    exact h.finished hinverts hfinishes hlast
  · rw [clientAfter_pending]
    exact fun _ hd => absurd hd List.not_mem_nil
  · refine ⟨_, hserver, ?_, ?_⟩
    · intro keys hkeys
      rw [← Option.some.inj hkeys]
      exact hinverts
    · rw [← clientAfter_foldl, foldl_decipher opts h.inv h.writeEpochNr.ge]
      exact h.decipher
  · have hlength := (clientAfter opts crypto random (before ++ last)).recordLayer.epochs_length
    omega

-- No data comes with these datagrams.
theorem clientAfter_payloads {arrivals : List Arrival}
    (h : ∀ r ∈ arrivals.flatMap Arrival.records, r.packet.type ≠ .applicationData) :
    (clientAfter opts crypto random arrivals).payloads = [] := by
  have hsublist := (run_sublist opts crypto random (arrivals.flatMap Arrival.actions)).map Prod.fst
  have htypes := returned_types opts crypto random (client opts crypto random).init arrivals
  rw [flatMap_returnedData, dataOf_eq_nil] at hsublist
  · exact List.map_eq_nil_iff.mp (List.sublist_nil.mp hsublist)
  · intro m hm
    rcases List.mem_map.mp (htypes.subset (List.mem_map_of_mem hm)) with ⟨r, hr, hsame⟩
    rw [← hsame]
    exact h r hr

/-- A session from its start.  The server asks for a cookie, selects a PSK suite and finishes over the
messages as they were sent, and all of that arrives.  From then on the application gets the data of the server
in the order it was sent and each piece once, whatever is lost, as long as the datagrams come in order and
no record is more than 64 numbers ahead. -/
theorem session_delivers (hreset : opts.resetAntiReplayWindowBeforeServerHello = false)
    {identity : Bytes} {request : HelloVerifyRequest} {verify final : Sent} {init : List Sent}
    {ccs fin : Record} {greeting flight last : List Arrival}
    (hpsk : opts.psk.head? = some (identity, session.psk))
    (hrandom : session.clientRandom = random.serialize)
    (hinverts : crypto.Inverts session.suite (session.keyMaterial crypto))
    (hverify : verify.message.body = .helloVerifyRequest request) (hseq : verify.seqNum = 0)
    (hcookie : request.cookie ≠ []) (hserver : ServerFlight session init final)
    (hgreeting : FlightArrives opts crypto (clientAfter opts crypto random []).socket [verify] greeting)
    (hflight : FlightArrives opts crypto (clientAfter opts crypto random greeting).socket
      (init ++ [final]) flight)
    (hfinishes : session.Finishes crypto (session.serverFinished crypto (init.length + 2)
      (session.clientTranscript crypto identity
        (sentTranscript opts random request.cookie (init ++ [final])))) ccs fin)
    (hlast : LastArrives opts crypto (clientAfter opts crypto random (greeting ++ flight)).socket ccs fin
      last)
    {server : RecordLayer} (hkeys : (server.connState 1).specify =
      some ⟨session.suite, some (session.keyMaterial crypto), .server⟩)
    {later : List Action} {delivered : List (List DTLSCompressed)}
    (hstream : Streamed crypto server (fin.packet.sequenceNumber + 1) AntiReplayWindow.reset.ceiling
      delivered)
    (harrive : List.Forall₂ (Brings crypto server) delivered
      (((client opts crypto random).traceFrom
        (clientAfter opts crypto random (greeting ++ flight ++ last)) later).filterMap received)) :
    let c := (client opts crypto random).run ((greeting ++ flight ++ last).flatMap Arrival.actions ++ later)
    (c.socket.emitted ++ c.pendingPayloads).map Prod.fst = delivered.flatten.map (·.fragment) := by
  intro c
  have hbefore : ∀ d ∈ greeting ++ flight, ∀ r ∈ d.records,
      r.packet.epoch = 0 ∧ r.packet.type = .handshake := by
    intro d hd
    rcases List.mem_append.mp hd with hd | hd
    · exact hgreeting.epoch d hd
    · exact hflight.epoch d hd
  have hhasKeys := client_hasKeys opts random hpsk hrandom hverify hseq hcookie hserver hgreeting hflight
  have hepoch : ∀ d ∈ greeting ++ flight, ∀ r ∈ d.records, r.packet.epoch = 0 :=
    fun d hd r hr => (hbefore d hd r hr).1
  have hlistens := hhasKeys.1.listens hreset hinverts hfinishes hlast hepoch hkeys
  have hceiling := (hlast.ascending hreset hfinishes hepoch).2
  have hnone : (clientAfter opts crypto random (greeting ++ flight ++ last)).payloads = [] := by
    apply clientAfter_payloads
    intro r hr
    rw [List.flatMap_append, List.mem_append, hlast.records] at hr
    rcases hr with hr | hr
    · rcases List.mem_flatMap.mp hr with ⟨d, hd, hr⟩
      rw [(hbefore d hd r hr).2]
      exact nofun
    · rcases List.mem_cons.mp hr with rfl | hr
      · rw [hfinishes.changeCipherSpec.1]
        exact nofun
      · rw [List.mem_singleton.mp hr, hfinishes.handshake]
        exact nofun
  have hstream : Streamed crypto server (fin.packet.sequenceNumber + 1)
      ((clientAfter opts crypto random (greeting ++ flight ++ last)).recordLayer.window 1).ceiling
      delivered := { hstream with near := hstream.near.mono hceiling }
  have hrun : c = later.foldl (step opts crypto)
      (clientAfter opts crypto random (greeting ++ flight ++ last)) := List.foldl_append
  rcases hlistens.run opts random hstream harrive with ⟨⟨next, hend⟩, hpayloads⟩
  rw [← hrun, hnone] at hpayloads
  rw [← hrun] at hend
  rw [← hend.payloads_eq]
  exact hpayloads

end Sessions

namespace Sample

def sessionArrivals : List Arrival :=
  [arrival [verifyRecord]] ++ [arrival flightRecords] ++
    [arrival [finishedFlightRecords.1, finishedFlightRecords.2]]

-- What both ends have come to.
theorem session_evaluated :
    (sendingServer.connState 1).specify =
        some ⟨session.suite, some (session.keyMaterial ccm), .server⟩ ∧
      (clientAfter opts ccm random sessionArrivals).takesDatagram = true ∧
      ((heardInOrder.take 2).foldl (step opts ccm)
        (clientAfter opts ccm random sessionArrivals)).takesDatagram = true := by
  decide +kernel

end Sample

-- The handshake with a cookie, and behind it four pieces of data of which the second is lost.
theorem session_delivers_sample :
    ((Sample.sessionRun (Sample.sessionArrivals.flatMap Arrival.actions ++
        Sample.heardInOrder)).socket.emitted ++
      (Sample.sessionRun (Sample.sessionArrivals.flatMap Arrival.actions ++
        Sample.heardInOrder)).pendingPayloads).map Prod.fst = [[0x2a], [0x2c], [0x2d]] := by
  rcases Sample.session_evaluated with ⟨hkeys, hfirst, hsecond⟩
  exact session_delivers rfl rfl rfl (Sample.ccm_inverts _ _) rfl rfl
    (by decide : Sample.request.cookie ≠ []) Sample.serverFlight_follows Sample.greets
    Sample.offers Sample.finishes Sample.lastArrives hkeys Sample.heardRecords_streamed
    (Sample.heardRecords_arrive hfirst hsecond)

end DtlsClient
