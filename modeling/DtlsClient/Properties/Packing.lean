import DtlsClient.Run
import DtlsClient.Properties.Serializing

/-!
# Several handshake messages in one record

The loop of `udp_onMessage` parses one fragment of a handshake record and drops what follows it.
-/

open Library

namespace DtlsClient

/-- The data of a record that carries these messages. -/
def packed (messages : List FragmentedHandshake) : Bytes :=
  (messages.map FragmentedHandshake.serialize).flatten

namespace Socket

/-- What the loop of `udp_onMessage` does with a handshake record, for any way of processing a
message. -/
def passHandshake {σ : Type} (process : FragmentedHandshake → EStateM JsError σ Unit)
    (memory : Nat → Memory) (data : Bytes) : EStateM JsError σ Unit :=
  match FragmentedHandshake.fromBuffer memory data with
  | .error e => throw e
  | .ok handshake => process handshake

theorem handleMessage_handshake (opts : Options) (crypto : Crypto) (memory : MessageMemory)
    (data : Bytes) (rinfo : RemoteInfo) :
    handleMessage opts crypto memory ⟨.handshake, data⟩ rinfo =
      passHandshake (processIncomingMessage opts crypto memory) memory.fragment data := rfl

/-- All messages that a record carries are processed, one after the other, as if each had come in a
record of its own. -/
structure PassesAll (messages : List FragmentedHandshake) : Prop where
  inOrder : ∀ (memory : Nat → Memory) {σ : Type}
    (process : FragmentedHandshake → EStateM JsError σ Unit),
    passHandshake process memory (packed messages) = messages.forM process
  asSeparate : ∀ (opts : Options) (crypto : Crypto) (memory : MessageMemory) (rinfo : RemoteInfo),
    handleMessage opts crypto memory ⟨.handshake, packed messages⟩ rinfo =
      handleMessages opts crypto rinfo
        (messages.map fun m => (memory, ⟨.handshake, m.serialize⟩))

theorem passHandshake_cons {σ : Type} (process : FragmentedHandshake → EStateM JsError σ Unit)
    (memory : Nat → Memory) {message : FragmentedHandshake} (hfits : message.Fits)
    (messages : List FragmentedHandshake) :
    passHandshake process memory (packed (message :: messages)) = process message := by
  have hparse : FragmentedHandshake.fromBuffer memory (packed (message :: messages)) = .ok message :=
    FragmentedHandshake.fromBuffer_serialize memory hfits (packed messages)
  rw [passHandshake, hparse]

theorem packed_singleton (message : FragmentedHandshake) : packed [message] = message.serialize :=
  List.append_nil _

theorem handleMessage_serialize (opts : Options) (crypto : Crypto) (memory : MessageMemory)
    {message : FragmentedHandshake} (hfits : message.Fits) (rinfo : RemoteInfo) :
    handleMessage opts crypto memory ⟨.handshake, message.serialize⟩ rinfo =
      processIncomingMessage opts crypto memory message := by
  rw [handleMessage_handshake, ← packed_singleton, passHandshake_cons _ _ hfits]

-- A way of processing that only keeps a record of the messages.
theorem forM_record (messages seen : List FragmentedHandshake) :
    (messages.forM fun m => modify (· ++ [m]) : EStateM JsError (List FragmentedHandshake) Unit)
      seen = .ok () (seen ++ messages) := by
  induction messages generalizing seen with
  | nil =>
      rw [List.append_nil]
      rfl
  | cons message messages ih =>
      have hnext := ih (seen ++ [message])
      rw [List.append_assoc] at hnext
      exact hnext

-- The first message is the only one that is processed.
theorem PassesAll.length_eq {first : FragmentedHandshake} {rest : List FragmentedHandshake}
    (hall : PassesAll (first :: rest)) (hfirst : first.Fits) : (first :: rest).length = 1 := by
  have hrecord := congrFun
    (hall.inOrder (fun _ _ => 0) fun m => modify (· ++ [m])) ([] : List FragmentedHandshake)
  rw [passHandshake_cons _ _ hfirst, forM_record] at hrecord
  have hseen : [first] = first :: rest := (EStateM.Result.ok.inj hrecord).2
  rw [← hseen, List.length_singleton]

/-- The messages of a record are all processed exactly if it carries a single one: what follows the
first message is dropped. -/
theorem passesAll_iff {messages : List FragmentedHandshake} (hne : messages ≠ [])
    (hfits : ∀ m ∈ messages, m.Fits) : PassesAll messages ↔ messages.length = 1 := by
  cases messages with
  | nil => exact absurd rfl hne
  | cons first rest =>
      have hfirst := hfits first List.mem_cons_self
      refine ⟨fun hall => hall.length_eq hfirst, fun hone => ?_⟩
      have hrest : rest = [] := by
        rw [List.length_cons] at hone
        exact List.eq_nil_of_length_eq_zero (by omega)
      subst hrest
      constructor
      · intro memory σ process
        rw [passHandshake_cons process memory hfirst]
        exact bind_pure_unit.symm
      · intro opts crypto memory rinfo
        rw [packed_singleton]
        exact bind_pure_unit.symm

end Socket

namespace Sample

def serverHelloAndDone : List FragmentedHandshake := [serverHelloMessage, serverHelloDoneMessage]

theorem serverHelloAndDone_fits : ∀ m ∈ serverHelloAndDone, m.Fits := by
  have hhello : serverHelloMessage.Fits := ⟨by decide, by decide, by decide, by decide, by decide⟩
  have hdone : serverHelloDoneMessage.Fits := ⟨by decide, by decide, by decide, by decide, by decide⟩
  intro m hm
  rcases List.mem_pair.mp hm with rfl | rfl
  · exact hhello
  · exact hdone

end Sample

namespace Socket

open Sample

theorem passesAll_iff_sample :
    ¬PassesAll serverHelloAndDone ∧
      (PassesAll serverHelloAndDone ↔ serverHelloAndDone.length = 1) := by
  have hiff := passesAll_iff (List.cons_ne_nil _ _) serverHelloAndDone_fits
  exact ⟨fun hall => absurd (hiff.mp hall) (by decide), hiff⟩

/-- A server that puts ServerHello and ServerHelloDone into one record gets no answer. -/
theorem passesAll_serverFlight :
    ¬(∀ messages : List FragmentedHandshake, messages ≠ [] → (∀ m ∈ messages, m.Fits) →
        PassesAll messages) ∧
      (run [datagram (record .handshake 0 0 serverHelloMessage.serialize ++
          record .handshake 0 1 serverHelloDoneMessage.serialize), .next,
        .next]).socket.recordLayer.udpSocket.length = 2 ∧
      (run [datagram (record .handshake 0 0
          (packed [serverHelloMessage, serverHelloDoneMessage])),
        .next]).socket.recordLayer.udpSocket.length = 1 := by
  refine ⟨fun hall => ?_, by decide +kernel, by decide +kernel⟩
  have hpasses := hall serverHelloAndDone (List.cons_ne_nil _ _) serverHelloAndDone_fits
  cases hpasses.length_eq (serverHelloAndDone_fits _ List.mem_cons_self)

end Socket

end DtlsClient
