import DtlsClient.DTLS.HandshakeHandler
import DtlsClient.Properties.Parsing

/-!
# Reassembling fragments and storing messages

Fragments that leave no hole write every byte of the reassembled message, so that it does not matter
what the memory held before.  `completed` is the message that is complete once a fragment has arrived,
and `storeMessage_eq` says what storing it does.
-/

open Library

namespace DtlsClient

namespace FragmentedHandshake

/-! ## Fragments of one message -/

theorem sameMessage_iff {f reference : FragmentedHandshake} :
    f.sameMessage reference = true ↔ f.msgType = reference.msgType ∧
      f.messageSeq = reference.messageSeq ∧ f.totalLength = reference.totalLength := by
  unfold sameMessage
  rw [decide_eq_true_eq]

theorem sameMessage_symm {f g : FragmentedHandshake} (h : f.sameMessage g = true) :
    g.sameMessage f = true := by
  rw [sameMessage_iff] at h ⊢
  exact ⟨h.1.symm, h.2.1.symm, h.2.2.symm⟩

theorem sameMessage_congr {f g : FragmentedHandshake} (h : f.sameMessage g = true)
    (fragment : FragmentedHandshake) : fragment.sameMessage f = fragment.sameMessage g := by
  rw [sameMessage_iff] at h
  unfold sameMessage
  rw [h.1, h.2.1, h.2.2]

theorem findAllFragments_append (fragments more : List FragmentedHandshake)
    (msg : FragmentedHandshake) :
    findAllFragments (fragments ++ more) msg =
      findAllFragments fragments msg ++ findAllFragments more msg := List.filter_append ..

theorem findAllFragments_cons_same {msg fragment : FragmentedHandshake}
    (h : fragment.sameMessage msg = true) (fragments : List FragmentedHandshake) :
    findAllFragments (fragment :: fragments) msg = fragment :: findAllFragments fragments msg :=
  List.filter_cons_of_pos h

theorem findAllFragments_cons_other {msg fragment : FragmentedHandshake}
    (h : ¬fragment.sameMessage msg = true) (fragments : List FragmentedHandshake) :
    findAllFragments (fragment :: fragments) msg = findAllFragments fragments msg :=
  List.filter_cons_of_neg h

theorem findAllFragments_congr {msg fragment : FragmentedHandshake}
    (hsame : fragment.sameMessage msg = true) (fragments : List FragmentedHandshake) :
    findAllFragments fragments fragment = findAllFragments fragments msg := by
  unfold findAllFragments
  congr 1
  funext f
  exact sameMessage_congr hsame f

-- Removing the fragments of another message makes no difference.
theorem findAllFragments_filter_other {msg fragment : FragmentedHandshake}
    (hother : ¬fragment.sameMessage msg = true) (fragments : List FragmentedHandshake) :
    findAllFragments (fragments.filter fun f => !f.sameMessage fragment) msg =
      findAllFragments fragments msg := by
  unfold findAllFragments
  rw [List.filter_filter]
  apply List.filter_congr
  intro f _
  by_cases hf : f.sameMessage msg = true
  · have hne : f.sameMessage fragment = false := by
      rw [← Bool.not_eq_true]
      intro hsame
      rw [sameMessage_congr (sameMessage_symm hf) fragment] at hother
      exact hother (sameMessage_symm hsame)
    rw [hf, hne]
    rfl
  · rw [Bool.not_eq_true] at hf
    rw [hf, Bool.false_and]

-- The fragments that are found belong to one message, so that only a hole can be missing.
theorem isComplete_found {fragments : List FragmentedHandshake} {msg first : FragmentedHandshake}
    {rest : List FragmentedHandshake} (hfound : findAllFragments fragments msg = first :: rest) :
    isComplete (first :: rest) = .ok (noHoles msg.totalLength
      (((first :: rest).map range).insertionSort fun a b => a.1 ≤ b.1)) := by
  have hsame : ∀ f ∈ first :: rest, f.sameMessage msg = true := by
    intro f hf
    rw [← hfound] at hf
    exact (List.mem_filter.mp hf).2
  have hfirst := hsame first List.mem_cons_self
  have hall : ((first :: rest).all fun f => f.sameMessage first) = true := by
    rw [List.all_eq_true]
    intro f hf
    rw [sameMessage_congr hfirst f]
    exact hsame f hf
  rw [← (sameMessage_iff.mp hfirst).2.2]
  exact if_pos hall

theorem isComplete_findAllFragments (fragments : List FragmentedHandshake)
    (msg : FragmentedHandshake) :
    ∃ complete, isComplete (findAllFragments fragments msg) = .ok complete := by
  cases hfound : findAllFragments fragments msg with
  | nil => exact ⟨false, rfl⟩
  | cons first rest => exact ⟨_, isComplete_found hfound⟩

/-! ## The bytes of a reassembled message -/

theorem combine_length (messages : List FragmentedHandshake) (combined : Bytes) :
    (combine messages combined).length = combined.length := by
  induction messages generalizing combined with
  | nil => rfl
  | cons msg messages ih =>
      rw [combine, ih, overwrite_length]

-- A byte that a fragment writes does not depend on what was there.
theorem combine_getElem? {messages : List FragmentedHandshake} {combined combined' : Bytes} {i : Nat}
    (hlength : combined'.length = combined.length)
    (hbyte : combined[i]? = combined'[i]? ∨
      ∃ f ∈ messages, f.fragmentOffset ≤ i ∧ i < f.fragmentOffset + f.fragment.length) :
    (combine messages combined)[i]? = (combine messages combined')[i]? := by
  induction messages generalizing combined combined' with
  | nil =>
      rcases hbyte with hsame | ⟨f, hf, _⟩
      · exact hsame
      · cases hf
  | cons msg messages ih =>
      rw [combine, combine]
      apply ih
      · rw [overwrite_length, overwrite_length, hlength]
      · by_cases hi : i < combined.length
        · rw [overwrite_getElem? _ _ _ _ hi, overwrite_getElem? _ _ _ _ (hlength ▸ hi)]
          by_cases hcovers : msg.fragmentOffset ≤ i ∧ i < msg.fragmentOffset + msg.fragment.length
          · left
            rw [if_pos hcovers, if_pos hcovers]
          · rw [if_neg hcovers, if_neg hcovers]
            rcases hbyte with hsame | ⟨f, hf, hin⟩
            · exact .inl hsame
            · rcases List.mem_cons.mp hf with rfl | hf
              · exact absurd hin hcovers
              · exact .inr ⟨f, hf, hin⟩
        · left
          rw [List.getElem?_eq_none (by rw [overwrite_length]; omega),
            List.getElem?_eq_none (by rw [overwrite_length]; omega)]

-- From the first range on, no position up to the end of the message is left out.
theorem noHolesAfter_covers {totalLength : Nat} {previous : Nat × Int} {ranges : List (Nat × Int)}
    {i : Nat} (h : noHolesAfter totalLength previous ranges = true) (hstart : previous.1 ≤ i)
    (hend : i < totalLength) : ∃ range ∈ previous :: ranges, range.1 ≤ i ∧ (i : Int) ≤ range.2 := by
  induction ranges generalizing previous with
  | nil =>
      have hlast : previous.2 = (totalLength : Int) - 1 := by simpa [noHolesAfter] using h
      exact ⟨previous, List.mem_cons_self, hstart, by omega⟩
  | cons range ranges ih =>
      rw [noHolesAfter, decide_eq_true_eq] at h
      by_cases hin : (i : Int) ≤ previous.2
      · exact ⟨previous, List.mem_cons_self, hstart, hin⟩
      · rcases ih h.2 (by omega) with ⟨covering, hmem, hcovers⟩
        exact ⟨covering, List.mem_cons_of_mem _ hmem, hcovers⟩

theorem noHoles_covers {totalLength : Nat} {ranges : List (Nat × Int)} {i : Nat}
    (h : noHoles totalLength ranges = true) (hne : ranges ≠ []) (hend : i < totalLength) :
    ∃ range ∈ ranges, range.1 ≤ i ∧ (i : Int) ≤ range.2 := by
  cases ranges with
  | nil => exact absurd rfl hne
  | cons range ranges =>
      rw [noHoles, decide_eq_true_eq] at h
      exact noHolesAfter_covers h.2 (by omega) hend

theorem isComplete_covers {fragments : List FragmentedHandshake} {msg : FragmentedHandshake}
    {i : Nat} (h : isComplete (findAllFragments fragments msg) = .ok true)
    (hend : i < msg.totalLength) :
    ∃ f ∈ findAllFragments fragments msg,
      f.fragmentOffset ≤ i ∧ i < f.fragmentOffset + f.fragment.length := by
  cases hfound : findAllFragments fragments msg with
  | nil =>
      rw [hfound] at h
      cases h
  | cons first rest =>
      rw [hfound, isComplete_found hfound] at h
      have hperm := List.perm_insertionSort (fun a b : Nat × Int => a.1 ≤ b.1)
        ((first :: rest).map range)
      have hne : ((first :: rest).map range).insertionSort (fun a b => a.1 ≤ b.1) ≠ [] := by
        intro hnil
        rw [hnil] at hperm
        cases hperm.nil_eq
      rcases noHoles_covers (Except.ok.inj h) hne hend with ⟨covering, hmem, hcovers⟩
      rcases List.mem_map.mp (hperm.mem_iff.mp hmem) with ⟨f, hf, rfl⟩
      refine ⟨f, hf, hcovers.1, ?_⟩
      have hright : (i : Int) ≤ f.fragmentOffset + f.fragment.length - 1 := hcovers.2
      omega

-- The message that the fragments of `msg` add up to.
theorem reassemble_found (memory : Memory) {fragments : List FragmentedHandshake}
    {msg : FragmentedHandshake} (hfound : findAllFragments fragments msg ≠ []) :
    reassemble memory (findAllFragments fragments msg) =
      .ok ⟨msg.msgType, msg.totalLength, msg.messageSeq, 0,
        combine ((findAllFragments fragments msg).insertionSort
          fun a b => a.fragmentOffset ≤ b.fragmentOffset)
          ((List.range msg.totalLength).map memory)⟩ := by
  cases hcases : findAllFragments fragments msg with
  | nil => exact absurd hcases hfound
  | cons first rest =>
      unfold reassemble
      simp only
      generalize hsorted : (first :: rest).insertionSort
        (fun a b => a.fragmentOffset ≤ b.fragmentOffset) = sorted
      have hperm : sorted.Perm (first :: rest) := by
        rw [← hsorted]
        exact List.perm_insertionSort _ _
      have hmem : sorted.headD first ∈ first :: rest := by
        cases sorted with
        | nil => exact List.mem_cons_self
        | cons f fs => exact hperm.mem_iff.mp List.mem_cons_self
      rw [← hcases] at hmem
      rcases sameMessage_iff.mp (List.mem_filter.mp hmem).2 with ⟨htype, hseq, hlength⟩
      rw [allocUnsafe_natCast, ok_bind, htype, hseq, hlength]
      rfl

/-- A complete message consists of bytes of its fragments. -/
theorem reassemble_same (memory memory' : Memory) {fragments : List FragmentedHandshake}
    {msg : FragmentedHandshake}
    (hcomplete : isComplete (findAllFragments fragments msg) = .ok true) :
    reassemble memory (findAllFragments fragments msg) =
      reassemble memory' (findAllFragments fragments msg) := by
  have hfound : findAllFragments fragments msg ≠ [] := by
    intro hnil
    rw [hnil] at hcomplete
    cases hcomplete
  rw [reassemble_found memory hfound, reassemble_found memory' hfound]
  congr 2
  apply List.ext_getElem?
  intro i
  apply combine_getElem?
  · rw [List.length_map, List.length_map]
  · by_cases hi : i < msg.totalLength
    · rcases isComplete_covers hcomplete hi with ⟨f, hf, hcovers⟩
      exact .inr ⟨f, (List.perm_insertionSort _ _).mem_iff.mpr hf, hcovers⟩
    · left
      rw [List.getElem?_eq_none, List.getElem?_eq_none]
      · rw [List.length_map, List.length_range]
        omega
      · rw [List.length_map, List.length_range]
        omega

/-! ## The message that a fragment completes -/

/-- The message that is complete after `msg` has arrived behind these fragments. -/
def completed (fragments : List FragmentedHandshake) (msg : FragmentedHandshake) :
    Option FragmentedHandshake :=
  if msg.isFragmented then
    match isComplete (findAllFragments (fragments ++ [msg]) msg) with
    | .ok true => (reassemble (zeros 0) (findAllFragments (fragments ++ [msg]) msg)).toOption
    | _ => none
  else some msg

/-- The fragments that are remembered then. -/
def remaining (fragments : List FragmentedHandshake) (msg : FragmentedHandshake) :
    List FragmentedHandshake :=
  if msg.isFragmented then
    if (completed fragments msg).isSome then
      (fragments ++ [msg]).filter fun f => !f.sameMessage msg
    else fragments ++ [msg]
  else fragments

theorem completed_of_complete {fragments : List FragmentedHandshake} {msg : FragmentedHandshake}
    (hmsg : msg.isFragmented = true)
    (hcomplete : isComplete (findAllFragments (fragments ++ [msg]) msg) = .ok true)
    (memory : Memory) :
    ∃ whole, completed fragments msg = some whole ∧
      reassemble memory (findAllFragments (fragments ++ [msg]) msg) = .ok whole ∧
      whole.messageSeq = msg.messageSeq ∧ whole.isFragmented = false := by
  have hfound : findAllFragments (fragments ++ [msg]) msg ≠ [] := by
    intro hnil
    rw [hnil] at hcomplete
    cases hcomplete
  have hok := reassemble_found memory hfound
  refine ⟨_, ?_, hok, rfl, ?_⟩
  · unfold completed
    rw [if_pos hmsg, hcomplete]
    show (reassemble (zeros 0) _).toOption = _
    rw [reassemble_same (zeros 0) memory hcomplete, hok]
    rfl
  · unfold isFragmented
    rw [decide_eq_false_iff_not]
    simp only [combine_length, List.length_map, List.length_range]
    omega

theorem completed_of_incomplete {fragments : List FragmentedHandshake} {msg : FragmentedHandshake}
    (hmsg : msg.isFragmented = true)
    (hcomplete : isComplete (findAllFragments (fragments ++ [msg]) msg) = .ok false) :
    completed fragments msg = none := by
  unfold completed
  rw [if_pos hmsg, hcomplete]

-- What is complete is one piece, with the number of the message.
theorem completed_whole {fragments : List FragmentedHandshake}
    {msg whole : FragmentedHandshake} (h : completed fragments msg = some whole) :
    whole.messageSeq = msg.messageSeq ∧ whole.isFragmented = false := by
  by_cases hmsg : msg.isFragmented = true
  · rcases isComplete_findAllFragments (fragments ++ [msg]) msg with ⟨complete, hcomplete⟩
    cases complete with
    | false =>
        rw [completed_of_incomplete hmsg hcomplete] at h
        cases h
    | true =>
        rcases completed_of_complete hmsg hcomplete (zeros 0) with ⟨whole', hwhole, _, hpiece⟩
        rw [hwhole] at h
        cases h
        exact hpiece
  · unfold completed at h
    rw [if_neg hmsg] at h
    cases h
    rw [Bool.not_eq_true] at hmsg
    exact ⟨rfl, hmsg⟩

end FragmentedHandshake

theorem Handshake.fromFragment_messageSeq {memory : Nat → Memory} {assembled : FragmentedHandshake}
    {message : Handshake} (hok : Handshake.fromFragment memory assembled = .ok message) :
    message.messageSeq = assembled.messageSeq := by
  unfold Handshake.fromFragment at hok
  split at hok
  · cases hok
  · split at hok
    · cases hok
    · rename_i msgClass _
      cases hres : TLSStruct.deserialize memory assembled.fragment msgClass.spec 0 with
      | error e =>
          rw [hres] at hok
          cases hok
      | ok result =>
          rw [hres] at hok
          rw [← Except.ok.inj hok]

/-! ## Storing a message -/

namespace ClientHandshakeHandler

open FragmentedHandshake

def withIncomplete (fragments : List FragmentedHandshake) (h : ClientHandshakeHandler) :
    ClientHandshakeHandler := { h with incompleteMessages := fragments }

/-- What `tryAssembleFragments` makes of the fragments it finds. -/
def assemble (memory : MessageMemory) (fragments : List FragmentedHandshake) :
    Except JsError (Option Handshake) := do
  if ← isComplete fragments then
    let reassembled ← reassemble memory.reassembled fragments
    return some (← Handshake.fromFragment memory.body reassembled)
  else return none

theorem assemble_incomplete (memory : MessageMemory) {fragments : List FragmentedHandshake}
    (h : isComplete fragments = .ok false) :
    assemble memory fragments = .ok none := by
  unfold assemble
  rw [h]
  rfl

-- Storing a fragment, as a function of the fragments that are there already.
theorem storeMessage_fragment (memory : MessageMemory) {msg : FragmentedHandshake}
    (hmsg : msg.isFragmented = true) (fragments : List FragmentedHandshake)
    (h : ClientHandshakeHandler) :
    storeMessage memory msg (h.withIncomplete fragments) =
      match assemble memory (findAllFragments (fragments ++ [msg]) msg) with
      | .error e => .error e (h.withIncomplete (fragments ++ [msg]))
      | .ok none => .ok false (h.withIncomplete (fragments ++ [msg]))
      | .ok (some message) =>
          .ok true ({ h with
            completeMessages := h.completeMessages.set message.messageSeq message }.withIncomplete
              ((fragments ++ [msg]).filter fun f => !f.sameMessage msg)) := by
  unfold storeMessage
  rw [if_pos hmsg]
  show tryAssembleFragments memory msg (h.withIncomplete (fragments ++ [msg])) = _
  show (match assemble memory (findAllFragments (fragments ++ [msg]) msg) with
    | .error e => throw e
    | .ok none => pure false
    | .ok (some message) => do
        modify fun h =>
          { h with
            completeMessages := h.completeMessages.set message.messageSeq message
            incompleteMessages := h.incompleteMessages.filter fun f => !f.sameMessage msg }
        return true : HandlerM Bool) (h.withIncomplete (fragments ++ [msg])) = _
  cases assemble memory (findAllFragments (fragments ++ [msg]) msg) with
  | error e => rfl
  | ok assembled => cases assembled <;> rfl

/-- What is done with a message, in terms of the message that becomes complete. -/
theorem storeMessage_eq (memory : MessageMemory) (msg : FragmentedHandshake)
    (h : ClientHandshakeHandler) :
    storeMessage memory msg h =
      match completed h.incompleteMessages msg with
      | none => .ok false (h.withIncomplete (remaining h.incompleteMessages msg))
      | some whole =>
          match Handshake.fromFragment memory.body whole with
          | .error e => .error e (h.withIncomplete
              (if msg.isFragmented then h.incompleteMessages ++ [msg] else h.incompleteMessages))
          | .ok message => .ok true ({ h with
              completeMessages := h.completeMessages.set msg.messageSeq message }.withIncomplete
                (remaining h.incompleteMessages msg)) := by
  by_cases hmsg : msg.isFragmented = true
  · have hself : h.withIncomplete h.incompleteMessages = h := rfl
    have hfragment := storeMessage_fragment memory hmsg h.incompleteMessages h
    rw [hself] at hfragment
    rw [hfragment]
    unfold assemble remaining
    rcases isComplete_findAllFragments (h.incompleteMessages ++ [msg]) msg with ⟨complete, hcomplete⟩
    rw [hcomplete]
    cases complete with
    | false =>
        rw [completed_of_incomplete hmsg hcomplete]
        simp only [hmsg]
        rfl
    | true =>
        rcases completed_of_complete hmsg hcomplete memory.reassembled with
          ⟨whole, hwhole, hok, hseq, _⟩
        rw [hwhole, hok]
        simp only [ok_bind, if_true, hmsg]
        cases hparsed : Handshake.fromFragment memory.body whole with
        | error e => rfl
        | ok message =>
            rw [← hseq, ← Handshake.fromFragment_messageSeq hparsed]
            rfl
  · rw [Bool.not_eq_true] at hmsg
    unfold storeMessage completed remaining
    simp only [hmsg, Bool.false_eq_true, if_false]
    cases Handshake.fromFragment memory.body msg with
    | error e => rfl
    | ok message => rfl

end ClientHandshakeHandler

end DtlsClient
