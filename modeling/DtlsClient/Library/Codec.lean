import DtlsClient.Library.Bytes
import DtlsClient.Library.Exceptions

/-!
# Codes that delimit themselves

A reader takes a value off a place of its input and says how many bytes that took.  `ReadsBack` relates
it to a writer: wherever the bytes of a value stand, and whatever follows them, the reader returns the
value and stops behind them.
-/

namespace Library

variable {ε α β : Type}

def ReadsBack (read : Bytes → Nat → Except ε (α × Nat)) (b : Bytes) (value : α) : Prop :=
  ∀ front back : Bytes, read (front ++ (b ++ back)) front.length = .ok (value, b.length)

namespace ReadsBack

variable {read : Bytes → Nat → Except ε (α × Nat)} {next : Bytes → Nat → Except ε (β × Nat)}
  {b b' : Bytes} {value : α} {value' : β}

-- One value and then another one.
theorem pair (h : ReadsBack read b value) (h' : ReadsBack next b' value') :
    ReadsBack
      (fun buf offset => do
        let (first, n) ← read buf offset
        let (second, n') ← next buf (offset + n)
        return ((first, second), n + n'))
      (b ++ b') (value, value') := by
  intro front back
  have hsecond := h' (front ++ b) back
  rw [List.append_assoc, List.length_append] at hsecond
  simp only
  rw [List.append_assoc, h, ok_bind]
  simp only
  rw [hsecond, List.length_append]
  rfl

end ReadsBack

end Library
