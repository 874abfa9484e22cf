import DtlsClient.Library.Bytes
import DtlsClient.Library.IndexMap

/-!
# `TLS/AntiReplayWindow`

The sliding window of received sequence numbers.  A word of the bitmap is the 32-bit pattern that
the JavaScript operators work on; whether such a number prints as signed or unsigned plays no role
in any of them.
-/

open Library

namespace DtlsClient

/-- A 32-bit word, as the bitwise operators of JavaScript see a number. -/
abbrev Int32 := BitVec 32

/-- `value << count` and `value >>> count` use the count modulo 32. -/
def Int32.shl (value : Int32) (count : Nat) : Int32 := value <<< (count % 32)
def Int32.shr (value : Int32) (count : Nat) : Int32 := value >>> (count % 32)

/-- Bits of the window, a multiple of `INT_SIZE`. -/
def width : Nat := 64
def INT_SIZE : Nat := 32

structure AntiReplayWindow where
  window : List Int32
  /-- what JavaScript keeps beside the words for a negative index: `window[-1 - i]` under `i` -/
  below : IndexMap Int32
  /-- upper end of the window bitmap / highest received sequence number -/
  ceiling : Nat
deriving DecidableEq, Repr

namespace AntiReplayWindow

def reset : AntiReplayWindow := ⟨List.replicate (width / INT_SIZE) 0, .empty, width - 1⟩

def lowerBound (w : AntiReplayWindow) : Int := w.ceiling - width + 1

/-- `this.window[index]`.  The bitwise operators take what is `undefined` for `0`. -/
def word (w : AntiReplayWindow) : Int → Int32
  | .ofNat index => w.window.getD index 0
  | .negSucc index => (w.below.get? index).getD 0

/-- `this.window[index] |= flag`, where the index is not above the last word. -/
def orWord (w : AntiReplayWindow) (flag : Int32) : Int → AntiReplayWindow
  | .ofNat index => { w with window := w.window.modify index (· ||| flag) }
  | .negSucc index => { w with below := w.below.set index (w.word (.negSucc index) ||| flag) }

/-- Where a sequence number's bit is located: the word, with a negative index below the window, and
the bit in it.  JavaScript's `%` keeps the sign there, but shifts by its value modulo 32. -/
def bitPosition (w : AntiReplayWindow) (seqNum : Nat) : Int × Nat :=
  let bitIndex : Int := seqNum - w.lowerBound
  (bitIndex / INT_SIZE, (bitIndex % INT_SIZE).toNat)

def hasReceived (w : AntiReplayWindow) (seqNum : Nat) : Bool :=
  let (windowIndex, windowBit) := w.bitPosition seqNum
  let flag := Int32.shl 1 windowBit
  w.word windowIndex &&& flag == flag

def mayReceive (w : AntiReplayWindow) (seqNum : Nat) : Bool :=
  if seqNum > w.ceiling + width then
    -- we skipped a lot of packets
    false
  else if seqNum > w.ceiling then true
  else if (seqNum : Int) ≥ w.lowerBound ∧ seqNum ≤ w.ceiling then !w.hasReceived seqNum
  else false

/-- One round of the loop over whole blocks: every word moves down by one, the last becomes `0`. -/
def shiftBlock (window : List Int32) : List Int32 := window.drop 1 ++ [0]

/-- The loop over whole blocks, which leaves between 1 and `INT_SIZE` bits to shift; `amount` goes
down with every round, so that it also bounds their number. -/
def shiftBlocks : Nat → Nat → List Int32 → List Int32 × Nat
  | 0, amount, window => (window, amount)
  | fuel + 1, amount, window =>
      if amount > INT_SIZE then shiftBlocks fuel (amount - INT_SIZE) (shiftBlock window)
      else (window, amount)

/-- The loop that shifts bitwise: every word moves right, and what it loses is or-ed into the word
before it. -/
def shiftBits (amount : Nat) : List Int32 → List Int32
  | [] => []
  | [word] => [word.shr amount]
  | word :: next :: rest =>
      (word.shr amount ||| next.shl (INT_SIZE - amount)) :: shiftBits amount (next :: rest)

def markAsReceived (w : AntiReplayWindow) (seqNum : Nat) : AntiReplayWindow :=
  let w :=
    if seqNum > w.ceiling then
      let (window, amount) := shiftBlocks (seqNum - w.ceiling) (seqNum - w.ceiling) w.window
      { w with window := shiftBits amount window, ceiling := seqNum }
    else w
  let (windowIndex, windowBit) := w.bitPosition seqNum
  w.orWord (Int32.shl 1 windowBit) windowIndex

end AntiReplayWindow

end DtlsClient
