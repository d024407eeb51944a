/-!
# UTF-8

Bytes and text. `bytesOf` writes a text in UTF-8. `pieces` reads bytes as a list of characters and
faults, where a fault stands for the longest run of bytes that begins a character and cannot be
completed, or for a single byte that begins none. Reading is strict (`decode?`) where a fault makes
the whole unreadable, and lossy (`decodeLossy`) where a fault is shown as U+FFFD.
-/

namespace EventWorker.Text

def bytesOf (s : String) : List UInt8 :=
  s.toList.flatMap String.utf8EncodeChar

/-- How a character's first byte says it goes on: the range of the next byte, the number of bytes
still to come, and the bits known so far. -/
structure Lead where
  low : UInt8
  high : UInt8
  more : Nat
  bits : Nat

def lead? (b : UInt8) : Option Lead :=
  let n := b.toNat
  if 0xC2 ≤ n ∧ n ≤ 0xDF then some ⟨0x80, 0xBF, 1, n - 0xC0⟩
  else if n = 0xE0 then some ⟨0xA0, 0xBF, 2, 0⟩
  else if n = 0xED then some ⟨0x80, 0x9F, 2, 0xD⟩
  else if 0xE1 ≤ n ∧ n ≤ 0xEF then some ⟨0x80, 0xBF, 2, n - 0xE0⟩
  else if n = 0xF0 then some ⟨0x90, 0xBF, 3, 0⟩
  else if 0xF1 ≤ n ∧ n ≤ 0xF3 then some ⟨0x80, 0xBF, 3, n - 0xF0⟩
  else if n = 0xF4 then some ⟨0x80, 0x8F, 3, 4⟩
  else none

/-- Reads `more` continuation bytes; a byte out of range is left unread. -/
def continuation : (more : Nat) → (low high : UInt8) → (bits : Nat) → List UInt8 →
    Option Nat × List UInt8
  | 0, _, _, bits, bs => (some bits, bs)
  | _ + 1, _, _, _, [] => (none, [])
  | more + 1, low, high, bits, b :: bs =>
    if low ≤ b ∧ b ≤ high then continuation more 0x80 0xBF (bits * 64 + (b.toNat - 0x80)) bs
    else (none, b :: bs)

theorem continuation_rest_length (more : Nat) (low high : UInt8) (bits : Nat) (bs : List UInt8) :
    (continuation more low high bits bs).2.length ≤ bs.length := by
  induction more generalizing low high bits bs with
  | zero => simp [continuation]
  | succ more ih =>
    cases bs with
    | nil => simp [continuation]
    | cons b bs =>
      simp only [continuation]
      split
      · exact Nat.le_trans (ih ..) (by simp)
      · simp

/-- The characters of the bytes in order, with `none` for a fault. -/
def pieces : List UInt8 → List (Option Char)
  | [] => []
  | b :: bs =>
    if b < 0x80 then some (Char.ofNat b.toNat) :: pieces bs
    else
      match lead? b with
      | none => none :: pieces bs
      | some l =>
        let read := continuation l.more l.low l.high l.bits bs
        read.1.map Char.ofNat :: pieces read.2
termination_by bs => bs.length
decreasing_by
  · exact Nat.lt_succ_self _
  · exact Nat.lt_succ_self _
  · exact Nat.lt_succ_of_le (continuation_rest_length ..)

/-- What is wrong at some place of bytes that are not UTF-8. -/
inductive Utf8Fault where
  /-- So many bytes from the index on cannot belong to any character. -/
  | invalid (index count : Nat)
  /-- The bytes end within a character that begins at the index. -/
  | incomplete (index : Nat)
  deriving DecidableEq

def Utf8Fault.message : Utf8Fault → String
  | invalid index count =>
    "invalid utf-8 sequence of " ++ toString count ++ " bytes from index " ++ toString index
  | incomplete index => "incomplete utf-8 byte sequence from index " ++ toString index

/-- The first fault in the bytes, the first of which has the given index. -/
def faultFrom? (index : Nat) : List UInt8 → Option Utf8Fault
  | [] => none
  | b :: bs =>
    if b < 0x80 then faultFrom? (index + 1) bs
    else
      match lead? b with
      | none => some (.invalid index 1)
      | some l =>
        let read := continuation l.more l.low l.high l.bits bs
        let count := 1 + (bs.length - read.2.length)
        if read.1.isSome then faultFrom? (index + count) read.2
        else if read.2.isEmpty then some (.incomplete index)
        else some (.invalid index count)
termination_by bs => bs.length
decreasing_by
  · exact Nat.lt_succ_self _
  · exact Nat.lt_succ_of_le (continuation_rest_length ..)

/-- The text of the bytes, if they are UTF-8 throughout. -/
def decode? (bs : List UInt8) : Option String :=
  ((pieces bs).mapM id).map String.ofList

/-- The text of the bytes with U+FFFD for each fault. -/
def decodeLossy (bs : List UInt8) : String :=
  String.ofList ((pieces bs).map (·.getD (Char.ofNat 0xFFFD)))

end EventWorker.Text
