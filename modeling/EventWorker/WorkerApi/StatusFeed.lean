import EventWorker.Document.Format
import EventWorker.Error
import EventWorker.Text.Blank
import EventWorker.Text.Lines
import EventWorker.Text.Utf8

/-!
# Status feeds

A body in which every line is a message about the phase of a unit. It comes in chunks that may be cut
anywhere, so a line is read once it has ended, and the last one when the body has. Blank lines say
nothing, and a line that is no message is a fault that does not end the feed. A fault of the
connection does: what has come of the line that it interrupts is thrown away, and no further chunk is
asked for.

A `Reader` gives one item each time it is asked (`Reader.next`) and keeps between two askings what it has
not read yet. `StatusFeed.items` asks it until it has nothing more to give.
-/

namespace EventWorker.StatusFeed

/-- A message about a phase. -/
def message : Shape Phase where
  fields := ["phase"]
  initial := default
  set := fun terms _ d _ => Phase.decode terms d
  required := ["phase"]

/-- What a text says about the phase. -/
def readMessage (s : String) : Except ClusterError Phase :=
  match message.decode.ofJson s with
  | .ok p => .ok p
  | .error e => .error (.stream ("invalid status message: " ++ e.message))

/-- What a line says, if it says anything. -/
def readLine? (line : List UInt8) : Option (Except ClusterError Phase) :=
  let s := Text.trim (Text.decodeLossy line)
  if s.isEmpty then none else some (readMessage s)

theorem readLine?_nil : readLine? [] = none := by
  simp [readLine?, Text.decodeLossy, Text.pieces, Text.trim, Text.trimChars]

/-- A part of a body, or the fault that the connection ends with. -/
abbrev Chunk := Except String (List UInt8)

/-- How many things there are to do at most about a chunk: to take it, and to read each byte. -/
def Chunk.work : Chunk → Nat
  | .ok bytes => bytes.length + 1
  | .error _ => 1

/-- A body that is being read. -/
structure Reader where
  /-- The chunks that have not been asked for yet. -/
  chunks : List Chunk
  /-- What has come and is still to be read. -/
  buffer : List UInt8 := []
  /-- Nothing more is to come. -/
  ended : Bool := false

/-- What comes of doing one thing about a body. -/
inductive Turn where
  /-- It gives an item. -/
  | item (i : Except ClusterError Phase) (rest : Reader)
  | silent (rest : Reader)
  /-- There is nothing left to do. -/
  | over

namespace Reader

/-- Reads a line if one has ended, or else what is left if nothing more is to come, or else asks for
the next chunk. -/
def turn (r : Reader) : Turn :=
  match Text.firstLine? r.buffer with
  | some (line, rest) =>
    match readLine? line with
    | some i => .item i { r with buffer := rest }
    | none => .silent { r with buffer := rest }
  | none =>
    if r.ended then
      match readLine? r.buffer with
      | some i => .item i { r with buffer := [] }
      | none => .over
    else
      match r.chunks with
      | [] => .silent { r with ended := true }
      | .ok chunk :: chunks => .silent { r with chunks, buffer := r.buffer ++ chunk }
      | .error reason :: chunks => .item (.error (.stream reason)) { chunks, ended := true }

/-! ## Coming to an end -/

/-- How many things there are left to do at most. -/
def work (r : Reader) : Nat :=
  r.buffer.length + r.chunks.foldr (fun c n => c.work + n) 0 + if r.ended then 0 else 1

/-- What is left after one thing has been done, if there was one to do. -/
def after? (r : Reader) : Option Reader :=
  match r.turn with
  | .item _ rest => some rest
  | .silent rest => some rest
  | .over => none

/-- With everything that is done less is left to do. -/
theorem work_lt_of_after? {r rest : Reader} (h : r.after? = some rest) : rest.work < r.work := by
  obtain ⟨chunks, buffer, ended⟩ := r
  simp only [after?, turn] at h
  cases hline : Text.firstLine? buffer with
  | some found =>
    obtain ⟨line, left⟩ := found
    have hlen : left.length < buffer.length := Text.length_lt_of_firstLine? hline
    have hrest : rest = ⟨chunks, left, ended⟩ := by
      cases hread : readLine? line <;> simp_all
    subst hrest
    simp only [work]
    omega
  | none =>
    cases ended with
    | true =>
      cases hread : readLine? buffer with
      | none => simp [hline, hread] at h
      | some i =>
        have hne : buffer ≠ [] := fun hnil => by simp [hnil, readLine?_nil] at hread
        have hpos : 0 < buffer.length := List.length_pos_iff.2 hne
        obtain rfl : ⟨chunks, [], true⟩ = rest := by simpa [hline, hread] using h
        simp only [work, List.length_nil]
        omega
    | false =>
      cases chunks with
      | nil =>
        obtain rfl : ⟨[], buffer, true⟩ = rest := by simpa [hline] using h
        simp [work]
      | cons c cs =>
        cases c with
        | ok bytes =>
          obtain rfl : ⟨cs, buffer ++ bytes, false⟩ = rest := by simpa [hline] using h
          simp only [work, List.length_append, List.foldr_cons, Chunk.work]
          omega
        | error reason =>
          obtain rfl : ⟨cs, [], true⟩ = rest := by simpa [hline] using h
          simp only [work, List.length_nil, List.foldr_cons, Chunk.work, if_true]
          omega

/-! ## Reading on -/

/-- The next item, if there is one, and what is left to be read. -/
def next (r : Reader) : Option (Except ClusterError Phase) × Reader :=
  match _h : r.turn with
  | .item i rest => (some i, rest)
  | .silent rest => next rest
  | .over => (none, r)
termination_by r.work
decreasing_by exact work_lt_of_after? (by rw [after?, _h])

theorem work_lt_of_next {r rest : Reader} {i : Except ClusterError Phase}
    (h : r.next = (some i, rest)) : rest.work < r.work := by
  induction r using next.induct with
  | case1 r i' rest' hturn =>
    rw [next, hturn] at h
    obtain ⟨-, rfl⟩ := Prod.mk.inj h
    exact work_lt_of_after? (by rw [after?, hturn])
  | case2 r rest' hturn ih =>
    rw [next, hturn] at h
    exact Nat.lt_trans (ih h) (work_lt_of_after? (by rw [after?, hturn]))
  | case3 r hturn =>
    rw [next, hturn] at h
    cases h

/-- All items, one after another, and what is left when there is none any more. -/
def readAll (r : Reader) : List (Except ClusterError Phase) × Reader :=
  match _h : r.next with
  | (some i, rest) =>
    let (items, last) := readAll rest
    (i :: items, last)
  | (none, rest) => ([], rest)
termination_by r.work
decreasing_by exact work_lt_of_next _h

end Reader

/-- What chunks say. -/
def items (chunks : List Chunk) : List (Except ClusterError Phase) :=
  ({ chunks : Reader }).readAll.1

end EventWorker.StatusFeed
