import EventWorker.Proofs.Text.Blank
import EventWorker.Proofs.Text.Utf8
import EventWorker.WorkerApi.StatusFeed

/-!
# Reading status feeds

What a reader gives does not depend on where the chunks of a body are cut: it is what stands on the lines
of the body, told without a reader (`statuses`, `lines`). Of a body that is broken off, it is what stands
on the lines that had ended by then, and the fault.

The invariant is `Reader.expected`: what a reader is still to give, made of the unread bytes in its buffer
and the bytes that are still to come. Everything that the reader does keeps it up (`expected_of_turn`),
however its lines are cut by the chunks, so it gives what is expected of it (`readAll_eq`).

Main statement: `items_of_chunks`.
-/

namespace EventWorker

namespace StatusFeed

/-! ### What stands on a line -/

def isBlankLine (line : List UInt8) : Bool :=
  Text.isBlankText (Text.decodeLossy line)

/-- What a line says that is not blank. -/
def readStatus (line : List UInt8) : Except ClusterError Phase :=
  readMessage (Text.trim (Text.decodeLossy line))

/-- What lines say. Blank ones are skipped. -/
def statuses (lines : List (List UInt8)) : List (Except ClusterError Phase) :=
  (lines.filter fun line => !isBlankLine line).map readStatus

/-- The pieces of a body between its line feeds. The last one has not ended. -/
def lines (body : List UInt8) : List (List UInt8) :=
  body.splitOn 10

theorem readLine?_eq (line : List UInt8) :
    readLine? line = if isBlankLine line then none else some (readStatus line) := by
  rw [readLine?, Text.isEmpty_trim]
  rfl

/-- It makes no difference whether a line is read with its line feed. -/
theorem readLine?_lineFeed (line : List UInt8) : readLine? (line ++ [10]) = readLine? line := by
  have hdecode : Text.decodeLossy (line ++ [10]) = "" ++ Text.decodeLossy line ++ "\n" :=
    Text.decodeLossy_between "" "\n" line
  rw [readLine?, hdecode, Text.trim_between (by decide) (by decide), readLine?]

theorem statuses_cons (line : List UInt8) (rest : List (List UInt8)) :
    statuses (line :: rest) = (readLine? line).toList ++ statuses rest := by
  rw [readLine?_eq, statuses, List.filter_cons]
  cases isBlankLine line <;> rfl

theorem lines_append {l : List UInt8} (hl : 10 ∉ l) (rest : List UInt8) :
    lines (l ++ 10 :: rest) = l :: lines rest :=
  List.splitOn_append_cons_self_of_not_mem hl rest

theorem lines_of_notMem {l : List UInt8} (hl : 10 ∉ l) : lines l = [l] :=
  List.splitOn_eq_singleton hl

/-! ### What a reader is still to give -/

/-- The bytes that chunks bring up to the first fault, and the fault with the chunks after it. -/
def incoming : List Chunk → List UInt8 × Option (String × List Chunk)
  | [] => ([], none)
  | .ok bytes :: chunks => (bytes ++ (incoming chunks).1, (incoming chunks).2)
  | .error reason :: chunks => ([], some (reason, chunks))

theorem incoming_ok (chunks : List (List UInt8)) : incoming (chunks.map .ok) = (chunks.flatten, none) := by
  induction chunks with
  | nil => rfl
  | cons c cs ih => rw [List.map_cons, incoming, ih, List.flatten_cons]

theorem incoming_error (chunks : List (List UInt8)) (reason : String) (later : List Chunk) :
    incoming (chunks.map .ok ++ .error reason :: later) = (chunks.flatten, some (reason, later)) := by
  induction chunks with
  | nil => rfl
  | cons c cs ih => rw [List.map_cons, List.cons_append, incoming, ih, List.flatten_cons]

namespace Reader

/-- The items that a reader is still to give, and the chunks that it will never ask for. -/
def expected (r : Reader) : List (Except ClusterError Phase) × List Chunk :=
  if r.ended then (statuses (lines r.buffer), r.chunks)
  else match incoming r.chunks with
    | (bytes, none) => (statuses (lines (r.buffer ++ bytes)), [])
    | (bytes, some (reason, later)) =>
      (statuses (lines (r.buffer ++ bytes)).dropLast ++ [.error (.stream reason)], later)

/-- A line in the buffer comes first. -/
theorem expected_line {l : List UInt8} (hl : 10 ∉ l) (chunks : List Chunk) (rest : List UInt8)
    (ended : Bool) :
    (⟨chunks, l ++ 10 :: rest, ended⟩ : Reader).expected =
      ((readLine? l).toList ++ (⟨chunks, rest, ended⟩ : Reader).expected.1,
        (⟨chunks, rest, ended⟩ : Reader).expected.2) := by
  cases ended with
  | true => simp only [expected, if_true, lines_append hl, statuses_cons]
  | false =>
    simp only [expected, Bool.false_eq_true, if_false]
    obtain ⟨bytes, fault⟩ := incoming chunks
    have hlines : lines (l ++ 10 :: rest ++ bytes) = l :: lines (rest ++ bytes) := by
      rw [List.append_assoc, List.cons_append, lines_append hl]
    cases fault with
    | none => simp only [hlines, statuses_cons]
    | some fault =>
      obtain ⟨reason, later⟩ := fault
      have hne : lines (rest ++ bytes) ≠ [] := List.splitOn_ne_nil 10 _
      have hstatuses : statuses (lines (l ++ 10 :: rest ++ bytes)).dropLast =
          (readLine? l).toList ++ statuses (lines (rest ++ bytes)).dropLast := by
        rw [hlines, List.dropLast_cons_of_ne_nil hne, statuses_cons]
      simp only [hstatuses]
      rw [List.append_assoc]

/-- A chunk comes after what is in the buffer. -/
theorem expected_chunk (chunks : List Chunk) (buffer bytes : List UInt8) :
    (⟨.ok bytes :: chunks, buffer, false⟩ : Reader).expected =
      (⟨chunks, buffer ++ bytes, false⟩ : Reader).expected := by
  simp only [expected, Bool.false_eq_true, if_false, incoming, List.append_assoc]
  obtain ⟨more, fault⟩ := incoming chunks
  cases fault <;> rfl

/-- Where no line has ended, what is in the buffer is the last line. -/
theorem expected_ended {buffer : List UInt8} (h : 10 ∉ buffer) (chunks : List Chunk) :
    (⟨chunks, buffer, true⟩ : Reader).expected = ((readLine? buffer).toList, chunks) := by
  have hnil : statuses [] = [] := rfl
  simp only [expected, if_true, lines_of_notMem h, statuses_cons, hnil, List.append_nil]

/-- A fault throws away the line that it interrupts. -/
theorem expected_fault {buffer : List UInt8} (h : 10 ∉ buffer) (reason : String) (chunks : List Chunk) :
    (⟨.error reason :: chunks, buffer, false⟩ : Reader).expected =
      ([.error (.stream reason)], chunks) := by
  have hnil : statuses [] = [] := rfl
  simp only [expected, Bool.false_eq_true, if_false, incoming, List.append_nil, lines_of_notMem h,
    List.dropLast_singleton, hnil, List.nil_append]

/-- **Whatever a reader does, it is still to give what it was**, less what it has just given. -/
theorem expected_of_turn (r : Reader) :
    match r.turn with
    | .item i rest => r.expected = (i :: rest.expected.1, rest.expected.2)
    | .silent rest => r.expected = rest.expected
    | .over => r.expected = ([], r.chunks) := by
  obtain ⟨chunks, buffer, ended⟩ := r
  have hempty : ∀ cs, (⟨cs, [], true⟩ : Reader).expected = ([], cs) := fun cs => by
    rw [expected_ended List.not_mem_nil, readLine?_nil]
    rfl
  cases hline : Text.firstLine? buffer with
  | some found =>
    obtain ⟨line, rest⟩ := found
    obtain ⟨l, hl, rfl, rfl⟩ := Text.eq_append_of_firstLine? hline
    have hexpected := expected_line hl chunks rest ended
    cases hread : readLine? l with
    | none =>
      have hturn : (⟨chunks, l ++ 10 :: rest, ended⟩ : Reader).turn = .silent ⟨chunks, rest, ended⟩ := by
        simp only [turn, hline, readLine?_lineFeed, hread]
      rw [hturn, hexpected, hread]
      rfl
    | some i =>
      have hturn : (⟨chunks, l ++ 10 :: rest, ended⟩ : Reader).turn = .item i ⟨chunks, rest, ended⟩ := by
        simp only [turn, hline, readLine?_lineFeed, hread]
      rw [hturn, hexpected, hread]
      rfl
  | none =>
    have hopen : 10 ∉ buffer := Text.firstLine?_eq_none_iff.1 hline
    cases ended with
    | true =>
      have hexpected := expected_ended hopen chunks
      cases hread : readLine? buffer with
      | none =>
        have hturn : (⟨chunks, buffer, true⟩ : Reader).turn = .over := by
          simp only [turn, hline, hread, if_true]
        rw [hturn, hexpected, hread]
        rfl
      | some i =>
        have hturn : (⟨chunks, buffer, true⟩ : Reader).turn = .item i ⟨chunks, [], true⟩ := by
          simp only [turn, hline, hread, if_true]
        rw [hturn, hexpected, hread]
        simp only [hempty, Option.toList_some]
    | false =>
      cases chunks with
      | nil =>
        have hturn : (⟨[], buffer, false⟩ : Reader).turn = .silent ⟨[], buffer, true⟩ := by
          simp only [turn, hline, Bool.false_eq_true, if_false]
        rw [hturn]
        simp only [expected, Bool.false_eq_true, if_false, if_true, incoming, List.append_nil]
      | cons c cs =>
        cases c with
        | ok bytes =>
          have hturn : (⟨.ok bytes :: cs, buffer, false⟩ : Reader).turn =
              .silent ⟨cs, buffer ++ bytes, false⟩ := by
            simp only [turn, hline, Bool.false_eq_true, if_false]
          rw [hturn]
          exact expected_chunk cs buffer bytes
        | error reason =>
          have hturn : (⟨.error reason :: cs, buffer, false⟩ : Reader).turn =
              .item (.error (.stream reason)) ⟨cs, [], true⟩ := by
            simp only [turn, hline, Bool.false_eq_true, if_false]
          rw [hturn, expected_fault hopen]
          simp only [hempty]

/-- What a reader gives when it is asked is what was to come next. -/
theorem expected_of_next (r : Reader) :
    match r.next with
    | (some i, rest) => r.expected = (i :: rest.expected.1, rest.expected.2)
    | (none, rest) => r.expected = ([], rest.chunks) := by
  induction r using next.induct with
  | case1 r i rest hturn =>
    have h := expected_of_turn r
    rw [hturn] at h
    rw [next, hturn]
    exact h
  | case2 r rest hturn ih =>
    have h := expected_of_turn r
    rw [hturn] at h
    rw [next, hturn, h]
    exact ih
  | case3 r hturn =>
    have h := expected_of_turn r
    rw [hturn] at h
    rw [next, hturn]
    exact h

/-- **A reader gives all that is expected of it**, and leaves the chunks that it should. -/
theorem readAll_eq (r : Reader) : (r.readAll.1, r.readAll.2.chunks) = r.expected := by
  induction r using readAll.induct with
  | case1 r i rest hnext items last hrest ih =>
    have h := expected_of_next r
    rw [hnext] at h
    rw [readAll, hnext, h, ← ih]
  | case2 r rest hnext =>
    have h := expected_of_next r
    rw [hnext] at h
    rw [readAll, hnext, h]

/-- No reader goes on for ever. -/
theorem exists_after?_ne (f : Nat → Reader) : ∃ n, (f n).after? ≠ some (f (n + 1)) := by
  by_contra h
  have hstep : ∀ n, (f n).after? = some (f (n + 1)) := by simpa using h
  -- the work left would go down for ever
  have hdown : ∀ n, (f n).work + n ≤ (f 0).work := by
    intro n
    induction n with
    | zero => exact Nat.le_refl _
    | succ n ih =>
      have hlt : (f (n + 1)).work < (f n).work := work_lt_of_after? (hstep n)
      omega
  have hlast := hdown ((f 0).work + 1)
  omega

end Reader

/-- **What a feed says does not depend on its chunks.** A body that comes whole says what stands on its
lines, the last one included, and all its chunks are asked for. One that is broken off says what stands on
the lines that had ended, and then the fault, and none of the later chunks is asked for. In either case
reading comes to an end. -/
theorem items_of_chunks (chunks : List (List UInt8)) :
    items (chunks.map .ok) = statuses (lines chunks.flatten) ∧
    (∀ reason later,
      items (chunks.map .ok ++ .error reason :: later) =
        statuses (lines chunks.flatten).dropLast ++ [.error (.stream reason)] ∧
      ({ chunks := chunks.map .ok ++ .error reason :: later : Reader }).readAll.2.chunks = later) ∧
    ∀ f : Nat → Reader, ∃ n, (f n).after? ≠ some (f (n + 1)) := by
  refine ⟨?_, fun reason later => ?_, Reader.exists_after?_ne⟩
  · have h := Reader.readAll_eq { chunks := chunks.map .ok }
    simp only [Reader.expected, Bool.false_eq_true, if_false, incoming_ok, List.nil_append] at h
    exact (Prod.mk.inj h).1
  · have h := Reader.readAll_eq { chunks := chunks.map .ok ++ .error reason :: later }
    simp only [Reader.expected, Bool.false_eq_true, if_false, incoming_error, List.nil_append] at h
    exact Prod.mk.inj h

end StatusFeed

end EventWorker
