import EventWorker.Proofs.Document.JsonSpace
import EventWorker.WorkerApi.LogLines

/-!
# Reading logs line by line

Every line of a body is read for itself. What a line adds to the log (`said`) is its message on a line of its
own if it is an entry, and nothing if it is not; a carriage return at its end makes no difference. So a body
may be cut at any line feed, and the two parts read one after the other, whatever is on the lines around the
cut: it may follow a carriage return, which then belongs to the end of the line, or another line feed, and
the second part may be empty.

Main statement: `read_append_lineFeed`.
-/

namespace EventWorker

open Text Document

namespace LogLines

/-! ### What a line adds -/

/-- What a line adds to the log. -/
def said (line : String) : String :=
  match entry.decode.ofJson line with
  | .ok message => message ++ "\n"
  | .error _ => ""

theorem said_of_ok {line message : String} (h : entry.decode.ofJson line = .ok message) :
    said line = message ++ "\n" := by
  rw [said, h]

theorem said_of_error {line : String} {e : DecodeError} (h : entry.decode.ofJson line = .error e) :
    said line = "" := by
  rw [said, h]

theorem ofJson_of_isBlankText {line : String} (h : isBlankText line) :
    entry.decode.ofJson line = .error .unreadable := by
  rw [Decoder.ofJson, ofJson?_of_isBlankText h]

/-- No entry is blank, so nothing is lost by leaving out the blank lines first. -/
theorem join_filterMap_message? (ls : List String) :
    String.join ((ls.filterMap message?).map (· ++ "\n")) = String.join (ls.map said) := by
  induction ls with
  | nil => rfl
  | cons l ls ih =>
    rw [List.filterMap_cons, List.map_cons, String.join_cons, ← ih, message?]
    cases hblank : isBlankText l with
    | true =>
      rw [said_of_error (ofJson_of_isBlankText hblank)]
      simp
    | false =>
      cases hl : entry.decode.ofJson l with
      | error e =>
        rw [said_of_error hl]
        simp [Except.toOption]
      | ok message =>
        rw [said_of_ok hl]
        simp [Except.toOption]

theorem read_eq (body : String) : read body = String.join ((lines body).map said) :=
  join_filterMap_message? (lines body)

theorem said_append_return (line : String) : said (line ++ "\r") = said line := by
  have hjson : ofJson? (line ++ "\r") = ofJson? line :=
    ofJson?_append_space (show Json.isSpace '\r' by decide) line
  rw [said, said, Decoder.ofJson, Decoder.ofJson, hjson]

theorem said_dropFinalReturn (cs : List Char) :
    said (String.ofList (dropFinalReturn cs)) = said (String.ofList cs) := by
  unfold dropFinalReturn
  by_cases hlast : cs.getLast? = some '\r'
  · obtain ⟨line, rfl⟩ := List.getLast?_eq_some_iff.1 hlast
    rw [if_pos hlast, List.dropLast_concat, String.ofList_append]
    exact (said_append_return (String.ofList line)).symm
  · rw [if_neg hlast]

theorem said_empty : said "" = "" :=
  said_of_error (ofJson_of_isBlankText rfl)

/-! ### Lines of a body -/

/-- What lines add to the log, one after another. -/
def saidByAll (ls : List (List Char)) : String :=
  String.join (ls.map fun l => said (String.ofList l))

theorem saidByAll_cons (l : List Char) (ls : List (List Char)) :
    saidByAll (l :: ls) = said (String.ofList l) ++ saidByAll ls := by
  simp [saidByAll]

theorem read_eq_saidByAll (body : String) : read body = saidByAll (linesAfter [] body.toList) := by
  rw [read_eq, lines, List.map_map]
  rfl

theorem linesAfter_cons {c : Char} (hc : c ≠ '\n') (line cs : List Char) :
    linesAfter line (c :: cs) = linesAfter (c :: line) cs := by
  rw [linesAfter]
  exact hc

/-- Where a line feed is put between two texts the first one's last line ends, and without it that line has
ended anyway. The one thing that changes is whether a carriage return at its end belongs to it. -/
theorem saidByAll_linesAfter (line cs rest : List Char) :
    saidByAll (linesAfter line (cs ++ '\n' :: rest)) =
      saidByAll (linesAfter line cs) ++ saidByAll (linesAfter [] rest) := by
  induction cs generalizing line with
  | nil =>
    rw [List.nil_append, linesAfter, linesAfter, saidByAll_cons, said_dropFinalReturn]
    cases line with
    | nil =>
      show said "" ++ _ = "" ++ _
      rw [said_empty]
    | cons c line =>
      show _ = saidByAll [(c :: line).reverse] ++ _
      rw [saidByAll_cons]
      simp [saidByAll]
  | cons c cs ih =>
    by_cases hc : c = '\n'
    · subst hc
      rw [List.cons_append, linesAfter, linesAfter, saidByAll_cons, saidByAll_cons, ih, String.append_assoc]
    · rw [List.cons_append, linesAfter_cons hc, linesAfter_cons hc, ih]

theorem linesAfter_of_notMem {cs : List Char} (h : '\n' ∉ cs) (line : List Char) :
    linesAfter line cs = if (cs.reverse ++ line).isEmpty then [] else [(cs.reverse ++ line).reverse] := by
  induction cs generalizing line with
  | nil => rfl
  | cons c cs ih =>
    obtain ⟨hc, hcs⟩ := not_or.1 (mt List.mem_cons.2 h)
    rw [linesAfter_cons (Ne.symm hc), ih hcs]
    simp

/-- A body without a line feed is one line, or none. -/
theorem read_of_notMem {line : String} (h : '\n' ∉ line.toList) : read line = said line := by
  rw [read_eq_saidByAll, linesAfter_of_notMem h]
  by_cases hempty : line = ""
  · subst hempty
    exact said_empty.symm
  · rw [if_neg (by simpa using hempty), saidByAll_cons]
    simp [saidByAll]

theorem read_append (a b : String) : read (a ++ "\n" ++ b) = read a ++ read b := by
  have hlist : (a ++ "\n" ++ b).toList = a.toList ++ '\n' :: b.toList := by simp
  simp only [read_eq_saidByAll, hlist, saidByAll_linesAfter]

theorem read_intercalate (ls : List String) (h : ∀ l ∈ ls, '\n' ∉ l.toList) :
    read ("\n".intercalate ls) = String.join (ls.map said) := by
  induction ls with
  | nil => rfl
  | cons l ls ih =>
    obtain ⟨hl, hls⟩ := List.forall_mem_cons.1 h
    cases ls with
    | nil =>
      rw [String.intercalate_singleton, read_of_notMem hl]
      simp
    | cons l' ls =>
      rw [String.intercalate_cons_cons, read_append, read_of_notMem hl, ih hls, ← String.join_cons,
        ← List.map_cons]

/-- **A body may be cut at any line feed**, and its log is that of the one part followed by that of the other.
The log of a whole body is what its lines add to it, one after another: an entry its message on a line of its
own, anything else nothing, blank lines included, and a carriage return at the end of a line makes no
difference to it. -/
theorem read_append_lineFeed :
    (∀ a b : String, read (a ++ "\n" ++ b) = read a ++ read b) ∧
    (∀ ls : List String, (∀ l ∈ ls, '\n' ∉ l.toList) →
      read ("\n".intercalate ls) = String.join (ls.map said)) ∧
    ∀ line : String, said (line ++ "\r") = said line ∧
      (isBlankText line → said line = "") ∧
      (∀ e, entry.decode.ofJson line = .error e → said line = "") ∧
      ∀ message, entry.decode.ofJson line = .ok message → said line = message ++ "\n" := by
  refine ⟨read_append, read_intercalate, fun line => ⟨said_append_return line, fun hblank => ?_, ?_, ?_⟩⟩
  · exact said_of_error (ofJson_of_isBlankText hblank)
  · exact fun e => said_of_error
  · exact fun message => said_of_ok

/-- The first entry is a list and ends in a carriage return, the second is on a line that has not ended, and
between them stand a blank line and one that is no entry. -/
def mixedLines : List String :=
  ["[null,\"compiling\"]\r", " \t", "not json", "\x7b\"message\":\"done\"\x7d"]

theorem read_append_lineFeed_mixed :
    (∀ l ∈ mixedLines, '\n' ∉ l.toList) ∧ read ("\n".intercalate mixedLines) = "compiling\ndone\n" := by
  have hlines : ∀ l ∈ mixedLines, '\n' ∉ l.toList := by decide
  have hjoin : String.join (mixedLines.map said) = "compiling\ndone\n" := by decide +kernel
  refine ⟨hlines, ?_⟩
  rw [read_append_lineFeed.2.1 mixedLines hlines, hjoin]

end LogLines

end EventWorker
