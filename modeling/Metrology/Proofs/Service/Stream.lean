import Metrology.Proofs.Json.Line
import Metrology.Proofs.Service.Response
import Metrology.Proofs.Text.Line
import Metrology.Service.Stream

/-!
Every request is answered once and in order. The chunks in which a stream arrives have no part in its
responses (`feedAll_eq`), and each response is one line of output (`splitOn_output`). Main statement:
`run_answers`.
-/

namespace Metrology.Stream
open Text

variable {style : Style} {bytes chunk pending x y : List UInt8} {ls ms settled : List (List UInt8)}
  {chunks : List (List UInt8)}

/-! ### The texts of lines -/

theorem isText_iff : isText bytes = true ↔ ∃ cs : List Char, bytes = cs.flatMap String.utf8EncodeChar := by
  have same : (⟨bytes.toArray⟩ : ByteArray) = bytes.toByteArray := by
    rw [ByteArray.ext_iff, List.data_toByteArray]
  unfold isText decode? String.fromUTF8?
  rw [same]
  constructor
  · intro decoded
    split at decoded
    · rename_i valid
      obtain ⟨cs, encoded⟩ := valid
      refine ⟨cs, ?_⟩
      have data := congrArg (·.data.toList) encoded
      simpa [List.utf8Encode] using data
    · cases decoded
  · rintro ⟨cs, rfl⟩
    rw [dif_pos (.intro cs rfl)]
    rfl

theorem isText_of_lines (text : isText bytes = true) : ∀ line ∈ lines bytes, isText line = true := by
  obtain ⟨cs, rfl⟩ := isText_iff.mp text
  rw [lines, splitOn_encoded, List.forall_mem_map]
  exact fun line _ => isText_iff.mpr ⟨line, rfl⟩

/-- The requests on lines: the texts before the first line that is none, trimmed, without the blank ones. -/
def requests (ls : List (List UInt8)) : List String :=
  (((ls.takeWhile isText).filterMap decode?).map fun text => String.ofList (trim text.toList)).filter (· ≠ "")

theorem answer_eq (style : Style) (ls : List (List UInt8)) :
    answer style ls = (requests ls).map (Response.ofLine style) := by
  induction ls with
  | nil => rfl
  | cons line ls ih =>
    unfold answer react requests
    cases decoded : decode? line with
    | none => simp [isText, decoded]
    | some text =>
      by_cases blank : trim text.toList = []
      · simp [isText, decoded, blank, ih, requests]
      · simp [isText, decoded, blank, ih, requests]

theorem requests_append (text : ls.all isText = true) : requests (ls ++ ms) = requests ls ++ requests ms := by
  have texts : ∀ line ∈ ls, isText line = true := List.all_eq_true.mp text
  unfold requests
  rw [List.takeWhile_append_of_pos texts, List.takeWhile_eq_self_iff.mpr texts, List.filterMap_append,
    List.map_append, List.filter_append]

/-- What comes after a line that is no text is not answered. -/
theorem requests_append_of_not_text (stopped : ¬ls.all isText = true) : requests (ls ++ ms) = requests ls := by
  have shorter : (ls.takeWhile isText).length ≠ ls.length := by
    intro same
    have whole : ls.takeWhile isText = ls := (List.takeWhile_prefix isText).eq_of_length same
    exact stopped (List.all_eq_true.mpr (List.takeWhile_eq_self_iff.mp whole))
  rw [requests, requests, List.takeWhile_append, if_neg shorter]

/-! ### Arrival in chunks -/

/-- What a chunk settles is answered at once, and what it leaves open is kept. -/
theorem feed_eq {left : List UInt8} (present : chunk ≠ []) (split : lines (pending ++ chunk) = settled ++ [left]) :
    feed style pending chunk = (answer style settled, if settled.all isText then some left else none) := by
  unfold feed
  rw [if_neg present, split, List.dropLast_concat, List.getLast?_concat]

theorem feed_nil : feed style pending [] = (answer style (lines pending), none) := by
  unfold feed
  rw [if_pos rfl, List.append_nil]

/-- Only the bytes matter, not the chunks in which they arrive. -/
theorem feedAll_eq (arrived : ∀ chunk ∈ chunks, chunk ≠ []) :
    feedAll style pending chunks = answer style (lines (pending ++ chunks.flatten)) := by
  induction chunks generalizing pending with
  | nil => rw [feedAll, feed_nil, List.flatten_nil, List.append_nil]
  | cons chunk chunks ih =>
    rw [List.forall_mem_cons] at arrived
    obtain ⟨settled, left, split, following⟩ := exists_open_piece 10 (pending ++ chunk)
    have joined : lines (pending ++ (chunk :: chunks).flatten) = settled ++ lines (left ++ chunks.flatten) := by
      rw [List.flatten_cons, ← List.append_assoc]
      exact following chunks.flatten
    rw [feedAll, feed_eq arrived.1 split, joined]
    by_cases text : settled.all isText = true
    · rw [if_pos text, answer_eq style (_ ++ _), requests_append text, List.map_append, ← answer_eq, ← answer_eq,
        ← ih arrived.2]
    · rw [if_neg text, answer_eq style (_ ++ _), requests_append_of_not_text text, ← answer_eq]

theorem responses_run (style : Style) (bytes : List UInt8) :
    (run style bytes).responses = (requests (lines bytes)).map (Response.ofLine style) := by
  rw [← answer_eq]
  by_cases empty : bytes = []
  · subst empty
    rfl
  · have arrived : ∀ chunk ∈ [bytes], chunk ≠ [] := by simpa using empty
    rw [run, feedAll_eq arrived, List.nil_append, List.flatten_singleton]

/-- Where text ends in a line feed, a stream may be cut in two. -/
theorem requests_lines_append (text : isText x = true) (ended : ∀ b ∈ x.getLast?, b = 10) :
    requests (lines (x ++ y)) = requests (lines x) ++ requests (lines y) := by
  have blank : requests [[]] = [] := by decide +kernel
  rcases List.eq_nil_or_concat' x with rfl | ⟨front, last, rfl⟩
  · exact (congrArg (· ++ requests (lines y)) blank).symm
  · obtain rfl : last = 10 := ended last (by simp)
    have split : ∀ rest, lines (front ++ 10 :: rest) = lines front ++ lines rest :=
      List.splitOn_append_cons_self front
    have whole : lines (front ++ [10]) = lines front ++ [[]] := split []
    have texts : (lines front).all isText = true := by
      rw [List.all_eq_true]
      exact fun line member => isText_of_lines text line (by rw [whole]; exact List.mem_append_left _ member)
    rw [List.append_assoc, List.singleton_append, split, whole, requests_append texts,
      requests_append texts, blank, List.append_nil]

/-! ### Output -/

/-- Split at its line feeds the output has one line for each response, and nothing after the last. -/
theorem splitOn_output (responses : List Response) :
    (responses.flatMap fun r => r.output.toList).splitOn '\n' = responses.map (fun r => r.line.toList) ++ [[]] := by
  induction responses with
  | nil => rfl
  | cons r responses ih =>
    have one : '\n' ∉ r.line.toList := by
      rw [Response.line, String.toList_ofList]
      exact Json.newline_not_mem (Json.printable_write r.toJson)
    rw [List.flatMap_cons, Response.output, String.toList_append, List.append_assoc, List.map_cons, List.cons_append,
      ← ih]
    exact List.splitOn_append_cons_self_of_not_mem one _

/-! ### Runs -/

/-- A run answers the lines of its input that are not blank, each once and in order, up to the first that is
not UTF-8, and ends without failure. The chunks have no part in it; after text that ends in a line feed it
goes on as a run of its own; and each response is one line of output, with the identifier that its request
was read with, unless that is null, and either a result or an error. -/
theorem run_answers (style : Style) (bytes : List UInt8) :
    (run style bytes).exitCode = 0 ∧
      (run style bytes).responses = (requests (lines bytes)).map (Response.ofLine style) ∧
      (∀ chunks : List (List UInt8), (∀ chunk ∈ chunks, chunk ≠ []) → chunks.flatten = bytes →
        feedAll style [] chunks = (run style bytes).responses) ∧
      (∀ x, isText x = true → (∀ b ∈ x.getLast?, b = 10) →
        (run style (x ++ bytes)).responses = (run style x).responses ++ (run style bytes).responses) ∧
      ((run style bytes).responses.flatMap fun r => r.output.toList).splitOn '\n' =
        (run style bytes).responses.map (fun r => r.line.toList) ++ [[]] ∧
      ∀ line, (∀ id ∈ Response.identifier? line, id ≠ .null) ∧
        ∃ key value, (key = "result" ∨ key = "error") ∧ (Response.ofLine style line).toJson =
          .object (((Response.identifier? line).toList.map fun id => ("id", id)) ++ [(key, value)]) := by
  refine ⟨rfl, responses_run style bytes, ?_, ?_, splitOn_output _, fun line => ⟨?_, Response.toJson_ofLine style line⟩⟩
  · rintro chunks arrived rfl
    rw [feedAll_eq arrived, answer_eq, List.nil_append, responses_run]
  · intro x text ended
    rw [responses_run, responses_run, responses_run, requests_lines_append text ended, List.map_append]
  · rintro id read rfl
    obtain ⟨r, request, identified⟩ := Option.bind_eq_some_iff.mp read
    exact Request.id_ne_null request identified

def encoded (text : String) : List UInt8 :=
  text.toList.flatMap String.utf8EncodeChar

/-- A request for an unknown operation with a line feed for its identifier. -/
def awkward : String := "[\"\\n\",\"x\"]"

/-- A request, a line that is not UTF-8 and another request. -/
def interrupted : List UInt8 :=
  encoded awkward ++ 10 :: 255 :: 10 :: encoded "1"

theorem requests_interrupted : requests (lines interrupted) = [awkward] := by
  decide +kernel

theorem run_answers_interrupted :
    isText (encoded "1\n \n") = true ∧
      (run .nice (encoded "1\n \n" ++ interrupted)).responses =
        [Response.ofLine .nice "1", Response.ofLine .nice awkward] ∧
      feedAll .nice [] [interrupted.take 3, interrupted.drop 3] = [Response.ofLine .nice awkward] ∧
      ∃ id key value, (Response.ofLine .nice awkward).toJson = .object [("id", id), (key, value)] ∧
        id.write = "\"\\n\"".toList := by
  have text : isText (encoded "1\n \n") = true := isText_iff.mpr ⟨_, rfl⟩
  obtain ⟨-, responses, chunks, cut, -, carried⟩ := run_answers .nice interrupted
  rw [requests_interrupted, List.map_singleton] at responses
  obtain ⟨-, first, -⟩ := run_answers .nice (encoded "1\n \n")
  have request : requests (lines (encoded "1\n \n")) = ["1"] := by decide +kernel
  rw [request, List.map_singleton] at first
  refine ⟨text, ?_, ?_, ?_⟩
  · rw [cut _ text (by decide +kernel), first, responses]
    rfl
  · rw [chunks _ (by decide) (by decide), responses]
  · obtain ⟨-, key, value, -, fields⟩ := carried awkward
    obtain ⟨id, read, written⟩ := Option.map_eq_some_iff.mp
      (show (Response.identifier? awkward).map Json.write = some "\"\\n\"".toList by decide +kernel)
    rw [read] at fields
    exact ⟨id, key, value, fields, written⟩

end Metrology.Stream
