import TableTail.Delivery.Record
import TableTail.Proofs.Json.Written

/-!
# Records as lines

Records are delivered as one text, which falls apart at its line breaks into one line for each of
them (`Record.splitLines_lines`). Every line is a document again: the record's headers and its body,
as they were written (`Record.lines_framed`).
-/

namespace TableTail.Record

/-- The lines of a text, each of them with the line break at its end. -/
def cutLines : List Char → List (List Char)
  | [] => []
  | c :: rest =>
    if c = '\n' then [c] :: cutLines rest
    else
      match cutLines rest with
      | [] => [[c]]
      | line :: lines => (c :: line) :: lines

/-- The lines of a text. -/
def splitLines (s : String) : List String := (cutLines s.toList).map String.ofList

example : splitLines "a\n\nb" = ["a\n", "\n", "b"] := by decide

/-- A line ends at its line break. -/
lemma cutLines_append {line : List Char} (h : '\n' ∉ line) (rest : List Char) :
    cutLines (line ++ '\n' :: rest) = (line ++ ['\n']) :: cutLines rest := by
  induction line with
  | nil => rfl
  | cons c line ih =>
    obtain ⟨hc, hline⟩ : '\n' ≠ c ∧ '\n' ∉ line := by simpa using h
    rw [List.cons_append, cutLines, if_neg hc.symm, ih hline]
    rfl

/-- A record as a document: its headers and its body. -/
def document (r : Record) : Json := .object [("headers", r.headers), ("body", .object r.body)]

/-- The text of a record is that of its document. -/
lemma text_eq (r : Record) : r.text = r.document.text := by
  have hheaders : Json.stringText "headers" = "\"headers\"" := by decide
  have hbody : Json.stringText "body" = "\"body\"" := by decide
  have hopen : "\x7b\"headers\":" = "\x7b" ++ "\"headers\"" ++ ":" := by decide
  have hnext : ",\"body\":" = "," ++ "\"body\"" ++ ":" := by decide
  rw [text, document, Json.text, Json.fieldsText, Json.fieldsText, hheaders, hbody, hopen, hnext]
  simp only [String.append_assoc, String.append_empty]

/-- The text of some records falls apart into theirs. -/
theorem splitLines_lines (records : List Record) :
    splitLines (lines records) = records.map fun r => r.text ++ "\n" := by
  have hcut : cutLines (lines records).toList =
      records.map fun r => r.text.toList ++ ['\n'] := by
    induction records with
    | nil => rfl
    | cons r records ih =>
      have hchars : (lines (r :: records)).toList =
          r.text.toList ++ '\n' :: (lines records).toList := by
        simp [lines]
      have hbreak : '\n' ∉ r.text.toList := r.text_eq ▸ r.document.notMem_text
      rw [hchars, cutLines_append hbreak, ih, List.map_cons]
  rw [splitLines, hcut, List.map_map]
  refine List.map_congr_left fun r _ => String.toList_injective ?_
  simp

/-- The line of a record is read as its headers and its body. -/
lemma read?_line (r : Record) :
    Json.Written.read? (r.text ++ "\n") =
      some (.object [("headers", .object [(tableHeader, .string r.table)]),
        ("body", .object (Json.writtenFields r.body))]) := by
  rw [text_eq, Json.Written.read?_line]
  rfl

/-- The record of a row is read as its headers and its cells. -/
lemma read?_ofRow (row : String × Sql.Row) :
    Json.Written.read? ((ofRow row.1 row.2).text ++ "\n") =
      some (.object [("headers", .object [(tableHeader, .string row.1)]),
        ("body", .object (Json.writtenFields row.2.toFields))]) :=
  read?_line (ofRow row.1 row.2)

/-- Whatever the rows and the names of their tables have in them, the text of their records is one
line for each, in their order and with nothing else, and each of the lines is read as the headers
and the body of its record, which has every label once. -/
theorem lines_framed (rows : List (String × Sql.Row)) :
    let records := rows.map fun row => ofRow row.1 row.2
    splitLines (lines records) = records.map (fun r => r.text ++ "\n") ∧
    (splitLines (lines records)).map Json.Written.read? =
      rows.map (fun row =>
        some (.object [("headers", .object [(tableHeader, .string row.1)]),
          ("body", .object (Json.writtenFields row.2.toFields))])) ∧
    ∀ row ∈ rows, Named.Sorted row.2.toFields := by
  intro records
  have hlines : splitLines (lines records) =
      rows.map fun row => (ofRow row.1 row.2).text ++ "\n" := by
    rw [splitLines_lines, List.map_map]
    simp only [Function.comp_def]
  refine ⟨splitLines_lines records, ?_, fun row _ => Named.sorted_ofPairs _⟩
  rw [hlines, List.map_map]
  refine List.map_congr_left fun row _ => ?_
  rw [Function.comp_apply, read?_ofRow]

end TableTail.Record
