import Mathlib.Data.List.Basic
import TableTail.Proofs.Tables.Labels

/-!
# Names in statements

A quoted name ends at its first quote that is not doubled, and a doubled quote stands for one. Read
by this rule the quoted form of a text is one token, which gives the text back and ends where the
quoted form ends, whatever the text is (`Sql.quotedName?_eq_some_iff`). So the expressions that a
statement selects are read back as they were meant: no column and no label ends its token early, and
behind the last label stands what the statement has there (`Selection.names_are_tokens`).
-/

namespace TableTail

namespace Sql

/-! ## Quoted names -/

/-- The rest of a quoted name behind its first quote, and the text behind the name: two quotes stand
for one, and the first quote that is not doubled ends the name. -/
def restOfName? : List Char → Option (List Char × List Char)
  | [] => none
  | '"' :: '"' :: rest => (restOfName? rest).map fun p => ('"' :: p.1, p.2)
  | '"' :: rest => some ([], rest)
  | c :: rest => (restOfName? rest).map fun p => (c :: p.1, p.2)

/-- The quoted name that a text begins with, and the text behind it. -/
def quotedName? : List Char → Option (String × List Char)
  | '"' :: rest => (restOfName? rest).map fun p => (String.ofList p.1, p.2)
  | _ => none

/-- The inside of a quoted identifier is read back, if the quote at its end is not doubled. -/
lemma restOfName?_doubleQuotes (name : List Char) {behind : List Char}
    (h : behind.head? ≠ some '"') :
    restOfName? (doubleQuotes name ++ '"' :: behind) = some (name, behind) := by
  induction name with
  | nil =>
    cases behind with
    | nil => rfl
    | cons c rest =>
      have hc : c ≠ '"' := by simpa using h
      rw [doubleQuotes, List.nil_append, restOfName?]
      simpa using hc
  | cons c rest ih =>
    rw [doubleQuotes]
    split
    · next hc =>
      subst hc
      rw [List.cons_append, List.cons_append, restOfName?, ih]
      rfl
    · next hc =>
      rw [List.cons_append, restOfName?, ih]
      · rfl
      · exact fun _ heq => absurd heq hc
      · exact hc

/-- What is read as the rest of a name is its inside with the quotes doubled, and a quote. -/
lemma eq_of_restOfName? {s name behind : List Char} (h : restOfName? s = some (name, behind)) :
    s = doubleQuotes name ++ '"' :: behind ∧ behind.head? ≠ some '"' := by
  induction s using restOfName?.induct generalizing name with
  | case1 => simp [restOfName?] at h
  | case2 rest ih =>
    rw [restOfName?, Option.map_eq_some_iff] at h
    obtain ⟨⟨inside, _⟩, hrest, hpair⟩ := h
    obtain ⟨rfl, rfl⟩ := Prod.mk.inj hpair
    obtain ⟨hs, hend⟩ := ih hrest
    exact ⟨by rw [hs, doubleQuotes, if_pos rfl]; rfl, hend⟩
  | case3 rest hsingle =>
    rw [restOfName?] at h
    · obtain ⟨rfl, rfl⟩ := Prod.mk.inj (Option.some.inj h)
      refine ⟨rfl, fun hhead => ?_⟩
      obtain ⟨more, hmore⟩ := List.head?_eq_some_iff.1 hhead
      exact hsingle more hmore
    · exact hsingle
  | case4 c rest hdoubled hquote ih =>
    rw [restOfName?] at h
    · obtain ⟨⟨inside, _⟩, hrest, hpair⟩ := Option.map_eq_some_iff.1 h
      obtain ⟨rfl, rfl⟩ := Prod.mk.inj hpair
      obtain ⟨hs, hend⟩ := ih hrest
      exact ⟨by rw [hs, doubleQuotes, if_neg hquote]; rfl, hend⟩
    · exact hdoubled
    · exact hquote

/-- A text begins with the token of a name exactly if it begins with the name's quoted form and no
quote follows this; the token is the quoted form, and the name is given back. -/
theorem quotedName?_eq_some_iff {s behind : List Char} {name : String} :
    quotedName? s = some (name, behind) ↔
      s = (quoted name).toList ++ behind ∧ behind.head? ≠ some '"' := by
  have hquoted : (quoted name).toList ++ behind =
      '"' :: (doubleQuotes name.toList ++ '"' :: behind) := by
    simp [quoted]
  rw [hquoted]
  constructor
  · intro h
    unfold quotedName? at h
    split at h
    · next rest =>
      obtain ⟨⟨inside, _⟩, hrest, hpair⟩ := Option.map_eq_some_iff.1 h
      obtain ⟨rfl, rfl⟩ := Prod.mk.inj hpair
      obtain ⟨hs, hend⟩ := eq_of_restOfName? hrest
      exact ⟨by rw [hs, String.toList_ofList], hend⟩
    · cases h
  · rintro ⟨rfl, hend⟩
    rw [quotedName?, restOfName?_doubleQuotes _ hend, Option.map_some, String.ofList_toList]

/-- The quoted form of a name is read back, unless a quote follows it. -/
lemma quotedName?_quoted (name : String) {behind : List Char} (h : behind.head? ≠ some '"') :
    quotedName? ((quoted name).toList ++ behind) = some (name, behind) :=
  quotedName?_eq_some_iff.2 ⟨rfl, h⟩

/-- Different names have different quoted forms. -/
lemma quoted_injective : Function.Injective quoted := by
  intro a b hab
  have hend : ([] : List Char).head? ≠ some '"' := by simp
  have ha := quotedName?_quoted a hend
  rw [hab, quotedName?_quoted b hend] at ha
  exact (congrArg Prod.fst (Option.some.inj ha)).symm

/-! ## Selected expressions -/

/-- The expression that a text begins with, and the text behind it: the SQL that is configured, or
the quoted name of a column. -/
def value? (s : List Char) : Option String → Option (Term × List Char)
  | some sql => (s.dropPrefix? sql.toList).map fun rest => (.configured sql, rest)
  | none => (quotedName? s).map fun p => (.column p.1, p.2)

/-- The selected expression that a text begins with, and the text behind its label. -/
def item? (configured : Option String) (s : List Char) : Option (Item × List Char) := do
  let (value, s) ← value? s configured
  let s ← s.dropPrefix? " AS ".toList
  let (label, s) ← quotedName? s
  return (⟨value, label⟩, s)

/-- The selected expressions that a text begins with, separated by commas, and the text behind them.
There are as many as there are columns, of which some are configured SQL. -/
def items? : List (Option String) → List Char → Option (List Item × List Char)
  | [], s => some ([], s)
  | [column], s => (item? column s).map fun p => ([p.1], p.2)
  | column :: columns, s => do
    let (first, s) ← item? column s
    let s ← s.dropPrefix? ", ".toList
    let (more, s) ← items? columns s
    return (first :: more, s)

/-- The expressions that the text of a statement selects, and the text behind them. -/
def selected? (columns : List (Option String)) (statement : String) :
    Option (List Item × List Char) :=
  (statement.toList.dropPrefix? "SELECT ".toList).bind (items? columns)

/-- The text of a statement behind what it selects. -/
def Select.source (s : Select) : String :=
  " FROM " ++ s.table ++ " WHERE " ++ " AND ".intercalate (s.conditions.map Condition.text) ++
    s.arrangement.text

/-- The source follows the selected expressions. -/
lemma Select.text_eq (s : Select) : s.text = "SELECT " ++ itemsText s.items ++ s.source := by
  have htext : s.text = "SELECT " ++ itemsText s.items ++ " FROM " ++ s.table ++ " WHERE " ++
      " AND ".intercalate (s.conditions.map Condition.text) ++ s.arrangement.text := rfl
  rw [htext, source]
  simp only [String.append_assoc]

/-- A text begins with the character that its first word begins with. -/
lemma head?_word {word : String} {c : Char} (h : word.toList.head? = some c) (hc : c ≠ '"')
    (behind : List Char) : (word.toList ++ behind).head? ≠ some '"' := by
  obtain ⟨rest, hrest⟩ := List.head?_eq_some_iff.1 h
  simpa [hrest] using hc

/-- No quote follows what is selected. -/
lemma Select.head?_source (s : Select) : s.source.toList.head? ≠ some '"' := by
  rw [source, String.append_assoc, String.append_assoc, String.append_assoc, String.toList_append]
  exact head?_word rfl (by decide) _

/-- What a text begins with can be dropped from it. -/
lemma dropPrefix?_append (start behind : List Char) :
    (start ++ behind).dropPrefix? start = some behind :=
  List.dropPrefix?_append_of_beq behind (beq_self_eq_true start)

end Sql

namespace Selection

open Sql

variable {d : Descriptor} {s : Schema}

/-- The expression of a column is read back. -/
lemma value?_item (column : String) {behind : List Char} (h : behind.head? ≠ some '"') :
    value? ((item d column).value.text.toList ++ behind) (d.convertOf column) =
      some ((item d column).value, behind) := by
  unfold item
  cases d.convertOf column with
  | none =>
    have htext : (Term.column column).text = quoted column := rfl
    rw [htext, value?, quotedName?_quoted column h, Option.map_some]
  | some sql =>
    have htext : (Term.configured sql).text = sql := rfl
    rw [htext, value?, dropPrefix?_append, Option.map_some]

/-- A column and its label are read back. -/
lemma item?_item (column : String) {behind : List Char} (h : behind.head? ≠ some '"') :
    item? (d.convertOf column) ((item d column).text.toList ++ behind) =
      some (item d column, behind) := by
  have htext : (item d column).text.toList ++ behind =
      (item d column).value.text.toList ++
        (" AS ".toList ++ ((quoted (item d column).label).toList ++ behind)) := by
    simp only [Item.text, String.toList_append, List.append_assoc]
  rw [item?, htext, value?_item column (head?_word rfl (by decide) _)]
  simp only [Option.bind_eq_bind, Option.bind_some, dropPrefix?_append, quotedName?_quoted _ h]
  rfl

/-- Columns and their labels are read back one after the other. -/
lemma items?_itemsText (columns : List String) {behind : List Char}
    (h : behind.head? ≠ some '"') :
    items? (columns.map d.convertOf) ((itemsText (columns.map (item d))).toList ++ behind) =
      some (columns.map (item d), behind) := by
  induction columns with
  | nil => rfl
  | cons column rest ih =>
    cases rest with
    | nil =>
      rw [itemsText, List.map_singleton, List.map_singleton, List.map_singleton,
        String.intercalate_singleton, items?, item?_item column h]
      rfl
    | cons next rest =>
      have htext : (itemsText ((column :: next :: rest).map (item d))).toList ++ behind =
          (item d column).text.toList ++
            (", ".toList ++ ((itemsText ((next :: rest).map (item d))).toList ++ behind)) := by
        simp only [itemsText, List.map_cons, String.intercalate_cons_cons, String.toList_append,
          List.append_assoc]
      rw [htext, List.map_cons, List.map_cons, items?]
      · rw [item?_item column (head?_word rfl (by decide) _)]
        simp only [Option.bind_eq_bind, Option.bind_some, dropPrefix?_append]
        rw [← List.map_cons, ih]
        rfl
      · simp

/-- The quoted form of a name is a token of its own, which gives the name back, so different names
have different forms. Whatever the columns of a table and their labels are called, all its scans
select what they are meant to, and nothing of a name gets behind what is selected. -/
theorem names_are_tokens :
    (∀ (name : String) (text behind : List Char), quotedName? text = some (name, behind) ↔
      text = (quoted name).toList ++ behind ∧ behind.head? ≠ some '"') ∧
    Function.Injective quoted ∧
    ∀ (d : Descriptor) (s : Schema) (dialect : Dialect) (table : String) (sel : Selection),
      Selection.of d s dialect table = .ok sel → ∀ (conditions : List Condition) (limit : Nat),
        selected? ((projected d s).map d.convertOf) (sel.scan conditions limit).text =
          some ((projected d s).map (item d), (sel.scan conditions limit).source.toList) := by
  refine ⟨fun _ _ _ => quotedName?_eq_some_iff, quoted_injective, ?_⟩
  intro d s dialect table sel hsel conditions limit
  obtain ⟨hitems, -, -⟩ := items_of hsel
  have hscan : (sel.scan conditions limit).items = (projected d s).map (item d) := hitems
  rw [selected?, Select.text_eq, String.append_assoc, String.toList_append, dropPrefix?_append,
    Option.bind_some, String.toList_append, hscan, items?_itemsText _ (Select.head?_source _)]

end Selection

namespace Journal

/-- The journal's numbers under a label that would end the statement, if it could. -/
def spoiledSettings : TableSettings :=
  ⟨"journal", none, ["id"], [("id", "n\" FROM \"secrets\" --")], [], none, none, none,
    rankedSettings.cursor⟩

/-- Its description. -/
def spoiledDescriptor : Descriptor :=
  ⟨"journal", "journal", ["id"], [("id", "n\" FROM \"secrets\" --")], [], none,
    rankedSettings.cursor⟩

/-- The settings are accepted. The label is read as a label, and it is the journal that is read. -/
theorem spoiled_label_is_token :
    Descriptor.ofSettings spoiledSettings = .ok spoiledDescriptor ∧
      ∃ sel, Selection.of spoiledDescriptor rankedSchema .sqlite "\"journal\"" = .ok sel ∧
        Sql.selected? [none] (sel.singleScan (.integer 7) 10).select.text =
          some ([⟨.column "id", "n\" FROM \"secrets\" --"⟩],
            " FROM \"journal\" WHERE \"id\" > ?1 ORDER BY \"id\" ASC LIMIT 10".toList) := by
  refine ⟨by decide +kernel, _, rfl, ?_⟩
  obtain ⟨-, -, hselected⟩ := Selection.names_are_tokens
  have hscan := hselected spoiledDescriptor rankedSchema .sqlite "\"journal\"" _ rfl
    [.compare (.column "id") .above (.parameter 1)] 10
  exact hscan.trans (by decide +kernel)

end Journal

end TableTail
