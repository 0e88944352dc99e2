import TableTail.Proofs.Tables.Ordering

/-!
# Minimum queries

The parameters of a minimum query are the includes and behind them the excludes, and its own clauses
mention the parameters once each and in this order (`Selection.minimums_lined_up`). So read by any
rules for which names have values, which values are equal and what configured SQL means
(`Sql.Reading`), it selects the rows that it is meant to select: those that satisfy the filter and
whose identity is not NULL, among the includes if there are any, and not among the excludes.

Conditions have one of three truth values, because a comparison with NULL is neither true nor false
(`Sql.Truth`). A stored table is read by such rules (`Selecting.holdsAll_iff`).
-/

namespace TableTail

namespace Sql

section Indices

/-- The parameters that an expression mentions, in the order of its text; configured SQL is not
looked into. -/
def Term.indices : Term → List ℕ
  | column _ => []
  | configured _ => []
  | parameter index => [index]
  | castParameter index _ => [index]
  | instant value => value.indices
  | unixInstant seconds => seconds.indices
  | byStorage _ a b => a.indices ++ b.indices
  | minimum value => value.indices

/-- The parameters that a condition mentions. -/
def Condition.indices : Condition → List ℕ
  | compare left _ right => left.indices ++ right.indices
  | isNotNull value => value.indices
  | among value list => value.indices ++ list.flatMap Term.indices
  | notAmong value list => value.indices ++ list.flatMap Term.indices
  | configured _ => []

/-- The parameters that the key of an arrangement mentions. -/
def Arrangement.indices : Arrangement → List ℕ
  | ordered key _ => key.indices
  | grouped key => key.indices

/-- The parameters that a statement's own clauses mention. -/
def Select.indices (s : Select) : List ℕ :=
  s.items.flatMap (·.value.indices) ++ s.conditions.flatMap Condition.indices ++
    s.arrangement.indices

namespace Dialect

/-- How a parameter is written that is compared with a column. -/
def mark : Dialect → Column → ℕ → String
  | postgres, column, index =>
    "CAST($" ++ Text.natText index ++ "::text AS " ++ column.castType ++ ")"
  | sqlite, _, index => "?" ++ Text.natText index

variable (dialect : Dialect) (index : ℕ) (column : Column)

@[simp] lemma indices_placeholder : (dialect.placeholder index column).indices = [index] := by
  cases dialect with
  | postgres => rfl
  | sqlite => rfl

@[simp] lemma text_placeholder :
    (dialect.placeholder index column).text = dialect.mark column index := by
  cases dialect with
  | postgres => rfl
  | sqlite => rfl

/-- What a cursor is ordered by mentions no parameter. -/
@[simp] lemma indices_cursorTerm : (dialect.cursorTerm column).indices = [] := by
  cases dialect with
  | postgres => rfl
  | sqlite =>
    rw [cursorTerm]
    split
    · rfl
    · rfl

end Dialect

end Indices

/-- The truth of a condition. -/
inductive Truth
  | yes
  | no
  | unknown
  deriving DecidableEq, Repr

namespace Truth

/-- The truth of what is known. -/
def ofBool (b : Bool) : Truth := if b then yes else no

/-- The opposite. -/
def opposite : Truth → Truth
  | yes => no
  | no => yes
  | unknown => unknown

/-- Whether both hold. -/
def both : Truth → Truth → Truth
  | yes, t => t
  | no, _ => no
  | unknown, no => no
  | unknown, _ => unknown

/-- Whether one of both holds. -/
def either : Truth → Truth → Truth
  | no, t => t
  | yes, _ => yes
  | unknown, yes => yes
  | unknown, _ => unknown

@[simp] lemma ofBool_eq_yes_iff {b : Bool} : ofBool b = yes ↔ b = true := by
  cases b <;> simp [ofBool]

@[simp] lemma ofBool_eq_no_iff {b : Bool} : ofBool b = no ↔ b = false := by
  cases b <;> simp [ofBool]

@[simp] lemma opposite_eq_yes_iff {t : Truth} : t.opposite = yes ↔ t = no := by
  cases t <;> simp [opposite]

/-- All hold together if each of them holds. -/
lemma foldr_both_eq_yes_iff (l : List Truth) : l.foldr both yes = yes ↔ ∀ t ∈ l, t = yes := by
  induction l with
  | nil => simp
  | cons t l ih =>
    rw [List.foldr_cons, List.forall_mem_cons, ← ih]
    cases t <;> cases l.foldr both yes <;> simp [both]

/-- One of some holds if there is one that does. -/
lemma foldr_either_eq_yes_iff (l : List Truth) : l.foldr either no = yes ↔ ∃ t ∈ l, t = yes := by
  induction l with
  | nil => simp
  | cons t l ih =>
    rw [List.foldr_cons, List.exists_mem_cons_iff, ← ih]
    cases t <;> cases l.foldr either no <;> simp [either]

/-- None of some holds if each of them does not. -/
lemma foldr_either_eq_no_iff (l : List Truth) : l.foldr either no = no ↔ ∀ t ∈ l, t = no := by
  induction l with
  | nil => simp
  | cons t l ih =>
    rw [List.foldr_cons, List.forall_mem_cons, ← ih]
    cases t <;> cases l.foldr either no <;> simp [either]

end Truth

/-- Rules by which conditions are read on rows. A value includes all that matters to how it is
compared, and configured SQL has a truth of its own. Only values that are not NULL are compared. -/
structure Reading (ρ : Type) where
  Value : Type
  isNull : Value → Bool
  meets : Comparison → Value → Value → Bool
  column : ρ → String → Value
  parameter : Cell → Value
  castParameter : Cell → String → Value
  other : List Cell → ρ → Term → Value
  configured : List Cell → ρ → String → Truth

namespace Reading

variable {ρ : Type} (k : Reading ρ) (parameters : List Cell) (row : ρ)

/-- The parameter with an index, counted from one. -/
def bound (parameters : List Cell) (index : ℕ) : Cell := (parameters[index - 1]?).getD .null

/-- The value of an expression in a row. -/
def value : Term → k.Value
  | .column name => k.column row name
  | .parameter index => k.parameter (bound parameters index)
  | .castParameter index type => k.castParameter (bound parameters index) type
  | term => k.other parameters row term

/-- The truth of a comparison. -/
def compared (c : Comparison) (a b : k.Value) : Truth :=
  if k.isNull a || k.isNull b then .unknown else .ofBool (k.meets c a b)

/-- The truth of a condition on a row. -/
def truth : Condition → Truth
  | .compare left c right => k.compared c (k.value parameters row left)
      (k.value parameters row right)
  | .isNotNull term => .ofBool !k.isNull (k.value parameters row term)
  | .among term list => (list.map fun t => k.compared .equal (k.value parameters row term)
      (k.value parameters row t)).foldr Truth.either Truth.no
  | .notAmong term list => ((list.map fun t => k.compared .equal (k.value parameters row term)
      (k.value parameters row t)).foldr Truth.either Truth.no).opposite
  | .configured sql => k.configured parameters row sql

/-- Whether a query selects a row: its conditions hold together. -/
def Selects (q : Query) (row : ρ) : Prop :=
  (q.select.conditions.map (k.truth q.parameters row)).foldr Truth.both Truth.yes = Truth.yes

/-- A cell as the value of a parameter that is compared with a column. -/
def asParameter (dialect : Dialect) (column : Column) (cell : Cell) : k.Value :=
  match dialect with
  | .postgres => k.castParameter cell column.castType
  | .sqlite => k.parameter cell

variable {k parameters row}

lemma selects_iff {q : Query} :
    k.Selects q row ↔ ∀ c ∈ q.select.conditions, k.truth q.parameters row c = .yes := by
  rw [Selects, Truth.foldr_both_eq_yes_iff, List.forall_mem_map]

/-- What is written for a parameter has the value of its cell. -/
lemma value_placeholder (dialect : Dialect) (column : Column) (index : ℕ) :
    k.value parameters row (dialect.placeholder index column) =
      k.asParameter dialect column (bound parameters index) := by
  cases dialect with
  | postgres => rfl
  | sqlite => rfl

/-- The values of parameters that follow each other are those of the cells bound to them. -/
lemma map_value_placeholder (dialect : Dialect) (column : Column)
    (before cells behind : List Cell) :
    (List.range' (before.length + 1) cells.length).map
        (fun i => k.value (before ++ cells ++ behind) row (dialect.placeholder i column)) =
      cells.map (k.asParameter dialect column) := by
  refine List.ext_getElem (by simp) fun i _ hi => ?_
  have hlt : i < cells.length := by simpa using hi
  have hbound : bound (before ++ cells ++ behind) (before.length + 1 + i) = cells[i] := by
    have hindex : before.length + 1 + i - 1 = before.length + i := by omega
    rw [bound, hindex, List.append_assoc, List.getElem?_append_right (Nat.le_add_right ..),
      Nat.add_sub_cancel_left, List.getElem?_append_left hlt, List.getElem?_eq_getElem hlt,
      Option.getD_some]
  simp only [List.getElem_map, List.getElem_range', Nat.one_mul, value_placeholder, hbound]

/-- A value that is not NULL equals one of some that are not NULL if it is equal to one of them. -/
lemma foldr_either_compared_eq_yes_iff {v : k.Value} {list : List k.Value}
    (hlist : ∀ w ∈ list, k.isNull w = false) (hv : k.isNull v = false) :
    (list.map (k.compared .equal v)).foldr Truth.either Truth.no = .yes ↔
      ∃ w ∈ list, k.meets .equal v w = true := by
  rw [Truth.foldr_either_eq_yes_iff]
  simp only [List.mem_map, exists_exists_and_eq_and]
  refine exists_congr fun w => and_congr_right fun hw => ?_
  simp [compared, hv, hlist w hw]

lemma foldr_either_compared_eq_no_iff {v : k.Value} {list : List k.Value}
    (hlist : ∀ w ∈ list, k.isNull w = false) (hv : k.isNull v = false) :
    (list.map (k.compared .equal v)).foldr Truth.either Truth.no = .no ↔
      ∀ w ∈ list, k.meets .equal v w = false := by
  rw [Truth.foldr_either_eq_no_iff, List.forall_mem_map]
  refine forall₂_congr fun w hw => ?_
  simp [compared, hv, hlist w hw]

end Reading

end Sql

namespace Selection

open Sql

variable (s : Selection) (c : Sql.Column)

lemma map_indices_identityParameters (first count : ℕ) :
    (s.identityParameters c first count).map Term.indices =
      (List.range' first count).map fun i => [i] := by
  simp [identityParameters]

lemma flatMap_indices_identityParameters (first count : ℕ) :
    (s.identityParameters c first count).flatMap Term.indices = List.range' first count := by
  simp [identityParameters, List.flatMap_map]

/-- The conditions of a minimum query mention its parameters once each and in their order. -/
lemma flatMap_indices_minimumConditions (m n : ℕ) :
    (s.minimumConditions c m n).flatMap Condition.indices = List.range' 1 (m + n) := by
  have hstatic : s.staticConditions.flatMap Condition.indices = [] := by
    simp [staticConditions, List.flatMap_map, Condition.indices]
  have hinside : (if m = 0 then []
      else [Condition.among (.column c.name) (s.identityParameters c 1 m)]).flatMap
        Condition.indices = List.range' 1 m := by
    split_ifs with hm
    · simp [hm]
    · simp [Condition.indices, Term.indices, flatMap_indices_identityParameters]
  have houtside : (if n = 0 then []
      else [Condition.notAmong (.column c.name) (s.identityParameters c (m + 1) n)]).flatMap
        Condition.indices = List.range' (1 + m) n := by
    split_ifs with hn
    · simp [hn]
    · simp [Condition.indices, Term.indices, flatMap_indices_identityParameters, Nat.add_comm]
  rw [minimumConditions, List.flatMap_cons, List.flatMap_append, List.flatMap_append, hinside,
    houtside, hstatic, List.append_nil, List.range'_append_1]
  rfl

/-- The clauses of a minimum query as they are written. -/
def minimumClauses (m n : ℕ) : List String :=
  [quoted c.name ++ " IS NOT NULL"] ++
  (if m = 0 then []
    else [quoted c.name ++ " IN (" ++
      ", ".intercalate ((List.range' 1 m).map (s.dialect.mark c)) ++ ")"]) ++
  (if n = 0 then []
    else [quoted c.name ++ " NOT IN (" ++
      ", ".intercalate ((List.range' (m + 1) n).map (s.dialect.mark c)) ++ ")"]) ++
  s.filter.toList.map fun filter => "(" ++ filter ++ ")"

lemma listText_identityParameters (first count : ℕ) :
    listText (s.identityParameters c first count) =
      ", ".intercalate ((List.range' first count).map (s.dialect.mark c)) := by
  simp [listText, identityParameters, Function.comp_def]

lemma map_text_minimumConditions (m n : ℕ) :
    (s.minimumConditions c m n).map Condition.text = s.minimumClauses c m n := by
  have hstatic : s.staticConditions.map Condition.text =
      s.filter.toList.map fun filter => "(" ++ filter ++ ")" := by
    rw [staticConditions, List.map_map]
    rfl
  have hinside : (Condition.among (.column c.name) (s.identityParameters c 1 m)).text =
      quoted c.name ++ " IN (" ++
        ", ".intercalate ((List.range' 1 m).map (s.dialect.mark c)) ++ ")" := by
    rw [Condition.text, listText_identityParameters]
    rfl
  have houtside : (Condition.notAmong (.column c.name) (s.identityParameters c (m + 1) n)).text =
      quoted c.name ++ " NOT IN (" ++
        ", ".intercalate ((List.range' (m + 1) n).map (s.dialect.mark c)) ++ ")" := by
    rw [Condition.text, listText_identityParameters]
    rfl
  rw [minimumConditions, minimumClauses, List.map_cons, List.map_append, List.map_append, hstatic,
    apply_ite (List.map Condition.text), apply_ite (List.map Condition.text), List.map_nil,
    List.map_singleton, List.map_singleton, hinside, houtside]
  rfl

variable {s c} {ρ : Type} {k : Reading ρ} {row : ρ} (before : List Cell) {cells : List Cell}
  (behind : List Cell)

/-- What the list of a condition is compared as: the cells that are bound to its parameters. -/
lemma map_compared_identityParameters (v : k.Value) :
    (s.identityParameters c (before.length + 1) cells.length).map
        (fun t => k.compared .equal v (k.value (before ++ cells ++ behind) row t)) =
      (cells.map (k.asParameter s.dialect c)).map (k.compared .equal v) := by
  rw [← Reading.map_value_placeholder s.dialect c before cells behind, identityParameters,
    List.map_map, List.map_map]
  rfl

/-- The identity of a row is in a list of parameters if it is equal to one of the cells bound to
them. -/
lemma truth_among_iff
    (hcells : ∀ x ∈ cells, k.isNull (k.asParameter s.dialect c x) = false)
    (hidentity : k.isNull (k.column row c.name) = false) :
    k.truth (before ++ cells ++ behind) row
        (.among (.column c.name) (s.identityParameters c (before.length + 1) cells.length)) =
        .yes ↔
      ∃ x ∈ cells, k.meets .equal (k.column row c.name) (k.asParameter s.dialect c x) = true := by
  have hlist : ∀ w ∈ cells.map (k.asParameter s.dialect c), k.isNull w = false := by
    simpa using hcells
  rw [Reading.truth, map_compared_identityParameters, Reading.value,
    Reading.foldr_either_compared_eq_yes_iff hlist hidentity]
  simp only [List.mem_map, exists_exists_and_eq_and]

/-- The identity of a row is not in a list of parameters if it is equal to none of the cells bound
to them. -/
lemma truth_notAmong_iff
    (hcells : ∀ x ∈ cells, k.isNull (k.asParameter s.dialect c x) = false)
    (hidentity : k.isNull (k.column row c.name) = false) :
    k.truth (before ++ cells ++ behind) row
        (.notAmong (.column c.name) (s.identityParameters c (before.length + 1) cells.length)) =
        .yes ↔
      ∀ x ∈ cells, k.meets .equal (k.column row c.name) (k.asParameter s.dialect c x) = false := by
  have hlist : ∀ w ∈ cells.map (k.asParameter s.dialect c), k.isNull w = false := by
    simpa using hcells
  rw [Reading.truth, map_compared_identityParameters, Reading.value,
    Truth.opposite_eq_yes_iff, Reading.foldr_either_compared_eq_no_iff hlist hidentity,
    List.forall_mem_map]

variable {includes excludes : List Cell}

/-- The conditions of a minimum query hold together on the rows that it is meant to select. -/
lemma truth_minimumConditions_iff
    (hcells : ∀ x ∈ includes ++ excludes, k.isNull (k.asParameter s.dialect c x) = false) :
    (∀ condition ∈ s.minimumConditions c includes.length excludes.length,
        k.truth (includes ++ excludes) row condition = .yes) ↔
      k.isNull (k.column row c.name) = false ∧
      (includes ≠ [] → ∃ x ∈ includes,
        k.meets .equal (k.column row c.name) (k.asParameter s.dialect c x) = true) ∧
      (∀ x ∈ excludes,
        k.meets .equal (k.column row c.name) (k.asParameter s.dialect c x) = false) ∧
      ∀ sql ∈ s.filter, k.configured (includes ++ excludes) row sql = .yes := by
  obtain ⟨hincludes, hexcludes⟩ := List.forall_mem_append.1 hcells
  have hnull : k.truth (includes ++ excludes) row (.isNotNull (.column c.name)) = .yes ↔
      k.isNull (k.column row c.name) = false := by
    simp [Reading.truth, Reading.value]
  have hstatic : (∀ condition ∈ s.staticConditions,
        k.truth (includes ++ excludes) row condition = .yes) ↔
      ∀ sql ∈ s.filter, k.configured (includes ++ excludes) row sql = .yes := by
    simp [staticConditions, Reading.truth]
  rw [minimumConditions, List.forall_mem_cons, List.forall_mem_append, List.forall_mem_append,
    hnull, hstatic, and_assoc]
  refine and_congr_right fun hidentity => and_congr ?_ (and_congr_left' ?_)
  · cases includes with
    | nil => simp
    | cons x rest =>
      have h := truth_among_iff [] excludes hincludes hidentity
      simpa using h
  · cases excludes with
    | nil => simp
    | cons x rest =>
      have h := truth_notAmong_iff includes [] hexcludes hidentity
      simpa using h

/-- A minimum query as it is written. -/
lemma text_minimums {q : Query} (hidentity : s.identity = some c)
    (hq : s.minimums includes excludes = some q) :
    q.select.text =
      "SELECT " ++ (quoted c.name ++ " AS " ++ quoted identityLabel ++ ", " ++
        ("MIN(" ++ (s.dialect.cursorTerm s.increment).text ++ ")" ++ " AS " ++
          quoted minimumLabel)) ++
        " FROM " ++ s.table ++
        " WHERE " ++ " AND ".intercalate (s.minimumClauses c includes.length excludes.length) ++
        (" GROUP BY " ++ quoted c.name) := by
  obtain rfl : _ = q := by simpa [minimums, hidentity] using hq
  rw [Select.text, map_text_minimumConditions]
  rfl

/-- The parameters of a minimum query line up with its clauses: they are the includes and behind
them the excludes, each is mentioned once and in this order, an include in the list of the
identities that are asked for and an exclude in the list of those that are left out. A list that is
empty has no clause; the other clauses are that the identity is not NULL, and the filter in
parentheses. So the rows are selected that satisfy the filter and whose identity is not NULL, is
equal to one of the includes if there are any, and to none of the excludes. -/
theorem minimums_lined_up (hidentity : s.identity = some c) (includes excludes : List Cell) :
    ∃ q inside outside,
      s.minimums includes excludes = some q ∧
      q.parameters = includes ++ excludes ∧
      q.select.indices = List.range' 1 (includes.length + excludes.length) ∧
      inside.map Term.indices = (List.range' 1 includes.length).map (fun i => [i]) ∧
      outside.map Term.indices =
        (List.range' (includes.length + 1) excludes.length).map (fun i => [i]) ∧
      q.select.conditions =
        [.isNotNull (.column c.name)] ++
          (if includes = [] then [] else [.among (.column c.name) inside]) ++
          (if excludes = [] then [] else [.notAmong (.column c.name) outside]) ++
          s.filter.toList.map .configured ∧
      q.select.text =
        "SELECT " ++ (quoted c.name ++ " AS " ++ quoted identityLabel ++ ", " ++
          ("MIN(" ++ (s.dialect.cursorTerm s.increment).text ++ ")" ++ " AS " ++
            quoted minimumLabel)) ++
          " FROM " ++ s.table ++
          " WHERE " ++ " AND ".intercalate (s.minimumClauses c includes.length excludes.length) ++
          (" GROUP BY " ++ quoted c.name) ∧
      ∀ (ρ : Type) (k : Reading ρ) (row : ρ),
        (∀ x ∈ includes ++ excludes, k.isNull (k.asParameter s.dialect c x) = false) →
        (k.Selects q row ↔
          k.isNull (k.column row c.name) = false ∧
          (includes ≠ [] → ∃ x ∈ includes,
            k.meets .equal (k.column row c.name) (k.asParameter s.dialect c x) = true) ∧
          (∀ x ∈ excludes,
            k.meets .equal (k.column row c.name) (k.asParameter s.dialect c x) = false) ∧
          ∀ sql ∈ s.filter, k.configured q.parameters row sql = .yes) := by
  have hq : s.minimums includes excludes = some
      ⟨⟨[⟨.column c.name, identityLabel⟩,
          ⟨.minimum (s.dialect.cursorTerm s.increment), minimumLabel⟩],
        s.table, s.minimumConditions c includes.length excludes.length,
        .grouped (.column c.name)⟩, includes ++ excludes⟩ := by
    rw [minimums, hidentity, Option.map_some]
  refine ⟨_, s.identityParameters c 1 includes.length,
    s.identityParameters c (includes.length + 1) excludes.length, hq, rfl, ?_,
    map_indices_identityParameters .., map_indices_identityParameters .., ?_,
    text_minimums hidentity hq, fun ρ k row hcells => ?_⟩
  · simp [Select.indices, flatMap_indices_minimumConditions, Term.indices, Arrangement.indices]
  · simp only [minimumConditions, staticConditions, List.length_eq_zero_iff, List.append_assoc,
      List.cons_append, List.nil_append]
  · rw [Reading.selects_iff]
    exact truth_minimumConditions_iff hcells

end Selection

namespace Selecting

open Sql

variable (columns : List StoredColumn) (configured : List Cell → List Stored → String → Truth)

/-- The rules by which a row of a stored table is read; what configured SQL means is told. -/
def reading : Reading (List Stored) where
  Value := Stored × Option Affinity
  isNull v := v.1 == .null
  meets comparison v w :=
    let adaptedValues := adapted v.2 w.2 v.1 w.1
    meets comparison (ordering adaptedValues.1 adaptedValues.2)
  column row name :=
    ((StoredTable.columnValue columns row name).map fun v => (v.1, some v.2)).getD (.null, none)
  parameter cell := (Stored.ofCell cell, none)
  castParameter cell _ := (Stored.ofCell cell, none)
  other parameters row term :=
    ((value ⟨parameters.map Stored.ofCell, columns, row⟩ term).getD .null, none)
  configured := configured

variable {columns configured} {parameters : List Cell} {row : List Stored}

/-- A number in a text stays a value when it is read. -/
lemma numberOf_ne_null (text : String) : Affinity.numberOf text ≠ .null := by
  simp only [Affinity.numberOf, Affinity.integral]
  split
  · simp
  · split_ifs
    · simp
    · split
      · split_ifs <;> simp
      · simp

/-- What is not NULL is compared as a value that is not NULL. -/
lemma adapt_eq_null_iff (a : Affinity) (v : Stored) : a.adapt v = .null ↔ v = .null := by
  cases v with
  | text s => cases a <;> simp [Affinity.adapt, Affinity.isNumeric, numberOf_ne_null]
  | _ => cases a <;> simp [Affinity.adapt]

lemma adapted_eq_null_iff (left right : Option Affinity) (a b : Stored) :
    (adapted left right a b).1 = .null ∨ (adapted left right a b).2 = .null ↔
      a = .null ∨ b = .null := by
  cases left with
  | none => cases right <;> simp [adapted, adapt_eq_null_iff]
  | some x =>
    cases right with
    | none => simp [adapted, adapt_eq_null_iff]
    | some y =>
      simp only [adapted]
      split_ifs <;> simp [adapt_eq_null_iff]

/-- Two values are in an order exactly if none of them is NULL. -/
lemma ordering_adapted_eq_none_iff (left right : Option Affinity) (a b : Stored) :
    ordering (adapted left right a b).1 (adapted left right a b).2 = none ↔
      a = .null ∨ b = .null := by
  rw [← adapted_eq_null_iff left right a b, ordering]
  split_ifs with h
  · simpa using h
  · simpa using h

/-- The truth of a comparison of values in an order; they are in none when one of them is NULL. -/
def truthOf (comparison : Comparison) (order : Option Ordering) : Truth :=
  if order.isSome then .ofBool (meets comparison order) else .unknown

/-- The value of an expression is the one that it has in a stored table. -/
lemma reading_value {term : Term} {v : Stored}
    (hvalue : value ⟨parameters.map Stored.ofCell, columns, row⟩ term = some v) :
    (reading columns configured).value parameters row term =
      (v, affinity ⟨parameters.map Stored.ofCell, columns, row⟩ term) := by
  have hbound : ∀ index,
      Stored.ofCell (Reading.bound parameters index) =
        Scope.parameter ⟨parameters.map Stored.ofCell, columns, row⟩ index := by
    intro index
    rw [Reading.bound, Scope.parameter, List.getElem?_map]
    cases parameters[index - 1]? with
    | none => rfl
    | some cell => rfl
  cases term with
  | column name =>
    obtain ⟨a, ha⟩ : ∃ a, StoredTable.columnValue columns row name = some (v, a) := by
      simpa [value, Scope.column] using hvalue
    simp [Reading.value, reading, affinity, Scope.column, ha]
  | parameter index =>
    obtain rfl : _ = v := by simpa [value] using hvalue
    simp [Reading.value, reading, affinity, hbound]
  | castParameter index type =>
    obtain rfl : _ = v := by simpa [value] using hvalue
    simp [Reading.value, reading, affinity, hbound]
  | _ => simp [Reading.value, reading, affinity, hvalue]

/-- Two expressions compare as they do in a stored table. -/
lemma reading_compared {comparison : Comparison} {left right : Term} {order : Option Ordering}
    (horder : compareTerms ⟨parameters.map Stored.ofCell, columns, row⟩ left right = some order) :
    (reading columns configured).compared comparison
        ((reading columns configured).value parameters row left)
        ((reading columns configured).value parameters row right) =
      truthOf comparison order := by
  simp only [compareTerms, Option.bind_eq_bind, Option.bind_eq_some_iff, Option.pure_def,
    Option.some.injEq] at horder
  obtain ⟨a, ha, b, hb, rfl⟩ := horder
  rw [reading_value ha, reading_value hb]
  simp only [Reading.compared, truthOf, Option.isSome_iff_ne_none, ne_eq,
    ordering_adapted_eq_none_iff]
  by_cases h : a = .null ∨ b = .null
  · rw [if_pos (by simpa [reading] using h), if_neg (not_not_intro h)]
  · rw [if_neg (by simpa [reading] using h), if_pos h]
    rfl

/-- The comparisons of a list have the truth that a stored table finds. -/
lemma map_reading_compared {term : Term} {list : List Term} {orders : List (Option Ordering)}
    (horders : list.mapM (compareTerms ⟨parameters.map Stored.ofCell, columns, row⟩ term) =
      some orders) :
    (list.map fun t => (reading columns configured).compared .equal
        ((reading columns configured).value parameters row term)
        ((reading columns configured).value parameters row t)) =
      orders.map (truthOf .equal) := by
  have hmap := mapM_eq_some_iff.1 horders
  have hlength : list.length = orders.length := by simpa using congrArg List.length hmap
  refine List.ext_getElem (by simpa using hlength) fun i hi _ => ?_
  rw [List.length_map] at hi
  have horder : compareTerms ⟨parameters.map Stored.ofCell, columns, row⟩ term list[i] =
      some orders[i] := by
    have h := List.getElem_of_eq hmap (by simpa using hi)
    rwa [List.getElem_map, List.getElem_map] at h
  rw [List.getElem_map, List.getElem_map, reading_compared horder]

@[simp] lemma truthOf_equal_eq_yes_iff {order : Option Ordering} :
    truthOf .equal order = .yes ↔ meets .equal order = true := by
  cases order <;> simp [truthOf, meets]

@[simp] lemma truthOf_equal_eq_no_iff {order : Option Ordering} :
    truthOf .equal order = .no ↔ order.isSome = true ∧ meets .equal order = false := by
  cases order <;> simp [truthOf, meets]

/-- A condition holds by the rules exactly if the row meets it in the stored table. -/
lemma truth_eq_yes_iff {condition : Condition} {met : Bool}
    (hmet : holds ⟨parameters.map Stored.ofCell, columns, row⟩ condition = some met) :
    (reading columns configured).truth parameters row condition = .yes ↔ met = true := by
  cases condition with
  | compare left comparison right =>
    obtain ⟨order, horder, rfl⟩ := Option.map_eq_some_iff.1 hmet
    rw [Reading.truth, reading_compared horder]
    cases order with
    | none => cases comparison <;> simp [truthOf, meets]
    | some order => simp [truthOf]
  | isNotNull term =>
    obtain ⟨v, hv, rfl⟩ := Option.map_eq_some_iff.1 hmet
    rw [Reading.truth, reading_value hv]
    simp [reading]
  | among term list =>
    obtain ⟨orders, horders, rfl⟩ : ∃ orders,
        list.mapM (compareTerms ⟨parameters.map Stored.ofCell, columns, row⟩ term) = some orders ∧
          orders.any (meets .equal) = met := by
      simpa [holds, Option.bind_eq_some_iff] using hmet
    rw [Reading.truth, map_reading_compared horders, Truth.foldr_either_eq_yes_iff]
    simp
  | notAmong term list =>
    obtain ⟨orders, horders, rfl⟩ : ∃ orders,
        list.mapM (compareTerms ⟨parameters.map Stored.ofCell, columns, row⟩ term) = some orders ∧
          (orders.all fun o => o.isSome && !meets .equal o) = met := by
      simpa [holds, Option.bind_eq_some_iff] using hmet
    rw [Reading.truth, map_reading_compared horders, Truth.opposite_eq_yes_iff,
      Truth.foldr_either_eq_no_iff]
    simp
  | configured sql => cases hmet

/-- A stored table selects a row for a query without configured SQL exactly if the query selects it
by the rules. -/
theorem holdsAll_iff {q : Query} {met : Bool}
    (hmet : holdsAll ⟨q.parameters.map Stored.ofCell, columns, row⟩ q.select.conditions =
      some met) :
    (reading columns configured).Selects q row ↔ met = true := by
  obtain ⟨each, heach, rfl⟩ : ∃ each,
      q.select.conditions.mapM (holds ⟨q.parameters.map Stored.ofCell, columns, row⟩) =
        some each ∧ each.all id = met := by
    simpa [holdsAll, Option.bind_eq_some_iff] using hmet
  have hmap := mapM_eq_some_iff.1 heach
  rw [Reading.selects_iff, List.all_eq_true]
  constructor
  · intro hconditions b hb
    obtain ⟨condition, hmem, hholds⟩ := exists_of_mapM heach hb
    exact (truth_eq_yes_iff hholds).1 (hconditions condition hmem)
  · intro hall condition hmem
    obtain ⟨b, hb, hholds⟩ := List.mem_map.1 (hmap ▸ List.mem_map_of_mem hmem)
    exact (truth_eq_yes_iff hholds.symm).2 (hall b hb)

end Selecting

namespace Journal

/-- A journal whose owners are numbers, of which the important entries are read. -/
def important : Selection :=
  ⟨.sqlite, "\"journal\"", [⟨.column "id", "id"⟩, ⟨.column "owner", "owner"⟩],
    ⟨"id", "INTEGER", "INTEGER", .integer, false⟩,
    some ⟨"owner", "INTEGER", "INTEGER", .integer, true⟩, some "id > 4"⟩

/-- The rows of this journal as they are read; entries from the fifth on are important. -/
def importantRows : Sql.Reading (List Stored) :=
  Selecting.reading [⟨"id", "INTEGER", false⟩, ⟨"owner", "INTEGER", true⟩] fun _ row _ =>
    match row with
    | .integer id :: _ => .ofBool (4 < id)
    | _ => .unknown

/-- Of the first three owners without the third, an important entry of the second is selected, but
not one of the third, nor one without owner, nor one that is not important. -/
theorem minimums_lined_up_important :
    ∃ q, important.minimums [.integer 1, .integer 2, .integer 3] [.integer 3] = some q ∧
      q.parameters = [.integer 1, .integer 2, .integer 3, .integer 3] ∧
      q.select.indices = [1, 2, 3, 4] ∧
      importantRows.Selects q [.integer 7, .integer 2] ∧
      ¬ importantRows.Selects q [.integer 7, .integer 3] ∧
      ¬ importantRows.Selects q [.integer 7, .null] ∧
      ¬ importantRows.Selects q [.integer 3, .integer 2] := by
  obtain ⟨q, _, _, hq, hparameters, hindices, -, -, -, -, hselects⟩ :=
    important.minimums_lined_up rfl [.integer 1, .integer 2, .integer 3] [.integer 3]
  have hselects := fun row => hselects (List Stored) importantRows row (by decide)
  refine ⟨q, hq, hparameters, hindices, ?_, ?_, ?_, ?_⟩
  · rw [hselects]
    exact ⟨by decide, fun _ => ⟨.integer 2, by simp, by decide⟩, by decide,
      fun _ _ => show Sql.Truth.ofBool ((4 : Int64) < 7) = .yes by decide⟩
  · rw [hselects]
    exact fun h => absurd (h.2.2.1 (.integer 3) (by simp)) (by decide)
  · rw [hselects]
    exact fun h => absurd h.1 (by decide)
  · rw [hselects]
    exact fun h => absurd (h.2.2.2 "id > 4" rfl)
      (show Sql.Truth.ofBool ((4 : Int64) < 3) ≠ .yes by decide)

end Journal

end TableTail
