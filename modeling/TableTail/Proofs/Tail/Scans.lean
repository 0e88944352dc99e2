import TableTail.Proofs.Tail.Units

/-!
# What scans select

A database that keeps the order of marks on the increment column is described by the rows of each
unit, in that order: to a scan it answers those rows of the scan's unit that meet the scan's
conditions, up to its limit (`Reader.select`). The statement is taken at its word: which unit it is
about, which mark its rows are compared with, and whether the row at the mark counts, is read off
its conditions and its parameters. That this is the next page of the unit is a theorem
(`select_scanOf`).
-/

namespace TableTail

/-- The index of the parameter in an expression, if it has one. -/
def Sql.Term.parameter? : Sql.Term → Option Nat
  | .parameter index => some index
  | .castParameter index _ => some index
  | .instant value => value.parameter?
  | .unixInstant seconds => seconds.parameter?
  | .byStorage _ ifInteger _ => ifInteger.parameter?
  | .minimum value => value.parameter?
  | .column _ => none
  | .configured _ => none

/-- The cell that is bound to the parameter in an expression. -/
def Sql.Query.bound? (q : Sql.Query) (t : Sql.Term) : Option Sql.Cell :=
  t.parameter?.bind fun index => q.parameters[index - 1]?

/-- The identity that a scan is about; a scan of a whole table is about none. -/
def Sql.Query.identity? (q : Sql.Query) : Option Sql.Cell :=
  q.select.conditions.findSome? fun
    | .compare _ .equal right => q.bound? right
    | _ => none

/-- The mark that a bound cell stands for. -/
def Mark.ofBound? : Sql.Cell → Option Mark
  | .integer i => some (.integer i)
  | .decimal d => some (.decimal d)
  | .text s => some (.text s)
  | .timestamp t => some (.timestamp t)
  | _ => none

/-- A mark is bound as a cell that stands for it. -/
@[simp] lemma Mark.ofBound?_toCell (m : Mark) : Mark.ofBound? m.toCell = some m := by
  cases m <;> rfl

/-- Whether a comparison is met by two marks. -/
def Sql.Comparison.meets : Sql.Comparison → Mark → Mark → Bool
  | .equal, a, b => a.compareMark b == .eq
  | .above, a, b => (a.compareMark b).isGT
  | .atLeast, a, b => (a.compareMark b).isGE

/-- Whether a query selects rows in order, as scans do. -/
def Sql.Query.IsScan (q : Sql.Query) : Prop :=
  ∃ key limit, q.select.arrangement = .ordered key limit

namespace Reader

variable (r : Reader)

/-- Whether a row of a scan's unit meets a condition of the scan. A condition that compares the
cursor's expression with a bound mark is about the row's own mark; the conditions that select the
unit are met by all its rows. -/
def admits (q : Sql.Query) (row : Sql.Row) : Sql.Condition → Bool
  | .compare left comparison right =>
    comparison == .equal ||
      left == r.selection.dialect.cursorTerm r.selection.increment &&
        ((q.bound? right).bind Mark.ofBound?).any fun m => comparison.meets (r.rowMark row) m
  | _ => true

/-- The rows that a scan selects, given the rows of each unit in their order. -/
def select (content : Option Sql.Cell → List Sql.Row) (q : Sql.Query) : List Sql.Row :=
  match q.select.arrangement with
  | .ordered _ limit =>
    ((content q.identity?).filter fun row => q.select.conditions.all (r.admits q row)).take limit
  | .grouped _ => []

/-- The scan of a unit. -/
def scanOf (limit : Nat) (u : TableUnit) : Sql.Query :=
  match u.key with
  | none => r.selection.singleScan u.progress.after.toCell limit
  | some param =>
    r.selection.partitionScan param u.progress.after.toCell u.progress.unread limit

/-- A unit as the reader's table has it: one without a key in a table that is read as a whole, and
there the row at the mark has always been read. -/
structure Fits (u : TableUnit) : Prop where
  key : u.key.isSome = r.isPartitioned
  name : u.name.isSome = u.key.isSome
  read : u.key = none → u.progress.unread = false

variable {r}

/-- A scan selects rows in order. -/
lemma isScan_scanOf (limit : Nat) (u : TableUnit) : (r.scanOf limit u).IsScan := by
  unfold scanOf
  cases u.key <;> exact ⟨_, _, rfl⟩

/-- The parameter that is compared with an identity has the index that it was given. -/
@[simp] lemma parameter?_placeholder (d : Sql.Dialect) (index : Nat) (c : Sql.Column) :
    (d.placeholder index c).parameter? = some index := by
  cases d <;> rfl

/-- The parameter that is compared with a cursor's column has the index that it was given. -/
@[simp] lemma parameter?_cursorPlaceholder (d : Sql.Dialect) (index : Nat) (c : Sql.Column) :
    (d.cursorPlaceholder index c).parameter? = some index := by
  cases d with
  | postgres => rfl
  | sqlite =>
    simp only [Sql.Dialect.cursorPlaceholder]
    split <;> rfl

/-- The condition on the identity is met by all rows of a unit. -/
@[simp] lemma admits_equal (q : Sql.Query) (row : Sql.Row) (left right : Sql.Term) :
    r.admits q row (.compare left .equal right) = true := rfl

/-- The configured condition is met by all rows of a unit. -/
@[simp] lemma all_admits_staticConditions (q : Sql.Query) (row : Sql.Row) :
    r.selection.staticConditions.all (r.admits q row) = true := by
  simp [Selection.staticConditions, admits]

/-- The configured condition does not name an identity. -/
@[simp] lemma findSome?_staticConditions (q : Sql.Query) :
    r.selection.staticConditions.findSome? (fun
      | .compare _ .equal right => q.bound? right
      | _ => none) = none := by
  simp [Selection.staticConditions]

/-- The condition on the cursor's column compares a row with the mark that is bound. -/
lemma admits_pastParameter {q : Sql.Query} (index : Nat) {comparison : Sql.Comparison} {m : Mark}
    (hbound : q.parameters[index - 1]? = some m.toCell) (hc : comparison ≠ .equal)
    (row : Sql.Row) :
    r.admits q row (r.selection.pastParameter index comparison) =
      comparison.meets (r.rowMark row) m := by
  simp [admits, Selection.pastParameter, Sql.Query.bound?, hbound, hc]

/-- The rows past a boundary are those behind its mark, and the one at it when it is unread. -/
lemma not_covers (b : Boundary) (m : Mark) :
    (!b.covers m) = Sql.Comparison.meets (if b.unread then .atLeast else .above) m b.after := by
  unfold Boundary.covers
  cases hunread : b.unread <;>
    cases hc : m.compareMark b.after <;> simp [Sql.Comparison.meets, hc]

/-- A scan whose conditions are met by the rows past a boundary selects a page of them. -/
lemma select_eq_rowsPast {content : Option Sql.Cell → List Sql.Row} {q : Sql.Query}
    {key : Sql.Term} {limit : Nat} {b : Boundary} {identity : Option Sql.Cell}
    (harranged : q.select.arrangement = .ordered key limit) (hidentity : q.identity? = identity)
    (hmet : ∀ row, q.select.conditions.all (r.admits q row) = !b.covers (r.rowMark row)) :
    r.select content q = (r.rowsPast b (content identity)).take limit := by
  simp only [select, harranged, hidentity, hmet, rowsPast]

/-- A scan of a unit selects the next page of its rows. -/
theorem select_scanOf (content : Option Sql.Cell → List Sql.Row) (limit : Nat) {u : TableUnit}
    (hu : r.Fits u) :
    r.select content (r.scanOf limit u) =
      (r.rowsPast u.boundary (content u.key)).take limit := by
  unfold scanOf
  cases hkey : u.key with
  | none =>
    have hread : u.progress.unread = false := hu.read hkey
    refine select_eq_rowsPast rfl ?_ fun row => ?_
    · simp [Sql.Query.identity?, Selection.singleScan, Selection.scan, Selection.pastParameter]
    · have hpast : r.admits (r.selection.singleScan u.progress.after.toCell limit) row
          (r.selection.pastParameter 1 .above) =
            Sql.Comparison.meets .above (r.rowMark row) u.progress.after :=
        admits_pastParameter 1 rfl (by decide) row
      rw [not_covers, TableUnit.boundary_unread, hread]
      simpa [Selection.singleScan, Selection.scan] using hpast
  | some param =>
    have hmode : r.selection.identity.isSome = true := by
      have := hu.key
      rw [hkey] at this
      exact this.symm
    obtain ⟨identity, hidentity⟩ := Option.isSome_iff_exists.1 hmode
    refine select_eq_rowsPast rfl ?_ fun row => ?_
    · simp [Sql.Query.identity?, Selection.partitionScan, Selection.scan, Selection.ofIdentity,
        hidentity, Sql.Query.bound?]
    · have hpast : ∀ comparison ≠ Sql.Comparison.equal,
          r.admits (r.selection.partitionScan param u.progress.after.toCell u.progress.unread limit)
              row (r.selection.pastParameter 2 comparison) =
            comparison.meets (r.rowMark row) u.progress.after :=
        fun _ hc => admits_pastParameter 2 rfl hc row
      rw [not_covers]
      cases hunread : u.progress.unread <;> rw [hunread] at hpast
      · simpa [Selection.partitionScan, Selection.scan, Selection.ofIdentity, hidentity, hunread]
          using hpast .above (by decide)
      · simpa [Selection.partitionScan, Selection.scan, Selection.ofIdentity, hidentity, hunread]
          using hpast .atLeast (by decide)

end Reader

namespace Cursor

/-- The units of a cursor are as its mode wants them. -/
lemma fits {c : Cursor} {r : Reader} (hmode : c.isPartitioned = r.isPartitioned) {u : TableUnit}
    (hu : u ∈ c.units) : r.Fits u := by
  cases c with
  | single after idle =>
    obtain rfl : u = _ := List.mem_singleton.1 hu
    exact ⟨hmode, rfl, fun _ => rfl⟩
  | partitioned ps =>
    obtain ⟨p, -, rfl⟩ := List.mem_map.1 hu
    exact ⟨hmode, rfl, fun h => nomatch h⟩

end Cursor

end TableTail
