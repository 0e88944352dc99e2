import Mathlib.Data.String.Basic
import TableTail.Stored.Database
import TableTail.Tail.Identity

/-!
# How a database compares identities

Which cells a column of identities may hold, and which of them a parameter is equal to, differs from
database to database and from column to column (`Collation`). In SQLite this is what the condition
of a scan says (`Selection.collation`); there equal cells of a text column are the same, and every
identity is spelled as the column spells it (`Selection.exact_of_text`, `Selection.spells_of_text`).
-/

namespace TableTail

/-- How a database compares a column: the cells that the column may hold, and which of them a
parameter is equal to. NULL is equal to nothing and left out. -/
structure Collation where
  held : Sql.Cell → Prop
  equal : Sql.Cell → Sql.Cell → Prop
  ne_null : ∀ {cell}, held cell → cell ≠ .null
  equal_self : ∀ {cell}, held cell → equal cell cell

namespace Collation

/-- Rows that the database may answer to a minimum query: one for each group of equal cells. -/
structure Answers (k : Collation) (rows : List Sql.Row) : Prop where
  held : ∀ row ∈ rows, ∀ identity cell, identityOf? row = some (identity, cell) → k.held cell
  distinct : rows.Pairwise fun a b => ∀ g ∈ identityOf? a, ∀ h ∈ identityOf? b, ¬ k.equal g.2 h.2

/-- Equal cells of the column have one text. -/
def Exact (k : Collation) : Prop :=
  ∀ a b, k.held a → k.held b → k.equal a b → a.text? = b.text?

/-- The identity is spelled as the database spells it: what its text is read as is equal to cells
with this text only. -/
def Spells (k : Collation) (column : Sql.Column) (identity : String) : Prop :=
  ∀ cell, k.held cell → k.equal (identityCell column identity) cell → cell.text? = some identity

variable {k : Collation}

/-- A cell of the column has a text. -/
lemma exists_text {cell : Sql.Cell} (h : k.held cell) : ∃ s, cell.text? = some s := by
  have hnull := k.ne_null h
  cases cell <;> simp_all [Sql.Cell.text?]

end Collation

/-- A value that compares as equal to one that is no number is this value. -/
lemma Stored.eq_of_compareStored {v w : Stored} (hw : w.rank ≠ 1) (h : v.compareStored w = .eq) :
    v = w := by
  cases v <;> cases w <;> simp_all [compareStored, rank]

/-- A column of texts compares no parameter as a number. -/
lemma Affinity.rank_adapt_text (v : Stored) : (Affinity.text.adapt v).rank ≠ 1 := by
  cases v <;> simp [adapt, Stored.rank, isNumeric]

namespace Selection

/-- Whether SQLite selects a cell of the identity column for a parameter: by the condition that the
scan of a partition sets on this column. -/
def selects (s : Selection) (column : StoredColumn) (param cell : Sql.Cell) : Prop :=
  Selecting.holdsAll ⟨[Stored.ofCell param], [column], [Stored.ofCell cell]⟩ s.ofIdentity =
    some true

/-- How SQLite compares the identity column of a selection, which may hold what it keeps as it
is. -/
def collation (s : Selection) (column : StoredColumn) : Collation where
  held cell := cell ≠ .null ∧
    (∃ v : Stored, (Affinity.ofDeclared column.declared).store v = v ∧ cell = v.toCell) ∧
    s.selects column cell cell
  equal := s.selects column
  ne_null h := h.1
  equal_self h := h.2.2

variable {s : Selection} {column : StoredColumn} {identity : Sql.Column} {param cell : Sql.Cell}

section

variable (hdialect : s.dialect = .sqlite) (hidentity : s.identity = some identity)
  (hname : StoredTable.foldName column.name = StoredTable.foldName identity.name)
include hdialect hidentity hname

/-- The condition compares the cell with the parameter, which is converted towards the column. -/
lemma selects_iff :
    s.selects column param cell ↔ Selecting.ordering (Stored.ofCell cell)
      ((Affinity.ofDeclared column.declared).adapt (Stored.ofCell param)) = some .eq := by
  have hterms : Selecting.compareTerms ⟨[Stored.ofCell param], [column], [Stored.ofCell cell]⟩
      (.column identity.name) (.parameter 1) = some (Selecting.ordering (Stored.ofCell cell)
        ((Affinity.ofDeclared column.declared).adapt (Stored.ofCell param))) := by
    simp [Selecting.compareTerms, Selecting.value, Selecting.affinity, Selecting.Scope.column,
      StoredTable.columnValue, hname, Selecting.Scope.parameter, Selecting.adapted]
  have hholds : Selecting.holdsAll ⟨[Stored.ofCell param], [column], [Stored.ofCell cell]⟩
      s.ofIdentity = some (Selecting.meets .equal (Selecting.ordering (Stored.ofCell cell)
        ((Affinity.ofDeclared column.declared).adapt (Stored.ofCell param)))) := by
    simp [ofIdentity, hidentity, hdialect, Sql.Dialect.placeholder, Selecting.holdsAll,
      Selecting.holds, hterms]
  rw [selects, hholds, Option.some.injEq]
  cases Selecting.ordering (Stored.ofCell cell)
      ((Affinity.ofDeclared column.declared).adapt (Stored.ofCell param)) with
  | none => simp [Selecting.meets]
  | some o => simp [Selecting.meets]

variable (haffinity : Affinity.ofDeclared column.declared = .text)
include haffinity

/-- A parameter selects the cells of a text column that have its value. -/
lemma ofCell_eq_of_selects (h : s.selects column param cell) :
    Stored.ofCell cell ≠ .null ∧
      Stored.ofCell cell = Affinity.text.adapt (Stored.ofCell param) := by
  rw [selects_iff hdialect hidentity hname, haffinity, Selecting.ordering] at h
  split at h
  · cases h
  · next hnull =>
    exact ⟨fun hcell => hnull (.inl hcell),
      Stored.eq_of_compareStored (Affinity.rank_adapt_text _) (Option.some.inj h)⟩

/-- A text column holds texts and blobs. -/
lemma held_of_text (h : (s.collation column).held cell) :
    (∃ t, cell = .text t) ∨ ∃ bytes, cell = .bytes bytes := by
  obtain ⟨hnull, ⟨v, -, rfl⟩, hself⟩ := h
  obtain ⟨hstored, heq⟩ := ofCell_eq_of_selects hdialect hidentity hname haffinity hself
  have hrank := Affinity.rank_adapt_text (Stored.ofCell v.toCell)
  rw [← heq] at hrank
  cases v with
  | null => exact absurd rfl hnull
  | integer i => exact absurd rfl hrank
  | real x =>
    simp only [Stored.toCell, Stored.ofCell, Stored.ofReal] at hstored hrank
    split at hrank
    · next hnan => exact absurd (if_pos hnan) hstored
    · exact absurd rfl hrank
  | text t => exact .inl ⟨t, rfl⟩
  | blob bytes => exact .inr ⟨bytes, rfl⟩

/-- Equal cells of a text column have one text. -/
theorem exact_of_text : (s.collation column).Exact := by
  intro a b ha hb h
  obtain ⟨-, heq⟩ := ofCell_eq_of_selects hdialect hidentity hname haffinity h
  obtain ⟨t, rfl⟩ | ⟨bytes, rfl⟩ := held_of_text hdialect hidentity hname haffinity ha <;>
    obtain ⟨t', rfl⟩ | ⟨bytes', rfl⟩ := held_of_text hdialect hidentity hname haffinity hb <;>
    simp_all [Stored.ofCell, Affinity.adapt, Affinity.isNumeric]

/-- A text column spells every identity as it is spelled. -/
theorem spells_of_text (hinteger : identity.kind ≠ .integer) (hdecimal : identity.kind ≠ .decimal)
    (name : String) : (s.collation column).Spells identity name := by
  intro cell hcell h
  have hread : identityCell identity name = .text name := by
    unfold identityCell
    split <;> simp_all
  obtain ⟨-, heq⟩ := ofCell_eq_of_selects hdialect hidentity hname haffinity (hread ▸ h)
  obtain ⟨t, rfl⟩ | ⟨bytes, rfl⟩ := held_of_text hdialect hidentity hname haffinity hcell
  · simpa [Sql.Cell.text?, Stored.ofCell, Affinity.adapt, Affinity.isNumeric] using heq
  · simp [Stored.ofCell, Affinity.adapt, Affinity.isNumeric] at heq

end

end Selection

end TableTail
