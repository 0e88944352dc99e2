import Mathlib.Data.Option.Basic
import TableTail.Proofs.Named.Sorted
import TableTail.Tables.Schema

/-!
# Checked settings

What is known about a table whose settings have passed their checks (`TableSettings.Checked`) and
whose description fits the live schema (`Descriptor.Fitting`). The settings alone rule out that two
columns get one target, that a target is the name of a listed column, and that a column of the
cursor is converted; the schema has all columns that are mentioned, and renames and conversions stay
within the columns that are read.
-/

namespace TableTail

namespace TableSettings

/-- What the checks of a table's settings ensure about its columns. -/
structure Checked (t : TableSettings) : Prop where
  targets : (Named.values t.rename).Nodup
  free : ∀ target ∈ Named.values t.rename, t.collides target = false
  unconverted : ∀ column ∈ t.cursorColumns, Named.has column t.convert = false

/-- Renames without a fault have different targets, none of which was used before. -/
lemma nodup_of_renameFault {used : List String} {renames : Named String}
    (h : renameFault used renames = none) :
    (Named.values renames).Nodup ∧ ∀ target ∈ Named.values renames, target ∉ used := by
  induction renames generalizing used with
  | nil =>
    constructor
    · exact List.nodup_nil
    · intro target htarget
      cases htarget
  | cons entry rest ih =>
    obtain ⟨column, first⟩ := entry
    rw [renameFault] at h
    split at h
    · cases h
    · split at h
      · cases h
      · next hused =>
        obtain ⟨hnodup, hnew⟩ := ih h
        have hfirst : first ∉ Named.values rest := by
          intro hmem
          exact hnew first hmem (List.mem_cons_self ..)
        constructor
        · exact List.nodup_cons.2 ⟨hfirst, hnodup⟩
        · intro target htarget
          rcases List.mem_cons.1 htarget with rfl | hrest
          · simpa using hused
          · intro hold
            exact hnew target hrest (List.mem_cons_of_mem _ hold)

/-- Settings without a fault are checked. -/
theorem checked_of_fault? {t : TableSettings} (h : t.fault? = none) : t.Checked := by
  simp only [fault?, Option.orElse_eq_none, Option.map_eq_none_iff] at h
  obtain ⟨-, -, -, -, -, hrenames, hfree, hconverts, -⟩ := h
  constructor
  · exact (nodup_of_renameFault hrenames).1
  · intro target htarget
    have hnot := List.find?_eq_none.1 hfree target (Named.mem_sortedNames.2 htarget)
    simpa using hnot
  · intro column hcolumn
    have hnot := List.find?_eq_none.1 hconverts column hcolumn
    simpa using hnot

end TableSettings

namespace Descriptor

/-- What is known about a description that fits a schema. -/
structure Fitting (d : Descriptor) (s : Schema) : Prop where
  mentioned : ∀ column ∈ d.mentioned, (s.column? column).isSome = true
  read : ∀ column ∈ Named.names d.renames ++ Named.names d.converts,
    d.isCursorColumn column = true ∨ d.isAccessible column = true
  increment : (s.column? d.cursor.increment).isSome = true
  identity : ∀ column ∈ d.cursor.identity, (s.column? column).isSome = true

/-- A description without a misfit fits. -/
theorem fitting_of_misfit? {d : Descriptor} {s : Schema} (h : d.misfit? s = none) :
    d.Fitting s := by
  simp only [misfit?, Option.orElse_eq_none, Option.map_eq_none_iff] at h
  obtain ⟨hmentioned, hread, hincrement, hidentity⟩ := h
  constructor
  · intro column hcolumn
    have hnot := List.find?_eq_none.1 hmentioned column hcolumn
    simpa [Option.isSome_iff_ne_none] using hnot
  · intro column hcolumn
    have hnone := List.findSome?_eq_none_iff.1 hread column hcolumn
    by_cases hcursor : d.isCursorColumn column = true
    · exact .inl hcursor
    · right
      simpa [hcursor, accessFault?] using hnone
  · by_contra hnone
    rw [Option.not_isSome_iff_eq_none] at hnone
    simp [hnone] at hincrement
  · intro column hcolumn
    rw [Option.mem_def.1 hcolumn] at hidentity
    by_contra hnone
    simp [Option.not_isSome_iff_eq_none.1 hnone] at hidentity

/-- A description of checked settings has their names for the columns. -/
theorem eq_of_ofSettings {t : TableSettings} {d : Descriptor} (h : ofSettings t = .ok d) :
    t.Checked ∧ d.columns = t.columns ∧ d.renames = t.rename ∧ d.converts = t.convert ∧
      d.cursor = t.cursor := by
  unfold ofSettings at h
  split at h
  · cases h
  · next hfault =>
    obtain rfl := Except.ok.inj h
    exact ⟨TableSettings.checked_of_fault? hfault, rfl, rfl, rfl, rfl⟩

end Descriptor

namespace Journal

/-- A table of numbered entries under two names. -/
def numberedEntries (name aliasName : String) : TableSettings :=
  ⟨name, some aliasName, [], [], [], none, none, none,
    ⟨"id", none, none, [], [], [], true⟩⟩

end Journal

end TableTail
