import Mathlib.Data.List.Basic
import TableTail.Proofs.Tail.MarkOrder
import TableTail.Tail.Reader

/-!
# The rows of a unit

A unit is what one scan reads: a whole table, or the rows of one identity. Its rows are kept in the
order of their marks, and a boundary divides them into those that count as read and those that are
still past it (`rowsBetween_append_rowsPast`).

A page is what a scan up to a limit answers: the first rows past a boundary. It moves the boundary
to the mark of its last row (`Reader.afterPage`), and then exactly the page lies between the old
and the new boundary (`rowsBetween_afterPage`) while the rest is past the new one
(`rowsPast_afterPage`). Rows that are appended to the unit do not get between two boundaries any
more (`Reaches.rowsBetween_append`), because they come behind every row that there was.
-/

namespace TableTail

/-- How far a unit has been read: up to a mark, with or without the row at the mark itself. -/
structure Boundary where
  after : Mark
  unread : Bool
  deriving DecidableEq, Repr

/-- The boundary of a partition's progress. -/
def Progress.boundary (p : Progress) : Boundary := ⟨p.after, p.unread⟩

namespace Boundary

/-- Whether a row at a mark counts as read. -/
def covers (b : Boundary) (m : Mark) : Bool :=
  match m.compareMark b.after with
  | .lt => true
  | .eq => !b.unread
  | .gt => false

/-- The boundary behind a row that has been read. -/
def behind (m : Mark) : Boundary := ⟨m, false⟩

/-- What counts as read at one boundary counts as read at the other one too. -/
def NotPast (a b : Boundary) : Prop := ∀ m, a.covers m = true → b.covers m = true

/-- Every boundary is not past itself. -/
lemma NotPast.refl (a : Boundary) : a.NotPast a := fun _ h => h

/-- Boundaries that are not past each other in a row are not past each other at the ends. -/
lemma NotPast.trans {a b c : Boundary} (hab : a.NotPast b) (hbc : b.NotPast c) : a.NotPast c :=
  fun m h => hbc m (hab m h)

/-- What does not count as read at the later of two boundaries does not at the earlier one. -/
lemma NotPast.eq_false {a b : Boundary} (hab : a.NotPast b) {m : Mark} (h : b.covers m = false) :
    a.covers m = false := by
  by_contra ha
  rw [hab m (by simpa using ha)] at h
  cases h

/-- A mark before one that counts as read counts as read. -/
lemma covers_of_isLE {b : Boundary} {m m' : Mark} (hle : (m'.compareMark m).isLE)
    (h : b.covers m = true) : b.covers m' = true := by
  unfold covers at h ⊢
  cases hm : m.compareMark b.after with
  | gt => simp [hm] at h
  | lt =>
    rw [@Std.TransCmp.lt_of_isLE_of_lt _ Mark.compareMark _ _ _ _ hle hm]
  | eq =>
    rw [hm] at h
    cases hm' : m'.compareMark m with
    | gt => simp [hm'] at hle
    | lt => rw [@Std.TransCmp.lt_of_lt_of_eq _ Mark.compareMark _ _ _ _ hm' hm]
    | eq =>
      rw [@Std.TransCmp.eq_trans _ Mark.compareMark _ _ _ _ hm' hm]
      exact h

/-- Behind a row exactly the marks up to that row's count as read. -/
lemma covers_behind {m m' : Mark} : (behind m).covers m' = (m'.compareMark m).isLE := by
  unfold covers behind
  cases m'.compareMark m <;> rfl

/-- A boundary is not past the one behind a row that it does not cover. -/
lemma notPast_behind {b : Boundary} {m : Mark} (h : b.covers m = false) : b.NotPast (behind m) := by
  intro m' hm'
  rw [covers_behind]
  by_contra hgt
  have hle : (m.compareMark m').isLE := by
    rw [Mark.compareMark_swap]
    cases hc : m'.compareMark m <;> simp_all
  rw [covers_of_isLE hle hm'] at h
  cases h

end Boundary

namespace Reader

variable (r : Reader)

/-- The mark of a row; rows whose mark cannot be read have none of their own. -/
def rowMark (row : Sql.Row) : Mark := (r.markOf? row).getD default

/-- Rows whose marks can be read, in the strictly ascending order of these marks. -/
structure Ascending (rows : List Sql.Row) : Prop where
  readable : ∀ row ∈ rows, (r.markOf? row).isSome = true
  increasing : rows.Pairwise fun a b => (r.rowMark a).compareMark (r.rowMark b) = .lt

/-- The rows that are still to be read at a boundary. -/
def rowsPast (b : Boundary) (rows : List Sql.Row) : List Sql.Row :=
  rows.filter fun row => !b.covers (r.rowMark row)

/-- The rows that count as read at the second boundary, but not at the first one. -/
def rowsBetween (a b : Boundary) (rows : List Sql.Row) : List Sql.Row :=
  rows.filter fun row => !a.covers (r.rowMark row) && b.covers (r.rowMark row)

/-- The mark of the last row, if there is one. -/
def lastMark? (rows : List Sql.Row) : Option Mark := rows.getLast?.bind r.markOf?

/-- The boundary after a page of rows has been read from it. -/
def afterPage (b : Boundary) (page : List Sql.Row) : Boundary :=
  match r.lastMark? page with
  | some m => Boundary.behind m
  | none => b

/-- A boundary that reading some rows from another one may lead to: the same one, or the one behind
a row that was still to be read. -/
def Reaches (rows : List Sql.Row) (a b : Boundary) : Prop :=
  b = a ∨ ∃ row ∈ rows, a.covers (r.rowMark row) = false ∧ b = Boundary.behind (r.rowMark row)

variable {r} {rows more : List Sql.Row} {a b c : Boundary}

namespace Ascending

/-- The marks of ascending rows are read as they are. -/
lemma markOf?_eq (h : r.Ascending rows) {row : Sql.Row} (hrow : row ∈ rows) :
    r.markOf? row = some (r.rowMark row) := by
  obtain ⟨m, hm⟩ := Option.isSome_iff_exists.1 (h.readable row hrow)
  simp [rowMark, hm]

/-- Some of ascending rows, in their order, are ascending. -/
lemma sublist {some : List Sql.Row} (h : r.Ascending rows) (hs : some.Sublist rows) :
    r.Ascending some :=
  ⟨fun row hrow => h.readable row (hs.subset hrow), h.increasing.sublist hs⟩

/-- A page of ascending rows is ascending. -/
lemma page (h : r.Ascending rows) (a : Boundary) (n : Nat) :
    r.Ascending ((r.rowsPast a rows).take n) :=
  h.sublist ((List.take_sublist _ _).trans List.filter_sublist)

/-- No row occurs twice among ascending ones. -/
lemma nodup (h : r.Ascending rows) : rows.Nodup := by
  refine h.increasing.imp ?_
  rintro x y hxy rfl
  simp at hxy

/-- The last of ascending rows has their last mark. -/
lemma lastMark?_concat {init : List Sql.Row} {row : Sql.Row} (h : r.Ascending (init ++ [row])) :
    r.lastMark? (init ++ [row]) = some (r.rowMark row) := by
  have hrow : r.markOf? row = some (r.rowMark row) := h.markOf?_eq (by simp)
  simp [lastMark?, hrow]

/-- What a scan answers is taken as it is when its rows are ascending. -/
lemma scanned_ok (h : r.Ascending rows) :
    r.scanned (.ok rows) = .ok (rows, r.lastMark? rows) := by
  cases hlast : rows.getLast? with
  | none => simp [scanned, lastMark?, hlast]
  | some row => simp [scanned, lastMark?, hlast, h.markOf?_eq (List.mem_of_getLast? hlast)]

end Ascending

/-- Ascending rows fall into the part that a boundary covers and the part past it. -/
lemma covered_append_rowsPast (h : r.Ascending rows) (b : Boundary) :
    (rows.filter fun row => b.covers (r.rowMark row)) ++ r.rowsPast b rows = rows := by
  unfold rowsPast
  have hclosed := h.increasing
  clear h
  induction rows with
  | nil => rfl
  | cons row rest ih =>
    obtain ⟨hfirst, hrest⟩ := List.pairwise_cons.1 hclosed
    cases hrow : b.covers (r.rowMark row) with
    | true => simp only [hrow, List.filter_cons_of_pos, Bool.not_true, Bool.false_eq_true,
        not_false_eq_true, List.filter_cons_of_neg, List.cons_append, ih hrest]
    | false =>
      have hnone : ∀ row' ∈ rest, b.covers (r.rowMark row') = false := by
        intro row' hrow'
        by_contra hcov
        rw [Bool.not_eq_false] at hcov
        have hle : ((r.rowMark row).compareMark (r.rowMark row')).isLE := by
          rw [hfirst row' hrow']; rfl
        rw [Boundary.covers_of_isLE hle hcov] at hrow
        cases hrow
      have hleft : rest.filter (fun row => b.covers (r.rowMark row)) = [] :=
        List.filter_eq_nil_iff.2 fun row' hrow' => by simp [hnone row' hrow']
      have hright : rest.filter (fun row => !b.covers (r.rowMark row)) = rest :=
        List.filter_eq_self.2 fun row' hrow' => by simp [hnone row' hrow']
      simp [hrow, hleft, hright]

/-- Of the rows past a boundary, those up to a later boundary come first. -/
theorem rowsBetween_append_rowsPast (h : r.Ascending rows) (hab : a.NotPast b) :
    r.rowsBetween a b rows ++ r.rowsPast b rows = r.rowsPast a rows := by
  have hpast : r.Ascending (r.rowsPast a rows) := h.sublist List.filter_sublist
  have hsplit := covered_append_rowsPast hpast b
  rw [← hsplit]
  congr 1
  · simp only [rowsBetween, rowsPast, List.filter_filter, Bool.and_comm]
  · simp only [rowsPast, List.filter_filter]
    refine List.filter_congr fun row _ => ?_
    cases hb : b.covers (r.rowMark row) with
    | true => rfl
    | false =>
      have ha : a.covers (r.rowMark row) = false := hab.eq_false hb
      simp [ha]

/-- No row lies between a boundary and itself. -/
@[simp] lemma rowsBetween_self (a : Boundary) (rows : List Sql.Row) :
    r.rowsBetween a a rows = [] := by
  simp [rowsBetween]

/-- The rows past the later of two boundaries are past the earlier one too. -/
lemma rowsPast_rowsPast (hab : a.NotPast b) :
    r.rowsPast b (r.rowsPast a rows) = r.rowsPast b rows := by
  unfold rowsPast
  rw [List.filter_filter]
  refine List.filter_congr fun row _ => ?_
  cases hb : b.covers (r.rowMark row) with
  | true => rfl
  | false =>
    have ha : a.covers (r.rowMark row) = false := hab.eq_false hb
    simp [ha]

/-- Of ascending rows those past the boundary behind one of them are the ones after it. -/
lemma rowsPast_behind {init rest : List Sql.Row} {row : Sql.Row}
    (h : r.Ascending (init ++ row :: rest)) :
    r.rowsPast (Boundary.behind (r.rowMark row)) (init ++ row :: rest) = rest := by
  obtain ⟨-, hrest, hinit⟩ := List.pairwise_append.1 h.increasing
  obtain ⟨hafter, -⟩ := List.pairwise_cons.1 hrest
  have hleft :
      init.filter (fun x => !(Boundary.behind (r.rowMark row)).covers (r.rowMark x)) = [] :=
    List.filter_eq_nil_iff.2 fun x hx => by
      simp [Boundary.covers_behind, hinit x hx row (by simp)]
  have hright :
      rest.filter (fun x => !(Boundary.behind (r.rowMark row)).covers (r.rowMark x)) = rest :=
    List.filter_eq_self.2 fun x hx => by
      rw [Boundary.covers_behind, Mark.compareMark_swap, hafter x hx]
      rfl
  unfold rowsPast
  rw [List.filter_append, List.filter_cons, hleft, hright]
  simp [Boundary.covers_behind]

namespace Reaches

/-- A boundary leads to itself. -/
@[refl] lemma refl (rows : List Sql.Row) (a : Boundary) : r.Reaches rows a a := .inl rfl

/-- Where reading leads to is not before where it began. -/
lemma notPast (h : r.Reaches rows a b) : a.NotPast b := by
  obtain rfl | ⟨row, -, hpast, rfl⟩ := h
  · exact .refl _
  · exact Boundary.notPast_behind hpast

/-- Reading on leads on. -/
lemma trans (hab : r.Reaches rows a b) (hbc : r.Reaches rows b c) : r.Reaches rows a c := by
  obtain rfl | ⟨row, hrow, hpast, rfl⟩ := hbc
  · exact hab
  · exact .inr ⟨row, hrow, hab.notPast.eq_false hpast, rfl⟩

/-- Rows that are appended do not matter to where reading has led. -/
lemma append (h : r.Reaches rows a b) (more : List Sql.Row) : r.Reaches (rows ++ more) a b := by
  obtain rfl | ⟨row, hrow, hpast, rfl⟩ := h
  · exact .refl _ _
  · exact .inr ⟨row, List.mem_append_left _ hrow, hpast, rfl⟩

/-- Rows that are appended do not get between two boundaries that were there before. -/
lemma rowsBetween_append (h : r.Reaches rows a b) (hasc : r.Ascending (rows ++ more)) :
    r.rowsBetween a b (rows ++ more) = r.rowsBetween a b rows := by
  obtain rfl | ⟨row, hrow, -, rfl⟩ := h
  · simp
  · obtain ⟨-, -, hbefore⟩ := List.pairwise_append.1 hasc.increasing
    have hnone : r.rowsBetween a (Boundary.behind (r.rowMark row)) more = [] :=
      List.filter_eq_nil_iff.2 fun x hx => by
        rw [Boundary.covers_behind, Mark.compareMark_swap, hbefore row hrow x hx]
        simp
    unfold rowsBetween at hnone ⊢
    rw [List.filter_append, hnone, List.append_nil]

/-- What lies between three boundaries in a row lies between the first two or the last two. -/
lemma rowsBetween_append_rowsBetween (hasc : r.Ascending rows) (hab : r.Reaches rows a b)
    (hbc : r.Reaches rows b c) :
    r.rowsBetween a b rows ++ r.rowsBetween b c rows = r.rowsBetween a c rows := by
  have hrest : r.rowsBetween a b rows ++ r.rowsBetween b c rows ++ r.rowsPast c rows =
      r.rowsBetween a c rows ++ r.rowsPast c rows := by
    rw [List.append_assoc, rowsBetween_append_rowsPast hasc hbc.notPast,
      rowsBetween_append_rowsPast hasc hab.notPast,
      rowsBetween_append_rowsPast hasc (hab.trans hbc).notPast]
  exact List.append_cancel_right hrest

/-- Where no row was passed, the boundary has not moved. -/
lemma eq_of_rowsBetween_eq_nil (h : r.Reaches rows a b) (hnone : r.rowsBetween a b rows = []) :
    b = a := by
  obtain rfl | ⟨row, hrow, hpast, rfl⟩ := h
  · rfl
  · have := List.filter_eq_nil_iff.1 hnone row hrow
    simp [hpast, Boundary.covers_behind] at this

end Reaches

section Page

variable (a : Boundary) (n : Nat)

/-- A page is empty, or it ends in a row that was past the boundary and is its new place. -/
lemma page_cases (hasc : r.Ascending rows) :
    (r.rowsPast a rows).take n = [] ∧ r.afterPage a ((r.rowsPast a rows).take n) = a ∨
    ∃ init row, (r.rowsPast a rows).take n = init ++ [row] ∧ row ∈ rows ∧
      a.covers (r.rowMark row) = false ∧
      r.afterPage a ((r.rowsPast a rows).take n) = Boundary.behind (r.rowMark row) := by
  rcases List.eq_nil_or_concat' ((r.rowsPast a rows).take n) with hnil | ⟨init, row, hpage⟩
  · exact .inl ⟨hnil, by rw [hnil]; rfl⟩
  · have hrow : row ∈ r.rowsPast a rows := List.mem_of_mem_take (by rw [hpage]; simp)
    obtain ⟨hmem, hpast⟩ := List.mem_filter.1 hrow
    have hlast : r.lastMark? (init ++ [row]) = some (r.rowMark row) :=
      Ascending.lastMark?_concat (hpage ▸ hasc.page a n)
    exact .inr ⟨init, row, hpage, hmem, by simpa using hpast, by simp [afterPage, hpage, hlast]⟩

/-- A page leads to the boundary at its end. -/
lemma reaches_afterPage (hasc : r.Ascending rows) :
    r.Reaches rows a (r.afterPage a ((r.rowsPast a rows).take n)) := by
  obtain ⟨-, hafter⟩ | ⟨-, row, -, hrow, hpast, hafter⟩ := page_cases a n hasc
  · rw [hafter]
  · exact .inr ⟨row, hrow, hpast, hafter⟩

/-- After a page the rows behind it are still to be read. -/
theorem rowsPast_afterPage (hasc : r.Ascending rows) :
    r.rowsPast (r.afterPage a ((r.rowsPast a rows).take n)) rows = (r.rowsPast a rows).drop n := by
  have hsplit := List.take_append_drop n (r.rowsPast a rows)
  obtain ⟨hnil, hafter⟩ | ⟨init, row, hpage, -, hpast, hafter⟩ := page_cases a n hasc
  · rw [hafter]
    rw [hnil, List.nil_append] at hsplit
    exact hsplit.symm
  · have hall : r.Ascending (r.rowsPast a rows) := hasc.sublist List.filter_sublist
    rw [hpage, List.append_assoc, List.singleton_append] at hsplit
    rw [← hsplit] at hall
    calc r.rowsPast (r.afterPage a ((r.rowsPast a rows).take n)) rows
        = r.rowsPast (Boundary.behind (r.rowMark row)) (r.rowsPast a rows) := by
          rw [hafter, rowsPast_rowsPast (Boundary.notPast_behind hpast)]
      _ = r.rowsPast (Boundary.behind (r.rowMark row))
            (init ++ row :: (r.rowsPast a rows).drop n) := by rw [hsplit]
      _ = (r.rowsPast a rows).drop n := rowsPast_behind hall

/-- A page is what lies between the boundaries before and after it. -/
theorem rowsBetween_afterPage (hasc : r.Ascending rows) :
    r.rowsBetween a (r.afterPage a ((r.rowsPast a rows).take n)) rows =
      (r.rowsPast a rows).take n := by
  have hsplit := rowsBetween_append_rowsPast hasc (reaches_afterPage a n hasc).notPast
  rw [rowsPast_afterPage a n hasc] at hsplit
  exact List.append_cancel_right (hsplit.trans (List.take_append_drop n _).symm)

end Page

end Reader

end TableTail
