import Mathlib.Data.List.Basic
import Mathlib.Data.Option.Basic

/-!
# Lists with results

A list has a list of results if each of its entries has one (`mapM_eq_some_iff`), and a fold has a
result if each of its steps has. What is between the separators of a list is all of it but for the
separators.
-/

namespace TableTail

section Results

variable {α β : Type} {l : List α}

/-- All entries of a list have results exactly if these are the list of results. -/
lemma mapM_eq_some_iff {f : α → Option β} {results : List β} :
    l.mapM f = some results ↔ l.map f = results.map some := by
  induction l generalizing results with
  | nil => cases results <;> simp
  | cons a rest ih =>
    rw [List.mapM_cons, List.map_cons]
    cases hfirst : f a with
    | none => cases results <;> simp
    | some b =>
      cases hrest : rest.mapM f with
      | none =>
        have hnot : ∀ others : List β, rest.map f ≠ others.map some := by
          intro others heq
          rw [ih.2 heq] at hrest
          cases hrest
        cases results with
        | nil => simp
        | cons b' others => simp [hnot others]
      | some others =>
        have hothers := ih.1 hrest
        have hinjective := List.map_injective_iff.2 (Option.some_injective β)
        cases results with
        | nil => simp
        | cons b' others' => simp [hothers, hinjective.eq_iff]

/-- A result is that of an entry. -/
lemma exists_of_mapM {f : α → Option β} {results : List β} (h : l.mapM f = some results) {b : β}
    (hb : b ∈ results) : ∃ a ∈ l, f a = some b := by
  have hin : some b ∈ l.map f := by
    rw [mapM_eq_some_iff.1 h]
    exact List.mem_map_of_mem hb
  exact List.mem_map.1 hin

/-- An entry has a result. -/
lemma isSome_of_mapM {f : α → Option β} (h : (l.mapM f).isSome = true) :
    ∀ a ∈ l, (f a).isSome = true := by
  intro a ha
  obtain ⟨results, hresults⟩ := Option.isSome_iff_exists.1 h
  have hin : f a ∈ results.map some := by
    rw [← mapM_eq_some_iff.1 hresults]
    exact List.mem_map_of_mem ha
  obtain ⟨b, -, hb⟩ := List.mem_map.1 hin
  rw [← hb]
  rfl

/-- A step of a fold has a result. -/
lemma exists_isSome_of_foldlM {f : β → α → Option β} {b : β} (h : (l.foldlM f b).isSome = true) :
    ∀ a ∈ l, ∃ b, (f b a).isSome = true := by
  induction l generalizing b with
  | nil => exact fun a ha => nomatch ha
  | cons first rest ih =>
    rw [List.foldlM_cons] at h
    cases hfirst : f b first with
    | none => simp [hfirst] at h
    | some b' =>
      rw [List.forall_mem_cons]
      exact ⟨⟨b, by rw [hfirst]; rfl⟩, ih (by simpa [hfirst] using h)⟩

end Results

/-- What is no separator is in a part between separators. -/
lemma exists_mem_splitOn {α : Type} [DecidableEq α] {l : List α} {a x : α} (ha : a ∈ l)
    (hne : a ≠ x) : ∃ part ∈ l.splitOn x, a ∈ part := by
  induction l with
  | nil => cases ha
  | cons first rest ih =>
    rw [List.splitOn_cons_eq_if_modifyHead]
    split
    · next hfirst =>
      have hrest : a ∈ rest := by
        rcases List.mem_cons.1 ha with rfl | hrest
        · exact absurd (eq_of_beq hfirst) hne
        · exact hrest
      obtain ⟨part, hpart, hmem⟩ := ih hrest
      exact ⟨part, List.mem_cons_of_mem _ hpart, hmem⟩
    · cases hsplit : rest.splitOn x with
      | nil => exact absurd hsplit (List.splitOn_ne_nil x rest)
      | cons part more =>
        rw [hsplit] at ih
        rcases List.mem_cons.1 ha with rfl | hrest
        · exact ⟨a :: part, by simp, by simp⟩
        · obtain ⟨part', hpart, hmem⟩ := ih hrest
          rcases List.mem_cons.1 hpart with rfl | hmore
          · exact ⟨first :: part', by simp, List.mem_cons_of_mem _ hmem⟩
          · exact ⟨part', List.mem_cons_of_mem _ hmore, hmem⟩

end TableTail
