import TableTail.Proofs.Named.Sorted
import TableTail.Proofs.Tail.Units
import TableTail.Tail.Opening

/-!
# Reconciled partitions

A table with partitions is opened with one partition for each identity that is known and admitted
(`get?_partitions`). Known are the identities that the database answers, and those that are
configured or persisted (`has_addIdentities`).
-/

namespace TableTail.Opening

variable {column : Sql.Column} {known : Named Sql.Cell} {others : List String} {identity : String}

/-- Known identities keep their cells, and the others get those of their texts. -/
lemma get?_addIdentities :
    Named.get? identity (addIdentities column known others) =
      (Named.get? identity known).or
        (if identity ∈ others then some (identityCell column identity) else none) := by
  unfold addIdentities
  induction others generalizing known with
  | nil => simp
  | cons other rest ih =>
    rw [List.foldl_cons, ih]
    rcases eq_or_ne identity other with rfl | hne
    · split
      · next hknown =>
        obtain ⟨param, hparam⟩ := Option.isSome_iff_exists.1 hknown
        simp [hparam]
      · next hknown =>
        have hnone : Named.get? identity known = none := by simpa [Named.has] using hknown
        simp [Named.get?_set_self, hnone]
    · split
      · simp [hne]
      · simp [Named.get?_set_of_ne hne, hne]

/-- Other identities are known besides those that were. -/
lemma has_addIdentities :
    Named.has identity (addIdentities column known others) = true ↔
      Named.has identity known = true ∨ identity ∈ others := by
  rw [Named.has, get?_addIdentities, Option.isSome_or, Bool.or_eq_true, Named.has]
  by_cases hother : identity ∈ others <;> simp [hother]

/-- Known identities stay in order. -/
lemma sorted_addIdentities (h : Named.Sorted known) :
    Named.Sorted (addIdentities column known others) := by
  unfold addIdentities
  induction others generalizing known with
  | nil => exact h
  | cons other rest ih =>
    rw [List.foldl_cons]
    split
    · exact ih h
    · exact ih (Named.sorted_set h)

/-- The identities that the database answers are those in its rows. -/
lemma has_identitiesOf {rows : List Sql.Row} :
    Named.has identity (identitiesOf rows) = true ↔
      ∃ row ∈ rows, (identityOf? row).map (·.1) = some identity := by
  rw [Named.has_iff, identitiesOf, ← Named.names, Named.mem_names_ofPairs, List.map_filterMap,
    List.mem_filterMap]

variable {c : CursorSettings} {s : Starts}

/-- The partitions are those of the known identities that are admitted. -/
lemma slots_partitions (h : Named.Sorted known) :
    (partitions c s known).slots =
      (known.filter fun k => admits c k.1).map fun k => s.partition k.1 k.2 := by
  have hnodup : (((known.filter fun k => admits c k.1).map fun k => s.partition k.1 k.2).map
      (·.identity)).Nodup := by
    rw [List.map_map]
    exact (h.nodup).sublist (List.filter_sublist.map _)
  exact Partitions.WellFormed.empty.slots_foldl_insert_of_nodup hnodup

/-- The partitions have a right index. -/
lemma wellFormed_partitions : (partitions c s known).WellFormed :=
  Partitions.WellFormed.empty.foldl_insert _

/-- An identity is tracked if it is known and admitted, and its partition is at its start. -/
theorem get?_partitions (h : Named.Sorted known) {p : Partition} :
    (partitions c s known).get? identity = some p ↔
      ∃ param, Named.get? identity known = some param ∧ admits c identity = true ∧
        p = s.partition identity param := by
  rw [wellFormed_partitions.get?_eq_some_iff, slots_partitions h, List.mem_map]
  constructor
  · rintro ⟨⟨⟨name, param⟩, hk, rfl⟩, rfl⟩
    obtain ⟨hknown, hadmitted⟩ := List.mem_filter.1 hk
    exact ⟨param, (Named.get?_eq_some_iff h.nodup).2 hknown, hadmitted, rfl⟩
  · rintro ⟨param, hknown, hadmitted, rfl⟩
    exact ⟨⟨(identity, param), List.mem_filter.2 ⟨(Named.get?_eq_some_iff h.nodup).1 hknown,
      hadmitted⟩, rfl⟩, rfl⟩

end TableTail.Opening
