import Mathlib.Logic.Relation
import TableTail.Proofs.Checkpoint.Restart

/-!
# Slots and their index

Partitions are kept in slots, and an index leads from identities to slots. Partitions are added, and
what is kept of one can be changed through its slot or its identity, as long as it stays the
partition of its identity (`Partitions.Step`). Whatever was done since there were none, slots and
index agree, and so do the positions and the unread identities that are read off the slots
(`Partitions.Coherent`); a partition is added exactly if its identity is new, and then only behind
the others (`Partitions.reached_coherent`).
-/

namespace TableTail.Partitions

variable {ps ps' : Partitions} {identity : String} {i : Nat} {f : Partition → Partition}

/-! ## Additions and changes -/

/-- Adds a partition behind the others, and answers whether its identity was new. -/
def add (ps : Partitions) (p : Partition) : Bool × Partitions :=
  if ps.has p.identity then (false, ps)
  else (true, ⟨ps.slots ++ [p], Named.set p.identity ps.size ps.index⟩)

/-- The partitions with the one of an identity changed. -/
def edit (ps : Partitions) (identity : String) (f : Partition → Partition) : Partitions :=
  match Named.get? identity ps.index with
  | some i => ps.editSlot i f
  | none => ps

/-- Adding is inserting, and the answer is that the identity was not tracked. -/
lemma add_eq (ps : Partitions) (p : Partition) : ps.add p = (!ps.has p.identity, ps.insert p) := by
  unfold add insert
  split
  · next h => rw [h]; rfl
  · next h => rw [Bool.eq_false_iff.2 h]; rfl

/-- One addition, or one change that leaves the identity of what is changed. -/
inductive Step : Partitions → Partitions → Prop
  | add (ps : Partitions) (p : Partition) : Step ps (ps.add p).2
  | editSlot (ps : Partitions) (i : Nat) (f : Partition → Partition)
      (h : ∀ p, ps.slot? i = some p → (f p).identity = p.identity) : Step ps (ps.editSlot i f)
  | edit (ps : Partitions) (identity : String) (f : Partition → Partition)
      (h : ∀ p, ps.get? identity = some p → (f p).identity = p.identity) :
      Step ps (ps.edit identity f)

/-- What partitions become by any additions and changes. -/
def Reached (ps : Partitions) : Prop := Relation.ReflTransGen Step empty ps

/-- So partitions are reached when one is inserted, -/
lemma Reached.insert (h : ps.Reached) (p : Partition) : (ps.insert p).Reached := by
  have hadd : (ps.add p).2 = ps.insert p := by rw [add_eq]
  exact hadd ▸ h.tail (.add ps p)

/-- when the progress of a slot is changed, -/
lemma Reached.changeSlot (h : ps.Reached) (i : Nat) (g : Progress → Progress) :
    (ps.changeSlot i g).Reached :=
  h.tail (.editSlot ps i _ fun _ _ => rfl)

/-- and when the progress of an identity is. -/
lemma Reached.change (h : ps.Reached) (identity : String) (g : Progress → Progress) :
    (ps.change identity g).Reached :=
  h.tail (.edit ps identity _ fun _ _ => rfl)

/-! ## Slots and index -/

/-- The index leads from each identity to its slot, and has its names in order. -/
structure Indexed (ps : Partitions) : Prop extends WellFormed ps where
  sorted : Named.Sorted ps.index

/-- No partitions are indexed. -/
lemma Indexed.empty : empty.Indexed := ⟨.empty, List.Pairwise.nil⟩

/-- A change of a slot keeps the index. -/
lemma Indexed.editSlot (h : ps.Indexed)
    (hf : ∀ p, ps.slot? i = some p → (f p).identity = p.identity) : (ps.editSlot i f).Indexed :=
  ⟨h.toWellFormed.editSlot hf, h.sorted⟩

/-- A change of an identity's partition keeps the index. -/
lemma Indexed.edit (h : ps.Indexed)
    (hf : ∀ p, ps.get? identity = some p → (f p).identity = p.identity) :
    (ps.edit identity f).Indexed := by
  unfold Partitions.edit
  split
  · next i hi =>
    refine h.editSlot fun p hp => hf p ?_
    rw [get?, hi]
    exact hp
  · exact h

/-- An added partition is indexed. -/
lemma Indexed.add (h : ps.Indexed) (p : Partition) : (ps.add p).2.Indexed := by
  rw [add_eq]
  refine ⟨h.toWellFormed.insert p, ?_⟩
  unfold insert
  split
  · exact h.sorted
  · exact Named.sorted_set h.sorted

/-- Each step keeps the index. -/
lemma Indexed.step (h : ps.Indexed) (hstep : Step ps ps') : ps'.Indexed := by
  cases hstep with
  | add p => exact h.add p
  | editSlot i f hf => exact h.editSlot hf
  | edit identity f hf => exact h.edit hf

/-- So it is after any steps. -/
lemma Reached.indexed (h : ps.Reached) : ps.Indexed := by
  induction h with
  | refl => exact .empty
  | tail _ hstep ih => exact ih.step hstep

/-- The index has as many entries as there are slots. -/
lemma Indexed.length_index (h : ps.Indexed) : ps.index.length = ps.size := by
  have hperm : (ps.index.map (·.1)).Perm (ps.slots.map (·.identity)) := by
    refine (List.perm_ext_iff_of_nodup h.sorted.nodup h.nodup).2 fun identity => ?_
    rw [← Named.has_iff]
    exact h.has_iff
  simpa [size] using hperm.length_eq

/-! ## What is read off the slots -/

/-- The positions are those of the slots. -/
lemma WellFormed.perm_positions (h : ps.WellFormed) :
    ps.positions.Perm (ps.slots.map fun p => (p.identity, p.progress.after)) := by
  refine Named.perm_ofPairs ?_
  rw [List.map_map]
  exact h.nodup

/-- The unread identities are those of the unread slots. -/
lemma WellFormed.perm_unread (h : ps.WellFormed) :
    ps.unread.Perm ((ps.slots.filter fun p => p.progress.unread).map (·.identity)) :=
  Named.perm_sortedNames (h.nodup.sublist (List.filter_sublist.map _))

/-- The slots, their index and what is read off them agree. -/
structure Coherent (ps : Partitions) : Prop where
  /-- The index leads from an identity to the one slot that has it. -/
  indexed : ∀ identity i, Named.get? identity ps.index = some i ↔
    ∃ p, ps.slot? i = some p ∧ p.identity = identity
  /-- Each identity is in the index once. -/
  sorted_index : Named.Sorted ps.index
  length_index : ps.index.length = ps.size
  /-- The index never leads beyond the slots. -/
  in_range : ∀ identity i, Named.get? identity ps.index = some i → i < ps.size
  get?_identity : ∀ i p, ps.slot? i = some p → ps.get? p.identity = some p
  nodup : (ps.slots.map (·.identity)).Nodup
  /-- The positions are in the order of the identities, one for each slot. -/
  sorted_positions : Named.Sorted ps.positions
  positions : ps.positions.Perm (ps.slots.map fun p => (p.identity, p.progress.after))
  length_positions : ps.positions.length = ps.size
  /-- The unread identities are in order, one for each slot that is unread. -/
  sorted_unread : ps.unread.Pairwise (· < ·)
  unread : ps.unread.Perm ((ps.slots.filter fun p => p.progress.unread).map (·.identity))
  unread_subset : ps.unread ⊆ Named.names ps.positions

/-- What is indexed is coherent. -/
lemma Indexed.coherent (h : ps.Indexed) : ps.Coherent where
  indexed identity i := by
    rw [h.indexed, Option.map_eq_some_iff]
    rfl
  sorted_index := h.sorted
  length_index := h.length_index
  in_range identity i hi := by
    obtain ⟨p, hp, -⟩ := Option.map_eq_some_iff.1 ((h.indexed identity i).1 hi)
    exact (List.getElem?_eq_some_iff.1 hp).1
  get?_identity i p hp := h.get?_eq_some_iff.2 ⟨List.mem_of_getElem? hp, rfl⟩
  nodup := h.nodup
  sorted_positions := ps.sorted_positions
  positions := h.perm_positions
  length_positions := by simpa [size] using h.perm_positions.length_eq
  sorted_unread := Named.pairwise_sortedNames _
  unread := h.perm_unread
  unread_subset identity hidentity := by
    obtain ⟨p, hp, -⟩ := h.mem_unread.1 hidentity
    rw [Named.names, ← Named.has_iff, Named.has, h.get?_positions, hp]
    rfl

/-- After any additions and changes slots, index, positions and unread identities agree. A partition
whose identity is tracked is not added, and nothing changes. One with a new identity is added behind
the others: the slots that there were stay as they are and where they are, and so do the entries of
the index. -/
theorem reached_coherent (h : ps.Reached) :
    ps.Coherent ∧
      (∀ p, ps.has p.identity = true → ps.add p = (false, ps)) ∧
      ∀ p, ps.has p.identity = false →
        (ps.add p).1 = true ∧ (ps.add p).2.slots = ps.slots ++ [p] ∧
          ∀ identity, Named.get? identity (ps.add p).2.index =
            if identity = p.identity then some ps.size else Named.get? identity ps.index := by
  refine ⟨h.indexed.coherent, fun p hp => if_pos hp, fun p hp => ?_⟩
  have hadd : ps.add p = (true, ⟨ps.slots ++ [p], Named.set p.identity ps.size ps.index⟩) :=
    if_neg (by rw [hp]; exact Bool.false_ne_true)
  rw [hadd]
  refine ⟨rfl, rfl, fun identity => ?_⟩
  split
  · next heq => rw [heq, Named.get?_set_self]
  · next hne => exact Named.get?_set_of_ne hne ..

end TableTail.Partitions

namespace TableTail.Journal

/-- A partition of the journal that has not been read. -/
def topic (identity : String) (after : Int64) : Partition :=
  ⟨identity, .text identity, ⟨.integer after, true, none⟩⟩

/-- Two topics, of which the first one that was added has been read, and the other one was put
back. -/
def topics : Partitions :=
  (((Partitions.empty.insert (topic "news" 3)).insert (topic "misc" 8)).changeSlot 0 fun _ =>
    ⟨.integer 5, false, none⟩).change "misc" fun p => { p with after := .integer 7 }

/-- Its slots are in the order of their addition, and its positions in that of the identities; a
topic that is tracked is not added. -/
theorem topics_coherent :
    topics.Reached ∧ topics.Coherent ∧
      topics.slots.map (·.identity) = ["news", "misc"] ∧
      topics.positions = [("misc", .integer 7), ("news", .integer 5)] ∧ topics.unread = ["misc"] ∧
      topics.add (topic "news" 1) = (false, topics) := by
  have hempty : Partitions.empty.Reached := .refl
  have hreached : topics.Reached := (((hempty.insert _).insert _).changeSlot _ _).change _ _
  obtain ⟨hcoherent, htracked, -⟩ := Partitions.reached_coherent hreached
  exact ⟨hreached, hcoherent, by decide, by decide, by decide,
    htracked (topic "news" 1) (by decide)⟩

end TableTail.Journal
