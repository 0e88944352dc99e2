import TableTail.Checkpoint.Format
import TableTail.Proofs.Tail.MarkText

/-!
# Checkpoints and their files

What is written as the checkpoint of a table with partitions is read as this checkpoint, with its
marks normalized (`decode_encode_partitioned`): for all names and marks, and whichever of them are
unread. A single mark is written as its text alone, and reading takes one line break off the end of
that; so a text mark loses a line break that is its own (`decode_encode_single`). Whatever else a
file holds, what is read from it has regular marks of the wanted kind (`ofKind_of_decode`).
-/

namespace TableTail.Checkpoint

variable {kind : MarkKind} {positions : Named Mark} {unread : List String}

/-- An entry is read as the mark that it was made from, and as read or unread like it. -/
lemma readEntry_entryJson (isUnread : Bool) (m : Mark) :
    readEntry m.kind (entryJson isUnread m) = .ok (m.normalize, isUnread) := by
  cases isUnread with
  | true =>
    have hwrapped : (entryJson true m).get? unreadField = some m.toJson := rfl
    simp only [readEntry, hwrapped, m.ofJson_toJson]
    rfl
  | false =>
    have hself : entryJson false m = m.toJson := rfl
    have hplain : m.toJson.get? unreadField = none := by cases m <;> rfl
    simp only [readEntry, hself, hplain, m.ofJson_toJson]
    rfl

/-- An entry is read as it is printed. -/
lemma within_entryJson {n : Nat} (isUnread : Bool) (m : Mark) :
    Json.Within (n + 1) (entryJson isUnread m) := by
  cases isUnread with
  | true =>
    refine .object (List.pairwise_singleton _ _) fun field hfield => ?_
    rw [List.mem_singleton.1 hfield]
    exact m.within_toJson n
  | false => exact m.within_toJson (n + 1)

/-- Entries are read as the marks that they were made from. -/
lemma readEntries_entryJson (hkind : ∀ p ∈ positions, p.2.kind = kind) :
    readEntries kind (positions.map fun p => (p.1, entryJson (unread.contains p.1) p.2)) =
      .ok (positions.map fun p => (p.1, p.2.normalize),
        (Named.names positions).filter unread.contains) := by
  induction positions with
  | nil => rfl
  | cons p rest ih =>
    obtain ⟨identity, m⟩ := p
    have hrest := ih fun q hq => hkind q (by simp [hq])
    have hentry := readEntry_entryJson (unread.contains identity) m
    rw [hkind (identity, m) (by simp)] at hentry
    simp only [List.map_cons, readEntries, hentry, hrest, Named.names, List.filter_cons]

/-- A checkpoint of partitions is read from the content of its file. -/
theorem decode_encode_partitioned (hsorted : Named.Sorted positions)
    (hkind : ∀ p ∈ positions, p.2.kind = kind) :
    decode kind true (encode (.partitioned positions unread)) =
      .ok (.partitioned (positions.map fun p => (p.1, p.2.normalize))
        ((Named.names positions).filter unread.contains)) := by
  have hwithin : Json.Within Json.depthLimit (.object (positions.map fun p =>
      (p.1, entryJson (unread.contains p.1) p.2))) := by
    refine .object (hsorted.map_values _) fun field hfield => ?_
    obtain ⟨p, -, rfl⟩ := List.mem_map.1 hfield
    exact within_entryJson _ p.2
  have hread := Json.read?_text hwithin
  simp only [decode, encode, if_true, hread, readEntries_entryJson hkind]
  rfl

section Single

/-- One line break is dropped from the end of a text. -/
lemma dropLineEnd_concat (s : String) : dropLineEnd (s ++ "\n") = s := by
  simp [dropLineEnd]

/-- Nothing is dropped from a text that does not end with a line break. -/
lemma dropLineEnd_eq_self {s : String} (h : s.toList.getLast? ≠ some '\n') :
    dropLineEnd s = s := by
  unfold dropLineEnd
  split
  · next rest hreverse => exact absurd (by simp [← List.head?_reverse, hreverse]) h
  · rfl

/-- A text mark without one line break at its end; any other mark as it is. -/
def withoutLineEnd : Mark → Mark
  | .text s => .text (dropLineEnd s)
  | m => m

/-- A mark stays as it is unless it is a text that ends with a line break. -/
lemma withoutLineEnd_eq_self {m : Mark} (h : ∀ s : String, m ≠ .text (s ++ "\n")) :
    withoutLineEnd m = m := by
  cases m with
  | text t =>
    have hend : t.toList.getLast? ≠ some '\n' := fun hlast => by
      obtain ⟨chars, hchars⟩ := List.getLast?_eq_some_iff.1 hlast
      refine h (String.ofList chars) (congrArg Mark.text (String.toList_injective ?_))
      simp [hchars]
    rw [withoutLineEnd, dropLineEnd_eq_self hend]
  | _ => rfl

/-- The checkpoint of a single mark is read from the content of its file, a text mark without one
line break at its end. -/
theorem decode_encode_single (m : Mark) :
    decode m.kind false (encode (.single m)) = .ok (.single (withoutLineEnd m).normalize) := by
  by_cases htext : m.kind = .text
  · cases m with
    | text s => rfl
    | _ => cases htext
  · have hend : m.display.toList.getLast? ≠ some '\n' := fun hlast => by
      have hblank := (Mark.trimmed_display htext).2 '\n' hlast
      exact absurd hblank (by decide)
    have hself : withoutLineEnd m = m := withoutLineEnd_eq_self fun s hs => htext (hs ▸ rfl)
    simp [decode, encode, dropLineEnd_eq_self hend, Mark.read_display, hself]

/-- A single mark is read back at its place exactly when it is regular and no text that ends with a
line break. -/
lemma same_withoutLineEnd_iff (m : Mark) :
    (withoutLineEnd m).normalize.same m = true ↔
      (∀ s : String, m ≠ .text (s ++ "\n")) ∧ m.IsRegular := by
  by_cases h : ∀ s : String, m ≠ .text (s ++ "\n")
  · rw [withoutLineEnd_eq_self h, Mark.same_normalize_iff]
    exact (and_iff_right h).symm
  · refine iff_of_false (fun hsame => h ?_) fun hboth => h hboth.1
    rintro s rfl
    have heq : Mark.text s = .text (s ++ "\n") := by
      refine Mark.eq_of_same (by simp [Mark.kind]) ?_
      simpa [withoutLineEnd, dropLineEnd_concat, Mark.normalize] using hsame
    simpa using congrArg String.length (Mark.text.inj heq)

end Single

section Kind

/-- A checkpoint with regular marks of a kind. -/
def OfKind (kind : MarkKind) : Checkpoint → Prop
  | single m => m.OfKind kind
  | partitioned positions _ => ∀ p ∈ positions, p.2.OfKind kind

/-- An entry is read as a mark of the wanted kind. -/
lemma ofKind_of_readEntry {entry : Json} {m : Mark} {isUnread : Bool}
    (h : readEntry kind entry = .ok (m, isUnread)) : m.OfKind kind := by
  have hmark : ∀ (j : Json) (wrapped : Bool),
      (Mark.ofJson kind j).map (fun m => (m, wrapped)) = .ok (m, isUnread) → m.OfKind kind := by
    intro j wrapped h
    cases hread : Mark.ofJson kind j with
    | error e => simp [hread, Except.map] at h
    | ok m' =>
      simp only [hread, Except.map, Except.ok.injEq, Prod.mk.injEq] at h
      exact Mark.ofKind_of_ofJson (h.1 ▸ hread)
  unfold readEntry at h
  split at h <;> exact hmark _ _ h

/-- Entries are read as marks of the wanted kind. -/
lemma ofKind_of_readEntries {entries : Named Json}
    (h : readEntries kind entries = .ok (positions, unread)) :
    ∀ p ∈ positions, p.2.OfKind kind := by
  induction entries generalizing positions unread with
  | nil =>
    obtain ⟨rfl, -⟩ := Prod.mk.inj (Except.ok.inj h)
    simp
  | cons entry rest ih =>
    obtain ⟨identity, j⟩ := entry
    rw [readEntries] at h
    cases hentry : readEntry kind j with
    | error e => simp [hentry] at h
    | ok read =>
      cases hrest : readEntries kind rest with
      | error e => simp [hentry, hrest] at h
      | ok others =>
        simp only [hentry, hrest, Except.ok.injEq, Prod.mk.injEq] at h
        obtain ⟨rfl, -⟩ := h
        intro p hp
        rcases List.mem_cons.1 hp with rfl | hp
        · exact ofKind_of_readEntry hentry
        · exact ih hrest p hp

/-- What is read as a checkpoint has marks of the wanted kind. -/
theorem ofKind_of_decode {isPartitioned : Bool} {contents : String} {checkpoint : Checkpoint}
    (h : decode kind isPartitioned contents = .ok checkpoint) : checkpoint.OfKind kind := by
  unfold decode at h
  split at h
  · split at h
    · next fields _ =>
      cases hread : readEntries kind fields with
      | error e => simp [hread, Except.map] at h
      | ok read =>
        simp only [hread, Except.map, Except.ok.injEq] at h
        exact h ▸ ofKind_of_readEntries hread
    · cases h
  · split at h
    · next m hread =>
      obtain rfl := Except.ok.inj h
      exact Mark.ofKind_of_read hread
    · cases h

end Kind

end TableTail.Checkpoint
