import TableTail.Proofs.Tail.Visits

/-!
# What a discovery adds

The rows of a minimum query may name identities twice, name none at all, or give minima that cannot
be read. A discovery goes over them in order: a row adds a partition when it tells an identity and a
minimum (`Sql.Row.Tells`), the identity was not tracked before, and no row before it told the same
one (`Partitions.Begins`). The rows that add one, and the partitions that they add, are listed side
by side (`Partitions.Discovered`), by adding one row more at the end (`Discovered.concat`). A second
discovery with the same answer finds all of its identities tracked (`Reader.discover_additive`).
-/

namespace TableTail

/-- What a row of a minimum query tells: an identity, by its text and its cell, and its minimum. -/
structure Sql.Row.Tells (kind : MarkKind) (row : Sql.Row) (identity : String) (param : Sql.Cell)
    (minimum : Mark) : Prop where
  identity : row.get? Selection.identityLabel = some param ∧ param.text? = some identity
  minimum : ∃ cell, row.get? Selection.minimumLabel = some cell ∧
    Mark.ofCell? kind cell = some minimum

/-- A row gives rise to a partition at the minimum that it tells, whose row is still unread. -/
lemma Partition.ofMinimum?_eq_some_iff {kind : MarkKind} {row : Sql.Row} {p : Partition} :
    Partition.ofMinimum? kind row = some p ↔ ∃ minimum,
      row.Tells kind p.identity p.param minimum ∧ p.progress = ⟨minimum, true, none⟩ := by
  obtain ⟨identity, param, progress⟩ := p
  simp only [Partition.ofMinimum?, identityOf?, Option.bind_eq_bind, Option.bind_eq_some_iff,
    Option.map_eq_some_iff, Option.pure_def, Option.some.injEq, Partition.mk.injEq]
  constructor
  · rintro ⟨_, ⟨_, hparam, _, htext, rfl⟩, minimum, ⟨cell, hcell, hminimum⟩, rfl, rfl, rfl⟩
    exact ⟨minimum, ⟨⟨hparam, htext⟩, cell, hcell, hminimum⟩, rfl⟩
  · rintro ⟨minimum, ⟨⟨hparam, htext⟩, cell, hcell, hminimum⟩, rfl⟩
    exact ⟨_, ⟨_, hparam, _, htext, rfl⟩, minimum, ⟨cell, hcell, hminimum⟩, rfl, rfl, rfl⟩

namespace Partitions

variable {kind : MarkKind} {rows : List Sql.Row} {row : Sql.Row} {ps ps' : Partitions}
  {p : Partition} {identity : String} {i : Nat}

/-- The row at a place adds a partition: it tells the partition's identity and minimum, the identity
is not tracked, and no row before it tells the identity with a minimum. -/
structure Begins (kind : MarkKind) (ps : Partitions) (rows : List Sql.Row) (i : Nat)
    (p : Partition) : Prop where
  told : ∃ row minimum, rows[i]? = some row ∧ row.Tells kind p.identity p.param minimum ∧
    p.progress = ⟨minimum, true, none⟩
  untracked : ps.has p.identity = false
  first : ∀ row ∈ rows.take i, ∀ param minimum, ¬ row.Tells kind p.identity param minimum

/-- What a discovery makes of partitions: behind the old ones stand those that the listed rows add,
in the order of the rows, and no row is left out. Each identity leads to its slot. -/
structure Discovered (kind : MarkKind) (rows : List Sql.Row) (ps : Partitions) (starts : List Nat)
    (added : List Partition) (ps' : Partitions) : Prop where
  slots : ps'.slots = ps.slots ++ added
  kept : ∀ identity i, Named.get? identity ps.index = some i →
    Named.get? identity ps'.index = some i
  placed : ∀ k p, added[k]? = some p →
    Named.get? p.identity ps'.index = some (ps.slots.length + k)
  ascending : starts.Pairwise (· < ·)
  begun : List.Forall₂ (Begins kind ps rows) starts added
  complete : ∀ i p, Begins kind ps rows i p → i ∈ starts

/-- After a partition is added its identity is tracked, and any other one as before. -/
lemma has_insert (ps : Partitions) (p : Partition) (identity : String) :
    (ps.insert p).has identity = true ↔ ps.has identity = true ∨ identity = p.identity := by
  unfold insert
  split
  · next htracked =>
    constructor
    · exact .inl
    · rintro (h | rfl)
      · exact h
      · exact htracked
  · by_cases hid : identity = p.identity
    · simp [has, Named.has, hid, Named.get?_set_self]
    · simp [has, Named.has, hid, Named.get?_set_of_ne hid]

/-- The last row comes last. -/
lemma adopt_concat (kind : MarkKind) (rows : List Sql.Row) (row : Sql.Row) (ps : Partitions) :
    ps.adopt kind (rows ++ [row]) =
      ((Partition.ofMinimum? kind row).toList).foldl insert (ps.adopt kind rows) := by
  rw [adopt, List.filterMap_append, List.foldl_append]
  cases hrow : Partition.ofMinimum? kind row <;> simp [adopt, hrow]

/-- After a discovery the identities are tracked that were tracked before, and those that the rows
tell. -/
theorem has_adopt (kind : MarkKind) (rows : List Sql.Row) (ps : Partitions) (identity : String) :
    (ps.adopt kind rows).has identity = true ↔ ps.has identity = true ∨
      ∃ row ∈ rows, ∃ param minimum, row.Tells kind identity param minimum := by
  induction rows using List.reverseRecOn with
  | nil => simp [adopt]
  | append_singleton rows row ih =>
    have hlast : (∃ param minimum, row.Tells kind identity param minimum) ↔
        ∃ p ∈ Partition.ofMinimum? kind row, identity = p.identity := by
      constructor
      · rintro ⟨param, minimum, htells⟩
        exact ⟨⟨identity, param, ⟨minimum, true, none⟩⟩,
          Partition.ofMinimum?_eq_some_iff.2 ⟨minimum, htells, rfl⟩, rfl⟩
      · rintro ⟨p, hp, rfl⟩
        obtain ⟨minimum, htells, -⟩ := Partition.ofMinimum?_eq_some_iff.1 hp
        exact ⟨p.param, minimum, htells⟩
    have hrows : (∃ row' ∈ rows ++ [row], ∃ param minimum, row'.Tells kind identity param minimum) ↔
        (∃ row' ∈ rows, ∃ param minimum, row'.Tells kind identity param minimum) ∨
          ∃ param minimum, row.Tells kind identity param minimum := by
      simp only [List.mem_append, List.mem_singleton, or_and_right, exists_or, exists_eq_left]
    rw [adopt_concat, hrows, ← or_assoc, ← ih, hlast]
    cases Partition.ofMinimum? kind row with
    | none => simp
    | some p => simp [has_insert]

namespace Begins

/-- A row that adds a partition is one of the rows. -/
lemma lt_length (h : Begins kind ps rows i p) : i < rows.length := by
  obtain ⟨row, -, hrow, -⟩ := h.told
  exact (List.getElem?_eq_some_iff.1 hrow).1

/-- Rows further on do not matter to what a row adds. -/
lemma append_iff (hi : i < rows.length) (more : List Sql.Row) :
    Begins kind ps (rows ++ more) i p ↔ Begins kind ps rows i p := by
  have hrow : (rows ++ more)[i]? = rows[i]? := List.getElem?_append_left hi
  have htake : (rows ++ more).take i = rows.take i := List.take_append_of_le_length hi.le
  constructor
  · rintro ⟨htold, huntracked, hfirst⟩
    exact ⟨hrow ▸ htold, huntracked, htake ▸ hfirst⟩
  · rintro ⟨htold, huntracked, hfirst⟩
    exact ⟨hrow.symm ▸ htold, huntracked, htake.symm ▸ hfirst⟩

/-- The last row adds its partition if the others have not made its identity tracked. -/
lemma concat_iff : Begins kind ps (rows ++ [row]) rows.length p ↔
    Partition.ofMinimum? kind row = some p ∧ (ps.adopt kind rows).has p.identity = false := by
  have hrow : (rows ++ [row])[rows.length]? = some row := by simp
  have htake : (rows ++ [row]).take rows.length = rows := by simp
  rw [Bool.eq_false_iff, ne_eq, has_adopt, not_or, Partition.ofMinimum?_eq_some_iff]
  constructor
  · rintro ⟨⟨row', minimum, hrow', htells, hprogress⟩, huntracked, hfirst⟩
    obtain rfl : row = row' := Option.some.inj (hrow.symm.trans hrow')
    refine ⟨⟨minimum, htells, hprogress⟩, by simp [huntracked], ?_⟩
    rintro ⟨row', hrow', param, minimum', htells'⟩
    exact hfirst row' (htake.symm ▸ hrow') param minimum' htells'
  · rintro ⟨⟨minimum, htells, hprogress⟩, huntracked, hfirst⟩
    refine ⟨⟨row, minimum, hrow, htells, hprogress⟩, by simpa using huntracked, ?_⟩
    intro row' hrow' param minimum' htells'
    rw [htake] at hrow'
    exact hfirst ⟨row', hrow', param, minimum', htells'⟩

/-- A row that adds a partition is the last one, or it is among the others and adds it too. -/
lemma of_concat (h : Begins kind ps (rows ++ [row]) i p) :
    i = rows.length ∨ Begins kind ps rows i p := by
  have hlt := h.lt_length
  rw [List.length_append, List.length_singleton] at hlt
  rcases Nat.lt_succ_iff_lt_or_eq.1 hlt with hi | hi
  · exact .inr ((append_iff hi [row]).1 h)
  · exact .inl hi

/-- What a row adds is of the identity that the row tells. -/
lemma identity_eq {p' : Partition} (h : Begins kind ps rows i p) (h' : Begins kind ps rows i p') :
    p.identity = p'.identity := by
  obtain ⟨row, _, hrow, htells, -⟩ := h.told
  obtain ⟨row', _, hrow', htells', -⟩ := h'.told
  obtain rfl : row = row' := Option.some.inj (hrow.symm.trans hrow')
  obtain ⟨hparam, htext⟩ := htells.identity
  obtain ⟨hparam', htext'⟩ := htells'.identity
  rw [Option.some.inj (hparam.symm.trans hparam'), htext'] at htext
  exact (Option.some.inj htext).symm

end Begins

/-- Some row adds an identity that is not tracked and that is told with a minimum. -/
lemma exists_begins (huntracked : ps.has identity = false)
    (htold : ∃ row ∈ rows, ∃ param minimum, row.Tells kind identity param minimum) :
    ∃ i p, Begins kind ps rows i p ∧ p.identity = identity := by
  induction rows using List.reverseRecOn with
  | nil => simp at htold
  | append_singleton rows row ih =>
    by_cases hbefore : ∃ row ∈ rows, ∃ param minimum, row.Tells kind identity param minimum
    · obtain ⟨i, p, hbegins, hp⟩ := ih hbefore
      exact ⟨i, p, (Begins.append_iff hbegins.lt_length [row]).2 hbegins, hp⟩
    · obtain ⟨row', hrow', param, minimum, htells⟩ := htold
      obtain rfl : row' = row := by
        rcases List.mem_append.1 hrow' with hrow' | hrow'
        · exact absurd ⟨row', hrow', param, minimum, htells⟩ hbefore
        · exact List.mem_singleton.1 hrow'
      refine ⟨rows.length, ⟨identity, param, ⟨minimum, true, none⟩⟩, Begins.concat_iff.2 ⟨?_, ?_⟩,
        rfl⟩
      · exact Partition.ofMinimum?_eq_some_iff.2 ⟨minimum, htells, rfl⟩
      · rw [Bool.eq_false_iff, ne_eq, has_adopt]
        rintro (htracked | htold)
        · rw [huntracked] at htracked
          cases htracked
        · exact hbefore htold

namespace Discovered

variable {starts : List Nat} {added : List Partition}

/-- No rows add nothing. -/
lemma nil (kind : MarkKind) (ps : Partitions) : Discovered kind [] ps [] [] ps where
  slots := (List.append_nil _).symm
  kept _ _ h := h
  placed k p hp := by simp at hp
  ascending := .nil
  begun := .nil
  complete i p h := absurd h.lt_length (Nat.not_lt_zero i)

/-- The rows that are listed are among the rows. -/
lemma start_lt (h : Discovered kind rows ps starts added ps') {i : Nat} (hi : i ∈ starts) :
    i < rows.length := by
  obtain ⟨k, hk⟩ := List.mem_iff_getElem?.1 hi
  have hlength : k < added.length := by
    rw [← h.begun.length_eq]
    exact (List.getElem?_eq_some_iff.1 hk).1
  obtain ⟨hk', rfl⟩ := List.getElem?_eq_some_iff.1 hk
  exact (List.forall₂_iff_get.1 h.begun).2 k hk' hlength |>.lt_length

/-- What the rows add they add too when there is one row more. -/
lemma begun_concat (h : Discovered kind rows ps starts added ps') (row : Sql.Row) :
    List.Forall₂ (Begins kind ps (rows ++ [row])) starts added := by
  refine List.forall₂_iff_get.2 ⟨h.begun.length_eq, fun k hk hk' => ?_⟩
  have hold := (List.forall₂_iff_get.1 h.begun).2 k hk hk'
  exact (Begins.append_iff hold.lt_length [row]).2 hold

/-- A row that tells no minimum, or one of a tracked identity, adds nothing. -/
lemma skip (h : Discovered kind rows ps starts added (ps.adopt kind rows))
    (hold : ∀ p, Partition.ofMinimum? kind row = some p →
      (ps.adopt kind rows).has p.identity = true) :
    Discovered kind (rows ++ [row]) ps starts added (ps.adopt kind (rows ++ [row])) := by
  have hadopt : ps.adopt kind (rows ++ [row]) = ps.adopt kind rows := by
    rw [adopt_concat]
    cases hp : Partition.ofMinimum? kind row with
    | none => rfl
    | some p =>
      show (ps.adopt kind rows).insert p = _
      rw [insert, if_pos (hold p hp)]
  rw [hadopt]
  refine ⟨h.slots, h.kept, h.placed, h.ascending, h.begun_concat row, fun i p hi => ?_⟩
  rcases hi.of_concat with rfl | hi
  · obtain ⟨hp, hnew⟩ := Begins.concat_iff.1 hi
    rw [hold p hp] at hnew
    cases hnew
  · exact h.complete i p hi

/-- A row that tells a minimum of an identity that is not tracked by then adds its partition. -/
lemma add (h : Discovered kind rows ps starts added (ps.adopt kind rows))
    (hp : Partition.ofMinimum? kind row = some p)
    (hnew : (ps.adopt kind rows).has p.identity = false) :
    Discovered kind (rows ++ [row]) ps (starts ++ [rows.length]) (added ++ [p])
      (ps.adopt kind (rows ++ [row])) := by
  have hadopt : ps.adopt kind (rows ++ [row]) = ⟨ps.slots ++ (added ++ [p]),
      Named.set p.identity (ps.slots.length + added.length) (ps.adopt kind rows).index⟩ := by
    rw [adopt_concat, hp]
    show (ps.adopt kind rows).insert p = _
    rw [insert, hnew, size, h.slots, List.length_append, List.append_assoc]
    rfl
  -- The new identity had no place in the index, so the places of the others stay.
  have hkept : ∀ identity i, Named.get? identity (ps.adopt kind rows).index = some i →
      Named.get? identity (ps.adopt kind (rows ++ [row])).index = some i := by
    intro identity i hi
    have hne : identity ≠ p.identity := by
      rintro rfl
      simp [has, Named.has, hi] at hnew
    rw [hadopt, Named.get?_set_of_ne hne]
    exact hi
  refine ⟨?_, ?_, ?_, ?_, ?_, ?_⟩
  · rw [hadopt]
  · exact fun identity i hi => hkept identity i (h.kept identity i hi)
  · intro k q hq
    rcases Nat.lt_or_ge k added.length with hk | hk
    · rw [List.getElem?_append_left hk] at hq
      exact hkept _ _ (h.placed k q hq)
    · obtain ⟨rfl, rfl⟩ : k = added.length ∧ q = p := by
        rw [List.getElem?_append_right hk, List.getElem?_singleton] at hq
        split at hq
        · next hzero => exact ⟨by omega, (Option.some.inj hq).symm⟩
        · cases hq
      rw [hadopt, Named.get?_set_self]
  · refine List.pairwise_append.2 ⟨h.ascending, List.pairwise_singleton _ _, ?_⟩
    intro i hi j hj
    obtain rfl := List.mem_singleton.1 hj
    exact h.start_lt hi
  · exact List.rel_append (h.begun_concat row) (.cons (Begins.concat_iff.2 ⟨hp, hnew⟩) .nil)
  · intro i q hi
    rcases hi.of_concat with rfl | hi
    · simp
    · exact List.mem_append_left _ (h.complete i q hi)

/-- No identity is added twice. -/
lemma nodup (h : Discovered kind rows ps starts added ps') : (added.map (·.identity)).Nodup := by
  refine List.pairwise_map.2 (List.pairwise_iff_getElem.2 fun k l hk hl hkl heq => ?_)
  have hlength := h.begun.length_eq
  have hget := (List.forall₂_iff_get.1 h.begun).2
  obtain ⟨row, minimum, hrow, htells, -⟩ := (hget k (hlength.symm ▸ hk) hk).told
  have hbefore : starts[k] < starts[l] := List.pairwise_iff_getElem.1 h.ascending k l _ _ hkl
  have hmem : row ∈ rows.take starts[l] := by
    refine List.mem_iff_getElem?.2 ⟨starts[k], ?_⟩
    rw [List.getElem?_take_of_lt hbefore]
    exact hrow
  exact (hget l (hlength.symm ▸ hl) hl).first row hmem _ minimum (heq ▸ htells)

/-- The identities that are added are those that were not tracked and that some row tells. -/
lemma mem_iff (h : Discovered kind rows ps starts added ps') :
    identity ∈ added.map (·.identity) ↔ ps.has identity = false ∧
      ∃ row ∈ rows, ∃ param minimum, row.Tells kind identity param minimum := by
  have hget := (List.forall₂_iff_get.1 h.begun).2
  constructor
  · intro hmem
    obtain ⟨p, hp, rfl⟩ := List.mem_map.1 hmem
    obtain ⟨k, hk, rfl⟩ := List.mem_iff_getElem.1 hp
    have hbegins := hget k (h.begun.length_eq.symm ▸ hk) hk
    obtain ⟨row, minimum, hrow, htells, -⟩ := hbegins.told
    exact ⟨hbegins.untracked, row, List.mem_of_getElem? hrow, _, minimum, htells⟩
  · rintro ⟨huntracked, htold⟩
    obtain ⟨i, p, hbegins, rfl⟩ := exists_begins huntracked htold
    obtain ⟨k, hk, rfl⟩ := List.mem_iff_getElem.1 (h.complete i p hbegins)
    have hk' : k < added.length := h.begun.length_eq ▸ hk
    have hidentity : (added[k]).identity = p.identity := (hget k hk hk').identity_eq hbegins
    exact hidentity ▸ List.mem_map_of_mem (List.getElem_mem hk')

end Discovered

/-- A discovery adds the partitions that its rows begin. -/
theorem exists_discovered (kind : MarkKind) (rows : List Sql.Row) (ps : Partitions) :
    ∃ starts added, Discovered kind rows ps starts added (ps.adopt kind rows) := by
  induction rows using List.reverseRecOn with
  | nil => exact ⟨[], [], .nil kind ps⟩
  | append_singleton rows row ih =>
    obtain ⟨starts, added, h⟩ := ih
    by_cases hnew : ∃ p, Partition.ofMinimum? kind row = some p ∧
        (ps.adopt kind rows).has p.identity = false
    · obtain ⟨p, hp, hnew⟩ := hnew
      exact ⟨_, _, h.add hp hnew⟩
    · refine ⟨_, _, h.skip fun p hp => ?_⟩
      by_contra hnot
      exact hnew ⟨p, hp, Bool.eq_false_of_not_eq_true hnot⟩

/-- Rows that tell tracked identities only add nothing. -/
lemma adopt_eq_self (h : ∀ row ∈ rows, ∀ identity param minimum,
    row.Tells kind identity param minimum → ps.has identity = true) : ps.adopt kind rows = ps := by
  induction rows using List.reverseRecOn with
  | nil => rfl
  | append_singleton rows row ih =>
    rw [adopt_concat, ih fun row' hrow' => h row' (List.mem_append_left _ hrow')]
    cases hp : Partition.ofMinimum? kind row with
    | none => rfl
    | some p =>
      obtain ⟨minimum, htells, -⟩ := Partition.ofMinimum?_eq_some_iff.1 hp
      have htracked := h row (by simp) p.identity p.param minimum htells
      show ps.insert p = ps
      rw [insert, if_pos htracked]

/-- The same rows add nothing a second time. -/
theorem adopt_adopt (kind : MarkKind) (rows : List Sql.Row) (ps : Partitions) :
    (ps.adopt kind rows).adopt kind rows = ps.adopt kind rows := by
  refine adopt_eq_self fun row hrow identity param minimum htells => ?_
  exact (has_adopt kind rows ps identity).2 (.inr ⟨row, hrow, param, minimum, htells⟩)

end Partitions

namespace Reader

variable {σ : Type} {r : Reader} {executor : Executor σ} {p : Polling σ} {column : Sql.Column}
  {q : Sql.Query}

/-- A discovery that is answered rows adds the identities of these rows. -/
lemma perform_discover (hidentity : r.selection.identity = some column)
    (hdiscover : r.descriptor.cursor.discover = true)
    (hq : r.descriptor.minimumQuery r.selection column = some q) {rows : List Sql.Row}
    (hrows : (executor q p.database).1 = .ok rows) :
    Polling.perform r executor r.discover p =
      (.ok ((p.cursor.adopt r.kind rows).partitions.size - p.cursor.partitions.size),
        (p.query executor q).exchange (Cursor.adopt r.kind rows)) := by
  simp only [discover, hidentity, hdiscover, if_true, hq, Program.bind_eq]
  rw [Polling.perform_query, hrows]
  simp only
  rw [Polling.perform_exchange]
  rfl

/-- A discovery that is not answered fails. -/
lemma perform_discover_error (hidentity : r.selection.identity = some column)
    (hdiscover : r.descriptor.cursor.discover = true)
    (hq : r.descriptor.minimumQuery r.selection column = some q) {e : DatabaseError}
    (herror : (executor q p.database).1 = .error e) :
    Polling.perform r executor r.discover p = (.error (.database e), p.query executor q) := by
  simp only [discover, hidentity, hdiscover, if_true, hq, Program.bind_eq]
  rw [Polling.perform_query, herror]
  rfl

/-- Discovery is additive and idempotent. When it is switched off, or the database does not answer,
the cursor stays as it is. Otherwise the partitions keep their slots and places, and behind them
come those that the rows begin, each identity once, if it was not tracked and a row tells it with a
minimum. Their number is returned, and a discovery that is answered the same once more adds none. -/
theorem discover_additive (executor : Executor σ) {ps : Partitions}
    (hcursor : p.cursor = .partitioned ps) (hidentity : r.selection.identity = some column) :
    (r.descriptor.cursor.discover = false →
      Polling.perform r executor r.discover p = (.ok 0, p)) ∧
    (r.descriptor.cursor.discover = true →
      ∃ q, r.descriptor.minimumQuery r.selection column = some q ∧
        (∀ e, (executor q p.database).1 = .error e →
          Polling.perform r executor r.discover p =
            (.error (.database e), p.query executor q)) ∧
        ∀ rows, (executor q p.database).1 = .ok rows → ∃ starts added ps',
          Partitions.Discovered r.kind rows ps starts added ps' ∧
          (added.map (·.identity)).Nodup ∧
          (∀ identity, identity ∈ added.map (·.identity) ↔ ps.has identity = false ∧
            ∃ row ∈ rows, ∃ param minimum, row.Tells r.kind identity param minimum) ∧
          (ps.WellFormed → ps'.WellFormed) ∧
          Polling.perform r executor r.discover p =
            (.ok added.length, { p.query executor q with cursor := .partitioned ps' }) ∧
          ∀ (executor' : Executor σ) (p' : Polling σ), p'.cursor = .partitioned ps' →
            (executor' q p'.database).1 = .ok rows →
            Polling.perform r executor' r.discover p' = (.ok 0, p'.query executor' q)) := by
  constructor
  · intro hoff
    simp only [discover, hidentity, hoff]
    rfl
  · intro hon
    obtain ⟨q, hq⟩ : ∃ q, r.descriptor.minimumQuery r.selection column = some q := by
      simp [Descriptor.minimumQuery, Selection.minimums, hidentity]
    refine ⟨q, hq, fun e herror => perform_discover_error hidentity hon hq herror, ?_⟩
    intro rows hrows
    obtain ⟨starts, added, hdiscovered⟩ := Partitions.exists_discovered r.kind rows ps
    refine ⟨starts, added, _, hdiscovered, hdiscovered.nodup, fun _ => hdiscovered.mem_iff,
      fun hwell => hwell.foldl_insert _, ?_, ?_⟩
    · have hsize : (ps.adopt r.kind rows).size - ps.size = added.length := by
        simp [Partitions.size, hdiscovered.slots]
      have hadopted : p.cursor.adopt r.kind rows = .partitioned (ps.adopt r.kind rows) := by
        rw [hcursor]
        rfl
      rw [perform_discover hidentity hon hq hrows, hadopted, hcursor]
      simp only [Cursor.partitions, hsize, Polling.exchange, Polling.query, hadopted]
    · intro executor' p' hcursor' hrows'
      have hagain : p'.cursor.adopt r.kind rows = p'.cursor := by
        rw [hcursor']
        exact congrArg Cursor.partitioned (ps.adopt_adopt r.kind rows)
      have hexchange : (p'.query executor' q).exchange (Cursor.adopt r.kind rows) =
          p'.query executor' q := by
        simp only [Polling.exchange, Polling.query, hagain]
      rw [perform_discover hidentity hon hq hrows', hagain, Nat.sub_self, hexchange]

end Reader

namespace Journal

/-- Rows of the journal's minimum query: an owner that is tracked, entries without an owner, an
owner whose minimum cannot be read at first, and one that is told twice. -/
def minimumRows : List Sql.Row :=
  [⟨["identity", "minimum"], [.text "ada", .integer 1]⟩,
    ⟨["identity", "minimum"], [.null, .integer 2]⟩,
    ⟨["identity", "minimum"], [.text "bob", .null]⟩,
    ⟨["identity", "minimum"], [.text "cleo", .integer 4]⟩,
    ⟨["identity", "minimum"], [.text "bob", .integer 5]⟩,
    ⟨["identity", "minimum"], [.text "cleo", .integer 3]⟩]

/-- A database that answers each query with the minimum rows. -/
def telling : Executor Unit := fun _ database => (.ok minimumRows, database)

/-- The partitions of the journal when it is opened. -/
def openedPartitions : Partitions :=
  Partitions.empty.insert ⟨"ada", .text "ada", ⟨.integer 0, false, none⟩⟩

/-- Cleo and Bob come behind Ada, in the order in which a minimum is first told for them, and once
more nothing is added. -/
theorem discover_additive_journal :
    opened = .partitioned openedPartitions ∧ reader.descriptor.cursor.discover = true ∧
    ∃ q starts added ps', reader.descriptor.minimumQuery reader.selection
        ⟨"owner", "TEXT", "TEXT", .text, true⟩ = some q ∧
      Partitions.Discovered .integer minimumRows openedPartitions starts added ps' ∧
      added.map (·.identity) = ["cleo", "bob"] ∧
      Polling.perform reader telling reader.discover ⟨opened, (), []⟩ =
        (.ok 2, ⟨.partitioned ps', (), [(q, .ok minimumRows)]⟩) ∧
      Polling.perform reader telling reader.discover ⟨.partitioned ps', (), []⟩ =
        (.ok 0, ⟨.partitioned ps', (), [(q, .ok minimumRows)]⟩) := by
  have hcursor : opened = .partitioned openedPartitions := rfl
  have hidentity : reader.selection.identity = some ⟨"owner", "TEXT", "TEXT", .text, true⟩ := rfl
  obtain ⟨-, hon⟩ := Reader.discover_additive (r := reader) (p := ⟨opened, (), []⟩) telling hcursor
    hidentity
  obtain ⟨q, hq, -, hrows⟩ := hon rfl
  obtain ⟨starts, added, ps', hdiscovered, -, -, -, hrun, hagain⟩ := hrows minimumRows rfl
  have hadopted : ps' = openedPartitions.adopt .integer minimumRows := by
    have hcursor := congrArg (fun x => x.2.cursor.partitions) hrun
    exact hcursor.symm
  have hadded : added = [⟨"cleo", .text "cleo", ⟨.integer 4, true, none⟩⟩,
      ⟨"bob", .text "bob", ⟨.integer 5, true, none⟩⟩] := by
    have hslots := hdiscovered.slots
    rw [hadopted] at hslots
    exact List.append_cancel_left hslots.symm
  refine ⟨hcursor, rfl, q, starts, added, ps', hq, hdiscovered, ?_, ?_, ?_⟩
  · rw [hadded]
    rfl
  · rw [hrun, hadded]
    rfl
  · exact hagain telling ⟨.partitioned ps', (), []⟩ rfl rfl

end Journal

end TableTail
