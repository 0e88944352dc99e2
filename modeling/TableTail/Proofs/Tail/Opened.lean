import TableTail.Proofs.Checkpoint.RoundTrip
import TableTail.Proofs.Tail.Usage
import TableTail.Tail.Opening

/-!
# What opening a table gives

Whatever the database and the checkpoint's file answer, a table that is opened has a single mark
that is not idle, or the reconciled partitions of its identities (`initialCursor_cases`). All marks,
configured, persisted or the zero, are regular and of the reader's kind, so the cursor is one that
the reader keeps (`Reader.open_keeps`).
-/

namespace TableTail

namespace Mark

/-- The latest of some marks is one of them. -/
lemma mem_of_latest {l : List Mark} {m : Mark} (h : latest l = some m) : m ∈ l := by
  cases l with
  | nil => cases h
  | cons first rest =>
    obtain rfl := Option.some.inj h
    induction rest generalizing first with
    | nil => simp
    | cons next rest ih =>
      rw [List.foldl_cons]
      rcases List.mem_cons.1 (ih (first.later next) rfl) with hhead | hrest
      · rw [hhead, later]
        split <;> simp
      · simp [hrest]

end Mark

namespace Checkpoint

/-- What is loaded as a checkpoint has marks of the wanted kind. -/
lemma ofKind_of_load {root catalog table : String} {kind : MarkKind} {isPartitioned : Bool}
    {checkpoint : Checkpoint}
    (h : (load root catalog table kind isPartitioned).Returns (.ok (some checkpoint))) :
    checkpoint.OfKind kind := by
  simp only [load, Program.bind_eq] at h
  obtain ⟨answer, -, h⟩ := Program.returns_bind.1 h
  cases answer with
  | error e => simp [Program.Returns] at h
  | ok found =>
    cases found with
    | none => simp [Program.Returns] at h
    | some contents =>
      simp only at h
      cases hread : decode kind isPartitioned contents with
      | error e => simp [hread, Program.Returns] at h
      | ok checkpoint' =>
        simp only [hread, Program.pure_eq_done, Program.Returns, Except.ok.injEq,
          Option.some.injEq] at h
        exact h ▸ ofKind_of_decode hread

end Checkpoint

namespace Opening

/-- What is known about the starts is of their kind. -/
structure Starts.OfKind (s : Starts) : Prop where
  byDefault : ∀ m ∈ s.byDefault, m.OfKind s.kind
  configured : ∀ p ∈ s.configured, p.2.OfKind s.kind
  persisted : ∀ p ∈ s.persisted, p.2.OfKind s.kind

variable {root : String} {r : Reader} {c : Cursor}

/-- A partition starts at a mark of the kind. -/
lemma Starts.OfKind.partition {s : Starts} (h : s.OfKind) (identity : String) (param : Sql.Cell) :
    (s.partition identity param).progress.after.OfKind s.kind := by
  have hnamed : ∀ m : Named Mark, (∀ p ∈ m, p.2.OfKind s.kind) →
      ∀ v ∈ Named.get? identity m, v.OfKind s.kind :=
    fun m hm v hv => hm (identity, v) (Named.mem_of_get? hv)
  simp only [Starts.partition, Mark.partitionStart]
  cases hlatest : Mark.latest (s.byDefault.toList ++
      (Named.get? identity s.configured).toList ++ (Named.get? identity s.persisted).toList) with
  | none => exact Mark.ofKind_zero _
  | some m =>
    have hm := Mark.mem_of_latest hlatest
    simp only [List.mem_append, Option.mem_toList] at hm
    obtain (hm | hm) | hm := hm
    · exact h.byDefault m hm
    · exact hnamed _ h.configured m hm
    · exact hnamed _ h.persisted m hm

/-- Configured texts are read as marks of the kind. -/
lemma ofKind_of_readStart {table text : String} {kind : MarkKind} {place : StartPlace} {m : Mark}
    (h : readStart table kind place text = .ok m) : m.OfKind kind := by
  unfold readStart at h
  split at h
  · next hread =>
    obtain rfl := Except.ok.inj h
    exact Mark.ofKind_of_read hread
  · cases h

/-- Configured texts of identities are read one after the other. -/
lemma readStarts_cons {table text identity : String} {kind : MarkKind} {rest : Named String}
    {marks : Named Mark} (h : readStarts table kind ((identity, text) :: rest) = .ok marks) :
    ∃ m others, readStart table kind (.identity identity) text = .ok m ∧
      readStarts table kind rest = .ok others ∧ marks = (identity, m) :: others := by
  rw [readStarts] at h
  cases hstart : readStart table kind (.identity identity) text with
  | error e => simp [hstart] at h
  | ok m =>
    cases hrest : readStarts table kind rest with
    | error e => simp [hstart, hrest] at h
    | ok others =>
      simp only [hstart, hrest, Except.ok.injEq] at h
      exact ⟨m, others, rfl, rfl, h.symm⟩

/-- Configured texts of identities are read as marks of the kind. -/
lemma ofKind_of_readStarts {table : String} {kind : MarkKind} {starts : Named String}
    {marks : Named Mark} (h : readStarts table kind starts = .ok marks) :
    ∀ p ∈ marks, p.2.OfKind kind := by
  induction starts generalizing marks with
  | nil =>
    obtain rfl := Except.ok.inj h
    simp
  | cons start rest ih =>
    obtain ⟨m, others, hstart, hrest, rfl⟩ := readStarts_cons h
    intro p hp
    rcases List.mem_cons.1 hp with rfl | hp
    · exact ofKind_of_readStart hstart
    · exact ih hrest p hp

/-- The text configured for all of a table is read as a mark of the kind. -/
lemma ofKind_of_readDefault {table : String} {kind : MarkKind} {text : Option String}
    {byDefault : Option Mark} (h : readDefault table kind text = .ok byDefault) :
    ∀ m ∈ byDefault, m.OfKind kind := by
  cases text with
  | none =>
    obtain rfl := Except.ok.inj h
    simp
  | some text =>
    rw [readDefault] at h
    cases hstart : readStart table kind .byDefault text with
    | error e => simp [hstart, Except.map] at h
    | ok m =>
      simp only [hstart, Except.map, Except.ok.injEq] at h
      subst h
      simpa using ofKind_of_readStart hstart

/-- The cursor of a table with partitions is made of what is configured, what was persisted and
what the database answers. -/
lemma partitionedCursor_cases {identity : Sql.Column} {byDefault : Option Mark}
    {checkpoint : Option Checkpoint}
    (h : (partitionedCursor r identity byDefault checkpoint).Returns (.ok c)) :
    ∃ configured known, (∀ p ∈ configured, p.2.OfKind r.kind) ∧
      c = .partitioned (partitions r.descriptor.cursor
        ⟨r.kind, byDefault, configured, (persistedPartitions checkpoint).1,
          (persistedPartitions checkpoint).2⟩ known) := by
  unfold partitionedCursor at h
  cases hstarts : readStarts r.name r.kind r.descriptor.cursor.starts with
  | error e => simp [hstarts, Program.Returns] at h
  | ok configured =>
    have hmarks := ofKind_of_readStarts hstarts
    simp only [hstarts, Program.bind_eq] at h
    cases hquery : r.descriptor.minimumQuery r.selection identity with
    | none =>
      simp only [hquery, Program.pure_eq_done, Program.done_bind, Program.Returns,
        Except.ok.injEq] at h
      exact ⟨configured, _, hmarks, h.symm⟩
    | some q =>
      simp only [hquery] at h
      obtain ⟨answer, -, h⟩ := Program.returns_bind.1 h
      cases answer with
      | error e => simp [Program.Returns] at h
      | ok rows =>
        simp only [Program.pure_eq_done, Program.Returns, Except.ok.injEq] at h
        exact ⟨configured, _, hmarks, h.symm⟩

/-- What is usable of what was loaded was loaded. -/
lemma eq_of_usable {loaded : Except Failure (Option Checkpoint)} {checkpoint : Checkpoint}
    (h : usable loaded = .ok (some checkpoint)) : loaded = .ok (some checkpoint) := by
  unfold usable at h
  split at h
  · cases h
  · exact h

/-- A table with one mark starts at a mark of the kind. -/
lemma ofKind_singleStart {kind : MarkKind} {configured persisted : Option Mark}
    (hconfigured : ∀ m ∈ configured, m.OfKind kind) (hpersisted : ∀ m ∈ persisted, m.OfKind kind) :
    (Mark.singleStart kind configured persisted).OfKind kind := by
  cases configured with
  | none =>
    cases persisted with
    | none => exact Mark.ofKind_zero kind
    | some b => exact hpersisted b rfl
  | some a =>
    cases persisted with
    | none => exact hconfigured a rfl
    | some b =>
      simp only [Mark.singleStart, Mark.earlier]
      split
      · exact hpersisted b rfl
      · exact hconfigured a rfl

/-- The cursor of a table that is opened. -/
lemma initialCursor_cases (h : (initialCursor root r).Returns (.ok c)) :
    (r.selection.identity = none ∧ ∃ m, m.OfKind r.kind ∧ c = .single m none) ∨
    (r.selection.identity.isSome ∧ ∃ starts known, starts.kind = r.kind ∧ starts.OfKind ∧
      c = .partitioned (partitions r.descriptor.cursor starts known)) := by
  unfold initialCursor at h
  cases hdefault : readDefault r.name r.kind r.descriptor.cursor.defaultStart with
  | error e => simp [hdefault, Program.Returns] at h
  | ok byDefault =>
    have hmarks := ofKind_of_readDefault hdefault
    simp only [hdefault, Program.bind_eq] at h
    obtain ⟨loaded, hloaded, h⟩ := Program.returns_bind.1 h
    cases husable : usable loaded with
    | error e => simp [husable, Program.Returns] at h
    | ok checkpoint =>
      have hcheckpoint : ∀ k ∈ checkpoint, k.OfKind r.kind := by
        rintro k rfl
        exact Checkpoint.ofKind_of_load (eq_of_usable husable ▸ hloaded)
      simp only [husable] at h
      cases hidentity : r.selection.identity with
      | none =>
        simp only [hidentity, Program.pure_eq_done, Program.Returns, Except.ok.injEq] at h
        refine .inl ⟨rfl, _, ofKind_singleStart hmarks fun m hm => ?_, h.symm⟩
        obtain _ | m' | _ := checkpoint
        · cases hm
        · obtain rfl := Option.some.inj hm
          exact hcheckpoint _ rfl
        · cases hm
      | some identity =>
        simp only [hidentity] at h
        obtain ⟨configured, known, hconfigured, hc⟩ := partitionedCursor_cases h
        refine .inr ⟨rfl, _, known, rfl, ⟨hmarks, hconfigured, fun p hp => ?_⟩, hc⟩
        obtain _ | m' | ⟨positions, unread⟩ := checkpoint
        · cases hp
        · cases hp
        · exact hcheckpoint _ rfl p hp

/-- A configured text that denotes no mark is a fault of the configuration. -/
lemma config_of_readStart {table text : String} {kind : MarkKind} {place : StartPlace}
    {e : Failure} (h : readStart table kind place text = .error e) : ∃ fault, e = .config fault := by
  unfold readStart at h
  split at h
  · cases h
  · obtain rfl := Except.error.inj h
    exact ⟨_, rfl⟩

/-- So are the configured texts of identities. -/
lemma config_of_readStarts {table : String} {kind : MarkKind} {starts : Named String} {e : Failure}
    (h : readStarts table kind starts = .error e) : ∃ fault, e = .config fault := by
  induction starts with
  | nil => cases h
  | cons start rest ih =>
    obtain ⟨identity, text⟩ := start
    rw [readStarts] at h
    cases hstart : readStart table kind (.identity identity) text with
    | error e' =>
      simp only [hstart, Except.error.injEq] at h
      exact h ▸ config_of_readStart hstart
    | ok m =>
      cases hrest : readStarts table kind rest with
      | error e' =>
        simp only [hstart, hrest, Except.error.injEq] at h
        exact ih (h ▸ hrest)
      | ok marks => simp [hstart, hrest] at h

/-- So is the text configured for all of a table. -/
lemma config_of_readDefault {table : String} {kind : MarkKind} {text : Option String} {e : Failure}
    (h : readDefault table kind text = .error e) : ∃ fault, e = .config fault := by
  cases text with
  | none => cases h
  | some text =>
    rw [readDefault] at h
    cases hstart : readStart table kind .byDefault text with
    | error e' =>
      simp only [hstart, Except.map, Except.error.injEq] at h
      exact h ▸ config_of_readStart hstart
    | ok m => simp [hstart, Except.map] at h

/-- The ways in which the start of a table can fail to be worked out: a start is configured that
denotes no mark, the checkpoint's file makes no sense, or the database does not answer. -/
inductive Unopened : Failure → Prop
  | config (fault : ConfigFault) : Unopened (.config fault)
  | corrupt (table : String) (location : Location) (cause : Checkpoint.FormatError) :
      Unopened (.corrupt table location cause)
  | database (cause : DatabaseError) : Unopened (.database cause)

/-- Partitions fail for a configured start or for the database's answer. -/
lemma unopened_of_partitionedCursor {identity : Sql.Column} {byDefault : Option Mark}
    {checkpoint : Option Checkpoint} {e : Failure}
    (h : (partitionedCursor r identity byDefault checkpoint).Returns (.error e)) : Unopened e := by
  unfold partitionedCursor at h
  cases hstarts : readStarts r.name r.kind r.descriptor.cursor.starts with
  | error e' =>
    simp only [hstarts, Program.pure_eq_done, Program.Returns, Except.error.injEq] at h
    obtain ⟨fault, rfl⟩ := config_of_readStarts hstarts
    exact h ▸ .config fault
  | ok configured =>
    simp only [hstarts, Program.bind_eq] at h
    cases hquery : r.descriptor.minimumQuery r.selection identity with
    | none => simp [hquery, Program.Returns] at h
    | some q =>
      simp only [hquery] at h
      obtain ⟨answer, -, h⟩ := Program.returns_bind.1 h
      cases answer with
      | error cause =>
        simp only [Program.pure_eq_done, Program.Returns, Except.error.injEq] at h
        exact h ▸ .database cause
      | ok rows => simp [Program.Returns] at h

/-- What a checkpoint is loaded as is usable unless its file makes no sense. -/
lemma corrupt_of_usable {root catalog table : String} {kind : MarkKind} {isPartitioned : Bool}
    {loaded : Except Failure (Option Checkpoint)} {e : Failure}
    (hloaded : (Checkpoint.load root catalog table kind isPartitioned).Returns loaded)
    (h : usable loaded = .error e) : Unopened e := by
  simp only [Checkpoint.load, Program.bind_eq] at hloaded
  obtain ⟨answer, -, hloaded⟩ := Program.returns_bind.1 hloaded
  rcases answer with cause | _ | contents
  · obtain rfl := hloaded
    cases h
  · obtain rfl := hloaded
    cases h
  · simp only at hloaded
    cases hread : Checkpoint.decode kind isPartitioned contents with
    | ok checkpoint =>
      simp only [hread, Program.pure_eq_done, Program.Returns] at hloaded
      subst hloaded
      cases h
    | error cause =>
      simp only [hread, Program.pure_eq_done, Program.Returns] at hloaded
      subst hloaded
      obtain rfl := Except.error.inj h
      exact .corrupt _ _ cause

/-- No other failure comes of working out where reading starts. -/
lemma unopened_of_initialCursor {e : Failure}
    (h : (initialCursor root r).Returns (.error e)) : Unopened e := by
  unfold initialCursor at h
  cases hdefault : readDefault r.name r.kind r.descriptor.cursor.defaultStart with
  | error e' =>
    simp only [hdefault, Program.pure_eq_done, Program.Returns, Except.error.injEq] at h
    obtain ⟨fault, rfl⟩ := config_of_readDefault hdefault
    exact h ▸ .config fault
  | ok byDefault =>
    simp only [hdefault, Program.bind_eq] at h
    obtain ⟨loaded, hloaded, h⟩ := Program.returns_bind.1 h
    cases husable : usable loaded with
    | error e' =>
      simp only [husable, Program.pure_eq_done, Program.Returns, Except.error.injEq] at h
      exact h ▸ corrupt_of_usable hloaded husable
    | ok checkpoint =>
      simp only [husable] at h
      cases hidentity : r.selection.identity with
      | none => simp [hidentity, Program.Returns] at h
      | some identity =>
        simp only [hidentity] at h
        exact unopened_of_partitionedCursor h

end Opening

/-- A table that is opened has a cursor that its reader keeps. -/
theorem Reader.open_keeps {root : String} {source : Source} {d : Descriptor} {schema : Schema}
    {idlePolicy : IdlePolicy} {r : Reader} {c : Cursor}
    (h : (Reader.open root source d schema idlePolicy).Returns (.ok (r, c))) :
    Opening.readerOf source d schema idlePolicy = .ok r ∧ r.Keeps c := by
  unfold Reader.open at h
  cases hreader : Opening.readerOf source d schema idlePolicy with
  | error fault => simp [hreader, Program.Returns] at h
  | ok r' =>
    simp only [hreader, Program.bind_eq] at h
    obtain ⟨outcome, hinitial, h⟩ := Program.returns_bind.1 h
    cases outcome with
    | error e => simp [Program.Returns] at h
    | ok c' =>
      simp only [Program.pure_eq_done, Program.Returns, Except.ok.injEq, Prod.mk.injEq] at h
      obtain ⟨rfl, rfl⟩ := h
      refine ⟨rfl, ?_⟩
      obtain ⟨hnone, m, hmark, rfl⟩ | ⟨hsome, starts, known, hkind, hstarts, rfl⟩ :=
        Opening.initialCursor_cases hinitial
      · exact ⟨trivial, by simp [Cursor.isPartitioned, Reader.isPartitioned, hnone],
          by simpa [Cursor.units] using hmark⟩
      · refine ⟨Partitions.WellFormed.empty.foldl_insert _, hsome.symm, fun u hu => ?_⟩
        obtain ⟨p, hp, rfl⟩ := List.mem_map.1 hu
        obtain ⟨added, hadded, hslots⟩ := Partitions.slots_foldl_insert Partitions.empty
          ((known.filter fun k => Opening.admits r'.descriptor.cursor k.1).map
            fun k => starts.partition k.1 k.2)
        rw [Opening.partitions, hslots] at hp
        obtain ⟨k, -, rfl⟩ := List.mem_map.1 (hadded.subset (by simpa [Partitions.empty] using hp))
        exact hkind ▸ hstarts.partition k.1 k.2

namespace Journal

/-- A table of entries with ascending numbers, each of which has an owner; it is read owner by
owner. -/
def descriptor : Descriptor :=
  ⟨"journal", "journal", [], [], [], none, ⟨"id", some "owner", none, [], [], [], true⟩⟩

/-- The columns of the table. -/
def schema : Schema :=
  ⟨"journal",
    [⟨"id", "INTEGER", "INTEGER", .integer, false⟩, ⟨"owner", "TEXT", "TEXT", .text, true⟩]⟩

/-- The statements for the table. -/
def selection : Selection :=
  ⟨.sqlite, "\"journal\"", [⟨.column "id", "id"⟩, ⟨.column "owner", "owner"⟩],
    ⟨"id", "INTEGER", "INTEGER", .integer, false⟩,
    some ⟨"owner", "TEXT", "TEXT", .text, true⟩, none⟩

/-- The open table; its units are never left out. -/
def reader : Reader := ⟨descriptor, schema, selection, "db", .integer, ⟨0, 0⟩⟩

/-- The database of the journal. -/
def source : Source := ⟨.sqlite, "db", "main"⟩

/-- The cursor of the journal when it is opened without a checkpoint. -/
def opened : Cursor :=
  .partitioned (Partitions.empty.insert ⟨"ada", .text "ada", ⟨.integer 0, false, none⟩⟩)

/-- The journal can be opened with this cursor. -/
lemma open_returns :
    (Reader.open "." source descriptor schema ⟨0, 0⟩).Returns (.ok (reader, opened)) :=
  ⟨(.ok none : Except FileError (Option String)),
    (.ok [⟨["identity", "minimum"], [.text "ada", .integer 1]⟩] :
      Except DatabaseError (List Sql.Row)), rfl⟩

end Journal

end TableTail
