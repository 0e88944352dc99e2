import TableTail.Proofs.Tail.Opened
import TableTail.Proofs.Tail.Reconciled

/-!
# Restarting

The checkpoint of a table with partitions is saved and the table is opened again, with the same
configuration, which sets no starts, includes or excludes (`Reader.restart`). Whatever was done to
the table before, and whatever its database answers then, this succeeds, and each identity that was
tracked is tracked at the same mark and as read or unread as before; what is tracked besides is in
the database and starts at zero (`restart_reproduces`).
-/

namespace TableTail

namespace Partitions

variable {ps : Partitions} {identity : String}

/-- The positions of partitions are how far each identity has been read. -/
lemma WellFormed.get?_positions (h : ps.WellFormed) :
    Named.get? identity ps.positions = (ps.get? identity).map (·.progress.after) := by
  refine Option.ext fun m => ?_
  have hnodup : ((ps.slots.map fun p => (p.identity, p.progress.after)).map (·.1)).Nodup := by
    rw [List.map_map]
    exact h.nodup
  rw [positions, Named.get?_ofPairs_eq_some_iff hnodup, List.mem_map, Option.map_eq_some_iff]
  simp only [h.get?_eq_some_iff, Prod.mk.injEq, and_assoc]

/-- The unread identities of partitions are those whose position has not been read itself. -/
lemma WellFormed.mem_unread (h : ps.WellFormed) :
    identity ∈ ps.unread ↔ ∃ p, ps.get? identity = some p ∧ p.progress.unread = true := by
  rw [unread, Named.mem_sortedNames, List.mem_map]
  simp only [List.mem_filter, h.get?_eq_some_iff]
  constructor
  · rintro ⟨p, ⟨hp, hunread⟩, hidentity⟩
    exact ⟨p, ⟨hp, hidentity⟩, hunread⟩
  · rintro ⟨p, ⟨hp, hidentity⟩, hunread⟩
    exact ⟨p, ⟨hp, hunread⟩, hidentity⟩

/-- The positions of partitions are in order. -/
lemma sorted_positions (ps : Partitions) : Named.Sorted ps.positions := Named.sorted_ofPairs _

end Partitions

/-- Saves the checkpoint of a table and opens the table again. -/
def Reader.restart (root : String) (source : Source) (d : Descriptor) (schema : Schema)
    (idlePolicy : IdlePolicy) (r : Reader) (c : Cursor) :
    Activity (Except Failure Unit × Except Failure (Reader × Cursor)) := do
  let saved ← Checkpoint.save root r.catalog r.name c.checkpoint
  let opened ← Reader.open root source d schema idlePolicy
  return (saved, opened)

/-- The contents of files. -/
abbrev Files := Location → Option String

namespace Files

/-- Surroundings with these files, and with a database that answers a query with some rows. -/
def answer (rows : List Sql.Row) : (q : Action) → Files → q.Answer × Files
  | .query _, files => (.ok rows, files)
  | .load l, files => (.ok (files l), files)
  | .save l contents, files => (.ok (), fun l' => if l' = l then some contents else files l')
  | .exchange _ _, files => ((default : Cursor), files)
  | .emit _, files => (.ok (), files)
  | .describe _, files => (.ok none, files)
  | .enter _, files => ((), files)
  | .leave _, files => ((), files)
  | .clock, files => ((0 : Nat), files)

/-- Carries out a program in such surroundings. -/
def run {α : Type} (rows : List Sql.Row) (files : Files) (p : Activity α) : α × Files :=
  p.run (answer rows) (fun _ files => files) files

variable {rows : List Sql.Row} {files : Files} {root : String} {r : Reader}

/-- A program is carried out up to some point and from there on. -/
lemma run_bind {α β : Type} (p : Activity α) (f : α → Activity β) :
    files.run rows (p.bind f) = (files.run rows p).2.run rows (f (files.run rows p).1) :=
  Program.run_bind _ _ p f files

/-- A checkpoint is saved in the file of its table. -/
lemma run_save (catalog table : String) (checkpoint : Checkpoint) :
    files.run rows (Checkpoint.save root catalog table checkpoint) =
      (.ok (), fun l => if l = Location.of root catalog table then some checkpoint.encode
        else files l) := rfl

/-- A checkpoint is loaded from the file of its table. -/
lemma run_load {catalog table contents : String} {kind : MarkKind} {isPartitioned : Bool}
    {checkpoint : Checkpoint} (hfile : files (Location.of root catalog table) = some contents)
    (hdecode : Checkpoint.decode kind isPartitioned contents = .ok checkpoint) :
    files.run rows (Checkpoint.load root catalog table kind isPartitioned) =
      (.ok (some checkpoint), files) := by
  have hload : files.run rows (Activity.load (Location.of root catalog table)) =
      (.ok (some contents), files) := by
    rw [← hfile]
    rfl
  rw [Checkpoint.load, Program.bind_eq, run_bind, hload]
  simp only [hdecode]
  rfl

/-- What is loaded of the checkpoint of a table. -/
def loaded (files : Files) (root : String) (r : Reader) : Except Failure (Option Checkpoint) :=
  (files.run [] (Checkpoint.load root r.catalog r.name r.kind r.isPartitioned)).1

/-- A checkpoint is loaded whatever the database holds. -/
lemma run_load_eq_loaded :
    files.run rows (Checkpoint.load root r.catalog r.name r.kind r.isPartitioned) =
      (files.loaded root r, files) := by
  have hload : ∀ rows, files.run rows (Activity.load (Location.of root r.catalog r.name)) =
      (.ok (files (Location.of root r.catalog r.name)), files) := fun _ => rfl
  simp only [loaded, Checkpoint.load, Program.bind_eq, run_bind, hload]
  cases files (Location.of root r.catalog r.name) with
  | none => rfl
  | some contents =>
    cases hdecode : Checkpoint.decode r.kind r.isPartitioned contents
    all_goals
      simp only [hdecode]
      rfl

/-- What is known about the starts of a table's partitions when the table is opened. -/
def starts (files : Files) (root : String) (r : Reader) : Except Failure Opening.Starts := do
  let byDefault ← Opening.readDefault r.name r.kind r.descriptor.cursor.defaultStart
  let checkpoint ← Opening.usable (files.loaded root r)
  let configured ← Opening.readStarts r.name r.kind r.descriptor.cursor.starts
  return ⟨r.kind, byDefault, configured, (Opening.persistedPartitions checkpoint).1,
    (Opening.persistedPartitions checkpoint).2⟩

/-- A table with partitions is opened at its starts, with the identities that its database answers
and those that are configured or persisted. -/
lemma run_initialCursor {identity : Sql.Column} (hidentity : r.selection.identity = some identity) :
    files.run rows (Opening.initialCursor root r) =
      ((files.starts root r).map fun s => .partitioned (Opening.partitions r.descriptor.cursor s
        (Opening.addIdentities identity (Opening.identitiesOf rows)
          (Named.names s.configured ++ Named.names s.persisted ++ r.descriptor.cursor.includes))),
        files) := by
  obtain ⟨q, hq⟩ : ∃ q, r.descriptor.minimumQuery r.selection identity = some q := by
    simp [Descriptor.minimumQuery, Selection.minimums, hidentity]
  unfold Opening.initialCursor starts
  cases hdefault : Opening.readDefault r.name r.kind r.descriptor.cursor.defaultStart with
  | error e => rfl
  | ok byDefault =>
    simp only [Program.bind_eq, run_bind, run_load_eq_loaded]
    cases husable : Opening.usable (files.loaded root r) with
    | error e => rfl
    | ok checkpoint =>
      simp only [hidentity, Opening.partitionedCursor]
      cases hstarts : Opening.readStarts r.name r.kind r.descriptor.cursor.starts with
      | error e => rfl
      | ok configured =>
        simp only [hq, Program.bind_eq, run_bind]
        rfl

/-- A table without configured starts is opened at what was persisted. -/
lemma starts_of_persisted {contents : String} {positions : Named Mark} {unread : List String}
    (hdefault : r.descriptor.cursor.defaultStart = none) (hstarts : r.descriptor.cursor.starts = [])
    (hfile : files (Location.of root r.catalog r.name) = some contents)
    (hdecode : Checkpoint.decode r.kind r.isPartitioned contents =
      .ok (.partitioned positions unread)) :
    files.starts root r = .ok ⟨r.kind, none, [], positions, unread⟩ := by
  have hloaded : files.loaded root r = .ok (some (.partitioned positions unread)) := by
    rw [loaded, run_load hfile hdecode]
  rw [starts, hdefault, hstarts, hloaded]
  rfl

end Files

namespace Opening

/-- A reader has the description that it was made from. -/
lemma descriptor_of_readerOf {source : Source} {d : Descriptor} {schema : Schema}
    {idlePolicy : IdlePolicy} {r : Reader} (h : readerOf source d schema idlePolicy = .ok r) :
    r.descriptor = d := by
  unfold readerOf at h
  split at h
  · cases h
  · split at h
    · cases h
    · obtain rfl := Except.ok.inj h
      rfl

/-- What was persisted for an identity is where its partition starts, if nothing else is known. -/
lemma partition_of_persisted {kind : MarkKind} {persisted : Named Mark} {unread : List String}
    {identity : String} {m : Mark} (h : Named.get? identity persisted = some m) (param : Sql.Cell) :
    (Starts.partition ⟨kind, none, [], persisted, unread⟩ identity param).progress =
      ⟨m, unread.contains identity, none⟩ := by
  simp [Starts.partition, Mark.partitionStart, Mark.latest, h]

/-- Where nothing is known a partition starts at zero. -/
lemma partition_of_unknown {kind : MarkKind} {persisted : Named Mark} {unread : List String}
    {identity : String} (h : Named.get? identity persisted = none) (param : Sql.Cell) :
    (Starts.partition ⟨kind, none, [], persisted, unread⟩ identity param).progress =
      ⟨Mark.zero kind, false, none⟩ := by
  simp [Starts.partition, Mark.partitionStart, Mark.latest, h]

end Opening

/-- How a cursor with partitions comes out of a restart. -/
structure Partitions.Reproduced (kind : MarkKind) (rows : List Sql.Row) (ps ps' : Partitions) :
    Prop where
  wellFormed : ps'.WellFormed
  tracked : ∀ identity p, ps.get? identity = some p → ∃ p', ps'.get? identity = some p' ∧
    p'.progress.after.same p.progress.after = true ∧
    (kind ≠ .decimal → p'.progress.after = p.progress.after) ∧
    p'.progress.unread = p.progress.unread
  further : ∀ identity p', ps.get? identity = none → ps'.get? identity = some p' →
    (∃ row ∈ rows, (identityOf? row).map (·.1) = some identity) ∧
    p'.progress.after = Mark.zero kind ∧ p'.progress.unread = false
  active : ∀ p' ∈ ps'.slots, p'.progress.idle = none

/-- What was persisted of partitions and what is known besides reproduce them. -/
lemma Partitions.reproduced {ps : Partitions} {kind : MarkKind}
    (hmarks : ∀ identity p, ps.get? identity = some p → p.progress.after.OfKind kind)
    {c : CursorSettings} (hincludes : c.includes = []) (hexcludes : c.excludes = [])
    {persisted : Named Mark} {unread : List String} {known : Named Sql.Cell} {rows : List Sql.Row}
    (hpersisted : ∀ identity, Named.get? identity persisted =
      (ps.get? identity).map (·.progress.after.normalize))
    (hunread : ∀ identity p, ps.get? identity = some p →
      unread.contains identity = p.progress.unread)
    (hsorted : Named.Sorted known)
    (hknown : ∀ identity, Named.has identity known = true ↔
      (∃ row ∈ rows, (identityOf? row).map (·.1) = some identity) ∨
        (ps.get? identity).isSome = true) :
    ps.Reproduced kind rows
      (Opening.partitions c ⟨kind, none, [], persisted, unread⟩ known) where
  wellFormed := Opening.wellFormed_partitions
  tracked identity p hp := by
    have hadmitted : Opening.admits c identity = true := by
      simp [Opening.admits, hincludes, hexcludes]
    have hmark : Named.get? identity persisted = some p.progress.after.normalize := by
      rw [hpersisted, hp]
      rfl
    obtain ⟨param, hparam⟩ := Option.isSome_iff_exists.1
      ((hknown identity).2 (.inr (by rw [hp]; rfl)))
    obtain ⟨hkind, hregular⟩ := hmarks identity p hp
    have hsame := Mark.same_normalize_iff.2 hregular
    refine ⟨_, (Opening.get?_partitions hsorted).2 ⟨param, hparam, hadmitted, rfl⟩, ?_⟩
    rw [Opening.partition_of_persisted hmark param]
    refine ⟨hsame, fun hdecimal => ?_, hunread identity p hp⟩
    exact Mark.normalize_eq_self (hkind ▸ hdecimal) hregular
  further identity p' hnone hp' := by
    obtain ⟨param, hparam, -, rfl⟩ := (Opening.get?_partitions hsorted).1 hp'
    have hmark : Named.get? identity persisted = none := by
      rw [hpersisted, hnone]
      rfl
    rw [Opening.partition_of_unknown hmark param]
    refine ⟨?_, rfl, rfl⟩
    rcases (hknown identity).1 (by rw [Named.has, hparam]; rfl) with hrow | htracked
    · exact hrow
    · rw [hnone] at htracked
      cases htracked
  active p' hp' := by
    rw [Opening.slots_partitions hsorted] at hp'
    obtain ⟨k, -, rfl⟩ := List.mem_map.1 hp'
    rfl

/-- What a checkpoint keeps of partitions, and the identities in the database, reproduce them. -/
lemma Partitions.WellFormed.reproduced {ps : Partitions} (h : ps.WellFormed) {kind : MarkKind}
    (hmarks : ∀ identity p, ps.get? identity = some p → p.progress.after.OfKind kind)
    {c : CursorSettings} (hincludes : c.includes = []) (hexcludes : c.excludes = [])
    (column : Sql.Column) (rows : List Sql.Row) {persisted : Named Mark} {unread : List String}
    (hpersisted : persisted = ps.positions.map fun p => (p.1, p.2.normalize))
    (hunread : unread = (Named.names ps.positions).filter ps.unread.contains) :
    ps.Reproduced kind rows (Opening.partitions c ⟨kind, none, [], persisted, unread⟩
      (Opening.addIdentities column (Opening.identitiesOf rows) (Named.names persisted))) := by
  have hmark : ∀ identity, Named.get? identity persisted =
      (ps.get? identity).map (·.progress.after.normalize) := by
    intro identity
    rw [hpersisted, Named.get?_map_values, h.get?_positions, Option.map_map]
    rfl
  have hname : ∀ identity, identity ∈ Named.names ps.positions ↔
      (ps.get? identity).isSome = true := by
    intro identity
    rw [Named.names, ← Named.has_iff, Named.has, h.get?_positions, Option.isSome_map]
  refine Partitions.reproduced hmarks hincludes hexcludes hmark (fun identity p hp => ?_)
    (Opening.sorted_addIdentities (Named.sorted_ofPairs _)) fun identity => ?_
  · have htracked : identity ∈ Named.names ps.positions := (hname identity).2 (by rw [hp]; rfl)
    rw [Bool.eq_iff_iff, List.contains_iff_mem, hunread, List.mem_filter, List.contains_iff_mem,
      h.mem_unread, hp]
    simp [htracked]
  · rw [Opening.has_addIdentities, Opening.has_identitiesOf, Named.names, ← Named.has_iff,
      Named.has, hmark, Option.isSome_map]

/-- A table without configured starts is opened again at what its file keeps. -/
lemma Files.run_restart (rows : List Sql.Row) (files : Files) (root : String) {source : Source}
    {r : Reader} {schema : Schema} {idlePolicy : IdlePolicy} {c : Cursor} {identity : Sql.Column}
    {positions : Named Mark} {unread : List String}
    (hreader : Opening.readerOf source r.descriptor schema idlePolicy = .ok r)
    (hidentity : r.selection.identity = some identity)
    (hdefault : r.descriptor.cursor.defaultStart = none) (hstarts : r.descriptor.cursor.starts = [])
    (hincludes : r.descriptor.cursor.includes = [])
    (hdecode : Checkpoint.decode r.kind r.isPartitioned c.checkpoint.encode =
      .ok (.partitioned positions unread)) :
    (files.run rows (Reader.restart root source r.descriptor schema idlePolicy r c)).1 =
      (.ok (), .ok (r, .partitioned (Opening.partitions r.descriptor.cursor
        ⟨r.kind, none, [], positions, unread⟩
        (Opening.addIdentities identity (Opening.identitiesOf rows)
          (Named.names positions))))) := by
  simp only [Reader.restart, Program.bind_eq]
  rw [run_bind, run_save, run_bind]
  simp only [Reader.open, hreader, Program.bind_eq]
  rw [run_bind, run_initialCursor hidentity,
    starts_of_persisted hdefault hstarts (if_pos rfl) hdecode, hincludes]
  simp only [Named.names, List.map_nil, List.nil_append, List.append_nil, Except.map]
  rfl

/-- A table with partitions whose configuration sets no starts, includes or excludes is restarted,
whatever was done to it: its checkpoint can be saved and the table can be opened again, and its
partitions are reproduced. -/
theorem restart_reproduces {root : String} {source : Source} {d : Descriptor} {schema : Schema}
    {idlePolicy : IdlePolicy} {r : Reader} {cursor : Cursor} {u : Usage}
    (hopen : (Reader.open root source d schema idlePolicy).Returns (.ok (r, cursor)))
    (hpartitioned : r.isPartitioned = true) (hdefault : d.cursor.defaultStart = none)
    (hstarts : d.cursor.starts = []) (hincludes : d.cursor.includes = [])
    (hexcludes : d.cursor.excludes = []) (hrun : Usage.Run r (Usage.opening cursor) u)
    (rows : List Sql.Row) (files : Files) :
    ∃ ps ps', u.cursor = .partitioned ps ∧
      (files.run rows (Reader.restart root source d schema idlePolicy r u.cursor)).1 =
        (.ok (), .ok (r, .partitioned ps')) ∧
      ps.Reproduced r.kind rows ps' := by
  obtain ⟨hreader, hkeeps⟩ := Reader.open_keeps hopen
  obtain rfl := Opening.descriptor_of_readerOf hreader
  have hcursor := ((Usage.Invariant.opening hkeeps).run hrun).cursor
  obtain ⟨identity, hidentity⟩ := Option.isSome_iff_exists.1 hpartitioned
  cases hu : u.cursor with
  | single after idle =>
    have hmode := hcursor.mode
    rw [hu, hpartitioned] at hmode
    cases hmode
  | partitioned ps =>
    rw [hu] at hcursor
    have hwell : ps.WellFormed := hcursor.wellFormed
    have hmarks : ∀ identity p, ps.get? identity = some p → p.progress.after.OfKind r.kind := by
      intro identity p hp
      exact hcursor.marks p.unit (List.mem_map.2 ⟨p, (hwell.get?_eq_some_iff.1 hp).1, rfl⟩)
    -- only marks of the reader's kind are read back from the file
    have hpositions : ∀ q ∈ ps.positions, q.2.kind = r.kind := by
      intro q hq
      have hget := (Named.get?_eq_some_iff ps.sorted_positions.nodup).2 hq
      rw [hwell.get?_positions] at hget
      obtain ⟨p, hp, hafter⟩ := Option.map_eq_some_iff.1 hget
      exact hafter ▸ (hmarks _ p hp).kind_eq
    have hdecode : Checkpoint.decode r.kind r.isPartitioned
        (Cursor.partitioned ps).checkpoint.encode =
          .ok (.partitioned (ps.positions.map fun p => (p.1, p.2.normalize))
            ((Named.names ps.positions).filter ps.unread.contains)) := by
      rw [hpartitioned]
      exact Checkpoint.decode_encode_partitioned ps.sorted_positions hpositions
    have hrestart := Files.run_restart rows files root hreader hidentity hdefault hstarts hincludes
      hdecode
    exact ⟨ps, _, rfl, hrestart, hwell.reproduced hmarks hincludes hexcludes identity rows rfl rfl⟩

namespace Journal

/-- The least entry of an owner. -/
def least (owner : String) (id : Int64) : Sql.Row :=
  ⟨["identity", "minimum"], [.text owner, .integer id]⟩

/-- The least entries of two owners can be answered. -/
lemma answerable_least (a b : String) (i j : Int64) :
    Sql.Answerable (.ok [least a i, least b j]) := by
  rintro _ ⟨⟩
  simp [least, Sql.Row.IsRegular, Sql.Cell.IsRegular]

/-- The cursor of the journal after another owner was discovered. -/
def discovered : Cursor := opened.adopt .integer [least "ada" 1, least "bob" 7]

/-- A discovery in the journal finds the other owner. -/
lemma run_discovered : Usage.Run reader (Usage.opening opened) ⟨discovered, [], []⟩ := by
  have hquery : ∀ q, Usage.Answers reader opened (.query q)
      (.ok [least "ada" 1, least "bob" 7] : Except DatabaseError (List Sql.Row)) opened :=
    fun _ => ⟨rfl, answerable_least "ada" "bob" 1 7⟩
  have hexchange : Usage.Answers reader opened
      (.exchange "journal" (Cursor.adopt .integer [least "ada" 1, least "bob" 7]))
      opened discovered := ⟨rfl, rfl⟩
  refine Usage.run_begun .discover (.head (b := (_, opened)) (.ask (hquery _)) ?_)
  exact .head (b := (.done [], discovered)) (.ask hexchange) .refl

/-- The journal is restarted right after the discovery, when there is one more owner. -/
theorem restart_reproduces_discovered :
    ∃ ps ps', discovered = .partitioned ps ∧
      (Files.run [least "ada" 1, least "bob" 7, least "cyd" 9] (fun _ => none)
        (Reader.restart "." source descriptor schema ⟨0, 0⟩ reader discovered)).1 =
          (.ok (), .ok (reader, .partitioned ps')) ∧
      ps.Reproduced .integer [least "ada" 1, least "bob" 7, least "cyd" 9] ps' :=
  restart_reproduces open_returns rfl rfl rfl rfl rfl run_discovered _ _

end Journal

end TableTail
