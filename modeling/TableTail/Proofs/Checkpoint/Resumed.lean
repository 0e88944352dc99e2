import TableTail.Proofs.Checkpoint.Apart
import TableTail.Proofs.Tail.Tracked

/-!
# Opening a table with its checkpoint

A table is opened from three things: the starts that are configured, what the database answers, and
the checkpoint, if there is a usable one (`Rehearsal.opening_eq`). The first two alone decide
whether a usable checkpoint leads to an open table (`Rehearsal.opens_eq_error_iff`), and the third
one enters in the same way whatever is in it (`Checkpoint.usedBy_cursorFrom`).

So the content of a checkpoint's file is used or makes the opening fail, as long as its bytes are
the UTF-8 form of a text. Any other bytes are taken for a file that cannot be read, and the table is
opened as if it had no checkpoint (`Rehearsal.opening_of_bytes`).
-/

namespace TableTail

/-- Bytes are read as a text exactly if they are its UTF-8 form. -/
lemma FileTree.textOfBytes_eq_ok_iff {bytes : List UInt8} {contents : String} :
    textOfBytes bytes = .ok contents ↔ bytes = bytesOfText contents := by
  constructor
  · intro h
    have hlist : bytesOfText contents = contents.toByteArray.data.toList :=
      toList_loop contents.toByteArray 0 []
    rw [textOfBytes, String.fromUTF8?] at h
    split at h
    · next s hs =>
      split at hs
      · obtain rfl := Except.ok.inj h
        obtain rfl := Option.some.inj hs
        rw [hlist]
        rfl
      · cases hs
    · cases h
  · rintro rfl
    exact textOfBytes_bytesOfText contents

namespace Opening

/-- The cursor of a table with configured starts whose database has answered some rows, from a
checkpoint or from none. -/
def cursorFrom (r : Reader) (byDefault : Option Mark) (configured : Named Mark)
    (rows : List Sql.Row) (checkpoint : Option Checkpoint) : Cursor :=
  match r.selection.identity with
  | none => .single (Mark.singleStart r.kind byDefault (persistedSingle checkpoint)) none
  | some column =>
    .partitioned (opened r.descriptor.cursor
      ⟨r.kind, byDefault, configured, (persistedPartitions checkpoint).1,
        (persistedPartitions checkpoint).2⟩ column rows)

/-- An identity that is named and admitted is tracked, whatever the database answers. -/
lemma exists_get?_opened {c : CursorSettings} {s : Starts} (column : Sql.Column)
    (rows : List Sql.Row) {identity : String}
    (hnames : Named.names s.configured = Named.names c.starts)
    (hadmitted : admits c identity = true) (hnamed : identity ∈ named c s.persisted) :
    ∃ param, (opened c s column rows).get? identity = some (s.partition identity param) := by
  cases hanswered : Named.get? identity (identitiesOf rows) with
  | some param =>
    exact ⟨param, (get?_opened hnames).2 ⟨hadmitted, param, rfl, .inl hanswered⟩⟩
  | none =>
    exact ⟨_, (get?_opened hnames).2 ⟨hadmitted, _, rfl, .inr ⟨hanswered, hnamed, rfl⟩⟩⟩

end Opening

/-- A checkpoint is used by a cursor: a single mark is reconciled with the one that is configured
for the table, and the mark of each identity that is admitted with those that are configured for
this identity. An identity stays unread while its partition starts at its mark. -/
def Checkpoint.UsedBy (checkpoint : Checkpoint) (r : Reader) (byDefault : Option Mark)
    (c : Cursor) : Prop :=
  match checkpoint, c with
  | .single m, .single after idle =>
    after = Mark.singleStart r.kind byDefault (some m) ∧ idle = none
  | .partitioned positions unread, .partitioned ps =>
    ∃ configured, Opening.readStarts r.name r.kind r.descriptor.cursor.starts = .ok configured ∧
      ∀ identity m, Named.get? identity positions = some m →
        Opening.admits r.descriptor.cursor identity = true →
        ∃ p start, ps.get? identity = some p ∧
          start = Mark.partitionStart r.kind byDefault (Named.get? identity configured) (some m) ∧
          p.progress = ⟨start, unread.contains identity && m.same start, none⟩
  | _, _ => False

namespace Rehearsal

variable {w : Rehearsal} {root : String} {r : Reader}

/-- What is loaded of the checkpoint of a table. -/
def loaded (w : Rehearsal) (root : String) (r : Reader) : Except Failure (Option Checkpoint) :=
  (w.perform (Checkpoint.load root r.catalog r.name r.kind r.isPartitioned)).1

/-- What opening a table ends with. -/
def opening (w : Rehearsal) (root : String) (source : Source) (d : Descriptor) (schema : Schema)
    (policy : IdlePolicy) : Except Failure (Reader × Cursor) :=
  (w.perform (Reader.open root source d schema policy)).1

/-- The marks that are configured for the identities of a table, and the rows of its minimum query;
a table with one mark has neither. -/
def findings (w : Rehearsal) (r : Reader) : Except Failure (Named Mark × List Sql.Row) :=
  match r.selection.identity with
  | none => .ok ([], [])
  | some column =>
    match Opening.readStarts r.name r.kind r.descriptor.cursor.starts with
    | .error e => .error e
    | .ok configured =>
      match r.descriptor.minimumQuery r.selection column with
      | none => .ok (configured, [])
      | some q =>
        match w.rowsOf q w.responses.head? with
        | .error e => .error (.database e)
        | .ok rows => .ok (configured, rows)

/-- The cursor that a table is opened with when a checkpoint is usable, or none, or when the
checkpoint makes the opening fail. -/
def opens (w : Rehearsal) (r : Reader) (usable : Except Failure (Option Checkpoint)) :
    Except Failure Cursor :=
  (Opening.readDefault r.name r.kind r.descriptor.cursor.defaultStart).bind fun byDefault =>
    usable.bind fun checkpoint => (w.findings r).map fun found =>
      Opening.cursorFrom r byDefault found.1 found.2 checkpoint

/-- A program is performed up to some point and from there on. -/
lemma perform_bind {α β : Type} (p : Activity α) (f : α → Activity β) :
    w.perform (p.bind f) = (w.perform p).2.perform (f (w.perform p).1) :=
  Program.run_bind _ _ p f w

/-- Loading a checkpoint leaves everything as it is. -/
lemma perform_load_loaded :
    w.perform (Checkpoint.load root r.catalog r.name r.kind r.isPartitioned) =
      (w.loaded root r, w) := by
  rw [loaded, perform_load_eq]

/-- The cursor of a table is worked out from what is configured and found and from the
checkpoint. -/
lemma perform_initialCursor :
    (w.perform (Opening.initialCursor root r)).1 =
      w.opens r (Opening.usable (w.loaded root r)) := by
  unfold Opening.initialCursor opens
  cases hdefault : Opening.readDefault r.name r.kind r.descriptor.cursor.defaultStart with
  | error e => rfl
  | ok byDefault =>
    simp only [Program.bind_eq, perform_bind, perform_load_loaded]
    cases husable : Opening.usable (w.loaded root r) with
    | error e => rfl
    | ok checkpoint =>
      simp only [findings, Opening.cursorFrom, Opening.partitionedCursor]
      cases hidentity : r.selection.identity with
      | none => rfl
      | some column =>
        simp only
        cases hstarts : Opening.readStarts r.name r.kind r.descriptor.cursor.starts with
        | error e => rfl
        | ok configured =>
          cases hquery : r.descriptor.minimumQuery r.selection column with
          | none => rfl
          | some q =>
            have hanswer : (w.perform (Activity.query q)).1 = w.rowsOf q w.responses.head? := rfl
            simp only [Program.bind_eq, perform_bind, hanswer]
            cases w.rowsOf q w.responses.head? with
            | error e => rfl
            | ok rows => rfl

/-- What a table is opened from: its configuration, what is found in the database, and the
checkpoint that is loaded. -/
theorem opening_eq {source : Source} {d : Descriptor} {schema : Schema} {policy : IdlePolicy}
    (hreader : Opening.readerOf source d schema policy = .ok r) :
    w.opening root source d schema policy =
      (w.opens r (Opening.usable (w.loaded root r))).map fun c => (r, c) := by
  rw [← perform_initialCursor]
  unfold opening Reader.open
  simp only [hreader, Program.bind_eq, perform_bind]
  cases (w.perform (Opening.initialCursor root r)).1 with
  | error e => rfl
  | ok c => rfl

/-- Whether a usable checkpoint leads to an open table does not depend on what is in it. -/
lemma opens_eq_error_iff (checkpoint checkpoint' : Option Checkpoint) (e : Failure) :
    w.opens r (.ok checkpoint) = .error e ↔ w.opens r (.ok checkpoint') = .error e := by
  unfold opens
  cases Opening.readDefault r.name r.kind r.descriptor.cursor.defaultStart with
  | error e' => rfl
  | ok byDefault =>
    cases w.findings r with
    | error e' => rfl
    | ok found =>
      constructor
      · intro h
        cases h
      · intro h
        cases h

/-- A table is opened when its default start denotes a mark and something is found, and then with a
cursor from these and the checkpoint. -/
lemma opens_eq_ok_iff {checkpoint : Option Checkpoint} {c : Cursor} :
    w.opens r (.ok checkpoint) = .ok c ↔ ∃ byDefault configured rows,
      Opening.readDefault r.name r.kind r.descriptor.cursor.defaultStart = .ok byDefault ∧
      w.findings r = .ok (configured, rows) ∧
      c = Opening.cursorFrom r byDefault configured rows checkpoint := by
  unfold opens
  constructor
  · intro h
    cases hdefault : Opening.readDefault r.name r.kind r.descriptor.cursor.defaultStart with
    | error e =>
      rw [hdefault] at h
      cases h
    | ok byDefault =>
      cases hfound : w.findings r with
      | error e =>
        rw [hdefault, hfound] at h
        cases h
      | ok found =>
        rw [hdefault, hfound] at h
        obtain rfl := Except.ok.inj h
        exact ⟨byDefault, found.1, found.2, rfl, rfl, rfl⟩
  · rintro ⟨byDefault, configured, rows, hdefault, hfound, rfl⟩
    rw [hdefault, hfound]
    rfl

/-- Nothing is found where a start is configured that denotes no mark, or where the database does
not answer. -/
lemma findings_eq_error {e : Failure} (h : w.findings r = .error e) :
    (∃ fault, e = .config fault) ∨ ∃ cause, e = .database cause := by
  unfold findings at h
  split at h
  · cases h
  · split at h
    · next hstarts =>
      obtain rfl := Except.error.inj h
      exact .inl (Opening.config_of_readStarts hstarts)
    · split at h
      · cases h
      · split at h
        · obtain rfl := Except.error.inj h
          exact .inr ⟨_, rfl⟩
        · cases h

/-- With a usable checkpoint, or none, there is nothing wrong with the checkpoint. -/
lemma opens_ne_corrupt {checkpoint : Option Checkpoint} {table : String} {location : Location}
    {cause : Checkpoint.FormatError} :
    w.opens r (.ok checkpoint) ≠ .error (.corrupt table location cause) := by
  intro h
  unfold opens at h
  cases hdefault : Opening.readDefault r.name r.kind r.descriptor.cursor.defaultStart with
  | error e =>
    obtain ⟨fault, rfl⟩ := Opening.config_of_readDefault hdefault
    rw [hdefault] at h
    cases h
  | ok byDefault =>
    cases hfound : w.findings r with
    | error e =>
      rw [hdefault, hfound] at h
      obtain rfl := Except.error.inj h
      obtain ⟨fault, hfault⟩ | ⟨cause, hcause⟩ := findings_eq_error hfound
      · cases hfault
      · cases hcause
    | ok found =>
      rw [hdefault, hfound] at h
      cases h

/-- In a table with partitions the configured marks are those of its settings. -/
lemma readStarts_of_findings {column : Sql.Column} {configured : Named Mark} {rows : List Sql.Row}
    (hcolumn : r.selection.identity = some column) (h : w.findings r = .ok (configured, rows)) :
    Opening.readStarts r.name r.kind r.descriptor.cursor.starts = .ok configured := by
  rw [findings, hcolumn] at h
  simp only at h
  split at h
  · cases h
  · next marks hmarks =>
    rw [hmarks]
    split at h
    · exact congrArg _ (congrArg Prod.fst (Except.ok.inj h))
    · split at h
      · cases h
      · exact congrArg _ (congrArg Prod.fst (Except.ok.inj h))

end Rehearsal

namespace Checkpoint

variable {checkpoint : Checkpoint}

/-- Whether a checkpoint keeps a mark for each identity. -/
def isPartitioned : Checkpoint → Bool
  | single _ => false
  | partitioned _ _ => true

/-- A content is decoded to a checkpoint of the wanted mode. -/
lemma isPartitioned_of_decode {kind : MarkKind} {partitions : Bool} {contents : String}
    (h : decode kind partitions contents = .ok checkpoint) :
    checkpoint.isPartitioned = partitions := by
  unfold decode at h
  split at h
  · next hpartitions =>
    rw [hpartitions]
    split at h
    · cases hentries : readEntries kind _ with
      | error e =>
        rw [hentries] at h
        cases h
      | ok read =>
        rw [hentries] at h
        obtain rfl := Except.ok.inj h
        rfl
    · cases h
  · next hsingle =>
    split at h
    · obtain rfl := Except.ok.inj h
      simpa [isPartitioned] using hsingle
    · cases h

/-- A table that is opened from a checkpoint of its mode uses it. -/
theorem usedBy_cursorFrom {w : Rehearsal} {r : Reader} {byDefault : Option Mark}
    {configured : Named Mark} {rows : List Sql.Row}
    (hmode : checkpoint.isPartitioned = r.isPartitioned)
    (hfound : w.findings r = .ok (configured, rows)) :
    checkpoint.UsedBy r byDefault
      (Opening.cursorFrom r byDefault configured rows (some checkpoint)) := by
  unfold Opening.cursorFrom
  rw [Reader.isPartitioned] at hmode
  cases hidentity : r.selection.identity with
  | none =>
    rw [hidentity] at hmode
    cases checkpoint with
    | single m => exact ⟨rfl, rfl⟩
    | partitioned positions unread => cases hmode
  | some column =>
    rw [hidentity] at hmode
    cases checkpoint with
    | single m => cases hmode
    | partitioned positions unread =>
      have hstarts := Rehearsal.readStarts_of_findings hidentity hfound
      refine ⟨configured, hstarts, ?_⟩
      intro identity m hm hadmitted
      have hnamed : identity ∈ Opening.named r.descriptor.cursor positions := by
        apply List.mem_append_left
        apply List.mem_append_right
        exact List.mem_map.2 ⟨_, Named.mem_of_get? hm, rfl⟩
      obtain ⟨param, htracked⟩ := Opening.exists_get?_opened column rows
        (s := ⟨r.kind, byDefault, configured, positions, unread⟩)
        (Opening.names_of_readStarts hstarts) hadmitted hnamed
      refine ⟨_, _, htracked, rfl, ?_⟩
      simp only [Opening.Starts.partition, hm, Option.any_some]

end Checkpoint

namespace Rehearsal

section Opened

variable {w : Rehearsal} {root : String} {source : Source} {d : Descriptor} {schema : Schema}
  {policy : IdlePolicy} {r : Reader} {checkpoint : Checkpoint}

/-- What is loaded as a checkpoint has the mode of the table. -/
lemma isPartitioned_of_loaded (h : w.loaded root r = .ok (some checkpoint)) :
    checkpoint.isPartitioned = r.isPartitioned := by
  rw [loaded, perform_load_eq] at h
  simp only at h
  split at h
  · cases h
  · cases h
  · split at h
    · next hdecode =>
      obtain rfl := Option.some.inj (Except.ok.inj h)
      exact Checkpoint.isPartitioned_of_decode hdecode
    · cases h

/-- Opening a table fails as its cursor fails to be worked out. -/
lemma opening_eq_error_iff (hreader : Opening.readerOf source d schema policy = .ok r)
    {e : Failure} :
    w.opening root source d schema policy = .error e ↔
      w.opens r (Opening.usable (w.loaded root r)) = .error e := by
  rw [opening_eq hreader]
  cases w.opens r (Opening.usable (w.loaded root r)) with
  | error e' => simp [Except.map]
  | ok c => simp [Except.map]

/-- A table is opened with its reader and the cursor that is worked out. -/
lemma opening_eq_ok_iff (hreader : Opening.readerOf source d schema policy = .ok r) {r' : Reader}
    {c : Cursor} :
    w.opening root source d schema policy = .ok (r', c) ↔
      r' = r ∧ w.opens r (Opening.usable (w.loaded root r)) = .ok c := by
  rw [opening_eq hreader]
  cases w.opens r (Opening.usable (w.loaded root r)) with
  | error e => simp [Except.map]
  | ok c' => simp [Except.map, eq_comm]

/-- What is loaded from the bytes in the file of a table's checkpoint. -/
lemma loaded_of_bytes {bytes : List UInt8}
    (hpath : pathFault (Location.of root r.catalog r.name) = none)
    (hfile : w.files.find (Path.ofText (Location.of root r.catalog r.name).text) =
      .ok (some (.file bytes))) :
    w.loaded root r =
      match FileTree.textOfBytes bytes with
      | .error e => .error (.persistence r.name (Location.of root r.catalog r.name) e)
      | .ok contents =>
        match Checkpoint.decode r.kind r.isPartitioned contents with
        | .ok checkpoint => .ok (some checkpoint)
        | .error e => .error (.corrupt r.name (Location.of root r.catalog r.name) e) := by
  rw [loaded, perform_load_eq]
  simp only [load, hpath, FileTree.readText, hfile]
  cases htext : FileTree.textOfBytes bytes with
  | ok contents => rfl
  | error e =>
    -- bytes that are no text are not taken for a missing file
    have hkind : e = .notText := by
      unfold FileTree.textOfBytes at htext
      split at htext
      · cases htext
      · exact (Except.error.inj htext).symm
    subst hkind
    rfl

/-- Without a file there is no checkpoint. -/
lemma loaded_of_missing (h : load w.files (Location.of root r.catalog r.name) = .ok none) :
    w.loaded root r = .ok none := by
  rw [loaded, perform_load_eq]
  simp only [h]

/-- A file that cannot be read is told apart. -/
lemma loaded_of_unreadable {cause : FileError}
    (h : load w.files (Location.of root r.catalog r.name) = .error cause) :
    w.loaded root r =
      .error (.persistence r.name (Location.of root r.catalog r.name) cause) := by
  rw [loaded, perform_load_eq]
  simp only [h]

/-- A table is opened with the checkpoint that is loaded. -/
lemma usedBy_of_opening {byDefault : Option Mark}
    (hreader : Opening.readerOf source d schema policy = .ok r)
    (hdefault : Opening.readDefault r.name r.kind r.descriptor.cursor.defaultStart = .ok byDefault)
    (hloaded : w.loaded root r = .ok (some checkpoint)) {r' : Reader} {c : Cursor}
    (hopened : w.opening root source d schema policy = .ok (r', c)) :
    r' = r ∧ checkpoint.UsedBy r byDefault c := by
  rw [opening_eq_ok_iff hreader, hloaded] at hopened
  obtain ⟨rfl, hopens⟩ := hopened
  obtain ⟨byDefault', configured, rows, hdefault', hfound, rfl⟩ := opens_eq_ok_iff.1 hopens
  obtain rfl := Except.ok.inj (hdefault.symm.trans hdefault')
  exact ⟨rfl, Checkpoint.usedBy_cursorFrom (isPartitioned_of_loaded hloaded) hfound⟩

/-- With other files from which a checkpoint is usable too, or none, a table fails to open in the
same way. -/
lemma opening_eq_error_iff_of_usable {files : FileTree} {usable usable' : Option Checkpoint}
    (hreader : Opening.readerOf source d schema policy = .ok r)
    (h : Opening.usable (w.loaded root r) = .ok usable)
    (h' : Opening.usable (({ w with files := files } : Rehearsal).loaded root r) = .ok usable')
    (e : Failure) :
    w.opening root source d schema policy = .error e ↔
      ({ w with files := files } : Rehearsal).opening root source d schema policy = .error e := by
  have hother : opening { w with files := files } root source d schema policy = .error e ↔
      opens { w with files := files } r (.ok usable') = .error e := by
    rw [← h']
    exact opening_eq_error_iff hreader
  rw [opening_eq_error_iff hreader, h]
  exact (opens_eq_error_iff usable usable' e).trans hother.symm

/-- A checkpoint that makes no sense makes the opening fail. -/
lemma opening_of_usable_error {byDefault : Option Mark} {e : Failure}
    (hreader : Opening.readerOf source d schema policy = .ok r)
    (hdefault : Opening.readDefault r.name r.kind r.descriptor.cursor.defaultStart = .ok byDefault)
    (h : Opening.usable (w.loaded root r) = .error e) :
    w.opening root source d schema policy = .error e := by
  rw [opening_eq_error_iff hreader, opens, hdefault, h]
  rfl

/-- Without a checkpoint that is usable a table is opened as it is with other files that have none,
and this does not fail for a corrupt checkpoint. -/
lemma opening_of_usable_none {files : FileTree}
    (hreader : Opening.readerOf source d schema policy = .ok r)
    (h : Opening.usable (w.loaded root r) = .ok none)
    (h' : Opening.usable (({ w with files := files } : Rehearsal).loaded root r) = .ok none) :
    w.opening root source d schema policy =
        ({ w with files := files } : Rehearsal).opening root source d schema policy ∧
      ∀ table l e, w.opening root source d schema policy ≠ .error (.corrupt table l e) := by
  constructor
  · rw [opening_eq hreader, opening_eq hreader, h, h']
    rfl
  · intro table l e hcorrupt
    rw [opening_eq_error_iff hreader, h] at hcorrupt
    exact opens_ne_corrupt hcorrupt

end Opened

/-- The bytes of a checkpoint's file are used when a table is opened, or they make the opening fail,
if they are the UTF-8 form of a text. A content that is a checkpoint for the table's mode and the
kind of its marks is used by the cursor, and the opening fails only as it would without the file;
any other content is an error. Bytes that are no text are passed over: the table is opened as it
would be without the file, and this is not an error. -/
theorem opening_of_bytes {w : Rehearsal} {root : String} {source : Source} {d : Descriptor}
    {schema : Schema} {policy : IdlePolicy} {r : Reader} {bytes : List UInt8} {missing : FileTree}
    (hreader : Opening.readerOf source d schema policy = .ok r)
    (hpath : pathFault (Location.of root r.catalog r.name) = none)
    (hfile : w.files.find (Path.ofText (Location.of root r.catalog r.name).text) =
      .ok (some (.file bytes)))
    (hmissing : load missing (Location.of root r.catalog r.name) = .ok none) :
    let opening := w.opening root source d schema policy
    let without := ({ w with files := missing } : Rehearsal).opening root source d schema policy
    (∀ e, Opening.readDefault r.name r.kind r.descriptor.cursor.defaultStart = .error e →
      opening = .error e) ∧
    ∀ byDefault, Opening.readDefault r.name r.kind r.descriptor.cursor.defaultStart =
        .ok byDefault →
      (∀ contents, bytes = FileTree.bytesOfText contents →
        (∀ checkpoint, Checkpoint.decode r.kind r.isPartitioned contents = .ok checkpoint →
          (∀ e, opening = .error e ↔ without = .error e) ∧
          ∀ r' c, opening = .ok (r', c) → r' = r ∧ checkpoint.UsedBy r byDefault c) ∧
        ∀ e, Checkpoint.decode r.kind r.isPartitioned contents = .error e →
          opening = .error (.corrupt r.name (Location.of root r.catalog r.name) e)) ∧
      ((∀ contents, bytes ≠ FileTree.bytesOfText contents) →
        opening = without ∧ ∀ table l e, opening ≠ .error (.corrupt table l e)) := by
  have hloaded := loaded_of_bytes hpath hfile
  have hnone : Opening.usable (({ w with files := missing } : Rehearsal).loaded root r) =
      .ok none :=
    congrArg Opening.usable (loaded_of_missing (w := { w with files := missing }) hmissing)
  intro opening without
  constructor
  · intro e hdefault
    rw [opening_eq_error_iff hreader, opens, hdefault]
    rfl
  · intro byDefault hdefault
    constructor
    · rintro contents rfl
      rw [FileTree.textOfBytes_bytesOfText] at hloaded
      constructor
      · intro checkpoint hdecode
        simp only [hdecode] at hloaded
        constructor
        · exact opening_eq_error_iff_of_usable hreader (congrArg Opening.usable hloaded) hnone
        · intro r' c hopened
          exact usedBy_of_opening hreader hdefault hloaded hopened
      · intro e hdecode
        simp only [hdecode] at hloaded
        exact opening_of_usable_error hreader hdefault (congrArg Opening.usable hloaded)
    · intro hnot
      have husable : Opening.usable (w.loaded root r) = .ok none := by
        cases htext : FileTree.textOfBytes bytes with
        | ok contents => exact absurd (FileTree.textOfBytes_eq_ok_iff.1 htext) (hnot contents)
        | error e =>
          rw [hloaded, htext]
          rfl
      exact opening_of_usable_none hreader husable hnone

end Rehearsal

namespace Journal

/-- Surroundings in which the journal's checkpoint is one byte that begins no text. -/
def garbled : Rehearsal :=
  { blank with files := FileTree.empty.install ["store", "db", "journal.pos"] (.file [0xff]) }

/-- The journal is opened as if it had no checkpoint. -/
theorem opening_garbled :
    Opening.readerOf source descriptor schema ⟨0, 0⟩ = .ok reader ∧
      Rehearsal.pathFault (Location.of "store" "db" "journal") = none ∧
      garbled.files.find (Path.ofText (Location.of "store" "db" "journal").text) =
        .ok (some (.file [0xff])) ∧
      Rehearsal.load .empty (Location.of "store" "db" "journal") = .ok none ∧
      garbled.opening "store" source descriptor schema ⟨0, 0⟩ =
        .ok (reader, .partitioned .empty) := by
  have hpath : Rehearsal.pathFault (Location.of "store" "db" "journal") = none := by
    decide +kernel
  have hfile : garbled.files.find (Path.ofText (Location.of "store" "db" "journal").text) =
      .ok (some (.file [0xff])) := by decide +kernel
  have hmissing : Rehearsal.load .empty (Location.of "store" "db" "journal") = .ok none := by
    decide +kernel
  have hnot : ∀ contents, [0xff] ≠ FileTree.bytesOfText contents := by
    intro contents h
    have htext := FileTree.textOfBytes_eq_ok_iff.2 h
    have hno : FileTree.textOfBytes [0xff] = .error .notText := by decide +kernel
    rw [hno] at htext
    cases htext
  have hreader : Opening.readerOf source descriptor schema ⟨0, 0⟩ = .ok reader := rfl
  obtain ⟨-, hopens⟩ := Rehearsal.opening_of_bytes (w := garbled) hreader hpath hfile hmissing
  obtain ⟨-, hpassed⟩ := hopens none rfl
  obtain ⟨hsame, -⟩ := hpassed hnot
  have hwithout : blank.opening "store" source descriptor schema ⟨0, 0⟩ =
      .ok (reader, .partitioned .empty) := rfl
  exact ⟨hreader, hpath, hfile, hmissing, hsame.trans hwithout⟩

end Journal

end TableTail
