import TableTail.Proofs.Checkpoint.Atomic

/-!
# Checkpoints below their root

The text of a path is read from left to right (`Path.parts`): a slash in front is the top, empty
pieces and dots between slashes say nothing, and two dots stay in the path. A name that is entered
in a directory is one more part, unless it is absolute and leads away from the directory
(`Path.enter`), or is read as several parts or none.

A catalog and a table, whatever they are called, give two names that are one part each. So the file
of a checkpoint is two parts below the root (`Location.below_root`).
-/

namespace TableTail

namespace Path

/-! ## Parts of a path -/

/-- A part of a path. -/
inductive Part
  | top
  | here
  | up
  | name (text : String)
  deriving DecidableEq, Repr

/-- The part that stands between two slashes, if there is one. -/
def partOf? (piece : String) : Option Part :=
  if piece = "" ∨ piece = "." then none
  else if piece = ".." then some .up
  else some (.name piece)

/-- Where a path starts: at the top, or in the current directory if it says so. -/
def start (s : List Char) : List Part :=
  if s.head? = some '/' then [.top]
  else if (splitSlash s).head? = some ['.'] then [.here]
  else []

/-- The parts of a path from left to right. -/
def parts (text : String) : List Part :=
  start text.toList ++ ((splitSlash text.toList).map String.ofList).filterMap partOf?

/-- The text of a name that is entered in a directory. An absolute name is entered as it is. -/
def enter (directory name : String) : String :=
  if name.toList.head? = some '/' then name else join directory name

/-- A component with no character that has a meaning of its own on some system, or cannot be
printed. -/
structure IsClean (name : String) : Prop extends IsComponent name where
  backslash_notMem : '\\' ∉ name.toList
  uncontrolled : ∀ c ∈ name.toList, Text.isControl c = false

variable {directory name : String}

/-- A component is one part. -/
lemma partOf?_of_isComponent (h : IsComponent name) : partOf? name = some (.name name) := by
  simp [partOf?, h.ne_empty, h.ne_dot, h.ne_dots]

/-- A component is no absolute name. -/
lemma enter_of_isComponent (h : IsComponent name) : enter directory name = join directory name := by
  refine if_neg fun hhead => h.slash_notMem ?_
  obtain ⟨rest, hrest⟩ := List.head?_eq_some_iff.1 hhead
  simp [hrest]

/-- A path starts where it starts up to a slash. -/
lemma start_append_slash (s more : List Char) : start (s ++ '/' :: more) = start (s ++ ['/']) := by
  have hhead : (s ++ '/' :: more).head? = (s ++ ['/']).head? := by
    cases s with
    | nil => rfl
    | cons c rest => rfl
  have hpieces : ∀ more, (splitSlash (s ++ '/' :: more)).head? = (splitSlash s).head? := by
    intro more
    rw [splitSlash_append_slash]
    exact List.head?_append_of_ne_nil _ (splitSlash_ne_nil s)
  rw [start, start, hhead, hpieces, hpieces]

/-- A slash at the end of a path does not change where the path starts, unless it is all of it. -/
lemma start_concat_slash {s : List Char} (h : s ≠ []) : start (s ++ ['/']) = start s := by
  have hhead : (s ++ ['/']).head? = s.head? := List.head?_append_of_ne_nil _ h
  have hpieces : (splitSlash (s ++ ['/'])).head? = (splitSlash s).head? := by
    rw [splitSlash_append_slash]
    exact List.head?_append_of_ne_nil _ (splitSlash_ne_nil s)
  rw [start, start, hhead, hpieces]

/-- A component behind a slash is one part behind those that there are. -/
lemma parts_slash (h : IsComponent name) :
    parts (directory ++ "/" ++ name) = parts (directory ++ "/") ++ [.name name] := by
  have hchars : (directory ++ "/" ++ name).toList = directory.toList ++ '/' :: name.toList := by
    simp
  have hslash : (directory ++ "/").toList = directory.toList ++ ['/'] := by simp
  rw [parts, parts, hchars, hslash, start_append_slash, splitSlash_append_slash,
    splitSlash_append_slash, splitSlash_of_notMem h.slash_notMem]
  simp [splitSlash, partOf?_of_isComponent h, show partOf? "" = none from rfl]

/-- A slash at the end is no part, unless it is all of the path. -/
lemma parts_concat_slash (h : directory ≠ "") : parts (directory ++ "/") = parts directory := by
  have hslash : (directory ++ "/").toList = directory.toList ++ ['/'] := by simp
  have hne : directory.toList ≠ [] := fun heq => h (String.toList_eq_nil_iff.1 heq)
  rw [parts, parts, hslash, start_concat_slash hne, splitSlash_append_slash]
  simp [splitSlash, show partOf? "" = none from rfl]

/-- A component that is joined to a directory is one part behind the directory's. -/
theorem parts_join (h : IsComponent name) :
    parts (join directory name) = parts directory ++ [.name name] := by
  unfold join
  split
  · next hends =>
    rcases hends with rfl | hends
    · have hstart : start name.toList = [] := by
        have hhead : name.toList.head? ≠ some '/' := by
          intro hhead
          obtain ⟨rest, hrest⟩ := List.head?_eq_some_iff.1 hhead
          exact h.slash_notMem (by simp [hrest])
        have hdot : name.toList ≠ ['.'] := fun heq =>
          h.ne_dot (String.toList_injective (heq.trans rfl))
        rw [start, if_neg hhead, splitSlash_of_notMem h.slash_notMem]
        simpa using hdot
      rw [String.empty_append, parts, hstart, splitSlash_of_notMem h.slash_notMem]
      simp [partOf?_of_isComponent h, parts, start, splitSlash, show partOf? "" = none from rfl]
    · -- the directory brings its own slash
      obtain ⟨chars, hchars⟩ := List.getLast?_eq_some_iff.1 hends
      obtain rfl : directory = String.ofList chars ++ "/" :=
        String.toList_injective (by simp [hchars])
      exact parts_slash h
  · next hends =>
    rw [parts_slash h, parts_concat_slash fun hempty => hends (.inl hempty)]

end Path

namespace Location

/-! ## The file of a checkpoint -/

/-- A character of a cleaned name. -/
lemma cleanChar_clean (c : Char) :
    cleanChar c ≠ '\\' ∧ Text.isControl (cleanChar c) = false := by
  unfold cleanChar
  split
  · decide
  · next h =>
    rw [not_or, not_or] at h
    exact ⟨h.2.1, by simpa using h.2.2⟩

/-- The characters of a component are cleaned characters and underscores. -/
lemma mem_component {name : String} {c : Char} (h : c ∈ (component name).toList) :
    c ≠ '\\' ∧ Text.isControl c = false := by
  have hcleaned : ∀ c ∈ name.toList.map cleanChar, c ≠ '\\' ∧ Text.isControl c = false := by
    intro c hc
    obtain ⟨c', -, rfl⟩ := List.mem_map.1 hc
    exact cleanChar_clean c'
  unfold component at h
  simp only at h
  split at h
  · rw [String.toList_append, List.mem_append] at h
    rcases h with hunderscore | hc
    · obtain rfl : c = '_' := by simpa using hunderscore
      decide
    · exact hcleaned c (by simpa using hc)
  · exact hcleaned c (by simpa using h)

/-- A component is clean. -/
lemma isClean_component (name : String) : Path.IsClean (component name) where
  toIsComponent := isComponent_component name
  backslash_notMem := fun h => (mem_component h).1 rfl
  uncontrolled := fun _ hc => (mem_component hc).2

/-- So is the name of a file. -/
lemma isClean_file (root catalog table : String) : Path.IsClean (of root catalog table).file := by
  have hchars : (of root catalog table).file.toList =
      (component table).toList ++ ['.', 'p', 'o', 's'] := String.toList_append ..
  have hending : ∀ c ∈ ['.', 'p', 'o', 's'], c ≠ '\\' ∧ Text.isControl c = false := by
    simp [Text.isControl]
  have hboth : ∀ c ∈ (of root catalog table).file.toList, c ≠ '\\' ∧ Text.isControl c = false := by
    intro c hc
    rw [hchars] at hc
    exact (List.mem_append.1 hc).elim mem_component (hending c)
  exact ⟨isComponent_file root catalog table, fun h => (hboth _ h).1 rfl,
    fun c hc => (hboth c hc).2⟩

/-- Whatever a catalog and a table are called, the checkpoint's path is the root's with two parts
behind it, which are clean components: the catalog's directory, and in it a file whose name ends
with `.pos`. Neither leads away from the root or out of it when it is entered, and no dots are left
to be resolved. -/
theorem below_root (root catalog table : String) :
    (of root catalog table).text = Path.enter
        (Path.enter root (of root catalog table).directory) (of root catalog table).file ∧
      Path.parts (of root catalog table).text = Path.parts root ++
        [.name (of root catalog table).directory, .name (of root catalog table).file] ∧
      Path.ofText (of root catalog table).text = Path.ofText root ++
        [(of root catalog table).directory, (of root catalog table).file] ∧
      Path.IsClean (of root catalog table).directory ∧
      Path.IsClean (of root catalog table).file ∧
      ∃ stem, (of root catalog table).file = stem ++ ".pos" := by
  have hdirectory : Path.IsClean (of root catalog table).directory := isClean_component catalog
  have hfile := isClean_file root catalog table
  refine ⟨?_, ?_, ?_, hdirectory, hfile, component table, rfl⟩
  · rw [Path.enter_of_isComponent hdirectory.toIsComponent,
      Path.enter_of_isComponent hfile.toIsComponent]
    rfl
  · rw [text, Path.parts_join hfile.toIsComponent, directoryText,
      Path.parts_join hdirectory.toIsComponent, List.append_assoc]
    rfl
  · rw [ofText_text, ofText_directoryText, List.append_assoc]
    rfl

end Location

end TableTail
