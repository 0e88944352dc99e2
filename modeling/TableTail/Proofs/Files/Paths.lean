import Mathlib.Data.List.Basic
import TableTail.Checkpoint.Location

/-!
# Paths of names in directories

A name that is one component of a path stays one when it is joined to a directory: the joined text
denotes the directory's components with the name behind them (`ofText_join`). The file of a
checkpoint is such a name, whatever its table is called (`Location.ofText_text`).
-/

namespace TableTail

namespace Path

/-- A name that denotes one component: it has no slash, and is not one of the names that denote
none. -/
structure IsComponent (name : String) : Prop where
  slash_notMem : '/' ∉ name.toList
  ne_empty : name ≠ ""
  ne_dot : name ≠ "."
  ne_dots : name ≠ ".."

/-- There is a part before the first slash. -/
lemma splitSlash_ne_nil (s : List Char) : splitSlash s ≠ [] := by
  cases s with
  | nil => simp [splitSlash]
  | cons c rest =>
    unfold splitSlash
    split
    · simp
    · cases splitSlash rest <;> simp

/-- At a slash the parts before it and those behind it are split. -/
lemma splitSlash_append_slash (a b : List Char) :
    splitSlash (a ++ '/' :: b) = splitSlash a ++ splitSlash b := by
  induction a with
  | nil => simp [splitSlash]
  | cons c rest ih =>
    rw [List.cons_append, splitSlash, splitSlash, ih]
    split
    · rfl
    · cases hrest : splitSlash rest with
      | nil => exact absurd hrest (splitSlash_ne_nil rest)
      | cons part parts => rfl

/-- Without a slash there is one part. -/
lemma splitSlash_of_notMem {s : List Char} (h : '/' ∉ s) : splitSlash s = [s] := by
  induction s with
  | nil => rfl
  | cons c rest ih =>
    obtain ⟨hc, hrest⟩ : ¬ '/' = c ∧ '/' ∉ rest := by simpa using h
    rw [splitSlash, if_neg (Ne.symm hc), ih hrest]

/-- Parts are resolved one after the other. -/
lemma resolve_append (above parts more : List String) :
    resolve above (parts ++ more) = resolve (resolve above parts).reverse more := by
  induction parts generalizing above with
  | nil => simp [resolve]
  | cons part rest ih =>
    rw [List.cons_append, resolve, resolve]
    split
    · exact ih above
    · split
      · exact ih _
      · exact ih _

/-- A component at the end is the last one of the path. -/
lemma resolve_concat {name : String} (h : IsComponent name) (above parts : List String) :
    resolve above (parts ++ [name]) = resolve above parts ++ [name] := by
  simp [resolve_append, resolve, h.ne_empty, h.ne_dot, h.ne_dots]

/-- An empty part at the end says nothing. -/
lemma resolve_concat_empty (above parts : List String) :
    resolve above (parts ++ [""]) = resolve above parts := by
  simp [resolve_append, resolve]

/-- Characters, a slash and a component denote what the characters denote, and the component in
it. -/
lemma ofText_slash {directory name : String} (h : IsComponent name) :
    ofText (directory ++ "/" ++ name) = ofText directory ++ [name] := by
  have hchars : (directory ++ "/" ++ name).toList = directory.toList ++ '/' :: name.toList := by
    simp
  rw [ofText, hchars, splitSlash_append_slash, splitSlash_of_notMem h.slash_notMem, List.map_append,
    List.map_singleton, String.ofList_toList, resolve_concat h]
  rfl

/-- A text that ends with a slash denotes what stands before the slash. -/
lemma ofText_concat_slash (directory : String) : ofText (directory ++ "/") = ofText directory := by
  have hchars : (directory ++ "/").toList = directory.toList ++ '/' :: [] := by simp
  rw [ofText, hchars, splitSlash_append_slash]
  simp only [splitSlash, List.map_append, List.map_singleton, String.ofList_nil,
    resolve_concat_empty]
  rfl

/-- A name that is joined to a directory is the last component of the path. -/
theorem ofText_join {directory name : String} (h : IsComponent name) :
    ofText (join directory name) = ofText directory ++ [name] := by
  unfold join
  split
  · next hends =>
    rcases hends with rfl | hends
    · have hsplit : splitSlash name.toList = [name.toList] := splitSlash_of_notMem h.slash_notMem
      simp [ofText, hsplit, splitSlash, resolve, h.ne_empty, h.ne_dot, h.ne_dots]
    · -- the directory brings its own slash, which is cut off and put back
      obtain ⟨chars, hchars⟩ := List.getLast?_eq_some_iff.1 hends
      obtain rfl : directory = String.ofList chars ++ "/" :=
        String.toList_injective (by simp [hchars])
      rw [ofText_slash h, ofText_concat_slash]
  · exact ofText_slash h

end Path

namespace Location

/-- A cleaned name has no slash. -/
lemma slash_notMem_component (name : String) : '/' ∉ (component name).toList := by
  have hcleaned : '/' ∉ name.toList.map cleanChar := by
    rw [List.mem_map]
    rintro ⟨c, -, hc⟩
    unfold cleanChar at hc
    split at hc
    · exact absurd hc (by decide)
    · next hne => exact hne (.inl hc)
  unfold component
  simp only
  split
  · simpa using hcleaned
  · simpa using hcleaned

/-- The file of a checkpoint is one component. -/
lemma isComponent_file (root catalog table : String) :
    Path.IsComponent (of root catalog table).file := by
  -- the ending has four characters, more than any of the names that denote no component
  have hlength : 4 ≤ (of root catalog table).file.toList.length := by simp [of]
  have hshort : ∀ s : String, s.toList.length < 4 → (of root catalog table).file ≠ s :=
    fun s hs heq => by rw [heq] at hlength; omega
  refine ⟨?_, hshort "" (by decide), hshort "." (by decide), hshort ".." (by decide)⟩
  simpa [of] using slash_notMem_component table

/-- The path of a checkpoint's file leads into its directory. -/
theorem ofText_text (root catalog table : String) :
    Path.ofText (of root catalog table).text =
      Path.ofText (of root catalog table).directoryText ++ [(of root catalog table).file] :=
  Path.ofText_join (isComponent_file root catalog table)

end Location

end TableTail
