import Mathlib.Data.List.Forall2
import TableTail.Proofs.Checkpoint.Saved
import TableTail.Proofs.Files.Untouched
import TableTail.Proofs.Settings.PlainNames

/-!
# Checkpoints of different tables

Two tables of a catalog have checkpoint files of their own unless their names are alike
(`Location.Alike`): the same but for characters that are underscores in one of them and underscores
or control characters in the other. The checks of a table's settings pass such names, because they
look at a name without the blanks around it, and line breaks are both blanks and control
characters; but for those, different names are not alike (`Location.Alike.eq_of_uncontrolled`).

The checkpoints of tables that are not alike do not disturb each other: what one of them loads is
the same before and after the other one is saved. Tables that are alike load each other's
checkpoints.
-/

namespace TableTail

/-- Different names in a directory have different paths. -/
lemma Path.join_inj {directory name name' : String} :
    join directory name = join directory name' ↔ name = name' := by
  unfold join
  split
  · simp
  · simp

namespace Sql

/-- A character that an accepted name can have. -/
def Accepts (c : Char) : Prop := Text.isBlank c = true ∨ continuesIdentifier c = true

instance (c : Char) : Decidable (Accepts c) := inferInstanceAs (Decidable (_ ∨ _))

/-- An accepted name has blanks around the characters of an identifier, of which it has at least
one. -/
lemma accepts_of_identifierFault? {name : String} (h : identifierFault? name = none) :
    (∀ c ∈ name.toList, Accepts c) ∧ ∃ c ∈ name.toList, continuesIdentifier c = true := by
  have hpadded : IsPadded name := identifierFault?_eq_none_iff.1 h
  constructor
  · intro c hc
    exact (hpadded.characters c hc).imp_right continuesIdentifier_iff.2
  · obtain ⟨before, plain, behind, hplain, -, hname⟩ := hpadded
    obtain ⟨c, hc⟩ := List.exists_mem_of_ne_nil _ hplain.toList_ne_nil
    refine ⟨c, ?_, continuesIdentifier_iff.2 (hplain.characters c hc)⟩
    rw [hname]
    exact List.mem_append_left _ (List.mem_append_right _ hc)

end Sql

namespace Location

/-- A character in whose place an underscore stands in a component. -/
def Faded (c : Char) : Prop := c = '_' ∨ Text.isControl c = true

instance (c : Char) : Decidable (Faded c) := inferInstanceAs (Decidable (_ ∨ _))

/-- Names that are the same but for characters that fade to underscores. -/
def Alike (name name' : String) : Prop :=
  List.Forall₂ (fun c c' => c = c' ∨ Faded c ∧ Faded c') name.toList name'.toList

instance (name name' : String) : Decidable (Alike name name') :=
  inferInstanceAs (Decidable (List.Forall₂ _ _ _))

variable {c c' : Char} {name name' : String}

/-- A character that fades and is no control character is an underscore. -/
lemma Faded.eq_underscore (h : Faded c) (hc : Text.isControl c = false) : c = '_' := by
  rcases h with heq | hcontrol
  · exact heq
  · rw [hc] at hcontrol
    cases hcontrol

/-- Names without control characters are alike only if they are the same. -/
theorem Alike.eq_of_uncontrolled (h : Alike name name')
    (hname : ∀ c ∈ name.toList, Text.isControl c = false)
    (hname' : ∀ c ∈ name'.toList, Text.isControl c = false) : name = name' := by
  apply String.toList_injective
  unfold Alike at h
  generalize name.toList = s at *
  generalize name'.toList = s' at *
  induction h with
  | nil => rfl
  | cons hhead _ ih =>
    rw [List.forall_mem_cons] at hname hname'
    rw [ih hname.2 hname'.2]
    rcases hhead with rfl | ⟨hfaded, hfaded'⟩
    · rfl
    · rw [hfaded.eq_underscore hname.1, hfaded'.eq_underscore hname'.1]

/-- A character that fades becomes an underscore. -/
lemma cleanChar_of_faded (h : Faded c) : cleanChar c = '_' := by
  rcases h with rfl | hcontrol
  · rfl
  · simp [cleanChar, hcontrol]

/-- An accepted character that does not fade stays as it is. -/
lemma cleanChar_of_not_faded (hc : Sql.Accepts c) (h : ¬ Faded c) : cleanChar c = c := by
  have hslash : c ≠ '/' := by
    rintro rfl
    exact absurd hc (by decide)
  have hbackslash : c ≠ '\\' := by
    rintro rfl
    exact absurd hc (by decide)
  have hcontrol : ¬ Text.isControl c = true := fun hcontrol => h (.inr hcontrol)
  simp [cleanChar, hslash, hbackslash, hcontrol]

/-- Two accepted characters become the same if they are the same or both fade. -/
lemma cleanChar_eq_iff (hc : Sql.Accepts c) (hc' : Sql.Accepts c') :
    cleanChar c = cleanChar c' ↔ c = c' ∨ Faded c ∧ Faded c' := by
  constructor
  · intro h
    by_cases hfaded : Faded c
    · by_cases hfaded' : Faded c'
      · exact .inr ⟨hfaded, hfaded'⟩
      · rw [cleanChar_of_faded hfaded, cleanChar_of_not_faded hc' hfaded'] at h
        exact absurd (.inl h.symm) hfaded'
    · by_cases hfaded' : Faded c'
      · rw [cleanChar_of_not_faded hc hfaded, cleanChar_of_faded hfaded'] at h
        exact absurd (.inl h) hfaded
      · rw [cleanChar_of_not_faded hc hfaded, cleanChar_of_not_faded hc' hfaded'] at h
        exact .inl h
  · rintro (rfl | ⟨hfaded, hfaded'⟩)
    · rfl
    · rw [cleanChar_of_faded hfaded, cleanChar_of_faded hfaded']

/-- Accepted characters become the same if they are the same but for those that fade. -/
lemma map_cleanChar_eq_iff {s s' : List Char} (hs : ∀ c ∈ s, Sql.Accepts c)
    (hs' : ∀ c ∈ s', Sql.Accepts c) :
    s.map cleanChar = s'.map cleanChar ↔
      List.Forall₂ (fun c c' => c = c' ∨ Faded c ∧ Faded c') s s' := by
  induction s generalizing s' with
  | nil => simp [eq_comm]
  | cons c s ih =>
    cases s' with
    | nil => simp
    | cons c' s' =>
      rw [List.forall_mem_cons] at hs hs'
      simp [List.forall₂_cons, cleanChar_eq_iff hs.1 hs'.1, ih hs.2 hs'.2]

/-- The component of an accepted name is its characters, those that fade as underscores. -/
lemma toList_component (h : Sql.identifierFault? name = none) :
    (component name).toList = name.toList.map cleanChar := by
  obtain ⟨-, c, hc, hidentifier⟩ := Sql.accepts_of_identifierFault? h
  -- a character of an identifier stays one, so that the cleaned name is neither empty nor dots
  have hmem : cleanChar c ∈ name.toList.map cleanChar := List.mem_map_of_mem hc
  have hkept : cleanChar c ≠ '.' := by
    by_cases hfaded : Faded c
    · rw [cleanChar_of_faded hfaded]
      decide
    · rw [cleanChar_of_not_faded (.inr hidentifier) hfaded]
      rintro rfl
      exact absurd hidentifier (by decide)
  have hne : ∀ s : String, (∀ c ∈ s.toList, c = '.') →
      String.ofList (name.toList.map cleanChar) ≠ s := by
    intro s hs heq
    rw [← heq, String.toList_ofList] at hs
    exact hkept (hs _ hmem)
  unfold component
  simp only
  rw [if_neg, String.toList_ofList]
  rintro (hempty | hdot | hdots)
  · exact hne "" (by simp) hempty
  · exact hne "." (by simp) hdot
  · exact hne ".." (by simp) hdots

/-- Two accepted names have the same component if they are alike. -/
theorem component_eq_iff (h : Sql.identifierFault? name = none)
    (h' : Sql.identifierFault? name' = none) :
    component name = component name' ↔ Alike name name' := by
  rw [← String.toList_inj, toList_component h, toList_component h']
  exact map_cleanChar_eq_iff (Sql.accepts_of_identifierFault? h).1
    (Sql.accepts_of_identifierFault? h').1

/-- Two tables of a catalog have the same file if their components are the same. -/
lemma file_eq_iff (root catalog name name' : String) :
    (of root catalog name).file = (of root catalog name').file ↔
      component name = component name' := by
  simp [of]

/-- The directory of a file depends on the catalog. -/
lemma directoryText_of (root catalog name : String) :
    (of root catalog name).directoryText = Path.join root (component catalog) := rfl

/-- The same path is the same file in the same directory. -/
lemma text_eq_iff (root catalog name name' : String) :
    (of root catalog name).text = (of root catalog name').text ↔
      (of root catalog name).file = (of root catalog name').file := by
  rw [text, text, directoryText_of, directoryText_of, Path.join_inj]

/-- No temporary file has the name of a checkpoint's file. -/
lemma temporary_ne_file (root catalog name : String) (n : Nat) :
    ".tmp" ++ Text.natText n ≠ (of root catalog name).file := by
  intro heq
  have hlast : (".tmp" ++ Text.natText n).toList.getLast? = some 's' := by
    rw [heq]
    simp [of]
  obtain ⟨d, hd, hdigit⟩ : ∃ d ∈ Text.toDigits n, Text.digitChar d = 's' := by
    have hmem := List.mem_of_getLast? hlast
    simpa using hmem
  exact Text.digitChar_ne (Text.areDigits_toDigits n d hd) (by decide) hdigit

end Location

namespace Rehearsal

variable {t : FileTree} {w : Rehearsal} {root catalog table other : String}

/-- What is saved for one table leaves what is loaded from another table's file, but for a missing
file with too long a name in its path, for which the reason that it cannot be loaded may change. -/
theorem load_save_of_ne (contents : String) (hfile : (Location.of root catalog table).file ≠
      (Location.of root catalog other).file) (hclosed : t.Closed) :
    load (save t (Location.of root catalog table) contents).2 (Location.of root catalog other) =
        load t (Location.of root catalog other) ∨
      load t (Location.of root catalog other) = .ok none ∧
        load (save t (Location.of root catalog table) contents).2 (Location.of root catalog other) =
          .error .nameTooLong ∧
        ∃ name ∈ Path.ofText (Location.of root catalog other).text,
          Path.maxComponent < name.utf8ByteSize := by
  unfold save
  cases pathFault (Location.of root catalog table) with
  | some e => exact .inl rfl
  | none =>
    have hgrown : FileTree.Grown (Path.ofText (Location.of root catalog other).text) t
        (t.replaceText (Path.ofText (Location.of root catalog table).directoryText)
          (Location.of root catalog table).file contents).2 := by
      rw [Location.ofText_text, Location.directoryText_of, Location.directoryText_of]
      exact FileTree.grown_replaceText hfile (Location.temporary_ne_file root catalog other)
    unfold load
    cases pathFault (Location.of root catalog other) with
    | some e => exact .inl rfl
    | none =>
      rcases FileTree.readText_of_grown hclosed hgrown with hsame | ⟨hmissing, htoo, hlong⟩
      · exact .inl (by simp only [hsame])
      · exact .inr ⟨by simp only [hmissing], by simp only [htoo], hlong⟩

/-- What saving a checkpoint answers and leaves. -/
lemma perform_save_eq (checkpoint : Checkpoint) :
    w.perform (Checkpoint.save root catalog table checkpoint) =
      let saved := save w.files (Location.of root catalog table) checkpoint.encode
      (saved.1.mapError (.persistence table (Location.of root catalog table)),
        { w with files := saved.2 }) := by
  simp only [Checkpoint.save, perform, Activity.save, Program.bind_eq, Program.run_bind,
    Program.run, answer]
  cases (save w.files (Location.of root catalog table) checkpoint.encode).1 with
  | error e => rfl
  | ok _ => rfl

end Rehearsal

/-- The name of a table with accepted settings is an accepted name. -/
lemma TableSettings.identifierFault?_name {t : TableSettings} (h : t.fault? = none) :
    Sql.identifierFault? t.name = none :=
  identifierFault?_of_fault? h _ (List.mem_cons_self ..)

namespace Checkpoint

/-- Two tables with accepted settings have checkpoint files of their own unless their names are
alike. If they are not, saving a checkpoint of one of them leaves what the other one loads, as far
as opening it is concerned, and altogether unless there is too long a name in the path of its file.
If they are, what is saved for the one is loaded for the other. -/
theorem apart_unless_alike {t t' : TableSettings} (ht : t.fault? = none) (ht' : t'.fault? = none)
    (root catalog : String) :
    ((Location.of root catalog t.name).text = (Location.of root catalog t'.name).text ↔
      Location.Alike t.name t'.name) ∧
    ∀ (w : Rehearsal) (checkpoint : Checkpoint) (kind : MarkKind) (isPartitioned : Bool),
      w.files.Closed →
      let before := (w.perform (load root catalog t'.name kind isPartitioned)).1
      let saved := w.perform (save root catalog t.name checkpoint)
      let after := (saved.2.perform (load root catalog t'.name kind isPartitioned)).1
      (¬ Location.Alike t.name t'.name →
        Opening.usable after = Opening.usable before ∧
        ((∀ name ∈ Path.ofText (Location.of root catalog t'.name).text,
          name.utf8ByteSize ≤ Path.maxComponent) → after = before)) ∧
      (Location.Alike t.name t'.name → saved.1 = .ok () →
        ∀ loaded, decode kind isPartitioned checkpoint.encode = .ok loaded →
          after = .ok (some loaded)) := by
  have hname := TableSettings.identifierFault?_name ht
  have hname' := TableSettings.identifierFault?_name ht'
  have hfile : (Location.of root catalog t.name).file = (Location.of root catalog t'.name).file ↔
      Location.Alike t.name t'.name :=
    (Location.file_eq_iff root catalog t.name t'.name).trans
      (Location.component_eq_iff hname hname')
  refine ⟨(Location.text_eq_iff root catalog t.name t'.name).trans hfile, ?_⟩
  intro w checkpoint kind isPartitioned hclosed before saved after
  have hafter : after = _ := congrArg Prod.fst Rehearsal.perform_load_eq
  have hbefore : before = _ := congrArg Prod.fst Rehearsal.perform_load_eq
  have hsave : saved = _ := Rehearsal.perform_save_eq checkpoint
  rw [hsave] at hafter
  constructor
  · intro hapart
    rcases Rehearsal.load_save_of_ne checkpoint.encode (mt hfile.1 hapart) hclosed with
      hsame | ⟨hnone, htoo, name, hmem, hlong⟩
    · rw [hsame] at hafter
      have heq : after = before := hafter.trans hbefore.symm
      exact ⟨congrArg Opening.usable heq, fun _ => heq⟩
    · rw [htoo] at hafter
      rw [hnone] at hbefore
      constructor
      · rw [hafter, hbefore]
        rfl
      · intro hshort
        exact absurd hlong (Nat.not_lt.2 (hshort name hmem))
  · intro halike hok loaded hdecode
    have hlocation : Location.of root catalog t'.name = Location.of root catalog t.name := by
      rw [Location.of, Location.of, (Location.component_eq_iff hname hname').2 halike]
    have hwritten : (Rehearsal.save w.files (Location.of root catalog t.name)
        checkpoint.encode).1 = .ok () := by
      rw [hsave] at hok
      cases hresult : (Rehearsal.save w.files (Location.of root catalog t.name)
          checkpoint.encode).1 with
      | error e => simp [hresult, Except.mapError] at hok
      | ok _ => rfl
    have hread : Rehearsal.load (Rehearsal.save w.files (Location.of root catalog t.name)
        checkpoint.encode).2 (Location.of root catalog t.name) = .ok (some checkpoint.encode) :=
      Rehearsal.load_of_save (Prod.ext hwritten rfl)
    rw [hafter, hlocation]
    simp only [hread, hdecode]

end Checkpoint

namespace Journal

/-- Two tables that are accepted and alike, because the second name ends with a line break where the
first one ends with an underscore: they have the same checkpoint file, and the second one loads what
was saved for the first one. -/
theorem load_save_events :
    (numberedEntries "events_" "old").fault? = none ∧
      (numberedEntries "events\n" "new").fault? = none ∧
      (Location.of "store" "plant" "events_").text =
        (Location.of "store" "plant" "events\n").text ∧
      ((blank.perform (Checkpoint.save "store" "plant" "events_" (.single (.integer 9)))).2.perform
        (Checkpoint.load "store" "plant" "events\n" .integer false)).1 =
          .ok (some (.single (.integer 9))) := by
  have hold : (numberedEntries "events_" "old").fault? = none := by decide +kernel
  have hnew : (numberedEntries "events\n" "new").fault? = none := by decide +kernel
  have halike : Location.Alike "events_" "events\n" := by decide
  obtain ⟨hsame, hloads⟩ := Checkpoint.apart_unless_alike hold hnew "store" "plant"
  obtain ⟨-, hshared⟩ := hloads blank (.single (.integer 9)) .integer false FileTree.closed_empty
  have hsaved : (blank.perform (Checkpoint.save "store" "plant" "events_"
      (.single (.integer 9)))).1 = .ok () :=
    congrArg Prod.fst (Rehearsal.perform_save (Prod.ext (by decide +kernel) rfl))
  refine ⟨hold, hnew, hsame.2 halike, ?_⟩
  exact hshared halike hsaved _ (Checkpoint.decode_encode_single (.integer 9))

end Journal

end TableTail
