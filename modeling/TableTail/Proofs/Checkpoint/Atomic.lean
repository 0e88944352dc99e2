import TableTail.Proofs.Checkpoint.Apart
import TableTail.Proofs.Files.Faults

/-!
# Checkpoints that are cut off

Whichever steps fail while a checkpoint is saved, and wherever the process stops, the file of the
checkpoint has what it had before or all of the new content (`Rehearsal.saving_atomic`). A failure
that is answered leaves the file as it was and no temporary file; an answer without one means that
the new content is loaded. The files of other tables are not touched.
-/

namespace TableTail

namespace Location

/-- A cleaned name is one component. -/
lemma isComponent_component (name : String) : Path.IsComponent (component name) := by
  have hnames : component name ≠ "" ∧ component name ≠ "." ∧ component name ≠ ".." := by
    unfold component
    simp only
    split_ifs with hcleaned
    · rcases hcleaned with h | h | h <;> rw [h] <;> decide
    · simpa only [not_or] using hcleaned
  exact ⟨slash_notMem_component name, hnames.1, hnames.2.1, hnames.2.2⟩

/-- The path of a checkpoint's directory. -/
lemma ofText_directoryText (root catalog table : String) :
    Path.ofText (of root catalog table).directoryText = Path.ofText root ++ [component catalog] :=
  Path.ofText_join (isComponent_component catalog)

/-- No temporary file may be given the name of a checkpoint's file, which has a second point. -/
lemma not_isTemporaryName_file (root catalog table : String) :
    ¬ FileTree.IsTemporaryName (of root catalog table).file := by
  rintro ⟨rest, hfile, hrest⟩
  have hchars := congrArg String.toList hfile
  simp only [of, String.toList_append] at hchars
  cases hcomponent : (component table).toList with
  | nil => exact (isComponent_component table).ne_empty (String.toList_eq_nil_iff.1 hcomponent)
  | cons c cs =>
    rw [hcomponent] at hchars
    have htail : cs ++ ['.', 'p', 'o', 's'] = ['t', 'm', 'p'] ++ rest.toList :=
      (List.cons.inj hchars).2
    have hpoint : '.' ∈ ['t', 'm', 'p'] ++ rest.toList := htail ▸ by simp
    exact hrest (by simpa using hpoint)

/-- Checkpoints of one root have the same path only if they have the same text. -/
lemma text_eq_of_ofText {root catalog table catalog' table' : String}
    (h : Path.ofText (of root catalog table).text = Path.ofText (of root catalog' table').text) :
    (of root catalog table).text = (of root catalog' table').text := by
  rw [ofText_text, ofText_text, ofText_directoryText, ofText_directoryText, List.append_assoc,
    List.append_assoc] at h
  have hboth := List.append_cancel_left h
  simp only [List.singleton_append, List.cons.injEq, and_true] at hboth
  rw [text, text, directoryText_of, directoryText_of, hboth.1, hboth.2]

end Location

namespace Rehearsal

open FileTree

/-- The program that replaces the content of a checkpoint's file. -/
def saving (l : Location) (contents : String) : FileProgram (Except FileError Unit) :=
  match pathFault l with
  | some e => .done (.error e)
  | none => .replace (Path.ofText l.directoryText) l.file (bytesOfText contents)

variable {root catalog table contents : String} {t u : FileTree}

/-- Saving is this program, carried out without faults. -/
lemma perform_saving (t : FileTree) (l : Location) (contents : String) :
    FileTree.perform (saving l contents) t = save t l contents := by
  unfold saving save
  cases pathFault l with
  | some e => rfl
  | none => rfl

/-- Saving is something that may happen when steps may fail. -/
theorem acts_save (t : FileTree) (l : Location) (contents : String) :
    Program.Acts Performs (saving l contents, t)
      (.done (save t l contents).1, (save t l contents).2) := by
  rw [← perform_saving]
  exact Program.acts_run performs_step _ t

/-- What is left of saving whatever happens, and what it has done when it ends. -/
lemma ensures_saving (t : FileTree) (root catalog table contents : String) :
    (saving (Location.of root catalog table) contents).Ensures FileProgram.faulty
      (Intact (Path.ofText (Location.of root catalog table).directoryText)
        (Location.of root catalog table).file (bytesOfText contents) t)
      (fun outcome u => Ended (Path.ofText (Location.of root catalog table).directoryText)
          (Location.of root catalog table).file (bytesOfText contents) t outcome u ∧
        (outcome = .ok () → pathFault (Location.of root catalog table) = none)) t := by
  unfold saving
  cases hfault : pathFault (Location.of root catalog table) with
  | some e =>
    rintro _ rfl
    exact ⟨fun q => .inl rfl, nofun⟩
  | none =>
    have hname := Location.not_isTemporaryName_file root catalog table
    exact (FileProgram.ensures_replace t _ _ hname).mono fun outcome u hended =>
      ⟨hended, fun _ => rfl⟩

/-- Saving a checkpoint may be cut off anywhere, and any of its steps may fail: the checkpoint's
file has what it had, or all of the new content. After a failure it has what it had, and there are
no files that were not there. Otherwise it has the new content, which is loaded from it. Other
tables' files have what they had in any case. -/
theorem saving_atomic {p : FileProgram (Except FileError Unit)}
    (h : Program.Acts Performs (saving (Location.of root catalog table) contents, t) (p, u)) :
    let l := Location.of root catalog table
    let directory := Path.ofText l.directoryText
    let target := Path.ofText l.text
    (u.get? target = t.get? target ∨ u.get? target = some (.file (bytesOfText contents))) ∧
    (∀ e, p = .done (.error e) →
      u.get? target = t.get? target ∧ ∀ q, Kept directory t u q) ∧
    (p = .done (.ok ()) →
      u.get? target = some (.file (bytesOfText contents)) ∧ load u l = .ok (some contents) ∧
        ∀ q, q ≠ target → Kept directory t u q) ∧
    ∀ catalog' table', (Location.of root catalog' table').text ≠ l.text →
      u.get? (Path.ofText (Location.of root catalog' table').text) =
        t.get? (Path.ofText (Location.of root catalog' table').text) := by
  intro l directory target
  have htarget : target = directory ++ [l.file] := Location.ofText_text root catalog table
  obtain ⟨hintact, hensures⟩ := (ensures_saving t root catalog table contents).acts
    (intact_of_kept fun q => .inl rfl) h
  refine ⟨htarget ▸ hintact.target, ?_, ?_, ?_⟩
  · rintro e rfl
    have hkept : ∀ q, Kept directory t u q := hensures.ended.1
    refine ⟨?_, hkept⟩
    rw [htarget]
    exact (hkept _).get?_eq (not_prefix_of_concat directory l.file)
  · rintro rfl
    obtain ⟨⟨hfind, hkept⟩, hfault⟩ := hensures.ended
    rw [← Location.ofText_text] at hfind
    refine ⟨(find_eq_ok_iff.1 hfind).2, ?_, htarget ▸ hkept⟩
    simp only [load, l, hfault rfl, readText, hfind, textOfBytes_bytesOfText]
  · intro catalog' table' hother
    have hpath : Path.ofText (Location.of root catalog' table').text =
        Path.ofText root ++ [Location.component catalog'] ++
          [(Location.of root catalog' table').file] := by
      rw [Location.ofText_text, Location.ofText_directoryText]
    have hdirectory : directory = Path.ofText root ++ [Location.component catalog] :=
      Location.ofText_directoryText root catalog table
    have hkept : Kept directory t u (Path.ofText (Location.of root catalog' table').text) := by
      refine hintact.kept _ ?_ ?_
      · exact fun hsame => hother (Location.text_eq_of_ofText (hsame.trans htarget.symm))
      · intro temporary htemporary hsame
        rw [hpath] at hsame
        have hfile := List.append_inj_right' hsame rfl
        rw [List.singleton_inj] at hfile
        exact Location.not_isTemporaryName_file root catalog' table' (hfile ▸ htemporary)
    refine hkept.get?_eq fun hbefore => ?_
    -- the other file lies one level below such directories
    have hlength := hbefore.length_le
    rw [hpath, hdirectory] at hlength
    simp at hlength

end Rehearsal

namespace Journal

open FileTree

/-- A disk that has room for all but the last byte of a file. -/
def fullDisk : (s : FileStep) → FileTree → s.Answer × FileTree
  | .write file bytes, t =>
    if bytes.length ≤ 1 then (.error (.other "No space left on device (os error 28)"), t)
    else t.append file (bytes.take 1)
  | s, t => FileTree.step s t

/-- This is something that may happen. -/
lemma performs_fullDisk (s : FileStep) (t : FileTree) :
    t.Performs s (fullDisk s t).1 (fullDisk s t).2 := by
  cases s with
  | write file bytes =>
    by_cases hlength : bytes.length ≤ 1
    · exact .inr ⟨_, 0, .inl (if_pos hlength)⟩
    · exact .inl ⟨1, by omega, if_neg hlength⟩
  | _ => exact performs_step _ t

/-- The store of a plant with a checkpoint. -/
def store : FileTree :=
  ⟨[(["store"], .directory), (["store", "plant"], .directory),
    (["store", "plant", "events.pos"], .file (bytesOfText "9"))]⟩

/-- The file of the checkpoint. -/
lemma ofText_events : Path.ofText (Location.of "store" "plant" "events").text =
    ["store", "plant", "events.pos"] := by
  decide +kernel

/-- A checkpoint is saved on a disk that gets full while it is written: this fails, and the store is
as it was. On a disk with room for it the same is saved and loaded. -/
theorem saving_atomic_full :
    (∃ e u, Program.Acts Performs
        (Rehearsal.saving (Location.of "store" "plant" "events") "10", store)
        (.done (.error e), u) ∧
      u.get? ["store", "plant", "events.pos"] = some (.file (bytesOfText "9")) ∧
      ∀ q, Kept ["store", "plant"] store u q) ∧
    ∃ u, Program.Acts Performs
        (Rehearsal.saving (Location.of "store" "plant" "events") "10", store)
        (.done (.ok ()), u) ∧
      u.get? ["store", "plant", "events.pos"] = some (.file (bytesOfText "10")) ∧
      Rehearsal.load u (Location.of "store" "plant" "events") = .ok (some "10") := by
  constructor
  · have hacts := Program.acts_run performs_fullDisk
      (Rehearsal.saving (Location.of "store" "plant" "events") "10") store
    have hfails : ((Rehearsal.saving (Location.of "store" "plant" "events") "10").run fullDisk
        (fun _ t => t) store).1 = .error (.other "No space left on device (os error 28)") := by
      decide +kernel
    rw [hfails] at hacts
    obtain ⟨-, herror, -, -⟩ := Rehearsal.saving_atomic hacts
    obtain ⟨htarget, hkept⟩ := herror _ rfl
    have hdirectory : Path.ofText (Location.of "store" "plant" "events").directoryText =
        ["store", "plant"] := by
      decide +kernel
    rw [ofText_events] at htarget
    rw [hdirectory] at hkept
    exact ⟨_, _, hacts, htarget.trans rfl, hkept⟩
  · have hacts := Program.acts_run performs_step
      (Rehearsal.saving (Location.of "store" "plant" "events") "10") store
    have hsaves : ((Rehearsal.saving (Location.of "store" "plant" "events") "10").run FileTree.step
        (fun _ t => t) store).1 = .ok () := by
      decide +kernel
    rw [hsaves] at hacts
    obtain ⟨-, -, hsaved, -⟩ := Rehearsal.saving_atomic hacts
    obtain ⟨htarget, hload, -⟩ := hsaved rfl
    rw [ofText_events] at htarget
    exact ⟨_, hacts, htarget, hload⟩

end Journal

end TableTail
