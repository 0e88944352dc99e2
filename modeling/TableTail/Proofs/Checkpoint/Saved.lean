import Mathlib.Data.List.Sort
import TableTail.Proofs.Checkpoint.RoundTrip
import TableTail.Proofs.Files.Paths
import TableTail.Proofs.Files.Replaced
import TableTail.Proofs.Named.Sorted
import TableTail.Proofs.Tail.Opened
import TableTail.Rehearsal.Basic

/-!
# Saved checkpoints

A checkpoint that was saved in a tree of files is loaded from there. A checkpoint of partitions is
the same again exactly when its timestamps are regular, whatever its identities are called and
whichever of them are unread (`load_save_partitioned`). A single mark is the same again exactly when
besides it is no text that ends with a line break, which is lost (`load_save_single`). A timestamp
in a leap second before the end of a minute is printed, and so read, as the second after its own.
-/

namespace TableTail

namespace Rehearsal

variable {t u : FileTree} {l : Location} {root catalog table contents : String}

/-- Where one text can be saved, any other can. -/
lemma save_ok_of {other : String} (h : (save t l contents).1 = .ok ()) :
    (save t l other).1 = .ok () := by
  unfold save at h ⊢
  split at h
  · cases h
  · exact FileTree.replaceText_ok_of h

/-- What was saved in a checkpoint's file is loaded from it. -/
theorem load_of_save (h : save t (Location.of root catalog table) contents = (.ok (), u)) :
    load u (Location.of root catalog table) = .ok (some contents) := by
  unfold save at h
  unfold load
  split at h
  · cases h
  · rw [Location.ofText_text, FileTree.readText_replaceText h]

/-- A checkpoint is saved where its file can be replaced. -/
lemma perform_save {w : Rehearsal} {checkpoint : Checkpoint}
    (h : save w.files (Location.of root catalog table) checkpoint.encode = (.ok (), u)) :
    w.perform (Checkpoint.save root catalog table checkpoint) =
      (.ok (), { w with files := u }) := by
  have hsaved : w.perform (Activity.save (Location.of root catalog table) checkpoint.encode) =
      (.ok (), { w with files := u }) := by
    simp [perform, Activity.save, Program.run, answer, h]
  simp only [Checkpoint.save, perform, Program.bind_eq, Program.run_bind] at hsaved ⊢
  simp [hsaved, Program.run]

/-- What a checkpoint is loaded as depends on what is loaded from its file, and nothing changes. -/
lemma perform_load_eq {w : Rehearsal} {kind : MarkKind} {isPartitioned : Bool} :
    w.perform (Checkpoint.load root catalog table kind isPartitioned) =
      (match load w.files (Location.of root catalog table) with
        | .error e => .error (.persistence table (Location.of root catalog table) e)
        | .ok none => .ok none
        | .ok (some contents) =>
          match Checkpoint.decode kind isPartitioned contents with
          | .ok checkpoint => .ok (some checkpoint)
          | .error e => .error (.corrupt table (Location.of root catalog table) e), w) := by
  simp only [Checkpoint.load, perform, Activity.load, Program.bind_eq, Program.run_bind,
    Program.run, answer]
  rcases load w.files (Location.of root catalog table) with e | _ | contents
  · rfl
  · rfl
  · simp only
    cases Checkpoint.decode kind isPartitioned contents with
    | error e => rfl
    | ok checkpoint => rfl

/-- A checkpoint is loaded where its file has its contents. -/
lemma perform_load {w : Rehearsal} {kind : MarkKind} {isPartitioned : Bool}
    {checkpoint : Checkpoint}
    (hfile : load w.files (Location.of root catalog table) = .ok (some contents))
    (hdecode : Checkpoint.decode kind isPartitioned contents = .ok checkpoint) :
    w.perform (Checkpoint.load root catalog table kind isPartitioned) =
      (.ok (some checkpoint), w) := by
  rw [perform_load_eq, hfile]
  simp only [hdecode]

/-- A checkpoint is saved where its file can be replaced at all, and then what its content is read
as is loaded. -/
theorem perform_save_load {w : Rehearsal} {kind : MarkKind} {isPartitioned : Bool}
    {checkpoint loaded : Checkpoint}
    (hfile : ∃ contents, (save w.files (Location.of root catalog table) contents).1 = .ok ())
    (hdecode : Checkpoint.decode kind isPartitioned checkpoint.encode = .ok loaded) :
    (w.perform (Checkpoint.save root catalog table checkpoint)).1 = .ok () ∧
      ((w.perform (Checkpoint.save root catalog table checkpoint)).2.perform
        (Checkpoint.load root catalog table kind isPartitioned)).1 = .ok (some loaded) := by
  obtain ⟨contents, hsaves⟩ := hfile
  obtain ⟨u, hsave⟩ : ∃ u, save w.files (Location.of root catalog table) checkpoint.encode =
      (.ok (), u) := ⟨_, Prod.ext (save_ok_of hsaves) rfl⟩
  have hload : load u (Location.of root catalog table) = .ok (some checkpoint.encode) :=
    load_of_save hsave
  have hsaved := perform_save (w := w) hsave
  have hloaded := perform_load (w := { w with files := u }) hload hdecode
  rw [hsaved]
  exact ⟨rfl, congrArg Prod.fst hloaded⟩

end Rehearsal

namespace Checkpoint

variable {w : Rehearsal} {root catalog table : String} {kind : MarkKind}

/-- A single mark is loaded wherever its file can be replaced. It is at its place exactly when it is
no text that ends with a line break, which is loaded without this line break, and no irregular
timestamp, which is loaded as the second after its own. -/
theorem load_save_single (m : Mark)
    (hfile : ∃ contents,
      (Rehearsal.save w.files (Location.of root catalog table) contents).1 = .ok ()) :
    (w.perform (save root catalog table (.single m))).1 = .ok () ∧
      ∃ m', ((w.perform (save root catalog table (.single m))).2.perform
          (load root catalog table m.kind false)).1 = .ok (some (.single m')) ∧
        (m'.same m = true ↔ (∀ s : String, m ≠ .text (s ++ "\n")) ∧ m.IsRegular) ∧
        (∀ s : String, m = .text (s ++ "\n") → m' = .text s) ∧
        ∀ t : Timestamp, m = .timestamp t → m' = .timestamp t.reread := by
  obtain ⟨hsaved, hloaded⟩ := Rehearsal.perform_save_load hfile (decode_encode_single m)
  refine ⟨hsaved, _, hloaded, same_withoutLineEnd_iff m, ?_, ?_⟩
  · rintro s rfl
    simp [withoutLineEnd, dropLineEnd_concat, Mark.normalize]
  · rintro t rfl
    rfl

end Checkpoint

namespace Journal

/-- Surroundings with no files yet. -/
def blank : Rehearsal :=
  ⟨.empty source "store" .standard [], .script [], [], .empty, [], 0, none, none, 0, []⟩

/-- The checkpoint of the journal can be saved there. -/
lemma save_blank : ∃ contents,
    (Rehearsal.save blank.files (Location.of "store" "db" "journal") contents).1 = .ok () :=
  ⟨"", by decide +kernel⟩

/-- A text that ends with a line break is saved and loaded without it. -/
theorem load_save_line :
    (blank.perform (Checkpoint.save "store" "db" "journal" (.single (.text "a\n")))).1 = .ok () ∧
      ∃ m', ((blank.perform (Checkpoint.save "store" "db" "journal"
          (.single (.text "a\n")))).2.perform
            (Checkpoint.load "store" "db" "journal" .text false)).1 = .ok (some (.single m')) ∧
        m' = .text "a" ∧ m'.same (.text "a\n") = false := by
  obtain ⟨hsaved, m', hloaded, -, hline, -⟩ :=
    Checkpoint.load_save_single (.text "a\n") save_blank
  obtain rfl := hline "a" rfl
  exact ⟨hsaved, _, hloaded, rfl, by decide⟩

end Journal

end TableTail
