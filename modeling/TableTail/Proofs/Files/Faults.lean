import Mathlib.Data.List.Nodup
import Mathlib.Data.List.Perm.Subperm
import TableTail.Proofs.Files.Untouched

/-!
# Replacing a file when steps fail

A step on the file system may fail, directories may be made and bytes be written in part
(`FileTree.Performs`), and the process may stop between two steps. Whatever happens while a file is
replaced, at its path is what was there before or all of the new content, and other paths keep what
they have, but for directories that are made and for the temporary file (`FileTree.Intact`). When
the replacement has ended, the temporary file is gone, and the new content is there exactly if no
failure is answered (`FileTree.Ended`).

The one rule for all of this is `FileProgram.ensures_replace`; it goes along the replacement, and
what it needs to know about a step is what the step makes of a file that is being filled
(`FileTree.Filling`).
-/

namespace TableTail

namespace FileTree

variable {t u v : FileTree} {p q directory way : Path} {name : String} {bytes : List UInt8}

section Behaviour

/-- A name that a temporary file may be given. -/
def IsTemporaryName (name : String) : Prop :=
  ∃ rest : String, name = ".tmp" ++ rest ∧ '.' ∉ rest.toList

/-- What a step on a tree may answer and leave: what it does without a fault, or an error, before
which directories may have been made on the way to the one that was asked for, and any number of the
first bytes may have been written. A file can always be removed. -/
def Performs (t : FileTree) : (s : FileStep) → s.Answer → FileTree → Prop
  | .makeDirectories d, a, u =>
    (a, u) = t.makeDirectories d ∨
      ∃ e way, way <+: d ∧ (a, u) = (.error e, (t.makeDirectories way).2)
  | .createTemporary d, a, u =>
    (∃ name, IsTemporaryName name ∧ t.find (d ++ [name]) = .ok none ∧
      (a, u) = (.ok (d ++ [name]), t.put (d ++ [name]) (.file []))) ∨
    ∃ e, (a, u) = (.error e, t)
  | .write file bytes, a, u =>
    (∃ n ≤ bytes.length, (a, u) = t.append file (bytes.take n)) ∨
      ∃ e n, (a, u) = (.error e, t) ∨ (a, u) = (.error e, (t.append file (bytes.take n)).2)
  | .sync _, _, u => u = t
  | .rename source target, a, u =>
    (a, u) = t.rename source target ∨ ∃ e, (a, u) = (.error e, t)
  | .remove file, _, u => u = t.erase file

/-- A number has one numeral. -/
lemma natText_inj {m n : ℕ} : Text.natText m = Text.natText n ↔ m = n := by
  refine ⟨fun h => ?_, congrArg _⟩
  have hdigits : (Text.toDigits m).map Text.digitChar = (Text.toDigits n).map Text.digitChar := by
    rw [← Text.toList_natText, ← Text.toList_natText, h]
  have hsame := congrArg Text.digits? hdigits
  rw [Text.digits?_map_digitChar (Text.areDigits_toDigits m),
    Text.digits?_map_digitChar (Text.areDigits_toDigits n), Option.some.injEq] at hsame
  rw [← Text.ofDigits_toDigits m, ← Text.ofDigits_toDigits n, hsame]

/-- A name of the numbered series is free, or those that were tried are all taken. -/
lemma freshName_free (t : FileTree) (directory : Path) (tries n : ℕ) :
    t.get? (directory ++ [t.freshName directory tries n]) = none ∨
      ∀ i ≤ tries, t.get? (directory ++ [".tmp" ++ Text.natText (n + i)]) ≠ none := by
  induction tries generalizing n with
  | zero =>
    rw [freshName, or_iff_not_imp_left]
    intro htaken i hi
    obtain rfl : i = 0 := Nat.le_zero.1 hi
    exact htaken
  | succ tries ih =>
    rw [freshName]
    split_ifs with hfree
    · exact .inl (Option.isNone_iff_eq_none.1 hfree)
    · refine (ih (n + 1)).imp_right fun htaken i hi => ?_
      cases i with
      | zero => exact fun hnone => hfree (Option.isNone_iff_eq_none.2 hnone)
      | succ i =>
        have hnext := htaken i (Nat.le_of_succ_le_succ hi)
        rwa [Nat.add_assoc, Nat.add_comm 1 i] at hnext

/-- What is at a path is an entry of the tree. -/
lemma mem_entries_of_get? (hp : p ≠ []) (h : t.get? p ≠ none) : p ∈ t.entries.map (·.1) := by
  rw [get?, if_neg hp, ne_eq, Option.map_eq_none_iff, ← ne_eq, Option.ne_none_iff_exists'] at h
  obtain ⟨entry, hentry⟩ := h
  refine List.mem_map.2 ⟨entry, List.mem_of_find?_eq_some hentry, ?_⟩
  simpa using List.find?_some hentry

/-- A tree has fewer entries than there are names in as long a series, so a fresh name is free. -/
lemma get?_freshName (t : FileTree) (directory : Path) :
    t.get? (directory ++ [t.freshName directory t.entries.length 0]) = none := by
  refine (freshName_free t directory t.entries.length 0).resolve_right fun htaken => ?_
  let series := (List.range (t.entries.length + 1)).map fun i =>
    directory ++ [".tmp" ++ Text.natText i]
  have hnodup : series.Nodup := by
    refine List.Nodup.map (fun i j hij => ?_) List.nodup_range
    simpa [natText_inj] using hij
  have hsubset : series ⊆ t.entries.map (·.1) := by
    intro path hpath
    obtain ⟨i, hi, rfl⟩ := List.mem_map.1 hpath
    refine mem_entries_of_get? (by simp) ?_
    simpa using htaken i (Nat.le_of_lt_succ (List.mem_range.1 hi))
  have hle := (hnodup.subperm hsubset).length_le
  simp [series] at hle

/-- What a step does without a fault is something that it may do. -/
lemma performs_step (s : FileStep) (t : FileTree) :
    t.Performs s (step s t).1 (step s t).2 := by
  cases s with
  | makeDirectories d => exact .inl rfl
  | createTemporary d =>
    obtain ⟨n, hname⟩ := freshName_eq t d t.entries.length 0
    have hfree := get?_freshName t d
    have htemporary : IsTemporaryName (t.freshName d t.entries.length 0) := by
      refine ⟨Text.natText n, hname, ?_⟩
      rw [Text.toList_natText, List.mem_map]
      rintro ⟨digit, hdigit, hdot⟩
      exact Text.digitChar_ne (Text.areDigits_toDigits n digit hdigit) (by decide) hdot
    cases hfind : t.find (d ++ [t.freshName d t.entries.length 0]) with
    | error e =>
      refine .inr ⟨e, ?_⟩
      simp [step, createTemporary, hfind]
    | ok found =>
      obtain rfl : found = none := (find_eq_ok_iff.1 hfind).2.symm.trans hfree
      refine .inl ⟨_, htemporary, hfind, ?_⟩
      simp [step, createTemporary, hfind]
  | write file bytes => exact .inl ⟨bytes.length, le_rfl, by rw [List.take_length]; rfl⟩
  | sync file => rfl
  | rename source target => exact .inl rfl
  | remove file => rfl

end Behaviour

section Kept

/-- What is at a path is what was there, or else a directory on the way to another one, where
nothing was. -/
def Kept (directory : Path) (t u : FileTree) (q : Path) : Prop :=
  u.get? q = t.get? q ∨ q <+: directory ∧ t.get? q = none ∧ u.get? q = some .directory

/-- What is taken away is not there. -/
lemma get?_erase_self (hp : p ≠ []) : (t.erase p).get? p = none := by
  simp [get?, erase, hp]

/-- A path that is not on the way to the directory has what it had. -/
lemma Kept.get?_eq (h : Kept directory t u q) (hq : ¬ q <+: directory) : u.get? q = t.get? q :=
  h.resolve_right fun hmade => hq hmade.1

/-- What is kept twice is kept. -/
lemma Kept.trans (h : Kept directory t u q) (h' : Kept directory u v q) : Kept directory t v q := by
  rcases h with hsame | ⟨hbefore, hnone, hmade⟩
  · rcases h' with hsame' | ⟨hbefore, hnone, hmade⟩
    · exact .inl (hsame'.trans hsame)
    · exact .inr ⟨hbefore, hsame.symm.trans hnone, hmade⟩
  · rcases h' with hsame' | ⟨-, hnone', -⟩
    · exact .inr ⟨hbefore, hnone, hsame'.trans hmade⟩
    · rw [hmade] at hnone'
      cases hnone'

/-- Making directories leaves what is there. -/
lemma kept_makeDirectoriesBelow (above rest q : Path) :
    Kept (above ++ rest) t (t.makeDirectoriesBelow above rest).2 q := by
  induction rest generalizing t above with
  | nil => exact .inl rfl
  | cons name rest ih =>
    have hpath : above ++ name :: rest = above ++ [name] ++ rest := by simp
    rw [hpath, makeDirectoriesBelow]
    split
    · exact .inl rfl
    · split
      · exact ih _
      · exact .inl rfl
      · next hnone =>
        refine Kept.trans ?_ (ih _)
        rcases eq_or_ne q (above ++ [name]) with rfl | hq
        · exact .inr ⟨List.prefix_append _ _, hnone, get?_put_self (by simp)⟩
        · exact .inl (get?_put_of_ne hq)

/-- Making directories, or some of them, leaves what is there. -/
lemma kept_makeDirectories (hway : way <+: directory) (q : Path) :
    Kept directory t (t.makeDirectories way).2 q :=
  (kept_makeDirectoriesBelow [] way q).imp_right fun h => ⟨h.1.trans hway, h.2⟩

/-- Whether all directories are made or not, what is there is left. -/
lemma kept_of_performs {a : Except FileError Unit}
    (h : t.Performs (.makeDirectories directory) a u) (q : Path) : Kept directory t u q := by
  rcases h with hmade | ⟨e, way, hway, hmade⟩
  · obtain rfl : u = (t.makeDirectories directory).2 := congrArg Prod.snd hmade
    exact kept_makeDirectories (List.prefix_refl directory) q
  · obtain rfl : u = (t.makeDirectories way).2 := congrArg Prod.snd hmade
    exact kept_makeDirectories hway q

end Kept

/-- A rename that fails changes nothing. -/
lemma rename_error {source target : Path} {e : FileError}
    (h : t.rename source target = (.error e, u)) : u = t := by
  unfold rename at h
  split at h <;> cases h <;> rfl

/-- A rename fails and changes nothing, or it is done. -/
lemma performs_rename {source target : Path} {a : Except FileError Unit}
    (h : t.Performs (.rename source target) a u) :
    (∃ e, a = .error e ∧ u = t) ∨ a = .ok () ∧ t.rename source target = (.ok (), u) := by
  rcases h with hdone | ⟨e, hfails⟩
  · rcases a with e | _
    · exact .inl ⟨e, rfl, rename_error hdone.symm⟩
    · exact .inr ⟨rfl, hdone.symm⟩
  · obtain ⟨rfl, rfl⟩ := Prod.mk.inj hfails
    exact .inl ⟨e, rfl, rfl⟩

section Stages

variable {temporary : Path} {written more : List UInt8}

/-- While a temporary file is being filled, which was not there before, all else is kept. -/
structure Filling (directory : Path) (t : FileTree) (temporary : Path) (written : List UInt8)
    (u : FileTree) : Prop where
  fresh : t.get? temporary = none
  content : u.get? temporary = some (.file written)
  kept : ∀ q, q ≠ temporary → Kept directory t u q

/-- Whenever a replacement is cut off, at its target is what was there or the new content, and all
other paths are kept but for those of temporary files. -/
structure Intact (directory : Path) (name : String) (bytes : List UInt8) (t u : FileTree) :
    Prop where
  target : u.get? (directory ++ [name]) = t.get? (directory ++ [name]) ∨
    u.get? (directory ++ [name]) = some (.file bytes)
  kept : ∀ q, q ≠ directory ++ [name] →
    (∀ temporary, IsTemporaryName temporary → q ≠ directory ++ [temporary]) →
    Kept directory t u q

/-- When a replacement has ended, there is no temporary file: all is kept after a failure, and all
but the target otherwise, where the new content is found. -/
def Ended (directory : Path) (name : String) (bytes : List UInt8) (t : FileTree) :
    Except FileError Unit → FileTree → Prop
  | .error _, u => ∀ q, Kept directory t u q
  | .ok (), u => u.find (directory ++ [name]) = .ok (some (.file bytes)) ∧
    ∀ q, q ≠ directory ++ [name] → Kept directory t u q

/-- A name in a directory is not on the way to it. -/
lemma not_prefix_of_concat (directory : Path) (name : String) :
    ¬ directory ++ [name] <+: directory :=
  fun h => by simpa using h.length_le

/-- Where all is kept, a replacement can be cut off. -/
lemma intact_of_kept (h : ∀ q, Kept directory t u q) : Intact directory name bytes t u :=
  ⟨.inl ((h _).get?_eq (not_prefix_of_concat directory name)), fun q _ _ => h q⟩

namespace Filling

/-- What is filled has a path below the top. -/
lemma ne_nil (h : Filling directory t temporary written u) : temporary ≠ [] := by
  rintro rfl
  simpa [get?] using h.fresh

/-- A file that is made is filled with nothing. -/
lemma of_put (h : ∀ q, Kept directory t u q) (hfree : u.get? temporary = none)
    (htemporary : ¬ temporary <+: directory) :
    Filling directory t temporary [] (u.put temporary (.file [])) := by
  have hne : temporary ≠ [] := by
    rintro rfl
    exact htemporary (List.nil_prefix)
  refine ⟨?_, get?_put_self hne, fun q hq => ?_⟩
  · rw [← (h temporary).get?_eq htemporary, hfree]
  · exact (h q).trans (.inl (get?_put_of_ne hq))

/-- Bytes that are appended fill the file, unless nothing changes. -/
lemma append (h : Filling directory t temporary written u) (bytes : List UInt8) :
    (u.append temporary bytes).1 = .ok bytes.length ∧
      Filling directory t temporary (written ++ bytes) (u.append temporary bytes).2 ∨
    ∃ e, u.append temporary bytes = (.error e, u) := by
  cases hfind : u.find temporary with
  | error e => exact .inr ⟨e, by simp [FileTree.append, hfind]⟩
  | ok found =>
    obtain rfl : found = some (.file written) := (find_eq_ok_iff.1 hfind).2.symm.trans h.content
    rw [append_of_find hfind]
    exact .inl ⟨rfl, h.fresh, get?_put_self h.ne_nil,
      fun q hq => (h.kept q hq).trans (.inl (get?_put_of_ne hq))⟩

/-- A write appends as many bytes as it answers, and any number of them when it fails. -/
lemma performs_write {a : Except FileError ℕ} (h : Filling directory t temporary written u)
    (hwrite : u.Performs (.write temporary more) a v) :
    (∃ e, a = .error e ∧ ∃ filled, Filling directory t temporary filled v) ∨
      ∃ n, a = .ok n ∧ Filling directory t temporary (written ++ more.take n) v := by
  rcases hwrite with ⟨n, hn, hdone⟩ | ⟨e, n, hsame | hpartly⟩
  · have ha : a = (u.append temporary (more.take n)).1 := congrArg Prod.fst hdone
    have hv : v = (u.append temporary (more.take n)).2 := congrArg Prod.snd hdone
    rcases h.append (more.take n) with ⟨hok, hfilled⟩ | ⟨e, hfails⟩
    · rw [hok, List.length_take_of_le hn] at ha
      exact .inr ⟨n, ha, hv ▸ hfilled⟩
    · rw [hfails] at ha hv
      exact .inl ⟨e, ha, written, hv ▸ h⟩
  · obtain ⟨rfl, rfl⟩ := Prod.mk.inj hsame
    exact .inl ⟨e, rfl, written, h⟩
  · have ha : a = .error e := congrArg Prod.fst hpartly
    have hv : v = (u.append temporary (more.take n)).2 := congrArg Prod.snd hpartly
    refine .inl ⟨e, ha, ?_⟩
    rcases h.append (more.take n) with ⟨-, hfilled⟩ | ⟨e', hfails⟩
    · exact ⟨_, hv ▸ hfilled⟩
    · rw [hfails] at hv
      exact ⟨written, hv ▸ h⟩

/-- A temporary file that is removed leaves nothing. -/
lemma erase (h : Filling directory t temporary written u) (q : Path) :
    Kept directory t (u.erase temporary) q := by
  rcases eq_or_ne q temporary with rfl | hq
  · exact .inl ((get?_erase_self h.ne_nil).trans h.fresh.symm)
  · exact (h.kept q hq).trans (.inl (get?_erase_of_ne hq))

/-- A temporary file that is given its target's name is found there, and leaves nothing. -/
lemma rename {target : Path} (h : Filling directory t temporary written u)
    (hrename : u.rename temporary target = (.ok (), v)) :
    v.find target = .ok (some (.file written)) ∧ ∀ q, q ≠ target → Kept directory t v q := by
  obtain ⟨bytes, hfind, -, rfl⟩ := rename_eq_ok_iff.1 hrename
  obtain rfl : bytes = written := by simpa [h.content] using (find_eq_ok_iff.1 hfind).2.symm
  exact ⟨find_rename hfind hrename, fun q hq => (h.erase q).trans (.inl (get?_put_of_ne hq))⟩

/-- While a temporary file is filled, a replacement can be cut off. -/
lemma intact {temporaryName : String}
    (h : Filling directory t (directory ++ [temporaryName]) written u)
    (hname : IsTemporaryName temporaryName) (hne : name ≠ temporaryName) :
    Intact directory name bytes t u := by
  refine ⟨.inl ?_, fun q _ hq => h.kept q (hq _ hname)⟩
  exact (h.kept _ (by simpa using hne)).get?_eq (not_prefix_of_concat directory name)

end Filling

end Stages

end FileTree

namespace FileProgram

open FileTree

/-- A process that is alone with the file system, whose steps may fail. -/
def faulty : Setting FileStep FileStep.Answer FileTree :=
  ⟨Performs, Eq, fun _ => rfl, Eq.trans⟩

variable {t u : FileTree} {directory : Path} {name temporaryName : String}
  {written bytes : List UInt8}

section Filling

variable (hname : IsTemporaryName temporaryName) (hne : name ≠ temporaryName)
  (h : Filling directory t (directory ++ [temporaryName]) written u)

include h

/-- A replacement that is given up removes the temporary file. -/
lemma ensures_abandon (e : FileError) :
    (abandon (directory ++ [temporaryName]) e).Ensures faulty (Intact directory name bytes t)
      (Ended directory name bytes t) u := by
  rintro _ rfl answer _ rfl
  refine ⟨intact_of_kept h.erase, ?_⟩
  rintro _ rfl
  exact h.erase

include hname hne

/-- Writing a file fills it, as far as it goes. -/
lemma ensures_writeAll (steps : ℕ) (rest : List UInt8) :
    (writeAll (directory ++ [temporaryName]) steps rest).Ensures faulty
      (Intact directory name bytes t)
      (fun outcome u => ∃ filled, Filling directory t (directory ++ [temporaryName]) filled u ∧
        (outcome = .ok () → filled = written ++ rest)) u := by
  generalize hfile : directory ++ [temporaryName] = file at h ⊢
  fun_induction writeAll file steps rest generalizing u written with
  | case1 =>
    rintro _ rfl
    exact ⟨written, h, fun _ => (List.append_nil written).symm⟩
  | case2 =>
    rintro _ rfl
    exact ⟨written, h, fun hok => by cases hok⟩
  | case3 steps b rest ih =>
    rintro _ rfl answer v hwrite
    rcases h.performs_write hwrite with ⟨e, rfl, filled, hfilled⟩ | ⟨n, rfl, hfilled⟩
    · refine ⟨(hfile ▸ hfilled).intact hname hne, ?_⟩
      rintro _ rfl
      exact ⟨filled, hfilled, fun hok => by cases hok⟩
    · refine ⟨(hfile ▸ hfilled).intact hname hne, ?_⟩
      cases n with
      | zero =>
        rintro _ rfl
        exact ⟨_, hfilled, fun hok => by cases hok⟩
      | succ n =>
        refine (ih n hfilled).mono fun outcome u hended => ?_
        rwa [List.append_assoc, List.take_append_drop] at hended

/-- A file that is filled and given its target's name. -/
lemma ensures_fillAndRename (hempty : written = []) :
    (fillAndRename (directory ++ [temporaryName]) (directory ++ [name]) bytes).Ensures faulty
      (Intact directory name bytes t) (Ended directory name bytes t) u := by
  refine ((ensures_writeAll hname hne h bytes.length bytes).mono ?_).bind
  rintro outcome u ⟨filled, hfilled, hall⟩
  cases outcome with
  | error e => exact ensures_abandon hfilled e
  | ok _ =>
    obtain rfl : filled = bytes := by rw [hall rfl, hempty, List.nil_append]
    rintro _ rfl synced _ rfl
    refine ⟨hfilled.intact hname hne, ?_⟩
    rcases synced with e | _
    · exact ensures_abandon hfilled e
    · intro v hv renamed w hrename
      obtain rfl : _ = v := hv
      rcases performs_rename hrename with ⟨e, rfl, rfl⟩ | ⟨rfl, hdone⟩
      · exact ⟨hfilled.intact hname hne, ensures_abandon hfilled e⟩
      · obtain ⟨hfind, hkept⟩ := hfilled.rename hdone
        refine ⟨⟨.inr (find_eq_ok_iff.1 hfind).2, fun q hq _ => hkept q hq⟩, ?_⟩
        rintro _ rfl
        exact ⟨hfind, hkept⟩

end Filling

/-- Whatever fails, and wherever it is cut off, a replacement leaves its target intact; and when it
has ended, it has cleaned up. -/
theorem ensures_replace (t : FileTree) (directory : Path) (bytes : List UInt8)
    (hname : ¬ IsTemporaryName name) :
    (replace directory name bytes).Ensures faulty (Intact directory name bytes t)
      (Ended directory name bytes t) t := by
  rintro _ rfl made u hmade
  have hkept : ∀ q, Kept directory t u q := kept_of_performs hmade
  refine ⟨intact_of_kept hkept, ?_⟩
  rcases made with e | _
  · rintro _ rfl
    exact hkept
  · rintro _ rfl created v hcreated
    rcases hcreated with ⟨temporaryName, htemporary, hfind, hanswer⟩ | ⟨e, hanswer⟩
    · obtain ⟨rfl, rfl⟩ := Prod.mk.inj hanswer
      have hne : name ≠ temporaryName := by
        rintro rfl
        exact hname htemporary
      have hfilling := Filling.of_put hkept (find_eq_ok_iff.1 hfind).2
        (not_prefix_of_concat directory temporaryName)
      exact ⟨hfilling.intact htemporary hne, ensures_fillAndRename htemporary hne hfilling rfl⟩
    · obtain ⟨rfl, rfl⟩ := Prod.mk.inj hanswer
      refine ⟨intact_of_kept hkept, ?_⟩
      rintro _ rfl
      exact hkept

end FileProgram

end TableTail
