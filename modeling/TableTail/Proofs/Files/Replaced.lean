import Mathlib.Data.List.Infix
import TableTail.Files.Replacement

/-!
# Replaced files

What is found at a path depends on the entries of the directories above it and on its own
(`find_eq_ok_iff`). A file that was replaced without a fault is read as the text that it was
replaced with (`readText_replaceText`): the temporary file gets all of the text, and taking the
target's name it leaves the directories above the target as they are. Whether there is a fault
depends on the tree and not on the text (`replaceText_ok_of`).
-/

namespace TableTail

namespace FileTree

variable {t u : FileTree} {p q : Path} {e : FileEntry} {found : Option FileEntry}

/-- What is put at a path is there. -/
lemma get?_put_self (hp : p ≠ []) : (t.put p e).get? p = some e := by
  simp [get?, put, hp]

/-- Other paths keep what they have when something is taken away. -/
lemma get?_erase_of_ne (h : q ≠ p) : (t.erase p).get? q = t.get? q := by
  unfold get? erase
  split
  · rfl
  · rw [List.find?_filter]
    congr 2
    funext x
    by_cases hx : x.1 = q <;> simp [hx, h]

/-- Other paths keep what they have when something is put. -/
lemma get?_put_of_ne (h : q ≠ p) : (t.put p e).get? q = t.get? q := by
  have hcons : (t.put p e).get? q = (t.erase p).get? q := by
    simp [get?, put, Ne.symm h]
  rw [hcons, get?_erase_of_ne h]

/-- A path that can be followed: its names are not too long, and there are directories all the way
to its last name. -/
structure Leads (t : FileTree) (p : Path) : Prop where
  short : ∀ name ∈ p, name.utf8ByteSize ≤ Path.maxComponent
  directories : ∀ way, way <+: p → way ≠ [] → way ≠ p → t.get? way = some .directory

/-- A path that can be followed can still be, when the directories on the way to its last name are
the same. -/
lemma Leads.congr (h : t.Leads p) (hway : ∀ way, way <+: p → way ≠ p →
    t.get? way = some .directory → u.get? way = some .directory) : u.Leads p :=
  ⟨h.short, fun way hprefix hne hself =>
    hway way hprefix hself (h.directories way hprefix hne hself)⟩

/-- What is found below some directories: the first name is not too long, and is a directory if
there are more. -/
lemma findBelow_cons (above : Path) (name : String) (rest : Path) :
    t.findBelow above (name :: rest) = .ok found ↔
      name.utf8ByteSize ≤ Path.maxComponent ∧
      (rest ≠ [] → t.get? (above ++ [name]) = some .directory) ∧
      t.findBelow (above ++ [name]) rest = .ok found := by
  rw [findBelow.eq_def]
  by_cases hlong : Path.maxComponent < name.utf8ByteSize
  · have hnot : ¬ name.utf8ByteSize ≤ Path.maxComponent := Nat.not_le.2 hlong
    simp [hlong, hnot]
  · have hshort : name.utf8ByteSize ≤ Path.maxComponent := Nat.not_lt.1 hlong
    cases rest with
    | nil => simp [hlong, hshort, findBelow]
    | cons next rest =>
      cases hat : t.get? (above ++ [name]) with
      | none => simp [hat, hlong]
      | some entry => cases entry <;> simp [hat, hlong, hshort]

/-- What is found below some directories depends on the names and on the directories on the way. -/
lemma findBelow_eq_ok_iff {above : Path} :
    t.findBelow above p = .ok found ↔
      (∀ name ∈ p, name.utf8ByteSize ≤ Path.maxComponent) ∧
      (∀ way, way <+: p → way ≠ [] → way ≠ p → t.get? (above ++ way) = some .directory) ∧
      t.get? (above ++ p) = found := by
  induction p generalizing above with
  | nil => simp [findBelow]
  | cons name rest ih =>
    -- a way into the path is its first name and a way into the rest
    have hways : (∀ way, way <+: name :: rest → way ≠ [] → way ≠ name :: rest →
        t.get? (above ++ way) = some .directory) ↔
        (rest ≠ [] → t.get? (above ++ [name]) = some .directory) ∧
        ∀ way, way <+: rest → way ≠ [] → way ≠ rest →
          t.get? (above ++ [name] ++ way) = some .directory := by
      constructor
      · intro h
        refine ⟨fun hrest => h [name] (by simp) (by simp) (by simpa using hrest.symm), ?_⟩
        intro way hway _ hself
        simpa using h (name :: way) (by simpa using hway) (by simp) (by simpa using hself)
      · rintro ⟨hname, hrest⟩ way hway hne hself
        obtain rfl | ⟨more, rfl, hmore⟩ := List.prefix_cons_iff.1 hway
        · exact absurd rfl hne
        · rcases eq_or_ne more [] with rfl | hsome
          · exact hname (by simpa using hself.symm)
          · simpa using hrest more hmore hsome (by simpa using hself)
    rw [findBelow_cons, ih, hways]
    simp only [List.mem_cons, forall_eq_or_imp, List.append_assoc, List.singleton_append]
    tauto

/-- What is found at a path. -/
theorem find_eq_ok_iff : t.find p = .ok found ↔ t.Leads p ∧ t.get? p = found := by
  rw [find, findBelow_eq_ok_iff]
  exact ⟨fun h => ⟨⟨h.1, h.2.1⟩, h.2.2⟩, fun h => ⟨h.1.short, h.1.directories, h.2⟩⟩

/-- The bytes of an array from some place on are listed behind those that were collected. -/
lemma toList_loop (bytes : ByteArray) (i : Nat) (collected : List UInt8) :
    ByteArray.toList.loop bytes i collected = collected.reverse ++ bytes.data.toList.drop i := by
  fun_induction ByteArray.toList.loop bytes i collected with
  | case1 i collected hi ih =>
    have hlt : i < bytes.data.toList.length := by simpa using hi
    have hget : bytes.get! i = bytes.data.toList[i] := by
      have : bytes.get! i = bytes.data[i]! := rfl
      rw [this, getElem!_pos bytes.data i hi, Array.getElem_toList]
    rw [ih, List.drop_eq_getElem_cons hlt, hget]
    simp
  | case2 i collected hi =>
    have hge : bytes.data.toList.length ≤ i := by simpa using hi
    simp [List.drop_eq_nil_of_le hge]

/-- The bytes of a text are read as this text. -/
lemma textOfBytes_bytesOfText (s : String) : textOfBytes (bytesOfText s) = .ok s := by
  have hlist : bytesOfText s = s.toByteArray.data.toList := toList_loop s.toByteArray 0 []
  have hbytes : (⟨(bytesOfText s).toArray⟩ : ByteArray) = s.toByteArray := by rw [hlist]
  have hvalid : s.toByteArray.IsValidUTF8 := s.isValidUTF8
  simp [textOfBytes, hbytes, String.fromUTF8?, hvalid, String.fromUTF8]

section Run

variable {temporary target : Path} {bytes before : List UInt8}

/-- Carries out a program of file steps without faults. -/
abbrev perform {α : Type} (p : FileProgram α) (t : FileTree) : α × FileTree :=
  p.run FileTree.step (fun _ t => t) t

/-- Bytes that are appended to a file are behind those that it has. -/
lemma append_of_find (hfile : t.find p = .ok (some (.file before))) :
    t.append p bytes = (.ok bytes.length, t.put p (.file (before ++ bytes))) := by
  simp [append, hfile]

/-- A path that a file can be given: it can be followed, and there is no directory at it. -/
structure Takes (t : FileTree) (p : Path) : Prop where
  leads : t.Leads p
  ne_directory : t.get? p ≠ some .directory

/-- The paths that a file can be given depend on the directories. -/
lemma Takes.congr (h : t.Takes p)
    (hdirectories : ∀ q, t.get? q = some .directory ↔ u.get? q = some .directory) : u.Takes p :=
  ⟨h.leads.congr fun way _ _ => (hdirectories way).1,
    fun hself => h.ne_directory ((hdirectories p).2 hself)⟩

/-- All bytes are written to a file that is empty, and the directories stay. -/
lemma perform_writeAll (bytes : List UInt8) (hfile : t.find p = .ok (some (.file []))) :
    ∃ u, perform (FileProgram.writeAll p bytes.length bytes) t = (.ok (), u) ∧
      u.find p = .ok (some (.file bytes)) ∧
      ∀ q, t.get? q = some .directory ↔ u.get? q = some .directory := by
  obtain ⟨hleads, hget⟩ := find_eq_ok_iff.1 hfile
  cases bytes with
  | nil => exact ⟨t, rfl, hfile, fun _ => .rfl⟩
  | cons b bytes =>
    have hne : p ≠ [] := by
      rintro rfl
      simp [get?] at hget
    have hstep : FileTree.step (.write p (b :: bytes)) t =
        (.ok (bytes.length + 1), t.put p (.file (b :: bytes))) := append_of_find hfile
    have hdirectories : ∀ q, t.get? q = some .directory ↔
        (t.put p (.file (b :: bytes))).get? q = some .directory := by
      intro q
      rcases eq_or_ne q p with rfl | hq
      · simp [hget, get?_put_self hne]
      · rw [get?_put_of_ne hq]
    refine ⟨t.put p (.file (b :: bytes)), ?_, ?_, hdirectories⟩
    · simp [perform, FileProgram.writeAll, Program.run, hstep]
    · exact find_eq_ok_iff.2
        ⟨hleads.congr fun way _ _ => (hdirectories way).1, get?_put_self hne⟩

/-- A rename takes a file to a path that a file can be given, and fails at any other. -/
lemma rename_eq_ok_iff {source : Path} :
    t.rename source target = (.ok (), u) ↔ ∃ bytes, t.find source = .ok (some (.file bytes)) ∧
      t.Takes target ∧ u = (t.erase source).put target (.file bytes) := by
  constructor
  · intro h
    unfold rename at h
    cases hsource : t.find source with
    | error e => simp [hsource] at h
    | ok here =>
      cases htarget : t.find target with
      | error e => simp [hsource, htarget] at h
      | ok there =>
        obtain ⟨hleads, hget⟩ := find_eq_ok_iff.1 htarget
        obtain _ | bytes | _ := here
        · simp [hsource, htarget] at h
        · simp only [hsource, htarget] at h
          obtain _ | _ | _ := there
          · exact ⟨bytes, rfl, ⟨hleads, by simp [hget]⟩, (Prod.mk.inj h).2.symm⟩
          · exact ⟨bytes, rfl, ⟨hleads, by simp [hget]⟩, (Prod.mk.inj h).2.symm⟩
          · cases h
        · simp [hsource, htarget] at h
  · rintro ⟨bytes, hsource, ⟨hleads, hne⟩, rfl⟩
    have htarget := find_eq_ok_iff.2 ⟨hleads, rfl⟩
    unfold rename
    obtain hnone | ⟨_ | _, hsome⟩ := Option.eq_none_or_eq_some (t.get? target)
    · rw [hsource, htarget, hnone]
    · rw [hsource, htarget, hsome]
    · exact absurd hsome hne

/-- A file that is given another path is found there. -/
lemma find_rename {source : Path} (hsource : t.find source = .ok (some (.file bytes)))
    (hrename : t.rename source target = (.ok (), u)) :
    u.find target = .ok (some (.file bytes)) := by
  obtain ⟨bytes', hfile, ⟨hleads, hne_directory⟩, rfl⟩ := rename_eq_ok_iff.1 hrename
  obtain rfl : bytes' = bytes := by simpa [hsource] using hfile.symm
  have hget := (find_eq_ok_iff.1 hsource).2
  have hne : target ≠ [] := by
    rintro rfl
    exact hne_directory rfl
  refine find_eq_ok_iff.2 ⟨hleads.congr fun way _ hself hway => ?_, get?_put_self hne⟩
  -- a directory on the way is neither the target nor the file that is renamed
  have hother : way ≠ source := by
    rintro rfl
    rw [hget] at hway
    cases hway
  rw [get?_put_of_ne hself, get?_erase_of_ne hother, hway]

/-- A temporary file that could be made is empty and is found at its path. -/
lemma find_createTemporary {directory : Path}
    (h : t.createTemporary directory = (.ok temporary, u)) :
    u.find temporary = .ok (some (.file [])) := by
  unfold createTemporary at h
  simp only at h
  split at h
  · simp at h
  · next found hfind =>
    obtain ⟨rfl, rfl⟩ := Prod.mk.inj h |>.imp Except.ok.inj id
    obtain ⟨hleads, -⟩ := find_eq_ok_iff.1 hfind
    refine find_eq_ok_iff.2 ⟨hleads.congr fun way _ hself hway => ?_, get?_put_self (by simp)⟩
    rw [get?_put_of_ne hself, hway]

/-- A file that is written beside its target takes its name and is found at it, if the target can be
given to a file. -/
lemma perform_fillAndRename (bytes : List UInt8) (hfile : t.find temporary = .ok (some (.file [])))
    (htakes : t.Takes target) :
    ∃ u, perform (FileProgram.fillAndRename temporary target bytes) t = (.ok (), u) ∧
      u.find target = .ok (some (.file bytes)) := by
  obtain ⟨v, hwritten, hfilled, hdirectories⟩ := perform_writeAll bytes hfile
  have hrename := rename_eq_ok_iff.2 ⟨bytes, hfilled, htakes.congr hdirectories, rfl⟩
  refine ⟨_, ?_, find_rename hfilled hrename⟩
  simp only [perform] at hwritten
  simp only [perform, FileProgram.fillAndRename, Program.run_bind, hwritten, Program.run, step,
    hrename]

/-- A file that is written beside its target and takes its name could be given it. -/
lemma takes_of_perform_fillAndRename (hfile : t.find temporary = .ok (some (.file [])))
    (h : (perform (FileProgram.fillAndRename temporary target bytes) t).1 = .ok ()) :
    t.Takes target := by
  obtain ⟨v, hwritten, hfilled, hdirectories⟩ := perform_writeAll bytes hfile
  simp only [perform] at hwritten
  simp only [perform, FileProgram.fillAndRename, Program.run_bind, hwritten, Program.run,
    step] at h
  cases hrename : v.rename temporary target with
  | mk renamed w =>
    rw [hrename] at h
    cases renamed with
    | error e => simp [FileProgram.abandon, Program.run] at h
    | ok _ =>
      obtain ⟨-, -, htakes, -⟩ := rename_eq_ok_iff.1 hrename
      exact htakes.congr fun q => (hdirectories q).symm

end Run

/-- A file that can be replaced: its directory is there or can be made, with a temporary file in it,
and its name can be given to a file. -/
def Replaceable (t : FileTree) (directory : Path) (name : String) : Prop :=
  ∃ t₁ t₂ temporary, t.makeDirectories directory = (.ok (), t₁) ∧
    t₁.createTemporary directory = (.ok temporary, t₂) ∧ t₂.Takes (directory ++ [name])

variable {directory : Path} {name contents : String}

/-- A file that can be replaced is replaced, and read as its new text. -/
lemma Replaceable.replaceText (h : t.Replaceable directory name) (contents : String) :
    ∃ u, t.replaceText directory name contents = (.ok (), u) ∧
      u.readText (directory ++ [name]) = .ok contents := by
  obtain ⟨t₁, t₂, temporary, hmade, hcreated, htakes⟩ := h
  obtain ⟨u, hfilled, hfind⟩ :=
    perform_fillAndRename (bytesOfText contents) (find_createTemporary hcreated) htakes
  refine ⟨u, ?_, by simp only [readText, hfind, textOfBytes_bytesOfText]⟩
  simp only [FileTree.replaceText, FileProgram.replace, Program.run, step, hmade, hcreated]
  exact hfilled

/-- A file that was replaced without a fault could be replaced. -/
lemma replaceable_of_replaceText (h : (t.replaceText directory name contents).1 = .ok ()) :
    t.Replaceable directory name := by
  unfold replaceText FileProgram.replace at h
  simp only [Program.run, step] at h
  cases hmade : t.makeDirectories directory with
  | mk made t₁ =>
    rw [hmade] at h
    cases made with
    | error e => simp [Program.run] at h
    | ok _ =>
      simp only [Program.run, step] at h
      cases hcreated : t₁.createTemporary directory with
      | mk created t₂ =>
        rw [hcreated] at h
        cases created with
        | error e => simp [Program.run] at h
        | ok temporary =>
          exact ⟨t₁, t₂, temporary, hmade, hcreated,
            takes_of_perform_fillAndRename (find_createTemporary hcreated) h⟩

/-- A file that was replaced without a fault is read as its new text. -/
theorem readText_replaceText (h : t.replaceText directory name contents = (.ok (), u)) :
    u.readText (directory ++ [name]) = .ok contents := by
  obtain ⟨u', hreplaced, hread⟩ :=
    (replaceable_of_replaceText (congrArg Prod.fst h)).replaceText contents
  obtain rfl : u' = u := congrArg Prod.snd (hreplaced.symm.trans h)
  exact hread

/-- Where one text can replace a file, any other can. -/
theorem replaceText_ok_of {other : String}
    (h : (t.replaceText directory name contents).1 = .ok ()) :
    (t.replaceText directory name other).1 = .ok () := by
  obtain ⟨u, hreplaced, -⟩ := (replaceable_of_replaceText h).replaceText other
  exact congrArg Prod.fst hreplaced

end FileTree

end TableTail
