import TableTail.Proofs.Files.Replaced
import TableTail.Proofs.Process.Ensures
import TableTail.Proofs.Text.Numerals

/-!
# Files that a replacement leaves alone

Replacing a file makes the directories above it that are missing, and makes, fills and renames a
temporary file beside it. To a path in the same directory that is neither the file nor the temporary
one this means that what is on the way to it stays, or is a directory where nothing was
(`FileTree.Grown`). So the same is found there as before. There is one exception: where the
directory was missing, a name that is too long is noticed only after the directory has been made
(`FileTree.readText_of_grown`).
-/

namespace TableTail

namespace FileTree

variable {t u v : FileTree} {p q : Path}

/-- All that is in the tree is in a directory. -/
def Closed (t : FileTree) : Prop :=
  ∀ p e, t.get? p = some e → ∀ way, way <+: p → way ≠ p → t.get? way = some .directory

/-- A tree without files is closed. -/
lemma closed_empty : empty.Closed := by
  intro p e hget way hway hne
  by_cases hp : p = []
  · rw [hp] at hway hne
    exact absurd (List.prefix_nil.1 hway) hne
  · simp [get?, empty, hp] at hget

/-- Nothing has changed on the way to a path but that directories have been made. -/
structure Grown (p : Path) (t u : FileTree) : Prop where
  self : u.get? p = t.get? p
  way : ∀ way, way <+: p → way ≠ p →
    u.get? way = t.get? way ∨ t.get? way = none ∧ u.get? way = some .directory

namespace Grown

/-- A tree that stays as it is. -/
lemma refl (t : FileTree) : t.Grown p t := ⟨rfl, fun _ _ _ => .inl rfl⟩

/-- A tree that changes twice. -/
lemma trans (h : Grown p t u) (h' : Grown p u v) : Grown p t v := by
  refine ⟨h'.self.trans h.self, fun way hway hne => ?_⟩
  rcases h.way way hway hne with hsame | ⟨hnone, hmade⟩
  · rcases h'.way way hway hne with hsame' | ⟨hnone', hmade'⟩
    · exact .inl (hsame'.trans hsame)
    · exact .inr ⟨hsame.symm.trans hnone', hmade'⟩
  · rcases h'.way way hway hne with hsame' | ⟨hnone', -⟩
    · exact .inr ⟨hnone, hsame'.trans hmade⟩
    · rw [hmade] at hnone'
      cases hnone'

/-- Changes off the way do not matter. -/
lemma of_get?_eq (h : ∀ way, way <+: p → u.get? way = t.get? way) : Grown p t u :=
  ⟨h p (List.prefix_refl p), fun way hway _ => .inl (h way hway)⟩

/-- A directory that is made on the way, where nothing was. -/
lemma put_directory (hq : q <+: p) (hne : q ≠ p) (hq_ne : q ≠ []) (hnone : t.get? q = none) :
    Grown p t (t.put q .directory) := by
  refine ⟨get?_put_of_ne (Ne.symm hne), fun way _ _ => ?_⟩
  rcases eq_or_ne way q with rfl | hway
  · exact .inr ⟨hnone, get?_put_self hq_ne⟩
  · exact .inl (get?_put_of_ne hway)

end Grown

/-- The way to a name in a directory leads through no other name there. -/
lemma ne_of_prefix_concat {directory way : Path} {name name' : String} (hname : name ≠ name')
    (hway : way <+: directory ++ [name']) : way ≠ directory ++ [name] := by
  rintro rfl
  obtain ⟨rest, hrest⟩ := hway
  rw [List.append_assoc] at hrest
  have hlast : name :: rest = [name'] := List.append_cancel_left hrest
  exact hname (List.cons.inj hlast).1

/-- Directories that are made on the way to a path. -/
lemma grown_makeDirectoriesBelow (above rest : Path) {more : Path} (hmore : more ≠ []) :
    Grown (above ++ rest ++ more) t (t.makeDirectoriesBelow above rest).2 := by
  induction rest generalizing t above with
  | nil => exact .refl t
  | cons name rest ih =>
    have hpath : above ++ (name :: rest) ++ more = above ++ [name] ++ rest ++ more := by simp
    rw [hpath, makeDirectoriesBelow]
    split
    · exact .refl t
    · split
      · exact ih _
      · exact .refl t
      · next hnone =>
        refine Grown.trans (Grown.put_directory ?_ ?_ (by simp) hnone) (ih _)
        · exact ⟨rest ++ more, by simp⟩
        · simp [hmore]

section Replacement

variable {directory : Path} {name name' contents : String} {bytes : List UInt8}

/-- A fresh name is one of the numbered series. -/
lemma freshName_eq (t : FileTree) (directory : Path) (tries n : Nat) :
    ∃ m, t.freshName directory tries n = ".tmp" ++ Text.natText m := by
  induction tries generalizing n with
  | zero => exact ⟨n, rfl⟩
  | succ tries ih =>
    rw [freshName]
    split
    · exact ⟨n, rfl⟩
    · exact ih (n + 1)

/-- A temporary file is made beside a path that has none of the names for temporary files, which
does not matter to the path. -/
lemma createTemporary_other (t : FileTree) (directory : Path)
    (hname' : ∀ n, ".tmp" ++ Text.natText n ≠ name') :
    Grown (directory ++ [name']) t (t.createTemporary directory).2 ∧
      ∀ temporary, (t.createTemporary directory).1 = .ok temporary →
        ∀ way, way <+: directory ++ [name'] → way ≠ temporary := by
  obtain ⟨n, hfresh⟩ := freshName_eq t directory t.entries.length 0
  have hother : ∀ way, way <+: directory ++ [name'] →
      way ≠ directory ++ [t.freshName directory t.entries.length 0] := by
    intro way hway
    rw [hfresh]
    exact ne_of_prefix_concat (hname' n) hway
  unfold createTemporary
  simp only
  split
  · exact ⟨.refl t, fun temporary h => by cases h⟩
  · refine ⟨.of_get?_eq fun way hway => get?_put_of_ne (hother way hway), ?_⟩
    rintro temporary ⟨⟩
    exact hother

/-- A step that may only change what is at two paths. -/
def TouchesOnly (a b : Path) : FileStep → Prop
  | .write p _ => p = a
  | .sync _ => True
  | .rename source target => source = a ∧ target = b
  | .remove p => p = a
  | _ => False

/-- Such a step leaves what is at any other path. -/
lemma get?_step_of_touchesOnly {a b q : Path} {s : FileStep} (h : TouchesOnly a b s) (ha : q ≠ a)
    (hb : q ≠ b) (t : FileTree) : (FileTree.step s t).2.get? q = t.get? q := by
  cases s with
  | makeDirectories d => exact h.elim
  | createTemporary d => exact h.elim
  | write p bytes =>
    obtain rfl : p = a := h
    simp only [step, append]
    split
    · rfl
    · rfl
    · rfl
    · exact get?_put_of_ne ha
  | sync p => rfl
  | rename source target =>
    obtain ⟨rfl, rfl⟩ : source = a ∧ target = b := h
    simp only [step, rename]
    split <;> try rfl
    rw [get?_put_of_ne hb, get?_erase_of_ne ha]
  | remove p =>
    obtain rfl : p = a := h
    exact get?_erase_of_ne ha

/-- A program of such steps leaves what is at any other path. -/
lemma get?_perform_of_touchesOnly {α : Type} {a b q : Path} {program : FileProgram α}
    (h : program.Asks (TouchesOnly a b)) (ha : q ≠ a) (hb : q ≠ b) (t : FileTree) :
    (perform program t).2.get? q = t.get? q := by
  induction program generalizing t with
  | done value => rfl
  | ask s next ih => exact (ih _ (h.2 _) _).trans (get?_step_of_touchesOnly h.1 ha hb t)
  | pause ms next ih => exact ih h t

/-- Writing a file asks for nothing but writes to it. -/
lemma asks_writeAll {a b : Path} (steps : Nat) (bytes : List UInt8) :
    (FileProgram.writeAll a steps bytes).Asks (TouchesOnly a b) := by
  fun_induction FileProgram.writeAll a steps bytes with
  | case1 => exact trivial
  | case2 => exact trivial
  | case3 steps c bytes ih =>
    refine ⟨rfl, fun answer => ?_⟩
    rcases answer with e | _ | n
    · exact trivial
    · exact trivial
    · exact ih n

/-- Filling a temporary file and giving it its target's name changes nothing at other paths. -/
lemma asks_fillAndRename (a b : Path) (bytes : List UInt8) :
    (FileProgram.fillAndRename a b bytes).Asks (TouchesOnly a b) := by
  have habandon : ∀ e, (FileProgram.abandon a e).Asks (TouchesOnly a b) :=
    fun e => ⟨rfl, fun _ => trivial⟩
  refine (asks_writeAll _ bytes).bind fun written => ?_
  rcases written with e | _
  · exact habandon e
  · refine ⟨trivial, fun synced => ?_⟩
    rcases synced with e | _
    · exact habandon e
    · refine ⟨⟨rfl, rfl⟩, fun renamed => ?_⟩
      rcases renamed with e | _
      · exact habandon e
      · exact trivial

/-- A file that is replaced does not matter to a path with another name in its directory, but that
the directory is made. -/
theorem grown_replaceText (hname : name ≠ name') (hname' : ∀ n, ".tmp" ++ Text.natText n ≠ name') :
    Grown (directory ++ [name']) t (t.replaceText directory name contents).2 := by
  unfold replaceText FileProgram.replace
  simp only [Program.run, step]
  have hmade : Grown (directory ++ [name']) t (t.makeDirectories directory).2 :=
    grown_makeDirectoriesBelow [] directory (List.cons_ne_nil name' [])
  generalize t.makeDirectories directory = m at hmade ⊢
  obtain ⟨e | _, t₁⟩ := m
  · exact hmade
  · refine hmade.trans ?_
    simp only [Program.run, step]
    obtain ⟨hcreated, htemporary⟩ := createTemporary_other t₁ directory hname'
    generalize t₁.createTemporary directory = c at hcreated htemporary ⊢
    obtain ⟨e | temporary, t₂⟩ := c
    · exact hcreated
    · refine hcreated.trans (.of_get?_eq fun way hway => ?_)
      -- what is left to do concerns the temporary file and the one that is replaced
      exact get?_perform_of_touchesOnly (asks_fillAndRename temporary (directory ++ [name]) _)
        (htemporary temporary rfl way hway) (ne_of_prefix_concat hname hway) t₂

end Replacement

/-- Nothing is found below some directories, for one of three reasons. -/
def Missing (t : FileTree) (above p : Path) : Prop :=
  t.findBelow above p = .ok none ∨ t.findBelow above p = .error .notFound ∨
    t.findBelow above p = .error .nameTooLong ∧ ∃ name ∈ p, Path.maxComponent < name.utf8ByteSize

section Below

variable {above rest : Path} {name next : String}

/-- Below a directory the search goes on. -/
lemma findBelow_of_directory (hshort : ¬ Path.maxComponent < name.utf8ByteSize)
    (hdirectory : t.get? (above ++ [name]) = some .directory) :
    t.findBelow above (name :: next :: rest) = t.findBelow (above ++ [name]) (next :: rest) := by
  simp [findBelow, hshort, hdirectory]

/-- What is not found below a directory is not found above it. -/
lemma Missing.of_below (h : t.Missing (above ++ [name]) (next :: rest))
    (hshort : ¬ Path.maxComponent < name.utf8ByteSize)
    (hdirectory : t.get? (above ++ [name]) = some .directory) :
    t.Missing above (name :: next :: rest) := by
  rw [Missing, findBelow_of_directory hshort hdirectory]
  rcases h with hnone | hmissing | ⟨htoo, name', hname', hlong⟩
  · exact .inl hnone
  · exact .inr (.inl hmissing)
  · exact .inr (.inr ⟨htoo, name', List.mem_cons_of_mem _ hname', hlong⟩)

/-- Where nothing is but directories on the way, nothing is found. -/
lemma missing_of_bare (above : Path) (hself : t.get? (above ++ p) = none)
    (hway : ∀ way, way <+: p → way ≠ [] → way ≠ p →
      t.get? (above ++ way) = none ∨ t.get? (above ++ way) = some .directory) :
    t.Missing above p := by
  induction p generalizing above with
  | nil => exact .inl (by simpa [findBelow] using hself)
  | cons name rest ih =>
    by_cases hlong : Path.maxComponent < name.utf8ByteSize
    · exact .inr (.inr ⟨by simp [findBelow, hlong], name, by simp, hlong⟩)
    · cases rest with
      | nil =>
        have hfound : t.findBelow above [name] = .ok none := by simpa [findBelow, hlong] using hself
        exact .inl hfound
      | cons next rest =>
        rcases hway [name] (by simp) (by simp) (by simp) with hnone | hdirectory
        · exact .inr (.inl (by simp [findBelow, hlong, hnone]))
        · have hbelow : t.Missing (above ++ [name]) (next :: rest) := by
            refine ih (above ++ [name]) (by simpa using hself) fun way hprefix hne hne' => ?_
            simpa using hway (name :: way) (by simpa using hprefix) (by simp) (by simpa using hne')
          exact hbelow.of_below hlong hdirectory

/-- Where nothing is in a closed tree, nothing is below. -/
lemma Closed.get?_below (hclosed : t.Closed) (hnone : t.get? above = none) (hrest : rest ≠ []) :
    t.get? (above ++ rest) = none := by
  by_contra hsome
  obtain ⟨e, he⟩ := Option.ne_none_iff_exists'.1 hsome
  have hdirectory := hclosed _ e he above (List.prefix_append _ _) (by simpa using hrest)
  rw [hnone] at hdirectory
  cases hdirectory

/-- What is found at a path when only directories have been made on the way to it: the same, or
still nothing. -/
lemma findBelow_of_grown (above : Path) (hclosed : t.Closed) (h : Grown (above ++ p) t u) :
    u.findBelow above p = t.findBelow above p ∨
      t.findBelow above p = .error .notFound ∧ u.Missing above p := by
  induction p generalizing above with
  | nil => exact .inl (by simpa [findBelow] using h.self)
  | cons name rest ih =>
    by_cases hlong : Path.maxComponent < name.utf8ByteSize
    · exact .inl (by simp [findBelow, hlong])
    · cases rest with
      | nil => exact .inl (by simp [findBelow, hlong, h.self])
      | cons next rest =>
        have hpath : above ++ name :: next :: rest = above ++ [name] ++ next :: rest := by simp
        rw [hpath] at h
        have hprefix : above ++ [name] <+: above ++ [name] ++ next :: rest := List.prefix_append _ _
        rcases h.way _ hprefix (by simp) with hsame | ⟨hnone, hmade⟩
        · by_cases hdirectory : t.get? (above ++ [name]) = some .directory
          · rw [findBelow_of_directory hlong hdirectory]
            rw [hdirectory] at hsame
            rcases ih _ h with heq | ⟨hmissing, hnothing⟩
            · exact .inl ((findBelow_of_directory hlong hsame).trans heq)
            · exact .inr ⟨hmissing, hnothing.of_below hlong hsame⟩
          · refine .inl ?_
            cases hget : t.get? (above ++ [name]) with
            | none => simp [findBelow, hlong, hsame, hget]
            | some entry =>
              cases entry with
              | file bytes => simp [findBelow, hlong, hsame, hget]
              | directory => exact absurd hget hdirectory
        · -- nothing was below the directory that has been made
          have hbare : u.Missing (above ++ [name]) (next :: rest) := by
            refine missing_of_bare _ (h.self.trans (hclosed.get?_below hnone (by simp))) ?_
            intro way hway hne hne'
            have hway' : above ++ [name] ++ way <+: above ++ [name] ++ next :: rest :=
              (List.prefix_append_right_inj _).2 hway
            rcases h.way _ hway' (by simpa using hne') with hsame | ⟨-, hdirectory⟩
            · exact .inl (hsame.trans (hclosed.get?_below hnone hne))
            · exact .inr hdirectory
          exact .inr ⟨by simp [findBelow, hlong, hnone], hbare.of_below hlong hmade⟩

end Below

/-- What is read at a path is the same when only directories have been made on the way to it, but
for a missing file with too long a name in its path, for which the reason that it cannot be read may
change. -/
theorem readText_of_grown (hclosed : t.Closed) (h : Grown p t u) :
    u.readText p = t.readText p ∨ t.readText p = .error .notFound ∧
      u.readText p = .error .nameTooLong ∧ ∃ name ∈ p, Path.maxComponent < name.utf8ByteSize := by
  have hfound := findBelow_of_grown [] hclosed h
  rw [readText, readText, find, find]
  rcases hfound with heq | ⟨hmissing, hnone | hmissing' | ⟨htoo, hlong⟩⟩
  · exact .inl (by rw [heq])
  · exact .inl (by rw [hmissing, hnone])
  · exact .inl (by rw [hmissing, hmissing'])
  · exact .inr ⟨by rw [hmissing], by rw [htoo], hlong⟩

end FileTree

end TableTail
