import Mathlib.Data.String.Basic
import TableTail.Checkpoint.Location
import TableTail.Proofs.Settings.Checked
import TableTail.Proofs.Text.Numerals

/-!
# Plain names

The names in a table's settings reach statements and paths as they stand, for which they have to be
plain identifiers (`Sql.IsPlain`). Each check looks at a name without the blanks around it, and the
name is kept with them: what passes is the plain identifiers with any blanks around them
(`Sql.identifierFault?_eq_none_iff`), and a name that passes is plain exactly if there is no blank
in it (`Sql.isPlain_iff`). `TableSettings.names_padded` tells this of all names of a table at once.

Blanks are no quotes, so that a name that passes cannot end the quotes around it in a statement
(`Sql.quoted_of_isPadded`). But they may be control characters, and only a plain name is sure to be
the name of its file (`Location.component_of_isPlain`).
-/

namespace TableTail

namespace Sql

/-! ## Plain identifiers -/

/-- ASCII letters, and the underscore. -/
def IsLetter (c : Char) : Prop := 'a' ≤ c ∧ c ≤ 'z' ∨ 'A' ≤ c ∧ c ≤ 'Z' ∨ c = '_'

/-- ASCII letters and digits, and the underscore. -/
def IsWordCharacter (c : Char) : Prop := IsLetter c ∨ '0' ≤ c ∧ c ≤ '9'

/-- One to 63 letters, digits and underscores, the first of which is no digit. -/
structure IsPlain (name : String) : Prop where
  length_pos : 1 ≤ name.length
  length_le : name.length ≤ 63
  first : ∀ c ∈ name.toList.head?, IsLetter c
  characters : ∀ c ∈ name.toList, IsWordCharacter c

/-- A plain identifier with any blanks around it. -/
def IsPadded (name : String) : Prop :=
  ∃ (before : List Char) (plain : String) (behind : List Char), IsPlain plain ∧
    (∀ c ∈ before ++ behind, Text.isBlank c = true) ∧ name.toList = before ++ plain.toList ++ behind

/-! ## Characters -/

variable {c : Char} {name : String}

/-- The letters are the small ones, the capital ones and the underscore. -/
lemma isLetter_iff : IsLetter c ↔ c.isAlpha = true ∨ c = '_' := by
  have hupper : c.isUpper = true ↔ 'A' ≤ c ∧ c ≤ 'Z' := decide_eq_true_iff
  have hlower : c.isLower = true ↔ 'a' ≤ c ∧ c ≤ 'z' :=
    Bool.and_eq_true_iff.trans (and_congr decide_eq_true_iff decide_eq_true_iff)
  have halpha : c.isAlpha = true ↔ c.isUpper = true ∨ c.isLower = true := Bool.or_eq_true_iff
  rw [halpha, hupper, hlower, IsLetter, or_assoc, or_left_comm]

/-- An identifier starts with a letter. -/
lemma startsIdentifier_iff : startsIdentifier c = true ↔ IsLetter c := by
  rw [startsIdentifier, Bool.or_eq_true, decide_eq_true_iff, isLetter_iff]

/-- An identifier goes on with letters and digits. -/
lemma continuesIdentifier_iff : continuesIdentifier c = true ↔ IsWordCharacter c := by
  have hdigit : c.isDigit = true ↔ '0' ≤ c ∧ c ≤ '9' :=
    Bool.and_eq_true_iff.trans (and_congr decide_eq_true_iff decide_eq_true_iff)
  have halphanum : c.isAlphanum = true ↔ c.isAlpha = true ∨ c.isDigit = true :=
    Bool.or_eq_true_iff
  rw [continuesIdentifier, Bool.or_eq_true, decide_eq_true_iff, halphanum, hdigit,
    IsWordCharacter, isLetter_iff]
  exact or_right_comm

/-- The codes of letters and digits. -/
lemma IsWordCharacter.toNat (h : IsWordCharacter c) :
    48 ≤ c.toNat ∧ c.toNat ≤ 57 ∨ 65 ≤ c.toNat ∧ c.toNat ≤ 90 ∨ c.toNat = 95 ∨
      97 ≤ c.toNat ∧ c.toNat ≤ 122 := by
  have hval : c.toNat = c.val.toNat := rfl
  rcases h with (hlower | hupper | rfl) | hdigit
  · simp [Char.le_def, UInt32.le_iff_toNat_le] at hlower
    omega
  · simp [Char.le_def, UInt32.le_iff_toNat_le] at hupper
    omega
  · decide
  · simp [Char.le_def, UInt32.le_iff_toNat_le] at hdigit
    omega

/-- Letters and digits are no blanks. -/
lemma IsWordCharacter.not_isBlank (h : IsWordCharacter c) : Text.isBlank c = false := by
  have hcode := h.toNat
  simp [Text.isBlank]
  omega

/-- Letters and digits stand in a path as they are. -/
lemma IsWordCharacter.cleanChar_eq (h : IsWordCharacter c) : Location.cleanChar c = c := by
  have hcode := h.toNat
  have hcontrol : Text.isControl c = false := by
    simp [Text.isControl]
    omega
  have hslash : c ≠ '/' := by
    rintro rfl
    exact absurd hcode (by decide)
  have hbackslash : c ≠ '\\' := by
    rintro rfl
    exact absurd hcode (by decide)
  simp [Location.cleanChar, hcontrol, hslash, hbackslash]

/-- Letters and digits have one byte each. -/
lemma utf8Len_eq_length {s : List Char} (h : ∀ c ∈ s, IsWordCharacter c) :
    String.utf8Len s = s.length := by
  induction s with
  | nil => rfl
  | cons c rest ih =>
    rw [List.forall_mem_cons] at h
    have hsize : c.utf8Size = 1 := by
      have hcode := h.1.toNat
      have hval : c.toNat = c.val.toNat := rfl
      have hle : c.val ≤ 127 := by
        rw [UInt32.le_iff_toNat_le]
        simp
        omega
      simp [Char.utf8Size, hle]
    rw [String.utf8Len_cons, ih h.2, hsize, List.length_cons]

/-- No character is bad exactly if all of them continue an identifier. -/
lemma firstBadCharacter_eq_none_iff {i : Nat} {s : List Char} :
    firstBadCharacter i s = none ↔ ∀ c ∈ s, continuesIdentifier c = true := by
  induction s generalizing i with
  | nil => simp [firstBadCharacter]
  | cons first rest ih =>
    rw [firstBadCharacter, List.forall_mem_cons]
    split
    · next hfirst => simp [hfirst, ih]
    · next hfirst => simp [hfirst]

/-! ## What passes the check -/

namespace IsPlain

/-- A plain identifier has a first character. -/
lemma toList_ne_nil (h : IsPlain name) : name.toList ≠ [] := by
  intro hnil
  have hpos := h.length_pos
  rw [← String.length_toList, hnil] at hpos
  exact absurd hpos (by decide)

/-- A plain identifier has no blank at either end. -/
lemma trimmed (h : IsPlain name) : Text.Trimmed name.toList := by
  constructor
  · intro c hc
    exact (h.characters c (List.mem_of_mem_head? hc)).not_isBlank
  · intro c hc
    exact (h.characters c (List.mem_of_mem_getLast? hc)).not_isBlank

/-- A plain identifier passes with no blanks around it. -/
lemma isPadded (h : IsPlain name) : IsPadded name :=
  ⟨[], name, [], h, by simp, by simp⟩

end IsPlain

/-- All characters of a padded name are blanks or stand in a plain identifier. -/
lemma IsPadded.characters (h : IsPadded name) :
    ∀ c ∈ name.toList, Text.isBlank c = true ∨ IsWordCharacter c := by
  obtain ⟨before, plain, behind, hplain, hblank, hname⟩ := h
  rw [List.forall_mem_append] at hblank
  rw [hname]
  intro c hc
  rcases List.mem_append.1 hc with hc | hbehind
  · rcases List.mem_append.1 hc with hbefore | hinside
    · exact .inl (hblank.1 c hbefore)
    · exact .inr (hplain.characters c hinside)
  · exact .inl (hblank.2 c hbehind)

/-- What the check looks at: that there is a first character, how long the name is, that it starts an
identifier, and that all of it goes on with one. -/
lemma identifierFault?_eq_none_iff_checks : identifierFault? name = none ↔
    ∃ first ∈ (Text.trim name).toList.head?, (Text.trim name).utf8ByteSize ≤ maxIdentifierLength ∧
      startsIdentifier first = true ∧
      ∀ c ∈ (Text.trim name).toList, continuesIdentifier c = true := by
  unfold identifierFault?
  simp only
  split
  · next htrim => simp [htrim]
  · next first rest htrim =>
    have hhead : (Text.trim name).toList.head? = some first := by
      rw [htrim]
      rfl
    rw [ite_eq_iff, ite_eq_iff, hhead]
    simp [firstBadCharacter_eq_none_iff]

/-- The check passes a name if it is plain without the blanks around it. -/
lemma identifierFault?_eq_none_iff_trim :
    identifierFault? name = none ↔ IsPlain (Text.trim name) := by
  rw [identifierFault?_eq_none_iff_checks]
  simp only [startsIdentifier_iff, continuesIdentifier_iff]
  constructor
  · rintro ⟨first, hfirst, hshort, hstart, hcharacters⟩
    constructor
    · rw [← String.length_toList]
      exact List.length_pos_of_mem (List.mem_of_mem_head? hfirst)
    · rw [← String.length_toList, ← utf8Len_eq_length hcharacters, String.utf8Len_toList]
      exact hshort
    · intro c hc
      rw [← Option.mem_unique hfirst hc]
      exact hstart
    · exact hcharacters
  · intro h
    obtain ⟨first, hfirst⟩ : ∃ first, (Text.trim name).toList.head? = some first :=
      ⟨_, List.head?_eq_some_head h.toList_ne_nil⟩
    refine ⟨first, hfirst, ?_, h.first first hfirst, h.characters⟩
    rw [← String.utf8Len_toList, utf8Len_eq_length h.characters, String.length_toList]
    exact h.length_le

/-- The check passes the plain identifiers with any blanks around them, and nothing else. -/
theorem identifierFault?_eq_none_iff : identifierFault? name = none ↔ IsPadded name := by
  rw [identifierFault?_eq_none_iff_trim]
  constructor
  · intro h
    obtain ⟨before, behind, hname, hblank⟩ := Text.toList_trim name
    exact ⟨before, Text.trim name, behind, h, hblank, hname⟩
  · rintro ⟨before, plain, behind, hplain, hblank, hname⟩
    rw [Text.trim_eq_of_toList hname hblank hplain.trimmed hplain.toList_ne_nil]
    exact hplain

/-- A name that passes is plain if there is no blank in it. -/
theorem isPlain_iff : IsPlain name ↔ IsPadded name ∧ ∀ c ∈ name.toList, Text.isBlank c = false := by
  constructor
  · intro h
    exact ⟨h.isPadded, fun c hc => (h.characters c hc).not_isBlank⟩
  · rintro ⟨⟨before, plain, behind, hplain, hblank, hname⟩, hnone⟩
    have hpadding : before ++ behind = [] := by
      rw [List.eq_nil_iff_forall_not_mem]
      intro c hc
      have hmem : c ∈ name.toList := by
        rw [hname]
        rcases List.mem_append.1 hc with hbefore | hbehind
        · exact List.mem_append_left _ (List.mem_append_left _ hbefore)
        · exact List.mem_append_right _ hbehind
      have hnot := hnone c hmem
      rw [hblank c hc] at hnot
      cases hnot
    obtain ⟨rfl, rfl⟩ := List.append_eq_nil_iff.1 hpadding
    rw [List.nil_append, List.append_nil] at hname
    rw [String.toList_injective hname]
    exact hplain

/-! ## Where the names go -/

/-- Texts without quotes are quoted as they stand. -/
lemma doubleQuotes_eq_self {s : List Char} (h : ∀ c ∈ s, c ≠ '"') : doubleQuotes s = s := by
  induction s with
  | nil => rfl
  | cons c rest ih =>
    rw [List.forall_mem_cons] at h
    rw [doubleQuotes, if_neg h.1, ih h.2]

/-- A name that passes stands in a statement as it is, between quotes that it does not end. -/
theorem quoted_of_isPadded (h : IsPadded name) :
    (quoted name).toList = '"' :: (name.toList ++ ['"']) ∧ '"' ∉ name.toList := by
  have hquote : '"' ∉ name.toList := by
    intro hmem
    rcases h.characters _ hmem with hblank | hword
    · exact absurd hblank (by decide)
    · exact absurd hword.toNat (by decide)
  refine ⟨?_, hquote⟩
  rw [quoted, String.toList_ofList, doubleQuotes_eq_self]
  intro c hc heq
  exact hquote (heq ▸ hc)

end Sql

/-- A plain name is a component of a path as it stands. -/
theorem Location.component_of_isPlain {name : String} (h : Sql.IsPlain name) :
    component name = name := by
  have hclean : name.toList.map cleanChar = name.toList := by
    rw [List.map_congr_left fun c hc => (h.characters c hc).cleanChar_eq]
    exact List.map_id _
  have hnot : ∀ s : String, (∀ c ∈ s.toList, c = '.') → name ≠ s := by
    rintro s hs rfl
    obtain ⟨c, hc⟩ := List.exists_mem_of_ne_nil _ h.toList_ne_nil
    obtain rfl := hs c hc
    exact absurd (h.characters _ hc).toNat (by decide)
  unfold component
  simp only
  rw [hclean, String.ofList_toList, if_neg]
  rintro (hempty | hdot | hdots)
  · exact hnot "" (by simp) hempty
  · exact hnot "." (by simp) hdot
  · exact hnot ".." (by simp) hdots

namespace TableSettings

/-! ## The names of a table's settings -/

/-- The names that are checked: of the table, of the cursor's columns, of the listed columns, and of
those that are renamed or converted. -/
def identifiers (t : TableSettings) : List String :=
  t.name :: t.cursorColumns ++ (t.columns ++ Named.names t.rename ++ Named.names t.convert)

variable {t : TableSettings}

/-- All names of accepted settings pass the check. -/
lemma identifierFault?_of_fault? (h : t.fault? = none) :
    ∀ name ∈ t.identifiers, Sql.identifierFault? name = none := by
  simp only [fault?, identifierFault, Option.orElse_eq_none, Option.map_eq_none_iff,
    List.findSome?_eq_none_iff] at h
  obtain ⟨hfirst, hidentity, -, hothers, -⟩ := h
  intro name hname
  simp only [identifiers, cursorColumns, List.cons_append, List.mem_cons, List.mem_append] at hname
  rcases hname with rfl | rfl | hname | hname
  · exact hfirst _ (by simp)
  · exact hfirst _ (by simp)
  · exact hidentity _ hname
  · exact hothers _ (by simpa [or_assoc] using hname)

/-- A fault in the renames is no fault of a name. -/
lemma renameFault_ne_identifier {used : List String} {renames : Named String}
    {fault : Sql.IdentifierFault} : renameFault used renames ≠ some (.identifier fault) := by
  induction renames generalizing used with
  | nil => simp [renameFault]
  | cons entry rest ih =>
    obtain ⟨column, target⟩ := entry
    rw [renameFault]
    split
    · simp
    · split
      · simp
      · exact ih

/-- Settings that are rejected for a name have one that does not pass the check. -/
lemma exists_of_fault?_identifier {fault : Sql.IdentifierFault}
    (h : t.fault? = some (.identifier fault)) :
    ∃ name ∈ t.identifiers, Sql.identifierFault? name = some fault := by
  have hfound : ∀ names : List String, (∀ name ∈ names, name ∈ t.identifiers) →
      identifierFault names = some (.identifier fault) →
      ∃ name ∈ t.identifiers, Sql.identifierFault? name = some fault := by
    intro names hnames hfault
    obtain ⟨fault', hsome, heq⟩ := Option.map_eq_some_iff.1 hfault
    obtain rfl := TableFault.identifier.inj heq
    obtain ⟨name, hname, hnamed⟩ := List.exists_of_findSome?_eq_some hsome
    exact ⟨name, hnames name hname, hnamed⟩
  -- only three of the checks look for such a fault
  simp only [fault?, Option.orElse_eq_some] at h
  rcases h with hfirst | ⟨-, hidentity | ⟨-, hsame | ⟨-, hothers | ⟨-, hblank | ⟨-, hrename |
    ⟨-, htarget | ⟨-, hconvert | ⟨-, hneeded⟩⟩⟩⟩⟩⟩⟩⟩
  · refine hfound _ (fun name hname => ?_) hfirst
    simp only [List.mem_cons, List.not_mem_nil, or_false] at hname
    rcases hname with rfl | rfl
    · exact List.mem_cons_self ..
    · exact List.mem_cons_of_mem _ (List.mem_cons_self ..)
  · refine hfound _ (fun name hname => ?_) hidentity
    exact List.mem_append_left _ (List.mem_cons_of_mem _ (List.mem_cons_of_mem _ hname))
  · split at hsame <;> cases hsame
  · exact hfound _ (fun name hname => List.mem_append_right _ hname) hothers
  · split at hblank <;> cases hblank
  · exact absurd hrename renameFault_ne_identifier
  · obtain ⟨target, -, heq⟩ := Option.map_eq_some_iff.1 htarget
    cases heq
  · obtain ⟨column, -, heq⟩ := Option.map_eq_some_iff.1 hconvert
    cases heq
  · split at hneeded <;> cases hneeded

/-- The names of accepted settings are plain identifiers with any blanks around them, so that those
without a blank in them are plain; settings are rejected for a name only if it is none of these; and
a plain identifier passes the check always. -/
theorem names_padded (t : TableSettings) :
    (t.fault? = none → ∀ name ∈ t.identifiers, Sql.IsPadded name ∧
      (Sql.IsPlain name ↔ ∀ c ∈ name.toList, Text.isBlank c = false)) ∧
    (∀ fault, t.fault? = some (.identifier fault) →
      ∃ name ∈ t.identifiers, ¬ Sql.IsPadded name) ∧
    (∀ name, Sql.identifierFault? name = none ↔ Sql.IsPadded name) ∧
    ∀ name, Sql.IsPlain name → Sql.identifierFault? name = none := by
  refine ⟨fun h name hname => ?_, fun fault h => ?_, fun name =>
    Sql.identifierFault?_eq_none_iff, fun name h => ?_⟩
  · have hpadded := Sql.identifierFault?_eq_none_iff.1 (identifierFault?_of_fault? h name hname)
    refine ⟨hpadded, ?_⟩
    rw [Sql.isPlain_iff]
    exact and_iff_right hpadded
  · obtain ⟨name, hname, hfault⟩ := exists_of_fault?_identifier h
    refine ⟨name, hname, fun hpadded => ?_⟩
    rw [Sql.identifierFault?_eq_none_iff.2 hpadded] at hfault
    cases hfault
  · exact Sql.identifierFault?_eq_none_iff.2 h.isPadded

end TableSettings

namespace Journal

/-- A line break behind the name "events" passes, so that an accepted name is not plain; a digit in
front of "lives" does not. -/
theorem events_padded :
    (numberedEntries "events\n" "new").fault? = none ∧
      Sql.IsPadded "events\n" ∧ ¬ Sql.IsPlain "events\n" ∧
      (numberedEntries "9lives" "lives").fault? = some (.identifier (.badStart "9lives" '9')) ∧
      ∃ name ∈ (numberedEntries "9lives" "lives").identifiers, ¬ Sql.IsPadded name := by
  have haccepted : (numberedEntries "events\n" "new").fault? = none := by decide +kernel
  have hrejected : (numberedEntries "9lives" "lives").fault? =
      some (.identifier (.badStart "9lives" '9')) := by decide +kernel
  obtain ⟨hnames, -⟩ := TableSettings.names_padded (numberedEntries "events\n" "new")
  obtain ⟨-, hfaults, -⟩ := TableSettings.names_padded (numberedEntries "9lives" "lives")
  obtain ⟨hpadded, hplain⟩ := hnames haccepted "events\n" (List.mem_cons_self ..)
  refine ⟨haccepted, hpadded, ?_, hrejected, hfaults _ hrejected⟩
  rw [hplain]
  intro hnone
  have hbreak : '\n' ∈ "events\n".toList := by simp
  exact absurd (hnone '\n' hbreak) (by decide)

end Journal

end TableTail
