import TableTail.Proofs.Calendar.TimestampText
import TableTail.Proofs.Json.RoundTrip
import TableTail.Proofs.Number.DecimalText
import TableTail.Proofs.Tail.MarkOrder

/-!
# Marks and their texts

A mark is read from its text (`read_display`) and from its entry in a checkpoint (`ofJson_toJson`)
as a mark of its kind (`Mark.normalize`). This is at the same place exactly when the mark is
regular, that is no timestamp with a leap second anywhere but at the end of a minute
(`same_normalize_iff`). Whatever is read as a mark of some kind is of this kind and regular
(`Mark.OfKind`), and so is what is taken from a cell, if the cell is regular.
-/

namespace TableTail

/-- A cell that does not have an irregular timestamp. -/
def Sql.Cell.IsRegular : Sql.Cell → Prop
  | .timestamp t => t.IsRegular
  | .moment t => t.IsRegular
  | _ => True

namespace Mark

/-- A mark that is no irregular timestamp. -/
def IsRegular : Mark → Prop
  | timestamp t => t.IsRegular
  | _ => True

instance : DecidablePred IsRegular
  | timestamp t => inferInstanceAs (Decidable t.IsRegular)
  | integer _ => isTrue trivial
  | decimal _ => isTrue trivial
  | text _ => isTrue trivial

/-- A regular mark of a kind. -/
structure OfKind (kind : MarkKind) (m : Mark) : Prop where
  kind_eq : m.kind = kind
  regular : m.IsRegular

/-- What a mark is read back as: a decimal without needless zeros, an irregular timestamp as the
second after its own, any other mark as it is. -/
def normalize : Mark → Mark
  | decimal d => decimal d.normalize
  | timestamp t => timestamp t.reread
  | m => m

/-- A mark and what it is read back as are at the same place exactly when the mark is regular. -/
theorem same_normalize_iff {m : Mark} : m.normalize.same m = true ↔ m.IsRegular := by
  cases m with
  | decimal d =>
    have heq : (decimal d).normalize.compareMark (decimal d) = .eq := d.compareValue_normalize
    simp [same, heq, IsRegular]
  | timestamp t =>
    rw [IsRegular, ← Timestamp.reread_eq_self_iff]
    refine ⟨fun h => Mark.timestamp.inj (eq_of_same (by simp [kind]) h), fun h => ?_⟩
    rw [normalize, h]
    exact same_self _
  | integer i => exact iff_of_true (same_self _) trivial
  | text s => exact iff_of_true (same_self _) trivial

/-- What a mark is read back as is of its kind. -/
@[simp] lemma kind_normalize (m : Mark) : m.normalize.kind = m.kind := by
  cases m <;> rfl

/-- Of regular marks only a decimal can be read back as another mark than it is. -/
lemma normalize_eq_self {m : Mark} (h : m.kind ≠ .decimal) (hregular : m.IsRegular) :
    m.normalize = m :=
  eq_of_same (by rwa [kind_normalize]) (same_normalize_iff.2 hregular)

/-- The text of a mark has no blank at either end, unless the mark is a text. -/
lemma trimmed_display {m : Mark} (h : m.kind ≠ .text) : Text.Trimmed m.display.toList := by
  cases m with
  | integer i => exact Text.trimmed_intText i.toInt
  | decimal d => exact d.trimmed_text
  | text s => exact absurd rfl h
  | timestamp t => exact Calendar.trimmed_text t

/-- A mark is read from its text. -/
theorem read_display (m : Mark) : read m.kind m.display = .ok m.normalize := by
  cases m with
  | integer i =>
    simp only [read, kind, display, Text.trim_eq_self (Text.trimmed_intText i.toInt),
      Text.readInt64_intText]
    rfl
  | decimal d =>
    simp only [read, kind, display, Text.trim_eq_self d.trimmed_text, Decimal.read_text]
    rfl
  | text s => rfl
  | timestamp t =>
    simp only [read, kind, display, Text.trim_eq_self (Calendar.trimmed_text t),
      Calendar.read?_text]
    rfl

/-- A mark is read from its entry. -/
theorem ofJson_toJson (m : Mark) : ofJson m.kind m.toJson = .ok m.normalize := by
  cases m with
  | integer i => exact read_display (integer i)
  | decimal d => exact read_display (decimal d)
  | text s => exact read_display (text s)
  | timestamp t => exact read_display (timestamp t)

/-- The entry of a mark is read as it is printed. -/
lemma within_toJson (n : Nat) (m : Mark) : Json.Within n m.toJson := by
  cases m with
  | integer i =>
    have hmin := i.le_toInt
    have hmax := i.toInt_lt
    exact .number (Json.faithful_int hmin (by omega))
  | _ => exact .string _

section Kind

variable {k : MarkKind} {c : Sql.Cell} {m : Mark}

/-- What is read as a mark of some kind is of this kind. -/
lemma ofKind_of_read {s : String} (h : read k s = .ok m) : m.OfKind k := by
  unfold read at h
  cases k with
  | text =>
    obtain rfl := Except.ok.inj h
    exact ⟨rfl, trivial⟩
  | timestamp =>
    simp only at h
    split at h
    · next t hread =>
      obtain rfl := Except.ok.inj h
      exact ⟨rfl, Calendar.isRegular_of_read? hread⟩
    · cases h
  | _ =>
    simp only at h
    split at h
    · obtain rfl : _ = m := by simpa using h
      exact ⟨rfl, trivial⟩
    · cases h

/-- What is read as a mark from an entry is of the wanted kind. -/
lemma ofKind_of_ofJson {j : Json} (h : ofJson k j = .ok m) : m.OfKind k := by
  unfold ofJson at h
  split at h
  · exact ofKind_of_read h
  · exact ofKind_of_read h
  · cases h

/-- What is read as a mark from the text of a cell is of the wanted kind. -/
lemma ofKind_of_ofText? (h : ofText? k c = some m) : m.OfKind k := by
  obtain ⟨s, -, hs⟩ := Option.bind_eq_some_iff.1 h
  cases hread : read k s with
  | error e => simp [hread, Except.toOption] at hs
  | ok m' =>
    obtain rfl : m' = m := by simpa [hread, Except.toOption] using hs
    exact ofKind_of_read hread

/-- What is made of a value that there is, is of the kind that it makes. -/
lemma kind_of_map {α : Type} {o : Option α} {make : α → Mark}
    (hmake : ∀ a, (make a).kind = k) (h : o.map make = some m) : m.kind = k := by
  obtain ⟨a, -, rfl⟩ := Option.map_eq_some_iff.1 h
  exact hmake a

/-- What is read as a mark from a cell is of the wanted kind. -/
lemma kind_of_ofCell? (h : ofCell? k c = some m) : m.kind = k := by
  unfold ofCell? at h
  split at h
  · cases h
  · exact Option.some.inj h ▸ rfl
  · split at h
    · exact kind_of_map (fun _ => rfl) h
    · exact (ofKind_of_ofText? h).kind_eq
  · split at h
    · exact Option.some.inj h ▸ rfl
    · exact (ofKind_of_ofText? h).kind_eq
  · exact Option.some.inj h ▸ rfl
  · exact Option.some.inj h ▸ rfl
  · exact kind_of_map (fun _ => rfl) h
  · exact Option.some.inj h ▸ rfl
  · exact Option.some.inj h ▸ rfl
  · exact Option.some.inj h ▸ rfl
  · exact kind_of_map (fun _ => rfl) h
  · exact (ofKind_of_ofText? h).kind_eq

/-- A mark of another kind than timestamps is regular. -/
lemma isRegular_of_kind (h : m.kind ≠ .timestamp) : m.IsRegular := by
  cases m with
  | timestamp t => exact absurd rfl h
  | _ => trivial

/-- What is read as a mark from a regular cell is regular. -/
lemma isRegular_of_ofCell? (hc : c.IsRegular) (h : ofCell? k c = some m) : m.IsRegular := by
  by_cases hk : k = .timestamp
  · subst hk
    cases c with
    | null => cases h
    | timestamp t =>
      obtain rfl := Option.some.inj h
      exact hc
    | moment t =>
      obtain rfl := Option.some.inj h
      exact hc
    | date d =>
      obtain rfl := Option.some.inj h
      exact Timestamp.isRegular_of_nano_lt (by decide : (0 : Nat) < 1000000000)
    | integer i =>
      obtain ⟨t, ht, rfl⟩ := Option.map_eq_some_iff.1 h
      exact Timestamp.isRegular_of_ofUnix? ht
    | _ => exact (ofKind_of_ofText? h).regular
  · exact isRegular_of_kind (kind_of_ofCell? h ▸ hk)

/-- What is read as a mark from a regular cell is of the wanted kind. -/
lemma ofKind_of_ofCell? (hc : c.IsRegular) (h : ofCell? k c = some m) : m.OfKind k :=
  ⟨kind_of_ofCell? h, isRegular_of_ofCell? hc h⟩

/-- The zero of a kind is of this kind. -/
@[simp] lemma kind_zero (k : MarkKind) : (zero k).kind = k := by
  cases k <;> rfl

/-- The zero of a kind is regular. -/
lemma ofKind_zero (k : MarkKind) : (zero k).OfKind k := by
  refine ⟨kind_zero k, ?_⟩
  cases k with
  | timestamp => exact Timestamp.isRegular_of_nano_lt (by decide)
  | _ => trivial

end Kind

end Mark

end TableTail
