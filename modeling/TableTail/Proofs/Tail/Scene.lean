import TableTail.Proofs.Process.Ensures
import TableTail.Proofs.Tail.Scans

/-!
# The scene of a table

Everything that matters to the reading of one table at one moment: the rows of its units, its
cursor, where the reading of each unit began, and the batches that the sink has taken. Queries and
deliveries may fail at any time; a scan that does not fail selects what it says (`Scene.Answers`).

Between two actions of a program the scene may evolve: rows are appended to the units, and
identities are discovered behind the units that there are (`Scene.Evolves`).
-/

namespace TableTail

/-- The reading of a table at one moment. `starts` tells where the reading of each unit began. -/
structure Scene where
  content : Option Sql.Cell → List Sql.Row
  cursor : Cursor
  starts : List Boundary
  accepted : List (List Record)

namespace Scene

/-- The scene of a table that has just been opened. -/
def opening (content : Option Sql.Cell → List Sql.Row) (c : Cursor) : Scene :=
  ⟨content, c, c.boundaries, []⟩

/-- The units of the table. -/
def units (s : Scene) : List TableUnit := s.cursor.units

/-- How far each unit has been read. -/
def boundaries (s : Scene) : List Boundary := s.cursor.boundaries

/-- The boundaries are those of the units. -/
lemma boundaries_eq (s : Scene) : s.boundaries = s.units.map (·.boundary) := rfl

/-- The boundary of a unit is at the unit's index. -/
lemma getElem?_boundaries {s : Scene} {i : Nat} {u : TableUnit} (h : s.units[i]? = some u) :
    s.boundaries[i]? = some u.boundary := by
  rw [boundaries_eq, List.getElem?_map, h]
  rfl

/-- The scene with the cursor changed. The reading of units that are new begins where they are. -/
def exchange (change : Cursor → Cursor) (s : Scene) : Scene :=
  { s with
    cursor := change s.cursor
    starts := s.starts ++ (change s.cursor).boundaries.drop s.starts.length }

/-- The scene with one more batch taken by the sink. -/
def accept (records : List Record) (s : Scene) : Scene :=
  { s with accepted := s.accepted ++ [records] }

/-- What an action may be answered, and the scene behind it. Other tables do not matter. -/
def Answers (r : Reader) (s : Scene) : (q : Action) → q.Answer → Scene → Prop
  | .query q, answer, s' =>
    s' = s ∧ (q.IsScan → ∀ rows, answer = .ok rows → rows = r.select s.content q)
  | .exchange table change, before, s' =>
    if table = r.name then before = s.cursor ∧ s' = s.exchange change else s' = s
  | .emit records, .ok (), s' => s' = s.accept records
  | .emit _, .error _, s' => s' = s
  | .describe _, _, s' => s' = s
  | .load _, _, s' => s' = s
  | .save _ _, _, s' => s' = s
  | .enter _, _, s' => s' = s
  | .leave _, _, s' => s' = s
  | .clock, _, s' => s' = s

/-- A scene in which the reader's table is read: its cursor is of the right mode and well-formed,
each unit's beginning is known, and the rows of each unit have ascending marks. -/
structure Sound (r : Reader) (s : Scene) : Prop where
  wellFormed : s.cursor.WellFormed
  mode : s.cursor.isPartitioned = r.isPartitioned
  started : s.starts.length = s.units.length
  ascending : ∀ key, r.Ascending (s.content key)

/-- One scene comes from another one by rows that were appended and units that were added. -/
structure Extends (s s' : Scene) : Prop where
  content : ∀ key, s.content key <+: s'.content key
  added : ∃ added, s'.units = s.units ++ added ∧ s'.starts = s.starts ++ added.map (·.boundary)
  accepted : s'.accepted = s.accepted

/-- How the scene may change while a program is not acting. -/
def Evolves (r : Reader) (s s' : Scene) : Prop := s.Extends s' ∧ (s.Sound r → s'.Sound r)

variable {r : Reader} {s s' s'' : Scene}

namespace Extends

/-- A scene that stays as it is. -/
lemma refl (s : Scene) : s.Extends s :=
  ⟨fun _ => List.prefix_refl _, ⟨[], by simp, by simp⟩, rfl⟩

/-- A scene that changes twice. -/
lemma trans (h : s.Extends s') (h' : s'.Extends s'') : s.Extends s'' := by
  obtain ⟨added, hunits, hstarts⟩ := h.added
  obtain ⟨added', hunits', hstarts'⟩ := h'.added
  refine ⟨fun key => (h.content key).trans (h'.content key), ⟨added ++ added', ?_, ?_⟩,
    h'.accepted.trans h.accepted⟩
  · rw [hunits', hunits, List.append_assoc]
  · rw [hstarts', hstarts, List.append_assoc, List.map_append]

/-- The units that there were keep their places. -/
lemma units_getElem? (h : s.Extends s') {i : Nat} {u : TableUnit} (hu : s.units[i]? = some u) :
    s'.units[i]? = some u := by
  obtain ⟨added, hunits, -⟩ := h.added
  obtain ⟨hi, -⟩ := List.getElem?_eq_some_iff.1 hu
  rw [hunits, List.getElem?_append_left hi, hu]

/-- Units do not get fewer. -/
lemma length_le (h : s.Extends s') : s.units.length ≤ s'.units.length := by
  obtain ⟨added, hunits, -⟩ := h.added
  simp [hunits]

end Extends

/-- A scene that stays as it is. -/
lemma Evolves.refl (s : Scene) : s.Evolves r s := ⟨.refl s, id⟩

/-- A scene that changes twice. -/
lemma Evolves.trans (h : s.Evolves r s') (h' : s'.Evolves r s'') : s.Evolves r s'' :=
  ⟨h.1.trans h'.1, h'.2 ∘ h.2⟩

/-- The surroundings of the programs that work on a table. -/
def setting (r : Reader) : Setting Action Action.Answer Scene :=
  ⟨Answers r, Evolves r, Evolves.refl, Evolves.trans⟩

/-- A scene after a unit has been scanned. -/
structure Turned (r : Reader) (s : Scene) (i : Nat) (last : Option Mark) (now : Nat) (s' : Scene) :
    Prop where
  content : s'.content = s.content
  units : s'.units = s.units.modify i (TableUnit.turn last now)
  starts : s'.starts = s.starts
  accepted : s'.accepted = s.accepted
  sound : s'.Sound r

namespace Turned

variable {k now : Nat} {last : Option Mark}

/-- A unit that is not scanned stays as it is. -/
lemma units_of_ne (h : s.Turned r k last now s') {i : Nat} (hi : k ≠ i) :
    s'.units[i]? = s.units[i]? := by
  rw [h.units, List.getElem?_modify]
  cases s.units[i]? <;> simp [hi]

/-- The unit that is scanned is turned. -/
lemma units_self (h : s.Turned r k last now s') {u : TableUnit} (hu : s.units[k]? = some u) :
    s'.units[k]? = some (u.turn last now) := by
  rw [h.units, List.getElem?_modify, hu]
  simp

/-- What a scan does not change in a unit stays the same for all of them. -/
lemma map_units (h : s.Turned r k last now s') {α : Type} {f : TableUnit → α}
    (hf : ∀ u : TableUnit, f (u.turn last now) = f u) : s'.units.map f = s.units.map f := by
  refine List.ext_getElem? fun i => ?_
  rw [List.getElem?_map, List.getElem?_map]
  by_cases hi : k = i
  · subst hi
    cases hu : s.units[k]? with
    | none => rw [h.units, List.getElem?_modify, hu]; rfl
    | some u => rw [h.units_self hu, Option.map_some, Option.map_some, hf]
  · rw [h.units_of_ne hi]

end Turned

namespace Sound

/-- The units of the scene are as the reader's mode wants them. -/
lemma fits (h : s.Sound r) {i : Nat} {u : TableUnit} (hu : s.units[i]? = some u) : r.Fits u :=
  Cursor.fits h.mode (List.mem_of_getElem? hu)

/-- A change of the cursor that adds no units leaves the known beginnings. -/
lemma starts_exchange (h : s.Sound r) {change : Cursor → Cursor}
    (hlength : (change s.cursor).units.length = s.cursor.units.length) :
    (s.exchange change).starts = s.starts := by
  have hnone : (change s.cursor).boundaries.drop s.starts.length = [] :=
    List.drop_eq_nil_of_le (by simp [Cursor.boundaries, hlength, h.started, Scene.units])
  simp [exchange, hnone]

/-- Looking at the cursor changes nothing. -/
lemma exchange_id (h : s.Sound r) : s.exchange id = s := by
  have hstarts : (s.exchange id).starts = s.starts := h.starts_exchange rfl
  cases s
  simp_all [exchange]

/-- A change of the cursor that keeps the units' number and the mode keeps the scene sound. -/
lemma exchange (h : s.Sound r) {change : Cursor → Cursor}
    (hwell : (change s.cursor).WellFormed)
    (hmode : (change s.cursor).isPartitioned = s.cursor.isPartitioned)
    (hlength : (change s.cursor).units.length = s.cursor.units.length) :
    (s.exchange change).Sound r where
  wellFormed := hwell
  mode := hmode.trans h.mode
  started := by
    rw [h.starts_exchange hlength, h.started]
    exact hlength.symm
  ascending := h.ascending

/-- The one unit of a table that is read as a whole is scanned. -/
lemma turned_moveSingle (h : s.Sound r) (hmode : r.isPartitioned = false) (last : Option Mark)
    (now : Nat) : s.Turned r 0 last now (s.exchange (Reader.moveSingle last now)) := by
  have hunits := Cursor.units_moveSingle (h.mode.trans hmode) last now
  have hlength : (Reader.moveSingle last now s.cursor).units.length = s.cursor.units.length := by
    simp [hunits]
  exact ⟨rfl, hunits, h.starts_exchange hlength, rfl,
    h.exchange (h.wellFormed.moveSingle last now) (by simp) hlength⟩

/-- A slot is scanned. -/
lemma turned_moveSlot (h : s.Sound r) (hmode : r.isPartitioned = true) (i : Nat)
    (last : Option Mark) (now : Nat) :
    s.Turned r i last now (s.exchange (Reader.moveSlot i last now)) := by
  have hunits := Cursor.units_moveSlot (h.mode.trans hmode) i last now
  have hlength : (Reader.moveSlot i last now s.cursor).units.length = s.cursor.units.length := by
    simp [hunits]
  exact ⟨rfl, hunits, h.starts_exchange hlength, rfl,
    h.exchange (h.wellFormed.moveSlot i last now) (by simp) hlength⟩

/-- Discovered identities are added to a scene. -/
lemma evolves_adopt (h : s.Sound r) (kind : MarkKind) (rows : List Sql.Row) :
    s.Evolves r (s.exchange (Cursor.adopt kind rows)) := by
  obtain ⟨added, hunits, -⟩ := Cursor.units_adopt s.cursor kind rows
  have hadded : (s.cursor.adopt kind rows).boundaries.drop s.starts.length =
      added.map (·.boundary) := by
    simp [Cursor.boundaries, hunits, h.started, Scene.units]
  refine ⟨⟨fun _ => List.prefix_refl _, ⟨added, hunits, ?_⟩, rfl⟩, fun _ => ?_⟩
  · simp [Scene.exchange, hadded]
  · refine ⟨h.wellFormed.adopt kind rows, ?_, ?_, h.ascending⟩
    · exact (Cursor.isPartitioned_adopt kind rows s.cursor).trans h.mode
    · simp [Scene.exchange, Cursor.boundaries, Scene.units, hunits, h.started]

end Sound

end Scene

end TableTail
