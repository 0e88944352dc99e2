import TableTail.Proofs.Tail.Sweep

/-!
# A batch in hand

Between the moment a read has begun and the moment its batch is delivered or rolled back, the
cursor is ahead of what has been settled. The difference is what the batch holds: `InHand o b s`
says that, seen from the boundaries `o` at which the units were, the records of `b` are those of
the rows that the units have moved over, in the order of the units, and that the advances of `b`
are their moves.

Scanning one more unit keeps this (`InHand.turned`), so does everything that may happen beside the
read (`InHand.extends`), and undoing the batch leads back to where the units were
(`InHand.undone`).
-/

namespace TableTail

/-- A unit that was at one boundary before, as it is now. -/
structure Move where
  origin : Boundary
  unit : TableUnit

namespace Move

/-- Whether the unit is still where it was. -/
def Still (m : Move) : Prop := m.origin = m.unit.boundary

instance (m : Move) : Decidable m.Still := inferInstanceAs (Decidable (_ = _))

/-- The move as a batch writes it down. -/
def advance? (m : Move) : Option Advance :=
  if m.Still then none
  else some ⟨m.unit.name, m.origin.after, m.origin.unread, m.unit.boundary.after⟩

/-- The move with the unit scanned once more. -/
def turn (last : Option Mark) (now : Nat) (m : Move) : Move :=
  { m with unit := m.unit.turn last now }

end Move

namespace Scene

variable (r : Reader) (o : List Boundary) (s : Scene)

/-- Where the units were when they were at given boundaries; those that have been added since count
from where their reading began. -/
def origins : List Boundary := o ++ s.starts.drop o.length

/-- How the units have moved from given boundaries. -/
def moves : List Move := List.zipWith Move.mk (s.origins o) s.units

/-- The rows that a unit has moved over. -/
def passed (m : Move) : List Sql.Row :=
  r.rowsBetween m.origin m.unit.boundary (s.content m.unit.key)

/-- The rows that the units have moved over. -/
def pending : List Sql.Row := (s.moves o).flatMap (s.passed r)

end Scene

/-- A batch holds what the units have moved over from given boundaries. -/
structure InHand (r : Reader) (o : List Boundary) (b : Batch) (s : Scene) : Prop where
  sound : s.Sound r
  known : o.length ≤ s.units.length
  reaches : ∀ m ∈ s.moves o, r.Reaches (s.content m.unit.key) m.origin m.unit.boundary
  read : ∀ m ∈ s.moves o, m.unit.key = none → m.origin.unread = false
  records : b.records = r.records (s.pending r o)
  advances : b.advances = (s.moves o).filterMap Move.advance?

namespace Scene

variable {r : Reader} {o : List Boundary} {s s' : Scene}

/-- A move is that of the unit at its place. -/
lemma getElem?_moves {i : Nat} {m : Move} :
    (s.moves o)[i]? = some m ↔
      (s.origins o)[i]? = some m.origin ∧ s.units[i]? = some m.unit := by
  rw [moves, List.getElem?_zipWith]
  cases (s.origins o)[i]? <;> cases s.units[i]? <;> simp [← Move.mk.injEq]

/-- Each unit has one origin. -/
lemma Sound.length_origins (h : s.Sound r) (ho : o.length ≤ s.units.length) :
    (s.origins o).length = s.units.length := by
  simp only [origins, List.length_append, List.length_drop, h.started]
  omega

/-- Units that are added have not moved. -/
lemma Extends.moves (h : s.Extends s') (hs : s.Sound r) (ho : o.length ≤ s.units.length) :
    ∃ added : List TableUnit,
      s'.moves o = s.moves o ++ added.map fun u => ⟨u.boundary, u⟩ := by
  obtain ⟨added, hunits, hstarts⟩ := h.added
  have horigins : s'.origins o = s.origins o ++ added.map (·.boundary) := by
    have hdrop : o.length ≤ s.starts.length := hs.started ▸ ho
    simp only [origins, hstarts, List.drop_append_of_le_length hdrop, List.append_assoc]
  refine ⟨added, ?_⟩
  rw [Scene.moves, horigins, hunits, List.zipWith_append (hs.length_origins ho), ← Scene.moves]
  simp [List.zipWith_map_left, List.zipWith_self]

/-- The moves before a scan and behind it differ in the unit that is scanned. -/
lemma Turned.moves {i now : Nat} {last : Option Mark} (h : s.Turned r i last now s') :
    s'.moves o = (s.moves o).modify i (Move.turn last now) := by
  have horigins : s'.origins o = s.origins o := by rw [origins, origins, h.starts]
  refine List.ext_getElem? fun j => ?_
  rw [Scene.moves, horigins, h.units, List.getElem?_modify, Scene.moves, List.getElem?_zipWith,
    List.getElem?_zipWith, List.getElem?_modify]
  cases (s.origins o)[j]? <;> cases s.units[j]? <;> by_cases hij : i = j <;>
    simp [hij, Move.turn]

end Scene

namespace Move

/-- A unit that is still where it was has moved over no rows. -/
lemma Still.passed_eq_nil {m : Move} (h : m.Still) (r : Reader) (s : Scene) :
    s.passed r m = [] := by
  have hsame : m.origin = m.unit.boundary := h
  simp [Scene.passed, hsame]

/-- A unit that is still where it was has made no advance. -/
lemma Still.advance?_eq_none {m : Move} (h : m.Still) : m.advance? = none := if_pos h

/-- An advance names its unit, and says whether the row at the origin was still to be read. -/
lemma eq_of_advance? {m : Move} {a : Advance} (h : m.advance? = some a) :
    a.unit = m.unit.name ∧ a.wasUnread = m.origin.unread := by
  unfold advance? at h
  split at h
  · cases h
  · obtain rfl := Option.some.inj h
    exact ⟨rfl, rfl⟩

/-- Behind a move there may be units that are still; they make no advances. -/
lemma filterMap_advance? {l before after : List Move} {m : Move} (hl : l = before ++ m :: after)
    (hafter : ∀ m ∈ after, m.Still) :
    l.filterMap advance? = before.filterMap advance? ++ m.advance?.toList := by
  have hnone : after.filterMap advance? = [] :=
    List.filterMap_eq_nil_iff.2 fun m hm => (hafter m hm).advance?_eq_none
  rw [hl, List.append_cons, List.filterMap_append, List.filterMap_append, hnone, List.append_nil]
  cases h : m.advance? <;> simp [h]

/-- Nor do they move over rows. -/
lemma pending_eq {r : Reader} {o : List Boundary} {s : Scene} {before after : List Move} {m : Move}
    (hmoves : s.moves o = before ++ m :: after) (hafter : ∀ m ∈ after, m.Still) :
    s.pending r o = before.flatMap (s.passed r) ++ s.passed r m := by
  have hnone : after.flatMap (s.passed r) = [] :=
    List.flatMap_eq_nil_iff.2 fun m hm => (hafter m hm).passed_eq_nil r s
  rw [Scene.pending, hmoves, List.flatMap_append, List.flatMap_cons, hnone, List.append_nil]

end Move

namespace InHand

variable {r : Reader} {o : List Boundary} {b : Batch} {s s' : Scene}

/-- Seen from boundaries of all units no unit has been added. -/
lemma origins_eq_self (hs : s.Sound r) (ho : s.units.length ≤ o.length) : s.origins o = o := by
  have hall : s.starts.length ≤ o.length := hs.started ▸ ho
  rw [Scene.origins, List.drop_eq_nil_of_le hall, List.append_nil]

/-- Seen from where they are the units are where they are. -/
lemma origins_boundaries (hs : s.Sound r) : s.origins s.boundaries = s.boundaries :=
  origins_eq_self hs (by rw [s.boundaries_eq, List.length_map])

/-- Seen from where they are the units have not moved. -/
lemma moves_boundaries (hs : s.Sound r) :
    s.moves s.boundaries = s.units.map fun u => ⟨u.boundary, u⟩ := by
  rw [Scene.moves, origins_boundaries hs, s.boundaries_eq]
  simp [List.zipWith_map_left, List.zipWith_self]

/-- Before anything is scanned no unit has moved. -/
lemma still_of_mem_moves_boundaries (hs : s.Sound r) {m : Move} (hm : m ∈ s.moves s.boundaries) :
    m.Still := by
  rw [moves_boundaries hs] at hm
  obtain ⟨u, -, rfl⟩ := List.mem_map.1 hm
  rfl

/-- The unit of a move is a unit of the scene. -/
lemma unit_mem {m : Move} (hm : m ∈ s.moves o) : m.unit ∈ s.units := by
  obtain ⟨i, hi⟩ := List.mem_iff_getElem?.1 hm
  exact List.mem_of_getElem? (Scene.getElem?_moves.1 hi).2

/-- Where no unit has moved, the empty batch is in hand. -/
lemma of_still (hs : s.Sound r) (ho : o.length ≤ s.units.length)
    (hstill : ∀ m ∈ s.moves o, m.Still) : InHand r o Batch.empty s where
  sound := hs
  known := ho
  reaches m hm := by rw [show m.origin = m.unit.boundary from hstill m hm]
  read m hm hkey := by
    have hsame : m.origin = m.unit.boundary := hstill m hm
    rw [hsame]
    exact (Cursor.fits hs.mode (unit_mem hm)).read hkey
  records := by
    have hnone : s.pending r o = [] :=
      List.flatMap_eq_nil_iff.2 fun m hm => (hstill m hm).passed_eq_nil r s
    simp [hnone, Batch.empty, Reader.records]
  advances := by
    have hnone : (s.moves o).filterMap Move.advance? = [] :=
      List.filterMap_eq_nil_iff.2 fun m hm => (hstill m hm).advance?_eq_none
    simp [hnone, Batch.empty]

/-- What happens beside a read does not change what is in hand. -/
theorem evolves (h : InHand r o b s) (hs : s.Evolves r s') : InHand r o b s' := by
  have hsound : s'.Sound r := hs.2 h.sound
  obtain ⟨added, hmoves⟩ := hs.1.moves h.sound h.known
  have hold : ∀ m ∈ s.moves o, r.Reaches (s'.content m.unit.key) m.origin m.unit.boundary ∧
      s'.passed r m = s.passed r m := by
    intro m hm
    obtain ⟨more, hmore⟩ := hs.1.content m.unit.key
    have hasc : r.Ascending (s.content m.unit.key ++ more) := hmore ▸ hsound.ascending _
    unfold Scene.passed
    rw [← hmore]
    exact ⟨(h.reaches m hm).append more, (h.reaches m hm).rowsBetween_append hasc⟩
  have hnew : ∀ m ∈ added.map fun u => (⟨u.boundary, u⟩ : Move), m.Still := by
    intro m hm
    obtain ⟨u, -, rfl⟩ := List.mem_map.1 hm
    rfl
  refine ⟨hsound, h.known.trans hs.1.length_le, fun m hm => ?_, fun m hm hkey => ?_, ?_, ?_⟩
  · rw [hmoves, List.mem_append] at hm
    rcases hm with hm | hm
    · exact (hold m hm).1
    · rw [show m.origin = m.unit.boundary from hnew m hm]
  · rw [hmoves, List.mem_append] at hm
    rcases hm with hm | hm
    · exact h.read m hm hkey
    · have hsame : m.origin = m.unit.boundary := hnew m hm
      have hmem : m ∈ s'.moves o := by
        rw [hmoves]
        exact List.mem_append_right _ hm
      rw [hsame]
      exact (Cursor.fits hsound.mode (unit_mem hmem)).read hkey
  · have hpending : s'.pending r o = s.pending r o := by
      have hnone := List.flatMap_eq_nil_iff.2 fun m hm => (hnew m hm).passed_eq_nil r s'
      rw [Scene.pending, hmoves, List.flatMap_append, hnone, List.append_nil]
      exact List.flatMap_congr fun m hm => (hold m hm).2
    rw [hpending, h.records]
  · have hnone := List.filterMap_eq_nil_iff.2 fun m hm => (hnew m hm).advance?_eq_none
    rw [hmoves, List.filterMap_append, hnone, List.append_nil, h.advances]

/-- What happens beside a read leaves the units still that it has not come to. -/
lemma still_evolves (h : InHand r o b s) (hs : s.Evolves r s') {k : Nat}
    (hahead : ∀ m ∈ (s.moves o).drop k, m.Still) : ∀ m ∈ (s'.moves o).drop k, m.Still := by
  obtain ⟨added, hmoves⟩ := hs.1.moves h.sound h.known
  intro m hm
  rw [hmoves, List.drop_append, List.mem_append] at hm
  rcases hm with hm | hm
  · exact hahead m hm
  · obtain ⟨u, -, rfl⟩ := List.mem_map.1 (List.mem_of_mem_drop hm)
    rfl

/-- A query that was asked changes nothing about what is in hand. -/
lemma asked (h : InHand r o b s) : InHand r o b.asked s :=
  ⟨h.sound, h.known, h.reaches, h.read, h.records, h.advances⟩

/-- The moves around the unit in a place, before and behind a scan of it. -/
lemma moves_split (h : InHand r o b s) {k now : Nat} {u : TableUnit} {last : Option Mark}
    (hu : s.units[k]? = some u) (hahead : ∀ m ∈ (s.moves o).drop k, m.Still)
    (ht : s.Turned r k last now s') :
    ∃ before after, s.moves o = before ++ ⟨u.boundary, u⟩ :: after ∧
      s'.moves o = before ++ ⟨u.boundary, u.turn last now⟩ :: after ∧ before.length = k ∧
      ∀ m ∈ after, m.Still := by
  obtain ⟨hk, -⟩ := List.getElem?_eq_some_iff.1 hu
  have hlength : (s.moves o).length = s.units.length := by
    rw [Scene.moves, List.length_zipWith, h.sound.length_origins h.known, Nat.min_self]
  have hk' : k < (s.moves o).length := hlength ▸ hk
  obtain ⟨m, hm⟩ : ∃ m, (s.moves o)[k]? = some m := ⟨_, List.getElem?_eq_getElem hk'⟩
  have hdrop : (s.moves o).drop k = m :: (s.moves o).drop (k + 1) := by
    rw [List.drop_eq_getElem_cons hk',
      ← Option.some.inj (hm.symm.trans (List.getElem?_eq_getElem hk'))]
  have hunit : m.unit = u := Option.some.inj ((Scene.getElem?_moves.1 hm).2.symm.trans hu)
  have hstill : m.origin = m.unit.boundary := hahead m (by simp [hdrop])
  have hmove : m = ⟨u.boundary, u⟩ := by
    cases m
    simp_all
  refine ⟨(s.moves o).take k, (s.moves o).drop (k + 1), ?_, ?_, by simp [hk'.le], fun m' hm' => ?_⟩
  · rw [← hmove, ← hdrop, List.take_append_drop]
  · rw [ht.moves, List.modify_eq_take_cons_drop hk',
      ← Option.some.inj (hm.symm.trans (List.getElem?_eq_getElem hk')), hmove]
    rfl
  · exact hahead m' (by simp [hdrop, hm'])

/-- The advance of a unit that has read a page. -/
lemma advance?_turn {u : TableUnit} {page : List Sql.Row} {now : Nat}
    (hreach : page ≠ [] → r.afterPage u.boundary page ≠ u.boundary) :
    (Move.mk u.boundary (u.turn (r.lastMark? page) now)).advance? =
      (r.lastMark? page).map fun m => ⟨u.name, u.progress.after, u.progress.unread, m⟩ := by
  have hboundary := TableUnit.turn_boundary r page now u
  cases hlast : r.lastMark? page with
  | none =>
    have hstill : (Move.mk u.boundary (u.turn none now)).Still := by
      rw [Move.Still, ← hlast, hboundary, Reader.afterPage, hlast]
    exact hstill.advance?_eq_none
  | some m =>
    have hpage : page ≠ [] := fun hnil => by simp [Reader.lastMark?, hnil] at hlast
    have hmoved : ¬ (Move.mk u.boundary (u.turn (some m) now)).Still := fun hstill =>
      hreach hpage (by rw [← hboundary, hlast]; exact hstill.symm)
    exact if_neg hmoved

/-- Scanning one more unit takes its page in hand. -/
theorem turned (h : InHand r o b s) (limit : Nat) {k now : Nat} {u : TableUnit}
    {page : List Sql.Row}
    (hu : s.units[k]? = some u) (hahead : ∀ m ∈ (s.moves o).drop k, m.Still)
    (ht : s.Turned r k (r.lastMark? page) now s')
    (hreach : r.Reaches (s.content u.key) u.boundary (r.afterPage u.boundary page))
    (hpage : r.rowsBetween u.boundary (r.afterPage u.boundary page) (s.content u.key) = page) :
    InHand r o (b.withPage r limit u page) s' ∧ ∀ m ∈ (s'.moves o).drop (k + 1), m.Still := by
  obtain ⟨before, after, hmoves, hmoves', hlength, hafter⟩ := h.moves_split hu hahead ht
  have hboundary := TableUnit.turn_boundary r page now u
  have hpassed : ∀ m, s'.passed r m = s.passed r m := by
    intro m
    simp only [Scene.passed, ht.content]
  have hthis : s.passed r ⟨u.boundary, u.turn (r.lastMark? page) now⟩ = page := by
    simp only [Scene.passed, hboundary, TableUnit.turn_key, hpage]
  have hmem : ∀ m ∈ s'.moves o,
      m ∈ s.moves o ∨ m = ⟨u.boundary, u.turn (r.lastMark? page) now⟩ := by
    intro m hm
    rw [hmoves', List.mem_append, List.mem_cons] at hm
    rw [hmoves, List.mem_append, List.mem_cons]
    tauto
  have hself : (⟨u.boundary, u⟩ : Move) ∈ s.moves o := by simp [hmoves]
  have hstill : (⟨u.boundary, u⟩ : Move).Still := rfl
  refine ⟨⟨ht.sound, ?_, fun m hm => ?_, fun m hm hkey => ?_, ?_, ?_⟩, fun m hm => ?_⟩
  · rw [ht.units, List.length_modify]
    exact h.known
  · rw [ht.content]
    obtain hold | rfl := hmem m hm
    · exact h.reaches m hold
    · simpa only [hboundary, TableUnit.turn_key] using hreach
  · obtain hold | rfl := hmem m hm
    · exact h.read m hold hkey
    · exact h.read ⟨u.boundary, u⟩ hself hkey
  · have hold : s.pending r o = before.flatMap (s.passed r) := by
      rw [Move.pending_eq hmoves hafter, hstill.passed_eq_nil, List.append_nil]
    have hnew : s'.pending r o = before.flatMap (s.passed r) ++ page := by
      rw [Move.pending_eq hmoves' hafter, List.flatMap_congr fun m _ => hpassed m, hpassed, hthis]
    simp only [Batch.withPage, Batch.add, Batch.asked, h.records, hold, hnew, Reader.records,
      List.map_append]
  · have hmoved : page ≠ [] → r.afterPage u.boundary page ≠ u.boundary := by
      intro hne hsame
      rw [hsame, Reader.rowsBetween_self] at hpage
      exact hne hpage.symm
    have hold : b.advances = before.filterMap Move.advance? := by
      rw [h.advances, Move.filterMap_advance? hmoves hafter, hstill.advance?_eq_none]
      exact List.append_nil _
    rw [Move.filterMap_advance? hmoves' hafter, advance?_turn hmoved, ← hold]
    rfl
  · rw [hmoves', ← hlength, List.append_cons, List.drop_left' (by simp)] at hm
    exact hafter m hm

/-- The units of the moves are the units of the scene. -/
lemma map_unit_moves (h : InHand r o b s) : (s.moves o).map (·.unit) = s.units := by
  have hlength := h.sound.length_origins h.known
  exact List.ext_getElem (by simp [Scene.moves, hlength]) fun i _ _ => by simp [Scene.moves]

/-- The origins of the moves are the origins of the scene. -/
lemma map_origin_moves (h : InHand r o b s) : (s.moves o).map (·.origin) = s.origins o := by
  have hlength := h.sound.length_origins h.known
  exact List.ext_getElem (by simp [Scene.moves, hlength]) fun i _ _ => by simp [Scene.moves]

/-- A unit is not named by the advances of units with other names. -/
lemma name_ne_of_mem_filterMap {l : List Move} {u : TableUnit}
    (hl : ∀ m ∈ l, u.name ≠ m.unit.name) {a : Advance}
    (ha : a ∈ (l.filterMap Move.advance?).reverse) : u.name ≠ a.unit := by
  obtain ⟨m, hm, hadvance⟩ := List.mem_filterMap.1 (List.mem_reverse.1 ha)
  rw [(Move.eq_of_advance? hadvance).1]
  exact hl m hm

/-- Undoing a unit's own advance, if it made one, puts it back to where it was. -/
lemma foldl_undo_advance? (m : Move) :
    (m.advance?.toList.foldl (fun u a => u.undo a) m.unit).boundary = m.origin := by
  unfold Move.advance?
  split
  · next hstill => exact hstill.symm
  · exact TableUnit.undo_self m.origin m.unit

/-- Undoing the advances of some moves puts each of their units back to where it was, if no two of
them have the same name. -/
lemma foldl_undo {l : List Move} (hl : (l.map fun m => m.unit.name).Nodup) {m : Move}
    (hm : m ∈ l) :
    ((l.filterMap Move.advance?).reverse.foldl (fun u a => u.undo a) m.unit).boundary =
      m.origin := by
  obtain ⟨before, after, rfl⟩ := List.append_of_mem hm
  rw [List.map_append, List.map_cons, List.nodup_middle, List.nodup_cons, ← List.map_append] at hl
  -- the advances of the units before and behind it do not touch the unit
  have hne : ∀ m' ∈ before ++ after, m.unit.name ≠ m'.unit.name := by
    intro m' hm' heq
    exact hl.1 (List.mem_map.2 ⟨m', hm', heq.symm⟩)
  have hone : ([m].filterMap Move.advance?).reverse = m.advance?.toList := by
    cases hadvance : m.advance? <;> simp [hadvance]
  have hname : (m.advance?.toList.foldl (fun u a => u.undo a) m.unit).name = m.unit.name := by
    cases m.advance? <;> simp
  rw [List.append_cons, List.filterMap_append, List.filterMap_append, List.reverse_append,
    List.reverse_append, hone, List.foldl_append, List.foldl_append,
    TableUnit.foldl_undo_of_ne fun a ha => name_ne_of_mem_filterMap
      (fun m' hm' => hne m' (List.mem_append_right _ hm')) ha,
    TableUnit.foldl_undo_of_ne fun a ha => name_ne_of_mem_filterMap
      (fun m' hm' => hname ▸ hne m' (List.mem_append_left _ hm')) ha]
  exact foldl_undo_advance? m

/-- Rolling a batch back leads to where the units were, and changes nothing else. -/
theorem undone (h : InHand r o b s) :
    (s.exchange (Cursor.undoAll b)).Sound r ∧
      (s.exchange (Cursor.undoAll b)).boundaries = s.origins o ∧
      (s.exchange (Cursor.undoAll b)).units.map (·.place) = s.units.map (·.place) ∧
      (s.exchange (Cursor.undoAll b)).starts = s.starts := by
  have hread : ∀ a ∈ b.advances.reverse, a.unit = none → a.wasUnread = false := by
    intro a ha hunit
    rw [List.mem_reverse, h.advances] at ha
    obtain ⟨m, hm, hadvance⟩ := List.mem_filterMap.1 ha
    obtain ⟨hname, hwas⟩ := Move.eq_of_advance? hadvance
    have hfits := Cursor.fits h.sound.mode (unit_mem hm)
    have hkey : m.unit.key.isSome = false := by
      rw [← hfits.name, ← hname, hunit]
      rfl
    rw [hwas]
    exact h.read m hm (by simpa using hkey)
  have hunits : (Cursor.undoAll b s.cursor).units = s.units.map fun u =>
      b.advances.reverse.foldl (fun u a => u.undo a) u :=
    Cursor.units_foldl_undo h.sound.wellFormed hread
  have hnames : ((s.moves o).map fun m => m.unit.name).Nodup := by
    have hnodup := h.sound.wellFormed.nodup
    rwa [← Scene.units, ← h.map_unit_moves, List.map_map] at hnodup
  have hlength : (Cursor.undoAll b s.cursor).units.length = s.cursor.units.length := by
    rw [hunits, List.length_map]
    rfl
  refine ⟨h.sound.exchange (h.sound.wellFormed.undoAll b) (by simp) hlength, ?_, ?_,
    h.sound.starts_exchange hlength⟩
  · rw [Scene.boundaries_eq, Scene.units, Scene.exchange, hunits, ← h.map_unit_moves, List.map_map,
      List.map_map]
    rw [← h.map_origin_moves]
    refine List.map_congr_left fun m hm => ?_
    simp only [Function.comp, h.advances]
    exact foldl_undo hnames hm
  · rw [Scene.units, Scene.exchange, hunits, List.map_map]
    exact List.map_congr_left fun u _ => TableUnit.foldl_undo_place _ u

/-- Where there is nothing to deliver no unit has moved. -/
lemma boundaries_eq_of_records_eq_nil (h : InHand r o b s) (hb : b.records = []) :
    s.boundaries = s.origins o := by
  have hpending : s.pending r o = [] := by
    have := h.records
    rw [hb] at this
    simpa [Reader.records] using this.symm
  rw [Scene.boundaries_eq, ← h.map_unit_moves, ← h.map_origin_moves, List.map_map]
  exact List.map_congr_left fun m hm =>
    (h.reaches m hm).eq_of_rowsBetween_eq_nil (List.flatMap_eq_nil_iff.1 hpending m hm)

end InHand

end TableTail
