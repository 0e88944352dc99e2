import TableTail.Delivery.Poll
import TableTail.Proofs.Tail.Pagination

/-!
# Accounts of what was delivered

The batches that the sink has taken are accounted for unit by unit: `Accounts r fl s bs ds` says
that the taken batches are those of the deliveries `ds`, and that of each unit exactly the rows
between its start and its boundary in `bs` have been delivered, in their order and each of them
once. They also say that no boundary in `bs` has fallen behind a floor, which is what makes a
position that was true once stay true.

A poll keeps the accounts at all times (`Reader.poll_ensures`): up to the boundaries where the poll
began as long as its batch has not been taken, and up to the cursor after that. When it ends the
accounts are up to the cursor, whichever of its four outcomes it has.
-/

namespace TableTail

/-- Names of units, each with a boundary that the unit does not fall behind. -/
abbrev Floor := List (Option String × Boundary)

/-- The units of a scene with the boundaries where they are. -/
def Scene.floor (s : Scene) : Floor := s.units.map fun u => (u.name, u.boundary)

/-- The rows between the starts of the units and some boundaries are what was delivered. -/
structure Accounts (r : Reader) (fl : Floor) (s : Scene) (bs : List Boundary) (ds : List Shares) :
    Prop where
  accepted : s.accepted = ds.map fun d => r.records d.flatten
  known : ∀ d ∈ ds, d.length ≤ s.units.length
  length : bs.length = s.units.length
  unit : ∀ i start b u, s.starts[i]? = some start → bs[i]? = some b → s.units[i]? = some u →
    r.Reaches (s.content u.key) start b ∧
      ds.flatMap (Shares.of i) = r.rowsBetween start b (s.content u.key)
  floor : ∀ (i : Nat) (f : Option String × Boundary), fl[i]? = some f →
    ∃ (u : TableUnit) (b : Boundary), s.units[i]? = some u ∧ bs[i]? = some b ∧
      u.name = f.1 ∧ f.2.NotPast b

/-- Everything up to the cursor has been delivered. -/
structure Settled (r : Reader) (fl : Floor) (s : Scene) : Prop where
  sound : s.Sound r
  accounts : ∃ ds, Accounts r fl s s.boundaries ds

/-- The boundaries up to which everything has been delivered while a poll is in progress that began
at given boundaries, when a given number of batches had been taken. -/
def Scene.settled (o : List Boundary) (taken : Nat) (s : Scene) : List Boundary :=
  if s.accepted.length = taken then s.origins o else s.boundaries

/-- A batch is in hand, and everything before it has been delivered. -/
structure Holding (r : Reader) (fl : Floor) (o : List Boundary) (taken : Nat) (b : Batch)
    (s : Scene) : Prop where
  inHand : InHand r o b s
  taken : s.accepted.length = taken
  accounts : ∃ ds, Accounts r fl s (s.origins o) ds

/-- The accounts in the middle of a poll. -/
structure Booked (r : Reader) (fl : Floor) (o : List Boundary) (taken : Nat) (s : Scene) :
    Prop where
  sound : s.Sound r
  known : o.length ≤ s.units.length
  accounts : ∃ ds, Accounts r fl s (s.settled o taken) ds

variable {r : Reader} {fl : Floor} {o bs : List Boundary} {taken : Nat} {b : Batch} {s s' : Scene}
  {ds : List Shares}

namespace Accounts

/-- Before anything has been read nothing has been delivered. -/
lemma opening (content : Option Sql.Cell → List Sql.Row) (c : Cursor) :
    Accounts r [] (Scene.opening content c) c.boundaries [] where
  accepted := rfl
  known := by simp
  length := by simp [Scene.opening, Scene.units, Cursor.boundaries]
  unit i start b u hstart hb hu := by
    obtain rfl : start = b := Option.some.inj (hstart.symm.trans hb)
    exact ⟨.refl _ _, by simp⟩
  floor i f hf := nomatch hf

/-- The accounts up to the cursor can take the cursor as their floor. -/
lemma withFloor (h : Accounts r fl s s.boundaries ds) :
    Accounts r s.floor s s.boundaries ds where
  accepted := h.accepted
  known := h.known
  length := h.length
  unit := h.unit
  floor i f hf := by
    obtain ⟨u, hu, rfl⟩ : ∃ u, s.units[i]? = some u ∧ (u.name, u.boundary) = f := by
      simpa [Scene.floor, List.getElem?_map] using hf
    exact ⟨u, u.boundary, hu, Scene.getElem?_boundaries hu, rfl, .refl _⟩

/-- There are as many units as places. -/
lemma length_of_places (hplaces : s'.units.map (·.place) = s.units.map (·.place)) :
    s'.units.length = s.units.length := by
  simpa using congrArg List.length hplaces

/-- Units at the same places correspond to each other. -/
lemma exists_of_places (hplaces : s'.units.map (·.place) = s.units.map (·.place)) {i : Nat}
    {u : TableUnit} (hu : s'.units[i]? = some u) :
    ∃ v, s.units[i]? = some v ∧ v.place = u.place := by
  have := congrArg (·[i]?) hplaces
  simpa [hu] using this.symm

/-- The accounts do not depend on where the cursor is. -/
lemma of_same (h : Accounts r fl s bs ds) (hcontent : s'.content = s.content)
    (hplaces : s'.units.map (·.place) = s.units.map (·.place)) (hstarts : s'.starts = s.starts)
    (haccepted : s'.accepted = s.accepted) : Accounts r fl s' bs ds where
  accepted := haccepted.trans h.accepted
  known := length_of_places hplaces ▸ h.known
  length := length_of_places hplaces ▸ h.length
  unit i start b u hstart hb hu := by
    obtain ⟨v, hv, hplace⟩ := exists_of_places hplaces hu
    have hkey : v.key = u.key := congrArg Prod.snd hplace
    rw [hstarts] at hstart
    have hthis := h.unit i start b v hstart hb hv
    rwa [hkey, ← hcontent] at hthis
  floor i f hf := by
    obtain ⟨v, b, hv, hb, hname, hle⟩ := h.floor i f hf
    obtain ⟨u, hu, hplace⟩ := exists_of_places hplaces.symm hv
    exact ⟨u, b, hu, hb, (congrArg Prod.fst hplace).trans hname, hle⟩

/-- What happens beside a poll does not touch the accounts; the units that are added start where
they are. -/
lemma grow (h : Accounts r fl s bs ds) (hs : s.Sound r) (hs' : s'.Sound r)
    (hextends : s.Extends s') {added : List TableUnit} (hunits : s'.units = s.units ++ added)
    (hstarts : s'.starts = s.starts ++ added.map (·.boundary)) :
    Accounts r fl s' (bs ++ added.map (·.boundary)) ds where
  accepted := hextends.accepted.trans h.accepted
  known d hd := (h.known d hd).trans hextends.length_le
  length := by simp [hunits, h.length]
  unit i start b u hstart hb hu := by
    rw [hstarts] at hstart
    rw [hunits] at hu
    rcases Nat.lt_or_ge i s.units.length with hi | hi
    -- a unit that there was: the rows that are appended to it lie past its boundary
    · rw [List.getElem?_append_left (hs.started ▸ hi)] at hstart
      rw [List.getElem?_append_left (h.length ▸ hi)] at hb
      rw [List.getElem?_append_left hi] at hu
      obtain ⟨hreach, hrows⟩ := h.unit i start b u hstart hb hu
      obtain ⟨more, hmore⟩ := hextends.content u.key
      have hasc : r.Ascending (s.content u.key ++ more) := hmore ▸ hs'.ascending _
      rw [← hmore]
      exact ⟨hreach.append more, hrows.trans (hreach.rowsBetween_append hasc).symm⟩
    -- a unit that is added: it is where it starts, and no delivery so far has a share of it
    · rw [List.getElem?_append_right (hs.started ▸ hi), hs.started] at hstart
      rw [List.getElem?_append_right (h.length ▸ hi), h.length] at hb
      obtain rfl : start = b := Option.some.inj (hstart.symm.trans hb)
      have hnone : ds.flatMap (Shares.of i) = [] := List.flatMap_eq_nil_iff.2 fun d hd => by
        rw [Shares.of, List.getElem?_eq_none ((h.known d hd).trans hi)]
        rfl
      exact ⟨.refl _ _, by rw [hnone, Reader.rowsBetween_self]⟩
  floor i f hf := by
    obtain ⟨u, b, hu, hb, hname, hle⟩ := h.floor i f hf
    obtain ⟨hi, -⟩ := List.getElem?_eq_some_iff.1 hb
    exact ⟨u, b, hextends.units_getElem? hu, by rw [List.getElem?_append_left hi, hb], hname, hle⟩

/-- A batch in hand that is taken closes the gap up to the cursor. -/
lemma accept (h : Accounts r fl s (s.origins o) ds) (hb : InHand r o b s) :
    Accounts r fl (s.accept b.records) s.boundaries
      (ds ++ [(s.moves o).map (s.passed r)]) where
  accepted := by
    rw [Scene.accept, h.accepted, hb.records, Scene.pending, List.flatMap_def, List.map_append]
    rfl
  known d hd := by
    have hlength : (s.moves o).length = s.units.length := by
      rw [← hb.map_unit_moves, List.length_map]
    rcases List.mem_append.1 hd with hd | hd
    · exact h.known d hd
    · obtain rfl := List.mem_singleton.1 hd
      rw [List.length_map, hlength]
      exact le_rfl
  length := by rw [s.boundaries_eq, List.length_map]; rfl
  unit i start b' u hstart hb' hu := by
    have hu' : s.units[i]? = some u := hu
    obtain ⟨hi, -⟩ := List.getElem?_eq_some_iff.1 hu'
    obtain ⟨x, hx⟩ : ∃ x, (s.origins o)[i]? = some x :=
      ⟨_, List.getElem?_eq_getElem (h.length ▸ hi)⟩
    obtain rfl : u.boundary = b' :=
      Option.some.inj ((Scene.getElem?_boundaries hu').symm.trans hb')
    have hm : (s.moves o)[i]? = some ⟨x, u⟩ := Scene.getElem?_moves.2 ⟨hx, hu'⟩
    obtain ⟨hstartx, hrows⟩ := h.unit i start x u hstart hx hu'
    have hxb : r.Reaches (s.content u.key) x u.boundary :=
      hb.reaches _ (List.mem_of_getElem? hm)
    have hshare : Shares.of i ((s.moves o).map (s.passed r)) =
        r.rowsBetween x u.boundary (s.content u.key) := by
      simp only [Shares.of, List.getElem?_map, hm, Option.map_some, Option.getD_some, Scene.passed]
    refine ⟨hstartx.trans hxb, ?_⟩
    rw [List.flatMap_append, hrows, List.flatMap_singleton, hshare]
    exact hstartx.rowsBetween_append_rowsBetween (hb.sound.ascending _) hxb
  floor i f hf := by
    obtain ⟨u, x, hu, hx, hname, hle⟩ := h.floor i f hf
    have hm : (s.moves o)[i]? = some ⟨x, u⟩ := Scene.getElem?_moves.2 ⟨hx, hu⟩
    refine ⟨u, u.boundary, hu, Scene.getElem?_boundaries hu, hname, ?_⟩
    exact hle.trans (hb.reaches _ (List.mem_of_getElem? hm)).notPast

end Accounts

section Evolves

variable {added : List TableUnit}

/-- Units that are added are where they are. -/
lemma Scene.boundaries_append (hunits : s'.units = s.units ++ added) :
    s'.boundaries = s.boundaries ++ added.map (·.boundary) := by
  rw [Scene.boundaries_eq, Scene.boundaries_eq, hunits, List.map_append]

/-- Units that are added count from where they are. -/
lemma Scene.origins_append (ho : o.length ≤ s.starts.length)
    (hstarts : s'.starts = s.starts ++ added.map (·.boundary)) :
    s'.origins o = s.origins o ++ added.map (·.boundary) := by
  simp only [Scene.origins, hstarts, List.drop_append_of_le_length ho, List.append_assoc]

/-- What happens beside a poll leaves everything settled. -/
lemma Settled.evolves (h : Settled r fl s) (hs : s.Evolves r s') : Settled r fl s' := by
  obtain ⟨ds, haccounts⟩ := h.accounts
  obtain ⟨added, hunits, hstarts⟩ := hs.1.added
  have hsound : s'.Sound r := hs.2 h.sound
  refine ⟨hsound, ds, ?_⟩
  rw [Scene.boundaries_append hunits]
  exact haccounts.grow h.sound hsound hs.1 hunits hstarts

/-- What happens beside a poll leaves its accounts. -/
lemma Booked.evolves (h : Booked r fl o taken s) (hs : s.Evolves r s') :
    Booked r fl o taken s' := by
  obtain ⟨ds, haccounts⟩ := h.accounts
  obtain ⟨added, hunits, hstarts⟩ := hs.1.added
  have hsound : s'.Sound r := hs.2 h.sound
  have hsettled : s'.settled o taken = s.settled o taken ++ added.map (·.boundary) := by
    unfold Scene.settled
    rw [hs.1.accepted]
    split
    · exact Scene.origins_append (h.sound.started ▸ h.known) hstarts
    · exact Scene.boundaries_append hunits
  refine ⟨hsound, h.known.trans hs.1.length_le, ds, ?_⟩
  rw [hsettled]
  exact haccounts.grow h.sound hsound hs.1 hunits hstarts

end Evolves

/-- Where everything is settled nothing is in hand. -/
lemma Settled.holding (h : Settled r fl s) :
    Holding r fl s.boundaries s.accepted.length Batch.empty s where
  inHand := .of_still h.sound (by rw [s.boundaries_eq, List.length_map])
    fun _ hm => InHand.still_of_mem_moves_boundaries h.sound hm
  taken := rfl
  accounts := by
    rw [InHand.origins_boundaries h.sound]
    exact h.accounts

namespace Holding

/-- What happens beside a poll leaves the batch in hand. -/
lemma evolves (h : Holding r fl o taken b s) (hs : s.Evolves r s') : Holding r fl o taken b s' := by
  obtain ⟨ds, haccounts⟩ := h.accounts
  obtain ⟨added, hunits, hstarts⟩ := hs.1.added
  have hinHand := h.inHand.evolves hs
  refine ⟨hinHand, (congrArg List.length hs.1.accepted).trans h.taken, ds, ?_⟩
  rw [Scene.origins_append (h.inHand.sound.started ▸ h.inHand.known) hstarts]
  exact haccounts.grow h.inHand.sound hinHand.sound hs.1 hunits hstarts

/-- A batch in hand does not disturb the accounts. -/
lemma booked (h : Holding r fl o taken b s) : Booked r fl o taken s :=
  ⟨h.inHand.sound, h.inHand.known, by rw [Scene.settled, if_pos h.taken]; exact h.accounts⟩

/-- A batch without records has nothing to settle. -/
lemma settled_of_records_eq_nil (h : Holding r fl o taken b s) (hb : b.records = []) :
    Settled r fl s :=
  ⟨h.inHand.sound, by rw [h.inHand.boundaries_eq_of_records_eq_nil hb]; exact h.accounts⟩

/-- A batch that is taken settles everything up to the cursor. -/
lemma accept (h : Holding r fl o taken b s) :
    Settled r fl (s.accept b.records) ∧ Booked r fl o taken (s.accept b.records) := by
  obtain ⟨ds, haccounts⟩ := h.accounts
  have hthis := haccounts.accept h.inHand
  have hsound := h.inHand.sound
  have hsound' : (s.accept b.records).Sound r :=
    ⟨hsound.wellFormed, hsound.mode, hsound.started, hsound.ascending⟩
  have htaken : (s.accept b.records).accepted.length ≠ taken := by
    simp [Scene.accept, h.taken]
  refine ⟨⟨hsound', _, hthis⟩, ⟨hsound', h.inHand.known, ?_⟩⟩
  rw [Scene.settled, if_neg htaken]
  exact ⟨_, hthis⟩

/-- A batch that is rolled back leaves nothing in hand. -/
lemma rollback (h : Holding r fl o taken b s) :
    Holding r fl o taken Batch.empty (s.exchange (Cursor.undoAll b)) := by
  obtain ⟨ds, haccounts⟩ := h.accounts
  obtain ⟨hsound, hboundaries, hplaces, hstarts⟩ := h.inHand.undone
  have horigins : (s.exchange (Cursor.undoAll b)).origins o = s.origins o := by
    rw [Scene.origins, Scene.origins, hstarts]
  have hlength := Accounts.length_of_places hplaces
  refine ⟨.of_still hsound (hlength ▸ h.inHand.known) fun m hm => ?_, h.taken, ds, ?_⟩
  · obtain ⟨i, hi⟩ := List.mem_iff_getElem?.1 hm
    obtain ⟨horigin, hunit⟩ := Scene.getElem?_moves.1 hi
    rw [horigins, ← hboundaries, Scene.getElem?_boundaries hunit] at horigin
    exact (Option.some.inj horigin).symm
  · rw [horigins]
    exact haccounts.of_same rfl hplaces hstarts rfl

end Holding

end TableTail
