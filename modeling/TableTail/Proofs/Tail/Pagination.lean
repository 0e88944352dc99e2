import TableTail.Proofs.Tail.InHand
import TableTail.Proofs.Tail.Opened

/-!
# Pages without gaps

A table whose rows stay as they are is read call by call, with any limits and at any times, against
a database that never fails. Each call takes a page of each unit that is due (`ReadsPage`), and the
pages of a unit in a row are its rows past the start, cut after what has been read so far
(`reads_pages`).
-/

namespace TableTail

/-- Rows by the units that they belong to, as the list of each unit's rows. -/
abbrev Shares := List (List Sql.Row)

/-- The rows of one of the units. -/
def Shares.of (i : Nat) (shares : Shares) : List Sql.Row := shares[i]?.getD []

namespace Scene

/-- The answers of surroundings in which nothing fails. -/
def answer (r : Reader) : (q : Action) → Scene → q.Answer × Scene
  | .query q, s => (.ok (r.select s.content q), s)
  | .exchange table change, s => (s.cursor, if table = r.name then s.exchange change else s)
  | .emit records, s => (.ok (), s.accept records)
  | .describe _, s => (.ok none, s)
  | .load _, s => (.ok none, s)
  | .save _ _, s => (.ok (), s)
  | .enter _, s => ((), s)
  | .leave _, s => ((), s)
  | .clock, s => ((0 : Nat), s)

/-- Surroundings in which nothing fails answer as a scene does. -/
lemma answers_answer (r : Reader) (q : Action) (s : Scene) :
    s.Answers r q (answer r q s).1 (answer r q s).2 := by
  cases q with
  | query q => exact ⟨rfl, fun _ rows h => (Except.ok.inj h).symm⟩
  | exchange table change =>
    by_cases h : table = r.name
    · simp only [Answers, answer, h, if_true]
      exact ⟨rfl, trivial⟩
    · simp [Answers, answer, h]
  | _ => rfl

/-- Surroundings in which nothing fails and nothing else happens. -/
def alone (r : Reader) : Setting Action Action.Answer Scene :=
  ⟨fun s q a s' => (a, s') = answer r q s, Eq, Eq.refl, Eq.trans⟩

/-- Alone a reader is in the surroundings of a scene. -/
lemma alone_around (r : Reader) : (alone r).Around r where
  answers {s q a s'} h := by
    obtain ⟨rfl, rfl⟩ := Prod.mk.inj h
    exact answers_answer r q s
  disturbs h := h ▸ .refl _

end Scene

namespace Reader

/-- One read of a table, with nothing failing and nothing else happening. -/
def readOnce (r : Reader) (limit now : Nat) (s : Scene) : Except Interruption Batch × Scene :=
  (r.read limit now).run (Scene.answer r) (fun _ s => s) s

/-- The part of one unit in a read that filled its batch or not: the rows between the unit's old
and new boundary. Where there are any, the last of them is the new boundary, strictly above the
old one unless the row at the old one was still to be read. A unit that was asked without filling
the batch has no more rows. -/
structure TakesPage (r : Reader) (rows page : List Sql.Row) (now : Nat) (filled : Bool)
    (u u' : TableUnit) : Prop where
  split : page ++ r.rowsPast u'.boundary rows = r.rowsPast u.boundary rows
  rests : page = [] → u'.boundary = u.boundary
  moves : page ≠ [] → u'.progress.unread = false ∧
    (∃ row ∈ page, u'.progress.after = r.rowMark row) ∧
    (∀ row ∈ page, ((r.rowMark row).compareMark u'.progress.after).isLE = true) ∧
    (u.progress.after.compareMark u'.progress.after).isLE = true ∧
    (u.progress.unread = false → u.progress.after.compareMark u'.progress.after = .lt)
  drained : filled = false → u.isDue r now = true → r.rowsPast u'.boundary rows = []

/-- A read that took a page of each unit. -/
structure ReadsPage (r : Reader) (limit now : Nat) (s : Scene) (pages : Shares) (b : Batch)
    (s' : Scene) : Prop where
  outcome : r.readOnce limit now s = (.ok b, s')
  content : s'.content = s.content
  records : b.records = r.records pages.flatten
  length : s'.units.length = s.units.length ∧ pages.length = s.units.length
  unit : ∀ i u, s.units[i]? = some u → ∃ u', s'.units[i]? = some u' ∧ u'.name = u.name ∧
    u'.key = u.key ∧ r.TakesPage (s.content u.key) (pages.of i) now b.filled u u'

/-- Reads in a row, each with its limit and its time, and the pages that they took. -/
inductive Reads (r : Reader) : List (Nat × Nat) → Scene → List Shares → Scene → Prop
  | nil (s : Scene) : Reads r [] s [] s
  | cons {limit now : Nat} {calls : List (Nat × Nat)} {s s' s'' : Scene} {pages : Shares}
      {rest : List Shares} {b : Batch} (h : r.ReadsPage limit now s pages b s')
      (hrest : Reads r calls s' rest s'') :
      Reads r ((limit, now) :: calls) s (pages :: rest) s''

/-- What holds in the middle of a read before the `k`-th unit. -/
structure Paging (r : Reader) (limit now : Nat) (s : Scene) (k : Nat) (b : Batch) (s' : Scene) :
    Prop where
  content : s'.content = s.content
  inHand : InHand r s.boundaries b s'
  ahead : ∀ m ∈ (s'.moves s.boundaries).drop k, m.Still
  places : s'.units.map (·.place) = s.units.map (·.place)
  waiting : ∀ i, k ≤ i → s'.units[i]? = s.units[i]?
  drained : b.filled = false → ∀ i u u', i < k → s.units[i]? = some u → u.isDue r now = true →
    s'.units[i]? = some u' → r.rowsPast u'.boundary (s.content u.key) = []

/-- The rows between the boundaries of a unit are a page that it takes. -/
lemma Reaches.takesPage {r : Reader} {rows : List Sql.Row} {now : Nat} {filled : Bool}
    {u u' : TableUnit} (h : r.Reaches rows u.boundary u'.boundary) (hasc : r.Ascending rows)
    (hdrained : filled = false → u.isDue r now = true → r.rowsPast u'.boundary rows = []) :
    r.TakesPage rows (r.rowsBetween u.boundary u'.boundary rows) now filled u u' where
  split := rowsBetween_append_rowsPast hasc h.notPast
  rests := h.eq_of_rowsBetween_eq_nil
  moves hpage := by
    obtain hsame | ⟨row, hrow, hpast, hbehind⟩ := h
    · rw [hsame, rowsBetween_self] at hpage
      exact absurd rfl hpage
    · have hafter : u'.progress.after = r.rowMark row := congrArg Boundary.after hbehind
      have hread : u'.progress.unread = false := congrArg Boundary.unread hbehind
      have hover : (!u.boundary.covers (r.rowMark row)) = true := by rw [hpast]; rfl
      rw [not_covers] at hover
      refine ⟨hread, ⟨row, ?_, hafter⟩, fun row' hrow' => ?_, ?_, fun hunread => ?_⟩
      · refine List.mem_filter.2 ⟨hrow, ?_⟩
        simp [hpast, hbehind, Boundary.covers_behind]
      · have hcovered := (List.mem_filter.1 hrow').2
        rw [hbehind, Boundary.covers_behind, Bool.and_eq_true] at hcovered
        rw [hafter]
        exact hcovered.2
      · rw [hafter, Mark.compareMark_swap]
        cases hunread : u.boundary.unread <;>
          cases hc : (r.rowMark row).compareMark u.progress.after <;>
          simp_all [Sql.Comparison.meets]
      · rw [hafter, Mark.compareMark_swap]
        cases hc : (r.rowMark row).compareMark u.progress.after <;>
          simp_all [Sql.Comparison.meets]
  drained := hdrained

variable {r : Reader} {limit limit' now : Nat} {s : Scene}

/-- Before a read nothing of it has happened. -/
lemma Paging.start (hs : s.Sound r) : r.Paging limit now s 0 Batch.empty s where
  content := rfl
  inHand := .of_still hs (by rw [s.boundaries_eq, List.length_map])
    fun _ hm => InHand.still_of_mem_moves_boundaries hs hm
  ahead m hm := InHand.still_of_mem_moves_boundaries hs hm
  places := rfl
  waiting _ _ := rfl
  drained _ _ _ _ hi := absurd hi (Nat.not_lt_zero _)

/-- Each unit of a read is taken as a sweep takes it. -/
lemma paging_sweep (r : Reader) (limit now : Nat) (s : Scene) :
    Sweep r (Scene.alone r) (fun _ => True) limit now (r.Paging limit now s) fun _ _ => False where
  sound h := h.inHand.sound
  keeps _ := trivial
  disturbed h hd := hd ▸ h
  cut_disturbed h _ := h
  pass {k b s' u} h hu hdue := by
    refine { h with ahead := fun m hm => ?_, waiting := fun i hi => h.waiting i (by omega),
                    drained := ?_ }
    · rw [← List.drop_drop] at hm
      exact h.ahead m (List.mem_of_mem_drop hm)
    · intro hfilled i v v' hi hv hv' hu'
      rcases Nat.lt_succ_iff_lt_or_eq.1 hi with hlt | rfl
      · exact h.drained hfilled i v v' hlt hv hv' hu'
      · rw [← h.waiting i le_rfl, hu] at hv
        obtain rfl := Option.some.inj hv
        rw [hdue] at hv'
        cases hv'
  fail h hu hans := nomatch (Prod.mk.inj hans).1
  turn {k b s₁ s₂ s₃ u page} h hu hdue hpage hd ht := by
    obtain rfl : s₁ = s₂ := hd
    have hasc : r.Ascending (s₁.content u.key) := h.inHand.sound.ascending u.key
    have hreach := reaches_afterPage u.boundary limit hasc
    have hbetween := rowsBetween_afterPage u.boundary limit hasc
    rw [← hpage] at hreach hbetween
    obtain ⟨hinHand, hahead⟩ := h.inHand.turned limit hu h.ahead ht hreach hbetween
    refine ⟨ht.content.trans h.content, hinHand, hahead,
      (ht.map_units fun _ => rfl).trans h.places, fun i hi => ?_, ?_⟩
    · rw [ht.units_of_ne (by omega), h.waiting i (by omega)]
    · intro hfilled i v v' hi hv hdue' hv'
      obtain ⟨hbefore, hshort⟩ : b.filled = false ∧ page.length < limit := by
        simpa [Batch.withPage, Batch.add, Batch.asked] using hfilled
      rcases Nat.lt_succ_iff_lt_or_eq.1 hi with hlt | rfl
      · rw [ht.units_of_ne (by omega)] at hv'
        exact h.drained hbefore i v v' hlt hv hdue' hv'
      · have hsame : s.units[i]? = some u := (h.waiting i le_rfl).symm.trans hu
        obtain rfl : v = u := Option.some.inj (hv.symm.trans hsame)
        obtain rfl := Option.some.inj (hv'.symm.trans (ht.units_self hu))
        rw [TableUnit.turn_boundary, ← h.content, hpage, rowsPast_afterPage _ _ hasc]
        refine List.drop_eq_nil_of_le ?_
        rw [hpage, List.length_take] at hshort
        omega

/-- What a read takes of a table's only unit is what lies between the two boundaries of the unit. -/
lemma ReadsPage.pages_eq {pages : Shares} {b : Batch} {s' : Scene} {u u' : TableUnit}
    {rows : List Sql.Row} (h : r.ReadsPage limit now s pages b s') (hu : s.units = [u])
    (hu' : s'.units = [u']) (hrows : rows ++ r.rowsPast u'.boundary (s.content u.key) =
      r.rowsPast u.boundary (s.content u.key)) : pages = [rows] := by
  have hlength : pages.length = 1 := by rw [h.length.2, hu, List.length_singleton]
  obtain ⟨page, rfl⟩ := List.length_eq_one_iff.1 hlength
  obtain ⟨v, hv, -, -, htakes⟩ := h.unit 0 u (by rw [hu]; rfl)
  obtain rfl : u' = v := by simpa [hu'] using hv
  exact congrArg (fun page => [page]) (List.append_cancel_right (htakes.split.trans hrows.symm))

/-- What a read has done at its end, when it has gone over all units. -/
lemma Paging.readsPage {n : Nat} {b : Batch} {s' : Scene} (h : r.Paging limit now s n b s')
    (hs : s.Sound r) (hn : s.units.length ≤ n) (hout : r.readOnce limit' now s = (.ok b, s')) :
    r.ReadsPage limit' now s ((s'.moves s.boundaries).map (s'.passed r)) b s' := by
  have hlength : s'.units.length = s.units.length := by
    simpa using congrArg List.length h.places
  have horigins : s'.origins s.boundaries = s.boundaries :=
    InHand.origins_eq_self h.inHand.sound (by rw [hlength, s.boundaries_eq, List.length_map])
  refine ⟨hout, h.content, ?_, ⟨hlength, ?_⟩, fun i u hu => ?_⟩
  · rw [h.inHand.records, Scene.pending, List.flatMap_def]
  · rw [List.length_map, ← hlength, ← h.inHand.map_unit_moves, List.length_map]
  · obtain ⟨hi, -⟩ := List.getElem?_eq_some_iff.1 hu
    obtain ⟨u', hu'⟩ : ∃ u', s'.units[i]? = some u' :=
      ⟨_, List.getElem?_eq_getElem (hlength ▸ hi)⟩
    have hplace : u'.place = u.place := by
      have := congrArg (·[i]?) h.places
      simpa [hu, hu'] using this
    have hm : (s'.moves s.boundaries)[i]? = some ⟨u.boundary, u'⟩ := by
      rw [Scene.getElem?_moves, horigins]
      exact ⟨Scene.getElem?_boundaries hu, hu'⟩
    obtain ⟨hname, hkey⟩ := Prod.mk.inj hplace
    have hreach : r.Reaches (s.content u.key) u.boundary u'.boundary := by
      have := h.inHand.reaches _ (List.mem_of_getElem? hm)
      rwa [h.content, hkey] at this
    have hpage : Shares.of i ((s'.moves s.boundaries).map (s'.passed r)) =
        r.rowsBetween u.boundary u'.boundary (s.content u.key) := by
      simp only [Shares.of, List.getElem?_map, hm, Option.map_some, Option.getD_some, Scene.passed,
        h.content, hkey]
    rw [hpage]
    exact ⟨u', hu', hname, hkey, hreach.takesPage (hs.ascending _)
      fun hfilled hdue => h.drained hfilled i u u' (hi.trans_le hn) hu hdue hu'⟩

/-- A read takes a page of each unit of a table at rest. -/
theorem exists_readsPage (hs : s.Sound r) (limit now : Nat) :
    ∃ pages b s', r.ReadsPage limit now s pages b s' ∧ s'.Sound r := by
  have hread := (paging_sweep r (max limit 1) now s).read (Scene.alone_around r)
    (fun h => h.elim) (Paging.start hs)
  have hpost : ∃ n, s.units.length ≤ n ∧ Sweep.ends (r.Paging (max limit 1) now s)
      (fun _ _ => False) n (r.readOnce limit now s).1 (r.readOnce limit now s).2 :=
    hread.run (fun _ _ => rfl) fun _ s => (rfl : s = s)
  obtain ⟨n, hn, hend⟩ := hpost
  cases hout : r.readOnce limit now s with
  | mk outcome s' =>
    rw [hout] at hend
    cases outcome with
    | error x => exact hend.elim
    | ok b => exact ⟨_, b, s', Paging.readsPage hend hs hn hout, hend.inHand.sound⟩

/-- What the pages of a unit and the rows past its last boundary make up together. -/
lemma Reads.flatMap_of_append_rowsPast {calls : List (Nat × Nat)} {pages : List Shares} {s' : Scene}
    (h : r.Reads calls s pages s') {i : Nat} {u : TableUnit} (hu : s.units[i]? = some u) :
    ∃ u', s'.units[i]? = some u' ∧ u'.name = u.name ∧ u'.key = u.key ∧
      pages.flatMap (Shares.of i) ++ r.rowsPast u'.boundary (s.content u.key) =
        r.rowsPast u.boundary (s.content u.key) := by
  induction h generalizing u with
  | nil s => exact ⟨u, hu, rfl, rfl, rfl⟩
  | cons h _ ih =>
    obtain ⟨u', hu', hname, hkey, htakes⟩ := h.unit i u hu
    obtain ⟨u'', hu'', hname', hkey', hsplit⟩ := ih hu'
    refine ⟨u'', hu'', hname'.trans hname, hkey'.trans hkey, ?_⟩
    rw [hkey, h.content] at hsplit
    rw [List.flatMap_cons, List.append_assoc, hsplit, htakes.split]

/-- Reads in a row of a table whose rows stay as they are succeed, and the pages that they take of
a unit are, one behind the other, its rows past the start, cut after those read so far. -/
theorem reads_pages (r : Reader) {content : Option Sql.Cell → List Sql.Row} {c : Cursor}
    (hcontent : ∀ key, r.Ascending (content key)) (hwell : c.WellFormed)
    (hmode : c.isPartitioned = r.isPartitioned) (calls : List (Nat × Nat)) :
    ∃ pages s', r.Reads calls (Scene.opening content c) pages s' ∧
      ∀ i u, c.units[i]? = some u → ∃ u', s'.units[i]? = some u' ∧ u'.name = u.name ∧
        u'.key = u.key ∧
        pages.flatMap (Shares.of i) ++ r.rowsPast u'.boundary (content u.key) =
          r.rowsPast u.boundary (content u.key) := by
  have hall : ∀ s : Scene, s.Sound r → ∃ pages s', r.Reads calls s pages s' := by
    induction calls with
    | nil => exact fun s _ => ⟨[], s, .nil s⟩
    | cons call rest ih =>
      intro s hs
      obtain ⟨pages, b, s', hread, hs'⟩ := exists_readsPage hs call.1 call.2
      obtain ⟨others, s'', hrest⟩ := ih s' hs'
      exact ⟨pages :: others, s'', .cons hread hrest⟩
  have hopening : (Scene.opening content c).Sound r :=
    ⟨hwell, hmode, by simp [Scene.opening, Scene.units, Cursor.boundaries], hcontent⟩
  obtain ⟨pages, s', hreads⟩ := hall _ hopening
  exact ⟨pages, s', hreads, fun i u hu => hreads.flatMap_of_append_rowsPast hu⟩

end Reader

/-! ## A small table -/

namespace Journal

/-- An entry. -/
def row (id : Int64) (owner : String) : Sql.Row := ⟨["id", "owner"], [.integer id, .text owner]⟩

/-- Three entries of one owner. -/
def content : Option Sql.Cell → List Sql.Row
  | some (.text "ada") => [row 1 "ada", row 2 "ada", row 3 "ada"]
  | _ => []

/-- A cursor that begins at the owner's first entry. -/
def cursor : Cursor :=
  .partitioned (Partitions.empty.insert ⟨"ada", .text "ada", ⟨.integer 1, true, none⟩⟩)

/-- The entries are in the order of their numbers. -/
lemma ascending_content (key : Option Sql.Cell) : reader.Ascending (content key) := by
  unfold content
  split
  · exact ⟨by decide +kernel, by decide +kernel⟩
  · exact ⟨by simp, .nil⟩

/-- The cursor is well-formed. -/
lemma wellFormed_cursor : cursor.WellFormed := Partitions.WellFormed.empty.insert _

/-- Where the owner has been read up to a mark. -/
def readTo (mark : Int64) : TableUnit :=
  ⟨some "ada", some (.text "ada"), ⟨.integer mark, false, none⟩⟩

/-- Two reads of at most two entries each go through the journal without a gap: the first one takes
the first two entries, the second one the third, and no entry is left. -/
theorem reads_pages_journal :
    ∃ s', reader.Reads [(2, 0), (2, 5)] (Scene.opening content cursor)
        [[[row 1 "ada", row 2 "ada"]], [[row 3 "ada"]]] s' ∧
      s'.units = [readTo 3] ∧
      reader.rowsPast (readTo 3).boundary (content (some (.text "ada"))) = [] := by
  obtain ⟨pages, s', hreads, -⟩ :=
    reader.reads_pages ascending_content wellFormed_cursor rfl [(2, 0), (2, 5)]
  cases hreads with
  | cons hfirst hrest =>
    cases hrest with
    | cons hsecond hrest =>
      cases hrest
      obtain ⟨-, rfl⟩ := Prod.mk.inj hfirst.outcome
      obtain ⟨-, rfl⟩ := Prod.mk.inj hsecond.outcome
      have hbegin : (Scene.opening content cursor).units =
          [⟨some "ada", some (.text "ada"), ⟨.integer 1, true, none⟩⟩] := rfl
      have hmiddle : (reader.readOnce 2 0 (Scene.opening content cursor)).2.units = [readTo 2] :=
        rfl
      have hend : (reader.readOnce 2 5 (reader.readOnce 2 0
          (Scene.opening content cursor)).2).2.units = [readTo 3] := rfl
      obtain rfl := hfirst.pages_eq hbegin hmiddle
        (show [row 1 "ada", row 2 "ada"] ++ _ = _ from rfl)
      obtain rfl := hsecond.pages_eq hmiddle hend (show [row 3 "ada"] ++ _ = _ from rfl)
      exact ⟨_, .cons hfirst (.cons hsecond (.nil _)), hend, rfl⟩

end Journal

end TableTail
