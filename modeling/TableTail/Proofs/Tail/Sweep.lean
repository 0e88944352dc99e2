import TableTail.Proofs.Tail.Scene

/-!
# Sweeping over the units

A read of a table sweeps over its units: it scans each unit that is due and turns it, up to the
first scan that fails. `Sweep` collects what a property of a read has to satisfy, one unit at a
time, and `Sweep.read` is the rule for the whole of a read, in both modes. Each statement about
reads is an instance of this rule.
-/

namespace TableTail

/-- The batch with the page of one more unit. -/
def Batch.withPage (r : Reader) (limit : Nat) (u : TableUnit) (page : List Sql.Row) (b : Batch) :
    Batch :=
  b.asked.add (r.records page)
    ((r.lastMark? page).map fun m => ⟨u.name, u.progress.after, u.progress.unread, m⟩)
    (limit ≤ page.length)

/-- Whether a unit is scanned at a time. -/
def TableUnit.isDue (r : Reader) (now : Nat) (u : TableUnit) : Bool :=
  Idle.due u.progress.idle r.idlePolicy now

/-- Surroundings of a reader: they answer as a scene does and change as a scene evolves. -/
structure Setting.Around (w : Setting Action Action.Answer Scene) (r : Reader) : Prop where
  answers : ∀ {s q a s'}, w.answers s q a s' → s.Answers r q a s'
  disturbs : ∀ {s s'}, w.disturbs s s' → s.Evolves r s'

namespace Setting.Around

variable {r : Reader} {w : Setting Action Action.Answer Scene} {inv : Scene → Prop}

/-- Changing the cursor answers what it was before. -/
lemma ensures_exchange {α : Type} (hw : w.Around r) {change : Cursor → Cursor}
    {next : Cursor → Activity α} {post : α → Scene → Prop} {s : Scene}
    (hnext : ∀ s', w.disturbs s s' → inv (s'.exchange change) ∧
      (next s'.cursor).Ensures w inv post (s'.exchange change)) :
    ((Activity.exchange r.name change).bind next).Ensures w inv post s := by
  intro s' hd before s'' ha
  obtain ⟨rfl, rfl⟩ : before = s'.cursor ∧ s'' = s'.exchange change := by
    simpa [Scene.Answers] using hw.answers ha
  exact hnext s' hd

/-- Looking at the cursor changes nothing. -/
lemma ensures_look {α : Type} (hw : w.Around r) {next : Cursor → Activity α}
    {post : α → Scene → Prop} {s : Scene} (hs : s.Sound r)
    (hnext : ∀ s', w.disturbs s s' → inv s' ∧ (next s'.cursor).Ensures w inv post s') :
    ((Activity.look r.name).bind next).Ensures w inv post s := by
  refine hw.ensures_exchange fun s' hd => ?_
  rw [((hw.disturbs hd).2 hs).exchange_id]
  exact hnext s' hd

/-- A program inside a table ensures what it ensures on its own. -/
lemma ensures_inside {α : Type} (hw : w.Around r) {p : Activity α} {post : α → Scene → Prop}
    (hinv : ∀ a s, post a s → inv s) (hpost : ∀ {a s s'}, post a s → w.disturbs s s' → post a s')
    {s : Scene} (hs : ∀ s', w.disturbs s s' → inv s' ∧ p.Ensures w inv post s') :
    (Activity.inside r.name p).Ensures w inv post s := by
  intro s₁ hd _ s₂ ha
  obtain rfl : s₂ = s₁ := hw.answers ha
  refine ⟨(hs s₂ hd).1, (((hs s₂ hd).2).mono fun a s₃ hthis => ?_).bind⟩
  intro s₄ hd₄ _ s₅ ha₅
  obtain rfl : s₅ = s₄ := hw.answers ha₅
  have hpost₅ : post a s₅ := hpost hthis hd₄
  exact ⟨hinv a s₅ hpost₅, fun s₆ hd₆ => hpost hpost₅ hd₆⟩

end Setting.Around

/-- What holds of a read before its `k`-th unit, of the batch so far and the scene, and what holds
when it is interrupted: how each unit takes it one unit further. -/
structure Sweep (r : Reader) (w : Setting Action Action.Answer Scene) (inv : Scene → Prop)
    (limit now : Nat) (reading : Nat → Batch → Scene → Prop) (cut : Interruption → Scene → Prop) :
    Prop where
  sound : ∀ {k b s}, reading k b s → s.Sound r
  keeps : ∀ {k b s}, reading k b s → inv s
  disturbed : ∀ {k b s s'}, reading k b s → w.disturbs s s' → reading k b s'
  cut_disturbed : ∀ {x s s'}, cut x s → w.disturbs s s' → cut x s'
  pass : ∀ {k b s u}, reading k b s → s.units[k]? = some u → u.isDue r now = false →
    reading (k + 1) b s
  fail : ∀ {k b s u e}, reading k b s → s.units[k]? = some u →
    w.answers s (.query (r.scanOf limit u)) (.error e) s → cut ⟨b.asked, e⟩ s
  turn : ∀ {k b s s' s'' u page}, reading k b s → s.units[k]? = some u → u.isDue r now = true →
    page = (r.rowsPast u.boundary (s.content u.key)).take limit →
    w.disturbs s s' → s'.Turned r k (r.lastMark? page) now s'' →
    reading (k + 1) (b.withPage r limit u page) s''

namespace Sweep

variable {r : Reader} {w : Setting Action Action.Answer Scene} {inv : Scene → Prop}
  {limit now : Nat} {reading : Nat → Batch → Scene → Prop} {cut : Interruption → Scene → Prop}

/-- What a read ends with: the property for all of its units, or the interruption. -/
def ends (reading : Nat → Batch → Scene → Prop) (cut : Interruption → Scene → Prop) (n : Nat) :
    Except Interruption Batch → Scene → Prop
  | .ok b, s => reading n b s
  | .error x, s => cut x s

/-- A scan that answers leads on to the unit's next page; one that does not, to the cut. -/
lemma ensures_scan {α : Type} (h : Sweep r w inv limit now reading cut) (hw : w.Around r)
    {k : Nat} {b : Batch} {s : Scene} {u : TableUnit} (hs : reading k b s)
    (hu : s.units[k]? = some u) {next : Except DatabaseError (List Sql.Row) → Activity α}
    {post : α → Scene → Prop}
    (hfail : ∀ e s', cut ⟨b.asked, e⟩ s' → (next (.error e)).Ensures w inv post s')
    (hpage : ∀ s', w.disturbs s s' → reading k b s' → s'.units[k]? = some u →
      (next (.ok ((r.rowsPast u.boundary (s'.content u.key)).take limit))).Ensures w inv post s') :
    ((Activity.query (r.scanOf limit u)).bind next).Ensures w inv post s := by
  intro s₁ hd answer s₂ ha
  have hs₁ : reading k b s₁ := h.disturbed hs hd
  have hu₁ : s₁.units[k]? = some u := (hw.disturbs hd).1.units_getElem? hu
  obtain ⟨rfl, hselected⟩ := hw.answers ha
  refine ⟨h.keeps hs₁, ?_⟩
  cases answer with
  | error e => exact hfail e s₂ (h.fail hs₁ hu₁ ha)
  | ok rows =>
    have hrows : rows = (r.rowsPast u.boundary (s₂.content u.key)).take limit := by
      rw [hselected (Reader.isScan_scanOf limit u) rows rfl]
      exact Reader.select_scanOf _ _ ((h.sound hs₁).fits hu₁)
    rw [hrows]
    exact hpage s₂ hd hs₁ hu₁

/-- Moving the cursor after a scan takes the property to the next unit. -/
lemma ensures_turn {α : Type} (h : Sweep r w inv limit now reading cut) (hw : w.Around r)
    {k : Nat} {b : Batch} {s : Scene} {u : TableUnit} {page : List Sql.Row}
    {change : Cursor → Cursor} (hs : reading k b s) (hu : s.units[k]? = some u)
    (hdue : u.isDue r now = true)
    (hpage : page = (r.rowsPast u.boundary (s.content u.key)).take limit)
    (hchange : ∀ s' : Scene, s'.Sound r → s'.Turned r k (r.lastMark? page) now (s'.exchange change))
    {next : Cursor → Activity α} {post : α → Scene → Prop}
    (hnext : ∀ before s', reading (k + 1) (b.withPage r limit u page) s' →
      s.units.length ≤ s'.units.length → (next before).Ensures w inv post s') :
    ((Activity.exchange r.name change).bind next).Ensures w inv post s := by
  refine hw.ensures_exchange fun s₁ hd => ?_
  have hsound : s₁.Sound r := (hw.disturbs hd).2 (h.sound hs)
  have hmoved := hchange s₁ hsound
  have hreading := h.turn hs hu hdue hpage hd hmoved
  refine ⟨h.keeps hreading, hnext s₁.cursor _ hreading ?_⟩
  rw [hmoved.units, List.length_modify]
  exact (hw.disturbs hd).1.length_le

/-- The slots of a table are read one after the other. -/
theorem readSlots (h : Sweep r w inv limit now reading cut) (hw : w.Around r)
    (hmode : r.isPartitioned = true) (count k : Nat) (b : Batch) (s : Scene) (hs : reading k b s)
    (hcount : k + count ≤ s.units.length) :
    (r.readSlots limit now count k b).Ensures w inv (ends reading cut (k + count)) s := by
  induction count generalizing k b s with
  | zero => exact fun s' hd => h.disturbed hs hd
  | succ count ih =>
    have hnext : ∀ b' s', reading (k + 1) b' s' → s.units.length ≤ s'.units.length →
        (r.readSlots limit now count (k + 1) b').Ensures w inv
          (ends reading cut (k + (count + 1))) s' := by
      intro b' s' hs' hle
      have hthis := ih (k + 1) b' s' hs' (by omega)
      rwa [Nat.add_right_comm, Nat.add_assoc] at hthis
    refine hw.ensures_look (h.sound hs) fun s₁ hd => ?_
    have hs₁ : reading k b s₁ := h.disturbed hs hd
    have hle : s.units.length ≤ s₁.units.length := (hw.disturbs hd).1.length_le
    refine ⟨h.keeps hs₁, ?_⟩
    have hunit : s₁.units[k]? = (s₁.cursor.partitions.slot? k).map Partition.unit :=
      Cursor.units_getElem?_of_isPartitioned ((h.sound hs₁).mode.trans hmode) k
    cases hslot : s₁.cursor.partitions.slot? k with
    | none =>
      rw [hslot, Option.map_none, List.getElem?_eq_none_iff] at hunit
      omega
    | some p =>
      obtain ⟨identity, param, progress⟩ := p
      rw [hslot, Option.map_some] at hunit
      by_cases hdue : Idle.due progress.idle r.idlePolicy now = true
      · simp only [hdue, if_true]
        refine ensures_scan h hw hs₁ hunit (fun e s₂ hcut => ?_) fun s₂ hd₂ hs₂ hu₂ => ?_
        · exact fun s₃ hd₃ => h.cut_disturbed hcut hd₃
        · have hasc := (h.sound hs₂).ascending (Partition.unit ⟨identity, param, progress⟩).key
          rw [(hasc.page _ limit).scanned_ok]
          refine ensures_turn h hw hs₂ hu₂ hdue rfl
            (fun s' hs' => hs'.turned_moveSlot hmode k _ now) fun before s₃ hs₃ hle₃ => ?_
          exact hnext _ s₃ hs₃ ((hle.trans (hw.disturbs hd₂).1.length_le).trans hle₃)
      · simp only [hdue]
        exact hnext b s₁ (h.pass hs₁ hunit (Bool.eq_false_of_not_eq_true hdue)) hle

/-- A table that is read as a whole is one unit. -/
theorem readSingle (h : Sweep r w inv limit now reading cut) (hw : w.Around r)
    (hmode : r.isPartitioned = false) {s : Scene} (hs : reading 0 Batch.empty s) :
    (r.readSingle limit now).Ensures w inv (ends reading cut 1) s := by
  refine hw.ensures_look (h.sound hs) fun s₁ hd => ?_
  have hs₁ : reading 0 Batch.empty s₁ := h.disturbed hs hd
  refine ⟨h.keeps hs₁, ?_⟩
  cases hcursor : s₁.cursor with
  | partitioned ps =>
    have hthis := (h.sound hs₁).mode
    rw [hcursor, hmode] at hthis
    cases hthis
  | single after idle =>
    have hunit : s₁.units[0]? = some ⟨none, none, ⟨after, false, idle⟩⟩ := by
      rw [Scene.units, hcursor]
      rfl
    by_cases hdue : Idle.due idle r.idlePolicy now = true
    · simp only [hdue, if_true]
      refine ensures_scan h hw hs₁ hunit (fun e s₂ hcut => ?_) fun s₂ hd₂ hs₂ hu₂ => ?_
      · exact fun s₃ hd₃ => h.cut_disturbed hcut hd₃
      · have hasc := (h.sound hs₂).ascending none
        rw [(hasc.page _ limit).scanned_ok]
        refine ensures_turn h hw hs₂ hu₂ hdue rfl
          (fun s' hs' => hs'.turned_moveSingle hmode _ now) fun before s₃ hs₃ _ => ?_
        exact fun s₄ hd₄ => h.disturbed hs₃ hd₄
    · simp only [hdue]
      exact fun s₂ hd₂ => h.disturbed (h.pass hs₁ hunit (Bool.eq_false_of_not_eq_true hdue)) hd₂

/-- The slots of a table are read when the table has partitions. -/
lemma readPartitions (h : Sweep r w inv limit now reading cut) (hw : w.Around r)
    (hmode : r.isPartitioned = true) {s : Scene} (hs : reading 0 Batch.empty s) :
    (r.readPartitions limit now).Ensures w inv
      (fun outcome s' => ∃ n, s.units.length ≤ n ∧ ends reading cut n outcome s') s := by
  refine hw.ensures_look (h.sound hs) fun s₁ hd => ?_
  have hs₁ : reading 0 Batch.empty s₁ := h.disturbed hs hd
  have hsize : s₁.cursor.partitions.size = s₁.units.length :=
    (Cursor.length_units_of_isPartitioned ((h.sound hs₁).mode.trans hmode)).symm
  refine ⟨h.keeps hs₁, ?_⟩
  refine (h.readSlots hw hmode _ 0 _ s₁ hs₁ (by omega)).mono fun outcome s' hend => ?_
  exact ⟨_, by have := (hw.disturbs hd).1.length_le; omega, hend⟩

/-- The rule for a read: it takes the property over all units that there were. -/
theorem read (h : Sweep r w inv (max limit 1) now reading cut) (hw : w.Around r)
    (hcut : ∀ {x s}, cut x s → inv s) {s : Scene} (hs : reading 0 Batch.empty s) :
    (r.read limit now).Ensures w inv
      (fun outcome s' => ∃ n, s.units.length ≤ n ∧ ends reading cut n outcome s') s := by
  refine hw.ensures_inside ?_ ?_ fun s₁ hd => ⟨h.keeps (h.disturbed hs hd), ?_⟩
  · rintro (x | b) s' ⟨n, -, hend⟩
    · exact hcut hend
    · exact h.keeps hend
  · rintro (x | b) s' s'' ⟨n, hn, hend⟩ hd
    · exact ⟨n, hn, h.cut_disturbed hend hd⟩
    · exact ⟨n, hn, h.disturbed hend hd⟩
  · have hs₁ := h.disturbed hs hd
    have hle := (hw.disturbs hd).1.length_le
    by_cases hmode : r.isPartitioned = true
    · rw [if_pos hmode]
      exact (h.readPartitions hw hmode hs₁).mono fun outcome s' ⟨n, hn, hend⟩ =>
        ⟨n, hle.trans hn, hend⟩
    · rw [if_neg hmode]
      have hsingle : r.isPartitioned = false := Bool.eq_false_of_not_eq_true hmode
      have hone : s₁.units.length = 1 :=
        Cursor.length_units_of_not_isPartitioned ((h.sound hs₁).mode.trans hsingle)
      exact (h.readSingle hw hsingle hs₁).mono fun outcome s' hend =>
        ⟨1, hone ▸ hle, hend⟩

end Sweep

end TableTail
