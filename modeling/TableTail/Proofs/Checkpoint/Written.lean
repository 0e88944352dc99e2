import TableTail.Proofs.Delivery.ExactlyOnce

/-!
# What a written checkpoint claims

A flush looks at the cursor and writes what it saw. The rows of a unit that the written position
treats as read have all been delivered exactly when none of them lies past the boundary that is
settled at the time of the write (`written_delivered_iff`): the one where the poll in progress began
as long as the sink has not taken its batch, and the cursor otherwise. A flush that looks at the
cursor while no poll is in progress is always right.

A flush that looks at the cursor while a batch is in hand writes a position that is ahead of what
has been delivered, and a process that ends before the batch is taken, or one that rolls it back and
then ends, leaves a checkpoint from which its rows are never read again
(`Journal.written_not_delivered`).
-/

namespace TableTail

namespace Course

variable {root : String} {r : Reader} {start c c' : Course}

/-- What a flush may stand before: its look at the cursor, the writing of a position that the cursor
had before, or nothing any more. -/
def Flushing (root : String) (r : Reader) (start c : Course) (program : Activity Nat) : Prop :=
  program = Registry.flush root [r] ∨
  (∃ (earlier : Course) (next : Except FileError Unit → Activity Nat),
    Run root r start earlier ∧ Run root r earlier c ∧
    program = .ask (.save (Location.of root r.catalog r.name)
      earlier.scene.cursor.checkpoint.encode) next ∧ ∀ a, ∃ n, next a = .done n) ∨
  ∃ n, program = .done n

/-- A flush looks at the cursor, writes the checkpoint of what it saw, and is done. -/
lemma flush_eq (root : String) (r : Reader) :
    ∃ next : Cursor → Except FileError Unit → Activity Nat,
      Registry.flush root [r] = .ask (.exchange r.name id) (fun cursor =>
        .ask (.save (Location.of root r.catalog r.name) cursor.checkpoint.encode) (next cursor)) ∧
      ∀ cursor a, ∃ n, next cursor a = .done n :=
  ⟨_, rfl, fun _ a => by cases a <;> exact ⟨_, rfl⟩⟩

/-- A flush that waits stands where it stood. -/
lemma Flushing.step {program : Activity Nat} (h : Flushing root r start c program)
    (hstep : Step root r c c') : Flushing root r start c' program := by
  rcases h with h | ⟨earlier, next, hstart, hrun, h⟩ | h
  · exact .inl h
  · exact .inr (.inl ⟨earlier, next, hstart, hrun.tail hstep, h⟩)
  · exact .inr (.inr h)

/-- An action of a flush takes it on: it writes what the cursor was when it looked. -/
lemma Flushing.moves {program program' : Activity Nat} {s : Scene}
    (h : Flushing root r start c program) (hrun : Run root r start c)
    (hstep : Step root r c c') (hm : Program.Moves (Scene.Answers r) program c.scene program' s) :
    Flushing root r start c' program' := by
  rcases h with rfl | ⟨earlier, next, -, -, rfl, hnext⟩ | ⟨n, rfl⟩
  · obtain ⟨next, hflush, hnext⟩ := flush_eq root r
    rw [hflush] at hm
    cases hm with
    | ask ha =>
      have hbefore := ha
      simp only [Scene.Answers, if_true] at hbefore
      rw [hbefore.1]
      exact .inr (.inl ⟨c, _, hrun, .single hstep, rfl, hnext _⟩)
  · cases hm with
    | ask ha => exact .inr (.inr (hnext _))
  · cases hm

/-- Every flush of a course stands before one of its actions. -/
lemma Run.flushing (hrun : Run root r start c) (hstart : start.flush = none) :
    ∀ program, c.flush = some program → Flushing root r start c program := by
  induction hrun with
  | refl => exact fun program h => by rw [hstart] at h; cases h
  | tail hrun hstep ih =>
    intro program h
    cases hstep with
    | flushBegins hnone => exact .inl (Option.some.inj h).symm
    | flushActs hflush hm =>
      obtain rfl := Option.some.inj h
      exact (ih _ hflush).moves hrun (.flushActs hflush hm) hm
    | flushEnds hflush => cases h
    | append happended hascending => exact (ih _ h).step (.append happended hascending)
    | pollBegins p hnone => exact (ih _ h).step (.pollBegins p hnone)
    | pollActs hpoll hm => exact (ih _ h).step (.pollActs hpoll hm)
    | pollEnds hpoll hend => exact (ih _ h).step (.pollEnds hpoll hend)
    | discoveryBegins hnone => exact (ih _ h).step (.discoveryBegins hnone)
    | discoveryActs hdiscovery hm => exact (ih _ h).step (.discoveryActs hdiscovery hm)
    | discoveryEnds hdiscovery => exact (ih _ h).step (.discoveryEnds hdiscovery)

/-- While no poll is in progress the cursor can be taken as the floor from then on. -/
lemma Invariant.floor_of_rest {fl : Floor} (h : c.Invariant r fl) (hrest : c.poll = none) :
    c.Invariant r c.scene.floor where
  resting _ := by
    obtain ⟨hsound, ds, haccounts⟩ := h.resting hrest
    exact ⟨hsound, ds, haccounts.withFloor⟩
  polling x hx := by
    rw [hrest] at hx
    cases hx
  discovering := h.discovering
  flushing := h.flushing

/-- What the cursor was while no poll was in progress stays settled: no row lies between what is
settled later and a unit's boundary at that time. -/
lemma Invariant.rowsBetween_settled_eq_nil {fl : Floor} {earlier : Course}
    (h : earlier.Invariant r fl) (hrest : earlier.poll = none) (hrun : Run root r earlier c)
    {i : Nat} {u written : TableUnit} {settled : Boundary} (hu : c.scene.units[i]? = some u)
    (hsettled : c.settled[i]? = some settled) (hwritten : written ∈ earlier.scene.units)
    (hname : written.name = u.name) (rows : List Sql.Row) :
    r.rowsBetween settled written.boundary rows = [] := by
  have hlater := (h.floor_of_rest hrest).run hrun
  obtain ⟨ds, haccounts⟩ := hlater.accounts
  obtain ⟨j, hj⟩ := List.mem_iff_getElem?.1 hwritten
  have hfloor : earlier.scene.floor[j]? = some (written.name, written.boundary) := by
    rw [Scene.floor, List.getElem?_map, hj]
    rfl
  obtain ⟨v, b, hv, hb, hvname, hle⟩ := haccounts.floor j _ hfloor
  -- the floor knows the unit by its name, and no other unit has this name
  obtain rfl : j = i := by
    obtain ⟨hjlt, -⟩ := List.getElem?_eq_some_iff.1 hv
    have hnames : (c.scene.units.map (·.name))[j]? = (c.scene.units.map (·.name))[i]? := by
      rw [List.getElem?_map, List.getElem?_map, hv, hu, Option.map_some, Option.map_some,
        hvname.trans hname]
    exact (List.getElem?_inj ((List.length_map _).symm ▸ hjlt)
      hlater.sound.wellFormed.nodup).1 hnames
  obtain rfl : b = settled := Option.some.inj (hb.symm.trans hsettled)
  refine List.filter_eq_nil_iff.2 fun row _ hbetween => ?_
  obtain ⟨hout, hin⟩ := (Bool.and_eq_true _ _).mp hbetween
  rw [hle _ hin] at hout
  cases hout

end Course

/-- The rows up to a boundary have been delivered exactly when none of them lies past what is
settled. -/
lemma Accounts.delivered_iff {r : Reader} {fl : Floor} {s : Scene} {bs : List Boundary}
    {ds : List Shares} (h : Accounts r fl s bs ds) {i : Nat} {start b : Boundary} {u : TableUnit}
    (hstart : s.starts[i]? = some start) (hb : bs[i]? = some b) (hu : s.units[i]? = some u)
    (written : Boundary) :
    (∀ row ∈ s.content u.key, start.covers (r.rowMark row) = false →
      written.covers (r.rowMark row) = true → ∃ d ∈ ds, row ∈ d.of i) ↔
    r.rowsBetween b written (s.content u.key) = [] := by
  have hnotPast : start.NotPast b := (h.unit i start b u hstart hb hu).1.notPast
  constructor
  · intro hall
    refine List.filter_eq_nil_iff.2 fun row hrow hbetween => ?_
    obtain ⟨hout, hin⟩ := (Bool.and_eq_true _ _).mp hbetween
    rw [Bool.not_eq_true'] at hout
    have hdelivered := hall row hrow (hnotPast.eq_false hout) hin
    obtain ⟨-, hcovered⟩ := (h.mem_of_iff hstart hb hu hrow).1 hdelivered
    rw [hout] at hcovered
    cases hcovered
  · intro hnone row hrow hpast hin
    refine (h.mem_of_iff hstart hb hu hrow).2 ⟨hpast, ?_⟩
    have hbetween := List.filter_eq_nil_iff.1 hnone row hrow
    simpa [hin] using hbetween

/-- When a flush of an opened table writes a position, it writes what the cursor was at an earlier
time. The rows of a unit that this position treats as read have been delivered exactly when none of
them lies past what is settled at the time of the write, and that is so if no poll was in progress
when the flush looked at the cursor. -/
theorem written_delivered_iff {root : String} {source : Source} {d : Descriptor}
    {schema : Schema} {idlePolicy : IdlePolicy} {r : Reader} {cursor : Cursor}
    {content : Option Sql.Cell → List Sql.Row} {c : Course} {l : Location} {contents : String}
    {next : Except FileError Unit → Activity Nat}
    (hopen : (Reader.open root source d schema idlePolicy).Returns (.ok (r, cursor)))
    (hcontent : ∀ key, r.Ascending (content key))
    (hrun : Course.Run root r (Course.opening content cursor) c)
    (hwrite : c.flush = some (.ask (.save l contents) next)) :
    ∃ earlier : Course, Course.Run root r (Course.opening content cursor) earlier ∧
      Course.Run root r earlier c ∧ l = Location.of root r.catalog r.name ∧
      contents = earlier.scene.cursor.checkpoint.encode ∧
      ∃ ds : List Shares, c.scene.accepted = ds.map (fun d => r.records d.flatten) ∧
        ∀ i u, c.scene.units[i]? = some u → ∃ start settled, c.scene.starts[i]? = some start ∧
          c.settled[i]? = some settled ∧
          ∀ written ∈ earlier.scene.units, written.name = u.name →
            ((∀ row ∈ c.scene.content u.key, start.covers (r.rowMark row) = false →
                written.boundary.covers (r.rowMark row) = true → ∃ d ∈ ds, row ∈ d.of i) ↔
              r.rowsBetween settled written.boundary (c.scene.content u.key) = []) ∧
            (earlier.poll = none →
              r.rowsBetween settled written.boundary (c.scene.content u.key) = []) := by
  obtain ⟨-, hkeeps⟩ := Reader.open_keeps hopen
  have hopening := Course.Invariant.opening hcontent hkeeps.wellFormed hkeeps.mode
  have hinvariant := hopening.run hrun
  obtain ⟨ds, haccounts⟩ := hinvariant.accounts
  obtain h | ⟨earlier, next', hearlier, hlater, h, -⟩ | ⟨n, h⟩ := hrun.flushing rfl _ hwrite
  · obtain ⟨_, hflush, -⟩ := Course.flush_eq root r
    rw [hflush] at h
    cases h
  · cases h
    refine ⟨earlier, hearlier, hlater, rfl, rfl, ds, haccounts.accepted, fun i u hu => ?_⟩
    obtain ⟨hi, -⟩ := List.getElem?_eq_some_iff.1 hu
    obtain ⟨start, hstart⟩ : ∃ start, c.scene.starts[i]? = some start :=
      ⟨_, List.getElem?_eq_getElem (hinvariant.sound.started ▸ hi)⟩
    obtain ⟨settled, hsettled⟩ : ∃ settled, c.settled[i]? = some settled :=
      ⟨_, List.getElem?_eq_getElem (haccounts.length ▸ hi)⟩
    refine ⟨start, settled, hstart, hsettled, fun written hwritten hname => ⟨?_, fun hrest => ?_⟩⟩
    · exact haccounts.delivered_iff hstart hsettled hu written.boundary
    · exact (hopening.run hearlier).rowsBetween_settled_eq_nil hrest hlater hu hsettled hwritten
        hname _
  · cases h

namespace Journal

/-- The journal when a poll has read two rows and is about to hand them to the sink. -/
def handing : Activity (Except PollFault Polled) × Scene :=
  Program.after (Scene.answer reader) 7 (reader.poll settings) (Scene.opening content opened)

/-- A flush that has looked at the cursor at that time. -/
def flushing : Activity Nat :=
  (Program.after (Scene.answer reader) 1 (Registry.flush "." [reader]) handing.2).1

/-- The journal when this flush is about to write. -/
def writing : Course :=
  ⟨handing.2, some ⟨Scene.opening content opened, handing.1⟩, none, some flushing⟩

/-- A poll and a flush lead there. -/
lemma run_writing : Course.Run "." reader (Course.opening content opened) writing := by
  have hpoll : Course.Run "." reader (Course.opening content opened)
      ⟨handing.2, some ⟨Scene.opening content opened, handing.1⟩, none, none⟩ :=
    (Relation.ReflTransGen.single (.pollBegins settings rfl)).trans
      (Course.run_pollActs (Program.acts_after (Scene.answers_answer reader) 7 _ _))
  refine (hpoll.tail (.flushBegins rfl)).tail (.flushActs rfl ?_)
  exact .ask (Scene.answers_answer reader _ _)

/-- The flush writes a position that treats two rows as read when nothing has been delivered. -/
theorem written_not_delivered :
    writing.scene.accepted = [] ∧
    writing.scene.boundaries = [Boundary.behind (.integer 2)] ∧
    ∃ earlier : Course, Course.Run "." reader (Course.opening content opened) earlier ∧
      Course.Run "." reader earlier writing ∧
      Location.of "." "db" "journal" = Location.of "." reader.catalog reader.name ∧
      writing.scene.cursor.checkpoint.encode = earlier.scene.cursor.checkpoint.encode ∧
      ∃ ds : List Shares, writing.scene.accepted = ds.map (fun d => reader.records d.flatten) ∧
        ∀ i u, writing.scene.units[i]? = some u → ∃ start settled,
          writing.scene.starts[i]? = some start ∧ writing.settled[i]? = some settled ∧
          ∀ written ∈ earlier.scene.units, written.name = u.name →
            ((∀ row ∈ writing.scene.content u.key, start.covers (reader.rowMark row) = false →
                written.boundary.covers (reader.rowMark row) = true → ∃ d ∈ ds, row ∈ d.of i) ↔
              reader.rowsBetween settled written.boundary (writing.scene.content u.key) = []) ∧
            (earlier.poll = none →
              reader.rowsBetween settled written.boundary (writing.scene.content u.key) = []) :=
  ⟨rfl, rfl, written_delivered_iff open_returns ascending_content run_writing rfl⟩

end Journal

end TableTail
