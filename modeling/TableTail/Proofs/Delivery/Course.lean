import TableTail.Proofs.Delivery.Frontier
import TableTail.Proofs.Tail.Opened

/-!
# The course of a table

A running service does four things to a table: it polls it pass by pass, it discovers identities,
it flushes the checkpoint, and meanwhile the table grows. A course is a state of all of these
together, and each step is one action of one of them, so every interleaving is a run of steps
(`Course.Run`). Queries and deliveries fail whenever they like.

What the polls ensure holds on along every run (`Course.Invariant.run`): while no poll is in
progress everything up to the cursor has been delivered, and in the middle of a poll everything up
to the boundaries that are settled (`Course.settled`).
-/

namespace TableTail

/-- A poll in progress: the scene in which it began, and what it still has to do. -/
structure PollInProgress where
  since : Scene
  program : Activity (Except PollFault Polled)

/-- What a service does with a table, at one moment. -/
structure Course where
  scene : Scene
  poll : Option PollInProgress
  discovery : Option (Activity Nat)
  flush : Option (Activity Nat)

namespace Course

/-- A table that has just been opened. -/
def opening (content : Option Sql.Cell → List Sql.Row) (c : Cursor) : Course :=
  ⟨Scene.opening content c, none, none, none⟩

/-- One step of a course: rows are appended, or a poll, a discovery or a flush begins, acts or
ends. -/
inductive Step (root : String) (r : Reader) : Course → Course → Prop
  | append {c : Course} {content : Option Sql.Cell → List Sql.Row}
      (happended : ∀ key, c.scene.content key <+: content key)
      (hascending : ∀ key, r.Ascending (content key)) :
      Step root r c { c with scene := { c.scene with content := content } }
  | pollBegins {c : Course} (p : PollerSettings) (h : c.poll = none) :
      Step root r c { c with poll := some ⟨c.scene, r.poll p⟩ }
  | pollActs {c : Course} {x : PollInProgress} {program : Activity (Except PollFault Polled)}
      {s : Scene} (h : c.poll = some x)
      (hm : Program.Moves (Scene.Answers r) x.program c.scene program s) :
      Step root r c { c with scene := s, poll := some ⟨x.since, program⟩ }
  | pollEnds {c : Course} {x : PollInProgress} {outcome : Except PollFault Polled}
      (h : c.poll = some x) (hend : x.program = .done outcome) :
      Step root r c { c with poll := none }
  | discoveryBegins {c : Course} (h : c.discovery = none) :
      Step root r c { c with discovery := some (Registry.discoverAll [r]) }
  | discoveryActs {c : Course} {program program' : Activity Nat} {s : Scene}
      (h : c.discovery = some program)
      (hm : Program.Moves (Scene.Answers r) program c.scene program' s) :
      Step root r c { c with scene := s, discovery := some program' }
  | discoveryEnds {c : Course} {n : Nat} (h : c.discovery = some (.done n)) :
      Step root r c { c with discovery := none }
  | flushBegins {c : Course} (h : c.flush = none) :
      Step root r c { c with flush := some (Registry.flush root [r]) }
  | flushActs {c : Course} {program program' : Activity Nat} {s : Scene}
      (h : c.flush = some program)
      (hm : Program.Moves (Scene.Answers r) program c.scene program' s) :
      Step root r c { c with scene := s, flush := some program' }
  | flushEnds {c : Course} {n : Nat} (h : c.flush = some (.done n)) :
      Step root r c { c with flush := none }

/-- Any number of steps. -/
abbrev Run (root : String) (r : Reader) : Course → Course → Prop :=
  Relation.ReflTransGen (Step root r)

/-- The boundaries up to which everything has been delivered: while a poll is in progress whose
batch has not been taken, those at which it began. -/
def settled (c : Course) : List Boundary :=
  match c.poll with
  | none => c.scene.boundaries
  | some x => c.scene.settled x.since.boundaries x.since.accepted.length

/-- An action that lets the scene evolve, as it may beside a poll. -/
def Harmless (r : Reader) (q : Action) : Prop :=
  ∀ (s : Scene) (a : q.Answer) (s' : Scene), s.Sound r → s.Answers r q a s' → s.Evolves r s'

/-- What holds of a course at all times. -/
structure Invariant (r : Reader) (fl : Floor) (c : Course) : Prop where
  resting : c.poll = none → Settled r fl c.scene
  polling : ∀ x, c.poll = some x →
    Booked r fl x.since.boundaries x.since.accepted.length c.scene ∧
    x.program.Ensures (Scene.setting r) (Booked r fl x.since.boundaries x.since.accepted.length)
      (fun _ s => Settled r fl s) c.scene
  discovering : ∀ program, c.discovery = some program → program.Asks (Harmless r)
  flushing : ∀ program, c.flush = some program → program.Asks (Harmless r)

variable {root : String} {r : Reader} {fl : Floor} {c c' : Course}

/-- The surroundings of a table are around its reader. -/
lemma setting_around (r : Reader) : (Scene.setting r).Around r := ⟨id, id⟩

namespace Harmless

/-- A query changes nothing. -/
lemma query (q : Sql.Query) : Harmless r (.query q) := by
  intro s a s' _ ha
  obtain rfl : s' = s := ha.1
  exact .refl s'

/-- Writing a checkpoint changes nothing. -/
lemma save (l : Location) (contents : String) : Harmless r (.save l contents) := by
  intro s a s' _ ha
  obtain rfl : s' = s := ha
  exact .refl s'

/-- Looking at the cursor changes nothing. -/
lemma look : Harmless r (.exchange r.name id) := by
  intro s a s' hs ha
  obtain ⟨-, rfl⟩ : a = s.cursor ∧ s' = s.exchange id := by simpa [Scene.Answers] using ha
  rw [hs.exchange_id]
  exact .refl s

/-- Adding identities lets the scene evolve. -/
lemma adopt (kind : MarkKind) (rows : List Sql.Row) :
    Harmless r (.exchange r.name (Cursor.adopt kind rows)) := by
  intro s a s' hs ha
  obtain ⟨-, rfl⟩ : a = s.cursor ∧ s' = s.exchange (Cursor.adopt kind rows) := by
    simpa [Scene.Answers] using ha
  exact hs.evolves_adopt kind rows

end Harmless

/-- Discovering identities is harmless to a poll. -/
lemma asks_discover (r : Reader) : r.discover.Asks (Harmless r) := by
  unfold Reader.discover
  cases r.selection.identity with
  | none => exact trivial
  | some identity =>
    simp only
    split
    · cases r.descriptor.minimumQuery r.selection identity with
      | none => exact trivial
      | some q =>
        refine ⟨.query q, fun answer => ?_⟩
        cases answer with
        | error e => exact trivial
        | ok rows => exact ⟨.adopt r.kind rows, fun _ => trivial⟩
    · exact trivial

/-- The discovery of a service is harmless to a poll. -/
lemma asks_discoverAll (r : Reader) : (Registry.discoverAll [r]).Asks (Harmless r) := by
  refine (asks_discover r).bind fun found => ?_
  cases found <;> exact trivial

/-- The flush of a service is harmless to a poll. -/
lemma asks_flush (root : String) (r : Reader) : (Registry.flush root [r]).Asks (Harmless r) := by
  refine ⟨.look, fun cursor => ⟨.save _ _, fun answer => ?_⟩⟩
  cases answer <;> exact trivial

namespace Invariant

/-- The invariant holds of a table that has just been opened. -/
lemma opening {content : Option Sql.Cell → List Sql.Row} {cursor : Cursor}
    (hcontent : ∀ key, r.Ascending (content key)) (hwell : cursor.WellFormed)
    (hmode : cursor.isPartitioned = r.isPartitioned) :
    (Course.opening content cursor).Invariant r [] where
  resting _ := ⟨⟨hwell, hmode, by simp [Course.opening, Scene.opening, Scene.units,
    Cursor.boundaries], hcontent⟩, [], Accounts.opening content cursor⟩
  polling x h := nomatch h
  discovering p h := nomatch h
  flushing p h := nomatch h

/-- The scene of a course is sound. -/
lemma sound (h : c.Invariant r fl) : c.scene.Sound r := by
  cases hpoll : c.poll with
  | none => exact (h.resting hpoll).sound
  | some x => exact (h.polling x hpoll).1.sound

/-- What happens beside a poll keeps the invariant. -/
lemma evolves (h : c.Invariant r fl) {s : Scene} (hs : c.scene.Evolves r s) :
    ({ c with scene := s } : Course).Invariant r fl where
  resting hpoll := (h.resting hpoll).evolves hs
  polling x hpoll := ⟨(h.polling x hpoll).1.evolves hs, (h.polling x hpoll).2.disturbed hs⟩
  discovering := h.discovering
  flushing := h.flushing

/-- What a program does that is harmless lets the scene evolve. -/
lemma evolves_of_moves {α : Type} (h : c.Invariant r fl) {program program' : Activity α} {s : Scene}
    (hasks : program.Asks (Harmless r))
    (hm : Program.Moves (Scene.Answers r) program c.scene program' s) :
    program'.Asks (Harmless r) ∧ c.scene.Evolves r s := by
  obtain ⟨hasks', rfl | ⟨q, a, hq, ha⟩⟩ := hasks.moves hm
  · exact ⟨hasks', .refl _⟩
  · exact ⟨hasks', hq _ a _ h.sound ha⟩

/-- A step keeps the invariant. -/
theorem step (h : c.Invariant r fl) (hstep : Step root r c c') : c'.Invariant r fl := by
  cases hstep with
  | append happended hascending =>
    have hs := h.sound
    have hextends : c.scene.Extends { c.scene with content := _ } :=
      ⟨happended, ⟨[], (List.append_nil _).symm, (List.append_nil _).symm⟩, rfl⟩
    exact h.evolves ⟨hextends, fun _ => ⟨hs.wellFormed, hs.mode, hs.started, hascending⟩⟩
  | pollBegins p hnone =>
    have hsettled := h.resting hnone
    refine { h with resting := nofun, polling := fun x hx => ?_ }
    obtain rfl := Option.some.inj hx
    exact ⟨hsettled.holding.booked, Reader.poll_ensures (setting_around r) p hsettled⟩
  | pollActs hpoll hm =>
    obtain ⟨hbooked, hensures⟩ := h.polling _ hpoll
    refine { h with resting := nofun, polling := fun x hx => ?_ }
    obtain rfl := Option.some.inj hx
    exact hensures.moves hbooked hm
  | pollEnds hpoll hend =>
    obtain ⟨-, hensures⟩ := h.polling _ hpoll
    rw [hend] at hensures
    exact { h with resting := fun _ => hensures.ended, polling := fun _ hx => (by cases hx) }
  | discoveryBegins hnone =>
    refine { h with discovering := fun program hprogram => ?_ }
    obtain rfl := Option.some.inj hprogram
    exact asks_discoverAll r
  | discoveryActs hdiscovery hm =>
    obtain ⟨hasks, hevolves⟩ := h.evolves_of_moves (h.discovering _ hdiscovery) hm
    refine { h.evolves hevolves with discovering := fun program hprogram => ?_ }
    obtain rfl := Option.some.inj hprogram
    exact hasks
  | discoveryEnds hdiscovery => exact { h with discovering := fun _ hx => (by cases hx) }
  | flushBegins hnone =>
    refine { h with flushing := fun program hprogram => ?_ }
    obtain rfl := Option.some.inj hprogram
    exact asks_flush root r
  | flushActs hflush hm =>
    obtain ⟨hasks, hevolves⟩ := h.evolves_of_moves (h.flushing _ hflush) hm
    refine { h.evolves hevolves with flushing := fun program hprogram => ?_ }
    obtain rfl := Option.some.inj hprogram
    exact hasks
  | flushEnds hflush => exact { h with flushing := fun _ hx => (by cases hx) }

/-- Any number of steps keep the invariant. -/
theorem run (h : c.Invariant r fl) (hrun : Run root r c c') : c'.Invariant r fl := by
  induction hrun with
  | refl => exact h
  | tail _ hstep ih => exact ih.step hstep

/-- At all times the accounts are up to what is settled. -/
lemma accounts (h : c.Invariant r fl) : ∃ ds, Accounts r fl c.scene c.settled ds := by
  unfold Course.settled
  cases hpoll : c.poll with
  | none => exact (h.resting hpoll).accounts
  | some x => exact (h.polling x hpoll).1.accounts

end Invariant

/-- A poll in progress may act on its own for a while. -/
lemma run_pollActs {since : Scene} {discovery flush : Option (Activity Nat)}
    {x y : Activity (Except PollFault Polled) × Scene}
    (hm : Program.Acts (Scene.Answers r) x y) :
    Run root r ⟨x.2, some ⟨since, x.1⟩, discovery, flush⟩
      ⟨y.2, some ⟨since, y.1⟩, discovery, flush⟩ := by
  induction hm with
  | refl => exact .refl
  | tail _ hstep ih =>
    exact ih.tail (.pollActs (c := ⟨_, some ⟨since, _⟩, discovery, flush⟩) rfl hstep)

end Course

end TableTail
