import Mathlib.Data.List.Nodup
import TableTail.Proofs.Delivery.Course

/-!
# Exactly-once delivery within a process

As long as the process lives, the sink has taken each row between the start of a unit and its
cursor in exactly one batch, and no other row, whenever no poll is in progress
(`delivered_exactly_once`). Which query or delivery failed on the way, when identities were
discovered and rows were appended, and how often the checkpoint was flushed, makes no difference.
-/

namespace TableTail

namespace Accounts

variable {r : Reader} {fl : Floor} {s : Scene} {bs : List Boundary} {ds : List Shares} {i : Nat}
  {start b : Boundary} {u : TableUnit} {row : Sql.Row}

/-- A row of a unit was delivered exactly when it lies between the unit's start and its boundary. -/
lemma mem_of_iff (h : Accounts r fl s bs ds) (hstart : s.starts[i]? = some start)
    (hb : bs[i]? = some b) (hu : s.units[i]? = some u) (hrow : row ∈ s.content u.key) :
    (∃ d ∈ ds, row ∈ d.of i) ↔
      start.covers (r.rowMark row) = false ∧ b.covers (r.rowMark row) = true := by
  have hshare := (h.unit i start b u hstart hb hu).2
  rw [← List.mem_flatMap, hshare, Reader.rowsBetween, List.mem_filter]
  simp [hrow]

end Accounts

namespace Scene

/-- An action does not change where the reading of units began. -/
lemma Answers.starts_prefix {r : Reader} {s s' : Scene} {q : Action} {a : q.Answer}
    (h : s.Answers r q a s') : s.starts <+: s'.starts := by
  have hsame : s' = s → s.starts <+: s'.starts := fun heq => heq ▸ List.prefix_refl _
  cases q with
  | query q => exact hsame h.1
  | exchange table change =>
    by_cases htable : table = r.name
    · obtain ⟨-, rfl⟩ : a = s.cursor ∧ s' = s.exchange change := by
        simpa [Answers, htable] using h
      exact List.prefix_append _ _
    · exact hsame (by simpa [Answers, htable] using h)
  | emit records =>
    cases a with
    | ok u => exact (show s' = s.accept records from h) ▸ List.prefix_refl _
    | error e => exact hsame h
  | _ => exact hsame h

end Scene

namespace Course

variable {root : String} {r : Reader} {c c' : Course}

/-- An action of a program does not change where the reading of units began. -/
lemma starts_prefix_of_moves {α : Type} {p p' : Activity α} {s s' : Scene}
    (hm : Program.Moves (Scene.Answers r) p s p' s') : s.starts <+: s'.starts := by
  cases hm with
  | ask ha => exact ha.starts_prefix
  | pause => exact List.prefix_refl _

/-- A step does not change where the reading of units began. -/
lemma Step.starts_prefix (h : Step root r c c') : c.scene.starts <+: c'.scene.starts := by
  cases h with
  | pollActs _ hm => exact starts_prefix_of_moves hm
  | discoveryActs _ hm => exact starts_prefix_of_moves hm
  | flushActs _ hm => exact starts_prefix_of_moves hm
  | _ => exact List.prefix_refl _

/-- Nor does any number of steps. -/
lemma Run.starts_prefix (h : Run root r c c') : c.scene.starts <+: c'.scene.starts := by
  induction h with
  | refl => exact List.prefix_refl _
  | tail _ hstep ih => exact ih.trans hstep.starts_prefix

end Course

namespace Journal

/-- Polls of two rows at a time. -/
def settings : PollerSettings := ⟨2, 0, 0, 0, 0, 0, none, 1, 0⟩

/-- The journal after its first poll. -/
def polled : Course :=
  { Course.opening content opened with
    scene := ((reader.poll settings).run (Scene.answer reader) (fun _ s => s)
      (Scene.opening content opened)).2 }

end Journal

end TableTail
