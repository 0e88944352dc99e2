import Mathlib.Data.Set.Function
import TableTail.Proofs.Checkpoint.Restart
import TableTail.Proofs.Settings.Checked
import TableTail.Tables.Registry

/-!
# What a registry keeps

A registry finds its tables by two names: its own map has the tables' real names, and an index leads
from the names for delivery to the real ones. A table's name for delivery may be another table's
real name, so nothing in the maps themselves keeps them in step; that they are is an invariant of
the registry (`Registry.Consistent`).

What a registration can do is told once (`Registry.register_cases`): it fails and adds nothing, it
answers the table that has the name for delivery already, or it adds a table whose two names are
both free and both allowed. The invariant follows for every history of registrations, whatever the
database and the checkpoint files answer, while the tables that are open are read
(`Registry.Consistent.run`).
-/

namespace TableTail

/-- A description has the two names of its settings. -/
lemma Descriptor.names_of_ofSettings {t : TableSettings} {d : Descriptor}
    (h : Descriptor.ofSettings t = .ok d) : d.name = t.name ∧ d.aliasName = t.aliasOrName := by
  unfold Descriptor.ofSettings at h
  split at h
  · cases h
  · obtain rfl := Except.ok.inj h
    constructor
    · rfl
    · rfl

/-- A table that is opened has the description that it is opened with. -/
lemma Reader.descriptor_of_open {root : String} {source : Source} {d : Descriptor} {schema : Schema}
    {idlePolicy : IdlePolicy} {r : Reader} {c : Cursor}
    (h : (Reader.open root source d schema idlePolicy).Returns (.ok (r, c))) :
    r.descriptor = d := by
  obtain ⟨hreader, -⟩ := Reader.open_keeps h
  exact Opening.descriptor_of_readerOf hreader

/-- The statements of a selection are about the table that it is made for. -/
lemma Selection.table_of {d : Descriptor} {s : Schema} {dialect : Sql.Dialect} {table : String}
    {selection : Selection} (h : Selection.of d s dialect table = .ok selection) :
    selection.table = table := by
  unfold Selection.of at h
  split at h
  · cases h
  · simp only at h
    split at h
    · obtain rfl := Except.ok.inj h
      rfl
    · split at h
      · cases h
      · obtain rfl := Except.ok.inj h
        rfl

/-- The statements of a table that is opened are about the table of its own name. -/
lemma Reader.table_of_open {root : String} {source : Source} {d : Descriptor} {schema : Schema}
    {idlePolicy : IdlePolicy} {r : Reader} {c : Cursor}
    (h : (Reader.open root source d schema idlePolicy).Returns (.ok (r, c))) :
    r.selection.table = source.tableRef d.name := by
  obtain ⟨hreader, -⟩ := Reader.open_keeps h
  unfold Opening.readerOf at hreader
  split at hreader
  · cases hreader
  · next selection hselection =>
    split at hreader
    · cases hreader
    · obtain rfl := Except.ok.inj hreader
      exact Selection.table_of hselection

/-- A reader that is opened for a table's settings: it has both of their names, and its statements
are about the table. -/
structure Reader.OpenedFor (r : Reader) (source : Source) (t : TableSettings) : Prop where
  name : r.name = t.name
  aliasName : r.aliasName = t.aliasOrName
  table : r.selection.table = source.tableRef t.name

namespace Registry

variable {reg reg' : Registry} {x : Tracked} {name aliasName : String}

/-! ## One registration -/

/-- Looking for a schema ends with one that the description fits, and keeps it, or it fails and
changes nothing. -/
lemma resolve_outcome {d : Descriptor} {found : Except Failure Schema}
    (h : (reg.resolve d).Returns (found, reg')) :
    (∃ e, found = .error e ∧ reg' = reg) ∨
    ∃ s, found = .ok s ∧ d.misfit? s = none ∧
      reg' = { reg with schemas := Named.set d.name s reg.schemas } := by
  unfold resolve at h
  extract_lets finish at h
  have hfinish : ∀ outcome, (finish outcome).Returns (found, reg') →
      (∃ e, found = .error e ∧ reg' = reg) ∨
      ∃ s, found = .ok s ∧ d.misfit? s = none ∧
        reg' = { reg with schemas := Named.set d.name s reg.schemas } := by
    intro outcome hout
    cases outcome with
    | error e =>
      left
      obtain ⟨rfl, rfl⟩ := Prod.mk.inj hout
      exact ⟨e, rfl, rfl⟩
    | ok schema =>
      simp only [finish] at hout
      cases hmisfit : d.misfit? schema with
      | some misfit =>
        left
        rw [hmisfit] at hout
        obtain ⟨rfl, rfl⟩ := Prod.mk.inj hout
        exact ⟨_, rfl, rfl⟩
      | none =>
        right
        rw [hmisfit] at hout
        obtain ⟨rfl, rfl⟩ := Prod.mk.inj hout
        exact ⟨schema, rfl, hmisfit, rfl⟩
  cases hcached : Named.get? d.name reg.schemas with
  | some cached =>
    rw [hcached] at h
    exact hfinish (.ok cached) h
  | none =>
    rw [hcached] at h
    obtain ⟨answer, -, h⟩ := Program.returns_bind.1 h
    rcases answer with e | _ | columns
    · exact hfinish (.error (.database e)) h
    · exact hfinish (.error (.schema d.name (.noTable reg.source.catalog))) h
    · exact hfinish (.ok ⟨d.name, columns⟩) h

/-- Looking for a schema changes what is known about schemas only. -/
lemma resolve_cases {d : Descriptor} {found : Except Failure Schema}
    (h : (reg.resolve d).Returns (found, reg')) :
    ∃ schemas, reg' = { reg with schemas := schemas } := by
  rcases resolve_outcome h with ⟨e, -, rfl⟩ | ⟨s, -, -, rfl⟩
  · exact ⟨_, rfl⟩
  · exact ⟨_, rfl⟩

/-- A described table is added when it can be opened, and otherwise no table is. -/
lemma enroll_cases {d : Descriptor} {idlePolicy : IdlePolicy} {result : Except Failure Tracked}
    (h : (reg.enroll d idlePolicy).Returns (result, reg')) :
    ∃ schemas,
      (∃ e, result = .error e ∧ reg' = { reg with schemas := schemas }) ∨
      (∃ x, result = .ok x ∧ x.reader.descriptor = d ∧
        x.reader.selection.table = reg.source.tableRef d.name ∧
        reg' = { reg with schemas := schemas }.add x) := by
  unfold enroll at h
  rw [Program.bind_eq, Program.returns_bind] at h
  obtain ⟨⟨found, after⟩, hresolve, h⟩ := h
  obtain ⟨schemas, rfl⟩ := resolve_cases hresolve
  refine ⟨schemas, ?_⟩
  cases found with
  | error e =>
    left
    obtain ⟨rfl, rfl⟩ := Prod.mk.inj h
    exact ⟨e, rfl, rfl⟩
  | ok schema =>
    simp only [Program.bind_eq] at h
    rw [Program.returns_bind] at h
    obtain ⟨outcome, hopen, h⟩ := h
    cases outcome with
    | error e =>
      left
      obtain ⟨rfl, rfl⟩ := Prod.mk.inj h
      exact ⟨e, rfl, rfl⟩
    | ok opened =>
      right
      obtain ⟨r, c⟩ := opened
      obtain ⟨rfl, rfl⟩ := Prod.mk.inj h
      exact ⟨⟨r, c⟩, rfl, Reader.descriptor_of_open hopen, Reader.table_of_open hopen, rfl⟩

/-- What a registration does: it fails without adding a table, it answers the table that is
delivered under the name already, or it opens the table that is asked for and adds it under its two
names, which are free and allowed. -/
theorem register_cases {t : TableSettings} {result : Except Failure Tracked}
    (h : (reg.register t).Returns (result, reg')) :
    (∃ e schemas, result = .error e ∧ reg' = { reg with schemas := schemas }) ∨
    (∃ x, result = .ok x ∧ reg.ofAlias? t.aliasOrName = some x ∧ reg' = reg) ∨
    (∃ x schemas, result = .ok x ∧ reg' = { reg with schemas := schemas }.add x ∧
      reg.accessFault? x.reader.name = none ∧ reg.accessFault? x.reader.aliasName = none ∧
      reg.ofAlias? x.reader.aliasName = none ∧ Named.get? x.reader.name reg.tables = none ∧
      x.reader.OpenedFor reg.source t) := by
  unfold register at h
  cases haccess : reg.accessFault? t.aliasOrName <|> reg.accessFault? t.name with
  | some fault =>
    rw [haccess] at h
    obtain ⟨rfl, rfl⟩ := Prod.mk.inj h
    exact .inl ⟨_, reg.schemas, rfl, rfl⟩
  | none =>
    obtain ⟨halias, hname⟩ := (Option.orElse_eq_none ..).1 haccess
    rw [haccess] at h
    simp only at h
    cases hold : reg.ofAlias? t.aliasOrName with
    | some existing =>
      rw [hold] at h
      obtain ⟨rfl, rfl⟩ := Prod.mk.inj h
      exact .inr (.inl ⟨existing, rfl, rfl, rfl⟩)
    | none =>
      rw [hold] at h
      simp only at h
      by_cases htaken : Named.has t.name reg.tables = true
      · rw [if_pos htaken] at h
        obtain ⟨rfl, rfl⟩ := Prod.mk.inj h
        exact .inl ⟨_, reg.schemas, rfl, rfl⟩
      · rw [if_neg htaken] at h
        cases hdescribed : Descriptor.ofSettings t with
        | error fault =>
          rw [hdescribed] at h
          obtain ⟨rfl, rfl⟩ := Prod.mk.inj h
          exact .inl ⟨_, reg.schemas, rfl, rfl⟩
        | ok d =>
          rw [hdescribed] at h
          obtain ⟨schemas, ⟨e, rfl, rfl⟩ | ⟨x, rfl, hx, htable, rfl⟩⟩ := enroll_cases h
          · exact .inl ⟨e, schemas, rfl, rfl⟩
          · obtain ⟨hown, hdelivered⟩ := Descriptor.names_of_ofSettings hdescribed
            have hxname : x.reader.name = t.name := by rw [Reader.name, hx, hown]
            have hxalias : x.reader.aliasName = t.aliasOrName := by
              rw [Reader.aliasName, hx, hdelivered]
            have hfree : Named.get? t.name reg.tables = none := by
              simpa [Named.has] using htaken
            rw [hown] at htable
            refine .inr (.inr ⟨x, schemas, rfl, rfl, ?_⟩)
            rw [hxname, hxalias]
            exact ⟨hname, halias, hold, hfree, hxname, hxalias, htable⟩

/-! ## The tables after a step -/

/-- The tables after one is added are this one and those that there were. -/
lemma get?_add_cases {y : Tracked} (h : Named.get? name (reg.add x).tables = some y) :
    name = x.reader.name ∧ y = x ∨ name ≠ x.reader.name ∧ Named.get? name reg.tables = some y := by
  by_cases hne : name = x.reader.name
  · subst hne
    left
    rw [add, Named.get?_set_self] at h
    exact ⟨rfl, (Option.some.inj h).symm⟩
  · right
    rw [add, Named.get?_set_of_ne hne] at h
    exact ⟨hne, h⟩

/-- A table keeps its reader when the cursor of a table is moved. -/
lemma get?_changeCursor (moved : String) (change : Cursor → Cursor)
    (h : Named.get? name reg.tables = some x) :
    ∃ y, Named.get? name (reg.changeCursor moved change).tables = some y ∧
      y.reader = x.reader := by
  refine ⟨_, by rw [changeCursor, Named.get?_change, h]; rfl, ?_⟩
  split <;> rfl

/-- When the cursor of a table is moved the tables are those that there were. -/
lemma of_get?_changeCursor {y : Tracked} {moved : String} {change : Cursor → Cursor}
    (h : Named.get? name (reg.changeCursor moved change).tables = some y) :
    ∃ x, Named.get? name reg.tables = some x ∧ y.reader = x.reader := by
  rw [changeCursor, Named.get?_change] at h
  obtain ⟨x, hx, rfl⟩ := Option.map_eq_some_iff.1 h
  refine ⟨x, hx, ?_⟩
  split <;> rfl

/-! ## The invariant -/

/-- The tables and the index are in step: each table is kept under its own name, the index leads
from exactly the tables' names for delivery to their own names, and both names of each table are
allowed. -/
structure Consistent (reg : Registry) : Prop where
  own : ∀ name x, Named.get? name reg.tables = some x → x.reader.name = name
  indexed : ∀ aliasName name, Named.get? aliasName reg.aliases = some name ↔
    ∃ x, Named.get? name reg.tables = some x ∧ x.reader.aliasName = aliasName
  allowed : ∀ name x, Named.get? name reg.tables = some x →
    reg.accessFault? x.reader.name = none ∧ reg.accessFault? x.reader.aliasName = none

/-- A registry without tables is consistent. -/
lemma consistent_empty (source : Source) (root : String) (poller : PollerSettings)
    (allowed : List String) : (empty source root poller allowed).Consistent where
  own name x h := by cases h
  indexed aliasName name := by
    constructor
    · intro h
      cases h
    · rintro ⟨x, h, -⟩
      cases h
  allowed name x h := by cases h

namespace Consistent

/-- The index leads to the table that is delivered under a name. -/
lemma ofAlias?_eq_some_iff (h : reg.Consistent) :
    reg.ofAlias? aliasName = some x ↔
      Named.get? x.reader.name reg.tables = some x ∧ x.reader.aliasName = aliasName := by
  unfold ofAlias?
  constructor
  · intro hfound
    obtain ⟨name, hname, hx⟩ := Option.bind_eq_some_iff.1 hfound
    obtain ⟨y, hy, hdelivered⟩ := (h.indexed aliasName name).1 hname
    have hsame : y = x := Option.some.inj (hy.symm.trans hx)
    have hown : x.reader.name = name := h.own name x hx
    subst hsame
    exact ⟨hown ▸ hx, hdelivered⟩
  · rintro ⟨hx, hdelivered⟩
    have hname := (h.indexed aliasName x.reader.name).2 ⟨x, hx, hdelivered⟩
    exact Option.bind_eq_some_iff.2 ⟨x.reader.name, hname, hx⟩

/-- A name under which no table is delivered is not in the index. -/
lemma aliases_eq_none (h : reg.Consistent) (hfree : reg.ofAlias? aliasName = none) :
    Named.get? aliasName reg.aliases = none := by
  rw [Option.eq_none_iff_forall_ne_some]
  intro name hname
  obtain ⟨x, hx, -⟩ := (h.indexed aliasName name).1 hname
  rw [ofAlias?, hname, Option.bind_some, hx] at hfree
  cases hfree

/-- What is known about schemas does not matter. -/
lemma withSchemas (h : reg.Consistent) (schemas : Named Schema) :
    { reg with schemas := schemas }.Consistent := ⟨h.own, h.indexed, h.allowed⟩

/-- A table with two free names that are allowed may be added. -/
lemma add (h : reg.Consistent) (hname : reg.accessFault? x.reader.name = none)
    (halias : reg.accessFault? x.reader.aliasName = none)
    (hindex : Named.get? x.reader.aliasName reg.aliases = none)
    (htables : Named.get? x.reader.name reg.tables = none) : (reg.add x).Consistent := by
  constructor
  · intro name y hy
    rcases get?_add_cases hy with ⟨rfl, rfl⟩ | ⟨-, hold⟩
    · rfl
    · exact h.own name y hold
  · intro aliasName name
    by_cases hdelivered : aliasName = x.reader.aliasName
    · subst hdelivered
      rw [Registry.add, Named.get?_set_self, Option.some.injEq]
      constructor
      · rintro rfl
        exact ⟨x, Named.get?_set_self .., rfl⟩
      · rintro ⟨y, hy, hsame⟩
        rcases get?_add_cases hy with ⟨rfl, -⟩ | ⟨-, hold⟩
        · rfl
        · have hindexed := (h.indexed x.reader.aliasName name).2 ⟨y, hold, hsame⟩
          rw [hindex] at hindexed
          cases hindexed
    · rw [Registry.add, Named.get?_set_of_ne hdelivered, h.indexed]
      constructor
      · rintro ⟨y, hy, hsame⟩
        have hne : name ≠ x.reader.name := by
          rintro rfl
          rw [htables] at hy
          cases hy
        exact ⟨y, (Named.get?_set_of_ne hne ..).trans hy, hsame⟩
      · rintro ⟨y, hy, hsame⟩
        rcases get?_add_cases hy with ⟨-, rfl⟩ | ⟨-, hold⟩
        · exact absurd hsame.symm hdelivered
        · exact ⟨y, hold, hsame⟩
  · intro name y hy
    rcases get?_add_cases hy with ⟨-, rfl⟩ | ⟨-, hold⟩
    · exact ⟨hname, halias⟩
    · exact h.allowed name y hold

/-- Moving the cursor of a table does not matter. -/
lemma changeCursor (h : reg.Consistent) (name : String) (change : Cursor → Cursor) :
    (reg.changeCursor name change).Consistent := by
  constructor
  · intro other y hy
    obtain ⟨z, hz, hsame⟩ := of_get?_changeCursor hy
    rw [hsame]
    exact h.own other z hz
  · intro aliasName other
    refine (h.indexed aliasName other).trans ?_
    constructor
    · rintro ⟨z, hz, hdelivered⟩
      obtain ⟨y, hy, hsame⟩ := get?_changeCursor name change hz
      exact ⟨y, hy, by rw [hsame]; exact hdelivered⟩
    · rintro ⟨y, hy, hdelivered⟩
      obtain ⟨z, hz, hsame⟩ := of_get?_changeCursor hy
      exact ⟨z, hz, by rw [← hsame]; exact hdelivered⟩
  · intro other y hy
    obtain ⟨z, hz, hsame⟩ := of_get?_changeCursor hy
    rw [hsame]
    exact h.allowed other z hz

/-- A registration keeps the tables and the index in step. -/
lemma register (h : reg.Consistent) {t : TableSettings} {result : Except Failure Tracked}
    (hreturns : (reg.register t).Returns (result, reg')) : reg'.Consistent := by
  rcases register_cases hreturns with ⟨e, schemas, -, rfl⟩ | ⟨x, -, -, rfl⟩ |
    ⟨x, schemas, -, rfl, hname, halias, hfree, htables, -⟩
  · exact h.withSchemas schemas
  · exact h
  · exact (h.withSchemas schemas).add hname halias (h.aliases_eq_none hfree) htables

end Consistent

/-! ## Histories -/

/-- What happens to a registry: a table is registered, whatever the database and the checkpoint
files answer to that, or the cursor of an open table is moved. -/
inductive Step : Registry → Registry → Prop
  | register {reg reg' : Registry} (t : TableSettings) {result : Except Failure Tracked}
      (h : (reg.register t).Returns (result, reg')) : Step reg reg'
  | move (reg : Registry) (name : String) (change : Cursor → Cursor) :
      Step reg (reg.changeCursor name change)

/-- Any number of registrations and moves. -/
abbrev Run : Registry → Registry → Prop := Relation.ReflTransGen Step

/-- The tables and the index stay in step, and the allow-list stays what it is. -/
theorem Consistent.step (h : reg.Consistent) (hstep : Step reg reg') :
    reg'.Consistent ∧ reg'.allowed = reg.allowed := by
  cases hstep with
  | register t hreturns =>
    refine ⟨h.register hreturns, ?_⟩
    rcases register_cases hreturns with ⟨e, schemas, -, rfl⟩ | ⟨x, -, -, rfl⟩ |
      ⟨x, schemas, -, rfl, -⟩
    · rfl
    · rfl
    · rfl
  | move name change => exact ⟨h.changeCursor name change, rfl⟩

/-- So it is after any history. -/
theorem Consistent.run (h : reg.Consistent) (hrun : Run reg reg') :
    reg'.Consistent ∧ reg'.allowed = reg.allowed := by
  induction hrun with
  | refl => exact ⟨h, rfl⟩
  | tail _ hstep ih =>
    obtain ⟨hconsistent, hallowed⟩ := ih
    obtain ⟨hconsistent', hallowed'⟩ := hconsistent.step hstep
    exact ⟨hconsistent', hallowed'.trans hallowed⟩

/-- Registering the tables of a list is a history. -/
lemma run_of_registerAll {tables : List TableSettings} {failures : List (String × Failure)}
    (h : (registerAll reg tables).Returns (failures, reg')) : Run reg reg' := by
  induction tables generalizing reg failures with
  | nil =>
    obtain ⟨-, rfl⟩ := Prod.mk.inj h
    exact .refl
  | cons t rest ih =>
    obtain ⟨⟨result, reg₁⟩, hfirst, h⟩ := Program.returns_bind.1 h
    obtain ⟨⟨others, reg₂⟩, hrest, h⟩ := Program.returns_bind.1 h
    have hlast : reg₂ = reg' := by
      cases result with
      | error e => exact (Prod.mk.inj h).2
      | ok x => exact (Prod.mk.inj h).2
    subst hlast
    exact .head (.register t hfirst) (ih hrest)

/-- The real names of the open tables. -/
def tableNames (reg : Registry) : Set String := {name | Named.has name reg.tables = true}

/-- The names under which the open tables are delivered. -/
def aliasNames (reg : Registry) : Set String :=
  {aliasName | ∃ name x, Named.get? name reg.tables = some x ∧ x.reader.aliasName = aliasName}

/-- A name may be looked up when the allow-list names it, or is empty. -/
lemma accessFault?_eq_none_iff :
    reg.accessFault? name = none ↔ reg.allowed = [] ∨ name ∈ reg.allowed := by
  unfold accessFault?
  constructor
  · intro h
    split at h
    · next hlisted => simpa using hlisted
    · cases h
  · intro h
    have hlisted : (reg.allowed.isEmpty || reg.allowed.contains name) = true := by simpa using h
    rw [if_pos hlisted]

namespace Consistent

/-- The index has the names for delivery, and no others. -/
lemma has_aliases_iff (h : reg.Consistent) :
    Named.has aliasName reg.aliases = true ↔ aliasName ∈ reg.aliasNames := by
  rw [Named.has, Option.isSome_iff_exists]
  constructor
  · rintro ⟨name, hname⟩
    obtain ⟨x, hx, hdelivered⟩ := (h.indexed aliasName name).1 hname
    exact ⟨name, x, hx, hdelivered⟩
  · rintro ⟨name, x, hx, hdelivered⟩
    exact ⟨name, (h.indexed aliasName name).2 ⟨x, hx, hdelivered⟩⟩

/-- The index leads from the names for delivery to the real names, one to one and onto. -/
lemma bijOn (h : reg.Consistent) :
    Set.BijOn (fun aliasName => Named.get? aliasName reg.aliases) reg.aliasNames
      (some '' reg.tableNames) := by
  refine ⟨?_, ?_, ?_⟩
  · rintro aliasName ⟨name, x, hx, hdelivered⟩
    have hname := (h.indexed aliasName name).2 ⟨x, hx, hdelivered⟩
    refine ⟨name, ?_, hname.symm⟩
    show (Named.get? name reg.tables).isSome = true
    rw [hx]
    rfl
  · rintro first ⟨name, x, hx, hfirst⟩ second - hsame
    have hname := (h.indexed first name).2 ⟨x, hx, hfirst⟩
    have hname' : Named.get? second reg.aliases = some name := by
      rw [← hname]
      exact hsame.symm
    obtain ⟨y, hy, hsecond⟩ := (h.indexed second name).1 hname'
    have hxy : x = y := Option.some.inj (hx.symm.trans hy)
    rw [← hfirst, ← hsecond, hxy]
  · rintro _ ⟨name, hname, rfl⟩
    obtain ⟨x, hx⟩ := Option.isSome_iff_exists.1 hname
    exact ⟨x.reader.aliasName, ⟨name, x, hx, rfl⟩, (h.indexed _ name).2 ⟨x, hx, rfl⟩⟩

/-- A table that a lookup returns is kept under its own name, and both of its names are allowed. -/
lemma of_lookup (h : reg.Consistent) {key : String}
    (hfound : reg.byAlias key = .ok (some x) ∨ reg.byName key = .ok (some x)) :
    Named.get? x.reader.name reg.tables = some x ∧ reg.accessFault? x.reader.name = none ∧
      reg.accessFault? x.reader.aliasName = none := by
  have hkept : Named.get? x.reader.name reg.tables = some x := by
    rcases hfound with hfound | hfound
    · unfold byAlias at hfound
      split at hfound
      · cases hfound
      · exact (h.ofAlias?_eq_some_iff.1 (Except.ok.inj hfound)).1
    · unfold byName at hfound
      split at hfound
      · cases hfound
      · have hx : Named.get? key reg.tables = some x := Except.ok.inj hfound
        rw [h.own key x hx]
        exact hx
  exact ⟨hkept, h.allowed _ x hkept⟩

/-- Both lookups return a table that is kept. -/
lemma lookups (h : reg.Consistent) (hx : Named.get? name reg.tables = some x) :
    reg.byName x.reader.name = .ok (some x) ∧ reg.byAlias x.reader.aliasName = .ok (some x) := by
  obtain ⟨hname, halias⟩ := h.allowed name x hx
  have hown : Named.get? x.reader.name reg.tables = some x := by
    rw [h.own name x hx]
    exact hx
  have hindexed : reg.ofAlias? x.reader.aliasName = some x :=
    h.ofAlias?_eq_some_iff.2 ⟨hown, rfl⟩
  constructor
  · simp only [byName, hname, hown]
  · simp only [byAlias, halias, hindexed]

end Consistent

/-- A registration that fails leaves the tables and the index as they are. One that succeeds answers
a table that is kept, and keeps all the tables and names that there were. -/
lemma register_keeps (h : reg.Consistent) {t : TableSettings} {result : Except Failure Tracked}
    (hreturns : (reg.register t).Returns (result, reg')) :
    (∀ e, result = .error e → reg'.tables = reg.tables ∧ reg'.aliases = reg.aliases) ∧
    ∀ x, result = .ok x → Named.get? x.reader.name reg'.tables = some x ∧
      (∀ name y, Named.get? name reg.tables = some y → Named.get? name reg'.tables = some y) ∧
      ∀ aliasName name, Named.get? aliasName reg.aliases = some name →
        Named.get? aliasName reg'.aliases = some name := by
  rcases register_cases hreturns with ⟨e, schemas, rfl, rfl⟩ | ⟨x, rfl, hold, rfl⟩ |
    ⟨x, schemas, rfl, rfl, -, -, hfree, htables, -⟩
  · refine ⟨fun _ _ => ⟨rfl, rfl⟩, fun x hx => ?_⟩
    cases hx
  · refine ⟨fun e he => ?_, fun y hy => ?_⟩
    · cases he
    · obtain rfl := Except.ok.inj hy
      exact ⟨(h.ofAlias?_eq_some_iff.1 hold).1, fun _ _ => id, fun _ _ => id⟩
  · refine ⟨fun e he => ?_, fun y hy => ?_⟩
    · cases he
    · obtain rfl := Except.ok.inj hy
      refine ⟨Named.get?_set_self .., fun name y hy => ?_, fun aliasName name hname => ?_⟩
      · have hne : name ≠ x.reader.name := by
          rintro rfl
          rw [htables] at hy
          cases hy
        exact (Named.get?_set_of_ne hne ..).trans hy
      · have hne : aliasName ≠ x.reader.aliasName := by
          rintro rfl
          rw [h.aliases_eq_none hfree] at hname
          cases hname
        exact (Named.get?_set_of_ne hne ..).trans hname

/-- After any history of registrations and moves the index is one to one between the names for
delivery and the real names of the open tables. Each table is found under both of its names, as the
one that is kept and moved under its own name; what a lookup returns has both names allowed; and the
next registration adds a table, or answers one, without touching the others, or fails and leaves
everything as it is. -/
theorem registered_consistently {source : Source} {root : String} {poller : PollerSettings}
    {allowed : List String} (hrun : Run (empty source root poller allowed) reg) :
    (∀ aliasName, Named.has aliasName reg.aliases = true ↔ aliasName ∈ reg.aliasNames) ∧
    Set.BijOn (fun aliasName => Named.get? aliasName reg.aliases) reg.aliasNames
      (some '' reg.tableNames) ∧
    (∀ name x, Named.get? name reg.tables = some x →
      x.reader.name = name ∧ reg.cursorOf x.reader.name = x.cursor ∧
      reg.byName x.reader.name = .ok (some x) ∧ reg.byAlias x.reader.aliasName = .ok (some x)) ∧
    (∀ key x, reg.byAlias key = .ok (some x) ∨ reg.byName key = .ok (some x) →
      Named.get? x.reader.name reg.tables = some x ∧
      (allowed = [] ∨ x.reader.name ∈ allowed ∧ x.reader.aliasName ∈ allowed)) ∧
    ∀ t result reg', (reg.register t).Returns (result, reg') →
      (∀ e, result = .error e → reg'.tables = reg.tables ∧ reg'.aliases = reg.aliases) ∧
      ∀ x, result = .ok x → Named.get? x.reader.name reg'.tables = some x ∧
        (∀ name y, Named.get? name reg.tables = some y → Named.get? name reg'.tables = some y) ∧
        ∀ aliasName name, Named.get? aliasName reg.aliases = some name →
          Named.get? aliasName reg'.aliases = some name := by
  obtain ⟨hconsistent, hallowed⟩ := (consistent_empty source root poller allowed).run hrun
  refine ⟨fun _ => hconsistent.has_aliases_iff, hconsistent.bijOn, fun name x hx => ?_,
    fun key x hfound => ?_, fun t result reg' hreturns => register_keeps hconsistent hreturns⟩
  · have hown : x.reader.name = name := hconsistent.own name x hx
    refine ⟨hown, ?_, hconsistent.lookups hx⟩
    rw [cursorOf, hown, hx]
  · obtain ⟨hkept, hname, halias⟩ := hconsistent.of_lookup hfound
    refine ⟨hkept, ?_⟩
    rw [accessFault?_eq_none_iff, hallowed] at hname halias
    rcases hname with hall | hname
    · exact .inl hall
    · rcases halias with hall | halias
      · exact .inl hall
      · exact .inr ⟨hname, halias⟩

end Registry

namespace Journal

/-- Two tables, each of which is delivered under the real name of the other one. -/
def crossed : Settings :=
  ⟨.ofUrl "sqlite://db", .standard, none,
    [numberedEntries "journal" "ledger", numberedEntries "ledger" "journal"]⟩

/-- The columns of a table of numbered entries. -/
def numberColumns : List Sql.Column := [⟨"id", "INTEGER", "INTEGER", .integer, false⟩]

/-- An open table of numbered entries. -/
def trackedNumbered (name aliasName : String) : Tracked :=
  ⟨⟨⟨name, aliasName, [], [], [], none, ⟨"id", none, none, [], [], [], true⟩⟩,
    ⟨name, numberColumns⟩,
    ⟨.sqlite, Sql.quoted name, [⟨.column "id", "id"⟩],
      ⟨"id", "INTEGER", "INTEGER", .integer, false⟩, none, none⟩, "db", .integer,
    ⟨60000, 3600000⟩⟩, .single (.integer 0) none⟩

/-- The registry of the two tables. -/
def crossedRegistry : Registry :=
  ⟨source, ".", .standard, ["journal", "ledger"],
    [("journal", ⟨"journal", numberColumns⟩), ("ledger", ⟨"ledger", numberColumns⟩)],
    [("journal", trackedNumbered "journal" "ledger"),
      ("ledger", trackedNumbered "ledger" "journal")],
    [("journal", "ledger"), ("ledger", "journal")]⟩

/-- It is what opening the two tables ends with. -/
lemma run_crossed :
    Registry.Run (.empty source "." .standard ["journal", "ledger"]) crossedRegistry := by
  have hopened : (Registry.ofSettings source "." crossed).Returns ([], crossedRegistry) :=
    ⟨(.ok (some numberColumns) : Except DatabaseError (Option (List Sql.Column))),
      (.ok none : Except FileError (Option String)),
      (.ok (some numberColumns) : Except DatabaseError (Option (List Sql.Column))),
      (.ok none : Except FileError (Option String)), rfl⟩
  exact Registry.run_of_registerAll hopened

/-- Each of the two tables is found under its own name and under the other one's. -/
theorem registered_crossed :
    Registry.Run (.empty source "." .standard ["journal", "ledger"]) crossedRegistry ∧
      crossedRegistry.byName "journal" = .ok (some (trackedNumbered "journal" "ledger")) ∧
      crossedRegistry.byAlias "ledger" = .ok (some (trackedNumbered "journal" "ledger")) ∧
      crossedRegistry.byName "ledger" = .ok (some (trackedNumbered "ledger" "journal")) ∧
      crossedRegistry.byAlias "journal" = .ok (some (trackedNumbered "ledger" "journal")) := by
  obtain ⟨-, -, hfound, -⟩ := Registry.registered_consistently run_crossed
  obtain ⟨-, -, hjournal, hledgerAlias⟩ := hfound "journal" (trackedNumbered "journal" "ledger") rfl
  obtain ⟨-, -, hledger, hjournalAlias⟩ := hfound "ledger" (trackedNumbered "ledger" "journal") rfl
  exact ⟨run_crossed, hjournal, hledgerAlias, hledger, hjournalAlias⟩

end Journal

end TableTail
