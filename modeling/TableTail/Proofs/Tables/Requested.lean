import TableTail.Proofs.Tables.Registered
import TableTail.Proofs.Tail.SideBySide

/-!
# Which table a registration answers

A registration is made under the name for delivery. As long as no table is delivered under this name
the table that is asked for is opened and answered; from then on each registration under the name
answers the same table, whatever table it asks for (`Registry.registered_under_alias`). All
statements of a table that is answered are about the table of its own name.
-/

namespace TableTail

/-- An action that asks the database about one table only. -/
def Action.IsAbout (table : String) : Action → Prop
  | .query q => q.select.table = table
  | _ => True

namespace Reader

/-! ## What a reader asks about -/

variable (r : Reader)

/-- Slots are read by scans of the table. -/
lemma asks_about_readSlots (limit now count slot : Nat) (b : Batch) :
    (r.readSlots limit now count slot b).Asks (Action.IsAbout r.selection.table) := by
  induction count generalizing slot b with
  | zero => trivial
  | succ count ih =>
    refine Program.Asks.bind ⟨trivial, fun _ => trivial⟩ fun c => ?_
    split
    · exact ih _ _
    · split
      · refine Program.Asks.bind ⟨rfl, fun _ => trivial⟩ fun answer => ?_
        split
        · trivial
        · exact Program.Asks.bind ⟨trivial, fun _ => trivial⟩ fun _ => ih _ _
      · exact ih _ _

/-- A single mark is read by a scan of the table. -/
lemma asks_about_readSingle (limit now : Nat) :
    (r.readSingle limit now).Asks (Action.IsAbout r.selection.table) := by
  refine Program.Asks.bind ⟨trivial, fun _ => trivial⟩ fun c => ?_
  split
  · trivial
  · split
    · refine Program.Asks.bind ⟨rfl, fun _ => trivial⟩ fun answer => ?_
      split
      · trivial
      · exact Program.Asks.bind ⟨trivial, fun _ => trivial⟩ fun _ => trivial
    · trivial

/-- Discovery asks for the identities of the table. -/
lemma asks_about_discover : r.discover.Asks (Action.IsAbout r.selection.table) := by
  unfold discover
  split
  · trivial
  · split
    · split
      · trivial
      · next q hq =>
        obtain ⟨c, -, rfl⟩ := Option.map_eq_some_iff.1 hq
        refine Program.Asks.bind ⟨rfl, fun _ => trivial⟩ fun answer => ?_
        split
        · trivial
        · exact Program.Asks.bind ⟨trivial, fun _ => trivial⟩ fun _ => trivial
    · trivial

/-- All calls of a reader ask about the table of its selection. -/
theorem asks_about_call (call : Call) : (r.call call).Asks (Action.IsAbout r.selection.table) := by
  have hinside : ∀ {α : Type} {p : Activity α}, p.Asks (Action.IsAbout r.selection.table) →
      (Activity.inside r.name p).Asks (Action.IsAbout r.selection.table) :=
    fun hp => ⟨trivial, fun _ => hp.bind fun _ => ⟨trivial, fun _ => trivial⟩⟩
  cases call with
  | read limit now =>
    refine Program.Asks.bind (hinside ?_) fun _ => trivial
    split
    · exact Program.Asks.bind ⟨trivial, fun _ => trivial⟩ fun c => r.asks_about_readSlots ..
    · exact r.asks_about_readSingle ..
  | rollback b =>
    exact Program.Asks.bind (hinside ⟨trivial, fun _ => trivial⟩) fun _ => trivial
  | discover => exact r.asks_about_discover.bind fun _ => trivial
  | checkpoint => exact ⟨trivial, fun _ => trivial⟩

end Reader

namespace Registry

variable {reg reg' : Registry} {x y : Tracked} {t : TableSettings} {aliasName : String}

/-! ## One registration -/

/-- A registration answers the table that has the name for delivery and changes nothing, or it
answers the table that is asked for, while no table had the name. -/
lemma register_answers (h : (reg.register t).Returns (.ok x, reg')) :
    reg.ofAlias? t.aliasOrName = some x ∧ reg' = reg ∨
      reg.ofAlias? t.aliasOrName = none ∧ x.reader.OpenedFor reg.source t := by
  rcases register_cases h with ⟨e, schemas, he, -⟩ | ⟨x', hx, hold, rfl⟩ |
    ⟨x', schemas, hx, -, -, -, hfree, -, hopened⟩
  · cases he
  · obtain rfl := Except.ok.inj hx
    exact .inl ⟨hold, rfl⟩
  · obtain rfl := Except.ok.inj hx
    rw [hopened.aliasName] at hfree
    exact .inr ⟨hfree, hopened⟩

/-! ## The tables of the registry -/

/-- The tables that are kept are read by statements about the table of their own name. -/
structure Referenced (reg : Registry) (source : Source) : Prop where
  source_eq : reg.source = source
  table : ∀ name x, Named.get? name reg.tables = some x →
    x.reader.selection.table = source.tableRef x.reader.name

/-- A registration and a move keep this. -/
lemma Referenced.step {source : Source} (h : reg.Referenced source) (hstep : Step reg reg') :
    reg'.Referenced source := by
  obtain ⟨rfl, htable⟩ := h
  cases hstep with
  | register t hreturns =>
    rcases register_cases hreturns with ⟨e, schemas, -, rfl⟩ | ⟨x, -, -, rfl⟩ |
      ⟨x, schemas, -, rfl, -, -, -, -, hopened⟩
    · exact ⟨rfl, htable⟩
    · exact ⟨rfl, htable⟩
    · refine ⟨rfl, fun name y hy => ?_⟩
      rcases get?_add_cases hy with ⟨-, rfl⟩ | ⟨-, hold⟩
      · rw [hopened.table, hopened.name]
      · exact htable name y hold
  | move moved change =>
    refine ⟨rfl, fun name y hy => ?_⟩
    obtain ⟨x, hx, hsame⟩ := of_get?_changeCursor hy
    rw [hsame]
    exact htable name x hx

/-- So it is after any history. -/
lemma Referenced.run {source : Source} (h : reg.Referenced source) (hrun : Run reg reg') :
    reg'.Referenced source := by
  induction hrun with
  | refl => exact h
  | tail _ hstep ih => exact ih.step hstep

/-- A step leaves a name for delivery to the table that has it. -/
lemma ofAlias?_step (h : reg.Consistent) (hx : reg.ofAlias? aliasName = some x)
    (hstep : Step reg reg') : ∃ y, reg'.ofAlias? aliasName = some y ∧ y.reader = x.reader := by
  obtain ⟨hconsistent, -⟩ := h.step hstep
  obtain ⟨hkept, hdelivered⟩ := h.ofAlias?_eq_some_iff.1 hx
  suffices hlater : ∃ y, Named.get? x.reader.name reg'.tables = some y ∧ y.reader = x.reader by
    obtain ⟨y, hy, hsame⟩ := hlater
    refine ⟨y, hconsistent.ofAlias?_eq_some_iff.2 ?_, hsame⟩
    rw [hsame]
    exact ⟨hy, hdelivered⟩
  cases hstep with
  | move moved change => exact get?_changeCursor moved change hkept
  | register t hreturns =>
    rename_i result
    obtain ⟨hfailed, hanswered⟩ := register_keeps h hreturns
    cases result with
    | error e =>
      obtain ⟨htables, -⟩ := hfailed e rfl
      exact ⟨x, by rw [htables]; exact hkept, rfl⟩
    | ok z =>
      obtain ⟨-, htables, -⟩ := hanswered z rfl
      exact ⟨x, htables _ _ hkept, rfl⟩

/-- A name for delivery stays with the table that has it. -/
lemma ofAlias?_run (h : reg.Consistent) (hx : reg.ofAlias? aliasName = some x)
    (hrun : Run reg reg') : ∃ y, reg'.ofAlias? aliasName = some y ∧ y.reader = x.reader := by
  induction hrun with
  | refl => exact ⟨x, hx, rfl⟩
  | tail hbefore hstep ih =>
    obtain ⟨y, hy, hsame⟩ := ih
    obtain ⟨hconsistent, -⟩ := h.run hbefore
    obtain ⟨z, hz, hsame'⟩ := ofAlias?_step hconsistent hy hstep
    exact ⟨z, hz, hsame'.trans hsame⟩

/-- After any history a registration that succeeds answers a table that is delivered under the
wanted name. It is the table that is asked for if no table was delivered under this name before, and
otherwise the one that was, and nothing changes. All statements of the table are about the table of
its own name; and whatever happens later, each registration under the name answers this table. -/
theorem registered_under_alias {source : Source} {root : String} {poller : PollerSettings}
    {allowed : List String} (hrun : Run (empty source root poller allowed) reg)
    (h : (reg.register t).Returns (.ok x, reg')) :
    x.reader.aliasName = t.aliasOrName ∧
      (reg.ofAlias? t.aliasOrName = none ∧ x.reader.name = t.name ∨
        reg.ofAlias? t.aliasOrName = some x ∧ reg' = reg) ∧
      (∀ call, (x.reader.call call).Asks (Action.IsAbout (source.tableRef x.reader.name))) ∧
      ∀ later t' y later', Run reg' later → t'.aliasOrName = t.aliasOrName →
        (later.register t').Returns (.ok y, later') → y.reader = x.reader := by
  obtain ⟨hconsistent, -⟩ := (consistent_empty source root poller allowed).run hrun
  have hempty : (empty source root poller allowed).Referenced source :=
    ⟨rfl, fun name x hx => nomatch hx⟩
  have hstep : Step reg reg' := .register t h
  obtain ⟨hconsistent', -⟩ := hconsistent.step hstep
  obtain ⟨-, hanswered⟩ := register_keeps hconsistent h
  obtain ⟨hkept, -⟩ := hanswered x rfl
  have haliasName : x.reader.aliasName = t.aliasOrName := by
    rcases register_answers h with ⟨hold, -⟩ | ⟨-, hopened⟩
    · exact (hconsistent.ofAlias?_eq_some_iff.1 hold).2
    · exact hopened.aliasName
  refine ⟨haliasName, ?_, ?_, ?_⟩
  · rcases register_answers h with ⟨hold, hsame⟩ | ⟨hfree, hopened⟩
    · exact .inr ⟨hold, hsame⟩
    · exact .inl ⟨hfree, hopened.name⟩
  · intro call
    have htable := ((hempty.run hrun).step hstep).table _ x hkept
    rw [← htable]
    exact x.reader.asks_about_call call
  · intro later t' y later' hlater halias hregister
    have hindexed := hconsistent'.ofAlias?_eq_some_iff.2 ⟨hkept, haliasName⟩
    obtain ⟨z, hz, hsame⟩ := ofAlias?_run hconsistent' hindexed hlater
    rcases register_answers hregister with ⟨hold, -⟩ | ⟨hfree, -⟩
    · rw [halias, hz] at hold
      rw [← Option.some.inj hold, hsame]
    · rw [halias, hz] at hfree
      cases hfree

end Registry

namespace Journal

/-- The entries of "ledger" are asked for under a name that the entries of "journal" already have. -/
lemma register_ledger :
    (crossedRegistry.register (numberedEntries "ledger" "ledger")).Returns
      (.ok (trackedNumbered "journal" "ledger"), crossedRegistry) := rfl

/-- They are delivered under the wanted name, by statements about "journal" only, now and whenever
the name is registered again. -/
theorem ledger_answered_by_journal :
    Registry.Run (.empty source "." .standard ["journal", "ledger"]) crossedRegistry ∧
      (crossedRegistry.register (numberedEntries "ledger" "ledger")).Returns
        (.ok (trackedNumbered "journal" "ledger"), crossedRegistry) ∧
      (trackedNumbered "journal" "ledger").reader.aliasName = "ledger" ∧
      (∀ call, ((trackedNumbered "journal" "ledger").reader.call call).Asks
        (Action.IsAbout (source.tableRef "journal"))) ∧
      ∀ later t y later', Registry.Run crossedRegistry later → t.aliasOrName = "ledger" →
        (later.register t).Returns (.ok y, later') →
        y.reader = (trackedNumbered "journal" "ledger").reader := by
  obtain ⟨haliasName, -, habout, hlater⟩ :=
    Registry.registered_under_alias run_crossed register_ledger
  exact ⟨run_crossed, register_ledger, haliasName, habout, hlater⟩

/-- So a registration that succeeds need not answer the table that is asked for. -/
theorem not_registered_requested :
    ¬ ∀ (source : Source) (root : String) (poller : PollerSettings) (allowed : List String)
      (reg reg' : Registry) (t : TableSettings) (x : Tracked),
      Registry.Run (.empty source root poller allowed) reg →
      (reg.register t).Returns (.ok x, reg') →
      x.reader.name = t.name ∧ x.reader.aliasName = t.aliasOrName := by
  intro hrequested
  obtain ⟨hname, -⟩ := hrequested _ _ _ _ _ _ _ _ run_crossed register_ledger
  exact absurd hname (by decide)

end Journal

end TableTail
