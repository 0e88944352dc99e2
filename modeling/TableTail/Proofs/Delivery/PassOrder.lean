import TableTail.Proofs.Delivery.Stalls
import TableTail.Proofs.Process.Interleaved
import TableTail.Proofs.Tables.Registered

/-!
# Passes in any order

The polls of a pass are interleaved in any way that the parallelism allows. Each of them keeps to
its table's part of the hall, so the order does not matter: a pass ends as when the tables are
polled one after the other in the order of their names, and each table ends as when it is the only
one (`Registry.pass_in_any_order`). The statistics sum the polls up (`PassStats.ofPolls_eq`), which
does not depend on the order in which they end, but for the order of the errors
(`PassStats.ofPolls_perm`).
-/

namespace TableTail

/-! ## Statistics -/

namespace TablePoll

/-- The records that a poll has delivered. -/
def records (poll : TablePoll) : Nat :=
  match poll.outcome with
  | .ok polled => polled.records
  | .error _ => 0

/-- Whether a poll has found more rows waiting. -/
def filled (poll : TablePoll) : Bool :=
  match poll.outcome with
  | .ok polled => polled.filled
  | .error _ => false

/-- The error of a poll that has failed. -/
def error? (poll : TablePoll) : Option String :=
  match poll.outcome with
  | .ok _ => none
  | .error fault => some ("Failed to poll '" ++ poll.aliasName ++ "': " ++ fault.message)

end TablePoll

namespace PassStats

/-- A poll counts with its records, with whether it has found more, and with its error. -/
lemma add_eq (s : PassStats) (poll : TablePoll) :
    s.add poll = ⟨s.tables + 1, s.records + poll.records, s.filled || poll.filled,
      s.errors ++ poll.error?.toList⟩ := by
  obtain ⟨aliasName, outcome⟩ := poll
  cases outcome with
  | ok polled => simp [add, TablePoll.records, TablePoll.filled, TablePoll.error?]
  | error fault => simp [add, TablePoll.records, TablePoll.filled, TablePoll.error?]

/-- Statistics sum up the polls. -/
theorem ofPolls_eq (polls : List TablePoll) :
    ofPolls polls = ⟨polls.length, (polls.map TablePoll.records).sum, polls.any TablePoll.filled,
      polls.filterMap TablePoll.error?⟩ := by
  have hall : ∀ s : PassStats, polls.foldl add s = ⟨s.tables + polls.length,
      s.records + (polls.map TablePoll.records).sum, s.filled || polls.any TablePoll.filled,
      s.errors ++ polls.filterMap TablePoll.error?⟩ := by
    induction polls with
    | nil =>
      intro s
      simp
    | cons poll rest ih =>
      intro s
      have herrors : (poll :: rest).filterMap TablePoll.error? =
          poll.error?.toList ++ rest.filterMap TablePoll.error? := by
        cases h : poll.error? with
        | none => simp [h]
        | some message => simp [h]
      rw [List.foldl_cons, ih, add_eq, herrors, List.length_cons, List.map_cons, List.sum_cons,
        List.any_cons, Nat.add_assoc, Nat.add_comm 1, Nat.add_assoc, Bool.or_assoc,
        List.append_assoc]
  rw [ofPolls, hall, empty, Nat.zero_add, Nat.zero_add, Bool.false_or, List.nil_append]

/-- The order in which polls end changes the order of the errors only. -/
theorem ofPolls_perm {polls others : List TablePoll} (h : polls.Perm others) :
    (ofPolls polls).tables = (ofPolls others).tables ∧
    (ofPolls polls).records = (ofPolls others).records ∧
    (ofPolls polls).filled = (ofPolls others).filled ∧
    (ofPolls polls).errors.Perm (ofPolls others).errors := by
  rw [ofPolls_eq, ofPolls_eq]
  exact ⟨h.length_eq, (h.map _).sum_nat, h.any_eq, h.filterMap _⟩

end PassStats

/-! ## The tables of a registry -/

namespace Registry

variable {reg reg' : Registry}

/-- The tables stay in the order of their names. -/
lemma sorted_run (h : Named.Sorted reg.tables) (hrun : Run reg reg') :
    Named.Sorted reg'.tables := by
  induction hrun with
  | refl => exact h
  | tail _ hstep ih =>
    cases hstep with
    | register t hreturns =>
      rcases register_cases hreturns with ⟨e, schemas, -, rfl⟩ | ⟨x, -, -, rfl⟩ |
        ⟨x, schemas, -, rfl, -⟩
      · exact ih
      · exact ih
      · exact Named.sorted_set ih
    | move name change => exact ih.map_values _

/-- The readers have the names of their tables. -/
lemma Consistent.names_readers (h : reg.Consistent) (hsorted : Named.Sorted reg.tables) :
    reg.readers.map (·.name) = Named.names reg.tables := by
  rw [readers, Named.values, List.map_map, List.map_map, Named.names]
  refine List.map_congr_left fun entry hentry => ?_
  exact h.own entry.1 entry.2 ((Named.get?_eq_some_iff hsorted.nodup).2 hentry)

end Registry

/-! ## The order of the polls -/

namespace Pass

variable {σ : Type}

/-- The polls of a pass, each with the name of its table. -/
def named (readers : List Reader) (p : PollerSettings) : List (String × Activity TablePoll) :=
  (readers.map (·.name)).zip (programs readers p)

/-- The polls of a pass, each of which asks in the name of its table. -/
def signed (readers : List Reader) (p : PollerSettings) :
    List (Program (String × Action) (fun q => q.2.Answer) TablePoll) :=
  (named readers p).map fun x => x.2.signed x.1

/-- A pass of which no poll has started. -/
def opening (readers : List Reader) (p : PollerSettings) :
    Pool (String × Action) (fun q => q.2.Answer) TablePoll :=
  Pool.start p.parallelism (signed readers p)

/-- The polls of a pass one after the other, in the order of the tables' names. -/
def inOrder (oracle : String → Oracle σ) (readers : List Reader) (p : PollerSettings)
    (s : Hall σ) : List TablePoll × Hall σ :=
  Program.runInOrder (Hall.answer oracle) (signed readers p) s

/-- A table's poll when it is the only one: how it ends, and what it leaves. -/
def alone (oracle : Oracle σ) (r : Reader) (p : PollerSettings) (l : Stall σ) :
    TablePoll × Stall σ :=
  let polled := (r.poll p).run (Stall.answer oracle) (fun _ l => l) l
  (⟨r.aliasName, polled.1⟩, polled.2)

/-- The polls are those of the readers. -/
lemma named_eq (readers : List Reader) (p : PollerSettings) :
    named readers p = readers.map fun r =>
      (r.name, (r.poll p).bind fun outcome => .done ⟨r.aliasName, outcome⟩) := by
  rw [named, programs, List.zip_map']
  rfl

/-- But for the names they are the polls of the pass. -/
lemma unsigned_signed (readers : List Reader) (p : PollerSettings) :
    (signed readers p).map Program.unsigned = programs readers p := by
  rw [signed, named_eq, List.map_map, List.map_map, programs]
  exact List.map_congr_left fun r _ => Program.unsigned_signed _ r.name

/-- A poll that is run on its stall ends as when it is the only one. -/
lemma ending_named (oracle : String → Oracle σ) (r : Reader) (p : PollerSettings) (l : Stall σ) :
    (Hall.sharing oracle).ending r.name
      ((r.poll p).bind fun outcome => .done (⟨r.aliasName, outcome⟩ : TablePoll)) l =
      alone (oracle r.name) r p l := by
  rw [Sharing.ending, Program.run_bind]
  rfl

section Order

variable {oracle : String → Oracle σ} {readers : List Reader} {p : PollerSettings} {reg : Registry}
  {around : String → σ}

/-- Polls keep to their stalls. -/
lemma separate_named (oracle : String → Oracle σ) (readers : List Reader) (p : PollerSettings)
    (reg : Registry) (around : String → σ) :
    ∀ x ∈ named readers p, x.2.Separate (Hall.sharing oracle) x.1
      ((Hall.opening reg around).stall x.1) := by
  rw [named_eq]
  intro x hx
  obtain ⟨r, -, rfl⟩ := List.mem_map.1 hx
  have hacts : ActsOn r.name false
      ((r.poll p).bind fun outcome => .done (⟨r.aliasName, outcome⟩ : TablePoll)) false :=
    (actsOn_poll r p).bind fun _ => rfl
  exact separate_of_actsOn hacts rfl

/-- The polls have the names of the readers. -/
lemma names_named (readers : List Reader) (p : PollerSettings) :
    (named readers p).map Prod.fst = readers.map (·.name) := by
  rw [named_eq, List.map_map]
  rfl

/-- Polls that have ended as on their stalls have ended as each of them alone. -/
lemma alone_of_ended {polls : List TablePoll} {hall : Hall σ}
    (h : (Hall.sharing oracle).Ended (named readers p) (.opening reg around) polls hall) :
    polls.Perm (readers.map fun r =>
      (alone (oracle r.name) r p ((Hall.opening reg around).stall r.name)).1) ∧
    ∀ r ∈ readers, hall.stall r.name =
      (alone (oracle r.name) r p ((Hall.opening reg around).stall r.name)).2 := by
  constructor
  · refine h.values.trans ?_
    rw [named_eq, List.map_map]
    exact .of_eq (List.map_congr_left fun r _ => congrArg Prod.fst (ending_named oracle r p _))
  · intro r hr
    have hmem : (r.name, (r.poll p).bind fun outcome => .done ⟨r.aliasName, outcome⟩) ∈
        named readers p := by
      rw [named_eq]
      exact List.mem_map_of_mem hr
    exact (h.shares _ hmem).trans (congrArg Prod.snd (ending_named oracle r p _))

/-- The polls of a pass have ended as on their stalls, in whatever way they are interleaved. -/
lemma ended_of_isOver {pool : Pool (String × Action) (fun q => q.2.Answer) TablePoll}
    {hall : Hall σ} (hdistinct : (readers.map (·.name)).Nodup)
    (hrun : Pool.Run Hall.Ready (Hall.answer oracle)
      (opening readers p, .opening reg around) (pool, hall)) (hover : pool.IsOver) :
    (Hall.sharing oracle).Ended (named readers p) (.opening reg around) pool.ended hall :=
  Pool.run_isOver (names_named readers p ▸ hdistinct)
    (separate_named oracle readers p reg around) hrun hover

/-- So they have when they are made one after the other. -/
lemma ended_inOrder (hdistinct : (readers.map (·.name)).Nodup) :
    (Hall.sharing oracle).Ended (named readers p) (.opening reg around)
      (inOrder oracle readers p (.opening reg around)).1
      (inOrder oracle readers p (.opening reg around)).2 :=
  Program.runInOrder_signed (names_named readers p ▸ hdistinct)
    (separate_named oracle readers p reg around)

/-- The order that the pool takes by itself is one of the ways. -/
theorem run_turns (hdistinct : (readers.map (·.name)).Nodup) (p : PollerSettings)
    (oracle : String → Oracle σ) (reg : Registry) (around : String → σ) (turns now : Nat) :
    Pool.Run Hall.Ready (Hall.answer oracle) (opening readers p, .opening reg around)
      (((opening readers p).fill now).runFor (Hall.answer oracle) (fun _ s => s) turns now
        (.opening reg around)).2 := by
  obtain ⟨left, hopening⟩ := Pool.Apart.opening (names_named readers p ▸ hdistinct)
    (separate_named oracle readers p reg around) p.parallelism
  have hfill := Pool.run_fill Hall.Ready (Hall.answer oracle) now (opening readers p)
    (.opening reg around)
  obtain ⟨gone, going, left', hapart⟩ := hopening.run hfill
  exact hfill.trans (hapart.runFor turns now)

/-- A pass goes on until all polls have ended, and not for ever. -/
lemma goesOn {pool : Pool (String × Action) (fun q => q.2.Answer) TablePoll} {hall : Hall σ}
    (hdistinct : (readers.map (·.name)).Nodup)
    (hrun : Pool.Run Hall.Ready (Hall.answer oracle)
      (opening readers p, .opening reg around) (pool, hall)) :
    Acc (fun y x => Pool.Step Hall.Ready (Hall.answer oracle) x y) (pool, hall) ∧
    (¬ pool.IsOver → ∃ x, Pool.Step Hall.Ready (Hall.answer oracle) (pool, hall) x) := by
  obtain ⟨left, hopening⟩ := Pool.Apart.opening (names_named readers p ▸ hdistinct)
    (separate_named oracle readers p reg around) p.parallelism
  obtain ⟨gone, going, left', hapart⟩ := hopening.run hrun
  exact ⟨hapart.acc, hapart.exists_step⟩

end Order

end Pass

namespace Registry

variable {σ : Type} {reg : Registry}

/-- A pass over any open tables, interleaved in any way. It goes on until all polls have ended, and
not for ever. Then each table has been polled once, and has ended as when it is the only one,
whatever has failed for the others; it has the cursor and the deliveries that it has when the tables
are polled one after the other in the order of their names. The statistics are those of that order,
but for the order of the errors, of which there is one for each table that has failed. -/
theorem pass_in_any_order {source : Source} {root : String} {poller : PollerSettings}
    {allowed : List String} (hreg : Run (empty source root poller allowed) reg)
    (p : PollerSettings) (oracle : String → Oracle σ) (around : String → σ)
    {pool : Pool (String × Action) (fun q => q.2.Answer) TablePoll} {hall : Hall σ}
    (hrun : Pool.Run Hall.Ready (Hall.answer oracle)
      (Pass.opening reg.readers p, Hall.opening reg around) (pool, hall)) :
    Acc (fun y x => Pool.Step Hall.Ready (Hall.answer oracle) x y) (pool, hall) ∧
    (¬ pool.IsOver → ∃ x, Pool.Step Hall.Ready (Hall.answer oracle) (pool, hall) x) ∧
    (pool.IsOver →
      let alone := fun r : Reader =>
        Pass.alone (oracle r.name) r p ((Hall.opening reg around).stall r.name)
      let inOrder := Pass.inOrder oracle reg.readers p (Hall.opening reg around)
      reg.readers.map (·.name) = Named.names reg.tables ∧ Named.Sorted reg.tables ∧
      pool.ended.Perm (reg.readers.map fun r => (alone r).1) ∧
      (∀ r ∈ reg.readers, hall.stall r.name = (alone r).2) ∧
      (∀ table, Named.get? table hall.registry.tables =
          Named.get? table inOrder.2.registry.tables ∧
        Hall.takenOf table hall.taken = Hall.takenOf table inOrder.2.taken) ∧
      (PassStats.ofPolls pool.ended).tables = (PassStats.ofPolls inOrder.1).tables ∧
      (PassStats.ofPolls pool.ended).records = (PassStats.ofPolls inOrder.1).records ∧
      (PassStats.ofPolls pool.ended).filled = (PassStats.ofPolls inOrder.1).filled ∧
      (PassStats.ofPolls pool.ended).errors.Perm (PassStats.ofPolls inOrder.1).errors ∧
      (PassStats.ofPolls pool.ended).errors.Perm
        (reg.readers.filterMap fun r => (alone r).1.error?)) := by
  obtain ⟨hconsistent, -⟩ := (consistent_empty source root poller allowed).run hreg
  have hnone : Named.Sorted (empty source root poller allowed).tables := List.Pairwise.nil
  have hsorted : Named.Sorted reg.tables := sorted_run hnone hreg
  have hnames := hconsistent.names_readers hsorted
  have hdistinct : (reg.readers.map (·.name)).Nodup := hnames ▸ hsorted.nodup
  obtain ⟨hacc, hstep⟩ := Pass.goesOn hdistinct hrun
  refine ⟨hacc, hstep, fun hover => ?_⟩
  have hended := Pass.ended_of_isOver hdistinct hrun hover
  obtain ⟨hpolls, hstalls⟩ := hended.agree (Pass.ended_inOrder hdistinct)
  obtain ⟨halone, halones⟩ := Pass.alone_of_ended hended
  obtain ⟨htables, hrecords, hfilled, herrors⟩ := PassStats.ofPolls_perm hpolls
  refine ⟨hnames, hsorted, halone, halones, fun table => ?_, htables, hrecords, hfilled,
    herrors, ?_⟩
  · have hstall : hall.stall table = Hall.stall _ table := hstalls table
    exact ⟨congrArg Stall.tracked hstall, congrArg Stall.taken hstall⟩
  · obtain ⟨-, -, -, hfailed⟩ := PassStats.ofPolls_perm halone
    rw [PassStats.ofPolls_eq (reg.readers.map _), List.filterMap_map] at hfailed
    exact hfailed

end Registry

namespace Journal

/-- Surroundings in which one table cannot be read, and the other one has a row. -/
def halfBroken (table : String) : Oracle Unit
  | .describe _, around => (.ok none, around)
  | .query _, around =>
    (if table = "journal" then .error .refused else .ok [⟨["id"], [.integer 7]⟩], around)
  | .load _, around => (.ok none, around)
  | .save _ _, around => (.ok (), around)
  | .exchange _ _, around => ((default : Cursor), around)
  | .enter _, around => ((), around)
  | .leave _, around => ((), around)
  | .emit _, around => (.ok (), around)
  | .clock, around => ((0 : Nat), around)

/-- What is left of a pass over the two tables when it has run by itself. -/
def halfBrokenPass :
    Pool (String × Action) (fun q => q.2.Answer) TablePoll × Hall Unit :=
  (((Pass.opening crossedRegistry.readers .standard).fill 0).runFor (Hall.answer halfBroken)
    (fun _ s => s) 2 0 (.opening crossedRegistry fun _ => ())).2

/-- The journal's read fails, and the ledger is read and delivered all the same. -/
theorem pass_half_broken :
    Pool.Run Hall.Ready (Hall.answer halfBroken)
      (Pass.opening crossedRegistry.readers .standard, .opening crossedRegistry fun _ => ())
      halfBrokenPass ∧
    halfBrokenPass.1.IsOver ∧
    (PassStats.ofPolls halfBrokenPass.1.ended).tables = 2 ∧
    (PassStats.ofPolls halfBrokenPass.1.ended).records = 1 ∧
    (PassStats.ofPolls halfBrokenPass.1.ended).errors.length = 1 ∧
    (Named.get? "ledger" halfBrokenPass.2.registry.tables).map (·.cursor) =
      some (.single (.integer 7) none) ∧
    (Hall.takenOf "ledger" halfBrokenPass.2.taken).length = 1 := by
  have hdistinct : (crossedRegistry.readers.map (·.name)).Nodup := by decide
  have hrun := Pass.run_turns hdistinct .standard halfBroken crossedRegistry (fun _ => ()) 2 0
  have hover : halfBrokenPass.1.IsOver := ⟨rfl, rfl⟩
  obtain ⟨-, -, hended⟩ := Registry.pass_in_any_order run_crossed .standard halfBroken
    (fun _ => ()) hrun
  obtain ⟨-, -, -, -, htables, hcount, hrecords, -, -, herrors⟩ := hended hover
  obtain ⟨hledger, htaken⟩ := htables "ledger"
  refine ⟨hrun, hover, hcount.trans rfl, hrecords.trans rfl, herrors.length_eq.trans rfl, ?_, ?_⟩
  · exact (congrArg (Option.map (·.cursor)) hledger).trans rfl
  · exact (congrArg List.length htaken).trans rfl

end Journal

end TableTail
