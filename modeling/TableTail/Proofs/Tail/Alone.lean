import TableTail.Proofs.Process.Ensures
import TableTail.Proofs.Tail.SideBySide

/-!
# Calls one after another

A call that runs alone has the cursor for itself (`Reader.alone`); what its queries are answered is
written down. Two kinds of programs get along with each other:

* inside a table, from its first look on, a program only looks at slots that were there then and
  only changes these (`KeepsTo`);
* a discovery queries, and adds what it found behind all slots (`Searches`).

So a discovery that runs while another call is inside may as well run after it: it adds the same
identities, and answers the same (`Searches.alone`, `Calls.Serial.searching`).
-/

namespace TableTail

/-- What an action of a call that runs alone may be answered, and what it leaves. -/
def Reader.alone (r : Reader) (s : Cursor × List Asked) :
    (q : Action) → q.Answer → Cursor × List Asked → Prop
  | .query q, answer, s' => s' = (s.1, s.2 ++ [((q, answer) : Asked)])
  | .exchange table change, before, s' => table = r.name ∧ s.1 = before ∧ s' = (change s.1, s.2)
  | .enter table, _, s' => table = r.name ∧ s' = s
  | .leave table, _, s' => table = r.name ∧ s' = s
  | _, _, _ => False

/-- A change of the first slots of a cursor: it does not matter whether identities are added behind
them before or after. -/
structure Cursor.Within (n : Nat) (change : Cursor → Cursor) : Prop where
  size : ∀ c, (change c).partitions.size = c.partitions.size
  adopt : ∀ {c}, n ≤ c.partitions.size → ∀ kind rows,
    change (c.adopt kind rows) = (change c).adopt kind rows

/-- A program that looks at the first slots of a cursor only, and changes these only. -/
def KeepsTo {α : Type} (r : Reader) (n : Nat) : Activity α → Prop
  | .done _ => True
  | .ask (.query _) next => ∀ answer, KeepsTo r n (next answer)
  | .ask (.exchange table change) next => table = r.name ∧ Cursor.Within n change ∧
      (∀ c, n ≤ c.partitions.size → ∀ kind rows, next (c.adopt kind rows) = next c) ∧
      ∀ c, KeepsTo r n (next c)
  | _ => False

/-- A program that begins with a look or a change, and keeps to the slots that there are then. -/
def Opens {α : Type} (r : Reader) (p : Activity α) : Prop :=
  ∃ change next, p = .ask (.exchange r.name change) next ∧
    ∀ c, KeepsTo r (change c).partitions.size (next c)

/-- A program that adds what it found by queries, and then is done. -/
def Searches (r : Reader) : Activity Reply → Prop
  | .done _ => True
  | .ask (.query _) next => ∀ answer, Searches r (next answer)
  | .ask (.exchange table change) next => table = r.name ∧ ∃ kind rows,
      change = Cursor.adopt kind rows ∧ next = fun c => .done (.found (.ok
        ((c.adopt kind rows).partitions.size - c.partitions.size)))
  | _ => False

section Inside

variable {α β : Type} {r : Reader} {n limit now : Nat}

/-- Looking changes nothing. -/
lemma Cursor.within_id : Cursor.Within n id := ⟨fun _ => rfl, fun _ _ _ => rfl⟩

/-- Moving one of the first slots. -/
lemma Cursor.within_moveSlot {slot : Nat} (h : slot < n) (last : Option Mark) (now : Nat) :
    Cursor.Within n (Reader.moveSlot slot last now) :=
  ⟨size_moveSlot slot last now, fun hn _ _ => adopt_moveSlot (h.trans_le hn) last now⟩

/-- Moving a single mark. -/
lemma Cursor.within_moveSingle (last : Option Mark) (now : Nat) :
    Cursor.Within n (Reader.moveSingle last now) :=
  ⟨size_moveSingle last now, fun _ _ _ => adopt_moveSingle last now⟩

/-- A look that shows the same whatever is behind the slots. -/
lemma KeepsTo.look {f : Cursor → Activity α}
    (hf : ∀ c, n ≤ c.partitions.size → ∀ kind rows, f (c.adopt kind rows) = f c)
    (h : ∀ c, KeepsTo r n (f c)) : KeepsTo r n ((Activity.look r.name).bind f) :=
  ⟨rfl, Cursor.within_id, hf, h⟩

/-- A query. -/
lemma KeepsTo.query {f : Except DatabaseError (List Sql.Row) → Activity α}
    (h : ∀ answer, KeepsTo r n (f answer)) (q : Sql.Query) :
    KeepsTo r n ((Activity.query q).bind f) := h

/-- A change of the slots. -/
lemma KeepsTo.exchange {change : Cursor → Cursor} (hchange : Cursor.Within n change)
    {p : Activity α} (h : KeepsTo r n p) :
    KeepsTo r n ((Activity.exchange r.name change).bind fun _ => p) :=
  ⟨rfl, hchange, fun _ _ _ _ => rfl, fun _ => h⟩

/-- A program keeps to its slots whatever its value is turned into. -/
lemma KeepsTo.map {p : Activity α} (h : KeepsTo r n p) (f : α → β) :
    KeepsTo r n (p.bind fun a => .done (f a)) := by
  induction p with
  | done a => trivial
  | ask q next ih =>
    cases q with
    | query q => exact fun answer => ih answer (h answer)
    | exchange table change =>
      obtain ⟨htable, hwithin, hlook, hnext⟩ := h
      exact ⟨htable, hwithin,
        fun c hc kind rows => congrArg (Program.bind · _) (hlook c hc kind rows),
        fun c => ih c (hnext c)⟩
    | _ => exact h
  | pause ms next ih => exact h

/-- Reading slots keeps to these slots. -/
lemma keepsTo_readSlots (r : Reader) {n count slot : Nat} (h : slot + count ≤ n) (b : Batch) :
    KeepsTo r n (r.readSlots limit now count slot b) := by
  induction count generalizing slot b with
  | zero => trivial
  | succ count ih =>
    have hslot : slot < n := by omega
    have hrest : ∀ b, KeepsTo r n (r.readSlots limit now count (slot + 1) b) :=
      ih (by omega)
    refine KeepsTo.look (fun c hc kind rows => ?_) fun c => ?_
    · rw [Cursor.slot?_adopt (hslot.trans_le hc)]
    · split
      · exact hrest _
      · split
        · refine KeepsTo.query (fun answer => ?_) _
          split
          · trivial
          · exact KeepsTo.exchange (Cursor.within_moveSlot hslot _ _) (hrest _)
        · exact hrest _

/-- A program that begins with a look or a change. -/
lemma Opens.exchange {change : Cursor → Cursor} {f : Cursor → Activity α}
    (h : ∀ c, KeepsTo r (change c).partitions.size (f c)) :
    Opens r ((Activity.exchange r.name change).bind f) :=
  ⟨change, f, rfl, h⟩

/-- Reading all slots begins with counting them. -/
lemma opens_readPartitions (r : Reader) : Opens r (r.readPartitions limit now) :=
  Opens.exchange fun _ => keepsTo_readSlots r (Nat.zero_add _).le _

/-- Reading the rows past a single mark begins with looking at it. -/
lemma opens_readSingle (r : Reader) : Opens r (r.readSingle limit now) := by
  refine Opens.exchange fun c => ?_
  split
  · trivial
  · split
    · refine KeepsTo.query (fun answer => ?_) _
      split
      · trivial
      · exact KeepsTo.exchange (Cursor.within_moveSingle _ _) trivial
    · trivial

/-- A program begins in the same way whatever its value is turned into. -/
lemma Opens.map {p : Activity α} (h : Opens r p) (f : α → β) :
    Opens r (p.bind fun a => .done (f a)) := by
  obtain ⟨change, next, rfl, hnext⟩ := h
  exact ⟨change, _, rfl, fun c => (hnext c).map f⟩

/-- A program that leaves the table at its end. -/
def Reader.closing (r : Reader) (p : Activity Reply) : Activity Reply :=
  p.bind fun reply => .ask (.leave r.name) fun _ => .done reply

/-- A program inside a table goes inside, and leaves it at its end. -/
lemma inside_map (p : Activity α) (f : α → Reply) :
    (Activity.inside r.name p).bind (fun a => .done (f a)) =
      .ask (.enter r.name) fun _ => r.closing (p.bind fun a => .done (f a)) := by
  have hleave : (p.bind fun a => .ask (.leave r.name) fun _ => .done a).bind
      (fun a => (.done (f a) : Activity Reply)) = r.closing (p.bind fun a => .done (f a)) := by
    rw [Reader.closing, Program.bind_assoc, Program.bind_assoc]
    rfl
  exact congrArg (Program.ask (Action.enter r.name)) (funext fun _ => hleave)

/-- A call that goes inside does so at once. -/
lemma call_of_goesInside {call : Call} (h : call.goesInside = true) :
    ∃ p, r.call call = .ask (.enter r.name) (fun _ => r.closing p) ∧ Opens r p := by
  cases call with
  | read limit now =>
    refine ⟨_, inside_map _ _, Opens.map ?_ _⟩
    split
    · exact opens_readPartitions r
    · exact opens_readSingle r
  | rollback b => exact ⟨_, inside_map _ _, Opens.map ⟨_, fun _ => .done (), rfl, fun _ => trivial⟩ _⟩
  | discover => cases h
  | checkpoint => cases h

/-- A query of a discovery. -/
lemma Searches.query {f : Except DatabaseError (List Sql.Row) → Activity Reply}
    (h : ∀ answer, Searches r (f answer)) (q : Sql.Query) :
    Searches r ((Activity.query q).bind f) := h

/-- A discovery queries, and adds what it found. -/
lemma searches_discover (r : Reader) : Searches r (r.call .discover) := by
  rw [Reader.call, Reader.discover]
  split
  · trivial
  · split
    · split
      · trivial
      · refine Searches.query (fun answer => ?_) _
        cases answer with
        | error e => trivial
        | ok rows => exact ⟨rfl, r.kind, rows, rfl, rfl⟩
    · trivial

end Inside

section Alone

variable {r : Reader} {p : Activity Reply} {c c' : Cursor} {asked asked' : List Asked}
  {reply : Reply}

/-- A program that is done acts no more. -/
lemma eq_of_acts_done {x : Activity Reply × (Cursor × List Asked)} {s : Cursor × List Asked}
    (h : Program.Acts r.alone (.done reply, s) x) : x = (.done reply, s) := by
  obtain rfl | ⟨y, hstep, -⟩ := h.cases_head
  · rfl
  · cases hstep

/-- A program that runs alone to its end begins with an answer to its question. -/
lemma acts_ask {q : Action} {next : q.Answer → Activity Reply} {s s' : Cursor × List Asked}
    (h : Program.Acts r.alone (.ask q next, s) (.done reply, s')) :
    ∃ a s₁, r.alone s q a s₁ ∧ Program.Acts r.alone (next a, s₁) (.done reply, s') := by
  obtain heq | ⟨y, hstep, hrest⟩ := h.cases_head
  · cases heq
  · obtain ⟨p₁, s₁⟩ := y
    cases hstep with
    | ask ha => exact ⟨_, s₁, ha, hrest⟩

/-- A discovery adds identities, or does nothing; and it adds the same and answers the same after
the slots before them have been changed. -/
theorem Searches.alone (hp : Searches r p)
    (h : Program.Acts r.alone (p, (c, asked)) (.done reply, (c', asked'))) :
    (c' = c ∨ ∃ kind rows, c' = c.adopt kind rows) ∧
      ∀ {n change}, Cursor.Within n change → n ≤ c.partitions.size →
        Program.Acts r.alone (p, (change c, asked)) (.done reply, (change c', asked')) := by
  induction p generalizing asked with
  | done v =>
    obtain ⟨rfl, rfl, rfl⟩ : reply = v ∧ c' = c ∧ asked' = asked := by
      simpa using eq_of_acts_done h
    exact ⟨.inl rfl, fun _ _ => .refl⟩
  | ask q next ih =>
    obtain ⟨a, s₁, ha, hrest⟩ := acts_ask h
    cases q with
    | query q =>
      obtain rfl := ha
      obtain ⟨hcursor, hmoved⟩ := ih a (hp a) hrest
      exact ⟨hcursor, fun hwithin hn => .head (.ask rfl) (hmoved hwithin hn)⟩
    | exchange table change =>
      obtain ⟨-, kind, rows, rfl, rfl⟩ := hp
      obtain ⟨htable, rfl, rfl⟩ := ha
      have hended := eq_of_acts_done hrest
      simp only [Prod.mk.injEq, Program.done.injEq] at hended
      obtain ⟨hreply, rfl, rfl⟩ := hended
      refine ⟨.inr ⟨kind, rows, rfl⟩, fun {n change} hwithin hn => .single ?_⟩
      -- The number of identities that are found depends on the numbers of slots only.
      rw [hreply, hwithin.adopt hn, ← hwithin.size c, ← hwithin.size (c.adopt kind rows),
        hwithin.adopt hn]
      exact .ask ⟨htable, rfl, rfl⟩
    | _ => exact hp.elim
  | pause ms next ih => exact hp.elim

end Alone

namespace Calls

variable {r : Reader} {calls : List Underway} {order order' : List Nat} {c c' c'' : Cursor}
  {i : Nat} {u v : Underway}

/-- A call that has ended does the same when it runs alone on one cursor, and leaves another one:
its queries are answered as they were, and it returns what it returned. -/
def RunsAlone (r : Reader) (calls : List Underway) (i : Nat) (c c' : Cursor) : Prop :=
  ∃ u reply, calls[i]? = some u ∧ u.left = .done reply ∧
    Program.Acts r.alone (r.call u.call, (c, [])) (.done reply, (c', u.asked))

/-- Calls that have ended do the same when they run one after another. -/
def Serial (r : Reader) (calls : List Underway) : List Nat → Cursor → Cursor → Prop
  | [], c, c' => c = c'
  | i :: rest, c, c'' => ∃ c', RunsAlone r calls i c c' ∧ Serial r calls rest c' c''

/-- First some calls, then others. -/
lemma serial_append :
    Serial r calls (order ++ order') c c'' ↔
      ∃ c', Serial r calls order c c' ∧ Serial r calls order' c' c'' := by
  induction order generalizing c with
  | nil => simp [Serial]
  | cons i rest ih =>
    simp only [List.cons_append, Serial, ih]
    exact ⟨fun ⟨c₁, h₁, c₂, h₂, h₃⟩ => ⟨c₂, ⟨c₁, h₁, h₂⟩, h₃⟩,
      fun ⟨c₂, ⟨c₁, h₁, h₂⟩, h₃⟩ => ⟨c₁, h₁, c₂, h₂, h₃⟩⟩

/-- One more call. -/
lemma Serial.concat (h : Serial r calls order c c') (hlast : RunsAlone r calls i c' c'') :
    Serial r calls (order ++ [i]) c c'' :=
  serial_append.2 ⟨c', h, c'', hlast, rfl⟩

/-- Calls that have ended are not changed by one that is still under way. -/
lemma Serial.set (h : Serial r calls order c c') (hcall : calls[i]? = some u)
    (hleft : ∀ reply, u.left ≠ .done reply) (v : Underway) :
    Serial r (calls.set i v) order c c' := by
  induction order generalizing c with
  | nil => exact h
  | cons j rest ih =>
    obtain ⟨c₁, ⟨w, reply, hw, hended, halone⟩, hrest⟩ := h
    have hne : i ≠ j := by
      rintro rfl
      obtain rfl := Option.some.inj (hcall.symm.trans hw)
      exact hleft reply hended
    exact ⟨c₁, ⟨w, reply, (List.getElem?_set_ne hne).trans hw, hended, halone⟩, ih hrest⟩

/-- Discoveries one after another leave the slots before them as they were for whoever looks at
them, and do the same after these slots have been changed. -/
theorem Serial.searching (h : Serial r calls order c c')
    (horder : ∀ i ∈ order, ∃ u, calls[i]? = some u ∧ u.call = .discover) {n : Nat}
    (hn : n ≤ c.partitions.size) :
    (∀ {β : Type} {f : Cursor → β}, (∀ d, n ≤ d.partitions.size → ∀ kind rows,
        f (d.adopt kind rows) = f d) → f c' = f c) ∧
      ∀ {change}, Cursor.Within n change → Serial r calls order (change c) (change c') := by
  induction order generalizing c with
  | nil =>
    obtain rfl := h
    exact ⟨fun _ => rfl, fun _ => rfl⟩
  | cons i rest ih =>
    obtain ⟨c₁, ⟨u, reply, hu, hended, halone⟩, hrest⟩ := h
    obtain ⟨v, hv, hcall⟩ := horder i List.mem_cons_self
    obtain rfl := Option.some.inj (hu.symm.trans hv)
    have hsearches : Searches r (r.call u.call) := hcall ▸ searches_discover r
    obtain ⟨hcursor, hmoved⟩ := hsearches.alone halone
    have hn₁ : n ≤ c₁.partitions.size := by
      rcases hcursor with rfl | ⟨kind, rows, rfl⟩
      · exact hn
      · exact hn.trans (c.size_le_adopt kind rows)
    obtain ⟨hlook, hchange⟩ := ih hrest (fun j hj => horder j (List.mem_cons_of_mem i hj)) hn₁
    refine ⟨fun {β f} hf => (hlook hf).trans ?_, fun hwithin =>
      ⟨_, ⟨u, reply, hu, hended, hmoved hwithin hn⟩, hchange hwithin⟩⟩
    rcases hcursor with rfl | ⟨kind, rows, rfl⟩
    · rfl
    · exact hf c hn kind rows

end Calls

end TableTail
