import TableTail.Proofs.Tail.SideBySide

/-!
# The order of calls

Calls that run side by side are put in the order of their first looks at the cursor, or changes of
it (`Calls.order`). Checkpoints, which only look, have no place. Such an order agrees with what
happened (`Calls.Ordered`) as long as what begins has no place yet and what is complete has one
(`Calls.Ordered.concat`).
-/

namespace TableTail

/-- Whether a call may change the cursor. -/
def Call.updates : Call → Bool
  | checkpoint => false
  | _ => true

namespace CallEvent

/-- The call that goes inside. -/
def entered? : CallEvent → Option Nat
  | entered i => some i
  | _ => none

/-- The call that looks at the cursor or changes it. Checkpoints, which only look, do not count. -/
def turned? : CallEvent → Option Nat
  | turned i call => if call.updates then some i else none
  | _ => none

/-- The call that begins to have an effect: a read or a rollback when it goes inside, a discovery
when it changes the cursor. -/
def begun? : CallEvent → Option Nat
  | entered i => some i
  | turned i .discover => some i
  | _ => none

/-- The call whose effect is complete: that of a read or a rollback when it comes out again, that of
a discovery when it has changed the cursor. -/
def ended? : CallEvent → Option Nat
  | left i => some i
  | turned i .discover => some i
  | _ => none

/-- What a call that goes inside does to the cursor counts. -/
lemma turned?_of_goesInside {call : Call} (h : call.goesInside = true) (i : Nat) :
    (turned i call).turned? = some i := by
  cases call <;> first | rfl | cases h

/-- A call that goes inside begins then, and not with a look. -/
lemma begun?_of_goesInside {call : Call} (h : call.goesInside = true) (i : Nat) :
    (turned i call).begun? = none := by
  cases call <;> first | rfl | cases h

/-- The effect of a call that goes inside is complete when it comes out. -/
lemma ended?_of_goesInside {call : Call} (h : call.goesInside = true) (i : Nat) :
    (turned i call).ended? = none := by
  cases call <;> first | rfl | cases h

end CallEvent

namespace Calls

variable {log : List CallEvent} {e : CallEvent} {i : Nat}

/-- The calls that went inside, in this order. -/
def entries (log : List CallEvent) : List Nat := log.filterMap CallEvent.entered?

/-- An event puts its call behind the others, unless it has a place already. -/
def place (order : List Nat) (e : CallEvent) : List Nat :=
  match e.turned? with
  | some i => if i ∈ order then order else order ++ [i]
  | none => order

/-- The calls in the order in which they first looked at the cursor or changed it. -/
def order (log : List CallEvent) : List Nat := log.foldl place []

/-- An order that calls side by side agree with: each has one place, and a call whose effect was
complete before that of another one began stands before it. -/
structure Ordered (log : List CallEvent) (order : List Nat) : Prop where
  nodup : order.Nodup
  ended : ∀ {e i}, e ∈ log → e.ended? = some i → i ∈ order
  before : ∀ {e e' i j}, [e, e'].Sublist log → e.ended? = some i → e'.begun? = some j → j ∈ order →
    [i, j].Sublist order

/-- An event puts its call behind the others, or nothing changes. -/
lemma order_concat (log : List CallEvent) (e : CallEvent) :
    order (log ++ [e]) = place (order log) e := by
  rw [order, List.foldl_append]
  rfl

/-- A call that has no place yet gets the last one. -/
lemma order_concat_of_turned (h : e.turned? = some i) (hnew : i ∉ order log) :
    order (log ++ [e]) = order log ++ [i] := by
  simp only [order_concat, place, h, if_neg hnew]

/-- A call keeps its place. -/
lemma order_concat_of_mem (h : e.turned? = some i) (hold : i ∈ order log) :
    order (log ++ [e]) = order log := by
  simp only [order_concat, place, h, if_pos hold]

/-- Other events change no places. -/
lemma order_concat_of_none (h : e.turned? = none) : order (log ++ [e]) = order log := by
  simp only [order_concat, place, h]

/-- Calls with a place are those that had one, and the one with the new event. -/
lemma mem_order_concat : i ∈ order (log ++ [e]) ↔ i ∈ order log ∨ e.turned? = some i := by
  rw [order_concat, place]
  cases e.turned? with
  | none => simp
  | some j =>
    dsimp only
    split
    · next hold => exact ⟨.inl, fun h => h.elim id fun h => Option.some.inj h ▸ hold⟩
    · simp [eq_comm]

/-- Places are kept when something happens. -/
lemma prefix_order_concat (log : List CallEvent) (e : CallEvent) :
    order log <+: order (log ++ [e]) := by
  rw [order_concat, place]
  cases e.turned? with
  | none => exact List.prefix_refl _
  | some j =>
    dsimp only
    split
    · exact List.prefix_refl _
    · exact List.prefix_append _ _

/-- The calls with a place are those that looked at the cursor or changed it. -/
lemma mem_order : i ∈ order log ↔ ∃ e ∈ log, e.turned? = some i := by
  induction log using List.reverseRecOn with
  | nil => simp [order]
  | append_singleton log e ih => simp [mem_order_concat, ih, or_and_right, exists_or]

/-- The calls that went inside are those before, and the one that does now. -/
lemma entries_concat (log : List CallEvent) (e : CallEvent) :
    entries (log ++ [e]) = entries log ++ e.entered?.toList := by
  rw [entries, List.filterMap_append, ← entries]
  cases h : e.entered? <;> simp [h]

/-- Other events let nobody inside. -/
lemma entries_concat_of_none (h : e.entered? = none) : entries (log ++ [e]) = entries log := by
  rw [entries_concat, h]
  exact List.append_nil _

/-- The order still agrees after an event: what begins has no place yet, what is complete has one. -/
theorem Ordered.concat (h : Ordered log (order log))
    (hbegun : ∀ j, e.begun? = some j → j ∉ order log)
    (hended : ∀ i, e.ended? = some i → i ∈ order (log ++ [e])) :
    Ordered (log ++ [e]) (order (log ++ [e])) := by
  have hsub := (prefix_order_concat log e).sublist
  refine ⟨?_, fun {e₁ i} he₁ hi => ?_, fun {e₁ e₂ i j} hpair hi hj hmem => ?_⟩
  · rw [order_concat, place]
    split
    · split
      · exact h.nodup
      · next hnew => exact List.concat_eq_append ▸ h.nodup.concat hnew
    · exact h.nodup
  · rcases List.mem_append.1 he₁ with hold | hlast
    · exact hsub.subset (h.ended hold hi)
    · obtain rfl := List.mem_singleton.1 hlast
      exact hended i hi
  · obtain ⟨hfirst, hold⟩ : e₁ ∈ log ∧ ([e₁, e₂].Sublist log ∨ e₂ = e) := by
      obtain ⟨before, last, heq, hbefore, hlast⟩ := List.sublist_append_iff.1 hpair
      rcases List.sublist_singleton.1 hlast with rfl | rfl
      · rw [List.append_nil] at heq
        rw [← heq] at hbefore
        exact ⟨hbefore.subset List.mem_cons_self, .inl hbefore⟩
      · obtain ⟨rfl, he⟩ := List.append_inj' (show [e₁] ++ [e₂] = before ++ [e] from heq) rfl
        exact ⟨hbefore.subset List.mem_cons_self, .inr (List.singleton_inj.1 he)⟩
    by_cases hplaced : j ∈ order log
    · rcases hold with hold | rfl
      · exact (h.before hold hi hj hplaced).trans hsub
      · exact absurd hplaced (hbegun j hj)
    · -- The second call gets its place now, behind the first one.
      have hturned := (mem_order_concat.1 hmem).resolve_left hplaced
      rw [order_concat_of_turned hturned hplaced]
      exact (List.singleton_sublist.2 (h.ended hfirst hi)).append (List.Sublist.refl [j])

end Calls

end TableTail
