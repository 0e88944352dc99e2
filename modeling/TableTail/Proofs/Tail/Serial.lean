import TableTail.Proofs.Tail.Alone
import TableTail.Proofs.Tail.CallOrder

/-!
# No update is lost

Calls of one table that run side by side do what they do one after another (`Calls.Serial`). Their
order is that of their first looks at the cursor, or changes of it (`Calls.order`): so reads and
rollbacks come in the order in which they went inside, and a discovery comes between those that had
come out before it changed the cursor and those that went inside after it (`Calls.Ordered`).

While a call is inside, the discoveries that have come since its first look wait behind it in the
order (`Calls.Phase.settled`): its further changes may be made before theirs.
-/

namespace TableTail

namespace Calls

variable {r : Reader} {c : Cursor} {s s' : Calls} {log : List CallEvent} {e : CallEvent}
  {i j k : Nat} {u v : Underway}

/-- A call that is inside: it will leave at its end, and it is the last one that went inside. -/
structure Inside (r : Reader) (s : Calls) (k : Nat) (u : Underway) (p : Activity Reply)
    (earlier : List Nat) : Prop where
  inside : s.inside = some k
  call : s.calls[k]? = some u
  goes : u.call.goesInside = true
  left : u.left = r.closing p
  entries : entries s.log = earlier ++ [k]

/-- What has become of the cursor that the calls began with: all calls with a place have ended, and
they lead to the cursor one after another, except for the one that is inside. Before its first look
it has no place; after it, the calls before it lead to the cursor that it began with, it has come to
another one alone, and from there the discoveries behind it lead to the cursor. -/
inductive Phase (r : Reader) (c : Cursor) (s : Calls) : Prop
  | free (hinside : s.inside = none) (hserial : Serial r s.calls (order s.log) c s.cursor)
      (hentries : (entries s.log).Sublist (order s.log))
  | opened {k : Nat} {u : Underway} {p : Activity Reply} {earlier : List Nat}
      (hinside : Inside r s k u p earlier) (hopens : Opens r p) (hnew : k ∉ order s.log)
      (halone : ∀ c, Program.Acts r.alone (r.call u.call, (c, [])) (u.left, (c, u.asked)))
      (hserial : Serial r s.calls (order s.log) c s.cursor)
      (hentries : earlier.Sublist (order s.log))
  | settled {k n : Nat} {u : Underway} {p : Activity Reply} {earlier before after : List Nat}
      {began reached : Cursor} (hinside : Inside r s k u p earlier) (hsettled : KeepsTo r n p)
      (hslots : n ≤ reached.partitions.size) (horder : order s.log = before ++ k :: after)
      (hbefore : Serial r s.calls before c began)
      (halone : Program.Acts r.alone (r.call u.call, (began, [])) (u.left, (reached, u.asked)))
      (hafter : Serial r s.calls after reached s.cursor)
      (hfound : ∀ i ∈ after, ∃ u, s.calls[i]? = some u ∧ u.call = .discover)
      (hentries : earlier.Sublist before)

/-- A call that is not inside: it has not gone inside yet, it is a discovery that has not changed the
cursor yet, or a checkpoint that has not looked at it, or it has ended. -/
inductive Outside (r : Reader) (log : List CallEvent) (i : Nat) (u : Underway) : Prop
  | waiting (hgoes : u.call.goesInside = true) (hleft : u.left = r.call u.call)
      (hasked : u.asked = []) (hnew : i ∉ order log)
  | searching (hcall : u.call = .discover) (hsearches : Searches r u.left)
      (halone : ∀ c, Program.Acts r.alone (r.call u.call, (c, [])) (u.left, (c, u.asked)))
      (hnew : i ∉ order log)
  | looking (hcall : u.call = .checkpoint) (hleft : u.left = r.call .checkpoint)
  | ended {reply : Reply} (hleft : u.left = .done reply)
      (hentered : u.call.goesInside = true → i ∈ entries log)

/-- What holds of calls at all times. -/
structure Invariant (r : Reader) (c : Cursor) (s : Calls) : Prop where
  phase : Phase r c s
  outside : ∀ {i u}, s.calls[i]? = some u → s.inside ≠ some i → Outside r s.log i u
  ordered : Ordered s.log (order s.log)

section Acting

/-- A call that goes inside has a program to go through there. -/
lemma left_of_goesInside (hgoes : u.call.goesInside = true) (hleft : u.left = r.call u.call) :
    ∃ p, u.left = .ask (.enter r.name) (fun _ => r.closing p) ∧ Opens r p := by
  rw [hleft]
  exact call_of_goesInside hgoes

/-- A program that leaves at its end asks its own questions before. -/
lemma closing_eq_ask {p : Activity Reply} {q : Action} {next : q.Answer → Activity Reply}
    (h : r.closing p = .ask q next) :
    (∃ reply, p = .done reply ∧
      Program.ask q next = .ask (.leave r.name) fun _ => Program.done reply) ∨
    ∃ next', p = .ask q next' ∧ next = fun a => r.closing (next' a) := by
  cases p with
  | done reply => exact .inl ⟨reply, rfl, h.symm⟩
  | ask q' next' =>
    cases h
    exact .inr ⟨next', rfl, rfl⟩
  | pause ms next' => cases h

/-- A program that leaves at its end is not done. -/
lemma closing_ne_done (p : Activity Reply) (reply : Reply) : r.closing p ≠ .done reply := by
  cases p <;> nofun

/-- A call outside is still there when something else has happened. -/
lemma Outside.concat (h : Outside r log i u) (hother : e.turned? ≠ some i) :
    Outside r (log ++ [e]) i u := by
  have hstill : i ∉ order log → i ∉ order (log ++ [e]) := fun hnew hmem =>
    (mem_order_concat.1 hmem).elim hnew hother
  cases h with
  | waiting hgoes hleft hasked hnew => exact .waiting hgoes hleft hasked (hstill hnew)
  | searching hcall hsearches halone hnew => exact .searching hcall hsearches halone (hstill hnew)
  | looking hcall hleft => exact .looking hcall hleft
  | ended hleft hentered =>
    refine .ended hleft fun hgoes => ?_
    rw [entries_concat]
    exact List.mem_append_left _ (hentered hgoes)

/-- A call that acts is not one of those that have ended. -/
lemma ne_done_of_ask {q : Action} {next : q.Answer → Activity Reply}
    (hleft : u.left = .ask q next) (reply : Reply) : u.left ≠ .done reply := by
  rw [hleft]
  nofun

/-- The call that acts is found as it is now. -/
lemma getElem?_set_of_some {calls : List Underway} (hcall : calls[i]? = some u) (v : Underway) :
    (calls.set i v)[i]? = some v := by
  rw [List.getElem?_set_self', hcall]
  rfl

/-- There is one call inside. -/
lemma Inside.eq {p : Activity Reply} {earlier : List Nat} (h : Inside r s k u p earlier)
    (hin : s.inside = some i) (hcall : s.calls[i]? = some v) : i = k ∧ v = u := by
  obtain rfl := Option.some.inj (hin.symm.trans h.inside)
  exact ⟨rfl, Option.some.inj (hcall.symm.trans h.call)⟩

/-- The call inside is still inside after an action. -/
lemma Inside.goesOn {p p' : Activity Reply} {earlier : List Nat} (h : Inside r s k u p earlier)
    {cursor : Cursor} {log : List CallEvent} (hcall : v.call = u.call)
    (hleft : v.left = r.closing p') (hlog : Calls.entries log = Calls.entries s.log) :
    Inside r { s with cursor := cursor, calls := s.calls.set k v, log := log } k v p' earlier :=
  ⟨h.inside, getElem?_set_of_some h.call v, hcall ▸ h.goes, hleft, hlog.trans h.entries⟩

/-- The call inside is still inside when something else has happened. -/
lemma Inside.logged {p : Activity Reply} {earlier : List Nat} (h : Inside r s k u p earlier)
    {cursor : Cursor} {log : List CallEvent} (hlog : Calls.entries log = Calls.entries s.log) :
    Inside r { s with cursor := cursor, log := log } k u p earlier :=
  ⟨h.inside, h.call, h.goes, h.left, hlog.trans h.entries⟩

/-- Discoveries stay discoveries when a call goes on. -/
lemma found_set {l : List Nat} (h : ∀ j ∈ l, ∃ w, s.calls[j]? = some w ∧ w.call = .discover)
    (hcall : s.calls[i]? = some u) (hv : v.call = u.call) :
    ∀ j ∈ l, ∃ w, (s.calls.set i v)[j]? = some w ∧ w.call = .discover := by
  intro j hj
  obtain ⟨w, hw, hdiscover⟩ := h j hj
  by_cases hij : i = j
  · subst hij
    obtain rfl := Option.some.inj (hcall.symm.trans hw)
    exact ⟨v, getElem?_set_of_some hcall v, hv.trans hdiscover⟩
  · exact ⟨w, (List.getElem?_set_ne hij).trans hw, hdiscover⟩

/-- A call outside acts, and nobody notices. -/
lemma Phase.set (h : Phase r c s) (hcall : s.calls[i]? = some u)
    (hleft : ∀ reply, u.left ≠ .done reply) (hout : s.inside ≠ some i) (hv : v.call = u.call) :
    Phase r c { s with calls := s.calls.set i v } := by
  have hinside : ∀ {k w p earlier}, Inside r s k w p earlier →
      Inside r { s with calls := s.calls.set i v } k w p earlier := by
    intro k w p earlier hin
    have hne : i ≠ k := fun heq => hout (heq ▸ hin.inside)
    exact ⟨hin.inside, (List.getElem?_set_ne hne).trans hin.call, hin.goes, hin.left, hin.entries⟩
  cases h with
  | free hnone hserial hentries => exact .free hnone (hserial.set hcall hleft v) hentries
  | opened hin hopens hnew halone hserial hentries =>
    exact .opened (hinside hin) hopens hnew halone (hserial.set hcall hleft v) hentries
  | settled hin hsettled hslots horder hbefore halone hafter hfound hentries =>
    exact .settled (hinside hin) hsettled hslots horder (hbefore.set hcall hleft v) halone
      (hafter.set hcall hleft v) (found_set hfound hcall hv) hentries

/-- The call inside asks a query: it goes on alone. -/
lemma Phase.query {q : Sql.Query} {next : Except DatabaseError (List Sql.Row) → Activity Reply}
    (h : Phase r c s) (hin : s.inside = some i) (hcall : s.calls[i]? = some u)
    (hleft : u.left = .ask (.query q) next) (answer : Except DatabaseError (List Sql.Row)) :
    Phase r c { s with
      calls := s.calls.set i ⟨u.call, next answer, u.asked ++ [(q, answer)]⟩ } := by
  have hdone := ne_done_of_ask hleft
  cases h with
  | free hinside => cases hinside.symm.trans hin
  | opened hinside hopens =>
    obtain ⟨rfl, rfl⟩ := hinside.eq hin hcall
    obtain ⟨change, next', rfl, -⟩ := hopens
    cases hinside.left.symm.trans hleft
  | settled hinside hsettled hslots horder hbefore halone hafter hfound hentries =>
    obtain ⟨rfl, rfl⟩ := hinside.eq hin hcall
    obtain ⟨reply, -, hask⟩ | ⟨next', rfl, rfl⟩ := closing_eq_ask (hinside.left.symm.trans hleft)
    · cases hask
    · rw [hleft] at halone
      exact .settled (hinside.goesOn rfl rfl rfl) (hsettled answer) hslots horder
        (hbefore.set hcall hdone _) (halone.tail (.ask rfl)) (hafter.set hcall hdone _)
        (found_set hfound hcall rfl) hentries

/-- The call inside is one that goes inside. -/
lemma Phase.goesInside (h : Phase r c s) (hin : s.inside = some i) (hcall : s.calls[i]? = some u) :
    u.call.goesInside = true := by
  cases h with
  | free hinside => cases hinside.symm.trans hin
  | opened hinside =>
    obtain ⟨-, rfl⟩ := hinside.eq hin hcall
    exact hinside.goes
  | settled hinside =>
    obtain ⟨-, rfl⟩ := hinside.eq hin hcall
    exact hinside.goes

/-- The call inside looks at the cursor or changes it: it does so alone as well, before the
discoveries behind it. -/
lemma Phase.exchange {change : Cursor → Cursor} {next : Cursor → Activity Reply}
    (h : Phase r c s) (hin : s.inside = some i) (hcall : s.calls[i]? = some u)
    (hleft : u.left = .ask (.exchange r.name change) next) :
    Phase r c { s with
      cursor := change s.cursor
      calls := s.calls.set i ⟨u.call, next s.cursor, u.asked⟩
      log := s.log ++ [.turned i u.call] } := by
  have hdone := ne_done_of_ask hleft
  have hentered : entries (s.log ++ [.turned i u.call]) = entries s.log :=
    entries_concat_of_none rfl
  cases h with
  | free hinside => cases hinside.symm.trans hin
  | opened hinside hopens hnew halone hserial hentries =>
    obtain ⟨rfl, rfl⟩ := hinside.eq hin hcall
    obtain ⟨change', next', rfl, hsettled⟩ := hopens
    -- With its first look the call gets the last place, and nothing is behind it yet.
    have halone := halone s.cursor
    rw [hleft] at halone
    cases hinside.left.symm.trans hleft
    have horder := order_concat_of_turned (CallEvent.turned?_of_goesInside hinside.goes i) hnew
    exact .settled (hinside.goesOn rfl rfl hentered) (hsettled s.cursor) le_rfl horder
      (hserial.set hcall hdone _) (halone.tail (.ask ⟨rfl, rfl, rfl⟩)) rfl nofun hentries
  | @settled k n u' p earlier before after began reached hinside hsettled hslots horder hbefore
      halone hafter hfound hentries =>
    obtain ⟨rfl, rfl⟩ := hinside.eq hin hcall
    obtain ⟨reply, -, hask⟩ | ⟨next', rfl, rfl⟩ := closing_eq_ask (hinside.left.symm.trans hleft)
    · cases hask
    · -- The call sees what it would see without the discoveries behind it, and they do the same
      -- after its change.
      obtain ⟨-, hwithin, hlook, hnext⟩ := hsettled
      obtain ⟨hsame, hmoved⟩ := hafter.searching hfound hslots
      have hplaced : i ∈ order s.log := horder ▸ List.mem_append_right _ List.mem_cons_self
      rw [hleft] at halone
      have halone : Program.Acts r.alone (r.call u.call, (began, []))
          (r.closing (next' reached), (change reached, u.asked)) :=
        halone.tail (.ask ⟨rfl, rfl, rfl⟩)
      rw [← hsame hlook] at halone
      exact .settled (hinside.goesOn rfl rfl hentered) (hnext s.cursor)
        (hslots.trans (hwithin.size reached).ge)
        ((order_concat_of_mem (CallEvent.turned?_of_goesInside hinside.goes i) hplaced).trans horder)
        (hbefore.set hcall hdone _) halone ((hmoved hwithin).set hcall hdone _)
        (found_set hfound hcall rfl) hentries

/-- When nobody is inside, all calls with a place have ended. -/
lemma Phase.of_free (h : Phase r c s) (hfree : s.inside = none) :
    Serial r s.calls (order s.log) c s.cursor ∧ (entries s.log).Sublist (order s.log) := by
  cases h with
  | free hinside hserial hentries => exact ⟨hserial, hentries⟩
  | opened hinside => cases hinside.inside.symm.trans hfree
  | settled hinside => cases hinside.inside.symm.trans hfree

/-- A call goes inside. -/
lemma Phase.enter {next : Unit → Activity Reply} (h : Phase r c s) (hfree : s.inside = none)
    (hcall : s.calls[i]? = some u) (hleft : u.left = .ask (.enter r.name) next)
    (hgoes : u.call.goesInside = true) (hwaits : u.left = r.call u.call) (hasked : u.asked = [])
    (hnew : i ∉ order s.log) :
    Phase r c { s with
      inside := some i
      calls := s.calls.set i ⟨u.call, next (), u.asked⟩
      log := s.log ++ [.entered i] } := by
  have horder : order (s.log ++ [.entered i]) = order s.log := order_concat_of_none rfl
  obtain ⟨hserial, hentries⟩ := h.of_free hfree
  obtain ⟨p, hp, hopens⟩ := left_of_goesInside hgoes hwaits
  cases hleft.symm.trans hp
  have halone : ∀ c, Program.Acts r.alone (r.call u.call, (c, [])) (r.closing p, (c, u.asked)) := by
    intro c
    rw [← hwaits, hleft, hasked]
    exact .single (.ask (a := ()) ⟨rfl, rfl⟩)
  exact .opened ⟨rfl, getElem?_set_of_some hcall _, hgoes, rfl, entries_concat _ _⟩ hopens
    (horder ▸ hnew) halone (horder ▸ hserial.set hcall (ne_done_of_ask hleft) _)
    (horder ▸ hentries)

/-- The call inside leaves: it has its place between the discoveries before and behind it. -/
lemma Phase.leave {next : Unit → Activity Reply} (h : Phase r c s) (hin : s.inside = some i)
    (hcall : s.calls[i]? = some u) (hleft : u.left = .ask (.leave r.name) next) :
    Phase r c { s with
      inside := none
      calls := s.calls.set i ⟨u.call, next (), u.asked⟩
      log := s.log ++ [.left i] } ∧
    (∃ reply, next () = .done reply) ∧ i ∈ entries s.log ∧ i ∈ order s.log := by
  have hdone := ne_done_of_ask hleft
  have hentered : entries (s.log ++ [.left i]) = entries s.log :=
    entries_concat_of_none rfl
  have hordered : order (s.log ++ [.left i]) = order s.log := order_concat_of_none rfl
  cases h with
  | free hinside => cases hinside.symm.trans hin
  | opened hinside hopens =>
    obtain ⟨rfl, rfl⟩ := hinside.eq hin hcall
    obtain ⟨change, next', rfl, -⟩ := hopens
    cases hinside.left.symm.trans hleft
  | @settled k n u' p earlier before after began reached hinside hsettled hslots horder hbefore
      halone hafter hfound hentries =>
    obtain ⟨rfl, rfl⟩ := hinside.eq hin hcall
    have hmem : i ∈ entries s.log := hinside.entries ▸ List.mem_concat_self
    have hplaced : i ∈ order s.log := horder ▸ List.mem_append_right _ List.mem_cons_self
    obtain ⟨reply, rfl, hask⟩ | ⟨next', rfl, -⟩ := closing_eq_ask (hinside.left.symm.trans hleft)
    · cases hask
      rw [hleft] at halone
      refine ⟨.free rfl ?_ ?_, ⟨reply, rfl⟩, hmem, hplaced⟩
      · rw [hordered, horder]
        exact serial_append.2 ⟨began, hbefore.set hcall hdone _, reached,
          ⟨_, reply, getElem?_set_of_some hcall _, rfl, halone.tail (.ask (a := ()) ⟨rfl, rfl⟩)⟩,
          hafter.set hcall hdone _⟩
      · rw [hordered, horder, hentered, hinside.entries]
        exact hentries.append (List.singleton_sublist.2 List.mem_cons_self)
    · exact hsettled.elim

/-- A discovery changes the cursor: it gets the last place. -/
lemma Phase.searched (h : Phase r c s) (hcall : s.calls[i]? = some u) (hdiscover : u.call = .discover)
    {c' : Cursor} (halone : RunsAlone r s.calls i s.cursor c') (hnew : i ∉ order s.log) :
    Phase r c { s with cursor := c', log := s.log ++ [.turned i .discover] } := by
  have horder : order (s.log ++ [.turned i .discover]) = order s.log ++ [i] :=
    order_concat_of_turned rfl hnew
  have hentered : entries (s.log ++ [.turned i .discover]) = entries s.log :=
    entries_concat_of_none rfl
  cases h with
  | free hinside hserial hentries =>
    refine .free hinside (horder ▸ hserial.concat halone) ?_
    rw [horder, hentered]
    exact hentries.trans (List.sublist_append_left _ _)
  | @opened k w p earlier hinside hopens hplaced hopened hserial hentries =>
    have hne : k ≠ i := by
      rintro rfl
      obtain rfl := Option.some.inj (hinside.call.symm.trans hcall)
      cases hdiscover ▸ hinside.goes
    refine .opened (hinside.logged hentered) hopens ?_ hopened (horder ▸ hserial.concat halone) ?_
    · rw [horder, List.mem_append, List.mem_singleton]
      exact not_or.2 ⟨hplaced, hne⟩
    · rw [horder]
      exact hentries.trans (List.sublist_append_left _ _)
  | @settled k n w p earlier before after began reached hinside hsettled hslots hold hbefore
      hinner hafter hfound hentries =>
    have hlater : order (s.log ++ [.turned i .discover]) = before ++ k :: (after ++ [i]) := by
      rw [horder, hold, List.append_assoc, List.cons_append]
    refine .settled (hinside.logged hentered) hsettled hslots hlater hbefore hinner
      (hafter.concat halone) (fun j hj => ?_) hentries
    rcases List.mem_append.1 hj with hmem | hlast
    · exact hfound j hmem
    · obtain rfl := List.mem_singleton.1 hlast
      exact ⟨u, hcall, hdiscover⟩

/-- What changes no places and lets nobody inside. -/
lemma Phase.logged (h : Phase r c s) {log : List CallEvent} (horder : order log = order s.log)
    (hentered : entries log = entries s.log) : Phase r c { s with log := log } := by
  cases h with
  | free hinside hserial hentries =>
    exact .free hinside (horder ▸ hserial) (by rw [horder, hentered]; exact hentries)
  | opened hinside hopens hnew halone hserial hentries =>
    exact .opened (hinside.logged hentered) hopens (horder ▸ hnew) halone (horder ▸ hserial)
      (horder ▸ hentries)
  | settled hinside hsettled hslots hold hbefore halone hafter hfound hentries =>
    exact .settled (hinside.logged hentered) hsettled hslots (horder.trans hold) hbefore halone
      hafter hfound hentries

/-- A call outside that acts goes inside, searches, or looks. -/
lemma Outside.ask_cases {q : Action} {next : q.Answer → Activity Reply} (h : Outside r log i u)
    (hleft : u.left = .ask q next) :
    (∃ p, Program.ask q next = .ask (.enter r.name) (fun _ => r.closing p) ∧
        u.call.goesInside = true ∧ u.left = r.call u.call ∧ u.asked = [] ∧ i ∉ order log) ∨
      (u.call = .discover ∧ Searches r (.ask q next) ∧ i ∉ order log ∧
        ∀ c, Program.Acts r.alone (r.call u.call, (c, [])) (.ask q next, (c, u.asked))) ∨
      (u.call = .checkpoint ∧ Program.ask q next = r.call .checkpoint) := by
  cases h with
  | waiting hgoes hwaits hasked hnew =>
    obtain ⟨p, hp, -⟩ := left_of_goesInside hgoes hwaits
    exact .inl ⟨p, hleft.symm.trans hp, hgoes, hwaits, hasked, hnew⟩
  | searching hcall hsearches halone hnew =>
    rw [hleft] at hsearches halone
    exact .inr (.inl ⟨hcall, hsearches, hnew, halone⟩)
  | looking hcall hlooks => exact .inr (.inr ⟨hcall, hleft.symm.trans hlooks⟩)
  | ended hdone => cases hleft.symm.trans hdone

/-- A call outside that asks a query is a discovery, and still has its change before it. -/
lemma Outside.query {q : Sql.Query} {next : Except DatabaseError (List Sql.Row) → Activity Reply}
    (h : Outside r log i u) (hleft : u.left = .ask (.query q) next)
    (answer : Except DatabaseError (List Sql.Row)) :
    Outside r log i ⟨u.call, next answer, u.asked ++ [(q, answer)]⟩ := by
  obtain ⟨p, hask, -⟩ | ⟨hcall, hsearches, hnew, halone⟩ | ⟨-, hask⟩ := h.ask_cases hleft
  · cases hask
  · exact .searching hcall (hsearches answer) (fun c => (halone c).tail (.ask rfl)) hnew
  · cases hask

/-- A call outside that changes the cursor is a discovery that has found something, and one that
looks at it is a checkpoint. Both have ended then. -/
lemma Outside.exchange {change : Cursor → Cursor} {next : Cursor → Activity Reply}
    (h : Outside r log i u) (hleft : u.left = .ask (.exchange r.name change) next) (c : Cursor) :
    (∃ reply, next c = .done reply) ∧
      ((u.call = .discover ∧ i ∉ order log ∧
          Program.Acts r.alone (r.call u.call, (c, [])) (next c, (change c, u.asked))) ∨
        (u.call = .checkpoint ∧ change = id)) := by
  obtain ⟨p, hask, -⟩ | ⟨hcall, hsearches, hnew, halone⟩ | ⟨hcall, hask⟩ := h.ask_cases hleft
  · cases hask
  · obtain ⟨-, kind, rows, -, rfl⟩ := hsearches
    exact ⟨⟨_, rfl⟩, .inl ⟨hcall, hnew, (halone c).tail (.ask ⟨rfl, rfl, rfl⟩)⟩⟩
  · cases hask
    exact ⟨⟨_, rfl⟩, .inr ⟨hcall, rfl⟩⟩

/-- A call outside that goes inside has not begun before. -/
lemma Outside.enter {next : Unit → Activity Reply} (h : Outside r log i u)
    (hleft : u.left = .ask (.enter r.name) next) :
    u.call.goesInside = true ∧ u.left = r.call u.call ∧ u.asked = [] ∧ i ∉ order log := by
  obtain ⟨p, -, hwaiting⟩ | ⟨-, hsearches, -⟩ | ⟨-, hask⟩ := h.ask_cases hleft
  · exact hwaiting
  · exact hsearches.elim
  · cases hask

/-- No call outside leaves. -/
lemma Outside.leave {next : Unit → Activity Reply} (h : Outside r log i u)
    (hleft : u.left = .ask (.leave r.name) next) : False := by
  obtain ⟨p, hask, -⟩ | ⟨-, hsearches, -⟩ | ⟨-, hask⟩ := h.ask_cases hleft
  · cases hask
  · exact hsearches
  · cases hask

/-- When a call has acted, the others outside are still there, and the call itself is if it is
outside now. -/
lemma outside_set (h : Invariant r c s) {log : List CallEvent} {inside : Option Nat}
    (hlater : ∀ {j w}, j ≠ i → Outside r s.log j w → Outside r log j w)
    (hothers : ∀ {j}, j ≠ i → inside ≠ some j → s.inside ≠ some j)
    (hself : inside ≠ some i → Outside r log i v) :
    ∀ {j w}, (s.calls.set i v)[j]? = some w → inside ≠ some j → Outside r log j w := by
  intro j w hw hout
  by_cases hij : j = i
  · subst hij
    obtain ⟨hlt, rfl⟩ : j < (s.calls.set j v).length ∧ v = w := by
      obtain ⟨hlt, heq⟩ := List.getElem?_eq_some_iff.1 hw
      exact ⟨hlt, by rw [← heq, List.getElem_set_self]⟩
    exact hself hout
  · rw [List.getElem?_set_ne (Ne.symm hij)] at hw
    exact hlater hij (h.outside hw (hothers hij hout))

/-- A query keeps the invariant. -/
lemma Invariant.query {q : Sql.Query} {next : Except DatabaseError (List Sql.Row) → Activity Reply}
    (h : Invariant r c s) (hcall : s.calls[i]? = some u) (hleft : u.left = .ask (.query q) next)
    (answer : Except DatabaseError (List Sql.Row)) :
    Invariant r c { s with
      calls := s.calls.set i ⟨u.call, next answer, u.asked ++ [(q, answer)]⟩ } := by
  by_cases hin : s.inside = some i
  · exact ⟨h.phase.query hin hcall hleft answer,
      outside_set h (fun _ hold => hold) (fun _ hout => hout) fun hout => absurd hin hout,
      h.ordered⟩
  · exact ⟨h.phase.set hcall (ne_done_of_ask hleft) hin rfl,
      outside_set h (fun _ hold => hold) (fun _ hout => hout)
        fun _ => (h.outside hcall hin).query hleft answer,
      h.ordered⟩

/-- When a call looks at the cursor or changes it, the others outside are still there. -/
lemma Outside.of_turned {call : Call} (hne : j ≠ i) (h : Outside r log j u) :
    Outside r (log ++ [.turned i call]) j u := by
  refine h.concat fun hturned => hne ?_
  rw [CallEvent.turned?] at hturned
  split at hturned
  · exact (Option.some.inj hturned).symm
  · cases hturned

/-- A look or a change of the call inside keeps the invariant. -/
lemma Invariant.exchange_inside {change : Cursor → Cursor} {next : Cursor → Activity Reply}
    (h : Invariant r c s) (hin : s.inside = some i) (hcall : s.calls[i]? = some u)
    (hleft : u.left = .ask (.exchange r.name change) next) :
    Invariant r c { s with
      cursor := change s.cursor
      calls := s.calls.set i ⟨u.call, next s.cursor, u.asked⟩
      log := s.log ++ [.turned i u.call] } := by
  have hgoes := h.phase.goesInside hin hcall
  refine ⟨h.phase.exchange hin hcall hleft,
    outside_set h Outside.of_turned (fun _ hout => hout) fun hout => absurd hin hout,
    h.ordered.concat (fun j hj => ?_) fun j hj => ?_⟩
  · rw [CallEvent.begun?_of_goesInside hgoes] at hj
    cases hj
  · rw [CallEvent.ended?_of_goesInside hgoes] at hj
    cases hj

/-- A change of a discovery and a look of a checkpoint keep the invariant. -/
lemma Invariant.exchange_outside {change : Cursor → Cursor} {next : Cursor → Activity Reply}
    (h : Invariant r c s) (hin : s.inside ≠ some i) (hcall : s.calls[i]? = some u)
    (hleft : u.left = .ask (.exchange r.name change) next) :
    Invariant r c { s with
      cursor := change s.cursor
      calls := s.calls.set i ⟨u.call, next s.cursor, u.asked⟩
      log := s.log ++ [.turned i u.call] } := by
  have hset := h.phase.set hcall (ne_done_of_ask hleft) hin
    (v := ⟨u.call, next s.cursor, u.asked⟩) rfl
  obtain ⟨⟨reply, hreply⟩, ⟨hdiscover, hnew, halone⟩ | ⟨hcheckpoint, rfl⟩⟩ :=
    (h.outside hcall hin).exchange hleft s.cursor
  · have hphase := hset.searched (getElem?_set_of_some hcall _) hdiscover
      ⟨_, reply, getElem?_set_of_some hcall _, hreply, hreply ▸ halone⟩ hnew
    rw [← hdiscover] at hphase
    refine ⟨hphase, outside_set h Outside.of_turned (fun _ hout => hout) fun _ =>
      .ended hreply ?_, h.ordered.concat (fun j hj => ?_) fun j hj => ?_⟩
    · rw [hdiscover]
      nofun
    · rw [hdiscover] at hj
      obtain rfl := Option.some.inj hj
      exact hnew
    · rw [hdiscover] at hj ⊢
      obtain rfl := Option.some.inj hj
      exact mem_order_concat.2 (.inr rfl)
  · have hnone : (CallEvent.turned i u.call).turned? = none := by rw [hcheckpoint]; rfl
    refine ⟨hset.logged (order_concat_of_none hnone) (entries_concat_of_none rfl),
      outside_set h Outside.of_turned (fun _ hout => hout) fun _ => .ended hreply ?_,
      h.ordered.concat (fun j hj => ?_) fun j hj => ?_⟩
    · rw [hcheckpoint]
      nofun
    · rw [hcheckpoint] at hj
      cases hj
    · rw [hcheckpoint] at hj
      cases hj

/-- Going inside keeps the invariant. -/
lemma Invariant.enter {next : Unit → Activity Reply} (h : Invariant r c s)
    (hfree : s.inside = none) (hcall : s.calls[i]? = some u)
    (hleft : u.left = .ask (.enter r.name) next) :
    Invariant r c { s with
      inside := some i
      calls := s.calls.set i ⟨u.call, next (), u.asked⟩
      log := s.log ++ [.entered i] } := by
  have hin : s.inside ≠ some i := by rw [hfree]; nofun
  obtain ⟨hgoes, hwaits, hasked, hnew⟩ := (h.outside hcall hin).enter hleft
  refine ⟨h.phase.enter hfree hcall hleft hgoes hwaits hasked hnew,
    outside_set h (fun _ hold => hold.concat (e := .entered i) nofun)
      (fun _ _ => by rw [hfree]; nofun) fun hout => absurd rfl hout,
    h.ordered.concat (fun j hj => ?_) nofun⟩
  obtain rfl := Option.some.inj hj
  exact hnew

/-- Leaving keeps the invariant. -/
lemma Invariant.leave {next : Unit → Activity Reply} (h : Invariant r c s)
    (hcall : s.calls[i]? = some u) (hleft : u.left = .ask (.leave r.name) next) :
    Invariant r c { s with
      inside := none
      calls := s.calls.set i ⟨u.call, next (), u.asked⟩
      log := s.log ++ [.left i] } := by
  by_cases hin : s.inside = some i
  · obtain ⟨hphase, ⟨reply, hreply⟩, hentered, hplaced⟩ := h.phase.leave hin hcall hleft
    refine ⟨hphase, outside_set h (fun _ hold => hold.concat (e := .left i) nofun)
      (fun hne _ hin' => ?_) fun _ => .ended hreply fun _ => ?_,
      h.ordered.concat nofun fun j hj => ?_⟩
    · exact hne (Option.some.inj (hin'.symm.trans hin))
    · rw [entries_concat]
      exact List.mem_append_left _ hentered
    · obtain rfl := Option.some.inj hj
      exact mem_order_concat.2 (.inl hplaced)
  · exact ((h.outside hcall hin).leave hleft).elim

end Acting

/-- The invariant is kept by each action of each call. -/
theorem Invariant.step (h : Invariant r c s) (hstep : Step r s s') : Invariant r c s' := by
  cases hstep with
  | query hcall hleft answer => exact h.query hcall hleft answer
  | @exchange i u change next hcall hleft =>
    by_cases hin : s.inside = some i
    · exact h.exchange_inside hin hcall hleft
    · exact h.exchange_outside hin hcall hleft
  | enter hcall hleft hfree => exact h.enter hfree hcall hleft
  | leave hcall hleft => exact h.leave hcall hleft

/-- Calls that have not begun keep the invariant. -/
lemma invariant_opening (r : Reader) (c : Cursor) (calls : List Call) :
    Invariant r c (opening r c calls) := by
  refine ⟨.free rfl rfl (List.Sublist.refl _), fun {i u} hu _ => ?_, List.nodup_nil, nofun, ?_⟩
  · obtain ⟨call, -, rfl⟩ := List.mem_map.1 (List.mem_of_getElem? hu)
    cases call with
    | read limit now => exact .waiting rfl rfl rfl nofun
    | rollback b => exact .waiting rfl rfl rfl nofun
    | discover => exact .searching rfl (searches_discover r) (fun _ => .refl) nofun
    | checkpoint => exact .looking rfl rfl
  · intro e e' i j hpair
    cases hpair

/-- The invariant is kept by every run. -/
lemma Invariant.run (h : Invariant r c s) (hrun : Run r s s') : Invariant r c s' := by
  induction hrun with
  | refl => exact h
  | tail _ hstep ih => exact ih.step hstep

/-- The calls are those that were to run. -/
lemma map_call_opening {calls : List Call} (hrun : Run r (opening r c calls) s) :
    s.calls.map (·.call) = calls := by
  rw [map_call_run hrun, opening, List.map_map]
  exact List.map_id calls

/-- The log tells what the calls are. -/
lemma getElem?_of_turned {calls : List Call} (hrun : Run r (opening r c calls) s) {call : Call}
    (h : .turned i call ∈ s.log) : ∃ u, s.calls[i]? = some u ∧ u.call = call := by
  rw [← Option.map_eq_some_iff, ← List.getElem?_map, map_call_opening hrun]
  induction hrun with
  | refl => cases h
  | @tail s s' hrun hstep ih =>
    cases hstep with
    | query hcall hleft answer => exact ih h
    | @exchange j u change next hcall hleft =>
      rcases List.mem_append.1 h with hold | hnew
      · exact ih hold
      · cases List.mem_singleton.1 hnew
        rw [← map_call_opening hrun, List.getElem?_map, hcall]
        rfl
    | enter hcall hleft hfree => exact ih ((List.mem_append.1 h).resolve_right (by simp))
    | leave hcall hleft => exact ih ((List.mem_append.1 h).resolve_right (by simp))

/-- When nobody is inside, the calls with a place are the reads and rollbacks that have been inside
and the discoveries that have changed the cursor. -/
lemma Invariant.mem_order_iff {calls : List Call} (h : Invariant r c s)
    (hrun : Run r (opening r c calls) s) (hfree : s.inside = none) :
    i ∈ order s.log ↔ i ∈ entries s.log ∨ .turned i .discover ∈ s.log := by
  constructor
  · intro hi
    obtain ⟨e, he, hturned⟩ := mem_order.1 hi
    cases e with
    | entered j => cases hturned
    | left j => cases hturned
    | turned j call =>
      rw [CallEvent.turned?] at hturned
      obtain ⟨u, hu, rfl⟩ := getElem?_of_turned hrun he
      split at hturned
      · next hupdates =>
        obtain rfl := Option.some.inj hturned
        cases h.outside hu (by rw [hfree]; nofun) with
        | waiting hgoes hleft hasked hnew => exact absurd hi hnew
        | searching hcall => exact .inr (hcall ▸ he)
        | looking hcall => cases hcall ▸ hupdates
        | ended hdone hentered =>
          cases hcall : u.call with
          | read limit now => exact .inl (hentered (by rw [hcall]; rfl))
          | rollback b => exact .inl (hentered (by rw [hcall]; rfl))
          | discover => exact .inr (hcall ▸ he)
          | checkpoint => cases hcall ▸ hupdates
      · cases hturned
  · rintro (hentered | hdiscover)
    · exact (h.phase.of_free hfree).2.subset hentered
    · exact mem_order.2 ⟨_, hdiscover, rfl⟩

/-- When all calls have ended, none of them is inside. -/
lemma Phase.inside_eq_none (h : Phase r c s)
    (hended : ∀ u ∈ s.calls, ∃ reply, u.left = .done reply) : s.inside = none := by
  have hnot : ∀ {k u p earlier}, ¬ Inside r s k u p earlier := by
    intro k u p earlier hinside
    obtain ⟨reply, hdone⟩ := hended u (List.mem_of_getElem? hinside.call)
    exact closing_ne_done p reply (hinside.left.symm.trans hdone)
  cases h with
  | free hinside => exact hinside
  | opened hinside => exact (hnot hinside).elim
  | settled hinside => exact (hnot hinside).elim

/-- A read or a rollback that has ended has been inside. -/
lemma Outside.mem_entries (h : Outside r log i u) {reply : Reply} (hdone : u.left = .done reply)
    (hgoes : u.call.goesInside = true) : i ∈ entries log := by
  cases h with
  | waiting _ hwaits =>
    obtain ⟨p, hp, -⟩ := left_of_goesInside hgoes hwaits
    cases hdone.symm.trans hp
  | searching hcall => cases hcall ▸ hgoes
  | looking hcall => cases hcall ▸ hgoes
  | ended _ hentered => exact hentered hgoes

/-- Any number of calls run side by side on a table that was opened. What they have done to the
cursor when none of them is inside they also do one after another, each with its queries answered as
they were and with what it returned: reads and rollbacks in the order in which they went inside, and
each discovery that changed the cursor before or after the calls that were inside then. That is so
in particular when all calls have ended.

At all times each slot stays with its identity, no identity has two slots, the cursor changes by
complete updates of the calls only, and a checkpoint shows the cursor at some time of the run. -/
theorem lose_no_update {root : String} {source : Source} {d : Descriptor} {schema : Schema}
    {idlePolicy : IdlePolicy} {calls : List Call}
    (hopen : (Reader.open root source d schema idlePolicy).Returns (.ok (r, c)))
    (hrun : Run r (opening r c calls) s) :
    s.calls.map (·.call) = calls ∧
    (s.inside = none → Serial r s.calls (order s.log) c s.cursor ∧ Ordered s.log (order s.log) ∧
      (entries s.log).Sublist (order s.log) ∧
      ∀ i, i ∈ order s.log ↔ i ∈ entries s.log ∨ .turned i .discover ∈ s.log) ∧
    ((∀ u ∈ s.calls, ∃ reply, u.left = .done reply) → s.inside = none ∧
      ∀ i call, calls[i]? = some call → call.goesInside = true → i ∈ entries s.log) ∧
    (∀ s', Run r s s' → ∀ i p, s.cursor.partitions.slot? i = some p →
      ∃ p', s'.cursor.partitions.slot? i = some p' ∧ p'.identity = p.identity ∧
        p'.param = p.param) ∧
    (s.cursor.partitions.slots.map (·.identity)).Nodup ∧
    (∀ s', Step r s s' → s'.cursor = s.cursor ∨
      ∃ u ∈ s.calls, ∃ update, u.call.Makes update ∧ s'.cursor = update.apply s.cursor) ∧
    (∀ u ∈ s.calls, u.call = .checkpoint → ∀ reply, u.left = .done reply →
      ∃ s₁ k, Run r (opening r c calls) s₁ ∧ Run r s₁ s ∧ reply = .kept k ∧
        k.Shows s₁.cursor) := by
  obtain ⟨-, hkeeps⟩ := Reader.open_keeps hopen
  have hinv := (invariant_opening r c calls).run hrun
  obtain ⟨hsound, -⟩ := run_sound (sound_opening hkeeps.wellFormed calls) hrun
  refine ⟨map_call_opening hrun, fun hfree => ?_, fun hended => ?_, fun s' hrun' i p hp => ?_, ?_,
    fun s' hstep => (step_cursor hsound hstep).2, fun u hu hcall reply hdone => ?_⟩
  · obtain ⟨hserial, hentries⟩ := hinv.phase.of_free hfree
    exact ⟨hserial, hinv.ordered, hentries, fun i => hinv.mem_order_iff hrun hfree⟩
  · have hfree := hinv.phase.inside_eq_none hended
    refine ⟨hfree, fun i call hcall hgoes => ?_⟩
    rw [← map_call_opening hrun, List.getElem?_map, Option.map_eq_some_iff] at hcall
    obtain ⟨u, hu, rfl⟩ := hcall
    obtain ⟨reply, hdone⟩ := hended u (List.mem_of_getElem? hu)
    exact (hinv.outside hu (by rw [hfree]; nofun)).mem_entries hdone hgoes
  · exact (slots_kept hsound hrun' hp).1
  · cases hcursor : s.cursor with
    | single after idle => exact List.nodup_nil
    | partitioned ps =>
      have hwell := hsound.wellFormed
      rw [hcursor] at hwell
      exact Partitions.WellFormed.nodup hwell
  · have hbegin : ∀ v ∈ (opening r c calls).calls, v.left = r.call v.call := by
      intro v hv
      obtain ⟨call, -, rfl⟩ := List.mem_map.1 hv
      rfl
    obtain hleft | ⟨s₁, hbefore, hafter, hleft⟩ := checkpoint_kept hbegin hrun hu hcall
    · cases hdone.symm.trans hleft
    · cases hdone.symm.trans hleft
      obtain ⟨hsound₁, -⟩ := run_sound (sound_opening hkeeps.wellFormed calls) hbefore
      exact ⟨s₁, _, hbefore, hafter, rfl, hsound₁.wellFormed.checkpoint_shows⟩

end Calls

namespace Journal

/-- While a read is inside the journal, another owner is discovered. -/
lemma run_discovery_inside :
    ∃ s, Calls.Run reader (Calls.opening reader opened [.read 2 0, .discover]) s ∧
      s.inside = none ∧ Calls.order s.log = [0, 1] := by
  refine ⟨_, .head (.enter (i := 0) rfl rfl rfl) <| .head (.exchange (i := 0) rfl rfl) <|
    .head (.exchange (i := 0) rfl rfl) <|
    .head (.query (i := 0) rfl rfl (.ok [⟨["id", "owner"], [.integer 1, .text "ada"]⟩])) <|
    .head (.query (i := 1) rfl rfl (.ok [least "ada" 1, least "bob" 7])) <|
    .head (.exchange (i := 1) rfl rfl) <| .head (.exchange (i := 0) rfl rfl) <|
    .head (.leave (i := 0) rfl rfl) .refl, rfl, rfl⟩

/-- The discovery might as well have run after the read. -/
theorem discovery_after_read :
    ∃ s, Calls.Run reader (Calls.opening reader opened [.read 2 0, .discover]) s ∧
      Calls.Serial reader s.calls [0, 1] opened s.cursor := by
  obtain ⟨s, hrun, hfree, horder⟩ := run_discovery_inside
  obtain ⟨-, hserial, -⟩ := Calls.lose_no_update open_returns hrun
  obtain ⟨hserial, -⟩ := hserial hfree
  exact ⟨s, hrun, horder ▸ hserial⟩

end Journal

end TableTail
