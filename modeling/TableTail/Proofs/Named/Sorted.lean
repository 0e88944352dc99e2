import Mathlib.Data.List.Nodup
import Mathlib.Data.String.Basic
import TableTail.Named

/-!
# Sorted names

Maps from names are kept in the order of the names (`Sorted`), whatever they were made from
(`sorted_ofPairs`), so a map is its own list of pairs (`ofPairs_eq_self`). Of the pairs with one
name the last one counts (`get?_ofPairs`).
-/

namespace TableTail.Named

variable {α β : Type} {m : Named α} {name n : String} {v : α}

/-- The names are in order, each of them once. -/
def Sorted (m : Named α) : Prop := m.Pairwise fun a b => a.1 < b.1

instance (m : Named α) : Decidable (Sorted m) :=
  inferInstanceAs (Decidable (m.Pairwise fun a b => a.1 < b.1))

namespace Sorted

/-- No name occurs twice. -/
lemma nodup (h : Sorted m) : (m.map (·.1)).Nodup :=
  List.pairwise_map.2 (h.imp fun hlt => ne_of_lt hlt)

/-- Other values leave the names in order. -/
lemma map_values (h : Sorted m) (f : String × α → β) :
    Sorted (m.map fun p => (p.1, f p)) := by
  unfold Sorted
  rw [List.pairwise_map]
  exact h

end Sorted

section Set

/-- The names after one is set are those before it and this one. -/
lemma fst_mem_set {p : String × α} (h : p ∈ set name v m) : p = (name, v) ∨ p ∈ m := by
  induction m with
  | nil => exact .inl (List.mem_singleton.1 h)
  | cons q rest ih =>
    obtain ⟨k, w⟩ := q
    unfold set at h
    split at h
    · exact List.mem_cons.1 h
    · split at h
      · exact (List.mem_cons.1 h).imp_right (List.mem_cons_of_mem _)
      · rcases List.mem_cons.1 h with rfl | h
        · exact .inr (by simp)
        · exact (ih h).imp_right (List.mem_cons_of_mem _)

/-- Setting a name keeps the names in order. -/
lemma sorted_set (h : Sorted m) : Sorted (set name v m) := by
  induction m with
  | nil => exact List.pairwise_singleton _ _
  | cons q rest ih =>
    obtain ⟨k, w⟩ := q
    obtain ⟨hfirst, hrest⟩ := List.pairwise_cons.1 h
    unfold set
    split
    · next hlt =>
      refine List.pairwise_cons.2 ⟨fun p hp => ?_, h⟩
      rcases List.mem_cons.1 hp with rfl | hp
      · exact hlt
      · exact lt_trans hlt (hfirst p hp)
    · next hge =>
      split
      · next heq => exact List.pairwise_cons.2 ⟨heq ▸ hfirst, hrest⟩
      · next hne =>
        refine List.pairwise_cons.2 ⟨fun p hp => ?_, ih hrest⟩
        rcases fst_mem_set hp with rfl | hp
        · exact lt_of_le_of_ne (not_lt.1 hge) (Ne.symm hne)
        · exact hfirst p hp

/-- A name behind all others is put behind them. -/
lemma set_of_forall_lt (h : ∀ p ∈ m, p.1 < name) : set name v m = m ++ [(name, v)] := by
  induction m with
  | nil => rfl
  | cons q rest ih =>
    obtain ⟨k, w⟩ := q
    have hlt : k < name := h (k, w) (by simp)
    have hnot : ¬ name < k := not_lt.2 (le_of_lt hlt)
    unfold set
    rw [if_neg hnot, if_neg (ne_of_gt hlt), ih fun p hp => h p (by simp [hp])]
    rfl

end Set

section OfPairs

/-- A map of pairs has its names in order. -/
lemma sorted_ofPairs (pairs : List (String × α)) : Sorted (ofPairs pairs) := by
  have hall : ∀ m : Named α, Sorted m → Sorted (pairs.foldl (fun m p => set p.1 p.2 m) m) := by
    induction pairs with
    | nil => exact fun m h => h
    | cons p rest ih => exact fun m h => ih _ (sorted_set h)
  exact hall [] List.Pairwise.nil

/-- A map that is made of its own pairs is the same map. -/
theorem ofPairs_eq_self (h : Sorted m) : ofPairs m = m := by
  have hall : ∀ (rest : Named α) (m : Named α), Sorted (m ++ rest) →
      rest.foldl (fun m p => set p.1 p.2 m) m = m ++ rest := by
    intro rest
    induction rest with
    | nil => exact fun m _ => (List.append_nil m).symm
    | cons p rest ih =>
      intro m hm
      obtain ⟨-, -, hbefore⟩ := List.pairwise_append.1 hm
      rw [List.foldl_cons, set_of_forall_lt fun q hq => hbefore q hq p (by simp), ih]
      · rw [List.append_assoc]
        rfl
      · rwa [List.append_assoc]
  exact hall m [] h

/-- The first of two lists that has a name decides. -/
lemma get?_append (a b : Named α) : get? name (a ++ b) = (get? name a).or (get? name b) := by
  induction a with
  | nil => rfl
  | cons p rest ih =>
    obtain ⟨k, w⟩ := p
    rw [List.cons_append, get?, get?]
    split
    · rfl
    · exact ih

/-- Of the pairs with one name the last one counts. -/
theorem get?_ofPairs (name : String) (pairs : List (String × α)) :
    get? name (ofPairs pairs) = get? name pairs.reverse := by
  have hall : ∀ m : Named α, get? name (pairs.foldl (fun m p => set p.1 p.2 m) m) =
      (get? name pairs.reverse).or (get? name m) := by
    induction pairs with
    | nil => exact fun m => rfl
    | cons p rest ih =>
      intro m
      obtain ⟨k, w⟩ := p
      rw [List.foldl_cons, ih, List.reverse_cons, get?_append, Option.or_assoc]
      congr 1
      by_cases hk : name = k
      · subst hk
        rw [get?_set_self]
        simp [get?]
      · rw [get?_set_of_ne hk]
        simp [get?, hk]
  rw [ofPairs, hall [], get?_nil, Option.or_none]

end OfPairs

/-- A name is paired with the value that it has. -/
lemma mem_of_get? (h : get? name m = some v) : (name, v) ∈ m := by
  induction m with
  | nil => cases h
  | cons p rest ih =>
    obtain ⟨k, w⟩ := p
    rw [get?] at h
    split at h
    · next heq =>
      obtain rfl := Option.some.inj h
      simp [heq]
    · exact List.mem_cons_of_mem _ (ih h)

/-- Where no name occurs twice, a name has the value that it is paired with. -/
lemma get?_eq_some_iff (h : (m.map (·.1)).Nodup) : get? name m = some v ↔ (name, v) ∈ m := by
  induction m with
  | nil => simp
  | cons p rest ih =>
    obtain ⟨k, w⟩ := p
    obtain ⟨hnew, hrest⟩ := List.nodup_cons.1 h
    rw [get?, List.mem_cons, Prod.mk.injEq]
    split
    · next heq =>
      subst heq
      have hout : (name, v) ∉ rest := fun hin => hnew (List.mem_map.2 ⟨_, hin, rfl⟩)
      simp [hout, eq_comm]
    · next hne => simp [hne, ih hrest]

/-- A name has the value that is made of the one it had. -/
lemma get?_map_values (f : α → β) (m : Named α) :
    get? name (m.map fun p => (p.1, f p.2)) = (get? name m).map f := by
  induction m with
  | nil => rfl
  | cons p rest ih =>
    obtain ⟨k, w⟩ := p
    rw [List.map_cons, get?, get?, ih]
    split <;> rfl

/-- Names that are replaced without becoming alike have the values that they had. -/
lemma get?_map_names {f : String → String} (h : ∀ p ∈ m, f name = f p.1 → name = p.1) :
    get? (f name) (m.map fun p => (f p.1, p.2)) = get? name m := by
  induction m with
  | nil => rfl
  | cons p rest ih =>
    obtain ⟨k, w⟩ := p
    have hrest := ih fun p hp => h p (List.mem_cons_of_mem _ hp)
    rw [List.map_cons, get?, get?, hrest]
    by_cases hk : name = k
    · rw [if_pos hk, if_pos (congrArg f hk)]
    · have hne : f name ≠ f k := fun heq => hk (h (k, w) (by simp) heq)
      rw [if_neg hk, if_neg hne]

/-- A name has a value where it is paired with one. -/
lemma has_iff : has name m = true ↔ name ∈ m.map (·.1) := by
  induction m with
  | nil => simp [has]
  | cons p rest ih =>
    obtain ⟨k, w⟩ := p
    rw [List.map_cons, List.mem_cons, ← ih, has, get?, has]
    split
    · next heq => simp [heq]
    · next hne => simp [hne]

/-- Pairs whose names are different are looked up in their map as they are. -/
lemma get?_ofPairs_eq_some_iff {pairs : List (String × α)} (h : (pairs.map (·.1)).Nodup) :
    get? name (ofPairs pairs) = some v ↔ (name, v) ∈ pairs := by
  rw [get?_ofPairs, get?_eq_some_iff, List.mem_reverse]
  rwa [List.map_reverse, List.nodup_reverse]

/-- Pairs whose names are different are all in their map, and nothing else is. -/
lemma perm_ofPairs {pairs : List (String × α)} (h : (pairs.map (·.1)).Nodup) :
    (ofPairs pairs).Perm pairs := by
  have hsorted := (sorted_ofPairs pairs).nodup
  refine (List.perm_ext_iff_of_nodup hsorted.of_map h.of_map).2 fun p => ?_
  rw [← get?_eq_some_iff hsorted, get?_ofPairs_eq_some_iff h]

/-- The names of a map of pairs are the pairs' names. -/
lemma mem_names_ofPairs {pairs : List (String × α)} :
    name ∈ names (ofPairs pairs) ↔ name ∈ pairs.map (·.1) := by
  rw [names, ← has_iff, has, get?_ofPairs, ← has, has_iff, List.map_reverse, List.mem_reverse]

/-- Names that are put in order are in order. -/
lemma pairwise_sortedNames (l : List String) : (sortedNames l).Pairwise (· < ·) :=
  List.pairwise_map.2 (sorted_ofPairs _)

/-- Putting different names in order keeps all of them. -/
lemma perm_sortedNames {l : List String} (h : l.Nodup) : (sortedNames l).Perm l := by
  have hnames : (l.map fun n => (n, ())).map (·.1) = l := by simp [Function.comp_def]
  have hperm := (perm_ofPairs (hnames.symm ▸ h)).map (·.1)
  rwa [hnames] at hperm

/-- Putting names in order keeps them. -/
lemma mem_sortedNames {l : List String} : name ∈ sortedNames l ↔ name ∈ l := by
  rw [sortedNames, mem_names_ofPairs, List.map_map]
  simp [Function.comp_def]

end TableTail.Named
