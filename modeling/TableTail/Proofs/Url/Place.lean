import TableTail.Proofs.Lists
import TableTail.Url.Reading

/-!
# Where an address leads

The part of an address that is behind user and password and in front of the path says where the
address leads (`Url.place`). It is read if it is a host and a port (`Url.NamesHost`): the host is a
name without delimiters or a version 6 address in brackets, and of the port, which may be missing,
the digits are a number that a port can be (`Url.isSome_readPlace_iff`). What it is read as depends
on nothing in front of it.
-/

namespace TableTail.Url

/-! ## Hosts and ports -/

/-- What is between the slashes of an address and its path. -/
def authority (s : List Char) : List Char := s.takeWhile fun c => !endsAuthority .other c

/-- What is behind the last at sign of an authority. -/
def place (s : List Char) : List Char := ((authority s).reverse.takeWhile (· ≠ '@')).reverse

/-- A name without delimiters, or a version 6 address in brackets. -/
def IsHost (host : List Char) : Prop :=
  host ≠ [] ∧ (∀ c ∈ host, isDelimiter c = false) ∨
    ∃ inner, host = '[' :: (inner ++ [']']) ∧ (readV6 inner).isSome = true

/-- Nothing, or a colon and digits that make up no more than the last port. There may be no digits,
and what follows them starts with a backslash, if anything does. -/
def IsPort (port : List Char) : Prop :=
  port = [] ∨ ∃ rest, port = ':' :: rest ∧ Text.ofDigits (Text.spanDigits rest).1 ≤ 65535 ∧
    ((Text.spanDigits rest).2 = [] ∨ (Text.spanDigits rest).2.head? = some '\\')

/-- An address with this text behind its slashes leads to a host. -/
def NamesHost (s : List Char) : Prop :=
  ∃ host port, place s = host ++ port ∧ IsHost host ∧ IsPort port

/-- A place as it is read, and what is behind it. -/
structure Place where
  host : Host
  port : Option Nat
  path : List Char
  query : Option (List Char)
  fragment : Option (List Char)

/-- The place that an address of another scheme has behind its user and password. -/
def readPlace (scheme : String) (s : List Char) : Option Place := do
  let (host, tail) := spanHost false (place s)
  if host.isEmpty then none
  else
    let host ← readOtherHost host
    let (port, tail) ← readPort scheme tail
    let (path, query, fragment) := splitTail (tail ++ s.drop (authority s).length)
    return ⟨host, port, path, query, fragment⟩

/-! ## Characters of version 6 addresses -/

section Brackets

variable {s : List Char}

/-- No bracket is in a version 4 address at the end of a version 6 address. -/
lemma bracket_notMem_of_readDotted (h : (readDotted s).isSome = true) : ']' ∉ s := by
  intro hmem
  obtain ⟨part, hpart, hin⟩ := exists_mem_splitOn (x := '.') hmem (by decide)
  unfold readDotted at h
  simp only at h
  split at h
  · obtain ⟨n, hn⟩ := exists_isSome_of_foldlM h part hpart
    cases hdigits : Text.digits? part with
    | none => simp [hdigits] at hn
    | some ds =>
      have hdigit := isSome_of_mapM (by rw [← Text.digits?, hdigits]; rfl) _ hin
      exact absurd hdigit (by decide)
  · cases h

/-- Nor is one in a piece. -/
lemma bracket_notMem_of_hexDigits (h : (s.mapM Text.hexDigit?).isSome = true) : ']' ∉ s :=
  fun hmem => absurd (isSome_of_mapM h _ hmem) (by decide)

/-- Nor is one in pieces that are joined by colons. -/
lemma bracket_notMem_of_readPieces (h : (readPieces s).isSome = true) : ']' ∉ s := by
  intro hmem
  obtain ⟨part, hpart, hin⟩ := exists_mem_splitOn (x := ':') hmem (by decide)
  -- a part is a piece or the address of version 4 at the end
  have hpiece : ∀ p : List Char, (do
      let ds ← p.mapM Text.hexDigit?
      if ds.isEmpty ∨ 4 < ds.length then none
      else some (ds.foldl (fun n d => 16 * n + d) 0)).isSome = true → ']' ∉ p := by
    intro p hp
    cases hdigits : p.mapM Text.hexDigit? with
    | none => simp [hdigits] at hp
    | some ds => exact bracket_notMem_of_hexDigits (by rw [hdigits]; rfl)
  unfold readPieces at h
  split at h
  · next hempty =>
    rw [List.isEmpty_iff.1 hempty] at hmem
    cases hmem
  · simp only at h
    split at h
    · next last hlast =>
      split at h
      · obtain ⟨_, hread⟩ := Option.isSome_iff_exists.1 h
        obtain ⟨front, hfront, hread⟩ := Option.bind_eq_some_iff.1 hread
        obtain ⟨n, hdotted, -⟩ := Option.bind_eq_some_iff.1 hread
        rw [← List.dropLast_append_getLast? last hlast, List.mem_append,
          List.mem_singleton] at hpart
        rcases hpart with hfirst | rfl
        · exact hpiece part (isSome_of_mapM (by rw [hfront]; rfl) part hfirst) hin
        · exact bracket_notMem_of_readDotted (by rw [hdotted]; rfl) hin
      · exact hpiece part (isSome_of_mapM h part hpart) hin
    · cases h

/-- The text that is split at a double colon. -/
lemma eq_of_splitDouble {seen front back : List Char}
    (h : splitDouble seen s = some (front, back)) :
    seen.reverse ++ s = front ++ ':' :: ':' :: back := by
  induction s generalizing seen with
  | nil => simp [splitDouble] at h
  | cons c rest ih =>
    unfold splitDouble at h
    split at h
    · cases h
    · next heq =>
      obtain ⟨rfl, rfl⟩ := Prod.mk.inj (Option.some.inj h)
      rw [heq]
    · next heq =>
      obtain ⟨rfl, rfl⟩ := List.cons.inj heq
      rw [← ih h]
      simp

/-- No bracket is in a version 6 address. -/
lemma bracket_notMem_of_readV6 (h : (readV6 s).isSome = true) : ']' ∉ s := by
  unfold readV6 at h
  split at h
  · exact bracket_notMem_of_readPieces (Option.isSome_of_isSome_bind h)
  · next front back hsplit =>
    obtain ⟨_, hread⟩ := Option.isSome_iff_exists.1 h
    obtain ⟨_, hfront, hread⟩ := Option.bind_eq_some_iff.1 hread
    obtain ⟨_, hback, -⟩ := Option.bind_eq_some_iff.1 hread
    have hf := bracket_notMem_of_readPieces (s := front) (by rw [hfront]; rfl)
    have hb := bracket_notMem_of_readPieces (s := back) (by rw [hback]; rfl)
    have hs := eq_of_splitDouble hsplit
    rw [List.reverse_nil, List.nil_append] at hs
    rw [hs]
    simp [hf, hb]

end Brackets

/-! ## Host and port taken apart -/

section Spans

variable {host port s : List Char}

/-- Nothing is lost between a host and what follows it. -/
lemma spanHost_fst_append_snd (bracketed : Bool) (s : List Char) :
    (spanHost bracketed s).1 ++ (spanHost bracketed s).2 = s := by
  induction s generalizing bracketed with
  | nil => rfl
  | cons c rest ih =>
    unfold spanHost
    split
    · rfl
    · simp only [List.cons_append, ih]

/-- A host is followed by nothing or a colon. -/
lemma spanHost_snd (bracketed : Bool) (s : List Char) :
    (spanHost bracketed s).2 = [] ∨ (spanHost bracketed s).2.head? = some ':' := by
  induction s generalizing bracketed with
  | nil => exact .inl rfl
  | cons c rest ih =>
    unfold spanHost
    split
    · next hcolon => exact .inr (by rw [hcolon.1]; rfl)
    · exact ih _

/-- A name without colons and brackets is a host up to a colon. -/
lemma spanHost_name (hhost : ∀ c ∈ host, c ≠ ':' ∧ c ≠ '[' ∧ c ≠ ']')
    (hport : port = [] ∨ port.head? = some ':') : spanHost false (host ++ port) = (host, port) := by
  induction host with
  | nil =>
    rcases hport with rfl | hcolon
    · rfl
    · obtain ⟨rest, rfl⟩ := List.head?_eq_some_iff.1 hcolon
      rfl
  | cons c rest ih =>
    obtain ⟨⟨hcolon, hopen, hclose⟩, hrest⟩ := List.forall_mem_cons.1 hhost
    rw [List.cons_append, spanHost]
    simp [hcolon, hopen, hclose, ih hrest]

/-- Within brackets a host has colons. -/
lemma spanHost_brackets {inner : List Char} (hinner : ']' ∉ inner)
    (hport : port = [] ∨ port.head? = some ':') :
    spanHost true (inner ++ ']' :: port) = (inner ++ [']'], port) := by
  induction inner with
  | nil =>
    have hempty : ∀ c ∈ ([] : List Char), c ≠ ':' ∧ c ≠ '[' ∧ c ≠ ']' := by simp
    have hbehind : spanHost false port = ([], port) := spanHost_name hempty hport
    rw [List.nil_append, spanHost]
    simp [hbehind]
  | cons c rest ih =>
    obtain ⟨hc, hrest⟩ : ¬ ']' = c ∧ ']' ∉ rest := by simpa using hinner
    rw [List.cons_append, spanHost]
    simp [Ne.symm hc, ih hrest]

/-- A port is nothing or begins with a colon. -/
lemma IsPort.head? (h : IsPort port) : port = [] ∨ port.head? = some ':' := by
  rcases h with rfl | ⟨rest, rfl, -⟩
  · exact .inl rfl
  · exact .inr rfl

/-- A host and a port are taken apart. -/
lemma spanHost_append (hhost : IsHost host) (hport : IsPort port) :
    spanHost false (host ++ port) = (host, port) := by
  rcases hhost with ⟨-, hname⟩ | ⟨inner, rfl, hread⟩
  · refine spanHost_name (fun c hc => ?_) hport.head?
    have hplain := hname c hc
    refine ⟨?_, ?_, ?_⟩ <;>
    · rintro rfl
      exact absurd hplain (by decide)
  · have hbrackets := spanHost_brackets (bracket_notMem_of_readV6 hread) hport.head?
    rw [List.cons_append, List.append_assoc, List.singleton_append, spanHost]
    simp [hbrackets]

/-- The hosts that are read. -/
lemma isSome_readOtherHost_iff :
    host.isEmpty = false ∧ (readOtherHost host).isSome = true ↔ IsHost host := by
  constructor
  · rintro ⟨hne, hread⟩
    unfold readOtherHost at hread
    split at hread
    · next rest =>
      split at hread
      · next hlast =>
        refine .inr ⟨rest.dropLast, ?_, hread⟩
        rw [List.dropLast_append_getLast? _ hlast]
      · cases hread
    · split at hread
      · cases hread
      · next hnone =>
        refine .inl ⟨by simpa using hne, ?_⟩
        simpa using hnone
  · rintro (⟨hne, hname⟩ | ⟨inner, rfl, hread⟩)
    · refine ⟨by simpa using hne, ?_⟩
      have hnone : host.any isDelimiter = false := by simpa using hname
      unfold readOtherHost
      split
      · exact absurd (hname '[' (by simp)) (by decide)
      · rw [hnone]
        rfl
    · refine ⟨rfl, ?_⟩
      rw [readOtherHost]
      simp [hread]

/-- The ports that are read. -/
lemma isSome_readPort_iff (scheme : String) (hs : s = [] ∨ s.head? = some ':') :
    (readPort scheme s).isSome = true ↔ IsPort s := by
  rcases hs with rfl | hcolon
  · exact ⟨fun _ => .inl rfl, fun _ => rfl⟩
  · obtain ⟨rest, rfl⟩ := List.head?_eq_some_iff.1 hcolon
    have hport : IsPort (':' :: rest) ↔ Text.ofDigits (Text.spanDigits rest).1 ≤ 65535 ∧
        ((Text.spanDigits rest).2 = [] ∨ (Text.spanDigits rest).2.head? = some '\\') := by
      simp [IsPort]
    rw [hport, readPort]
    generalize Text.spanDigits rest = span
    obtain ⟨ds, tail⟩ := span
    simp only
    split
    · next hlarge => simp [Nat.not_le.2 hlarge]
    · next hsmall =>
      cases tail with
      | nil => simp [Nat.not_lt.1 hsmall]
      | cons c more =>
        by_cases hc : c = '\\'
        · simp [hc, Nat.not_lt.1 hsmall]
        · simp [hc]

/-- A place is read exactly if it is a host and a port. -/
theorem isSome_readPlace_iff (scheme : String) :
    (readPlace scheme s).isSome = true ↔ NamesHost s := by
  -- a place is read exactly if both of its parts are
  have hparts : (readPlace scheme s).isSome = true ↔
      ((spanHost false (place s)).1.isEmpty = false ∧
        (readOtherHost (spanHost false (place s)).1).isSome = true) ∧
        (readPort scheme (spanHost false (place s)).2).isSome = true := by
    unfold readPlace
    generalize spanHost false (place s) = span
    obtain ⟨host, tail⟩ := span
    simp only
    split
    · next hempty => simp [hempty]
    · next hnonempty =>
      cases readOtherHost host <;> cases readPort scheme tail <;> simp [hnonempty]
  rw [hparts]
  constructor
  · rintro ⟨hhost, hport⟩
    exact ⟨_, _, (spanHost_fst_append_snd false _).symm, isSome_readOtherHost_iff.1 hhost,
      (isSome_readPort_iff scheme (spanHost_snd false _)).1 hport⟩
  · rintro ⟨host, port, hplace, hhost, hport⟩
    rw [hplace, spanHost_append hhost hport]
    exact ⟨isSome_readOtherHost_iff.2 hhost, (isSome_readPort_iff scheme hport.head?).2 hport⟩

end Spans

end TableTail.Url
