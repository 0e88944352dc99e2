import TableTail.Proofs.Json.RoundTrip
import TableTail.Proofs.Number.JsonText

/-!
# Documents as they are written

Any document is read again from its text as it was written (`Json.Written.read?_line`), however deep
it is: with its fields in their order, its strings with all their characters, and its reals by their
texts. The reader asks for what the grammar of JSON asks for and has no limits of its own; it splits
a text into pieces at the blanks and marks outside strings (`Written.pieces`), reads each of them
(`Written.part?`), and puts them together with a stack of the arrays and objects still open
(`Written.take`). Where the reader of checkpoints reads a document back from its text, both give the
same document (`Written.read?_text_of_within`). No text of a document has a line break in it
(`Json.notMem_text`).
-/

namespace TableTail.Json

/-- What holds of a document if it holds of those inside it holds of all documents. -/
theorem induction {motive : Json → Prop} (null : motive .null) (bool : ∀ b, motive (.bool b))
    (number : ∀ n, motive (.number n)) (string : ∀ s, motive (.string s))
    (array : ∀ items, (∀ item ∈ items, motive item) → motive (.array items))
    (object : ∀ fields, (∀ field ∈ fields, motive field.2) → motive (.object fields)) (j : Json) :
    motive j := by
  refine @Json.rec motive (fun items => ∀ item ∈ items, motive item)
    (fun fields => ∀ field ∈ fields, motive field.2) (fun field => motive field.2)
    null bool number string array object ?_ ?_ ?_ ?_ ?_ j
  · exact List.forall_mem_nil _
  · exact fun item items hitem hitems => List.forall_mem_cons.2 ⟨hitem, hitems⟩
  · exact List.forall_mem_nil _
  · exact fun field fields hfield hfields => List.forall_mem_cons.2 ⟨hfield, hfields⟩
  · exact fun _ _ hvalue => hvalue

/-- The characters of a string's text. -/
lemma toList_stringText (s : String) :
    (stringText s).toList = '"' :: (s.toList.flatMap escape ++ ['"']) := by
  simp [stringText]

/-- A hexadecimal digit is no other character. -/
lemma hexChar_ne {n : ℕ} (h : n < 16) {c : Char} (hc : Text.hexDigit? c = none) :
    Text.hexChar n ≠ c := by
  rintro rfl
  rw [hexDigit?_hexChar h] at hc
  cases hc

/-- A document as it is written: reals by their texts, and fields as they stand. -/
inductive Written
  | null
  | bool (value : Bool)
  | integer (value : ℤ)
  | real (text : String)
  | string (value : String)
  | array (items : List Written)
  | object (fields : List (String × Written))
  deriving Repr

mutual

/-- How a document is written. -/
def written : Json → Written
  | .null => .null
  | .bool b => .bool b
  | .number (.int i) => .integer i
  | .number (.real x) => .real x.jsonText
  | .string s => .string s
  | .array items => .array (writtenItems items)
  | .object fields => .object (writtenFields fields)

/-- How the items of an array are written. -/
def writtenItems : List Json → List Written
  | [] => []
  | item :: items => item.written :: writtenItems items

/-- How the fields of an object are written. -/
def writtenFields : List (String × Json) → List (String × Written)
  | [] => []
  | (name, value) :: fields => (name, value.written) :: writtenFields fields

end

@[simp] lemma writtenItems_eq (items : List Json) : writtenItems items = items.map written := by
  induction items with
  | nil => rfl
  | cons item items ih => rw [writtenItems, ih, List.map_cons]

@[simp] lemma writtenFields_eq (fields : List (String × Json)) :
    writtenFields fields = fields.map fun field => (field.1, field.2.written) := by
  induction fields with
  | nil => rfl
  | cons field fields ih => rw [writtenFields, ih, List.map_cons]

namespace Written

/-! ## The reader -/

/-- What a numeral is by what stands behind its first digits: the integer that they denote, or
nothing if there are places or an exponent. -/
def behind (whole : List ℕ) : List Char → Option (Option ℕ)
  | [] => some (some (Text.ofDigits whole))
  | '.' :: rest =>
    match Text.spanDigits rest with
    | ([], _) => none
    | (_, rest) => (readExponent rest).map fun _ => none
  | rest => (readExponent rest).map fun _ => none

/-- The numeral that a text without a sign is; it has no leading zeros. -/
def numeral? (s : List Char) : Option (Option ℕ) :=
  match Text.spanDigits s with
  | ([], _) => none
  | (0 :: _ :: _, _) => none
  | (whole, rest) => behind whole rest

/-- The number that a text is. -/
def number? (s : List Char) : Option Written :=
  match s with
  | '-' :: rest =>
    (numeral? rest).map fun n => n.elim (real (String.ofList s)) fun n => integer (-n)
  | _ => (numeral? s).map fun n => n.elim (real (String.ofList s)) fun n => integer n

/-- Where the splitting of a text stands. -/
inductive Cut
  | between
  | word
  | inside
  | escaped

/-- Pieces with a character in front of the first one. -/
def glue (c : Char) : Option (List (List Char)) → Option (List (List Char))
  | some (piece :: pieces) => some ((c :: piece) :: pieces)
  | _ => none

/-- The pieces of a text: its marks, words and strings, without the blanks between them. -/
def pieces : Cut → List Char → Option (List (List Char))
  | .between, [] => some []
  | .word, [] => some [[]]
  | .inside, [] => none
  | .escaped, [] => none
  | .between, c :: rest =>
    if isSpace c then pieces .between rest
    else if c = '"' then glue c (pieces .inside rest)
    else if (markToken c).isSome then (pieces .between rest).map ([c] :: ·)
    else glue c (pieces .word rest)
  | .word, c :: rest =>
    if isSpace c then (pieces .between rest).map ([] :: ·)
    else if c = '"' then none
    else if (markToken c).isSome then (pieces .between rest).map fun ps => [] :: [c] :: ps
    else glue c (pieces .word rest)
  | .inside, c :: rest =>
    if c = '"' then (pieces .between rest).map ([c] :: ·)
    else glue c (pieces (if c = '\\' then .escaped else .inside) rest)
  | .escaped, c :: rest => glue c (pieces .inside rest)

/-- What a piece is: a value, or a mark. -/
inductive Part
  | value (value : Written)
  | mark (token : Token)

/-- The part that a piece is. -/
def part? (piece : List Char) : Option Part :=
  match number? piece with
  | some n => some (.value n)
  | none =>
    match tokens .between piece with
    | some [.null] => some (.value null)
    | some [.bool b] => some (.value (bool b))
    | some [.string s] => some (.value (string s))
    | some [.number _] => none
    | some [mark] => some (.mark mark)
    | _ => none

/-- An array or object still open, with what it holds so far in reverse. -/
inductive Frame
  | array (items : List Written)
  | field (fields : List (String × Written)) (name : String)

/-- What may come next. -/
inductive Expected
  | value
  | valueOrClose
  | name (fields : List (String × Written))
  | nameOrClose
  | colon (fields : List (String × Written)) (name : String)
  | after (value : Written)

/-- A value that starts with a part. -/
def start (stack : List Frame) : Part → Option (Expected × List Frame)
  | .value v => some (.after v, stack)
  | .mark .openArray => some (.valueOrClose, .array [] :: stack)
  | .mark .openObject => some (.nameOrClose, stack)
  | _ => none

/-- Takes in one part. -/
def take : Expected × List Frame → Part → Option (Expected × List Frame)
  | (.after v, .array items :: stack), .mark .comma => some (.value, .array (v :: items) :: stack)
  | (.after v, .array items :: stack), .mark .closeArray =>
    some (.after (array (v :: items).reverse), stack)
  | (.after v, .field fields name :: stack), .mark .comma =>
    some (.name ((name, v) :: fields), stack)
  | (.after v, .field fields name :: stack), .mark .closeObject =>
    some (.after (object ((name, v) :: fields).reverse), stack)
  | (.name fields, stack), .value (string n) => some (.colon fields n, stack)
  | (.nameOrClose, stack), .value (string n) => some (.colon [] n, stack)
  | (.nameOrClose, stack), .mark .closeObject => some (.after (object []), stack)
  | (.colon fields n, stack), .mark .colon => some (.value, .field fields n :: stack)
  | (.valueOrClose, .array _ :: stack), .mark .closeArray => some (.after (array []), stack)
  | (.value, stack), part => start stack part
  | (.valueOrClose, stack), part => start stack part
  | _, _ => none

/-- Splits a text into pieces and takes them in. -/
def feed (state : Expected × List Frame) (s : List Char) : Option (Expected × List Frame) :=
  (pieces .between s).bind fun ps =>
    ps.foldlM (fun state piece => (part? piece).bind (take state)) state

/-- The document that a text is. -/
def read? (s : String) : Option Written :=
  match feed (.value, []) s.toList with
  | some (.after v, []) => some v
  | _ => none

example : read? "[-1.50e3, \x7b\"a\": 12\x7d]" =
    some (array [real "-1.50e3", object [("a", integer 12)]]) := by
  rfl

/-! ## Numbers -/

section Numbers

variable {ds : List ℕ}

/-- An exponent is read. -/
lemma isSome_readExponent (e : Option ℤ) :
    (readExponent (RealNumeral.exponentChars e)).isSome = true := by
  cases e with
  | none => rfl
  | some e =>
    have hread := Text.digits?_map_digitChar (Text.areDigits_toDigits e.natAbs)
    cases hdigits : Text.toDigits e.natAbs with
    | nil => exact absurd hdigits (Text.toDigits_ne_nil _)
    | cons d rest =>
      rw [hdigits, List.map_cons] at hread
      by_cases hneg : e < 0
      · simp [RealNumeral.exponentChars, hdigits, hneg, readExponent, hread]
      · simp [RealNumeral.exponentChars, hdigits, hneg, readExponent, hread]

/-- An exponent begins with no digit. -/
lemma digit?_head?_exponentChars {e : Option ℤ} :
    ∀ c ∈ (RealNumeral.exponentChars e).head?, Text.digit? c = none := by
  cases e with
  | none => simp [RealNumeral.exponentChars]
  | some e =>
    rintro c ⟨⟩
    rfl

/-- What stands behind the first digits begins with no digit. -/
lemma digit?_head?_behind {places : List ℕ} {e : Option ℤ} :
    ∀ c ∈ (RealNumeral.placesChars places ++ RealNumeral.exponentChars e).head?,
      Text.digit? c = none := by
  unfold RealNumeral.placesChars
  split_ifs
  · exact digit?_head?_exponentChars
  · rintro c ⟨⟩
    rfl

/-- A numeral is known from where its first digits end. -/
lemma numeral?_of_span {cs rest : List Char} (hspan : Text.spanDigits cs = (ds, rest))
    (hne : ds ≠ []) (hhead : ∀ d more, ds = d :: more → more ≠ [] → 0 < d) :
    numeral? cs = behind ds rest := by
  rcases ds with _ | ⟨d, _ | ⟨e, more⟩⟩
  · exact absurd rfl hne
  · simp only [numeral?, hspan]
  · obtain ⟨k, rfl⟩ := Nat.exists_eq_add_of_lt (hhead d (e :: more) rfl (by simp))
    simp only [numeral?, hspan]

/-- Digits without leading zeros are an integer. -/
lemma numeral?_map_digitChar (h : Text.AreDigits ds) (hne : ds ≠ [])
    (hhead : ∀ d more, ds = d :: more → more ≠ [] → 0 < d) :
    numeral? (ds.map Text.digitChar) = some (some (Text.ofDigits ds)) := by
  have hspan := Text.spanDigits_map_digitChar h [] (by simp)
  rw [List.append_nil] at hspan
  rw [numeral?_of_span hspan hne hhead, behind]

/-- A numeral with places or an exponent is no integer. -/
lemma numeral?_chars (n : RealNumeral) : numeral? n.chars = some none := by
  have hspan : Text.spanDigits n.chars =
      (n.whole, RealNumeral.placesChars n.places ++ RealNumeral.exponentChars n.exponent) :=
    Text.spanDigits_map_digitChar n.whole_digits _ digit?_head?_behind
  rw [numeral?_of_span hspan n.whole_ne_nil n.whole_head, RealNumeral.placesChars]
  obtain ⟨e, he⟩ := Option.isSome_iff_exists.1 (isSome_readExponent n.exponent)
  split_ifs with hplaces
  · cases hexponent : n.exponent with
    | none => exact absurd hexponent (n.real.resolve_left (not_not_intro hplaces))
    | some exponent =>
      rw [hexponent, RealNumeral.exponentChars] at he
      rw [RealNumeral.exponentChars, List.nil_append, behind, he, Option.map_some]
      · simp
      · simp
  · have hplaces_span := Text.spanDigits_map_digitChar n.places_digits
      (RealNumeral.exponentChars n.exponent) digit?_head?_exponentChars
    rw [List.cons_append, behind, hplaces_span]
    cases hall : n.places with
    | nil => exact absurd hall hplaces
    | cons d more => simp only [he, Option.map_some]

/-- Digits begin with no sign. -/
lemma head?_digits_ne_minus (h : Text.AreDigits ds) (hne : ds ≠ []) (rest : List Char) :
    (ds.map Text.digitChar ++ rest).head? ≠ some '-' := by
  cases ds with
  | nil => exact absurd rfl hne
  | cons d more =>
    intro hminus
    exact Text.digitChar_ne (h d (by simp)) (by decide) (Option.some.inj hminus)

/-- A number is a numeral behind a sign or without one. -/
lemma number?_signed (negative : Bool) {cs : List Char} (hcs : cs.head? ≠ some '-') :
    number? ((if negative then ['-'] else []) ++ cs) =
      (numeral? cs).map fun n =>
        n.elim (real (String.ofList ((if negative then ['-'] else []) ++ cs)))
          fun n => integer (if negative then -n else n) := by
  cases negative with
  | true => rfl
  | false =>
    rw [if_neg Bool.false_ne_true, List.nil_append, number?]
    · rfl
    · rintro rest rfl
      exact hcs rfl

/-- The text of a number is read as it is written. -/
lemma number?_text (n : Number) : number? n.text.toList = some (Json.number n).written := by
  cases n with
  | int i =>
    have hdigits := Text.areDigits_toDigits i.natAbs
    have hnumeral := numeral?_map_digitChar hdigits (Text.toDigits_ne_nil _)
      fun d more h hmore => Text.toDigits_head_pos h hmore
    have hhead := head?_digits_ne_minus hdigits (Text.toDigits_ne_nil _) []
    rw [List.append_nil] at hhead
    have hnumber := number?_signed (decide (i < 0)) hhead
    rw [hnumeral, Text.ofDigits_toDigits] at hnumber
    have hvalue : (if i < 0 then -(i.natAbs : ℤ) else i.natAbs) = i := by omega
    simp only [decide_eq_true_eq, Option.map_some, Option.elim_some, hvalue] at hnumber
    rw [Number.text, Text.toList_intText, hnumber, written]
  | real x =>
    obtain ⟨n, hn⟩ := x.exists_numeral
    have hhead : n.chars.head? ≠ some '-' :=
      head?_digits_ne_minus n.whole_digits n.whole_ne_nil _
    have hnumber := number?_signed x.negative hhead
    rw [numeral?_chars, ← hn, String.ofList_toList] at hnumber
    exact hnumber

/-- Digits are characters of a word. -/
lemma isWordChar_digits (h : Text.AreDigits ds) : ∀ c ∈ ds.map Text.digitChar, IsWordChar c := by
  intro c hc
  obtain ⟨d, hd, rfl⟩ := List.mem_map.1 hc
  exact isWordChar_digitChar (h d hd)

/-- A sign is a character of a word. -/
lemma isWordChar_sign (negative : Bool) : ∀ c ∈ if negative then ['-'] else [], IsWordChar c := by
  cases negative with
  | true => exact isWordChar_of_all (by decide)
  | false => exact isWordChar_of_all (by decide)

/-- The characters of a numeral are those of a word. -/
lemma isWordChar_chars (n : RealNumeral) : ∀ c ∈ n.chars, IsWordChar c := by
  have hplaces : ∀ c ∈ RealNumeral.placesChars n.places, IsWordChar c := by
    unfold RealNumeral.placesChars
    split_ifs
    · exact List.forall_mem_nil _
    · exact List.forall_mem_cons.2 ⟨by decide, isWordChar_digits n.places_digits⟩
  have hexponent : ∀ c ∈ RealNumeral.exponentChars n.exponent, IsWordChar c := by
    cases n.exponent with
    | none => exact List.forall_mem_nil _
    | some e =>
      refine List.forall_mem_cons.2 ⟨by decide, List.forall_mem_cons.2 ⟨?_, ?_⟩⟩
      · split_ifs <;> decide
      · exact isWordChar_digits (Text.areDigits_toDigits _)
  exact List.forall_mem_append.2 ⟨isWordChar_digits n.whole_digits,
    List.forall_mem_append.2 ⟨hplaces, hexponent⟩⟩

/-- The characters of a number are those of a word. -/
lemma isWordChar_text (n : Number) : ∀ c ∈ n.text.toList, IsWordChar c := by
  cases n with
  | int i =>
    have hsign := isWordChar_sign (decide (i < 0))
    simp only [decide_eq_true_eq] at hsign
    rw [Number.text, Text.toList_intText]
    exact List.forall_mem_append.2 ⟨hsign, isWordChar_digits (Text.areDigits_toDigits _)⟩
  | real x =>
    obtain ⟨n, hn⟩ := x.exists_numeral
    rw [Number.text, hn]
    exact List.forall_mem_append.2 ⟨isWordChar_sign x.negative, isWordChar_chars n⟩

end Numbers

/-! ## Pieces -/

section Pieces

variable {rest : List Char}

/-- A place where a word may end: a blank or a mark, or the end of the text. -/
def WordEnds (rest : List Char) : Prop :=
  ∀ c ∈ rest.head?, isSpace c = true ∨ (markToken c).isSome = true

/-- Pieces are glued to a character at a time. -/
lemma foldr_glue (l piece : List Char) (more : Option (List (List Char))) :
    l.foldr glue (more.map (piece :: ·)) = more.map ((l ++ piece) :: ·) := by
  induction l with
  | nil => rfl
  | cons c l ih =>
    rw [List.foldr_cons, ih]
    cases more with
    | none => rfl
    | some pieces => rfl

/-- An escaped character does not end a string. -/
lemma pieces_escape (c : Char) (rest : List Char) :
    pieces .inside (escape c ++ rest) = (escape c).foldr glue (pieces .inside rest) := by
  unfold escape
  split_ifs with hquote hslash hn hr ht hb hf hcontrol
  · rfl
  · rfl
  · rfl
  · rfl
  · rfl
  · rfl
  · rfl
  · have hdigits : ∀ n < 16, Text.hexChar n ≠ '"' ∧ Text.hexChar n ≠ '\\' :=
      fun n hn => ⟨hexChar_ne hn rfl, hexChar_ne hn rfl⟩
    obtain ⟨hhigh, hhigh'⟩ := hdigits (c.toNat / 16) (by omega)
    obtain ⟨hlow, hlow'⟩ := hdigits (c.toNat % 16) (by omega)
    simp [pieces, hhigh, hhigh', hlow, hlow']
  · simp [pieces, hquote, hslash]

/-- A string goes on to its quote. -/
lemma pieces_flatMap_escape (cs rest : List Char) :
    pieces .inside (cs.flatMap escape ++ '"' :: rest) =
      (pieces .between rest).map ((cs.flatMap escape ++ ['"']) :: ·) := by
  induction cs with
  | nil => rfl
  | cons c cs ih =>
    rw [List.flatMap_cons, List.append_assoc, pieces_escape, ih, foldr_glue, List.append_assoc]

/-- The text of a string is one piece. -/
lemma pieces_stringText (s : String) (rest : List Char) :
    pieces .between ((stringText s).toList ++ rest) =
      (pieces .between rest).map ((stringText s).toList :: ·) := by
  have hopen : pieces .between ('"' :: (s.toList.flatMap escape ++ '"' :: rest)) =
      ['"'].foldr glue (pieces .inside (s.toList.flatMap escape ++ '"' :: rest)) := rfl
  rw [toList_stringText, List.cons_append, List.append_assoc, List.singleton_append, hopen,
    pieces_flatMap_escape, foldr_glue]
  rfl

/-- A mark is a piece. -/
lemma pieces_mark {c : Char} (h : (markToken c).isSome = true) (rest : List Char) :
    pieces .between (c :: rest) = (pieces .between rest).map ([c] :: ·) := by
  obtain ⟨t, ht⟩ := Option.isSome_iff_exists.1 h
  obtain ⟨hspace, hquote⟩ := of_markToken ht
  simp [pieces, hspace, hquote, h]

/-- The rest of a word is read to its end. -/
lemma pieces_word_append {w : List Char} (hw : ∀ c ∈ w, IsWordChar c) (hrest : WordEnds rest) :
    pieces .word (w ++ rest) = (pieces .between rest).map (w :: ·) := by
  induction w with
  | nil =>
    cases rest with
    | nil => rfl
    | cons c rest =>
      rcases hrest c rfl with hspace | hmark
      · simp [pieces, hspace]
      · obtain ⟨t, ht⟩ := Option.isSome_iff_exists.1 hmark
        obtain ⟨hspace, hquote⟩ := of_markToken ht
        rw [pieces_mark hmark, List.nil_append, pieces]
        simp only [hspace, hquote, hmark, if_false, if_true, Bool.false_eq_true, Option.map_map]
        rfl
  | cons c w ih =>
    obtain ⟨hspace, hquote, hmark⟩ := hw c (by simp)
    have hmore := ih fun d hd => hw d (by simp [hd])
    have hword : pieces .word (c :: (w ++ rest)) = [c].foldr glue (pieces .word (w ++ rest)) := by
      simp [pieces, hspace, hquote, hmark]
    rw [List.cons_append, hword, hmore, foldr_glue]
    rfl

/-- A word is a piece. -/
lemma pieces_word {w : List Char} (hne : w ≠ []) (hw : ∀ c ∈ w, IsWordChar c)
    (hrest : WordEnds rest) :
    pieces .between (w ++ rest) = (pieces .between rest).map (w :: ·) := by
  cases w with
  | nil => exact absurd rfl hne
  | cons c w =>
    obtain ⟨hspace, hquote, hmark⟩ := hw c (by simp)
    have hword : pieces .between (c :: (w ++ rest)) =
        [c].foldr glue (pieces .word (w ++ rest)) := by
      simp [pieces, hspace, hquote, hmark]
    rw [List.cons_append, hword, pieces_word_append (fun d hd => hw d (by simp [hd])) hrest,
      foldr_glue]
    rfl

end Pieces

/-! ## Parts -/

/-- The text of a string is a value. -/
lemma part?_stringText (s : String) : part? (stringText s).toList = some (.value (string s)) := by
  have htokens := tokens_stringText s []
  rw [List.append_nil] at htokens
  have hnumber : number? (stringText s).toList = none := by
    rw [toList_stringText]
    rfl
  rw [part?, hnumber, htokens]
  rfl

/-- The text of a number is a value. -/
lemma part?_number (n : Number) :
    part? n.text.toList = some (.value (Json.number n).written) := by
  rw [part?, number?_text]

/-! ## Documents -/

section Documents

variable {state next : Expected × List Frame} {s piece rest : List Char} {part : Part}

/-- A piece is taken in before those behind it. -/
lemma feed_of_pieces (h : pieces .between s = (pieces .between rest).map (piece :: ·))
    (hpart : part? piece = some part) :
    feed state s = (take state part).bind fun next => feed next rest := by
  rw [feed, h]
  cases hrest : pieces .between rest with
  | none => cases take state part <;> simp [feed, hrest]
  | some ps =>
    simp only [Option.map_some, Option.bind_some, List.foldlM_cons, feed, hrest, hpart]
    rfl

/-- A mark is taken in. -/
lemma feed_mark {c : Char} (hc : (markToken c).isSome = true) (hpart : part? [c] = some part)
    (htake : take state part = some next) (rest : List Char) :
    feed state (c :: rest) = feed next rest := by
  rw [feed_of_pieces (pieces_mark hc rest) hpart, htake]
  rfl

/-- A name is taken in. -/
lemma feed_name {name : String} (htake : take state (.value (string name)) = some next)
    (rest : List Char) : feed state ((stringText name).toList ++ rest) = feed next rest := by
  rw [feed_of_pieces (pieces_stringText name rest) (part?_stringText name), htake]
  rfl

/-- What the text of a document leads to, where a value is expected. -/
def Leads (j : Json) : Prop :=
  ∀ (e : Expected) (stack : List Frame) (rest : List Char), e = .value ∨ e = .valueOrClose →
    WordEnds rest → feed (e, stack) (j.text.toList ++ rest) = feed (.after j.written, stack) rest

/-- A document that is one piece leads to its value. -/
lemma leads_of_piece {j : Json} (hpart : part? j.text.toList = some (.value j.written))
    (hpieces : ∀ rest, WordEnds rest → pieces .between (j.text.toList ++ rest) =
      (pieces .between rest).map (j.text.toList :: ·)) : Leads j := by
  rintro e stack rest he hrest
  rw [feed_of_pieces (hpieces rest hrest) hpart]
  rcases he with rfl | rfl
  · rfl
  · rcases stack with _ | ⟨_ | _, _⟩ <;> rfl

/-- A document that is one word leads to its value. -/
lemma leads_of_word {j : Json} (hpart : part? j.text.toList = some (.value j.written))
    (hne : j.text.toList ≠ []) (hw : ∀ c ∈ j.text.toList, IsWordChar c) : Leads j :=
  leads_of_piece hpart fun _ hrest => pieces_word hne hw hrest

/-- The opening of an array or object is taken in. -/
lemma take_open {e : Expected} (stack : List Frame) (he : e = .value ∨ e = .valueOrClose) :
    take (e, stack) (.mark .openArray) = some (.valueOrClose, .array [] :: stack) ∧
    take (e, stack) (.mark .openObject) = some (.nameOrClose, stack) := by
  rcases he with rfl | rfl
  · exact ⟨rfl, rfl⟩
  · rcases stack with _ | ⟨_ | _, _⟩ <;> exact ⟨rfl, rfl⟩

/-- The characters of the marks in a text. -/
lemma toList_marks : ",".toList = [','] ∧ ":".toList = [':'] ∧ "[".toList = ['['] ∧
    "]".toList = [']'] ∧ "\x7b".toList = ['\x7b'] ∧ "\x7d".toList = ['\x7d'] := by
  decide

/-- Before a mark a word may end. -/
lemma wordEnds_of_ends (h : Ends rest) : WordEnds rest := fun c hc => .inr (h c hc)

/-- The items behind others lead to the end of their array. -/
lemma feed_itemsText {items : List Json} (h : ∀ item ∈ items, Leads item) (before : List Written)
    (value : Written) (stack : List Frame) (rest : List Char) :
    feed (.after value, .array before :: stack) ((itemsText items).toList ++ ']' :: rest) =
      feed (.after (array ((value :: before).reverse ++ items.map written)), stack) rest := by
  induction items generalizing before value with
  | nil =>
    rw [List.map_nil, List.append_nil]
    exact feed_mark rfl rfl rfl rest
  | cons item items ih =>
    have hnext := h item (by simp) .value (.array (value :: before) :: stack)
      ((itemsText items).toList ++ ']' :: rest) (.inl rfl)
      (wordEnds_of_ends (ends_itemsText items rest))
    have hmore := ih (fun x hx => h x (by simp [hx])) (value :: before) item.written
    simp only [itemsText, String.toList_append, List.append_assoc, toList_marks,
      List.singleton_append]
    calc feed (.after value, .array before :: stack)
          (',' :: (item.text.toList ++ ((itemsText items).toList ++ ']' :: rest)))
        = feed (.value, .array (value :: before) :: stack)
            (item.text.toList ++ ((itemsText items).toList ++ ']' :: rest)) :=
          feed_mark rfl rfl rfl _
      _ = feed (.after (array ((item.written :: value :: before).reverse ++ items.map written)),
            stack) rest := by rw [hnext, hmore]
      _ = feed (.after (array ((value :: before).reverse ++ (item :: items).map written)), stack)
            rest := by simp

/-- The fields behind others lead to the end of their object. -/
lemma feed_fieldsText {fields : List (String × Json)} (h : ∀ field ∈ fields, Leads field.2)
    (before : List (String × Written)) (name : String) (value : Written) (stack : List Frame)
    (rest : List Char) :
    feed (.after value, .field before name :: stack)
        ((fieldsText fields).toList ++ '\x7d' :: rest) =
      feed (.after (object (((name, value) :: before).reverse ++ writtenFields fields)), stack)
        rest := by
  induction fields generalizing before name value with
  | nil =>
    rw [writtenFields, List.append_nil]
    exact feed_mark rfl rfl rfl rest
  | cons field fields ih =>
    obtain ⟨name', value'⟩ := field
    have hnext := h (name', value') (by simp) .value
      (.field ((name, value) :: before) name' :: stack)
      ((fieldsText fields).toList ++ '\x7d' :: rest) (.inl rfl)
      (wordEnds_of_ends (ends_fieldsText fields rest))
    have hmore := ih (fun x hx => h x (by simp [hx])) ((name, value) :: before) name'
      value'.written
    simp only [fieldsText, String.toList_append, List.append_assoc, toList_marks,
      List.singleton_append]
    calc feed (.after value, .field before name :: stack)
          (',' :: ((stringText name').toList ++ ':' :: (value'.text.toList ++
            ((fieldsText fields).toList ++ '\x7d' :: rest))))
        = feed (.name ((name, value) :: before), stack)
            ((stringText name').toList ++ ':' :: (value'.text.toList ++
              ((fieldsText fields).toList ++ '\x7d' :: rest))) := feed_mark rfl rfl rfl _
      _ = feed (.colon ((name, value) :: before) name', stack) (':' :: (value'.text.toList ++
            ((fieldsText fields).toList ++ '\x7d' :: rest))) := feed_name rfl _
      _ = feed (.value, .field ((name, value) :: before) name' :: stack) (value'.text.toList ++
            ((fieldsText fields).toList ++ '\x7d' :: rest)) := feed_mark rfl rfl rfl _
      _ = feed (.after (object (((name', value'.written) :: (name, value) :: before).reverse ++
            writtenFields fields)), stack) rest := by rw [hnext, hmore]
      _ = feed (.after (object (((name, value) :: before).reverse ++
            writtenFields ((name', value') :: fields))), stack) rest := by simp

/-- The text of an array leads to the array, if the texts of its items lead to them. -/
lemma leads_array {items : List Json} (h : ∀ item ∈ items, Leads item) :
    Leads (.array items) := by
  intro e stack rest he _
  obtain ⟨hopen, -⟩ := take_open stack he
  cases items with
  | nil =>
    calc feed (e, stack) ('[' :: ']' :: rest)
        = feed (.valueOrClose, .array [] :: stack) (']' :: rest) := feed_mark rfl rfl hopen _
      _ = feed (.after (array []), stack) rest := feed_mark rfl rfl rfl _
  | cons item items =>
    have hfirst := h item (by simp) .valueOrClose (.array [] :: stack)
      ((itemsText items).toList ++ ']' :: rest) (.inr rfl)
      (wordEnds_of_ends (ends_itemsText items rest))
    have hmore := feed_itemsText (fun x hx => h x (List.mem_cons_of_mem _ hx)) [] item.written
      stack rest
    simp only [text, String.toList_append, List.append_assoc, toList_marks, List.singleton_append]
    calc feed (e, stack) ('[' :: (item.text.toList ++ ((itemsText items).toList ++ ']' :: rest)))
        = feed (.valueOrClose, .array [] :: stack)
            (item.text.toList ++ ((itemsText items).toList ++ ']' :: rest)) :=
          feed_mark rfl rfl hopen _
      _ = feed (.after (Json.array (item :: items)).written, stack) rest := by
          rw [hfirst, hmore]
          simp [written]

/-- The text of an object leads to the object, if the texts of its values lead to them. -/
lemma leads_object {fields : List (String × Json)} (h : ∀ field ∈ fields, Leads field.2) :
    Leads (.object fields) := by
  intro e stack rest he _
  obtain ⟨-, hopen⟩ := take_open stack he
  cases fields with
  | nil =>
    calc feed (e, stack) ('\x7b' :: '\x7d' :: rest)
        = feed (.nameOrClose, stack) ('\x7d' :: rest) := feed_mark rfl rfl hopen _
      _ = feed (.after (object []), stack) rest := feed_mark rfl rfl rfl _
  | cons field fields =>
    obtain ⟨name, value⟩ := field
    have hfirst := h (name, value) (by simp) .value (.field [] name :: stack)
      ((fieldsText fields).toList ++ '\x7d' :: rest) (.inl rfl)
      (wordEnds_of_ends (ends_fieldsText fields rest))
    have hmore := feed_fieldsText (fun x hx => h x (List.mem_cons_of_mem _ hx)) [] name
      value.written stack rest
    simp only [text, String.toList_append, List.append_assoc, toList_marks, List.singleton_append]
    calc feed (e, stack) ('\x7b' :: ((stringText name).toList ++ ':' ::
          (value.text.toList ++ ((fieldsText fields).toList ++ '\x7d' :: rest))))
        = feed (.nameOrClose, stack) ((stringText name).toList ++ ':' ::
            (value.text.toList ++ ((fieldsText fields).toList ++ '\x7d' :: rest))) :=
          feed_mark rfl rfl hopen _
      _ = feed (.colon [] name, stack) (':' :: (value.text.toList ++
            ((fieldsText fields).toList ++ '\x7d' :: rest))) := feed_name rfl _
      _ = feed (.value, .field [] name :: stack) (value.text.toList ++
            ((fieldsText fields).toList ++ '\x7d' :: rest)) := feed_mark rfl rfl rfl _
      _ = feed (.after (Json.object ((name, value) :: fields)).written, stack) rest := by
          rw [hfirst, hmore]
          simp [written]

/-- The text of a document leads to the document. -/
theorem leads_text (j : Json) : Leads j := by
  induction j using Json.induction with
  | null => exact leads_of_word rfl (by decide) (isWordChar_of_all (by decide))
  | bool b =>
    cases b with
    | false => exact leads_of_word rfl (by decide) (isWordChar_of_all (by decide))
    | true => exact leads_of_word rfl (by decide) (isWordChar_of_all (by decide))
  | number n =>
    have hpart : part? (Json.number n).text.toList = some (.value (Json.number n).written) :=
      part?_number n
    refine leads_of_word hpart (fun hnil => ?_) (isWordChar_text n)
    rw [hnil] at hpart
    cases hpart
  | string s => exact leads_of_piece (part?_stringText s) fun rest _ => pieces_stringText s rest
  | array items ih => exact leads_array ih
  | object fields ih => exact leads_object ih

/-- A document with nothing to be read behind it is read as it was written. -/
lemma read?_text_append (j : Json) {rest : String} (hends : WordEnds rest.toList)
    (hrest : feed (.after j.written, []) rest.toList = some (.after j.written, [])) :
    read? (j.text ++ rest) = some j.written := by
  have hleads := leads_text j .value [] rest.toList (.inl rfl) hends
  rw [read?, String.toList_append]
  simp only [hleads, hrest]

/-- A document on a line is read as it was written. -/
theorem read?_line (j : Json) : read? (j.text ++ "\n") = some j.written := by
  refine read?_text_append j ?_ rfl
  rintro c ⟨⟩
  exact .inl rfl

/-- What is printed and read again is the same document for both readers: the one here reads it as
it was written, and the one that checkpoints are read with reads it back. -/
theorem read?_text_of_within {j : Json} (h : Within depthLimit j) :
    read? j.text = (Json.read? j.text).map Json.written := by
  have hread := read?_text_append j (show WordEnds "".toList from nofun) rfl
  rw [String.append_empty] at hread
  rw [hread, Json.read?_text h]
  rfl

end Documents

end Written

/-! ## Line breaks -/

section LineBreaks

/-- An escaped character has no line break in it. -/
lemma notMem_escape (c : Char) : '\n' ∉ escape c := by
  unfold escape
  split_ifs with hquote hslash hn hr ht hb hf hcontrol
  · decide
  · decide
  · decide
  · decide
  · decide
  · decide
  · decide
  · have hdigits : ∀ n < 16, '\n' ≠ Text.hexChar n := fun n hn => (hexChar_ne hn rfl).symm
    simp [hdigits (c.toNat / 16) (by omega), hdigits (c.toNat % 16) (by omega)]
  · simpa using Ne.symm hn

/-- The text of a string has no line break in it, whatever the string has. -/
lemma notMem_stringText (s : String) : '\n' ∉ (stringText s).toList := by
  simp only [toList_stringText, List.mem_cons, List.mem_append, List.mem_flatMap,
    List.not_mem_nil, or_false]
  rintro (hquote | ⟨c, -, hc⟩ | hquote)
  · exact absurd hquote (by decide)
  · exact notMem_escape c hc
  · exact absurd hquote (by decide)

/-- Items have no line break if none of them has one. -/
lemma notMem_itemsText {items : List Json} (h : ∀ item ∈ items, '\n' ∉ item.text.toList) :
    '\n' ∉ (itemsText items).toList := by
  induction items with
  | nil => simp [itemsText]
  | cons item items ih =>
    obtain ⟨hitem, hitems⟩ := List.forall_mem_cons.1 h
    simp [itemsText, hitem, ih hitems]

/-- Fields have no line break if none of their values has one. -/
lemma notMem_fieldsText {fields : List (String × Json)}
    (h : ∀ field ∈ fields, '\n' ∉ field.2.text.toList) :
    '\n' ∉ (fieldsText fields).toList := by
  induction fields with
  | nil => simp [fieldsText]
  | cons field fields ih =>
    obtain ⟨hfield, hfields⟩ := List.forall_mem_cons.1 h
    simp [fieldsText, notMem_stringText, hfield, ih hfields]

/-- No text of a document has a line break in it. -/
theorem notMem_text (j : Json) : '\n' ∉ j.text.toList := by
  induction j using Json.induction with
  | null => decide
  | bool b => cases b <;> decide
  | number n =>
    intro hbreak
    exact absurd (Written.isWordChar_text n '\n' hbreak) (by decide)
  | string s => exact notMem_stringText s
  | array items ih =>
    cases items with
    | nil => decide
    | cons item items =>
      obtain ⟨hitem, hitems⟩ := List.forall_mem_cons.1 ih
      simp [text, hitem, notMem_itemsText hitems]
  | object fields ih =>
    cases fields with
    | nil => decide
    | cons field fields =>
      obtain ⟨hfield, hfields⟩ := List.forall_mem_cons.1 ih
      simp [text, notMem_stringText, hfield, notMem_fieldsText hfields]

end LineBreaks

end TableTail.Json
